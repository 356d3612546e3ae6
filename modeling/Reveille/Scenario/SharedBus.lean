import Reveille.Poll.Event
import Reveille.Scenario.Session

/-!
# Scenarios about a shared bus

A bus of poll events that is there for everybody once it was installed. Only the first installation
counts; before it every use of the bus fails.
-/

namespace Reveille.SharedBusScenario

/-- What a receiver saw. -/
inductive Trace where
  | event (name : String) (e : Poll.Event)
  | stop (name : String)

structure State where
  installed : Bool := false
  trace : List Trace := []

inductive Request where
  | isInstalled
  | record (t : Trace)

abbrev Request.Reply : Request → Type
  | .isInstalled => Bool
  | .record _ => Unit

inductive Result where
  | done
  | failed (e : BusError)
  /-- A bus of this capacity was not installed. -/
  | rejected (capacity : Nat)
  | facts (capacity count : Nat) (closed : Bool)

def Result.of : Except BusError Unit → Result
  | .ok () => .done
  | .error e => .failed e

/-- Receivers go by the names under which they trace. -/
abbrev domain : Domain :=
  { Event := Poll.Event, Id := Unit, decEqId := inferInstance, Service := Empty, Sink := String
    Calls := ⟨Request, Request.Reply⟩, State, Result }

/-- Answers a request. -/
def answer : (q : Request) → State → Option (Answer q.Reply × State)
  | .isInstalled, s => some (.reply s.installed, s)
  | .record t, s => some (.reply (), { s with trace := s.trace ++ [t] })

open Activity

def call (q : Request) : Activity domain q.Reply :=
  Program.request (S := domain.effects) (.call q)

/-- The receivers, which all have the same name in the log. -/
def cast (logName : String) : Cast domain :=
  { service := nofun
    sink := fun name =>
      { name := logName
        onEvent := fun e => call (.record (.event name e))
        onStop := call (.record (.stop name))
        isRetired := .done false }
    nameId := fun _ => ""
    answer }

inductive Step where
  | install (capacity : Nat)
  | facts
  | send (e : Poll.Event)
  | add (name : String)
  | close

/-- Does something with the bus if there is one. -/
def onBus (r : Activity domain (Except BusError Unit)) : Activity domain Result := do
  if ← call .isInstalled then
    return .of (← r)
  return .failed .notInitialized

/-- Installs a bus unless there is one; the worker of a bus that is not installed ends at once. -/
def installBus (logName : String) (s : System domain) (capacity : Nat) : Act domain :=
  if s.state.installed then
    let notices := ((Bus.Worker.init : Bus.Worker (Receiver domain) Poll.Event).resume none).2
    .change (s.addLines (notices.map (Bus.Notice.line (cast logName).receiverName)))
      (.rejected (max capacity 1))
  else
    .change { s with channel := .empty capacity, state := { s.state with installed := true } } .done

def Step.act (logName : String) (s : System domain) : Step → Act domain
  | .install capacity => installBus logName s capacity
  | .facts => .change s (
      if s.state.installed then .facts s.channel.capacity s.receiverCount s.isClosed
      else .failed .notInitialized)
  | .send e => .begin (onBus (Activity.send e))
  | .add name => .begin (onBus (register name))
  | .close => .begin (onBus Activity.closeBus)

structure Answer where
  reply : Reply Result
  trace : List Trace

/-- Carries out the steps one after another. -/
def run (logName : String) :
    Session domain → List (Step × Bool) → Session domain × List Answer
  | s, [] => (s, [])
  | s, (step, settles) :: rest =>
    let (s, reply) := s.perform (cast logName) settles (step.act logName s.system)
    let answer := { reply, trace := s.system.state.trace }
    let s := match reply with
      | .settled _ _ _ =>
        { s with system := { s.system with state := { s.system.state with trace := [] } } }
      | .unsettled _ => s
    let (s, answers) := run logName s rest
    (s, answer :: answers)

/-- No bus is installed; the one that is there is never used. -/
def init (task : Nat) : System domain :=
  { clock := { wall := .first }, hostTime := .first, channel := .empty 1, workerNumber := task
    state := {} }

end Reveille.SharedBusScenario
