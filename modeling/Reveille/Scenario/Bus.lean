import Reveille.Bus.LogReceiver
import Reveille.Scenario.Session

/-!
# Scenarios about a bus

A bus of numbers with receivers that follow a script: they can be slow, wait for a permit, retire,
or panic. What they see is kept in a trace.
-/

namespace Reveille.BusScenario

/-- What a panicking receiver leaves behind. -/
inductive PanicKind where
  /-- The same text every time. -/
  | constant
  /-- A text that names the occasion. -/
  | specific
  /-- Something that is not text. -/
  | other

/-- The script of a receiver. -/
structure Script where
  /-- Milliseconds taken by every event. -/
  slow : Nat := 0
  /-- Events that wait for a permit. -/
  gateOn : List Int := []
  retireOn : List Int := []
  panicOn : List Int := []
  panicStop : Bool := false
  panicKind : PanicKind := .specific

inductive Kind where
  | scripted (s : Script)
  /-- Only traces events. -/
  | plain
  | log

/-- A receiver: the name under which it traces, and the one it has in the log. -/
structure Sink where
  name : String
  logName : String
  kind : Kind

/-- What a receiver saw. -/
inductive Trace where
  | event (name : String) (v : Int)
  | passed (name : String) (v : Int)
  | stop (name : String)

/-- What changes of a receiver. -/
structure SinkState where
  permits : Nat := 0
  retired : Bool := false
  /-- Panics when asked whether it is retired. -/
  broken : Bool := false
  seen : Nat := 0
  deriving Inhabited

structure State where
  sinks : List SinkState
  trace : List Trace := []

namespace State

def sink (s : State) (i : Nat) : SinkState := s.sinks.getD i {}

def modify (s : State) (i : Nat) (f : SinkState → SinkState) : State :=
  { s with sinks := s.sinks.modify i f }

end State

inductive Request where
  | record (t : Trace)
  | takePermit (i : Nat)
  | retire (i : Nat)
  | isRetired (i : Nat)
  /-- Counts an event, and gives the new count. -/
  | count (i : Nat)
  | seen (i : Nat)

abbrev Request.Reply : Request → Type
  | .record _ => Unit
  | .takePermit _ => Unit
  | .retire _ => Unit
  | .isRetired _ => Bool
  | .count _ => Nat
  | .seen _ => Nat

inductive Result where
  | done
  | failed (e : BusError)
  /-- The results of several requests in a row. -/
  | several (results : List (Except BusError Unit))

def Result.of : Except BusError Unit → Result
  | .ok () => .done
  | .error e => .failed e

abbrev domain : Domain :=
  { Event := Int, Id := Unit, decEqId := inferInstance, Service := Empty, Sink := Nat
    Calls := ⟨Request, Request.Reply⟩, State, Result }

/-- Answers a request, or blocks. -/
def answer : (q : Request) → State → Option (Answer q.Reply × State)
  | .record t, s => some (.reply (), { s with trace := s.trace ++ [t] })
  | .takePermit i, s =>
    if 0 < (s.sink i).permits then
      some (.reply (), s.modify i fun k => { k with permits := k.permits - 1 })
    else none
  | .retire i, s => some (.reply (), s.modify i fun k => { k with retired := true })
  | .isRetired i, s =>
    if (s.sink i).broken then some (.panicked ⟨some "retired check failed"⟩, s)
    else some (.reply (s.sink i).retired, s)
  | .count i, s =>
    some (.reply ((s.sink i).seen + 1), s.modify i fun k => { k with seen := k.seen + 1 })
  | .seen i, s => some (.reply (s.sink i).seen, s)

open Activity

def call (q : Request) : Activity domain q.Reply :=
  Program.request (S := domain.effects) (.call q)

/-- Panics as the script says, on some occasion. -/
def fail (kind : PanicKind) (occasion : String) : Activity domain Unit :=
  match kind with
  | .constant => panic ⟨some "boom"⟩
  | .specific => panic ⟨some ("boom on " ++ occasion)⟩
  | .other => panic ⟨none⟩

/-- What a scripted receiver does with an event. -/
def Script.onEvent (s : Script) (i : Nat) (name : String) (v : Int) : Activity domain Unit := do
  call (.record (.event name v))
  pause s.slow
  if v ∈ s.gateOn then
    call (.takePermit i)
    call (.record (.passed name v))
  if v ∈ s.retireOn then
    call (.retire i)
  if v ∈ s.panicOn then
    fail s.panicKind (toString v)

def Script.onStop (s : Script) (name : String) : Activity domain Unit := do
  call (.record (.stop name))
  if s.panicStop then
    fail s.panicKind "stop"

/-- The activities of a receiver with its number. -/
def Sink.activities (k : Sink) (i : Nat) : Reveille.Sink domain :=
  match k.kind with
  | .scripted s =>
    { name := k.logName
      onEvent := s.onEvent i k.name
      onStop := s.onStop k.name
      isRetired := call (.isRetired i) }
  | .plain =>
    { name := k.logName
      onEvent := fun v => call (.record (.event k.name v))
      onStop := .done ()
      isRetired := .done false }
  | .log =>
    { name := k.logName
      onEvent := fun v => do
        let seen ← call (.count i)
        log ((Bus.LogReceiver.mk k.logName seen).eventLine (toString v))
      onStop := do
        let seen ← call (.seen i)
        log (Bus.LogReceiver.mk k.logName seen).stopLine
      isRetired := .done false }

/-- The activities of a receiver that does nothing. -/
def idle : Reveille.Sink domain :=
  { name := "", onEvent := fun _ => .done (), onStop := .done (), isRetired := .done false }

def cast (sinks : List Sink) : Cast domain :=
  { service := nofun
    sink := fun i => match sinks[i]? with
      | some k => k.activities i
      | none => idle
    nameId := fun _ => ""
    answer }

inductive Step where
  | add (sink : Nat)
  | send (v : Int)
  | sendAll (vs : List Int)
  /-- Sends without waiting, one after another. -/
  | trySend (vs : List Int)
  | close
  | release (sink n : Nat)
  | setRetired (sink : Nat) (retired : Bool)
  | breakRetired (sink : Nat)
  | advance (ms : Nat)

/-- Sends one event after another. -/
def sendEach : List Int → Activity domain (List (Except BusError Unit))
  | [] => pure []
  | v :: vs => do
    let r ← send v
    return r :: (← sendEach vs)

/-- Sends one event after another without waiting. -/
def tryEach (s : System domain) : List Int → System domain × List (Except BusError Unit)
  | [] => (s, [])
  | v :: vs =>
    match s.channel.trySend (.event v) with
    | .ok channel =>
      let (s, rest) := tryEach { s with channel } vs
      (s, .ok () :: rest)
    | .error e =>
      let (s, rest) := tryEach s vs
      (s, .error e :: rest)

/-- Changes a receiver. -/
def touch (s : System domain) (i : Nat) (f : SinkState → SinkState) : Act domain :=
  .change { s with state := s.state.modify i f } .done

def Step.act (s : System domain) : Step → Act domain
  | .add i => .begin do return .of (← register i)
  | .send v => .begin do return .of (← Activity.send v)
  | .sendAll vs => .begin do return .several (← sendEach vs)
  | .trySend vs => let (s, results) := tryEach s vs; .change s (.several results)
  | .close => .begin do return .of (← closeBus)
  | .release i n => touch s i fun k => { k with permits := k.permits + n }
  | .setRetired i retired => touch s i fun k => { k with retired }
  | .breakRetired i => touch s i fun k => { k with broken := true }
  | .advance ms => .pass ms .done

/-- The answer to a step, and what can be seen of the bus after it. -/
structure Answer where
  reply : Reply Result
  trace : List Trace
  closed : Bool
  count : Nat
  /-- The names of the log receivers, and how many events they saw. -/
  seen : List (String × Nat)

def observe (sinks : List Sink) (s : System domain) (reply : Reply Result) : Answer :=
  { reply
    trace := s.state.trace
    closed := s.isClosed
    count := s.receiverCount
    seen := sinks.zipIdx.filterMap fun (k, i) =>
      match k.kind with
      | .log => some (k.logName, (s.state.sink i).seen)
      | _ => none }

/-- Carries out the steps one after another. -/
def run (sinks : List Sink) :
    Session domain → List (Step × Bool) → Session domain × List Answer
  | s, [] => (s, [])
  | s, (step, settles) :: rest =>
    let (s, reply) := s.perform (cast sinks) settles (step.act s.system)
    let answer := observe sinks s.system reply
    let s := match reply with
      | .settled _ _ _ =>
        { s with system := { s.system with state := { s.system.state with trace := [] } } }
      | .unsettled _ => s
    let (s, answers) := run sinks s rest
    (s, answer :: answers)

/-- A new bus for some receivers, none of them registered, with the number of its worker's task. -/
def init (task capacity : Nat) (sinks : List Sink) : System domain :=
  { clock := { wall := .first }
    hostTime := .first
    channel := .empty capacity
    workerNumber := task
    state := { sinks := sinks.map fun _ => {} } }

end Reveille.BusScenario
