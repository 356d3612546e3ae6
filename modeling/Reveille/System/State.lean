import Reveille.Bus.Channel
import Reveille.System.Routine
import Reveille.Time.Clock

/-!
# The state of a system

The bus, its worker, the runners and the calls from outside, together with the time and the state
around them. A worker or a runner that waits for a reply of a service or of a receiver holds the
rest of the routine that will give it.
-/

namespace Reveille

variable {D : Domain}

/-- Who takes part in a system. -/
inductive Actor where
  | worker
  | runner (i : Nat)
  | call (i : Nat)
  deriving DecidableEq, Inhabited

/-- The worker of the bus, and what is left of the routine it waits for. -/
structure WorkerTask (D : Domain) where
  machine : Bus.Worker (Receiver D) D.Event := .init
  pending : Option (Routine D machine.request.Reply) := none

/-- A runner with its inbox. -/
structure RunnerTask (D : Domain) where
  service : D.Service
  /-- It was registered, and may make its seeding pass. -/
  launched : Bool := false
  /-- It was handed out, and may go beyond its seeding pass. -/
  released : Bool := false
  stopRequested : Bool := false
  /-- It is to be dropped. -/
  aborted : Bool := false
  /-- Relevant events, oldest first. -/
  inbox : List D.Event := []
  /-- When the present wait runs out, once it has begun. -/
  timer : Option Nat := none
  machine : Runner D.Event D.Id (Items D)
  /-- What is left of the routine it waits for. -/
  pending : Option (Routine D machine.request.Reply) := none
  ending : Option Ending := none

/-- The runner may make steps now. -/
def RunnerTask.mayRun (t : RunnerTask D) : Bool :=
  t.launched && (t.released || t.machine.phase.isSeeding) && t.ending.isNone

/-- A call from outside. -/
inductive CallTask (D : Domain) where
  | running (r : Routine D D.Result)
  | ended (result : Except Panic D.Result)

/-- A number so large that a jitter shortens nothing by it. -/
def mostDraw : Nat := wordSize

/-- The state of a system. -/
structure System (D : Domain) where
  /-- Nanoseconds since the start. -/
  time : Nat := 0
  clock : Clock
  /-- What the clock of the host shows when it is read next. -/
  hostTime : Instant
  /-- The numbers still to be taken by chance; after them it is always `mostDraw`. -/
  draws : List Nat := []
  /-- How many steps a runner still makes when it is aborted: none if it waits then, but a runner
  that is at work on another thread cannot be interrupted. -/
  momentum : Nat → Nat := fun _ => 0
  channel : Bus.Channel Actor (Bus.Command (Receiver D) D.Event)
  worker : WorkerTask D := {}
  /-- The number of the worker's task. -/
  workerNumber : Nat := 1
  runners : List (RunnerTask D) := []
  calls : List (CallTask D) := []
  state : D.State
  /-- What was written to the log, newest first. -/
  log : List Log.Line := []

namespace System

/-- The time on a clock. -/
def timeOn (s : System D) : TimeSource → Instant
  | .clock => s.clock.reading (Duration.clamp s.time)
  | .host => s.hostTime

/-- The system after a clock was read. The clock of the host goes on by itself, so that it shows a
later instant at the next reading. -/
def afterReading (s : System D) : TimeSource → System D
  | .clock => s
  | .host => { s with hostTime := s.hostTime.next }

/-- Writes lines to the log, one after another. -/
def addLines (s : System D) (lines : List Log.Line) : System D :=
  { s with log := lines.reverse ++ s.log }

def modifyRunner (s : System D) (i : Nat) (f : RunnerTask D → RunnerTask D) : System D :=
  { s with runners := s.runners.modify i f }

/-- The runner is there and its loop has not ended. -/
def isRunning (s : System D) (i : Nat) : Bool :=
  match s.runners[i]? with
  | some t => t.ending.isNone
  | none => false

/-- Starts a call. -/
def start (s : System D) (a : Activity D D.Result) : System D :=
  { s with calls := s.calls ++ [.running a.routine] }

/-- The result of a call, if it is over. -/
def result? (s : System D) (i : Nat) : Option (Except Panic D.Result) :=
  match s.calls[i]? with
  | some (.ended r) => some r
  | _ => none

/-- How many receivers the worker says it has. -/
def receiverCount (s : System D) : Nat := s.worker.machine.count

def isClosed (s : System D) : Bool := !s.channel.accepting

/-- The bus at a glance. -/
def busText (s : System D) : String :=
  "Manager \x7b capacity: " ++ toString s.channel.capacity ++ ", receivers: "
    ++ toString s.receiverCount ++ ", closed: " ++ toString s.isClosed ++ " \x7d"

end System

end Reveille
