import Reveille.Bus.Worker
import Reveille.System.Activity

/-!
# Routines

A `Routine` is an activity broken down into atomic requests. A request that cannot be answered yet
blocks the routine until it can.

To send an event is to enter the channel, to wait for a slot, and to commit into it (`enqueue`). To
close the bus is to shut the channel first and to wait for the worker afterwards; only the first
caller does either (`close`). A runner is registered before its seeding pass begins; once that pass
is over it is handed out, and only then does it go on (`startRunner`). `Activity.routine` breaks
down a whole activity.
-/

namespace Reveille

/-- A receiver on the bus. -/
inductive Receiver (D : Domain) where
  | sink (s : D.Sink)
  /-- The receiver of a runner. -/
  | inbox (s : D.Service) (runner : Nat)

namespace System

/-- The atomic requests of a routine. -/
inductive Request (D : Domain) where
  | readTime (source : TimeSource)
  | elapsed
  | sleepUntil (time : Nat)
  /-- A number taken by chance. -/
  | draw
  | panic (p : Panic)
  | hang
  | log (line : Log.Line)
  /-- Enters the channel of the bus, if it accepts senders. -/
  | enter
  | requestSlot
  /-- Waits for the slot, or learns that there will be none. -/
  | awaitSlot
  /-- Commits into the slot, unless closing has begun. -/
  | commit (c : Bus.Command (Receiver D) D.Event)
  | trySend (e : D.Event)
  /-- Begins to close the bus, unless that was done. -/
  | beginClose
  /-- Whether closing has begun. -/
  | isClosed
  /-- Waits for the end of the worker; gives the number of its task, and how it ended. -/
  | awaitWorker
  | isInboxOpen (runner : Nat)
  /-- Puts an event into an inbox, if it is open. -/
  | push (runner : Nat) (e : D.Event)
  /-- Creates a runner that waits to be launched. -/
  | hire (s : D.Service)
  /-- Lets a runner make its seeding pass. -/
  | launch (runner : Nat)
  /-- Waits for the end of the seeding pass, and lets the runner go on; if the pass panics, so does
  the routine. -/
  | release (runner : Nat)
  | requestStop (runner : Nat)
  | awaitEnd (runner : Nat) (until? : Option Nat)
  | abort (runner : Nat)
  | call (c : D.Calls.Request)

/-- The replies to a request. -/
abbrev Request.Reply {D : Domain} : Request D → Type
  | .readTime _ => Instant
  | .elapsed => Nat
  | .sleepUntil _ => Unit
  | .draw => Nat
  | .panic _ => Empty
  | .hang => Empty
  | .log _ => Unit
  | .enter => Bool
  | .requestSlot => Unit
  | .awaitSlot => Bool
  | .commit _ => Bool
  | .trySend _ => Except BusError Unit
  | .beginClose => Bool
  | .isClosed => Bool
  | .awaitWorker => Nat × Except Panic Unit
  | .isInboxOpen _ => Bool
  | .push _ _ => Bool
  | .hire _ => Nat
  | .launch _ => Unit
  | .release _ => Unit
  | .requestStop _ => Unit
  | .awaitEnd _ _ => Option Ending
  | .abort _ => Unit
  | .call c => D.Calls.Reply c

/-- The time until which a request blocks at most. -/
def Request.deadline? {D : Domain} : Request D → Option Nat
  | .sleepUntil time => some time
  | .awaitEnd _ until? => until?
  | _ => none

end System

abbrev Domain.requests (D : Domain) : Signature := ⟨System.Request D, System.Request.Reply⟩

/-- A program of atomic requests. -/
abbrev Routine (D : Domain) (α : Type) := Program D.requests α

namespace Routine

variable {D : Domain}

/-- The routine of one request. -/
def query (q : System.Request D) : Routine D q.Reply := Program.request (S := D.requests) q

/-! ### The bus -/

/-- Waits for a slot in the queue and commits a command. -/
def enqueue (c : Bus.Command (Receiver D) D.Event) : Routine D (Except BusError Unit) := do
  if ← query .enter then
    query .requestSlot
    if ← query .awaitSlot then
      if ← query (.commit c) then
        return .ok ()
  return .error .closed

/-- What is said about a worker that died. -/
def workerDied (task : Nat) (p : Panic) : Log.Line :=
  let error := match p.text? with
    | some text => "task " ++ toString task ++ " panicked with message " ++ Text.quoted text
    | none => "task " ++ toString task ++ " panicked"
  ⟨.bus, .warn, "event bus worker terminated abnormally", [("error", error)]⟩

/-- Closes the bus and waits for its worker. -/
def close : Routine D (Except BusError Unit) := do
  if ← query .beginClose then
    match ← query .awaitWorker with
    | (_, .ok ()) => return .ok ()
    | (task, .error p) =>
      query (.log (workerDied task p))
      return .ok ()
  return .error .alreadyClosed

/-! ### Runners -/

/-- Registers a runner, seeds it, and lets it run. -/
def startRunner (s : D.Service) : Routine D (Except RuntimeError (Handle D.Service)) := do
  let runner ← query (.hire s)
  match ← enqueue (.register (.inbox s runner)) with
  | .error e => return .error (.bus e)
  | .ok () =>
    query (.launch runner)
    query (.release runner)
    return .ok ⟨s, runner⟩

end Routine

/-! ### Activities -/

variable {D : Domain}

/-- An effect in atomic requests. -/
def Effect.routine : (e : Effect D) → Routine D e.Reply
  | .readTime source => Routine.query (.readTime source)
  | .elapsed => Routine.query .elapsed
  | .sleepUntil time => Routine.query (.sleepUntil time)
  | .panic p => Routine.query (.panic p)
  | .hang => Routine.query .hang
  | .log line => Routine.query (.log line)
  | .send e => Routine.enqueue (.event e)
  | .trySend e => Routine.query (.trySend e)
  | .register s => Routine.enqueue (.register (.sink s))
  | .closeBus => Routine.close
  | .isBusClosed => Routine.query .isClosed
  | .startRunner s => Routine.startRunner s
  | .requestStop h => Routine.query (.requestStop h.runner)
  | .awaitEnd h until? => Routine.query (.awaitEnd h.runner until?)
  | .abort h => Routine.query (.abort h.runner)
  | .call c => Routine.query (.call c)

/-- An activity in atomic requests. -/
def Activity.routine {α : Type} (a : Activity D α) : Routine D α :=
  Program.interpret Effect.routine a

/-! ### Receivers -/

namespace Cast

/-- What the name of a receiver is in the log. -/
def receiverName (c : Cast D) : Receiver D → String
  | .sink s => (c.sink s).name
  | .inbox _ _ => "service-runner"

/-- A line that the receiver of a runner writes. -/
def inboxLine (level : Log.Level) (service message : String) : Log.Line :=
  ⟨.runner, level, message, [("service", service)]⟩

/-- Passes an event on to the inbox of a runner if it is relevant. -/
def forward (s : Service D) (runner : Nat) (e : D.Event) : Routine D Unit := do
  if ← Routine.query (.isInboxOpen runner) then
    if ← (s.filterEvent e).routine then
      if !(← Routine.query (.push runner e)) then
        Routine.query (.log (inboxLine .trace s.name "runner gone; event dropped"))

/-- Takes note that there will be no more events for a runner. -/
def detach (s : Service D) (runner : Nat) : Routine D Unit := do
  if ← Routine.query (.isInboxOpen runner) then
    Routine.query (.log (inboxLine .debug s.name "bus closed; runner continues on alarms only"))
  else
    Routine.query (.log (inboxLine .debug s.name "runner stopped; receiver detached"))

/-- What a receiver does with an event. -/
def onEvent (c : Cast D) : Receiver D → D.Event → Routine D Unit
  | .sink s, e => ((c.sink s).onEvent e).routine
  | .inbox s runner, e => forward (c.service s) runner e

/-- What a receiver does when it is told to stop. -/
def onStop (c : Cast D) : Receiver D → Routine D Unit
  | .sink s => (c.sink s).onStop.routine
  | .inbox s runner => detach (c.service s) runner

/-- Whether a receiver is retired; a runner's receiver is when the runner is over. -/
def isRetired (c : Cast D) : Receiver D → Routine D Bool
  | .sink s => (c.sink s).isRetired.routine
  | .inbox _ runner => do return !(← Routine.query (.isInboxOpen runner))

end Cast

end Reveille
