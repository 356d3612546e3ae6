import Reveille.Log
import Reveille.Poll.Due
import Reveille.Poll.Event
import Reveille.Poll.Store
import Reveille.Runner.Service

/-!
# The three services of polls

Each service has one duty: to start polls, to advance their rounds, or to close them. All of them
work in the same way. A duty is due by a rule on the poll and the time (`Duty.due`). To process a
poll is to load it, to read the time, to look at the rule again, to replace the state that was
loaded, and to announce that (`Duty.process`); when another path was faster, the replacement fails
and nothing happens.

The services are programs over `Poll.Request`: requests to the store, the time, and events to
publish. The same goes for creating a poll (`createPoll`) and casting a vote (`castVote`).
-/

namespace Reveille.Poll

/-- What the programs about polls ask for. -/
inductive Request where
  | store (q : Store.Request)
  | readTime
  | publish (e : Event)
  | log (line : Log.Line)

/-- The replies to a request. -/
abbrev Request.Reply : Request → Type
  | .store q => q.Reply
  | .readTime => Instant
  | .publish _ => Except BusError Unit
  | .log _ => Unit

abbrev requests : Signature := ⟨Request, Request.Reply⟩

/-- A program about polls. -/
abbrev Procedure (α : Type) := Program requests α

namespace Procedure

def query (q : Request) : Procedure q.Reply := Program.request (S := requests) q

/-- Asks the store. -/
def fromStore (q : Store.Request) : Procedure q.Reply := query (.store q)

end Procedure

open Procedure

/-- The duty of a service. -/
inductive Duty where
  | start
  | advance
  | close
  deriving DecidableEq, Inhabited

/-- A change of a poll that is due: the new state, its event, and what is said about it. -/
structure Move where
  next : State
  event : Event
  line : Log.Line
  outcome : Processed

namespace Duty

def name : Duty → String
  | .start => "poll-start"
  | .advance => "poll-advance"
  | .close => "poll-close"

/-- When a poll is due for a duty. -/
def due : Duty → Poll → Instant → DueTime
  | .start, p, _ => p.startDue
  | .advance, p, now => p.advanceDue now
  | .close, p, now => p.closeDue now

/-- The events after which a poll may be due earlier. -/
def listensTo : Duty → Event → Bool
  | .start, .created _ => true
  | .advance, .started _ _ | .advance, .voteCast _ _ _ => true
  | .close, .started _ _ | .close, .voteCast _ _ _ | .close, .roundAdvanced _ _ => true
  | _, _ => false

/-- What a duty does to a poll that is due. -/
def move? (d : Duty) (p : Poll) (now : Instant) : Option Move :=
  match d with
  | .start => some
    { next := .fresh 1 now
      event := .started p.id 1
      line := ⟨.startService, .info, "poll started", [("poll", p.id.text), ("title", p.title)]⟩
      outcome := .advancedUntil .never }
  | .advance => p.state.round?.map fun round =>
    { next := .fresh (round + 1) now
      event := .roundAdvanced p.id (round + 1)
      line := ⟨.advanceService, .info, "round advanced",
        [("poll", p.id.text), ("round", toString (round + 1).toNat),
          ("early", toString p.hasQuorum)]⟩
      outcome := .advanced }
  | .close => p.state.round?.map fun rounds =>
    { next := .closed now rounds
      event := .closed p.id rounds
      line := ⟨.closeService, .info, "poll closed",
        [("poll", p.id.text), ("rounds", toString rounds.toNat)]⟩
      outcome := .advancedUntil .never }

/-- The due time of every stored poll. -/
def items (d : Duty) : Feed requests (Reported Id) :=
  .ask .readTime fun (now : Instant) => .ask (.store .all) fun (reply : Except StoreError _) =>
    match reply with
    | .ok polls => .ofList (polls.map fun p => .ok (p.id, d.due p now))
    | .error e => .ofList [.error (.store e.message)]

/-- The due time of one poll; one that is not there is never due. -/
def check (d : Duty) (id : Id) : Procedure (Except ServiceError DueTime) := do
  match ← fromStore (.get id) with
  | .ok p => return .ok (d.due p (← query .readTime))
  | .error (.notFound _) => return .ok .never
  | .error e => return .error (.store e.message)

/-- Loads a poll if it is due, together with the time. -/
def loadDue (d : Duty) (id : Id) : Procedure (Except ServiceError (Option (Poll × Instant))) := do
  match ← fromStore (.get id) with
  | .ok p =>
    let now ← query .readTime
    return .ok (if (d.due p now).isDue now then some (p, now) else none)
  | .error (.notFound _) => return .ok none
  | .error e => return .error (.store e.message)

/-- Replaces the state of a loaded poll, unless another path was faster. -/
def replace (p : Poll) (next : State) : Procedure (Except ServiceError Bool) := do
  match ← fromStore (.update p.id p.state next) with
  | .ok _ => return .ok true
  | .error (.conflict id) | .error (.notFound id) =>
    query (.log ⟨.pollContext, .debug, "poll moved concurrently", [("poll", id.text)]⟩)
    return .ok false
  | .error e => return .error (.store e.message)

/-- Announces a change; if that fails, the change stays. -/
def announce (e : Event) : Procedure Unit := do
  match ← query (.publish e) with
  | .ok () => return ()
  | .error cause => query (.log ⟨.pollContext, .warn, "event not published",
      [("poll", e.poll.text), ("event", e.label), ("error", cause.message)]⟩)

/-- Carries out a move on a loaded poll. -/
def carryOut (p : Poll) (m : Move) : Procedure (Except ServiceError Processed) := do
  match ← replace p m.next with
  | .ok true =>
    query (.log m.line)
    announce m.event
    return .ok m.outcome
  | .ok false => return .ok .nothingToDoYet
  | .error e => return .error e

/-- Processes a poll if it is due. -/
def process (d : Duty) (id : Id) : Procedure (Except ServiceError Processed) := do
  match ← d.loadDue id with
  | .ok (some (p, now)) =>
    match d.move? p now with
    | some m => carryOut p m
    | none => return .ok .nothingToDoYet
  | .ok none => return .ok .nothingToDoYet
  | .error e => return .error e

/-- The polls that an event is about. -/
def receive (d : Duty) (e : Event) : Procedure (List Id) := do
  match d with
  | .advance => query (.log ⟨.advanceService, .debug, "advance candidate",
      [("poll", e.poll.text), ("event", e.label)]⟩)
  | _ => pure ()
  return [e.poll]

end Duty

/-- Stores a new poll and announces it. -/
def createPoll (p : Poll) : Procedure (Except PollError Unit) := do
  match ← fromStore (.insert p) with
  | .error e => return .error (.store e)
  | .ok () =>
    match ← query (.publish (.created p.id)) with
    | .error e => return .error (.bus e)
    | .ok () => return .ok ()

/-- Records a vote in the present round and announces it; gives the round. -/
def castVote (id : Id) (voter : String) : Procedure (Except PollError UInt32) := do
  match ← fromStore (.recordVote id voter) with
  | .error e => return .error (.store e)
  | .ok round =>
    match ← query (.publish (.voteCast id round voter)) with
    | .error e => return .error (.bus e)
    | .ok () => return .ok round

end Reveille.Poll
