import Reveille.Program
import Reveille.Runner.Machine

/-!
# What a system is made of

A system is one bus with its worker, runners, and calls made from outside. A `Domain` says what it
is about: its events and entities, the names of its services and of the receivers that are no
runners, and the requests that can be made of the state around them.

Everything that services, receivers and callers do is an `Activity`: a program over the effects that
are open to all of them. A `Cast` gives every service and every receiver its activities, and answers
the requests made of the surrounding state.
-/

namespace Reveille

/-- What a system is about. -/
structure Domain where
  Event : Type
  Id : Type
  decEqId : DecidableEq Id
  /-- Names of services. -/
  Service : Type
  /-- Names of receivers that are no runners. -/
  Sink : Type
  /-- Requests made of the surrounding state. -/
  Calls : Signature
  State : Type
  /-- What a call from outside comes back with. -/
  Result : Type

attribute [instance] Domain.decEqId

/-- Where a time is read. -/
inductive TimeSource where
  /-- On the clock of the system, which can be moved. -/
  | clock
  /-- On the clock of the host, which the system does not control. -/
  | host
  deriving DecidableEq, Inhabited

/-- How the loop of a runner came to its end. -/
inductive Ending where
  | stopped
  | panicked (p : Panic)
  | aborted
  deriving DecidableEq, Inhabited

/-- What the owner of a runner holds: the name of its service, and its number. -/
structure Handle (S : Type) where
  service : S
  runner : Nat

/-- What services, receivers and callers can do. Times are in nanoseconds from the start. -/
inductive Effect (D : Domain) where
  | readTime (source : TimeSource)
  /-- The time since the start. -/
  | elapsed
  | sleepUntil (time : Nat)
  | panic (p : Panic)
  /-- Never goes on. -/
  | hang
  | log (line : Log.Line)
  /-- Sends an event, waiting for room in the queue. -/
  | send (e : D.Event)
  | trySend (e : D.Event)
  /-- Registers a receiver, waiting for room in the queue. -/
  | register (s : D.Sink)
  /-- Closes the bus and waits for its worker. -/
  | closeBus
  /-- Whether closing has begun. -/
  | isBusClosed
  /-- Registers the runner of a service, and waits for its seeding pass. -/
  | startRunner (s : D.Service)
  | requestStop (h : Handle D.Service)
  /-- Waits for the end of a runner, at most until some time. -/
  | awaitEnd (h : Handle D.Service) (until? : Option Nat)
  | abort (h : Handle D.Service)
  /-- Asks the surrounding state. -/
  | call (c : D.Calls.Request)

/-- What an effect comes back with. -/
abbrev Effect.Reply {D : Domain} : Effect D → Type
  | .readTime _ => Instant
  | .elapsed => Nat
  | .sleepUntil _ => Unit
  | .panic _ => Empty
  | .hang => Empty
  | .log _ => Unit
  | .send _ => Except BusError Unit
  | .trySend _ => Except BusError Unit
  | .register _ => Except BusError Unit
  | .closeBus => Except BusError Unit
  | .isBusClosed => Bool
  | .startRunner _ => Except RuntimeError (Handle D.Service)
  | .requestStop _ => Unit
  | .awaitEnd _ _ => Option Ending
  | .abort _ => Unit
  | .call c => D.Calls.Reply c

abbrev Domain.effects (D : Domain) : Signature := ⟨Effect D, Effect.Reply⟩

/-- A program of effects. -/
abbrev Activity (D : Domain) (α : Type) := Program D.effects α

/-- The items of a service, looked for one by one. -/
abbrev Items (D : Domain) := Feed D.effects (Reported D.Id)

/-- A service and how its runner is set up. -/
structure Service (D : Domain) where
  name : String
  jitter : Jitter
  /-- Where its runner reads the time. -/
  time : TimeSource
  processOne : D.Id → Activity D (Except ServiceError Processed)
  checkAll : Activity D (Items D)
  checkOne : D.Id → Activity D (Except ServiceError DueTime)
  checkInterval : Activity D Duration
  /-- Whether an event is about any of its entities. -/
  filterEvent : D.Event → Activity D Bool
  /-- The entities that an event is about. -/
  receiveEvent : D.Event → Activity D (List D.Id)

/-- A receiver that is no runner. -/
structure Sink (D : Domain) where
  name : String
  onEvent : D.Event → Activity D Unit
  onStop : Activity D Unit
  isRetired : Activity D Bool

/-- The answer to a request that did not block. -/
inductive Answer (α : Type) where
  | reply (a : α)
  | panicked (p : Panic)

/-- Everyone who takes part in a system. -/
structure Cast (D : Domain) where
  service : D.Service → Service D
  sink : D.Sink → Sink D
  nameId : D.Id → String
  /-- Answers a request made of the surrounding state, or blocks. -/
  answer : (c : D.Calls.Request) → D.State → Option (Answer (D.Calls.Reply c) × D.State)

end Reveille
