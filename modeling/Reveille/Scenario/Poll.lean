import Reveille.Poll.Service
import Reveille.Scenario.Session
import Reveille.Settings

/-!
# Scenarios about polls

A store, a bus with a recorder, the three services, and a scheduler. Faults can be put between the
services and the store: a request then takes longer, fails, panics, or never comes back.
-/

namespace Reveille.PollScenario

open Poll (Id Event Store StoreError Duty Procedure createPoll castVote)

/-- The kinds of requests to the store. -/
inductive StoreCall where
  | insert
  | get
  | all
  | update
  | recordVote
  deriving DecidableEq

/-- What a fault makes of a request. -/
inductive FaultKind where
  | notFound
  | conflict
  | notOpen
  | duplicate (round : UInt32) (voter : String)
  | hang
  | panic

structure Fault where
  kind : Option FaultKind := none
  /-- Milliseconds before anything happens. -/
  take : Nat := 0
  /-- How many requests it still applies to, unless it applies to all. -/
  times : Option Nat := none

structure State where
  store : Store := .empty
  /-- The newest fault of a kind of request counts. -/
  faults : List (StoreCall × Fault) := []
  events : List Event := []
  stops : Nat := 0
  /-- The scheduler, while somebody holds it. -/
  scheduler : Option (Scheduler (Duty × TimeSource)) := none
  /-- A scheduler was asked to run on the clock of the host. -/
  onHostTime : Bool := false

namespace State

/-- Sets or removes the fault of a kind of request. -/
def setFault (s : State) (c : StoreCall) (f : Option Fault) : State :=
  let others := s.faults.filter fun p => p.1 != c
  { s with faults := match f with
    | some f => (c, f) :: others
    | none => others }

/-- The fault that a request meets. -/
def takeFault (s : State) (c : StoreCall) : Option Fault × State :=
  match s.faults.lookup c with
  | none => (none, s)
  | some f =>
    match f.times with
    | none => (some f, s)
    | some 0 => (none, s)
    | some (n + 1) => (some f, s.setFault c (some { f with times := some n }))

end State

inductive Request where
  | fault (c : StoreCall)
  | store (q : Store.Request)
  | record (e : Event)
  | countStop
  | hold (s : Scheduler (Duty × TimeSource))

abbrev Request.Reply : Request → Type
  | .fault _ => Option Fault
  | .store q => q.Reply
  | .record _ => Unit
  | .countStop => Unit
  | .hold _ => Unit

/-- What a call comes back with. -/
inductive Result where
  | done
  | busFailed (e : BusError)
  | storeFailed (e : StoreError)
  | serviceFailed (e : ServiceError)
  | pollFailed (e : PollError)
  | runtimeFailed (e : RuntimeError)
  /-- There is no scheduler. -/
  | notRunning
  | round (n : UInt32)
  | poll (p : Poll)
  | polls (ps : List Poll)
  | due (d : DueTime)
  | items (l : List (Reported Id))
  | processed (p : Processed)
  | size (n : Nat)
  | service (name : String) (interval : Duration)
  | accessors (capacity : Nat) (closed : Bool) (ids : List Id)

/-- A service is a duty and the clock on which it reads the time. The only sink is the recorder. -/
abbrev domain : Domain :=
  Poll.domain (Duty × TimeSource) Unit ⟨Request, Request.Reply⟩ State Result

/-- Answers a request. -/
def answer : (q : Request) → State → Option (Answer q.Reply × State)
  | .fault c, s => some (.reply (s.takeFault c).1, (s.takeFault c).2)
  | .store q, s =>
    let (reply, store) := s.store.answer q
    some (.reply reply, { s with store })
  | .record e, s => some (.reply (), { s with events := s.events ++ [e] })
  | .countStop, s => some (.reply (), { s with stops := s.stops + 1 })
  | .hold h, s => some (.reply (), { s with scheduler := some h })

open Activity

def call (q : Request) : Activity domain q.Reply :=
  Program.request (S := domain.effects) (.call q)

/-! ### The store behind faults -/

def kindOf : Store.Request → StoreCall
  | .insert _ => .insert
  | .get _ => .get
  | .all => .all
  | .update _ _ _ => .update
  | .recordVote _ _ => .recordVote

/-- The poll that a request is about. -/
def subject : Store.Request → Id
  | .insert p => p.id
  | .get id => id
  | .all => ⟨0⟩
  | .update id _ _ => id
  | .recordVote id _ => id

/-- The reply that a request failed. -/
def refuse (e : StoreError) : (q : Store.Request) → q.Reply
  | .insert _ => .error e
  | .get _ => .error e
  | .all => .error e
  | .update _ _ _ => .error e
  | .recordVote _ _ => .error e

/-- What becomes of a request under a fault. -/
def suffer (q : Store.Request) : Option FaultKind → Activity domain q.Reply
  | none => call (.store q)
  | some .notFound => pure (refuse (.notFound (subject q)) q)
  | some .conflict => pure (refuse (.conflict (subject q)) q)
  | some .notOpen => pure (refuse (.notOpen (subject q)) q)
  | some (.duplicate round voter) => pure (refuse (.duplicateVote (subject q) round voter) q)
  | some .hang => hang
  | some .panic => panic ⟨some "store panicked"⟩

/-- Asks the store, past the fault that is set when the request begins. -/
def access (q : Store.Request) : Activity domain q.Reply := do
  match ← call (.fault (kindOf q)) with
  | none => call (.store q)
  | some f =>
    pause f.take
    suffer q f.kind

/-! ### Services and calls -/

/-- What a scenario is run with. -/
structure Setup where
  settings : Settings
  /-- The name of the recorder in the log. -/
  recorder : String

namespace Setup

def service (setup : Setup) (s : Duty × TimeSource) : Reveille.Service domain :=
  s.1.service access s.2 setup.settings.rescanJitter setup.settings.effectiveCheckInterval

def cast (setup : Setup) : Cast domain :=
  { service := setup.service
    sink := fun _ =>
      { name := setup.recorder
        onEvent := fun e => call (.record e)
        onStop := call .countStop
        isRetired := .done false }
    nameId := Id.logText
    answer }

end Setup

/-- A procedure on the store and the clock of the scenario. -/
def onClock {α : Type} (p : Procedure α) : Activity domain α := p.activity access .clock

def nameOf (s : Duty × TimeSource) : String := s.1.name

/-- Takes the items of a stream, at most so many. -/
def collect : Items domain → Activity domain (List (Reported Id))
  | .stop => pure []
  | .item a rest => do return a :: (← collect rest)
  | .ask q rest => Program.ask (S := domain.effects) q fun reply => collect (rest reply)

inductive Step where
  | insert (p : Poll)
  | get (id : Id)
  | all
  /-- Replaces a state; unless one is expected, the present one is. -/
  | update (id : Id) (expected : Option Poll.State) (next : Poll.State)
  | recordVote (id : Id) (voter : String)
  | size
  | fault (c : StoreCall) (f : Option Fault)
  | checkAll (d : Duty)
  | checkOne (d : Duty) (id : Id)
  | processOne (d : Duty) (id : Id)
  | about (d : Duty)
  | start (time : TimeSource)
  | create (p : Poll)
  | vote (id : Id) (voter : String)
  | accessors
  | shutdown
  | send (e : Event)
  | closeBus
  | skew (ms : Int)
  | advance (ms : Nat)

/-- A result that is an error or is told by `f`. -/
def resultOf {ε α : Type} (failed : ε → Result) (f : α → Result) : Except ε α → Result
  | .ok a => f a
  | .error e => failed e

def start (setup : Setup) (time : TimeSource) : Activity domain Result := do
  let services := [(.start, time), (.advance, time), (.close, time)]
  match ← Scheduler.start (D := domain) nameOf setup.settings.grace services with
  | .ok s =>
    call (.hold s)
    return .done
  | .error e => return .runtimeFailed e

/-- What the accessors of a scheduler say; the bus has a capacity that never changes. -/
def accessors (capacity : Nat) : Activity domain Result := do
  let reply ← access .all
  let closed ← isBusClosed (D := domain)
  return resultOf .storeFailed (fun ps => .accessors capacity closed (ps.map (·.id)))
    (reply : Except StoreError (List Poll))

/-- What a step does, and the system on which it does it. -/
def Step.act (setup : Setup) (s : System domain) :
    Step → System domain × Act domain
  | .insert p => (s, .begin do
      return resultOf .storeFailed (fun _ => .done) (← access (.insert p) : Except StoreError Unit))
  | .get id => (s, .begin do
      return resultOf .storeFailed .poll (← access (.get id) : Except StoreError Poll))
  | .all => (s, .begin do
      return resultOf .storeFailed .polls (← access .all : Except StoreError (List Poll)))
  | .update id expected next =>
    let present := ((s.state.store.find? id).map (·.state)).getD .scheduled
    (s, .begin do
      return resultOf .storeFailed .poll
        (← access (.update id (expected.getD present) next) : Except StoreError Poll))
  | .recordVote id voter => (s, .begin do
      return resultOf .storeFailed .round
        (← access (.recordVote id voter) : Except StoreError UInt32))
  | .size => (s, .change s (.size s.state.store.size))
  | .fault c f => (s, .change { s with state := s.state.setFault c f } .done)
  | .checkAll d => (s, .begin do
      return .items (← collect (← (setup.service (d, .clock)).checkAll)))
  | .checkOne d id => (s, .begin do
      return resultOf .serviceFailed .due (← (setup.service (d, .clock)).checkOne id))
  | .processOne d id => (s, .begin do
      return resultOf .serviceFailed .processed (← (setup.service (d, .clock)).processOne id))
  | .about d => (s, .change s (.service d.name setup.settings.effectiveCheckInterval))
  | .start time =>
    ({ s with state := { s.state with onHostTime := s.state.onHostTime || time = .host } },
      .begin (PollScenario.start setup time))
  | .create p => (s, .begin do
      return resultOf .pollFailed (fun _ => .done) (← onClock (createPoll p)))
  | .vote id voter => (s, .begin do
      return resultOf .pollFailed .round (← onClock (castVote id voter)))
  | .accessors => (s, .begin (
      if s.state.scheduler.isSome then PollScenario.accessors s.channel.capacity
      else pure .notRunning))
  | .shutdown =>
    match s.state.scheduler with
    | none => (s, .begin (pure .notRunning))
    | some h =>
      ({ s with state := { s.state with scheduler := none } }, .begin do
        return resultOf .runtimeFailed (fun _ => .done)
          (← Scheduler.shutdown (D := domain) nameOf h))
  | .send e => (s, .begin do
      return resultOf .busFailed (fun _ => .done) (← Activity.send (D := domain) e))
  | .closeBus => (s, .begin do
      return resultOf .busFailed (fun _ => .done) (← Activity.closeBus (D := domain)))
  | .skew ms => (s, .change { s with clock := s.clock.shift ms } .done)
  | .advance ms => (s, .pass ms .done)

/-- The answer to a step, and what can be seen after it. -/
structure Answer where
  reply : Reply Result
  /-- What the recorder saw, by poll. -/
  events : List Event
  stops : Nat
  count : Nat
  polls : List (Id × Poll.State)
  /-- The next wakes of the runners, while somebody holds the scheduler. -/
  wakes : Option (List (String × DueTime))
  onHostTime : Bool

def wakes (s : System domain) (h : Scheduler (Duty × TimeSource)) : List (String × DueTime) :=
  h.handles.filterMap fun h =>
    s.runners[h.runner]?.map fun t => (nameOf h.service, t.machine.shown.due)

def observe (s : System domain) (reply : Reply Result) : Answer :=
  { reply
    events := s.state.events.mergeSort fun a b => a.poll.number ≤ b.poll.number
    stops := s.state.stops
    count := s.receiverCount
    polls := s.state.store.polls.map fun p => (p.id, p.state)
    wakes := s.state.scheduler.map (wakes s)
    onHostTime := s.state.onHostTime }

/-- Carries out the steps one after another. -/
def run (setup : Setup) :
    Session domain → List (Step × Bool) → Session domain × List Answer
  | s, [] => (s, [])
  | s, (step, settles) :: rest =>
    let (system, act) := step.act setup s.system
    let (s, reply) := { s with system }.perform setup.cast settles act
    let answer := observe s.system reply
    let s := match reply with
      | .settled _ _ _ =>
        { s with system := { s.system with state := { s.system.state with events := [] } } }
      | .unsettled _ => s
    let (s, answers) := run setup s rest
    (s, answer :: answers)

/-- A system whose bus has the recorder registered first. -/
def init (task : Nat) (setup : Setup) (start hostTime : Instant) (polls : List Poll) :
    System domain :=
  let bus : Bus.Channel Actor (Bus.Command (Receiver domain) Event) :=
    .empty setup.settings.effectiveBusCapacity
  { clock := { wall := start }
    hostTime
    channel := { bus with queue := [.register (.sink ())] }
    workerNumber := task
    state := { store := polls.foldl (fun s p => (s.insert p).toOption.getD s) .empty } }

end Reveille.PollScenario
