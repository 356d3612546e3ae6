import Reveille.Scenario.Session
import Reveille.Settings

/-!
# Scenarios about runners

Services over entities that follow a script, on one bus and one clock. An entity has a due time and
a list of entries, each of which says what happens the next time it is processed: how long that
takes, what its due time becomes, which events are sent, and how it ends. Every call to a service is
written down with its time.
-/

namespace Reveille.RunnerScenario

/-- An event: its kind, and the entities it is about. -/
structure Event where
  kind : String
  ids : List Nat
  deriving DecidableEq

/-- A due time, as such or counted from the time at which it is looked at. -/
inductive DueSpec where
  | fixed (due : DueTime)
  | later (d : Duration)

def DueSpec.resolve (now : Instant) : DueSpec → DueTime
  | .fixed due => due
  | .later d => .after now d

/-- How the processing of an entity ends. -/
inductive Finish where
  | advanced
  | nothing
  | advancedUntil (due : DueSpec)
  | panic
  | hang
  | fail (e : ServiceError)

/-- What happens when an entity is processed. -/
structure Entry where
  take : Nat := 0
  due : Option DueSpec := none
  emit : List Event := []
  finish : Finish := .advanced

structure Entity where
  id : Nat
  due : DueTime := .never
  script : List Entry := []
  /-- What a look at all entities says instead of the due time. -/
  scanError : Option ServiceError := none
  /-- What a look at this entity says instead of the due time. -/
  checkError : Option ServiceError := none
  /-- Milliseconds taken by a look at this entity. -/
  checkTake : Nat := 0

/-- What does not change of a service. -/
structure Setup where
  name : String
  /-- Kinds of events that are relevant. -/
  listens : List String := []
  /-- Kinds of events on which the filter panics. -/
  panicsOn : List String := []
  /-- An event makes its entities due. -/
  arm : Bool := false
  /-- Milliseconds before each item of a look at all entities. -/
  scanTake : Nat := 0
  jitter : Jitter := .none

inductive What where
  | scan
  | check (id : Nat)
  | process (id : Nat)
  | processed (id : Nat)
  | receive (kind : String)

/-- A call to a service, with its time in milliseconds. -/
structure Record where
  time : Nat
  what : What

/-- What changes of a service. -/
structure ServiceState where
  entities : List Entity := []
  interval : Duration
  records : List Record := []
  /-- Kinds of events that were put to the filter. -/
  filtered : List String := []
  /-- The runner, while somebody holds it. -/
  handle : Option (Handle Nat) := none

namespace ServiceState

def modifyEntity (s : ServiceState) (id : Nat) (f : Entity → Entity) : ServiceState :=
  { s with entities := s.entities.map fun e => if e.id = id then f e else e }

def find? (s : ServiceState) (id : Nat) : Option Entity := s.entities.find? (fun e => e.id = id)

/-- Takes the next entry of an entity's script. -/
def popEntry (s : ServiceState) (id : Nat) : Option Entry × ServiceState :=
  match (s.find? id).map (·.script) with
  | some (entry :: rest) => (some entry, s.modifyEntity id fun e => { e with script := rest })
  | _ => (none, s)

end ServiceState

structure State where
  services : List ServiceState

def State.modify (s : State) (i : Nat) (f : ServiceState → ServiceState) : State :=
  { s with services := s.services.modify i f }

/-- Requests about a service, given by its number. -/
inductive Request where
  | record (service : Nat) (r : Record)
  | entities (service : Nat)
  | entity (service id : Nat)
  | setDue (service id : Nat) (due : DueTime)
  | popEntry (service id : Nat)
  | filtered (service : Nat) (kind : String)
  | interval (service : Nat)
  | hold (service : Nat) (h : Handle Nat)

abbrev Request.Reply : Request → Type
  | .record _ _ => Unit
  | .entities _ => List Entity
  | .entity _ _ => Option Entity
  | .setDue _ _ _ => Unit
  | .popEntry _ _ => Option Entry
  | .filtered _ _ => Unit
  | .interval _ => Duration
  | .hold _ _ => Unit

inductive Result where
  | done
  | failed (e : BusError)
  | started (name : String)
  | notStarted (e : RuntimeError)
  /-- There was no runner to stop. -/
  | notRunning
  | several (results : List (Except BusError Unit))

def Result.of : Except BusError Unit → Result
  | .ok () => .done
  | .error e => .failed e

/-- Services go by their numbers; a sink is a receiver that takes so many milliseconds an event. -/
abbrev domain : Domain :=
  { Event, Id := Nat, decEqId := inferInstance, Service := Nat, Sink := Nat
    Calls := ⟨Request, Request.Reply⟩, State, Result }

/-- Answers a request. -/
def answer : (q : Request) → State → Option (Answer q.Reply × State)
  | .record i r, s => some (.reply (), s.modify i fun v => { v with records := v.records ++ [r] })
  | .entities i, s => some (.reply ((s.services[i]?.map (·.entities)).getD []), s)
  | .entity i id, s => some (.reply (s.services[i]?.bind (·.find? id)), s)
  | .setDue i id due, s =>
    some (.reply (), s.modify i fun v => v.modifyEntity id fun e => { e with due })
  | .popEntry i id, s =>
    match s.services[i]? with
    | some v => some (.reply (v.popEntry id).1, s.modify i fun _ => (v.popEntry id).2)
    | none => some (.reply none, s)
  | .filtered i kind, s =>
    some (.reply (), s.modify i fun v => { v with filtered := v.filtered ++ [kind] })
  | .interval i, s =>
    some (.reply ((s.services[i]?.map (·.interval)).getD defaultCheckInterval), s)
  | .hold i h, s => some (.reply (), s.modify i fun v => { v with handle := some h })

open Activity

def call (q : Request) : Activity domain q.Reply :=
  Program.request (S := domain.effects) (.call q)

def now : Activity domain Instant := perform (.readTime .clock)

def note (i : Nat) (what : What) : Activity domain Unit := do
  call (.record i ⟨(← perform .elapsed) / nanosPerMilli, what⟩)

/-- Hands out what is known of some entities, one after another. -/
def items (take : Nat) : List Entity → Items domain
  | [] => .stop
  | e :: rest => Feed.after (pause take) fun _ =>
      .item (match e.scanError with
        | some error => .error error
        | none => .ok (e.id, e.due)) (items take rest)

def scan (i : Nat) (setup : Setup) : Activity domain (Items domain) := do
  note i .scan
  return items setup.scanTake (← call (.entities i))

def check (i id : Nat) : Activity domain (Except ServiceError DueTime) := do
  note i (.check id)
  let before ← call (.entity i id)
  pause ((before.map (·.checkTake)).getD 0)
  match before.bind (·.checkError) with
  | some error => return .error error
  | none => return .ok (((← call (.entity i id)).map (·.due)).getD .never)

/-- Sends events one after another, until one is refused. -/
def emit : List Event → Activity domain (Except BusError Unit)
  | [] => pure (.ok ())
  | e :: rest => do
    match ← send e with
    | .ok () => emit rest
    | .error e => return .error e

/-- How a processing ends. -/
def finish : Finish → Activity domain (Except ServiceError Processed)
  | .advanced => pure (.ok .advanced)
  | .nothing => pure (.ok .nothingToDoYet)
  | .advancedUntil due => do return .ok (.advancedUntil (due.resolve (← now)))
  | .panic => panic ⟨some "process panicked"⟩
  | .hang => hang
  | .fail e => pure (.error e)

/-- Carries out an entry of an entity's script. -/
def carryOut (i id : Nat) (entry : Entry) : Activity domain (Except ServiceError Processed) := do
  pause entry.take
  match entry.due with
  | some due => call (.setDue i id (due.resolve (← now)))
  | none => pure ()
  match ← emit entry.emit with
  | .error e => return .error (.store e.message)
  | .ok () => finish entry.finish

/-- Processes an entity without a script: one that is due stops to be due. -/
def retire (i id : Nat) : Activity domain (Except ServiceError Processed) := do
  match ← call (.entity i id) with
  | some e =>
    if e.due.isDue (← now) then
      call (.setDue i id .never)
      return .ok .advanced
    return .ok .nothingToDoYet
  | none => return .ok .nothingToDoYet

def process (i id : Nat) : Activity domain (Except ServiceError Processed) := do
  note i (.process id)
  let outcome ← match ← call (.popEntry i id) with
    | some entry => carryOut i id entry
    | none => retire i id
  note i (.processed id)
  return outcome

def filter (i : Nat) (setup : Setup) (e : Event) : Activity domain Bool := do
  call (.filtered i e.kind)
  if e.kind ∈ setup.panicsOn then
    panic ⟨some "filter panicked"⟩
  return e.kind ∈ setup.listens

/-- Makes entities due, if they are there. -/
def armAll (i : Nat) : List Nat → Activity domain Unit :=
  Program.each fun id => do call (.setDue i id (.moment (← now)))

def receive (i : Nat) (setup : Setup) (e : Event) : Activity domain (List Nat) := do
  note i (.receive e.kind)
  if setup.arm then
    armAll i e.ids
  return e.ids

/-- The activities of a service. -/
def Setup.activities (setup : Setup) (i : Nat) : Service domain :=
  { name := setup.name
    jitter := setup.jitter
    time := .clock
    processOne := process i
    checkAll := scan i setup
    checkOne := check i
    checkInterval := call (.interval i)
    filterEvent := filter i setup
    receiveEvent := receive i setup }

def cast (setups : List Setup) : Cast domain :=
  { service := fun i => (setups.getD i { name := "" }).activities i
    sink := fun ms =>
      { name := "slow"
        onEvent := fun _ => pause ms
        onStop := .done ()
        isRetired := .done false }
    nameId := toString
    answer }

/-- Changes to an entity; what is not given stays, and an inner nothing clears an error. -/
structure Change where
  due : Option DueSpec := none
  script : Option (List Entry) := none
  scanError : Option (Option ServiceError) := none
  checkError : Option (Option ServiceError) := none
  checkTake : Option Nat := none

def Change.apply (c : Change) (now : Instant) (e : Entity) : Entity :=
  { e with
    due := (c.due.map (·.resolve now)).getD e.due
    script := c.script.getD e.script
    scanError := c.scanError.getD e.scanError
    checkError := c.checkError.getD e.checkError
    checkTake := c.checkTake.getD e.checkTake }

/-- Changes an entity, or adds it at the end. -/
def ServiceState.set (s : ServiceState) (now : Instant) (id : Nat) (c : Change) : ServiceState :=
  match s.find? id with
  | some _ => s.modifyEntity id (c.apply now)
  | none => { s with entities := s.entities ++ [c.apply now { id }] }

inductive Step where
  | start (service : Nat)
  /-- Stops a runner, with a grace after which it is aborted. -/
  | stop (service : Nat) (grace : Option Duration)
  | send (e : Event)
  /-- Sends events one after another, with a pause of some milliseconds after each. -/
  | sendAll (es : List Event) (every : Nat)
  | set (service id : Nat) (c : Change)
  | del (service id : Nat)
  | interval (service : Nat) (d : Duration)
  | skew (ms : Int)
  | advance (ms : Nat)
  | slow (ms : Nat)
  | close

def sendEach (every : Nat) : List Event → Activity domain (List (Except BusError Unit))
  | [] => pure []
  | e :: es => do
    let r ← send e
    pause every
    return r :: (← sendEach every es)

def start (setups : List Setup) (i : Nat) : Activity domain Result := do
  match ← startRunner (D := domain) i with
  | .ok h =>
    call (.hold i h)
    return .started (setups.getD i { name := "" }).name
  | .error e => return .notStarted e

/-- What the end of a runner comes back with. -/
def stopped : Except RuntimeError Unit → Result
  | .ok () => .done
  | .error e => .notStarted e

def change (s : System domain) (i : Nat) (f : ServiceState → ServiceState) : Act domain :=
  .change { s with state := s.state.modify i f } .done

/-- Stops the runner of a service; from now on nobody holds it. -/
def stop (setups : List Setup) (s : System domain) (i : Nat) (grace : Option Duration) :
    System domain × Activity domain Result :=
  match s.state.services[i]?.bind (·.handle) with
  | none => (s, pure .notRunning)
  | some h =>
    let name := (setups.getD i { name := "" }).name
    ({ s with state := s.state.modify i fun v => { v with handle := none } },
      match grace with
      | some grace => do return stopped (← stopWithGrace (D := domain) name grace h)
      | none => do return stopped (← stopRunner (D := domain) name h))

/-- What a step does, and the system on which it does it. -/
def Step.act (setups : List Setup) (s : System domain) :
    Step → System domain × Act domain
  | .start i => (s, .begin (RunnerScenario.start setups i))
  | .stop i grace => let (s, r) := RunnerScenario.stop setups s i grace; (s, .begin r)
  | .send e => (s, .begin do return .of (← Activity.send e))
  | .sendAll es every => (s, .begin do return .several (← sendEach every es))
  | .set i id c => (s, change s i fun v => v.set (s.timeOn .clock) id c)
  | .del i id => (s, change s i fun v =>
      { v with entities := v.entities.filter fun e => e.id != id })
  | .interval i d => (s, change s i fun v => { v with interval := d })
  | .skew ms => (s, .change { s with clock := s.clock.shift ms } .done)
  | .advance ms => (s, .pass ms .done)
  | .slow ms => (s, .begin do return .of (← register ms))
  | .close => (s, .begin do return .of (← closeBus))

/-- What can be seen of a runner. -/
structure RunnerView where
  wake : DueTime
  id : Option Nat
  finished : Bool

structure ServiceView where
  runner : Option RunnerView
  records : List Record
  filtered : List String

/-- The answer to a step, and what can be seen after it. -/
structure Answer where
  reply : Reply Result
  time : Nat
  count : Nat
  services : List ServiceView

def viewRunner (s : System domain) (h : Handle Nat) : Option RunnerView :=
  s.runners[h.runner]?.map fun t =>
    { wake := t.machine.shown.due, id := t.machine.shown.id, finished := t.ending.isSome }

def observe (s : System domain) (reply : Reply Result) : Answer :=
  { reply
    time := s.time / nanosPerMilli
    count := s.receiverCount
    services := s.state.services.map fun v =>
      { runner := v.handle.bind (viewRunner s), records := v.records, filtered := v.filtered } }

/-- Carries out the steps one after another. -/
def run (setups : List Setup) :
    Session domain → List (Step × Bool) → Session domain × List Answer
  | s, [] => (s, [])
  | s, (step, settles) :: rest =>
    let (system, act) := step.act setups s.system
    let (s, reply) := { s with system }.perform (cast setups) settles act
    let answer := observe s.system reply
    let s := match reply with
      | .settled _ _ _ =>
        let services := s.system.state.services.map fun v =>
          { v with records := [], filtered := [] }
        { s with system := { s.system with state := { services } } }
      | .unsettled _ => s
    let (s, answers) := run setups s rest
    (s, answer :: answers)

/-- A system with a bus and services that nobody runs yet. -/
def init (task : Nat) (start : Instant) (capacity : Nat) (services : List ServiceState) :
    System domain :=
  { clock := { wall := start }
    hostTime := start
    channel := .empty capacity
    workerNumber := task
    state := { services } }

end Reveille.RunnerScenario
