import Reveille.Jitter
import Reveille.Runner.Notice

/-!
# Runners

A `Runner` drives one service. It keeps one alarm, the earliest due time it knows of, and the time
of the next full look at the service, the rescan. Like the worker of a bus it is a machine that
makes one request at a time (`Phase.request`) and goes on with the reply (`Runner.resume`): it asks
the service about its entities, asks the clock for the time, waits, and is told why its wait is
over.

A *pass* reads the clock, takes the items of the service one by one and tells those due at that time
from those due later. The seeding pass only folds all of them into the alarm. A wake pass processes
the due ones in the order of their due times, and the alarm becomes the earliest of the later items
and of what processing left behind. An entity that is still due after processing is left out: the
next rescan finds it.

Between passes the runner waits for a request to stop, for an event, or for the earlier of alarm and
rescan. When that one is already due at the time it starts to wait, it does not look at events
first. An event makes the service name entities; each is asked for its due time, which is folded
into the alarm.

Errors of the service are reported and otherwise pass for "nothing learned".
-/

namespace Reveille

namespace Runner

/-- Why a wait is over. -/
inductive Woken (E : Type) where
  | stopRequested
  | event (e : E)
  /-- No event will ever come again. -/
  | inboxEnded
  | elapsed

/-- What a runner asks for. A service hands out its items as a stream `F`. -/
inductive Request (E Id F : Type) where
  | readClock
  | isStopRequested
  | checkAll
  | nextItem (stream : F)
  | checkOne (id : Id)
  | processOne (id : Id)
  /-- The interval between rescans, and the draw of its jitter. -/
  | checkInterval
  /-- Lets the service name the entities an event is about. -/
  | receiveEvent (e : E)
  /-- Waits as long as the limit says; events are only waited for while the inbox is open. -/
  | wait (limit : Option Duration) (inboxOpen : Bool)
  /-- Nothing any more. -/
  | finished

/-- The replies to a request. -/
abbrev Request.Reply {E Id F : Type} : Request E Id F → Type
  | .readClock => Instant
  | .isStopRequested => Bool
  | .checkAll => F
  | .nextItem _ => Option (Reported Id × F)
  | .checkOne _ => Except ServiceError DueTime
  | .processOne _ => Except ServiceError Processed
  | .checkInterval => Duration × Nat
  | .receiveEvent _ => List Id
  | .wait _ _ => Woken E
  | .finished => Empty

/-- The two kinds of passes. -/
inductive Pass where
  | seed
  | wake
  deriving DecidableEq

/-- What a pass has found so far. -/
structure Scan (Id : Type) where
  /-- Items due at the time of the pass, in the order of the stream. -/
  due : List (Id × DueTime) := []
  /-- The earliest of the later items. -/
  next : Alarm Id := .never

namespace Scan

variable {Id : Type}

/-- Adds an item to the due or to the later ones. -/
def add (s : Scan Id) (now : Instant) (item : Id × DueTime) : Scan Id :=
  if item.2.isDue now then { s with due := s.due ++ [item] }
  else { s with next := s.next.offer item.2 (some item.1) }

/-- The due items in the order of their due times, and of the stream where these agree. -/
def inOrder (s : Scan Id) : List (Id × DueTime) :=
  s.due.mergeSort fun a b => decide (a.2 ≤ b.2)

/-- The earliest of all items. -/
def earliest (s : Scan Id) : Alarm Id :=
  s.due.foldl (fun a item => a.offer item.2 (some item.1)) s.next

end Scan

/-- Where a runner is. -/
inductive Phase (E Id F : Type) where
  /-- Reads the time of the seeding pass. -/
  | seeding
  /-- Asks for the items at the time of a pass. -/
  | scanning (pass : Pass) (now : Instant)
  /-- Takes the items. -/
  | collecting (pass : Pass) (now : Instant) (scan : Scan Id) (stream : F)
  /-- Sets the next rescan, counted from `now`. -/
  | arming (pass : Pass) (now : Instant)
  /-- Top of the waiting loop. -/
  | top
  /-- Reads the time at which the wait would start. -/
  | timing
  | waiting (limit : Option Duration)
  /-- Reads the time of a wake pass. -/
  | waking
  | receiving (e : E)
  /-- Asks for the due time of an entity that an event is about. -/
  | checking (id : Id) (rest : List Id)
  | processing (id : Id) (rest : List Id) (next : Alarm Id)
  /-- Asks for the due time of an entity that was just processed. -/
  | rechecking (id : Id) (rest : List Id) (next : Alarm Id)
  /-- Reads the time to see whether a processed entity is still due. -/
  | judging (id : Id) (due : DueTime) (rest : List Id) (next : Alarm Id)
  /-- Reads the time from which the next rescan counts. -/
  | ending
  | stopped

/-- What a phase asks for. -/
def Phase.request {E Id F : Type} (inboxOpen : Bool) : Phase E Id F → Request E Id F
  | .seeding => .readClock
  | .scanning _ _ => .checkAll
  | .collecting _ _ _ stream => .nextItem stream
  | .arming _ _ => .checkInterval
  | .top => .isStopRequested
  | .timing => .readClock
  | .waiting limit => .wait limit inboxOpen
  | .waking => .readClock
  | .receiving e => .receiveEvent e
  | .checking id _ => .checkOne id
  | .processing id _ _ => .processOne id
  | .rechecking id _ _ => .checkOne id
  | .judging _ _ _ _ => .readClock
  | .ending => .readClock
  | .stopped => .finished

/-- The seeding pass is not over. -/
def Phase.isSeeding {E Id F : Type} : Phase E Id F → Bool
  | .seeding | .scanning .seed _ | .collecting .seed _ _ _ | .arming .seed _ => true
  | _ => false

end Runner

/-- A runner. -/
structure Runner (E Id F : Type) where
  jitter : Jitter
  /-- The earliest due time it knows of. -/
  alarm : Alarm Id := .never
  /-- When it looks at all entities again. -/
  rescanAt : DueTime := .never
  /-- The wake that it shows to others. -/
  shown : Alarm Id := .never
  /-- More events may come. -/
  inboxOpen : Bool := true
  phase : Runner.Phase E Id F := .seeding

namespace Runner

variable {E Id F : Type}

/-- A runner and what it has just written to the log. -/
abbrev Turn (E Id F : Type) := Runner E Id F × List (Notice Id)

def init (jitter : Jitter) : Runner E Id F := { jitter }

/-- The earlier of alarm and rescan. -/
def wakeDue (r : Runner E Id F) : DueTime := min r.alarm.due r.rescanAt

/-- The wake to show: the alarm unless the rescan comes before it. -/
def wake (r : Runner E Id F) : Alarm Id :=
  if r.rescanAt < r.alarm.due then .fallback r.rescanAt else r.alarm

def showWake (r : Runner E Id F) : Runner E Id F := { r with shown := r.wake }

/-- The shortest time between a pass and the rescan it sets. -/
def leastInterval : Duration := Duration.ofMillis 1

/-- Sets the next rescan after the jittered interval, counted from `now`. -/
def armRescan (r : Runner E Id F) (now : Instant) (interval : Duration) (draw : Nat) :
    Runner E Id F :=
  { r with rescanAt := .after now (max (r.jitter.apply interval draw) leastInterval) }

/-- Goes on without a word. -/
def goTo (r : Runner E Id F) (phase : Phase E Id F) : Turn E Id F := ({ r with phase }, [])

/-- Writes notices ahead of those of a turn. -/
def saying (notices : List (Notice Id)) (t : Turn E Id F) : Turn E Id F := (t.1, notices ++ t.2)

/-- Asks for the due times of the entities of a list, and shows the new wake at the end. -/
def check (r : Runner E Id F) : List Id → Turn E Id F
  | [] => r.showWake.goTo .top
  | id :: rest => r.goTo (.checking id rest)

/-- Folds the due time of an entity into the alarm. -/
def learn (r : Runner E Id F) (id : Id) (due : DueTime) : Turn E Id F :=
  ({ r with alarm := r.alarm.offer due (some id) },
    if r.alarm.movedBy due then [.alarmMoved id due] else [])

/-- Processes the entities of a list; at the end the alarm becomes `next`. -/
def process (r : Runner E Id F) (next : Alarm Id) : List Id → Turn E Id F
  | [] => { r with alarm := next }.goTo .ending
  | id :: rest => r.goTo (.processing id rest next)

/-- Ends the scan of a pass. -/
def finishScan (r : Runner E Id F) (pass : Pass) (now : Instant) (scan : Scan Id) : Turn E Id F :=
  match pass with
  | .seed => { r with alarm := scan.earliest }.goTo (.arming .seed now)
  | .wake => saying [.processing scan.due.length] (r.process scan.next (scan.inOrder.map (·.1)))

/-- Ends a pass whose rescan is set. -/
def finishPass (r : Runner E Id F) (pass : Pass) : Turn E Id F :=
  let notice := match pass with
    | .seed => Notice.started r.alarm.due r.rescanAt
    | .wake => Notice.rescheduled r.alarm.due r.rescanAt
  saying [notice] (r.showWake.goTo .top)

section
variable [DecidableEq Id]

/-- Goes on with the reply to the request of a phase. -/
def next (r : Runner E Id F) :
    (p : Phase E Id F) → (p.request r.inboxOpen).Reply → Turn E Id F
  | .seeding, (now : Instant) => r.goTo (.scanning .seed now)
  | .scanning pass now, (stream : F) => r.goTo (.collecting pass now {} stream)
  | .collecting pass now scan _, (reply : Option (Reported Id × F)) =>
    match reply with
    | none => r.finishScan pass now scan
    | some (.ok item, stream) => r.goTo (.collecting pass now (scan.add now item) stream)
    | some (.error e, stream) => saying [.itemFailed e] (r.goTo (.collecting pass now scan stream))
  | .arming pass now, ((interval, draw) : Duration × Nat) =>
    (r.armRescan now interval draw).finishPass pass
  | .top, (stop : Bool) => if stop then saying [.stopped] (r.goTo .stopped) else r.goTo .timing
  | .timing, (now : Instant) =>
    if r.wakeDue.isDue now then r.goTo .waking else r.goTo (.waiting (r.wakeDue.remaining now))
  | .waiting _, (reply : Woken E) =>
    match reply with
    | .stopRequested => saying [.stopped] (r.goTo .stopped)
    | .event e => r.goTo (.receiving e)
    | .inboxEnded => { r with inboxOpen := false }.goTo .top
    | .elapsed => r.goTo .waking
  | .waking, (now : Instant) =>
    if r.alarm.due.isDue now || r.rescanAt.isDue now then r.goTo (.scanning .wake now)
    else saying [.earlyWake] (r.goTo .top)
  | .receiving _, (asked : List Id) => r.check (scheduled asked)
  | .checking id rest, (reply : Except ServiceError DueTime) =>
    match reply with
    | .ok due => let t := r.learn id due; saying t.2 (t.1.check rest)
    | .error e => saying [.checkFailed id e] (r.check rest)
  | .processing id rest next, (reply : Except ServiceError Processed) =>
    match reply with
    | .ok (.advancedUntil due) => r.goTo (.judging id due rest next)
    | .ok .advanced => r.goTo (.rechecking id rest next)
    | .ok .nothingToDoYet => saying [.nothingToDo id] (r.goTo (.rechecking id rest next))
    | .error e => saying [.processFailed id e] (r.process next rest)
  | .rechecking id rest next, (reply : Except ServiceError DueTime) =>
    match reply with
    | .ok due => r.goTo (.judging id due rest next)
    | .error e => saying [.checkFailed id e] (r.process next rest)
  | .judging id due rest next, (now : Instant) =>
    if due.isDue now then saying [.stillDue id due] (r.process next rest)
    else r.process (next.offer due (some id)) rest
  | .ending, (now : Instant) => r.goTo (.arming .wake now)

/-- The request of the present phase. -/
def request (r : Runner E Id F) : Request E Id F := r.phase.request r.inboxOpen

def resume (r : Runner E Id F) (reply : r.request.Reply) : Turn E Id F := r.next r.phase reply

end

end Runner

end Reveille
