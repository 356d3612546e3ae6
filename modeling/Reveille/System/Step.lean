import Reveille.System.State

/-!
# Steps of a system

`System.perform` answers one request of a routine, or blocks. `System.step` lets one actor make one
step: to have one request answered, or to go on with the reply of a routine that came to its end. A
panic ends the call or the runner in which it happens; the worker takes it as the reply of the
receiver it was calling.

Any actor that can make a step may make the next one, so a run of a system is any sequence of steps,
with time moving on in between.
-/

namespace Reveille

variable {D : Domain}

/-- How a request of the worker or of a runner is answered. -/
inductive Source (D : Domain) (α : Type) where
  /-- At once, with a change to the system. -/
  | atOnce (a : α) (s : System D)
  /-- Not yet, but the system has changed. -/
  | later (s : System D)
  /-- By a routine. -/
  | routine (r : Routine D α)
  | blocked

namespace System

/-- Answers a request of a routine, or blocks. -/
def perform (c : Cast D) (a : Actor) (s : System D) :
    (q : Request D) → Option (Answer q.Reply × System D)
  | .readTime source => some (.reply (s.timeOn source), s.afterReading source)
  | .elapsed => some (.reply s.time, s)
  | .sleepUntil time => if time ≤ s.time then some (.reply (), s) else none
  | .draw => some (.reply (s.draws.headD mostDraw), { s with draws := s.draws.tail })
  | .panic p => some (.panicked p, s)
  | .hang => none
  | .log line => some (.reply (), s.addLines [line])
  | .enter =>
    match s.channel.enter a with
    | some channel => some (.reply true, { s with channel })
    | none => some (.reply false, s)
  | .requestSlot => some (.reply (), { s with channel := s.channel.requestSlot a })
  | .awaitSlot =>
    match s.channel.slot? a with
    | some true => some (.reply true, s)
    | some false => some (.reply false, { s with channel := s.channel.withdraw a })
    | none => none
  | .commit item =>
    some (.reply s.channel.accepting, { s with channel := s.channel.commit a item })
  | .trySend e =>
    match s.channel.trySend (.event e) with
    | .ok channel => some (.reply (.ok ()), { s with channel })
    | .error e => some (.reply (.error e), s)
  | .beginClose => some (.reply s.channel.accepting, { s with channel := s.channel.close })
  | .isClosed => some (.reply s.isClosed, s)
  | .awaitWorker => s.worker.machine.ending?.map fun e => (.reply (s.workerNumber, e), s)
  | .isInboxOpen i => some (.reply (s.isRunning i), s)
  | .push i e =>
    if s.isRunning i then
      some (.reply true, s.modifyRunner i fun t => { t with inbox := t.inbox ++ [e] })
    else some (.reply false, s)
  | .hire service =>
    let task := { service, machine := .init (c.service service).jitter }
    some (.reply s.runners.length, { s with runners := s.runners ++ [task] })
  | .launch i => some (.reply (), s.modifyRunner i fun t => { t with launched := true })
  | .release i =>
    match s.runners[i]? with
    | none => none
    | some t =>
      if t.machine.phase.isSeeding then
        match t.ending with
        | some (.panicked p) => some (.panicked p, s)
        | _ => none
      else some (.reply (), s.modifyRunner i fun t => { t with released := true })
  | .requestStop i => some (.reply (), s.modifyRunner i fun t => { t with stopRequested := true })
  | .awaitEnd i until? =>
    match s.runners[i]?.bind (·.ending) with
    | some e => some (.reply (some e), s)
    | none => if until?.any (· ≤ s.time) then some (.reply none, s) else none
  | .abort i => some (.reply (), s.modifyRunner i fun t => { t with aborted := true })
  | .call q => (c.answer q s.state).map fun (a, state) => (a, { s with state })

/-! ### The worker -/

/-- How a request of the worker is answered. -/
def workerSource (c : Cast D) (s : System D) :
    (q : Bus.Worker.Request (Receiver D) D.Event) → Source D q.Reply
  | .receive =>
    match s.channel.take with
    | .item command channel => .atOnce (some command) { s with channel }
    | .ended => .atOnce none s
    | .nothingYet => .blocked
  | .isRetired r => .routine ((c.isRetired r).bind fun b => .done (.ok b))
  | .deliver r e => .routine ((c.onEvent r e).bind fun _ => .done (.ok ()))
  | .stop r => .routine ((c.onStop r).bind fun _ => .done (.ok ()))
  | .finished => .blocked

/-- The reply of a receiver that panics. -/
def panicReply (p : Panic) :
    (q : Bus.Worker.Request (Receiver D) D.Event) → Option q.Reply
  | .isRetired _ => some (.error p)
  | .deliver _ _ => some (.error p)
  | .stop _ => some (.error p)
  | .receive => none
  | .finished => none

/-- The worker goes on with a reply; when it is over, it leaves the channel. -/
def resumeWorker (c : Cast D) (s : System D) (t : WorkerTask D) (reply : t.machine.request.Reply) :
    System D :=
  let (machine, notices) := t.machine.resume reply
  let s := s.addLines (notices.map (Bus.Notice.line c.receiverName))
  { s with
    worker := { machine, pending := none }
    channel := if machine.phase.isOver then s.channel.hangUp else s.channel }

/-- The worker goes on with a routine. -/
def workerRoutine (c : Cast D) (s : System D) (t : WorkerTask D) :
    Routine D t.machine.request.Reply → Option (System D)
  | .done reply => some (s.resumeWorker c t reply)
  | .ask q rest =>
    match s.perform c .worker q with
    | none => none
    | some (.reply a, s) => some { s with worker := { t with pending := some (rest a) } }
    | some (.panicked p, s) => (panicReply p t.machine.request).map (s.resumeWorker c t)

/-- One step of the worker. -/
def stepWorker (c : Cast D) (s : System D) : Option (System D) :=
  let t := s.worker
  match t.pending with
  | some r => s.workerRoutine c t r
  | none =>
    match s.workerSource c t.machine.request with
    | .atOnce reply s => some (s.resumeWorker c t reply)
    | .later s => some s
    | .routine r => s.workerRoutine c t r
    | .blocked => none

/-! ### Runners -/

/-- How a request of runner `i` is answered. -/
def runnerSource (c : Cast D) (s : System D) (i : Nat) (t : RunnerTask D) :
    (q : Runner.Request D.Event D.Id (Items D)) → Source D q.Reply
  | .readClock => .routine (Routine.query (.readTime (c.service t.service).time))
  | .isStopRequested => .atOnce t.stopRequested s
  | .checkAll => .routine (c.service t.service).checkAll.routine
  | .nextItem items => .routine (Activity.routine items.next)
  | .checkOne id => .routine ((c.service t.service).checkOne id).routine
  | .processOne id => .routine ((c.service t.service).processOne id).routine
  | .checkInterval => .routine (do
      let interval ← (c.service t.service).checkInterval.routine
      let draw ← Routine.query .draw
      return (interval, draw))
  | .receiveEvent e => .routine ((c.service t.service).receiveEvent e).routine
  | .wait limit inboxOpen =>
    if t.stopRequested then .atOnce .stopRequested s
    else match inboxOpen, t.inbox with
    | true, e :: rest => .atOnce (.event e) (s.modifyRunner i fun t => { t with inbox := rest })
    | isOpen, _ =>
      if isOpen && s.worker.machine.phase.isOver then .atOnce .inboxEnded s
      else match t.timer, limit with
      | some time, _ => if time ≤ s.time then .atOnce .elapsed s else .blocked
      | none, some d =>
        .later (s.modifyRunner i fun t => { t with timer := some (Activity.wakeTime s.time d) })
      | none, none => .blocked
  | .finished => .blocked

/-- A runner goes on with a reply. -/
def resumeRunner (c : Cast D) (s : System D) (i : Nat) (t : RunnerTask D)
    (reply : t.machine.request.Reply) : System D :=
  let (machine, notices) := t.machine.resume reply
  let ending := match machine.phase with
    | .stopped => some Ending.stopped
    | _ => none
  let s := s.modifyRunner i fun now =>
    { now with machine, pending := none, timer := none, ending }
  s.addLines (notices.map (Runner.Notice.line (c.service t.service).name c.nameId))

/-- A runner goes on with a routine. -/
def runnerRoutine (c : Cast D) (s : System D) (i : Nat) (t : RunnerTask D) :
    Routine D t.machine.request.Reply → Option (System D)
  | .done reply => some (s.resumeRunner c i t reply)
  | .ask q rest =>
    match s.perform c (.runner i) q with
    | none => none
    | some (.reply a, s) => some (s.modifyRunner i fun now =>
        { now with machine := t.machine, pending := some (rest a) })
    | some (.panicked p, s) => some (s.modifyRunner i fun now =>
        { now with ending := some (.panicked p) })

/-- A runner goes on, if it is not blocked. -/
def goOn (c : Cast D) (s : System D) (i : Nat) (t : RunnerTask D) : Option (System D) :=
  match t.pending with
  | some r => s.runnerRoutine c i t r
  | none =>
    match s.runnerSource c i t t.machine.request with
    | .atOnce reply s => some (s.resumeRunner c i t reply)
    | .later s => some s
    | .routine r => s.runnerRoutine c i t r
    | .blocked => none

/-- Drops a runner, which leaves the queue with that. -/
def cancel (s : System D) (i : Nat) : System D :=
  { s.modifyRunner i fun t => { t with ending := some .aborted } with
    channel := s.channel.withdraw (.runner i) }

/-- An aborted runner goes on, if it is still at work and does not have to wait. -/
def finishOff (c : Cast D) (s : System D) (i : Nat) (t : RunnerTask D) : Option (System D) :=
  match s.momentum i with
  | 0 => none
  | n + 1 => (s.goOn c i t).map fun s' =>
      { s' with momentum := fun j => if j = i then n else s.momentum j }

/-- One step of a runner. -/
def stepRunner (c : Cast D) (s : System D) (i : Nat) : Option (System D) :=
  match s.runners[i]? with
  | none => none
  | some t =>
    if t.mayRun then
      if t.aborted then some ((s.finishOff c i t).getD (s.cancel i)) else s.goOn c i t
    else none

/-! ### Calls -/

/-- One step of a call. -/
def stepCall (c : Cast D) (s : System D) (i : Nat) : Option (System D) :=
  match s.calls[i]? with
  | some (.running (.done result)) => some { s with calls := s.calls.set i (.ended (.ok result)) }
  | some (.running (.ask q rest)) =>
    match s.perform c (.call i) q with
    | none => none
    | some (.reply a, s) => some { s with calls := s.calls.set i (.running (rest a)) }
    | some (.panicked p, s) => some { s with calls := s.calls.set i (.ended (.error p)) }
  | _ => none

/-- One step of an actor, if it is not blocked. -/
def step (c : Cast D) (s : System D) : Actor → Option (System D)
  | .worker => s.stepWorker c
  | .runner i => s.stepRunner c i
  | .call i => s.stepCall c i

/-- Everyone who may make a step. -/
def actors (s : System D) : List Actor :=
  .worker :: (List.range s.runners.length).map .runner
    ++ (List.range s.calls.length).map .call

/-- Nobody can go on without time passing. -/
def isSettled (c : Cast D) (s : System D) : Bool := s.actors.all fun a => (s.step c a).isNone

/-! ### Time -/

/-- When the present request of a routine stops to block by the passing of time. -/
def routineDeadline? {α : Type} : Routine D α → Option Nat
  | .done _ => none
  | .ask q _ => q.deadline?

/-- When an actor can go on by the passing of time alone. -/
def deadline? (s : System D) : Actor → Option Nat
  | .worker => s.worker.pending.bind routineDeadline?
  | .runner i =>
    match s.runners[i]? with
    | none => none
    | some t =>
      if t.ending.isNone then
        match t.pending with
        | some r => routineDeadline? r
        | none => t.timer
      else none
  | .call i =>
    match s.calls[i]? with
    | some (.running r) => routineDeadline? r
    | _ => none

/-- The next time at which someone can go on. -/
def nextDeadline? (s : System D) : Option Nat := (s.actors.filterMap s.deadline?).min?

end System

end Reveille
