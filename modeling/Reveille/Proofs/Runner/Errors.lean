import Mathlib.Data.List.Induction
import Mathlib.Order.Defs.PartialOrder
import Reveille.Proofs.Runner.Ledger

/-!
# Errors of a service

A `Timed` run has the times at which its requests were made and answered, and the notices that were
written on the way.  In the history of such a run the errors of the service can be mended (`mended`): a
stream goes on to its next item instead of handing out an error, an entity that could not be looked up is
never due, and one that could not be processed is next due never.  That costs the runner a reading of the
clock, which takes no time; what the clock shows then is up to us.

The mended history is one of a run as well, with the same calls to the service at the same times, the same
alarm, rescan and shown wake after every reply, and the same end; its notices are those that report no
failure (`Timed.errors_neutral`).
-/

namespace Reveille.Runner

variable {T E Id F : Type}

/-- A request and the reply to it, with the times of both. -/
structure Stamped (T E Id F : Type) where
  asked : T
  answered : T
  exchange : Exchange (requests E Id F)

/-- A run from its beginning, with the times of all requests and replies, the notices, and the time of the
last reply.  Nothing is said about the clock that the runner reads. -/
inductive Timed [DecidableEq Id] [Preorder T] (jitter : Jitter) :
    List (Stamped T E Id F) → List (Notice Id) → Runner E Id F → T → Prop
  | init (start : T) : Timed jitter [] [] (.init jitter) start
  | step {τ : List (Stamped T E Id F)} {ν : List (Notice Id)} {r : Runner E Id F}
      {now asked answered : T} (before : Timed jitter τ ν r now) (reply : r.request.Reply)
      (later : now ≤ asked) (forward : asked ≤ answered) :
      Timed jitter (τ ++ [⟨asked, answered, ⟨r.request, reply⟩⟩]) (ν ++ (r.resume reply).2)
        (r.resume reply).1 answered

def Notice.isFailure : Notice Id → Bool
  | .itemFailed _ | .checkFailed _ _ | .processFailed _ _ => true
  | _ => false

def untroubled (ν : List (Notice Id)) : List (Notice Id) := ν.filter fun n => !n.isFailure

def isError : Exchange (requests E Id F) → Bool
  | ⟨.nextItem _, (reply : Option (Reported Id × F))⟩ =>
    match reply with
    | some (.error _, _) => true
    | _ => false
  | ⟨.checkOne _, (reply : Except ServiceError DueTime)⟩ => !reply.toBool
  | ⟨.processOne _, (reply : Except ServiceError Processed)⟩ => !reply.toBool
  | _ => false

/-! ### Mending a history -/

def asksAgain : Exchange (requests E Id F) → Bool
  | ⟨.processOne _, (reply : Except ServiceError Processed)⟩ =>
    match reply with
    | .ok .advanced | .ok .nothingToDoYet => true
    | _ => false
  | _ => false

/-- A history without errors, as far as it goes. -/
structure Mending (T E Id F : Type) where
  history : List (Stamped T E Id F) := []
  /-- The stream that was asked for an item and only handed out errors since, and when it was asked. -/
  silent : Option (F × T) := none
  /-- An entity was processed, and its due time is looked up next. -/
  again : Bool := false

namespace Mending

def add (m : Mending T E Id F) (x : Stamped T E Id F) : Mending T E Id F :=
  { history := m.history ++ [x], again := asksAgain x.exchange }

def read (m : Mending T E Id F) (clock : T → Instant) (now : T) : Mending T E Id F :=
  m.add ⟨now, now, ⟨.readClock, clock now⟩⟩

def note (clock : T → Instant) (m : Mending T E Id F) : Stamped T E Id F → Mending T E Id F
  | ⟨asked, answered, ⟨.nextItem f, (reply : Option (Reported Id × F))⟩⟩ =>
    let (f, asked) := m.silent.getD (f, asked)
    match reply with
    | some (.error _, _) => { m with silent := some (f, asked) }
    | reply => m.add ⟨asked, answered, ⟨.nextItem f, reply⟩⟩
  | ⟨asked, answered, ⟨.checkOne id, (reply : Except ServiceError DueTime)⟩⟩ =>
    match reply with
    | .error _ =>
      let mended := m.add ⟨asked, answered, ⟨.checkOne id, .ok .never⟩⟩
      if m.again then mended.read clock answered else mended
    | reply => m.add ⟨asked, answered, ⟨.checkOne id, reply⟩⟩
  | ⟨asked, answered, ⟨.processOne id, (reply : Except ServiceError Processed)⟩⟩ =>
    match reply with
    | .error _ =>
      (m.add ⟨asked, answered, ⟨.processOne id, .ok (.advancedUntil .never)⟩⟩).read clock answered
    | reply => m.add ⟨asked, answered, ⟨.processOne id, reply⟩⟩
  | x => m.add x

end Mending

def mending (clock : T → Instant) (τ : List (Stamped T E Id F)) : Mending T E Id F :=
  τ.foldl (Mending.note clock) {}

/-- The history with its errors mended. -/
def mended (clock : T → Instant) (τ : List (Stamped T E Id F)) : List (Stamped T E Id F) :=
  (mending clock τ).history

/-! ### What the service and the world outside see -/

inductive Call (E Id : Type) where
  | checkAll
  | checkOne (id : Id)
  | processOne (id : Id)
  | checkInterval
  | receiveEvent (e : E)
  deriving DecidableEq

def call? : Request E Id F → Option (Call E Id)
  | .checkAll => some .checkAll
  | .checkOne id => some (.checkOne id)
  | .processOne id => some (.processOne id)
  | .checkInterval => some .checkInterval
  | .receiveEvent e => some (.receiveEvent e)
  | _ => none

/-- The calls to the service in order, each with the time at which it was made and that at which it came
back. -/
def calls (τ : List (Stamped T E Id F)) : List (T × T × Call E Id) :=
  τ.filterMap fun x => (call? x.exchange.request).map fun call => (x.asked, x.answered, call)

def arrival? : Exchange (requests E Id F) → Option (Option (Id × DueTime))
  | ⟨.nextItem _, (reply : Option (Reported Id × F))⟩ =>
    match reply with
    | none => some none
    | some (.ok item, _) => some (some item)
    | some (.error _, _) => none
  | _ => none

def arrivals (τ : List (Stamped T E Id F)) : List (T × Option (Id × DueTime)) :=
  τ.filterMap fun x => (arrival? x.exchange).map fun arrival => (x.answered, arrival)

def isPause (x : Stamped T E Id F) : Bool :=
  match x.exchange.request with
  | .isStopRequested | .wait _ _ => true
  | _ => false

def isStop : Exchange (requests E Id F) → Bool
  | ⟨.isStopRequested, (stop : Bool)⟩ => stop
  | ⟨.wait _ _, (woken : Woken E)⟩ =>
    match woken with
    | .stopRequested => true
    | _ => false
  | _ => false

def Shows (clock : T → Instant) (x : Stamped T E Id F) : Prop :=
  match x.exchange with
  | ⟨.readClock, (now : Instant)⟩ => now = clock x.answered
  | _ => True

/-- The phases are the same, but for the stream of a pass. -/
def Phase.Same : Phase E Id F → Phase E Id F → Prop
  | .collecting pass now scan _, .collecting pass' now' scan' _ =>
    pass = pass' ∧ now = now' ∧ scan = scan'
  | p, p' => p = p'

structure Same (r r' : Runner E Id F) : Prop where
  alarm : r'.alarm = r.alarm
  rescanAt : r'.rescanAt = r.rescanAt
  shown : r'.shown = r.shown
  inboxOpen : r'.inboxOpen = r.inboxOpen
  phase : Phase.Same r.phase r'.phase

/-! ### One reply -/

def Phase.isRechecking : Phase E Id F → Bool
  | .rechecking _ _ _ => true
  | _ => false

variable {r r' : Runner E Id F} {jitter : Jitter} {m : Mending T E Id F} {clock : T → Instant}
  {τ : List (Stamped T E Id F)} {ν : List (Notice Id)} {now now' asked answered : T}

theorem offer_never {a : Alarm Id} {id : Option Id} : a.offer .never id = a := by
  have unmoved : a.movedBy .never = false := by
    simp [Alarm.movedBy]
  rw [Alarm.offer, unmoved]
  rfl

theorem isRechecking_check {ids : List Id} : (r.check ids).1.phase.isRechecking = false := by
  cases ids <;> rfl

theorem isRechecking_process {next : Alarm Id} {ids : List Id} :
    (r.process next ids).1.phase.isRechecking = false := by
  cases ids <;> rfl

theorem check_quiet {ids : List Id} : (r.check ids).2 = [] := by
  cases ids <;> rfl

theorem process_quiet {next : Alarm Id} {ids : List Id} : (r.process next ids).2 = [] := by
  cases ids <;> rfl

theorem note_of_not_isError {x : Exchange (requests E Id F)} (heard : m.silent = none)
    (h : isError x = false) : m.note clock ⟨asked, answered, x⟩ = m.add ⟨asked, answered, x⟩ := by
  obtain ⟨history, silent, again⟩ := m
  obtain rfl : silent = none := heard
  obtain ⟨q, reply⟩ := x
  cases q with
  | nextItem f =>
    rcases reply with _ | ⟨e | item, g⟩
    · rfl
    · cases h
    · rfl
  | checkOne id =>
    rcases reply with e | due
    · cases h
    · rfl
  | processOne id =>
    rcases reply with e | processed
    · cases h
    · rfl
  | _ => rfl

theorem untroubled_append {ν' : List (Notice Id)} :
    untroubled (ν ++ ν') = untroubled ν ++ untroubled ν' := List.filter_append _ _

theorem untroubled_failure {n : Notice Id} (failure : n.isFailure = true) :
    untroubled (ν ++ [n]) = untroubled ν := by
  have gone : untroubled [n] = [] := List.filter_cons_of_neg (by simp [failure])
  rw [untroubled_append, gone, List.append_nil]

section
variable [DecidableEq Id]

theorem isRechecking_resume (reply : r.request.Reply) :
    (r.resume reply).1.phase.isRechecking = asksAgain ⟨r.request, reply⟩ := by
  have turned := turned_resume r reply
  generalize r.resume reply = turn at turned ⊢
  cases turned with
  | collected r pass =>
    cases pass with
    | seed => rfl
    | wake => exact isRechecking_process
  | receiving | checked | checkFailed => exact isRechecking_check
  | processFailed | recheckFailed | stillDue | dueLater => exact isRechecking_process
  | _ => rfl

/-- A runner speaks of failures only when it is told of one. -/
theorem untroubled_resume (reply : r.request.Reply) (h : isError ⟨r.request, reply⟩ = false) :
    untroubled (r.resume reply).2 = (r.resume reply).2 := by
  have process {ν : List (Notice Id)} {r : Runner E Id F} {next : Alarm Id} {ids : List Id}
      (said : untroubled ν = ν) :
      untroubled (saying ν (r.process next ids)).2 = (saying ν (r.process next ids)).2 := by
    simpa only [saying, process_quiet, List.append_nil] using said
  have check {ν : List (Notice Id)} {r : Runner E Id F} {ids : List Id} (said : untroubled ν = ν) :
      untroubled (saying ν (r.check ids)).2 = (saying ν (r.check ids)).2 := by
    simpa only [saying, check_quiet, List.append_nil] using said
  have turned := turned_resume r reply
  generalize r.resume reply = turn at turned ⊢
  cases turned with
  | collected r pass =>
    cases pass with
    | seed => rfl
    | wake => exact process rfl
  | arming r pass => cases pass <;> rfl
  | receiving => exact check (ν := []) rfl
  | checked =>
    refine check ?_
    unfold Runner.learn
    dsimp only
    split <;> rfl
  | stillDue => exact process rfl
  | dueLater => exact process (ν := []) rfl
  | itemFailed | checkFailed | processFailed | recheckFailed => cases h
  | _ => rfl

/-- The four places at which an error of the service comes in, and what a runner makes of it. -/
inductive Failed (r : Runner E Id F) : Exchange (requests E Id F) → Turn E Id F → Prop
  | item {pass : Pass} {now : Instant} {scan : Scan Id} {f g : F} {e : ServiceError}
      (phase : r.phase = .collecting pass now scan f) :
      Failed r ⟨.nextItem f, some (.error e, g)⟩
        ({ r with phase := .collecting pass now scan g }, [.itemFailed e])
  | check {id : Id} {rest : List Id} {e : ServiceError} (phase : r.phase = .checking id rest) :
      Failed r ⟨.checkOne id, .error e⟩ ((r.check rest).1, [.checkFailed id e])
  | recheck {id : Id} {rest : List Id} {next : Alarm Id} {e : ServiceError}
      (phase : r.phase = .rechecking id rest next) :
      Failed r ⟨.checkOne id, .error e⟩ ((r.process next rest).1, [.checkFailed id e])
  | process {id : Id} {rest : List Id} {next : Alarm Id} {e : ServiceError}
      (phase : r.phase = .processing id rest next) :
      Failed r ⟨.processOne id, .error e⟩ ((r.process next rest).1, [.processFailed id e])

theorem failed_of_isError (reply : r.request.Reply) (h : isError ⟨r.request, reply⟩ = true) :
    Failed r ⟨r.request, reply⟩ (r.resume reply) := by
  have turned := turned_resume r reply
  generalize r.resume reply = turn at turned ⊢
  cases turned with
  | itemFailed => exact .item rfl
  | checkFailed r id rest =>
    have phase : ({ r with phase := .checking id rest } : Runner E Id F).phase = .checking id rest := rfl
    cases rest <;> exact .check phase
  | processFailed r id rest next =>
    have phase : ({ r with phase := .processing id rest next } : Runner E Id F).phase = .processing id rest next := rfl
    cases rest <;> exact .process phase
  | recheckFailed r id rest next =>
    have phase : ({ r with phase := .rechecking id rest next } : Runner E Id F).phase = .rechecking id rest next := rfl
    cases rest <;> exact .recheck phase
  | _ => cases h

def Turns (r : Runner E Id F) (x : Exchange (requests E Id F)) (t : Turn E Id F) : Prop :=
  ∃ reply : r.request.Reply, x = ⟨r.request, reply⟩ ∧ r.resume reply = t

/-- The runner is about to see whether an entity is still due that is never due. -/
def judgingNever (r : Runner E Id F) (id : Id) (rest : List Id) (next : Alarm Id) : Runner E Id F :=
  { r with phase := .judging id .never rest next }

section
variable {id : Id} {rest : List Id} {next : Alarm Id}

theorem turns_check (phase : r.phase = .checking id rest) :
    Turns r ⟨.checkOne id, .ok .never⟩ (r.check rest) := by
  obtain ⟨jitter, alarm, rescanAt, shown, inboxOpen, _⟩ := r
  obtain rfl := phase
  refine ⟨.ok .never, rfl, ?_⟩
  have unmoved : alarm.movedBy .never = false := by simp [Alarm.movedBy]
  show saying (Runner.learn _ id .never).2 ((Runner.learn _ id .never).1.check rest) = _
  simp only [learn, offer_never, unmoved]
  rfl

theorem turns_recheck (phase : r.phase = .rechecking id rest next) :
    Turns r ⟨.checkOne id, .ok .never⟩ (r.judgingNever id rest next, []) := by
  obtain ⟨jitter, alarm, rescanAt, shown, inboxOpen, _⟩ := r
  obtain rfl := phase
  exact ⟨.ok .never, rfl, rfl⟩

theorem turns_process (phase : r.phase = .processing id rest next) :
    Turns r ⟨.processOne id, .ok (.advancedUntil .never)⟩ (r.judgingNever id rest next, []) := by
  obtain ⟨jitter, alarm, rescanAt, shown, inboxOpen, _⟩ := r
  obtain rfl := phase
  exact ⟨.ok (.advancedUntil .never), rfl, rfl⟩

theorem turns_judge (now : Instant) :
    Turns (r.judgingNever id rest next) ⟨.readClock, now⟩ (r.process next rest) := by
  refine ⟨now, rfl, ?_⟩
  have upcoming : DueTime.never.isDue now = false := rfl
  show (if DueTime.never.isDue now = true
    then saying [.stillDue id .never] ((r.judgingNever id rest next).process next rest)
    else (r.judgingNever id rest next).process (next.offer .never (some id)) rest) = _
  rw [upcoming, if_neg Bool.false_ne_true, offer_never]
  cases rest <;> rfl

end

variable [Preorder T]

theorem Timed.turn (run : Timed jitter τ ν r now) {x : Exchange (requests E Id F)} {t : Turn E Id F}
    (turns : Turns r x t) (later : now ≤ asked) (forward : asked ≤ answered) :
    Timed jitter (τ ++ [⟨asked, answered, x⟩]) (ν ++ t.2) t.1 answered := by
  obtain ⟨reply, rfl, rfl⟩ := turns
  exact run.step reply later forward

/-- In place of an error an entity is never due, and the runner goes on without it. -/
theorem Timed.spared {id : Id} {rest : List Id} {next : Alarm Id} {x : Exchange (requests E Id F)}
    (run : Timed jitter m.history ν r now) (turns : Turns r x (r.judgingNever id rest next, []))
    (later : now ≤ asked) (forward : asked ≤ answered) :
    Timed jitter ((m.add ⟨asked, answered, x⟩).read clock answered).history ν (r.process next rest).1
      answered := by
  have judging := run.turn turns later forward
  have gone := judging.turn (turns_judge (clock answered)) le_rfl le_rfl
  rw [process_quiet, List.append_nil, List.append_nil] at gone
  exact gone

/-- The runner, and the one whose history is mended.  They are apart while a stream hands out errors: for
the second one its item is still to come. -/
inductive Alike (m : Mending T E Id F) (r : Runner E Id F) (now : T) : Runner E Id F → T → Prop
  | together (heard : m.silent = none) (again : m.again = r.phase.isRechecking) : Alike m r now r now
  | apart {pass : Pass} {time : Instant} {scan : Scan Id} {f g : F} {before asked : T}
      (phase : r.phase = .collecting pass time scan g) (silent : m.silent = some (f, asked))
      (later : before ≤ asked) (forward : asked ≤ now) (again : m.again = false) :
      Alike m r now { r with phase := .collecting pass time scan f } before

def Tracks (m : Mending T E Id F) (jitter : Jitter) (ν : List (Notice Id)) (r : Runner E Id F)
    (now : T) : Prop :=
  ∃ r' now', Timed jitter m.history (untroubled ν) r' now' ∧ Alike m r now r' now'

theorem Timed.replied (clock : T → Instant) (run : Timed jitter m.history (untroubled ν) r now)
    (heard : m.silent = none) (reply : r.request.Reply) (later : now ≤ asked) (forward : asked ≤ answered)
    (h : isError ⟨r.request, reply⟩ = false) :
    Tracks (m.note clock ⟨asked, answered, ⟨r.request, reply⟩⟩) jitter (ν ++ (r.resume reply).2)
      (r.resume reply).1 answered := by
  rw [note_of_not_isError heard h]
  refine ⟨_, _, ?_, .together rfl (isRechecking_resume reply).symm⟩
  rw [untroubled_append, untroubled_resume reply h]
  exact run.step reply later forward

theorem Timed.failed (run : Timed jitter m.history (untroubled ν) r now) (heard : m.silent = none)
    (again : m.again = r.phase.isRechecking) {x : Exchange (requests E Id F)} {t : Turn E Id F}
    (later : now ≤ asked) (forward : asked ≤ answered) (h : Failed r x t) :
    Tracks (m.note clock ⟨asked, answered, x⟩) jitter (ν ++ t.2) t.1 answered := by
  obtain ⟨history, silent, wasProcessed⟩ := m
  obtain rfl : silent = none := heard
  obtain rfl : wasProcessed = r.phase.isRechecking := again
  cases h with
  | @item pass time scan f g e phase =>
    -- The stream was asked, and the other runner still waits for its item.
    obtain ⟨jitter', alarm, rescanAt, shown, inboxOpen, _⟩ := r
    obtain rfl := phase
    rw [Tracks, untroubled_failure rfl]
    exact ⟨_, _, run, .apart rfl rfl later forward rfl⟩
  | check phase =>
    have checked := run.turn (turns_check phase) later forward
    rw [check_quiet, List.append_nil] at checked
    have unasked : r.phase.isRechecking = false := by rw [phase]; rfl
    rw [Tracks, untroubled_failure rfl, unasked]
    exact ⟨_, _, checked, .together rfl isRechecking_check.symm⟩
  | recheck phase =>
    have asks : r.phase.isRechecking = true := by rw [phase]; rfl
    rw [Tracks, untroubled_failure rfl, asks]
    exact ⟨_, _, run.spared (turns_recheck phase) later forward,
      .together rfl isRechecking_process.symm⟩
  | process phase =>
    rw [Tracks, untroubled_failure rfl]
    exact ⟨_, _, run.spared (turns_process phase) later forward,
      .together rfl isRechecking_process.symm⟩

/-- A reply while the other runner still waits for an item. -/
theorem Timed.behind {pass : Pass} {time : Instant} {scan : Scan Id} {f g : F} {before since : T}
    (run : Timed jitter m.history (untroubled ν) { r with phase := .collecting pass time scan f } before)
    (phase : r.phase = .collecting pass time scan g) (silent : m.silent = some (f, since))
    (again : m.again = false) (reply : r.request.Reply) (waited : before ≤ since) (asking : since ≤ now)
    (later : now ≤ asked) (forward : asked ≤ answered) :
    Tracks (m.note clock ⟨asked, answered, ⟨r.request, reply⟩⟩) jitter (ν ++ (r.resume reply).2)
      (r.resume reply).1 answered := by
  obtain ⟨history, _, _⟩ := m
  obtain rfl := silent
  obtain rfl := again
  obtain ⟨jitter', alarm, rescanAt, shown, inboxOpen, _⟩ := r
  obtain rfl := phase
  have waiting : since ≤ answered := asking.trans (later.trans forward)
  let m₀ : Mending T E Id F := { history }
  rcases reply with _ | ⟨e | item, g'⟩
  · exact Timed.replied clock (m := m₀) run rfl none waited waiting rfl
  · have muted : untroubled (ν ++ [.itemFailed e]) = untroubled ν := untroubled_failure rfl
    exact ⟨_, _, muted.symm ▸ run, .apart rfl rfl waited waiting rfl⟩
  · exact Timed.replied clock (m := m₀) run rfl (some (.ok item, g')) waited waiting rfl

theorem Tracks.step (h : Tracks m jitter ν r now) (reply : r.request.Reply) (later : now ≤ asked)
    (forward : asked ≤ answered) :
    Tracks (m.note clock ⟨asked, answered, ⟨r.request, reply⟩⟩) jitter (ν ++ (r.resume reply).2)
      (r.resume reply).1 answered := by
  obtain ⟨r', now', run, alike⟩ := h
  cases alike with
  | together heard again =>
    cases herror : isError ⟨r.request, reply⟩ with
    | false => exact run.replied clock heard reply later forward herror
    | true => exact run.failed heard again later forward (failed_of_isError reply herror)
  | apart phase silent waited asking again =>
    exact run.behind phase silent again reply waited asking later forward

theorem Timed.tracks (h : Timed jitter τ ν r now) (clock : T → Instant) :
    Tracks (mending clock τ) jitter ν r now := by
  induction h with
  | init start => exact ⟨_, _, .init start, .together rfl rfl⟩
  | step before reply later forward ih =>
    rw [mending, List.foldl_append]
    exact ih.step reply later forward

/-- Nothing but a request to stop ends the loop. -/
theorem isStop_of_stopped (reply : r.request.Reply) (h : (r.resume reply).1.phase = .stopped) :
    isStop ⟨r.request, reply⟩ = true := by
  have check {r : Runner E Id F} {ids : List Id} : (r.check ids).1.phase ≠ .stopped := by
    cases ids <;> exact nofun
  have process {r : Runner E Id F} {next : Alarm Id} {ids : List Id} :
      (r.process next ids).1.phase ≠ .stopped := by
    cases ids <;> exact nofun
  have turned := turned_resume r reply
  generalize r.resume reply = turn at turned h
  cases turned with
  | stopped | stoppedWaiting => rfl
  | collected r pass =>
    cases pass with
    | seed => cases h
    | wake => exact absurd h process
  | receiving | checked | checkFailed => exact absurd h check
  | processFailed | recheckFailed | stillDue | dueLater => exact absurd h process
  | _ => cases h

theorem Timed.stopped (h : Timed jitter τ ν r now) (stopped : r.phase = .stopped) :
    ∃ τ₀ x, τ = τ₀ ++ [x] ∧ isStop x.exchange = true := by
  cases h with
  | init start => cases stopped
  | step before reply later forward =>
    exact ⟨_, _, rfl, isStop_of_stopped reply stopped⟩

end

/-! ### Histories -/

/-- What stands in the mended history for a reply. -/
structure Stands (clock : T → Instant) (more : List (Stamped T E Id F)) (x : Stamped T E Id F) :
    Prop where
  calls : calls more = calls [x]
  arrivals : arrivals more = arrivals [x]
  pauses : more.filter isPause = [x].filter isPause
  sound : ∀ y ∈ more, isError y.exchange = false
  shows : Shows clock x → ∀ y ∈ more, Shows clock y

theorem stands_single {x y : Stamped T E Id F} (same : calls [y] = calls [x])
    (arrives : arrivals [y] = arrivals [x]) (pauses : [y].filter isPause = [x].filter isPause)
    (sound : isError y.exchange = false) (shows : Shows clock x → Shows clock y) :
    Stands clock [y] x := by
  refine ⟨same, arrives, pauses, ?_, ?_⟩
  · intro z hz
    rwa [List.mem_singleton.mp hz]
  · intro hx z hz
    rw [List.mem_singleton.mp hz]
    exact shows hx

theorem Stands.read {x y : Stamped T E Id F} (h : Stands clock [y] x) (answered : T) :
    Stands clock [y, ⟨answered, answered, ⟨.readClock, clock answered⟩⟩] x := by
  refine ⟨?_, ?_, ?_, ?_, ?_⟩
  · rw [← h.calls]
    rfl
  · rw [← h.arrivals]
    rfl
  · rw [← h.pauses]
    exact (List.filter_append [y] [_]).trans (List.append_nil _)
  · intro z hz
    rcases List.mem_cons.mp hz with rfl | hz
    · exact h.sound _ List.mem_cons_self
    · rw [List.mem_singleton.mp hz]
      rfl
  · intro hx z hz
    rcases List.mem_cons.mp hz with rfl | hz
    · exact h.shows hx _ List.mem_cons_self
    · rw [List.mem_singleton.mp hz]
      exact rfl

theorem history_note (clock : T → Instant) (m : Mending T E Id F) (x : Stamped T E Id F) :
    ∃ more, (m.note clock x).history = m.history ++ more ∧ Stands clock more x := by
  obtain ⟨asked, answered, q, reply⟩ := x
  have single {m : Mending T E Id F} (x : Stamped T E Id F) (h : isError x.exchange = false) :
      ∃ more, (m.add x).history = m.history ++ more ∧ Stands clock more x :=
    ⟨[x], rfl, stands_single rfl rfl rfl h id⟩
  cases q with
  | nextItem f =>
    rcases reply with _ | ⟨e | item, g⟩
    · exact ⟨_, rfl, stands_single rfl rfl rfl rfl id⟩
    · exact ⟨[], (List.append_nil _).symm, rfl, rfl, rfl, List.forall_mem_nil _,
        fun _ => List.forall_mem_nil _⟩
    · exact ⟨_, rfl, stands_single rfl rfl rfl rfl id⟩
  | checkOne id =>
    rcases reply with e | due
    · let y : Stamped T E Id F := ⟨asked, answered, ⟨.checkOne id, .ok .never⟩⟩
      have never : Stands clock [y] ⟨asked, answered, ⟨.checkOne id, .error e⟩⟩ :=
        stands_single rfl rfl rfl rfl fun _ => trivial
      cases hagain : m.again with
      | false => exact ⟨_, by simp only [Mending.note, hagain]; rfl, never⟩
      | true =>
        refine ⟨_, ?_, never.read answered⟩
        simp only [Mending.note, hagain]
        exact List.append_assoc _ _ _
    · exact single _ rfl
  | processOne id =>
    rcases reply with e | processed
    · let y : Stamped T E Id F := ⟨asked, answered, ⟨.processOne id, .ok (.advancedUntil .never)⟩⟩
      have never : Stands clock [y] ⟨asked, answered, ⟨.processOne id, .error e⟩⟩ :=
        stands_single rfl rfl rfl rfl fun _ => trivial
      exact ⟨_, List.append_assoc _ _ _, never.read answered⟩
    · exact single _ rfl
  | _ => exact single _ rfl

theorem mended_concat (clock : T → Instant) (τ : List (Stamped T E Id F)) (x : Stamped T E Id F) :
    ∃ more, mended clock (τ ++ [x]) = mended clock τ ++ more ∧ Stands clock more x := by
  obtain ⟨more, hmore, stands⟩ := history_note clock (mending clock τ) x
  refine ⟨more, ?_, stands⟩
  rw [mended, mending, List.foldl_append]
  exact hmore

/-- What the service sees of a mended history, and what it is told by the world outside. -/
theorem mended_same (clock : T → Instant) (τ : List (Stamped T E Id F)) :
    calls (mended clock τ) = calls τ ∧ arrivals (mended clock τ) = arrivals τ ∧
      (mended clock τ).filter isPause = τ.filter isPause ∧
      (∀ x ∈ mended clock τ, isError x.exchange = false) ∧
      ((∀ x ∈ τ, Shows clock x) → ∀ x ∈ mended clock τ, Shows clock x) := by
  induction τ using List.reverseRecOn with
  | nil => exact ⟨rfl, rfl, rfl, List.forall_mem_nil _, fun _ => List.forall_mem_nil _⟩
  | append_singleton τ x ih =>
    obtain ⟨hcalls, harrivals, hpauses, hsound, hshows⟩ := ih
    obtain ⟨more, hmore, stands⟩ := mended_concat clock τ x
    rw [hmore]
    refine ⟨?_, ?_, ?_, ?_, ?_⟩
    · rw [calls, List.filterMap_append, ← calls, ← calls, hcalls, stands.calls]
      exact List.filterMap_append.symm
    · rw [arrivals, List.filterMap_append, ← arrivals, ← arrivals, harrivals, stands.arrivals]
      exact List.filterMap_append.symm
    · rw [List.filter_append, List.filter_append, hpauses, stands.pauses]
    · intro y hy
      exact (List.mem_append.mp hy).elim (hsound y) (stands.sound y)
    · intro h y hy
      have hτ := hshows fun z hz => h z (List.mem_append_left _ hz)
      have hx := stands.shows (h x (List.mem_append_right _ List.mem_cons_self))
      exact (List.mem_append.mp hy).elim (hτ y) (hx y)

theorem mended_prefix {σ : List (Stamped T E Id F)} (h : σ <+: τ) : mended clock σ <+: mended clock τ := by
  obtain ⟨ρ, rfl⟩ := h
  induction ρ using List.reverseRecOn with
  | nil => exact ⟨[], by rw [List.append_nil, List.append_nil]⟩
  | append_singleton ρ x ih =>
    obtain ⟨more, hmore, -⟩ := mended_concat clock (σ ++ ρ) x
    rw [← List.append_assoc, hmore]
    exact ih.trans (List.prefix_append _ _)

section
variable [DecidableEq Id] [Preorder T]

omit [DecidableEq Id] in
theorem same_of_alike (h : Alike m r now r' now') : Same r r' := by
  cases h with
  | together heard again =>
    refine ⟨rfl, rfl, rfl, rfl, ?_⟩
    cases hp : r.phase <;> simp [Phase.Same]
  | apart phase silent waited asking again =>
    refine ⟨rfl, rfl, rfl, rfl, ?_⟩
    rw [phase]
    exact ⟨rfl, rfl, rfl⟩

/-- Without the errors of its service a runner does the same: it calls the service at the same times, and
its alarm, its rescan and the wake it shows are the same after every reply.  It writes everything but the
reports of failures, and its loop ends when it is stopped and not otherwise. -/
theorem Timed.errors_neutral (h : Timed jitter τ ν r now) (clock : T → Instant) :
    (∃ r' now', Timed jitter (mended clock τ) (untroubled ν) r' now' ∧ Same r r') ∧
    calls (mended clock τ) = calls τ ∧ arrivals (mended clock τ) = arrivals τ ∧
    (mended clock τ).filter isPause = τ.filter isPause ∧
    (∀ x ∈ mended clock τ, isError x.exchange = false) ∧
    ((∀ x ∈ τ, Shows clock x) → ∀ x ∈ mended clock τ, Shows clock x) ∧
    (∀ σ, σ <+: τ → mended clock σ <+: mended clock τ) ∧
    (r.phase = .stopped → ∃ τ₀ x, τ = τ₀ ++ [x] ∧ isStop x.exchange = true) := by
  obtain ⟨r', now', run, alike⟩ := h.tracks clock
  obtain ⟨hcalls, harrivals, hpauses, hsound, hshows⟩ := mended_same clock τ
  exact ⟨⟨r', now', run, same_of_alike alike⟩, hcalls, harrivals, hpauses, hsound, hshows,
    fun _ => mended_prefix, h.stopped⟩

/-! ### A service with errors of all kinds -/

/-- A run in which every request has one reply, which comes one unit of time after it. -/
def spell (answer : (q : Request E Id F) → Option q.Reply) :
    Nat → Nat → Runner E Id F → List (Stamped Nat E Id F) × List (Notice Id) × Runner E Id F
  | 0, _, r => ([], [], r)
  | n + 1, now, r =>
    match answer r.request with
    | none => ([], [], r)
    | some reply =>
      let later := spell answer n (now + 1) (r.resume reply).1
      (⟨now, now + 1, ⟨r.request, reply⟩⟩ :: later.1, (r.resume reply).2 ++ later.2.1, later.2.2)

theorem Timed.spell {τ : List (Stamped Nat E Id F)} {now : Nat} (h : Timed jitter τ ν r now)
    (answer : (q : Request E Id F) → Option q.Reply) (n : Nat) :
    ∃ later, Timed jitter (τ ++ (Runner.spell answer n now r).1)
      (ν ++ (Runner.spell answer n now r).2.1) (Runner.spell answer n now r).2.2 later := by
  induction n generalizing τ ν r now with
  | zero =>
    refine ⟨now, ?_⟩
    rw [Runner.spell, List.append_nil, List.append_nil]
    exact h
  | succ n ih =>
    unfold Runner.spell
    split
    · refine ⟨now, ?_⟩
      rw [List.append_nil, List.append_nil]
      exact h
    · next reply _ =>
      obtain ⟨later, run⟩ := ih (h.step reply (le_refl now) (Nat.le_succ now))
      refine ⟨later, ?_⟩
      rw [List.append_cons, ← List.append_assoc]
      exact run

/-- A service that fails in all ways: one item of its stream is an error, entity 1 cannot be processed,
and entity 2, which is due later, cannot be looked up. -/
def ailing : (q : Request Unit Nat Nat) → Option q.Reply
  | .readClock => some (tick 4)
  | .isStopRequested => some false
  | .checkAll => some 0
  | .nextItem 0 => some (some (.error (.store "lost"), 1))
  | .nextItem 1 => some (some (.ok (1, .moment (tick 2)), 2))
  | .nextItem 2 => some (some (.ok (2, .moment (tick 9)), 3))
  | .nextItem _ => some none
  | .checkInterval => some (.ofSeconds 60, 0)
  | .wait _ _ => some (.event ())
  | .receiveEvent _ => some [2]
  | .processOne 1 => some (.error (.store "stuck"))
  | .processOne _ => some (.ok .advanced)
  | .checkOne _ => some (.error (.store "gone"))
  | .finished => none

/-- The seeding pass, a wake pass, and an event about entity 2. -/
def sickDay : List (Stamped Nat Unit Nat Nat) × List (Notice Nat) × Runner Unit Nat Nat :=
  spell ailing 24 0 (.init .none)

/-- There are errors of all kinds, and the mended history has none of them. -/
theorem errors_neutral_ailing :
    (sickDay.1.filter fun x => isError x.exchange).length = 4 ∧
    (calls sickDay.1).map (·.2.2) = [.checkAll, .checkInterval, .checkAll, .processOne 1, .checkInterval,
      .receiveEvent (), .checkOne 2] ∧
    calls (mended (fun _ => tick 4) sickDay.1) = calls sickDay.1 ∧
    (∃ r' now', Timed .none (mended (fun _ => tick 4) sickDay.1) (untroubled sickDay.2.1) r' now' ∧
      Same sickDay.2.2 r') ∧
    (∀ x ∈ mended (fun _ => tick 4) sickDay.1, isError x.exchange = false) := by
  have run : ∃ later, Timed .none sickDay.1 sickDay.2.1 sickDay.2.2 later :=
    (Timed.init (T := Nat) 0).spell ailing 24
  obtain ⟨later, run⟩ := run
  obtain ⟨mendable, same, -, -, sound, -⟩ := Timed.errors_neutral run fun _ => tick 4
  exact ⟨by decide +kernel, by decide +kernel, same, mendable, sound⟩

end

end Reveille.Runner
