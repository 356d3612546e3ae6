import Reveille.Proofs.Runner.Pass

/-!
# What was reported to a runner

A `Ledger` notes what a runner is told, in the order of telling: the items of the present pass and the
time of the pass, the due times that processed entities were left with and the reading of the clock that
followed, and the due times of entities that events were about.  It is read off the requests and the
replies alone (`ledger`); the alarm and the phases of the runner do not come into it.

`Ledger.known` lists what counts for the next wake: later items, or all of them in a seeding pass, what
was not due any more after processing, and what events brought up.  Through every run of a runner,
whatever its service, its clock and its inbox reply, the alarm is the earliest of these, set by the first
that came with it.  That holds whenever the runner is at the top of its loop, where it also shows the time
for which it is going to wait (`Run.alarm_soonest`).
-/

namespace Reveille.Runner

variable {E Id F : Type}

/-- What has still to be learnt about an entity that was just processed. -/
inductive Question (Id : Type) where
  | nothing
  /-- When it is due. -/
  | due
  /-- The time, now that it is known when it is due. -/
  | time (id : Id) (due : DueTime)

/-- What processing left behind: a due time, and the reading of the clock right after it was learnt. -/
structure Outcome (Id : Type) where
  id : Id
  due : DueTime
  reading : Instant

structure Ledger (Id : Type) where
  /-- The last pass that began. -/
  pass : Option Pass := none
  /-- The time of that pass. -/
  time : Instant := .epoch
  /-- The items of that pass, in the order of the stream. -/
  items : List (Id × DueTime) := []
  /-- What became of the entities that were processed in that pass. -/
  outcomes : List (Outcome Id) := []
  /-- Due times of entities that events were about, since that pass. -/
  told : List (Id × DueTime) := []
  /-- The last reading of the clock. -/
  reading : Instant := .epoch
  question : Question Id := .nothing

namespace Ledger

def note (l : Ledger Id) : Exchange (requests E Id F) → Ledger Id
  | ⟨.readClock, (now : Instant)⟩ =>
    match l.question with
    | .time id due =>
      { l with outcomes := l.outcomes ++ [⟨id, due, now⟩], reading := now, question := .nothing }
    | _ => { l with reading := now }
  | ⟨.checkAll, _⟩ =>
    { pass := some (if l.pass.isNone then .seed else .wake), time := l.reading, reading := l.reading }
  | ⟨.nextItem _, (reply : Option (Reported Id × F))⟩ =>
    match reply with
    | some (.ok item, _) => { l with items := l.items ++ [item] }
    | _ => l
  | ⟨.processOne id, (reply : Except ServiceError Processed)⟩ =>
    match reply with
    | .ok (.advancedUntil due) => { l with question := .time id due }
    | .ok _ => { l with question := .due }
    | .error _ => l
  | ⟨.checkOne id, (reply : Except ServiceError DueTime)⟩ =>
    match l.question, reply with
    | .due, .ok due => { l with question := .time id due }
    | .due, .error _ => { l with question := .nothing }
    | _, .ok due => { l with told := l.told ++ [(id, due)] }
    | _, .error _ => l
  | _ => l

/-- What counts for the next wake, in the order of telling. -/
def known (l : Ledger Id) : List (Id × DueTime) :=
  (match l.pass with
    | some .wake => l.items.filter fun item => !item.2.isDue l.time
    | _ => l.items) ++
  ((l.outcomes.filter fun o => !o.due.isDue o.reading).map fun o => (o.id, o.due)) ++ l.told

end Ledger

def ledger (τ : List (Exchange (requests E Id F))) : Ledger Id := τ.foldl Ledger.note {}

/-- A run of a runner from its beginning, with the request and the reply of every step.  Any reply is
possible at any time. -/
inductive Run [DecidableEq Id] (jitter : Jitter) :
    List (Exchange (requests E Id F)) → Runner E Id F → Prop
  | init : Run jitter [] (.init jitter)
  | step {τ : List (Exchange (requests E Id F))} {r : Runner E Id F} (before : Run jitter τ r)
      (reply : r.request.Reply) : Run jitter (τ ++ [⟨r.request, reply⟩]) (r.resume reply).1

/-! ### The ledger and the phases of a runner -/

/-- Nothing is open, and an alarm is the soonest of what is known. -/
def Ledger.Settled (l : Ledger Id) (a : Alarm Id) : Prop :=
  l.pass.isSome ∧ l.question = .nothing ∧ a = .soonest l.known

def Ledger.Processing (l : Ledger Id) (next : Alarm Id) : Prop :=
  l.pass = some .wake ∧ l.told = [] ∧ next = .soonest l.known

/-- The ledger has what the runner keeps at its phase. -/
def Faithful (l : Ledger Id) (r : Runner E Id F) : Prop :=
  match r.phase with
  | .seeding => l.pass = none ∧ l.question = .nothing
  | .scanning pass now => l.question = .nothing ∧ l.reading = now ∧ (pass = .seed ↔ l.pass = none)
  | .collecting pass now scan _ => l.question = .nothing ∧ l.pass = some pass ∧ l.time = now ∧
      l.outcomes = [] ∧ l.told = [] ∧ scan.due = l.items.filter (fun item => item.2.isDue now) ∧
      scan.next = .soonest (l.items.filter fun item => !item.2.isDue now)
  | .arming _ _ | .checking _ _ | .ending => l.Settled r.alarm
  | .top | .timing | .waking | .receiving _ => l.Settled r.alarm ∧ r.shown = r.wake
  | .waiting limit => l.Settled r.alarm ∧ r.shown = r.wake ∧ r.wakeDue.isDue l.reading = false ∧
      limit = r.wakeDue.remaining l.reading
  | .processing _ _ next => l.question = .nothing ∧ l.Processing next
  | .rechecking _ _ next => l.question = .due ∧ l.Processing next
  | .judging id due _ next => l.question = .time id due ∧ l.Processing next
  | .stopped => True

variable {l : Ledger Id} {r : Runner E Id F} {τ : List (Exchange (requests E Id F))} {jitter : Jitter}

theorem wake_due : r.wake.due = r.wakeDue := by
  unfold wake wakeDue
  split
  · next h => exact (min_eq_right h.le).symm
  · next h => exact (min_eq_left (not_lt.mp h)).symm

theorem faithful_check {rest : List Id} (h : l.Settled r.alarm) : Faithful l (r.check rest).1 := by
  cases rest with
  | nil => exact ⟨h, rfl⟩
  | cons id rest => exact h

theorem faithful_process {next : Alarm Id} {rest : List Id} (question : l.question = .nothing)
    (h : l.Processing next) : Faithful l (r.process next rest).1 := by
  obtain ⟨hpass, htold, hnext⟩ := h
  cases rest with
  | nil => exact ⟨by rw [hpass]; rfl, question, hnext⟩
  | cons id rest => exact ⟨question, hpass, htold, hnext⟩

/-- The later items are known at the end of a scan; in a seeding pass all of them are. -/
theorem faithful_finishScan {pass : Pass} {now : Instant} {scan : Scan Id}
    (question : l.question = .nothing) (hpass : l.pass = some pass) (htime : l.time = now)
    (houtcomes : l.outcomes = []) (htold : l.told = [])
    (hdue : scan.due = l.items.filter fun item => item.2.isDue now)
    (hnext : scan.next = .soonest (l.items.filter fun item => !item.2.isDue now)) :
    Faithful l (r.finishScan pass now scan).1 := by
  cases pass with
  | seed =>
    refine ⟨by rw [hpass]; rfl, question, ?_⟩
    show Alarm.offerAll scan.next scan.due = _
    have hknown : l.known = l.items := by simp [Ledger.known, hpass, houtcomes, htold]
    rw [hknown, hdue, hnext, Alarm.offerAll_soonest]
    exact Alarm.soonest_split fun due => due.isDue now
  | wake =>
    refine faithful_process question ⟨hpass, htold, ?_⟩
    have hknown : l.known = l.items.filter fun item => !item.2.isDue now := by
      simp [Ledger.known, hpass, houtcomes, htold, htime]
    rw [hknown]
    exact hnext

theorem known_outcome {o : Outcome Id} (htold : l.told = []) :
    ({ l with outcomes := l.outcomes ++ [o], reading := o.reading, question := .nothing } :
      Ledger Id).known = if o.due.isDue o.reading then l.known else l.known ++ [(o.id, o.due)] := by
  cases h : o.due.isDue o.reading <;> simp [Ledger.known, htold, h]

theorem known_told {item : Id × DueTime} :
    ({ l with told := l.told ++ [item] } : Ledger Id).known = l.known ++ [item] := by
  simp [Ledger.known]

/-- A reading is noted as the last one when no due time waits for it. -/
theorem note_readClock {now : Instant} (h : l.question = .nothing) :
    l.note (⟨.readClock, now⟩ : Exchange (requests E Id F)) = { l with reading := now } := by
  simp only [Ledger.note, h]

/-- A reading that a due time waits for is the outcome for its entity. -/
theorem note_judged {id : Id} {due : DueTime} {now : Instant} (h : l.question = .time id due) :
    l.note (⟨.readClock, now⟩ : Exchange (requests E Id F)) =
      { l with outcomes := l.outcomes ++ [⟨id, due, now⟩], reading := now, question := .nothing } := by
  simp only [Ledger.note, h]

/-- A processed entity is not known as long as it is due. -/
theorem faithful_stillDue {id : Id} {due : DueTime} {rest : List Id} {next : Alarm Id} {now : Instant}
    (h : l.question = .time id due ∧ l.Processing next) (isDue : due.isDue now = true) :
    Faithful (l.note (⟨.readClock, now⟩ : Exchange (requests E Id F))) (r.process next rest).1 := by
  obtain ⟨hquestion, hpass, htold, hnext⟩ := h
  have hknown := known_outcome (o := ⟨id, due, now⟩) htold
  rw [if_pos isDue] at hknown
  rw [note_judged hquestion]
  exact faithful_process rfl ⟨hpass, htold, hnext.trans (congrArg _ hknown.symm)⟩

/-- A processed entity is known if it is not due any more at the reading that follows. -/
theorem faithful_dueLater {id : Id} {due : DueTime} {rest : List Id} {next : Alarm Id} {now : Instant}
    (h : l.question = .time id due ∧ l.Processing next) (notDue : due.isDue now = false) :
    Faithful (l.note (⟨.readClock, now⟩ : Exchange (requests E Id F)))
      (r.process (next.offer due (some id)) rest).1 := by
  obtain ⟨hquestion, hpass, htold, hnext⟩ := h
  have hknown := known_outcome (o := ⟨id, due, now⟩) htold
  rw [notDue, if_neg Bool.false_ne_true] at hknown
  rw [note_judged hquestion]
  refine faithful_process rfl ⟨hpass, htold, ?_⟩
  rw [hknown, Alarm.soonest_concat, hnext]

section
variable [DecidableEq Id]

/-- The answer about an entity that an event names is known from then on. -/
theorem faithful_learn {id : Id} {rest : List Id} (h : l.Settled r.alarm)
    (reply : Except ServiceError DueTime) :
    Faithful (l.note (⟨.checkOne id, reply⟩ : Exchange (requests E Id F)))
      (r.next (.checking id rest) reply).1 := by
  obtain ⟨hpass, hquestion, halarm⟩ := h
  cases reply with
  | error e =>
    have hnote : l.note (⟨.checkOne id, .error e⟩ : Exchange (requests E Id F)) = l := by
      simp only [Ledger.note, hquestion]
    rw [hnote]
    exact faithful_check ⟨hpass, hquestion, halarm⟩
  | ok due =>
    have hnote : l.note (⟨.checkOne id, .ok due⟩ : Exchange (requests E Id F)) =
        { l with told := l.told ++ [(id, due)] } := by
      simp only [Ledger.note, hquestion]
    rw [hnote]
    refine faithful_check ⟨hpass, hquestion, ?_⟩
    rw [known_told, Alarm.soonest_concat]
    exact congrArg (Alarm.offer · due (some id)) halarm

/-- The answer about a processed entity leaves the time to be read, if it is one. -/
theorem faithful_recheck {id : Id} {rest : List Id} {next : Alarm Id}
    (h : l.question = .due ∧ l.Processing next) (reply : Except ServiceError DueTime) :
    Faithful (l.note (⟨.checkOne id, reply⟩ : Exchange (requests E Id F)))
      (r.next (.rechecking id rest next) reply).1 := by
  obtain ⟨hquestion, hprocessing⟩ := h
  cases reply with
  | error e =>
    have hnote : l.note (⟨.checkOne id, .error e⟩ : Exchange (requests E Id F)) =
        { l with question := .nothing } := by
      simp only [Ledger.note, hquestion]
    rw [hnote]
    exact faithful_process rfl hprocessing
  | ok due =>
    have hnote : l.note (⟨.checkOne id, .ok due⟩ : Exchange (requests E Id F)) =
        { l with question := .time id due } := by
      simp only [Ledger.note, hquestion]
    rw [hnote]
    exact ⟨rfl, hprocessing⟩

theorem Faithful.step (h : Faithful l r) (reply : r.request.Reply) :
    Faithful (l.note ⟨r.request, reply⟩) (r.resume reply).1 := by
  have read {now : Instant} {r' : Runner E Id F} (question : l.question = .nothing)
      (h : Faithful { l with reading := now } r') :
      Faithful (l.note (⟨.readClock, now⟩ : Exchange (requests E Id F))) r' :=
    (note_readClock question).symm ▸ h
  have turned := turned_resume r reply
  generalize r.resume reply = turn at turned ⊢
  cases turned with
  | seeding =>
    obtain ⟨hpass, hquestion⟩ := h
    exact read hquestion ⟨hquestion, rfl, fun _ => hpass, fun _ => rfl⟩
  | scanning r pass =>
    obtain ⟨hquestion, rfl, hpass⟩ := h
    refine ⟨rfl, congrArg some ?_, rfl, rfl, rfl, rfl, rfl⟩
    cases pass with
    | seed => rw [hpass.mp rfl]; rfl
    | wake =>
      cases hl : l.pass with
      | none => cases hpass.mpr hl
      | some p => rfl
  | collected =>
    obtain ⟨hquestion, hpass, htime, houtcomes, htold, hdue, hnext⟩ := h
    exact faithful_finishScan hquestion hpass htime houtcomes htold hdue hnext
  | itemFailed => exact h
  | item r pass now scan stream item =>
    obtain ⟨hquestion, hpass, htime, houtcomes, htold, hdue, hnext⟩ := h
    refine ⟨hquestion, hpass, htime, houtcomes, htold, ?_, ?_⟩
    · show (scan.add now item).due = (l.items ++ [item]).filter _
      cases hi : item.2.isDue now <;> simp [Scan.add, hi, hdue]
    · show (scan.add now item).next = .soonest ((l.items ++ [item]).filter _)
      cases hi : item.2.isDue now <;> simp [Scan.add, hi, hnext, Alarm.soonest_concat]
  | arming => exact ⟨h, rfl⟩
  | stopped | stoppedWaiting => exact trivial
  | working => exact h
  | late | earlyWake => exact read h.1.2.1 h
  | early r now notDue => exact read h.1.2.1 ⟨h.1, h.2, notDue, rfl⟩
  | event | inboxEnded | elapsed => exact ⟨h.1, h.2.1⟩
  | wakes =>
    obtain ⟨⟨hsome, hquestion, -⟩, -⟩ := h
    refine read hquestion ⟨hquestion, rfl, fun hseed => ?_, fun hnone => ?_⟩
    · cases hseed
    · rw [show l.pass = none from hnone] at hsome
      cases hsome
  | receiving => exact faithful_check h.1
  | checked r id rest due => exact faithful_learn h (.ok due)
  | checkFailed r id rest e => exact faithful_learn h (.error e)
  | advancedUntil | advanced | nothingToDo => exact ⟨rfl, h.2⟩
  | processFailed => exact faithful_process h.1 h.2
  | rechecked r id rest next due => exact faithful_recheck h (.ok due)
  | recheckFailed r id rest next e => exact faithful_recheck h (.error e)
  | stillDue r id due rest next now isDue => exact faithful_stillDue h isDue
  | dueLater r id due rest next now notDue => exact faithful_dueLater h notDue
  | ending => exact read h.2.1 h

theorem Run.faithful (h : Run jitter τ r) : Faithful (ledger τ) r := by
  induction h with
  | init => exact ⟨rfl, rfl⟩
  | step before reply ih =>
    rw [ledger, List.foldl_append]
    exact ih.step reply

/-- At the top of its loop the alarm of a runner is the soonest of all that is known since the last
pass, and it shows the earlier of alarm and rescan.  That is what it then waits for. -/
theorem Run.alarm_soonest (h : Run jitter τ r) :
    (r.phase = .top → r.alarm = .soonest (ledger τ).known ∧
      r.shown = (if r.rescanAt < r.alarm.due then .fallback r.rescanAt else r.alarm) ∧
      r.shown.due = min r.alarm.due r.rescanAt) ∧
    ∀ limit, r.phase = .waiting limit → r.shown.due.isDue (ledger τ).reading = false ∧
      limit = r.shown.due.remaining (ledger τ).reading := by
  have inv := h.faithful
  unfold Faithful at inv
  constructor
  · intro top
    rw [top] at inv
    obtain ⟨⟨-, -, halarm⟩, hshown⟩ := inv
    exact ⟨halarm, hshown, by rw [hshown, wake_due]; rfl⟩
  · intro limit waiting
    rw [waiting] at inv
    obtain ⟨-, hshown, hdue, hlimit⟩ := inv
    rw [hshown, wake_due]
    exact ⟨hdue, hlimit⟩

/-! ### An event about two entities -/

/-- What happens to a runner in at most `n` steps when every request has one reply. -/
def obey (answer : (q : Request E Id F) → Option q.Reply) :
    Nat → Runner E Id F → List (Exchange (requests E Id F)) × Runner E Id F
  | 0, r => ([], r)
  | n + 1, r =>
    match answer r.request with
    | none => ([], r)
    | some reply =>
      let later := obey answer n (r.resume reply).1
      (⟨r.request, reply⟩ :: later.1, later.2)

theorem Run.obey (h : Run jitter τ r) (answer : (q : Request E Id F) → Option q.Reply) (n : Nat) :
    Run jitter (τ ++ (r.obey answer n).1) (r.obey answer n).2 := by
  induction n generalizing τ r with
  | zero =>
    rw [Runner.obey, List.append_nil]
    exact h
  | succ n ih =>
    unfold Runner.obey
    split
    · rw [List.append_nil]
      exact h
    · next reply _ =>
      rw [List.append_cons]
      exact ih (h.step reply)

def tick (n : Nat) : Instant := (Instant.ofNanos? n).getD .last

/-- At tick 4 nothing is due; then there is an event about two entities that are due at tick 5. -/
def busy : (q : Request Unit Nat Nat) → Option q.Reply
  | .readClock => some (tick 4)
  | .isStopRequested => some false
  | .checkAll => some 0
  | .nextItem 0 => some (some (.ok (1, .moment (tick 6)), 1))
  | .nextItem _ => some none
  | .checkInterval => some (.ofSeconds 60, 0)
  | .wait _ _ => some (.event ())
  | .receiveEvent _ => some [2, 3]
  | .checkOne _ => some (.ok (.moment (tick 5)))
  | _ => none

/-- After the event the runner waits one nanosecond, for the first of the two entities. -/
theorem alarm_soonest_busy :
    (obey busy 11 (.init .none)).2.alarm = .soonest (ledger (obey busy 11 (.init .none)).1).known ∧
    (ledger (obey busy 11 (.init .none)).1).known =
      [(1, .moment (tick 6)), (2, .moment (tick 5)), (3, .moment (tick 5))] ∧
    (some ⟨1, by decide⟩ : Option Duration) =
      (obey busy 13 (.init .none)).2.shown.due.remaining (tick 4) := by
  have top : (obey busy 11 (.init .none)).2.phase = .top := rfl
  have waiting : (obey busy 13 (.init .none)).2.phase = .waiting (some ⟨1, by decide⟩) := rfl
  have reading : (ledger (obey busy 13 (.init .none)).1).reading = tick 4 := by decide +kernel
  refine ⟨((Run.alarm_soonest (Run.init.obey busy 11)).1 top).1, by decide +kernel, ?_⟩
  rw [← reading]
  exact ((Run.alarm_soonest (Run.init.obey busy 13)).2 _ waiting).2

end

end Reveille.Runner
