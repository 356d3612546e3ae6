import Mathlib.Data.List.Induction
import Reveille.Proofs.Jitter
import Reveille.Proofs.Runner.Prompt

/-!
# A runner does not spin

The `occasions` of a run are what kept the runner busy: its passes, each at the reading of the clock that
began it, and the events that it handled, each at the last reading before it.

An entity that stays due, fails, or names times that are long past must not make the runner begin one pass
after another.  At the end of a wake pass nothing that was due at its time is left in the alarm, and the
rescan is at least one millisecond after a reading that is not earlier (`Calm`).  So the next wake pass has
a later time, unless an event comes first (`Spaced`), and the wake passes with one and the same time are at
most one more than the events at that reading (`Clocked.never_spins`).
-/

namespace Reveille.Runner

inductive Occasion where
  | pass (pass : Pass) (time : Instant)
  | event (time : Instant)
  deriving DecidableEq

namespace Occasion

def time : Occasion → Instant
  | .pass _ t => t
  | .event t => t

def isEvent : Occasion → Bool
  | .pass _ _ => false
  | .event _ => true

end Occasion

/-- The occasions of a run so far, and the last reading of the clock. -/
structure Diary where
  occasions : List Occasion := []
  reading : Instant := .epoch

variable {E Id F : Type}

/-- Notes a reply.  The first occasion is the seeding pass. -/
def Diary.note (d : Diary) : Exchange (requests E Id F) → Diary
  | ⟨.readClock, (now : Instant)⟩ => { d with reading := now }
  | ⟨.checkAll, _⟩ =>
    let pass := if d.occasions.isEmpty then Pass.seed else .wake
    { d with occasions := d.occasions ++ [.pass pass d.reading] }
  | ⟨.receiveEvent _, _⟩ => { d with occasions := d.occasions ++ [.event d.reading] }
  | _ => d

def diary (τ : List (Exchange (requests E Id F))) : Diary := τ.foldl Diary.note {}

def occasions (τ : List (Exchange (requests E Id F))) : List Occasion := (diary τ).occasions

/-! ### Wake passes that are apart -/

variable {l : List Occasion} {o : Occasion} {t u : Instant}

/-- There was a wake pass at a time, and no event after it. -/
def Recent (l : List Occasion) (t : Instant) : Prop :=
  ∃ before after, l = before ++ .pass .wake t :: after ∧ ∀ o ∈ after, o.isEvent = false

theorem not_recent_nil : ¬ Recent [] t := by
  rintro ⟨before, after, h, -⟩
  exact absurd h.symm (List.append_ne_nil_of_right_ne_nil _ (List.cons_ne_nil _ _))

/-- Only the last occasion can be new, and none is recent after an event. -/
theorem Recent.of_concat (h : Recent (l ++ [o]) t) :
    o = .pass .wake t ∨ o.isEvent = false ∧ Recent l t := by
  obtain ⟨before, after, hl, hafter⟩ := h
  rcases List.eq_nil_or_concat after with rfl | ⟨after, last, rfl⟩
  · exact Or.inl (List.append_inj_right' hl rfl |> List.singleton_inj.mp)
  · rw [List.concat_eq_append] at hl hafter
    rw [← List.cons_append, ← List.append_assoc] at hl
    obtain ⟨rfl, hlast⟩ := List.append_inj' hl rfl
    obtain rfl : o = last := List.singleton_inj.mp hlast
    exact Or.inr ⟨hafter o (List.mem_append_right _ List.mem_cons_self), before, after, rfl,
      fun o ho => hafter o (List.mem_append_left _ ho)⟩

theorem recent_concat_wake : Recent (l ++ [.pass .wake t]) t :=
  ⟨l, [], rfl, List.forall_mem_nil _⟩

theorem Recent.concat_pass {pass : Pass} (h : Recent l t) : Recent (l ++ [.pass pass u]) t := by
  obtain ⟨before, after, rfl, hafter⟩ := h
  refine ⟨before, after ++ [.pass pass u], List.append_assoc _ _ _, fun o ho => ?_⟩
  rcases List.mem_append.mp ho with ho | ho
  · exact hafter o ho
  · rw [List.mem_singleton.mp ho]
    rfl

/-- The times never go back, and every wake pass is later than those before it since the last event. -/
inductive Spaced : List Occasion → Prop
  | nil : Spaced []
  | concat {l : List Occasion} {o : Occasion} (before : Spaced l)
      (ordered : ∀ earlier ∈ l, earlier.time ≤ o.time)
      (apart : ∀ u, o = .pass .wake u → ∀ t, Recent l t → t < u) : Spaced (l ++ [o])

theorem Spaced.of_concat (h : Spaced (l ++ [o])) :
    Spaced l ∧ (∀ earlier ∈ l, earlier.time ≤ o.time) ∧
      ∀ u, o = .pass .wake u → ∀ t, Recent l t → t < u := by
  generalize hl : l ++ [o] = whole at h
  cases h with
  | nil => exact absurd hl (List.append_ne_nil_of_right_ne_nil _ (List.cons_ne_nil _ _))
  | concat before ordered apart =>
    obtain ⟨rfl, hlast⟩ := List.append_inj' hl rfl
    obtain rfl := List.singleton_inj.mp hlast
    exact ⟨before, ordered, apart⟩

/-- Of two wake passes with no event between them the second has the later time. -/
theorem Spaced.lt (h : Spaced l) {before between after : List Occasion}
    (hl : l = before ++ .pass .wake t :: (between ++ .pass .wake u :: after))
    (quiet : ∀ o ∈ between, o.isEvent = false) : t < u := by
  induction after using List.reverseRecOn generalizing l with
  | nil =>
    obtain rfl : l = (before ++ .pass .wake t :: between) ++ [.pass .wake u] := by
      rw [hl, List.append_assoc, List.cons_append]
    exact h.of_concat.2.2 u rfl t ⟨before, between, rfl, quiet⟩
  | append_singleton after o ih =>
    obtain rfl : l = (before ++ .pass .wake t :: (between ++ .pass .wake u :: after)) ++ [o] := by
      rw [hl, List.append_assoc, List.cons_append, List.append_assoc, List.cons_append]
    exact ih h.of_concat.1 rfl

/-- The wake passes at a time are at most one more than the events at that time, and no more than these
when there can be another one. -/
theorem Spaced.count_le (h : Spaced l) (t : Instant) :
    l.count (.pass .wake t) ≤ l.count (.event t) + 1 ∧
      ((∀ o ∈ l, o.time ≤ t) → ¬ Recent l t → l.count (.pass .wake t) ≤ l.count (.event t)) := by
  induction h with
  | nil => exact ⟨Nat.zero_le _, fun _ _ => Nat.le_refl _⟩
  | @concat l o before ordered apart ih =>
    obtain ⟨hle, hroom⟩ := ih
    rw [List.count_append, List.count_append]
    have early (hall : ∀ o' ∈ l ++ [o], o'.time ≤ t) : ∀ o' ∈ l, o'.time ≤ t :=
      fun o' ho' => hall o' (List.mem_append_left _ ho')
    cases o with
    | event u =>
      have hnone : [Occasion.event u].count (.pass .wake t) = 0 := by simp
      rw [hnone]
      refine ⟨by omega, fun hall _ => ?_⟩
      have hu : u ≤ t := hall _ (List.mem_append_right _ List.mem_cons_self)
      rcases eq_or_lt_of_le hu with rfl | hlt
      · rwa [List.count_singleton_self]
      · -- all that has happened was before `t`
        have hzero : l.count (.pass .wake t) = 0 := by
          refine List.count_eq_zero.mpr fun hmem => ?_
          exact absurd (ordered _ hmem) (not_le.mpr hlt)
        omega
    | pass pass u =>
      have hevents : [Occasion.pass pass u].count (.event t) = 0 := by simp
      rw [hevents]
      by_cases hnew : Occasion.pass pass u = .pass .wake t
      · cases hnew
        have hroom := hroom ordered fun hrecent => lt_irrefl t (apart t rfl t hrecent)
        rw [List.count_singleton_self]
        exact ⟨Nat.succ_le_succ hroom, fun _ hnot => absurd recent_concat_wake hnot⟩
      · have hnone : [Occasion.pass pass u].count (.pass .wake t) = 0 := by simp [hnew]
        rw [hnone]
        refine ⟨hle, fun hall hnot => hroom (early hall) fun hrecent => ?_⟩
        exact hnot hrecent.concat_pass

/-! ### The times of a runner -/

/-- The last occasion is a pass at some time, and a seeding pass is the only one. -/
def InPass (l : List Occasion) (pass : Pass) (time : Instant) : Prop :=
  ∃ before, l = before ++ [.pass pass time] ∧ (pass = .seed → before = [])

/-- The last occasion is a wake pass, and something is due only after its time. -/
def Ahead (l : List Occasion) (due : DueTime) : Prop :=
  ∃ t, InPass l .wake t ∧ .moment t < due

theorem InPass.mem {pass : Pass} (h : InPass l pass t) : .pass pass t ∈ l := by
  obtain ⟨before, rfl, -⟩ := h
  exact List.mem_append_right _ List.mem_cons_self

theorem InPass.ne_nil {pass : Pass} (h : InPass l pass t) : l ≠ [] := List.ne_nil_of_mem h.mem

/-- In a pass that keeps its time, only wake passes that are no later are recent. -/
theorem InPass.le_of_recent {pass : Pass} (h : InPass l pass t) (spaced : Spaced l)
    (recent : Recent l u) : pass = .wake ∧ u ≤ t := by
  obtain ⟨before, rfl, hseed⟩ := h
  rcases recent.of_concat with hnew | ⟨-, hold⟩
  · cases hnew
    exact ⟨rfl, le_rfl⟩
  · cases pass with
    | seed => exact absurd (hseed rfl ▸ hold) not_recent_nil
    | wake => exact ⟨rfl, (spaced.of_concat.2.2 t rfl u hold).le⟩

/-- What is still to come at a phase is later than the wake passes since the last event. -/
def Phase.Calm (d : Diary) (alarm rescanAt : DueTime) : Phase E Id F → Prop
  | .seeding => d.occasions = []
  | .scanning pass now => d.reading = now ∧ (pass = .seed ↔ d.occasions = []) ∧
      (pass = .wake → ∀ t, Recent d.occasions t → t < now)
  | .collecting pass now scan _ => InPass d.occasions pass now ∧
      (pass = .wake → .moment now < scan.next.due)
  | .processing _ _ next | .rechecking _ _ next | .judging _ _ _ next => Ahead d.occasions next.due
  | .ending => Ahead d.occasions alarm
  | .arming pass now => ∃ t, InPass d.occasions pass t ∧ t ≤ now ∧ (pass = .wake → .moment t < alarm)
  | .checking _ _ => ∃ before t, d.occasions = before ++ [.event t]
  | _ => d.occasions ≠ [] ∧
      ∀ t, Recent d.occasions t → .moment t < alarm ∧ .moment t < rescanAt

structure Calm (d : Diary) (r : Runner E Id F) (time : Instant) : Prop where
  spaced : Spaced d.occasions
  noted : ∀ o ∈ d.occasions, o.time ≤ d.reading
  reading : r.phase ≠ .seeding → d.reading ≤ time
  phase : r.phase.Calm d r.alarm.due r.rescanAt

def endsPass (x : Exchange (requests E Id F)) : Bool :=
  match x.request with
  | .checkInterval => true
  | _ => false

variable {d : Diary} {r : Runner E Id F} {now time later : Instant} {jitter : Jitter}
  {τ : List (Exchange (requests E Id F))}

theorem lt_of_not_isDue {due : DueTime} (h : ¬ due.isDue now = true) : .moment now < due := by
  rwa [DueTime.isDue_iff_le, not_le] at h

theorem not_recent_event : ¬ Recent (l ++ [.event u]) t := by
  intro h
  rcases h.of_concat with h | h
  · cases h
  · cases h.1

/-- What a processed entity leaves behind is offered to the alarm only if it is not due at a reading after
the time of the pass. -/
theorem Ahead.offer {a : Alarm Id} {due : DueTime} {id : Id} (h : Ahead d.occasions a.due)
    (noted : ∀ o ∈ d.occasions, o.time ≤ now) (hdue : ¬ due.isDue now = true) :
    Ahead d.occasions (a.offer due (some id)).due := by
  obtain ⟨t, hpass, hlt⟩ := h
  refine ⟨t, hpass, ?_⟩
  have ht : t ≤ now := noted _ hpass.mem
  rw [Alarm.offer_due, lt_min_iff]
  exact ⟨(DueTime.moment_le_moment.mpr ht).trans_lt (lt_of_not_isDue hdue), hlt⟩

theorem calm_process {next : Alarm Id} {rest : List Id} (h : Ahead d.occasions next.due) :
    (r.process next rest).1.phase.Calm d (r.process next rest).1.alarm.due
      (r.process next rest).1.rescanAt := by
  cases rest with
  | nil => exact h
  | cons id rest => exact h

theorem calm_check {rest : List Id} (h : ∃ before t, d.occasions = before ++ [.event t]) :
    (r.check rest).1.phase.Calm d (r.check rest).1.alarm.due (r.check rest).1.rescanAt := by
  cases rest with
  | nil =>
    obtain ⟨before, t, hl⟩ := h
    refine ⟨hl ▸ List.append_ne_nil_of_right_ne_nil _ (List.cons_ne_nil _ _), fun u hu => ?_⟩
    rw [hl] at hu
    exact absurd hu not_recent_event
  | cons id rest => exact h

theorem note_checkAll {f : F} {pass : Pass} (first : pass = .seed ↔ d.occasions = []) :
    d.note (⟨.checkAll, f⟩ : Exchange (requests E Id F)) =
      { d with occasions := d.occasions ++ [.pass pass d.reading] } := by
  have hpass : (if d.occasions.isEmpty then Pass.seed else .wake) = pass := by
    cases pass with
    | seed => rw [first.mp rfl]; rfl
    | wake =>
      refine if_neg fun hnil => ?_
      cases first.mpr (List.isEmpty_iff.mp hnil)
  rw [← hpass]
  rfl

theorem Calm.read (h : Calm d r time) {r' : Runner E Id F}
    (noted : d.occasions = [] ∨ d.reading ≤ time)
    (phase : r'.phase.Calm { d with reading := time } r'.alarm.due r'.rescanAt) :
    Calm { d with reading := time } r' time := by
  refine ⟨h.spaced, fun o ho => ?_, fun _ => le_rfl, phase⟩
  rcases noted with hnil | hle
  · rw [hnil] at ho
    cases ho
  · exact (h.noted o ho).trans hle

theorem Calm.concat (h : Calm d r time) {o : Occasion} {r' : Runner E Id F} (ho : o.time = d.reading)
    (hle : d.reading ≤ time) (apart : ∀ u, o = .pass .wake u → ∀ t, Recent d.occasions t → t < u)
    (phase : r'.phase.Calm { d with occasions := d.occasions ++ [o] } r'.alarm.due r'.rescanAt) :
    Calm { d with occasions := d.occasions ++ [o] } r' time := by
  refine ⟨h.spaced.concat (fun earlier hmem => ho ▸ h.noted earlier hmem) apart, fun x hx => ?_,
    fun _ => hle, phase⟩
  rcases List.mem_append.mp hx with hx | hx
  · exact h.noted x hx
  · rw [List.mem_singleton.mp hx, ho]

section
variable [DecidableEq Id]

theorem Calm.step (h : Calm d r time) (reply : r.request.Reply)
    (reads : ReadsAt time ⟨r.request, reply⟩) :
    Calm (d.note ⟨r.request, reply⟩) (r.resume reply).1 time := by
  have keep {r' : Runner E Id F} (hr : r.phase ≠ .seeding)
      (phase : r'.phase.Calm d r'.alarm.due r'.rescanAt) : Calm d r' time :=
    ⟨h.spaced, h.noted, fun _ => h.reading hr, phase⟩
  have read {r' : Runner E Id F} (hr : r.phase ≠ .seeding)
      (phase : r'.phase.Calm { d with reading := time } r'.alarm.due r'.rescanAt) :
      Calm { d with reading := time } r' time := h.read (Or.inr (h.reading hr)) phase
  have noted (hr : r.phase ≠ .seeding) : ∀ o ∈ d.occasions, o.time ≤ time :=
    fun o ho => (h.noted o ho).trans (h.reading hr)
  have hphase := h.phase
  have turned := turned_resume r reply
  generalize r.resume reply = turn at turned ⊢
  cases turned with
  | seeding r now =>
    obtain rfl : now = time := reads
    exact h.read (Or.inl hphase) ⟨rfl, ⟨fun _ => hphase, fun _ => rfl⟩, nofun⟩
  | scanning r pass now stream =>
    obtain ⟨rfl, hfirst, hrecent⟩ := hphase
    have hnote : d.note (⟨.checkAll, stream⟩ : Exchange (requests E Id F)) = _ := note_checkAll hfirst
    show Calm (d.note ⟨.checkAll, stream⟩) _ _
    rw [hnote]
    refine h.concat rfl (h.reading nofun) (fun u hu => ?_)
      ⟨⟨d.occasions, rfl, hfirst.mp⟩, fun _ => DueTime.moment_lt_never⟩
    cases hu
    exact hrecent rfl
  | collected r pass now =>
    obtain ⟨hlast, hnext⟩ := hphase
    refine keep nofun ?_
    cases pass with
    | seed => exact ⟨now, hlast, le_rfl, nofun⟩
    | wake => exact calm_process ⟨now, hlast, hnext rfl⟩
  | item r pass now scan stream item =>
    obtain ⟨hlast, hnext⟩ := hphase
    refine keep nofun ⟨hlast, fun hpass => ?_⟩
    show .moment now < (scan.add now item).next.due
    unfold Scan.add
    split
    · exact hnext hpass
    · next hdue =>
      rw [Alarm.offer_due, lt_min_iff]
      exact ⟨lt_of_not_isDue hdue, hnext hpass⟩
  | arming =>
    obtain ⟨t, hlast, hle, halarm⟩ := hphase
    refine keep nofun ⟨hlast.ne_nil, fun u hu => ?_⟩
    obtain ⟨rfl, hut⟩ := hlast.le_of_recent h.spaced hu
    exact ⟨(DueTime.moment_le_moment.mpr hut).trans_lt (halarm rfl), lt_rescanAt (hut.trans hle)⟩
  | late r now | early r now | earlyWake r now =>
    obtain rfl : now = time := reads
    exact read nofun hphase
  | wakes r now due =>
    obtain rfl : now = time := reads
    obtain ⟨hsome, hlater⟩ := hphase
    refine read nofun ⟨rfl, ⟨nofun, fun hnil => absurd hnil hsome⟩, fun _ t ht => ?_⟩
    have hwake := DueTime.isDue_iff_le.mp (isDue_wakeDue.mpr due)
    exact DueTime.moment_lt_moment.mp ((lt_min_iff.mpr (hlater t ht)).trans_le hwake)
  | receiving =>
    show Calm { d with occasions := d.occasions ++ [.event d.reading] } (check _ _).1 time
    refine h.concat rfl (h.reading nofun) (fun u hu => ?_) (calm_check ⟨_, _, rfl⟩)
    cases hu
  | checked | checkFailed => exact keep nofun (calm_check hphase)
  | processFailed | recheckFailed => exact keep nofun (calm_process hphase)
  | stillDue r id due rest next now =>
    obtain rfl : now = time := reads
    exact read nofun (calm_process hphase)
  | dueLater r id due rest next now notDue =>
    obtain rfl : now = time := reads
    exact read nofun (calm_process (hphase.offer (noted nofun) (Bool.eq_false_iff.mp notDue)))
  | ending r now =>
    obtain rfl : now = time := reads
    obtain ⟨t, hlast, hlt⟩ := hphase
    exact read nofun ⟨t, hlast, noted nofun _ hlast.mem, fun _ => hlt⟩
  | _ => exact keep nofun hphase

theorem Clocked.calm (h : Clocked (.init jitter) now τ r time) : Calm (diary τ) r time := by
  induction h with
  | refl => exact ⟨.nil, List.forall_mem_nil _, nofun, rfl⟩
  | elapse before hle ih => exact ⟨ih.spaced, ih.noted, fun hr => (ih.reading hr).trans hle, ih.phase⟩
  | step before reply reads ih =>
    rw [diary, List.foldl_append]
    exact ih.step reply reads

/-- The last occasion of a run that has just set the next rescan is the pass that this ends. -/
theorem Calm.ended (h : Calm d r time) {reply : r.request.Reply}
    (ends : endsPass (⟨r.request, reply⟩ : Exchange (requests E Id F)) = true) :
    ∃ before pass t, (d.note ⟨r.request, reply⟩).occasions = before ++ [.pass pass t] ∧
      (pass = .wake → .moment t < (r.resume reply).1.alarm.due ∧
        .moment t < (r.resume reply).1.rescanAt) := by
  have hphase := h.phase
  obtain ⟨jitter, alarm, rescanAt, shown, inboxOpen, phase⟩ := r
  cases phase with
  | arming pass now =>
    obtain ⟨t, ⟨before, hlast, -⟩, hle, halarm⟩ := hphase
    obtain ⟨interval, draw⟩ := reply
    exact ⟨before, pass, t, hlast, fun hpass => ⟨halarm hpass, lt_rescanAt hle⟩⟩
  | _ => cases ends

/-- Whatever the service replies, and however long anything takes by a clock that never goes back, a wake
pass ends with an alarm and a rescan that are later than its own time.  Of two wake passes with no event
between them the second has the later time, and the wake passes with the same time are at most one more
than the events that were handled at that reading of the clock. -/
theorem Clocked.never_spins (h : Clocked (.init jitter) now τ r time) :
    (τ.getLast?.any endsPass = true → ∃ before pass t, occasions τ = before ++ [.pass pass t] ∧
      (pass = .wake → .moment t < r.alarm.due ∧ .moment t < r.rescanAt)) ∧
    (∀ before t between u after,
      occasions τ = before ++ .pass .wake t :: (between ++ .pass .wake u :: after) →
      (∀ o ∈ between, o.isEvent = false) → t < u) ∧
    ∀ t, (occasions τ).count (.pass .wake t) ≤ (occasions τ).count (.event t) + 1 := by
  refine ⟨fun ends => ?_, fun before t between u after hl quiet => ?_, fun t => ?_⟩
  · induction h with
    | refl => cases ends
    | elapse before hle ih => exact ih ends
    | step before reply reads ih =>
      rw [List.getLast?_concat] at ends
      rw [occasions, diary, List.foldl_append]
      exact before.calm.ended ends
  · exact h.calm.spaced.lt hl quiet
  · exact (h.calm.spaced.count_le t).1

/-! ### An entity that stays due -/

/-- It is tick 4, and there is an entity that is due at tick 4 whatever is done about it.  There is one
event after another about it, and no interval between rescans. -/
def stuck : (q : Request Unit Nat Nat) → Option q.Reply
  | .readClock => some (tick 4)
  | .isStopRequested => some false
  | .checkAll => some 0
  | .nextItem 0 => some (some (.ok (1, .moment (tick 4)), 1))
  | .nextItem _ => some none
  | .checkOne _ => some (.ok (.moment (tick 4)))
  | .processOne _ => some (.ok .nothingToDoYet)
  | .checkInterval => some (.zero, 0)
  | .wait _ _ => some (.event ())
  | .receiveEvent _ => some [1]
  | .finished => none

theorem readsAt_stuck (q : Request Unit Nat Nat) (reply : q.Reply) (h : stuck q = some reply) :
    ReadsAt (tick 4) ⟨q, reply⟩ := by
  cases q with
  | readClock => exact (Option.some.inj h).symm
  | _ => exact trivial

def weary : Runner Unit Nat Nat := (obey stuck 32 (.init .none)).2

/-- Every event is followed by one wake pass, and no wake pass by another. -/
theorem never_spins_stuck :
    occasions (obey stuck 32 (.init .none)).1 =
      [.pass .seed (tick 4), .pass .wake (tick 4), .event (tick 4), .pass .wake (tick 4)] ∧
    .moment (tick 4) < weary.alarm.due ∧ .moment (tick 4) < weary.rescanAt ∧
    (occasions (obey stuck 32 (.init .none)).1).count (.pass .wake (tick 4)) ≤
      (occasions (obey stuck 32 (.init .none)).1).count (.event (tick 4)) + 1 := by
  have run : Clocked (.init .none) (tick 4) (obey stuck 32 (.init .none)).1 weary (tick 4) :=
    Clocked.refl.obey readsAt_stuck 32
  have noted : occasions (obey stuck 32 (.init .none)).1 =
      [.pass .seed (tick 4), .pass .wake (tick 4), .event (tick 4)] ++ [.pass .wake (tick 4)] := by
    decide +kernel
  obtain ⟨before, pass, t, hlast, hlater⟩ :=
    run.never_spins.1 (by decide +kernel)
  obtain ⟨-, hpass⟩ := List.append_inj' (noted.symm.trans hlast) rfl
  cases List.singleton_inj.mp hpass
  obtain ⟨halarm, hrescan⟩ := hlater rfl
  exact ⟨noted, halarm, hrescan, run.never_spins.2.2 (tick 4)⟩

end

end Reveille.Runner
