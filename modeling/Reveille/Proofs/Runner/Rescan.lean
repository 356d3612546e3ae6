import Reveille.Proofs.Runner.Calm

/-!
# What the rescan counts from

A seeding pass sets the rescan from its own time.  A wake pass does not: it reads the clock once more when
all that was due has been processed, and counts from that reading (`Clocked.rescan_counted`).  So the time
that a wake pass takes is added to the interval, and the rescan is later than an interval after the time of
the pass whenever the pass took longer than the jitter has taken off.
-/

namespace Reveille.Runner

variable {E Id F : Type}

/-- The readings that the rescan may count from. -/
def Phase.Timed (d : Diary) : Phase E Id F → Prop
  | .collecting _ now _ _ => d.reading = now
  | .arming pass now => d.reading = now ∧ (pass = .seed → InPass d.occasions .seed now)
  | _ => True

structure Keeps (r : Runner E Id F) (x : Exchange (requests E Id F)) (r' : Runner E Id F) : Prop where
  jitter : r'.jitter = r.jitter
  rescan : r'.rescanAt = r.rescanAt
  shown : r'.shown = r.shown ∨ r'.shown = r'.wake
  seeding : r'.phase.isSeeding = false → r.phase.isSeeding = false
  outside : r'.phase.inPass = false → r.phase.inPass = false ∧ startsPass x = false

/-- The last pass that has ended and how it set the rescan: it was a pass at the time `t`, the last reading of
the clock in it was `u`, and it ended when the interval and the draw were told. -/
structure Counted (jitter : Jitter) (τ : List (Exchange (requests E Id F))) (r : Runner E Id F)
    (pass : Pass) (t u : Instant) (interval : Duration) (draw : Nat) : Prop where
  ended : ∃ σ ρ before, τ = σ ++ ⟨.checkInterval, (interval, draw)⟩ :: ρ ∧
    occasions σ = before ++ [.pass pass t] ∧ (diary σ).reading = u ∧
    (r.phase.inPass = false → ∀ x ∈ ρ, startsPass x = false)
  onward : t ≤ u
  seeding : pass = .seed → u = t
  rescan : r.rescanAt = .after u (max (jitter.apply interval draw) leastInterval)

/-- The rescan of a runner that is between passes counts from the reading `u`, which ended the pass at the time
`t`.  It is within an interval of that time just if the pass took no longer than the jitter has taken off, or
no instant is that late. -/
structure CountsFrom (jitter : Jitter) (τ : List (Exchange (requests E Id F))) (r : Runner E Id F)
    (pass : Pass) (t u : Instant) (interval : Duration) (draw : Nat) : Prop where
  ended : ∃ σ ρ before, τ = σ ++ ⟨.checkInterval, (interval, draw)⟩ :: ρ ∧
    occasions σ = before ++ [.pass pass t] ∧ (diary σ).reading = u ∧ ∀ x ∈ ρ, startsPass x = false
  onward : t ≤ u
  rescan : r.rescanAt = .after u (max (jitter.apply interval draw) leastInterval)
  latest : r.rescanAt ≤ .after u (max interval leastInterval)
  seeding : pass = .seed → r.rescanAt ≤ .after t (max interval leastInterval)
  timely_iff : r.rescanAt ≤ .after t (max interval leastInterval) ↔
    u.nanos + (max (jitter.apply interval draw) leastInterval).nanos ≤
      t.nanos + (max interval leastInterval).nanos ∨
    Instant.last.nanos < t.nanos + (max interval leastInterval).nanos

variable {r r' : Runner E Id F} {x : Exchange (requests E Id F)} {d : Diary} {jitter : Jitter}
  {τ : List (Exchange (requests E Id F))} {now time t u : Instant} {pass : Pass}
  {interval : Duration} {draw : Nat}

theorem keeps_check {ids : List Id} (h : startsPass x = false) (seeding : r.phase.isSeeding = false)
    (outside : r.phase.inPass = false) : Keeps r x (r.check ids).1 := by
  cases ids with
  | nil => exact ⟨rfl, rfl, Or.inr rfl, fun _ => seeding, fun _ => ⟨outside, h⟩⟩
  | cons id ids => exact ⟨rfl, rfl, Or.inl rfl, fun _ => seeding, fun _ => ⟨outside, h⟩⟩

theorem Keeps.of_learn {id : Id} {due : DueTime} (h : Keeps (r.learn id due).1 x r') : Keeps r x r' :=
  ⟨h.jitter, h.rescan, h.shown, h.seeding, h.outside⟩

theorem keeps_process {next : Alarm Id} {ids : List Id} (seeding : r.phase.isSeeding = false) :
    Keeps r x (r.process next ids).1 := by
  cases ids with
  | nil => exact ⟨rfl, rfl, Or.inl rfl, fun _ => seeding, nofun⟩
  | cons id ids => exact ⟨rfl, rfl, Or.inl rfl, fun _ => seeding, nofun⟩

theorem timed_check {ids : List Id} : (r.check ids).1.phase.Timed d := by
  cases ids <;> exact trivial

theorem timed_process {next : Alarm Id} {ids : List Id} : (r.process next ids).1.phase.Timed d := by
  cases ids <;> exact trivial

section
variable [DecidableEq Id]

theorem keeps_resume (reply : r.request.Reply)
    (h : endsPass (⟨r.request, reply⟩ : Exchange (requests E Id F)) = false) :
    Keeps r ⟨r.request, reply⟩ (r.resume reply).1 := by
  have turned := turned_resume r reply
  generalize r.resume reply = turn at turned ⊢
  cases turned with
  | seeding => exact ⟨rfl, rfl, Or.inl rfl, nofun, fun _ => ⟨rfl, rfl⟩⟩
  | scanning r pass | item r pass | itemFailed r pass =>
    cases pass with
    | seed => exact ⟨rfl, rfl, Or.inl rfl, nofun, nofun⟩
    | wake => exact ⟨rfl, rfl, Or.inl rfl, fun _ => rfl, nofun⟩
  | collected r pass =>
    cases pass with
    | seed => exact ⟨rfl, rfl, Or.inl rfl, nofun, nofun⟩
    | wake => exact keeps_process rfl
  | arming => cases h
  | receiving | checkFailed => exact keeps_check rfl rfl rfl
  | checked => exact (keeps_check rfl rfl rfl : Keeps (Runner.learn _ _ _).1 _ _).of_learn
  | processFailed | recheckFailed | stillDue | dueLater => exact keeps_process rfl
  | advancedUntil | advanced | nothingToDo | rechecked | ending =>
    exact ⟨rfl, rfl, Or.inl rfl, fun _ => rfl, nofun⟩
  | _ => exact ⟨rfl, rfl, Or.inl rfl, fun _ => rfl, fun _ => ⟨rfl, rfl⟩⟩

theorem timed_resume (calm : Calm d r time) (h : r.phase.Timed d) (reply : r.request.Reply) :
    (r.resume reply).1.phase.Timed (d.note ⟨r.request, reply⟩) := by
  have hphase := calm.phase
  have turned := turned_resume r reply
  generalize r.resume reply = turn at turned ⊢
  cases turned with
  | scanning => exact hphase.1
  | collected r pass =>
    cases pass with
    | seed => exact ⟨h, fun _ => hphase.1⟩
    | wake => exact timed_process
  | item | itemFailed => exact h
  | receiving | checked | checkFailed => exact timed_check
  | processFailed | recheckFailed | stillDue | dueLater => exact timed_process
  | ending => exact ⟨rfl, nofun⟩
  | _ => exact trivial

theorem Clocked.timed (h : Clocked (.init jitter) now τ r time) : r.phase.Timed (diary τ) := by
  induction h with
  | refl => exact trivial
  | elapse before hle ih => exact ih
  | step before reply reads ih =>
    rw [diary, List.foldl_append]
    exact timed_resume before.calm ih reply

omit [DecidableEq Id] in
theorem wake_le_rescanAt : r.wake.due ≤ r.rescanAt := by
  rw [wake_due]
  exact min_le_right _ _

theorem resume_arming (reply : r.request.Reply)
    (h : endsPass (⟨r.request, reply⟩ : Exchange (requests E Id F)) = true) :
    ∃ pass now interval draw, r.phase = .arming pass now ∧
      (⟨r.request, reply⟩ : Exchange (requests E Id F)) = ⟨.checkInterval, (interval, draw)⟩ ∧
      (r.resume reply).1 = ((r.armRescan now interval draw).finishPass pass).1 := by
  obtain ⟨jitter, alarm, rescanAt, shown, inboxOpen, phase⟩ := r
  cases phase with
  | arming pass now =>
    obtain ⟨interval, draw⟩ := reply
    exact ⟨pass, now, interval, draw, rfl, rfl, rfl⟩
  | _ => cases h

/-- The jitter never changes, and no wake that is shown is later than the rescan. -/
theorem Clocked.shown_le (h : Clocked (.init jitter) now τ r time) :
    r.jitter = jitter ∧ r.shown.due ≤ r.rescanAt := by
  induction h with
  | refl => exact ⟨rfl, le_refl _⟩
  | elapse before hle ih => exact ih
  | @step τ r time before reply reads ih =>
    obtain ⟨hjitter, hshown⟩ := ih
    by_cases ends : endsPass (⟨r.request, reply⟩ : Exchange (requests E Id F)) = true
    · obtain ⟨pass, now, interval, draw, -, -, hresume⟩ := resume_arming reply ends
      rw [hresume]
      exact ⟨hjitter, wake_le_rescanAt⟩
    · have keeps := keeps_resume reply (Bool.eq_false_iff.mpr ends)
      refine ⟨keeps.jitter.trans hjitter, ?_⟩
      rcases keeps.shown with hsame | hwake
      · rw [hsame, keeps.rescan]
        exact hshown
      · rw [hwake]
        exact wake_le_rescanAt

omit [DecidableEq Id] in
theorem Counted.keep (h : Counted jitter τ r pass t u interval draw) (keeps : Keeps r x r') :
    Counted jitter (τ ++ [x]) r' pass t u interval draw := by
  obtain ⟨⟨σ, ρ, before, rfl, hpasses, hreading, hquiet⟩, honward, hseeding, hrescan⟩ := h
  refine ⟨⟨σ, ρ ++ [x], before, ?_, hpasses, hreading, ?_⟩, honward, hseeding,
    keeps.rescan.trans hrescan⟩
  · rw [List.append_assoc, List.cons_append]
  · intro outside y hy
    obtain ⟨hbefore, hx⟩ := keeps.outside outside
    rcases List.mem_append.mp hy with hy | hy
    · exact hquiet hbefore y hy
    · rwa [List.mem_singleton.mp hy]

theorem Clocked.counted (h : Clocked (.init jitter) now τ r time)
    (seeded : r.phase.isSeeding = false) :
    ∃ pass t u interval draw, Counted jitter τ r pass t u interval draw := by
  induction h with
  | refl => cases seeded
  | elapse before hle ih => exact ih seeded
  | @step τ r time before reply reads ih =>
    by_cases ends : endsPass (⟨r.request, reply⟩ : Exchange (requests E Id F)) = true
    · obtain ⟨pass, u, interval, draw, harming, hx, hresume⟩ := resume_arming reply ends
      have hcalm := before.calm.phase
      have htimed := before.timed
      rw [harming] at hcalm htimed
      obtain ⟨t, ⟨passes, hpasses, hfirst⟩, hle, -⟩ := hcalm
      obtain ⟨hreading, hseed⟩ := htimed
      refine ⟨pass, t, u, interval, draw,
        ⟨τ, [], passes, congrArg (τ ++ [·]) hx, hpasses, hreading, fun _ => List.forall_mem_nil _⟩,
        hle, ?_, ?_⟩
      · rintro rfl
        have hmem := (hseed rfl).mem
        rw [hpasses, hfirst rfl, List.nil_append, List.mem_singleton] at hmem
        cases hmem
        rfl
      · rw [hresume, ← before.shown_le.1]
        rfl
    · have keeps := keeps_resume reply (Bool.eq_false_iff.mpr ends)
      obtain ⟨pass, t, u, interval, draw, hcounted⟩ := ih (keeps.seeding seeded)
      exact ⟨pass, t, u, interval, draw, hcounted.keep keeps⟩

/-- Between passes the rescan is what the last pass has set, and the wake that is shown is no later.  Counted
from the time of the pass this is at most the interval in a seeding pass, but not in a wake pass, which may take
any time. -/
theorem Clocked.rescan_counted (h : Clocked (.init jitter) now τ r time)
    (seeded : r.phase.isSeeding = false) (outside : r.phase.inPass = false) :
    r.shown.due ≤ r.rescanAt ∧
      ∃ pass t u interval draw, CountsFrom jitter τ r pass t u interval draw := by
  obtain ⟨pass, t, u, interval, draw, hended, honward, hseeding, hrescan⟩ := h.counted seeded
  obtain ⟨σ, ρ, before, hτ, hpasses, hreading, hquiet⟩ := hended
  have hjitter : (max (jitter.apply interval draw) leastInterval).nanos ≤
      (max interval leastInterval).nanos := by
    rw [Duration.nanos_max, Duration.nanos_max]
    exact max_le_max_right _ Jitter.nanos_apply_le
  have hlatest : r.rescanAt ≤ .after u (max interval leastInterval) := by
    rw [hrescan, DueTime.after_le_after]
    omega
  refine ⟨h.shown_le.2, pass, t, u, interval, draw,
    ⟨σ, ρ, before, hτ, hpasses, hreading, hquiet outside⟩, honward, hrescan, hlatest, ?_, ?_⟩
  · intro hseed
    rwa [← hseeding hseed]
  · rw [hrescan, DueTime.after_le_after]

/-! ### A pass that takes three nanoseconds -/

/-- It is `t`.  There is an entity that is due at tick 6, and the interval is ten milliseconds. -/
def slowAt (t : Instant) : (q : Request Unit Nat Nat) → Option q.Reply
  | .readClock => some t
  | .isStopRequested => some false
  | .checkAll => some 0
  | .nextItem 0 => some (some (.ok (1, .moment (tick 6)), 1))
  | .nextItem _ => some none
  | .processOne _ => some (.ok (.advancedUntil .never))
  | .checkInterval => some (.ofMillis 10, 0)
  | .wait _ _ => some .elapsed
  | _ => none

theorem readsAt_slowAt (q : Request Unit Nat Nat) (reply : q.Reply) (h : slowAt t q = some reply) :
    ReadsAt t ⟨q, reply⟩ := by
  cases q with
  | readClock => exact (Option.some.inj h).symm
  | _ => exact trivial

def early : List (Exchange (requests Unit Nat Nat)) × Runner Unit Nat Nat :=
  obey (slowAt (tick 4)) 7 (.init .none)

/-- At tick 6 it asks for the entity to be processed. -/
def meanwhile : List (Exchange (requests Unit Nat Nat)) × Runner Unit Nat Nat :=
  obey (slowAt (tick 6)) 5 early.2

/-- That is done at tick 9. -/
def late : List (Exchange (requests Unit Nat Nat)) × Runner Unit Nat Nat :=
  obey (slowAt (tick 9)) 4 meanwhile.2

/-- The pass began at tick 6, and ten milliseconds after that the runner still sleeps. -/
theorem rescan_counted_late :
    occasions (early.1 ++ meanwhile.1 ++ late.1) = [.pass .seed (tick 4), .pass .wake (tick 6)] ∧
    late.2.shown.due = .after (tick 9) (.ofMillis 10) ∧
    ¬ late.2.rescanAt ≤ .after (tick 6) (max (.ofMillis 10) leastInterval) ∧
    late.2.shown.due ≤ late.2.rescanAt ∧
    ∃ pass t u interval draw,
      CountsFrom .none (early.1 ++ meanwhile.1 ++ late.1) late.2 pass t u interval draw := by
  have seeded : Clocked (.init .none) (tick 4) early.1 early.2 (tick 4) :=
    Clocked.refl.obey readsAt_slowAt 7
  have begun : Clocked (.init .none) (tick 4) (early.1 ++ meanwhile.1) meanwhile.2 (tick 6) :=
    (seeded.elapse (by decide +kernel)).obey readsAt_slowAt 5
  have ended : Clocked (.init .none) (tick 4) (early.1 ++ meanwhile.1 ++ late.1) late.2 (tick 9) :=
    (begun.elapse (by decide +kernel)).obey readsAt_slowAt 4
  exact ⟨by decide +kernel, by decide +kernel, by decide +kernel,
    ended.rescan_counted (by decide +kernel) (by decide +kernel)⟩

end

end Reveille.Runner
