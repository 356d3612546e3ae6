import Reveille.Proofs.Poll.Care

/-!
# What every run keeps up

`Upkeep` adds to the care for the polls that everybody takes the stages to the queue in order, that
everybody but the call that starts the scheduler is mannerly, and that this call starts the runners of
the three duties one after another.  Every step keeps it (`Upkeep.step`).
-/

namespace Reveille.Poll

open Program Reveille.System

variable {Sink : Type} {X : Signature} {σ : Type} {W : World Sink X σ}
  {s s' : System (place Sink X σ)} {a b : Actor} {i : Nat} {starter : Option Nat}

def duties : List Duty := [.start, .advance, .close]

/-- The call that starts the scheduler, if any, goes on to start its runners, or is over. -/
def Starting (W : World Sink X σ) (s : System (place Sink X σ)) : Option Nat → Prop
  | none => s.staff = []
  | some k =>
    (∃ r, s.calls[k]? = some (.running r) ∧
      r.Safe (hiring W.cast (.call k)) (fun _ s' => s'.staff = duties.map ready) s) ∨
    (∃ result, s.calls[k]? = some (.ended result)) ∧ s.staff = duties.map ready

structure Upkeep (W : World Sink X σ) (starter : Option Nat) (s : System (place Sink X σ)) : Prop
    extends Cared s where
  traffic : Traffic s
  starting : Starting W s starter
  mannerly : ∀ a, (∀ k, starter = some k → a ≠ .call k) → ∀ r, s.residual a = some r →
    ∃ st, Mannerly (duty? s a) st r

theorem gentle : Gentle W.cast := by
  intro q x answer x' h
  cases q with
  | inl q =>
    cases h
    exact ⟨_, rfl⟩
  | inr q =>
    obtain ⟨⟨reply, y⟩, -, hanswer⟩ := Option.map_eq_some_iff.mp h
    cases hanswer
    exact ⟨reply, rfl⟩

namespace Upkeep

theorem fresh (h : Upkeep W starter s) (courteous : W.Courteous) {r : Routine (place Sink X σ) Unit}
    (hr : Fresh W.cast s a r) : Mannerly (duty? s a) .away r := by
  cases a with
  | worker =>
    obtain ⟨-, r', hsrc, rfl⟩ := hr
    exact (mannerly_worker courteous hsrc).forget
  | runner i =>
    obtain ⟨t, r', ht, -, hsrc, rfl⟩ := hr
    rw [duty?_runner, ht]
    exact (mannerly_runner hsrc (h.steady i t ht).runs.asks).forget
  | call i => exact False.elim hr

theorem doing (h : Upkeep W starter s) (courteous : W.Courteous)
    (ha : ∀ k, starter = some k → a ≠ .call k) {r : Routine (place Sink X σ) Unit}
    (hr : Doing W.cast s a r) : ∃ st, Mannerly (duty? s a) st r := by
  rcases hr with hr | ⟨-, hr⟩
  · exact h.mannerly a ha r hr
  · exact ⟨.away, h.fresh courteous hr⟩

theorem calm (h : Upkeep W starter s) (courteous : W.Courteous) {q : System.Request (place Sink X σ)}
    {rest : q.Reply → Routine (place Sink X σ) Unit} (hr : Doing W.cast s a (.ask q rest)) :
    q.Calm := h.traffic.calm (fun _ hf => (h.fresh courteous hf).orderly) hr

theorem runnerStep (h : Upkeep W starter s) (courteous : W.Courteous)
    (hs : s.step W.cast (.runner i) = some s') :
    ∃ t, s.runners[i]? = some t ∧ t.mayRun = true ∧ RunnerStep W.cast s i t s' := by
  refine runnerStep_of_step gentle h.isOpen ?_ hs
  intro t ht q rest hin
  exact h.calm courteous (doing_of_runnerIn ht hin)

theorem callStep (h : Upkeep W starter s) (courteous : W.Courteous)
    (hs : s.step W.cast (.call i) = some s') : CallStep W.cast s i s' := by
  refine callStep_of_step gentle h.isOpen ?_ hs
  intro q rest hcall
  have doing : Doing W.cast s (.call i) (.ask q fun reply => (rest reply).forget) := by
    left
    simp only [System.residual, hcall]
    rfl
  exact h.calm courteous doing

theorem moves (h : Upkeep W starter s) (courteous : W.Courteous) (hs : s.step W.cast a = some s') :
    Moves W.cast s a s' := by
  have others (hp : Progress W.cast s a s') (ha : a ≠ .worker) : Moves W.cast s a s' := by
    refine ⟨hp, fun hw => absurd hw ha, ?_⟩
    rw [(hp.away ha).1]
    exact h.serving.alive
  cases a with
  | worker =>
    have hw : WorkerStep W.cast s s' := by
      refine workerStep_of_step gentle h.isOpen ?_ hs
      intro q rest hin
      exact h.calm courteous (doing_of_workerIn hin)
    have alive := (h.serving.step hw).alive
    exact ⟨progress_of_workerStep hw alive, fun _ => hw, alive⟩
  | runner i =>
    obtain ⟨t, ht, -, hr⟩ := h.runnerStep courteous hs
    exact others (progress_of_runnerStep ht hr) nofun
  | call i => exact others (progress_of_callStep (h.callStep courteous hs)) nofun

end Upkeep

/-- Whoever is in a routine has the same duty after a step of somebody else. -/
theorem duty?_of_residual (hp : Progress W.cast s a s') (hb : b ≠ a)
    {r : Routine (place Sink X σ) Unit} (hr : s.residual b = some r) : duty? s' b = duty? s b := by
  cases b with
  | worker => rfl
  | call j => rfl
  | runner j =>
    obtain ⟨t, ht, -⟩ := Option.bind_eq_some_iff.mp hr
    obtain ⟨t', ht', hn⟩ := hp.runner hb.symm ht
    rw [duty?_runner, duty?_runner, ht, ht']
    exact congrArg some hn.service

theorem duty?_of_staff (h : s'.staff = s.staff) : duty? s' a = duty? s a := by
  cases a with
  | worker => rfl
  | call j => rfl
  | runner j =>
    have hservice (s : System (place Sink X σ)) : duty? s (.runner j) = s.staff[j]?.map Badge.service := by
      rw [duty?_runner, staff, List.getElem?_map, Option.map_map]
      rfl
    rw [hservice, hservice, h]

namespace Upkeep

theorem step_of_mannerly (h : Upkeep W starter s) (courteous : W.Courteous)
    (ha : ∀ k, starter = some k → a ≠ .call k) (hs : s.step W.cast a = some s') :
    Upkeep W starter s' := by
  have hm := h.moves courteous hs
  have hstaff : s'.staff = s.staff := by
    refine hm.progress.staff fun q rest doing => ?_
    obtain ⟨st, -, may, -⟩ := h.doing courteous ha doing
    exact may.plain
  have htidy := tidy_of_mannerly h.toCared hm.progress fun r hr => h.doing courteous ha hr
  refine ⟨h.toCared.step hm ?_ htidy,
    h.traffic.progress (fun r hr => (h.fresh courteous hr).orderly) hm.progress, ?_, ?_⟩
  · rintro i rfl
    exact h.runnerStep courteous hs
  · have hstarting := h.starting
    cases starter with
    | none => exact hstaff.trans hstarting
    | some k =>
      have hcalls := hm.progress.calls (ha k rfl)
      rcases hstarting with ⟨r, hr, hsafe⟩ | ⟨⟨result, hover⟩, hready⟩
      · refine Or.inl ⟨r, hcalls.trans hr, hsafe.later ⟨hstaff, fun service i hi he => ?_⟩⟩
        rw [staff, List.length_map] at hi
        exact hm.enrolled hi he
      · exact Or.inr ⟨⟨result, hcalls.trans hover⟩, hstaff.trans hready⟩
  · intro b hb r hr
    by_cases hba : b = a
    · subst hba
      rw [duty?_of_staff hstaff]
      cases hm.progress with
      | asked doing answered aside residual =>
        obtain ⟨st, -, -, hrest⟩ := h.doing courteous ha doing
        obtain rfl := Option.some.inj (residual.symm.trans hr)
        exact ⟨_, (hrest _ answered.granted).2⟩
      | ended _ _ residual =>
        rw [residual] at hr
        cases hr
      | received _ _ _ _ residual =>
        rw [residual] at hr
        cases hr
    · rw [hm.progress.others hba] at hr
      rw [duty?_of_residual hm.progress hba hr]
      exact h.mannerly b hb r hr

theorem step_of_starter {k : Nat} (h : Upkeep W (some k) s) (courteous : W.Courteous)
    (hs : s.step W.cast (.call k) = some s') : Upkeep W (some k) s' := by
  have hm := h.moves courteous hs
  have htraffic : Traffic s' :=
    h.traffic.progress (fun r hr => (h.fresh courteous hr).orderly) hm.progress
  have hmannerly : ∀ b, (∀ j, some k = some j → b ≠ .call j) → ∀ r, s'.residual b = some r →
      ∃ st, Mannerly (duty? s' b) st r := by
    intro b hb r hr
    rw [hm.progress.others (hb k rfl)] at hr
    rw [duty?_of_residual hm.progress (hb k rfl) hr]
    exact h.mannerly b hb r hr
  have hself : ∀ i, Actor.call k = .runner i → ∃ t, s.runners[i]? = some t ∧ t.mayRun = true ∧
      RunnerStep W.cast s i t s' := by
    intro i hi
    cases hi
  rcases h.starting with ⟨r, hr, hsafe⟩ | ⟨⟨result, hover⟩, -⟩
  · cases h.callStep courteous hs with
    | @asked q rest reply s₁ routine answered aside task =>
      obtain rfl := CallTask.running.inj (Option.some.inj (hr.symm.trans routine))
      have doing : Doing W.cast s (.call k) (.ask q fun reply => (rest reply).forget) := by
        left
        simp only [System.residual, routine]
        rfl
      obtain ⟨guar, hrest⟩ := Safe.step hsafe trivial answered
      have htidy := tidy_of_hiring h.toCared (h.calm courteous doing) answered guar aside
      refine ⟨h.toCared.step hm hself htidy, htraffic, Or.inl ⟨rest reply, task, ?_⟩, hmannerly⟩
      refine hrest.later ⟨aside.staff, fun service i _ he => ?_⟩
      unfold Enrolled Kept at he ⊢
      rw [aside.worker (fun ha => by cases ha), aside.channel]
      exact he
    | @returned result routine aside task =>
      obtain rfl := CallTask.running.inj (Option.some.inj (hr.symm.trans routine))
      have htidy := tidy_of_aside h.toCared aside
      have hready := safe_done.mp hsafe s ((hiring W.cast (.call k)).refl s) trivial
      refine ⟨h.toCared.step hm hself htidy, htraffic, Or.inr ⟨⟨_, task⟩, ?_⟩, hmannerly⟩
      exact aside.staff.trans hready
  · cases h.callStep courteous hs with
    | asked routine _ _ _ =>
      rw [hover] at routine
      cases routine
    | returned routine _ _ =>
      rw [hover] at routine
      cases routine

theorem step (h : Upkeep W starter s) (courteous : W.Courteous) (hs : s.step W.cast a = some s') :
    Upkeep W starter s' := by
  by_cases ha : ∃ k, starter = some k ∧ a = .call k
  · obtain ⟨k, rfl, rfl⟩ := ha
    exact h.step_of_starter courteous hs
  · refine h.step_of_mannerly courteous (fun k hk hak => ha ⟨k, hk, hak⟩) hs

end Upkeep

end Reveille.Poll
