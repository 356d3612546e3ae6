import Reveille.Proofs.Poll.Upkeep

/-!
# Systems in which nobody can go on

When nobody can go on and the worker waits for a command, then the queue is empty, no runner is in a
routine, and every runner that may run waits, with an empty inbox and before its time
(`Upkeep.idle`, `Upkeep.waiting`).  So all runners are at rest (`Upkeep.resting`), and while they are,
time passes without harm (`Upkeep.pass`).
-/

namespace Reveille.Poll

open Program Reveille.System

variable {Sink : Type} {X : Signature} {σ : Type} {W : World Sink X σ}
  {s : System (place Sink X σ)} {a : Actor} {i nanos : Nat} {id : Id} {t : RunnerTask (place Sink X σ)}
  {starter : Option Nat}

/-- A worker that waits in vain has an empty queue. -/
theorem empty_of_receptive (receptive : World.Receptive s) (h : s.step W.cast .worker = none) :
    s.channel.queue = [] :=
  (Bus.Channel.take_eq_nothingYet.mp (take_of_blocked receptive.1 receptive.2 h)).1

/-- Requests that are answered at once whatever becomes of the bus, up to waiting for a slot. -/
def Brief : System.Request (place Sink X σ) → Prop
  | .readTime _ | .draw | .log _ | .enter | .requestSlot | .awaitSlot | .commit _ | .call (.inl _) => True
  | _ => False

theorem Brief.answered {c : Cast (place Sink X σ)} {q : System.Request (place Sink X σ)} (h : Brief q)
    (answers : ∀ q x, c.answer (.inl q) x ≠ none) (hw : q ≠ .awaitSlot) : s.perform c a q ≠ none := by
  cases q with
  | awaitSlot => exact absurd rfl hw
  | enter =>
    simp only [perform]
    split <;> exact Option.some_ne_none _
  | call q =>
    cases q with
    | inl q => exact mt Option.map_eq_none_iff.mp (answers q s.state)
    | inr q => exact False.elim h
  | readTime source => exact Option.some_ne_none _
  | draw => exact Option.some_ne_none _
  | log line => exact Option.some_ne_none _
  | requestSlot => exact Option.some_ne_none _
  | commit item => exact Option.some_ne_none _
  | _ => exact False.elim h

theorem Prompt.brief {q : System.Request (place Sink X σ)} (h : Prompt q) : Brief q := by
  cases q with
  | call q => cases q <;> first | exact trivial | exact False.elim h
  | _ => exact h

theorem Prompt.answered {q : System.Request (place Sink X σ)} (h : Prompt q) (hw : q ≠ .awaitSlot) :
    s.perform W.cast a q ≠ none :=
  h.brief.answered (fun _ _ => Option.some_ne_none _) hw

namespace Upkeep

theorem mayRun_of_pending (h : Upkeep W starter s) (ht : s.runners[i]? = some t)
    (hp : t.pending ≠ none) : t.mayRun = true := by
  have hsteady := h.steady i t ht
  refine RunnerTask.mayRun_iff.mpr ⟨hsteady.launched_of_pending hp, ?_,
    (h.isOpen.running t (List.mem_of_getElem? ht)).1⟩
  rcases hsteady.started with hreleased | hseeding | ⟨-, hidle⟩
  · exact Or.inl hreleased
  · exact Or.inr hseeding
  · exact absurd hidle hp

/-- No runner is in a routine. -/
theorem idle (h : Upkeep W starter s) (courteous : W.Courteous)
    (settled : ∀ a, s.step W.cast a = none) (receptive : World.Receptive s)
    (ht : s.runners[i]? = some t) : t.pending = none := by
  by_contra hp
  obtain ⟨r, hr⟩ := Option.ne_none_iff_exists'.mp hp
  have hresidual : s.residual (.runner i) = some r.forget := by
    rw [residual_runner ht, hr]
    rfl
  have hawake : ∀ j u, Actor.runner i = .runner j → s.runners[j]? = some u → u.mayRun = true := by
    rintro j u hj hu
    cases hj
    obtain rfl := Option.some.inj (ht.symm.trans hu)
    exact h.mayRun_of_pending ht hp
  obtain ⟨q, rest, hq, hblocked⟩ := blocked_of_step gentle h.isOpen
    (fun q rest doing => h.calm courteous doing) hawake hresidual (settled _)
  have hprompt : Prompt q := by
    obtain ⟨st, hmannerly⟩ := h.mannerly (.runner i) nofun _ hresidual
    rw [hq, duty?_runner, ht] at hmannerly
    exact hmannerly.2.1
  by_cases hw : q = .awaitSlot
  · subst hw
    obtain ⟨st, hfits, -, horderly⟩ := h.traffic.staged (.runner i)
    have hallows := horderly _ hresidual
    rw [hq] at hallows
    cases st with
    | away => exact hallows.1
    | granted => exact hallows.1
    | asked =>
      refine h.traffic.not_onWay gentle h.isOpen (fun a r hf => (h.fresh courteous hf).orderly)
        settled ?_ (empty_of_receptive receptive (settled _)) hfits
      exact fun i t ht hp => h.mayRun_of_pending ht hp
  · exact hprompt.answered hw hblocked

theorem waiting (h : Upkeep W starter s) (settled : ∀ a, s.step W.cast a = none)
    (ht : s.runners[i]? = some t) (running : t.mayRun = true) (hp : t.pending = none) :
    ∃ limit, t.machine.phase = .waiting limit ∧ t.inbox = [] ∧
      (t.timer = none ∧ limit = none ∨ ∃ ms, t.timer = some ms ∧ s.time < ms) := by
  have hruns := (h.steady i t ht).runs
  have hstep := (goOn_of_blocked ht running (settled (.runner i))).2
  simp only [goOn, hp] at hstep
  split at hstep
  · cases hstep
  · cases hstep
  · next r hsrc =>
    cases r with
    | done reply => cases hstep
    | ask q rest =>
      obtain ⟨hallows, hprompt, -⟩ := mannerly_runner hsrc hruns.asks
      have hw : q ≠ .awaitSlot := by
        rintro rfl
        exact hallows
      simp only [runnerRoutine] at hstep
      split at hstep
      · next hblocked => exact absurd hblocked (Prompt.answered hprompt hw)
      · cases hstep
      · cases hstep
  · next hsrc =>
    rcases runnerSource_blocked hsrc with hfinished | ⟨limit, inboxOpen, hwait, hinbox, htimer⟩
    · exact absurd hfinished (request_ne_finished hruns)
    · obtain ⟨hphase, rfl⟩ := phase_of_wait hwait
      exact ⟨limit, hphase, hinbox hruns.1, htimer⟩

/-- All runners are at rest when nobody can go on. -/
theorem resting (h : Upkeep W starter s) (courteous : W.Courteous)
    (settled : ∀ a, s.step W.cast a = none) (receptive : World.Receptive s) : World.Resting s := by
  intro t hmem
  obtain ⟨i, ht⟩ := List.getElem?_of_mem hmem
  have hp := h.idle courteous settled receptive ht
  have hsteady := h.steady i t ht
  refine ⟨hp, ?_⟩
  by_cases running : t.mayRun = true
  · obtain ⟨limit, hphase, -, htimer⟩ := h.waiting settled ht running hp
    rw [hphase]
    intro hnone
    rcases htimer with ⟨-, hlimit⟩ | ⟨time, hsome, -⟩
    · exact hlimit
    · rw [hnone] at hsome
      cases hsome
  · cases hl : t.launched with
    | false =>
      rw [(hsteady.dormant hl).1]
      exact trivial
    | true =>
      have hnot : ¬ (t.released = true ∨ t.machine.phase.isSeeding = true) := fun hawake =>
        running (RunnerTask.mayRun_iff.mpr ⟨hl, hawake, (h.isOpen.running t hmem).1⟩)
      rcases hsteady.started with hreleased | hseeding | ⟨htop, -⟩
      · exact absurd (Or.inl hreleased) hnot
      · exact absurd (Or.inr hseeding) hnot
      · rw [htop]
        exact trivial

end Upkeep

/-! ### Time passes -/

theorem eq_never_of_remaining {due : DueTime} {now : Instant} (h : due.remaining now = none) :
    due = .never := by
  cases due with
  | never => rfl
  | moment t => cases h

theorem Steady.pass (h : Steady s t) (rest : World.AtRest t) :
    Steady { s with time := s.time + nanos } t := by
  obtain ⟨hp, hrest⟩ := rest
  refine ⟨h.unstopped, h.dormant, h.started, h.runs, ?_, ?_⟩
  · intro r hr
    rw [hp] at hr
    cases hr
  · intro limit hphase _
    have htimed := h.timed limit hphase hp
    rw [hphase] at hrest
    cases htimer : t.timer with
    | some later =>
      rw [htimer] at htimed
      exact htimed
    | none =>
      rw [htimer] at htimed
      obtain ⟨hlimit, -⟩ := htimed
      obtain rfl := hrest htimer
      have hnever : t.machine.wakeDue = .never := eq_never_of_remaining hlimit.symm
      rw [hnever]
      exact ⟨rfl, rfl⟩

theorem Covers.pass {d : Duty} {due : DueTime} {x y : Glance} (h : Covers d id due x)
    (hstore : y.store = x.store) (hnow : x.now ≤ y.now) : Covers d id due y :=
  fun p hp u hu => h p (hstore ▸ hp) u (hnow.trans hu)

theorem Attentive.pass (h : Attentive s t id) (unmoved : s.clock.skew = 0) (rest : World.AtRest t) :
    Attentive { s with time := s.time + nanos } t id := by
  obtain ⟨hp, hrest⟩ := rest
  rw [attentive_iff_watched hp] at h ⊢
  have hnow : s.timeOn .clock ≤ ({ s with time := s.time + nanos } : System _).timeOn .clock :=
    Clock.reading_mono unmoved (Nat.le_add_right _ _)
  unfold Watched at h ⊢
  split at hrest
  · next hphase =>
    rw [hphase]
    exact trivial
  · next hphase =>
    rw [hphase] at h ⊢
    exact Covers.pass h rfl hnow
  · next limit hphase =>
    rw [hphase] at h ⊢
    exact Covers.pass h rfl hnow
  · exact hrest.elim

theorem Upkeep.pass (h : Upkeep W starter s) (resting : World.Resting s) :
    Upkeep W starter { s with time := s.time + nanos } := by
  have rest {i : Nat} {t} (ht : s.runners[i]? = some t) := resting t (List.mem_of_getElem? ht)
  refine ⟨⟨⟨h.isOpen.accepting, h.isOpen.listening, h.isOpen.running⟩, h.unmoved,
    ⟨h.serving.working, h.serving.attends⟩, h.distinct, h.lasting,
    fun i t ht => (h.steady i t ht).pass (rest ht), h.enrolled, fun i t ht id => ?_⟩,
    ⟨h.traffic.fair, h.traffic.staged⟩, ?_, h.mannerly⟩
  · exact (h.handled i t ht id).imp_left fun attentive => attentive.pass h.unmoved (rest ht)
  · have hstarting := h.starting
    cases starter with
    | none => exact hstarting
    | some k =>
      rcases hstarting with ⟨r, hr, hsafe⟩ | hover
      · exact Or.inl ⟨r, hr, hsafe.later ⟨rfl, fun _ _ _ he => he⟩⟩
      · exact Or.inr hover

end Reveille.Poll
