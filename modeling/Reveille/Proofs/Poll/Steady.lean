import Reveille.Proofs.Poll.Routines
import Reveille.Proofs.Time.Clock

/-!
# Runners that go on

As long as nobody stops it and the bus is open, the runner of a duty goes on: what it is in and what it
waits for is consistent with how far it was started, and its wait runs out before anything becomes due
that it knows of (`Steady`).  Its own steps keep this (`Steady.step`), and so does what others do to it
(`Steady.nudged`).
-/

namespace Reveille.Poll

open Program Reveille.System

variable {Sink : Type} {X : Signature} {σ : Type} {W : World Sink X σ}
  {s s' : System (place Sink X σ)} {d : Duty} {i : Nat} {t t' : RunnerTask (place Sink X σ)}
  {m : Machine Sink X σ}

/-- The wait of a runner runs out before anything that it knows of becomes due. -/
def Timed (s : System (place Sink X σ)) (t : RunnerTask (place Sink X σ)) : Prop :=
  ∀ limit, t.machine.phase = .waiting limit → t.pending = none → match t.timer with
    | none => limit = t.machine.wakeDue.remaining (s.timeOn .clock) ∧
        t.machine.wakeDue.isDue (s.timeOn .clock) = false
    | some time => ∀ earlier < time, nanosPerMilli ∣ earlier →
        t.machine.wakeDue.isDue (s.clock.reading (.clamp earlier)) = false

/-- A runner that nobody stops, on a bus that is open. -/
structure Steady (s : System (place Sink X σ)) (t : RunnerTask (place Sink X σ)) : Prop where
  unstopped : t.stopRequested = false
  dormant : t.launched = false → t.machine.phase = .seeding ∧ t.pending = none
  started : t.released = true ∨ t.machine.phase.isSeeding = true ∨
    t.machine.phase = .top ∧ t.pending = none
  runs : t.service.Runs t.machine
  leads : ∀ r, t.pending = some r → r.Leads (Told (s.timeOn .clock)) (fun _ => False)
    (t.service.Replies (s.timeOn .clock) t.machine.request)
  timed : Timed s t

/-! ### One reply -/

theorem isSeeding_resume (h : m.phase.isSeeding = true) (reply : m.request.Reply) :
    (m.resume reply).1.phase.isSeeding = true ∨ (m.resume reply).1.phase = .top := by
  have turned := Runner.turned_resume m reply
  generalize m.resume reply = turn at turned ⊢
  cases turned with
  | seeding => exact Or.inl rfl
  | scanning r pass | collected r pass | item r pass | itemFailed r pass =>
    cases pass with
    | seed => exact Or.inl rfl
    | wake => cases h
  | arming r pass =>
    cases pass with
    | seed => exact Or.inr rfl
    | wake => cases h
  | _ => cases h

theorem phase_check {limit : Option Duration} (ids : List Id) :
    (m.check ids).1.phase ≠ .waiting limit := by
  cases ids <;> exact nofun

theorem phase_process {limit : Option Duration} {next : Alarm Id} (ids : List Id) :
    (m.process next ids).1.phase ≠ .waiting limit := by
  cases ids <;> exact nofun

/-- A wait begins with a reading of the clock. -/
theorem waiting_resume {now : Instant} {reply : m.request.Reply}
    (told : d.Replies now m.request reply) {limit : Option Duration}
    (h : (m.resume reply).1.phase = .waiting limit) :
    limit = (m.resume reply).1.wakeDue.remaining now ∧
      (m.resume reply).1.wakeDue.isDue now = false := by
  have turned := Runner.turned_resume m reply
  generalize m.resume reply = turn at turned h ⊢
  cases turned with
  | early r read notDue =>
    obtain rfl : read = now := told
    cases h
    exact ⟨rfl, notDue⟩
  | collected r pass =>
    cases pass with
    | seed => cases h
    | wake => exact absurd h (phase_process _)
  | receiving | checked | checkFailed => exact absurd h (phase_check _)
  | processFailed | recheckFailed | stillDue | dueLater => exact absurd h (phase_process _)
  | _ => cases h

theorem phase_of_wait {limit : Option Duration} {inboxOpen : Bool}
    (h : m.request = .wait limit inboxOpen) :
    m.phase = .waiting limit ∧ m.inboxOpen = inboxOpen := by
  obtain ⟨jitter, alarm, rescanAt, shown, isOpen, phase⟩ := m
  cases phase with
  | waiting limit' =>
    cases h
    exact ⟨rfl, rfl⟩
  | _ => cases h

theorem request_ne_finished (h : d.Runs m) : m.request ≠ .finished := by
  obtain ⟨jitter, alarm, rescanAt, shown, isOpen, phase⟩ := m
  intro hfinished
  cases phase with
  | stopped => exact h.2
  | _ => cases hfinished

/-! ### Steps -/

theorem Steady.nudged (h : Steady s t) (hn : t.Nudged t') (time : s'.time = s.time)
    (clock : s'.clock = s.clock) : Steady s' t' := by
  obtain ⟨more, launched, released, hlaunched, hreleased, rfl⟩ := hn
  have hnow : s'.timeOn .clock = s.timeOn .clock := by
    simp only [timeOn, time, clock]
  refine ⟨h.unstopped, ?_, h.started.imp_left hreleased, h.runs, ?_, ?_⟩
  · intro hl
    refine h.dormant ?_
    rw [← Bool.not_eq_true]
    intro ht
    rw [hlaunched ht] at hl
    cases hl
  · intro r hr
    rw [hnow]
    exact h.leads r hr
  · intro limit hphase hidle
    have := h.timed limit hphase hidle
    rw [hnow, clock]
    exact this

theorem Steady.congr (h : Steady s t) (time : s'.time = s.time) (clock : s'.clock = s.clock) :
    Steady s' t := h.nudged (.refl t) time clock

theorem Steady.launched_of_pending (h : Steady s t) (hp : t.pending ≠ none) : t.launched = true := by
  rw [← Bool.not_eq_false]
  exact fun hl => hp (h.dormant hl).2

theorem Steady.resumed (h : Steady s t) (running : t.mayRun = true)
    {reply : t.machine.request.Reply}
    (told : t.service.Replies (s.timeOn .clock) t.machine.request reply) :
    (t.resumed reply).ending = none ∧ Steady s (t.resumed reply) := by
  have hruns := h.runs.resume reply told
  obtain ⟨hlaunched, hreleased, -⟩ := RunnerTask.mayRun_iff.mp running
  refine ⟨?_, h.unstopped, ?_, ?_, hruns, nofun, ?_⟩
  · have hgoes : (t.machine.resume reply).1.phase ≠ .stopped := by
      intro hstopped
      have := hruns.2
      rw [hstopped] at this
      exact this
    unfold RunnerTask.resumed
    dsimp only
    split
    · next hstopped => exact absurd hstopped hgoes
    · rfl
  · intro hl
    have hdormant : t.launched = false := hl
    rw [hlaunched] at hdormant
    cases hdormant
  · rcases hreleased with hreleased | hseeding
    · exact Or.inl hreleased
    · right
      exact (isSeeding_resume hseeding reply).imp_right fun htop => ⟨htop, rfl⟩
  · intro limit hphase _
    exact waiting_resume told hphase

theorem Steady.told (h : Steady s t) (serving : s.worker.machine.phase.isOver = false)
    {q : Runner.Request (place Sink X σ).Event (place Sink X σ).Id (Items (place Sink X σ))}
    {reply : q.Reply} {inbox : List Event}
    (hs : Served s t q reply inbox) : t.service.Replies (s.timeOn .clock) q reply := by
  cases hs with
  | isStopRequested => exact h.unstopped
  | stopRequested hstop =>
    rw [h.unstopped] at hstop
    cases hstop
  | event _ => exact Or.inl ⟨_, rfl⟩
  | inboxEnded hover =>
    rw [serving] at hover
    cases hover
  | elapsed _ _ => exact Or.inr rfl

theorem told_of_answered {a : Actor} {q : System.Request (place Sink X σ)} {reply : q.Reply}
    (h : Answered W.cast a s q reply s') : Told (s.timeOn .clock) q reply := by
  have hreplied := h.replied
  cases q with
  | readTime source =>
    cases source with
    | clock => exact hreplied
    | host => exact trivial
  | _ => exact trivial

/-- What a runner is in leads to a reply on which it goes on. -/
theorem Steady.runnerIn (h : Steady s t) {r : Routine (place Sink X σ) t.machine.request.Reply}
    (hr : RunnerIn W.cast s i t r) : r.Leads (Told (s.timeOn .clock)) (fun _ => False)
      (t.service.Replies (s.timeOn .clock) t.machine.request) := by
  rcases hr with hp | ⟨-, hsrc⟩
  · exact h.leads r hp
  · exact leads_replies hsrc h.runs.asks _

theorem Steady.step (h : Steady s t) (running : t.mayRun = true) (kept : t.aborted = false)
    (serving : s.worker.machine.phase.isOver = false) (unmoved : s.clock.skew = 0)
    (hs : RunnerStep W.cast s i t s') :
    ∃ t', s'.runners[i]? = some t' ∧ (t'.ending = none ∧ t'.aborted = false) ∧ Steady s' t' := by
  obtain ⟨hlaunched, hawake, hending⟩ := RunnerTask.mayRun_iff.mp running
  cases hs with
  | @asked q rest reply s₁ t₁ routine answered aside nudged task =>
    have hleads := ((h.runnerIn routine).step (told_of_answered answered)).resolve_left fun h => h
    obtain ⟨more, launched, released, hl, hr, rfl⟩ := nudged
    refine ⟨_, task, ⟨hending, kept⟩, ?_⟩
    refine Steady.congr (s := s) ⟨h.unstopped, ?_, ?_, h.runs, ?_, ?_⟩ (aside.time.trans answered.time)
      (aside.clock.trans answered.clock)
    · intro hdormant
      have hnot : launched = false := hdormant
      rw [hl hlaunched] at hnot
      cases hnot
    · exact hawake.elim (fun h => Or.inl (hr h)) fun h => Or.inr (Or.inl h)
    · intro r hr
      obtain rfl : rest reply = r := Option.some.inj hr
      exact hleads
    · intro limit _ hidle
      cases hidle
  | returned routine aside task =>
    obtain ⟨hending, hsteady⟩ := h.resumed running (h.runnerIn routine)
    exact ⟨_, task, ⟨hending, kept⟩, hsteady.congr aside.time aside.clock⟩
  | @served reply inbox idle served aside task =>
    have h' : Steady s { t with inbox } :=
      ⟨h.unstopped, h.dormant, h.started, h.runs, h.leads, h.timed⟩
    obtain ⟨hending, hsteady⟩ := Steady.resumed h' running (h.told serving served)
    exact ⟨_, task, ⟨hending, kept⟩, hsteady.congr aside.time aside.clock⟩
  | @timed d inboxOpen idle unset request aside task =>
    refine ⟨_, task, ⟨hending, kept⟩, Steady.congr (s := s) ?_ aside.time aside.clock⟩
    refine ⟨h.unstopped, h.dormant, h.started, h.runs, h.leads, ?_⟩
    intro limit hphase _
    have hd : t.machine.phase = .waiting (some d) := (phase_of_wait request).1
    have htimed := h.timed _ hd idle
    rw [unset] at htimed
    intro earlier hearlier whole
    refine Clock.isDue_of_remaining unmoved htimed.2 htimed.1.symm
      (Nat.lt_of_lt_of_le (Duration.lt_of_lt_tick whole hearlier) ?_)
    exact Nat.add_le_add_left (Nat.min_le_left _ _) _

end Reveille.Poll
