import Reveille.Proofs.System.Career

/-!
# Runs in which time waits for everybody

In a `Prompt` run time goes on only when nobody can go on without, and it stops wherever somebody can.  So
whoever never waits but up to some time is done with everything by that time (`Prompt.time_le`).
-/

namespace Reveille.System

open Program

variable {D : Domain} {c : Cast D} {s s' s₀ s₁ : System D} {a : Actor} {q : Request D} {k m : Nat}
  {τ σ σ' : List (Label D)} {l : Label D}

/-- The world outside goes on, and time with it when everybody waits, up to the next deadline at most. -/
structure Passing (c : Cast D) (s s' : System D) : Prop extends Elsewhere s s' where
  onward : s.time ≤ s'.time
  settled : s.time < s'.time → ∀ a, s.step c a = none
  stops : s.time < s'.time → ∀ a ms, s.deadline? a = some ms → s.time < ms → s'.time ≤ ms

/-- A run in which time passes only when nobody can go on. -/
inductive Prompt (c : Cast D) (s₀ : System D) : List (Label D) → System D → Prop
  | refl : Prompt c s₀ [] s₀
  | step {τ : List (Label D)} {s s' : System D} (before : Prompt c s₀ τ s) {a : Actor}
      (h : s.step c a = some s') : Prompt c s₀ (τ ++ [s.label c a]) s'
  | call {τ : List (Label D)} {s : System D} (before : Prompt c s₀ τ s) (f : Activity D D.Result) :
      Prompt c s₀ (τ ++ [.began f]) (s.start f)
  | outside {τ : List (Label D)} {s s' : System D} (before : Prompt c s₀ τ s) (h : Passing c s s') :
      Prompt c s₀ τ s'

theorem Prompt.run (h : Prompt c s₀ τ s) : Run c s₀ τ s := by
  induction h with
  | refl => exact .refl
  | step before h ih => exact ih.step h
  | call before f ih => exact ih.call f
  | outside before h ih => exact ih.outside h.toElsewhere

theorem Prompt.split (h : Prompt c s₀ τ s) (hτ : τ = σ ++ l :: σ') :
    ∃ s₁ s₂, Prompt c s₀ σ s₁ ∧ Happens c s₁ l s₂ ∧ Prompt c s₂ σ' s := by
  induction h generalizing σ' with
  | refl => simp at hτ
  | step before h ih => exact split_concat before (.step h) .refl hτ ih fun rest => rest.step h
  | call before f ih => exact split_concat before (.call f) .refl hτ ih fun rest => rest.call f
  | outside before h ih =>
    obtain ⟨s₁, s₂, run, hl, rest⟩ := ih hτ
    exact ⟨s₁, s₂, run, hl, rest.outside h⟩

theorem Prompt.at_told (h : Prompt c s₀ τ s) {reply : q.Reply} {xs ys : List (Exchange D.requests)}
    (htold : told a τ = xs ++ ⟨q, reply⟩ :: ys) : ∃ σ work σ' s₁ s₂ s₃,
      τ = σ ++ .moved a (some ⟨q, reply⟩) work :: σ' ∧ told a σ = xs ∧ Prompt c s₀ σ s₁ ∧
      s₁.step c a = some s₂ ∧ s₁.label c a = .moved a (some ⟨q, reply⟩) work ∧
      s₁.perform c a q = some (.reply reply, s₃) ∧ Prompt c s₂ σ' s := by
  obtain ⟨σ, work, σ', hτ, hxs⟩ := split_of_told htold
  obtain ⟨s₁, s₂, run, happens, rest⟩ := h.split hτ
  obtain ⟨hs, hlabel⟩ := happens.moved
  obtain ⟨s₃, answer⟩ := happens.answered
  exact ⟨σ, work, σ', s₁, s₂, s₃, hτ, hxs, run, hs, hlabel, answer, rest⟩

theorem Prompt.play (h : Prompt c s₀ τ s) (moves : List (Move D)) :
    Prompt c s₀ (τ ++ (s.play c moves).1) (s.play c moves).2 :=
  play_induction moves (fun f _ _ _ run => run.call f) (fun run hs => run.step hs) h

theorem Prompt.played (moves : List (Move D)) : Prompt c s (s.play c moves).1 (s.play c moves).2 := by
  simpa only [List.nil_append] using Prompt.refl.play moves

/-! ### Time -/

theorem time_of_step (h : s.step c a = some s') : s'.time = s.time := by
  have turn := turn_of_step h
  generalize s.label c a = l at turn
  cases turn with
  | callAsked task answer => exact (perform_frame answer).2.2.1
  | callPanicked task answer => exact (perform_frame answer).2.2.1
  | callReturned task => rfl
  | workerAsked routine answer => exact (perform_frame answer).2.2.1
  | workerPanicked routine answer panic => exact (perform_frame answer).2.2.1
  | workerReturned routine => rfl
  | workerServed idle source =>
    obtain ⟨-, ⟨item, channel, -, rfl, -⟩ | ⟨-, rfl, -⟩⟩ := served_cases source <;> rfl
  | runnerAsked hired answer aside => exact aside.time.trans (perform_frame answer).2.2.1
  | runnerPanicked hired answer aside => exact aside.time.trans (perform_frame answer).2.2.1
  | runnerAlone hired aside => exact aside.time
  | runnerCancelled runner aborted => rfl

theorem Prompt.time_mono (h : Prompt c s₀ τ s) : s₀.time ≤ s.time := by
  induction h with
  | refl => exact Nat.le_refl _
  | step before h ih => exact ih.trans (time_of_step h).ge
  | call before f ih => exact ih
  | outside before h ih => exact ih.trans h.onward

def Request.Ready (m : Nat) : Request D → Prop
  | .elapsed | .log _ | .requestStop _ | .abort _ => True
  | .awaitEnd _ until? => ∃ ms, until? = some ms ∧ ms ≤ m
  | _ => False

/-- Such a request is answered, unless its deadline is still to come. -/
theorem Request.Ready.answered (h : q.Ready m) : (∃ reply s', s.perform c a q = some (.reply reply, s')) ∨
    ∃ ms, q.deadline? = some ms ∧ ms ≤ m ∧ s.time < ms := by
  cases q with
  | elapsed => exact Or.inl ⟨_, _, rfl⟩
  | log line => exact Or.inl ⟨_, _, rfl⟩
  | requestStop i => exact Or.inl ⟨_, _, rfl⟩
  | abort i => exact Or.inl ⟨_, _, rfl⟩
  | awaitEnd i until? =>
    obtain ⟨ms, rfl, hm⟩ := h
    rcases Nat.lt_or_ge s.time ms with hlt | hge
    · exact Or.inr ⟨ms, rfl, hm, hlt⟩
    · left
      simp only [perform]
      split
      · exact ⟨_, _, rfl⟩
      · rw [if_pos (by simpa using hge)]
        exact ⟨_, _, rfl⟩
  | _ => cases h

theorem Request.Ready.not_panics (h : q.Ready m) : ¬ q.Panics := by
  cases q with
  | panic p => cases h
  | release i => cases h
  | call x => cases h
  | _ => exact id

theorem step_of_answer {rest : q.Reply → Routine D D.Result} {answer : Answer q.Reply}
    (task : s.calls[k]? = some (.running (.ask q rest)))
    (h : s.perform c (.call k) q = some (answer, s')) : s.step c (.call k) ≠ none := by
  cases answer <;> simp [step, stepCall, task, h]

theorem deadline_of_call {r : Routine D D.Result} (task : s.calls[k]? = some (.running r)) :
    s.deadline? (.call k) = routineDeadline? r := by
  simp only [deadline?, task]

/-- A call whose requests are all answered by some time at the latest is done with them by that time. -/
theorem Prompt.time_le {α : Type} {r : Routine D α} {g : α → Routine D D.Result} (h : Prompt c s₁ τ s)
    (about : s₁.calls[k]? = some (.running (r.bind g))) (start : s₁.time ≤ m)
    (ready : ∀ xs q rest, xs <+: told (.call k) τ → Path r xs (.ask q rest) → q.Ready m)
    {rest : q.Reply → Routine D α} (path : Path r (told (.call k) τ) (.ask q rest)) : s.time ≤ m := by
  induction h generalizing q with
  | refl => exact start
  | @step τ s s' before a h ih =>
    rw [time_of_step h]
    rw [told_concat] at ready path
    have early : ∀ xs q rest, xs <+: told (.call k) τ → Path r xs (.ask q rest) → q.Ready m :=
      fun xs q rest hxs => ready xs q rest (hxs.trans (List.prefix_append _ _))
    cases htold : (s.label c a).told? (.call k) with
    | none =>
      rw [htold, Option.toList_none, List.append_nil] at path
      exact ih early path
    | some x =>
      rw [htold, Option.toList_some] at path
      obtain ⟨rest', before, -⟩ := path.of_concat
      exact ih early before
  | call before f ih =>
    rw [told_quiet rfl] at ready path
    exact ih ready path
  | @outside τ s s' before passing ih =>
    have now := ih ready path
    rcases passing.onward.eq_or_lt with heq | hlt
    · exact heq ▸ now
    · have hready := ready _ q rest List.prefix_rfl path
      rcases before.run.underway about with ⟨xs, ys, v, htold, ends⟩ | ⟨q', rest', waits, task⟩
      · cases (ends.of_ended (htold ▸ path)).2
      cases waits.functional path
      have task := task.resolve_left fun h => hready.not_panics h.1
      rcases hready.answered (c := c) (s := s) (a := .call k) with ⟨reply, s'', answer⟩ | ⟨ms, hms, hm, hlt'⟩
      · exact absurd (passing.settled hlt (.call k)) (step_of_answer task answer)
      · exact (passing.stops hlt (.call k) ms ((deadline_of_call task).trans hms) hlt').trans hm

end Reveille.System
