import Reveille.Proofs.Runner.Leave
import Reveille.Proofs.System.Cut
import Reveille.Proofs.System.Inbox

/-!
# The career of a runner

A run falls apart at each of its steps (`Run.split`), so whatever an actor was told can be traced back to the
step in which it was answered (`Run.at_told`).

A runner that has ended keeps its ending and makes no more steps (`Run.ending`).  It stops just when it leaves
its loop, it leaves its loop only when it is asked to, and it is aborted only on request (`Run.career`).
-/

namespace Reveille

open Bus Program

variable {D : Domain}

namespace Label

def actor? : Label D → Option Actor
  | .moved a _ _ => some a
  | .began _ => none

end Label

namespace System

variable {c : Cast D} {s s' s₀ s₁ s₂ : System D} {a : Actor} {i : Nat} {t t' : RunnerTask D}
  {q : Request D} {τ σ σ' : List (Label D)} {l : Label D} {ρ ρ' : List (Exchange (Duties D))}

/-! ### Runs and their parts -/

theorem Observed.trans (h : Observed c s₀ i τ ρ s₁) {τ' : List (Label D)}
    (h' : Observed c s₁ i τ' ρ' s) : Observed c s₀ i (τ ++ τ') (ρ ++ ρ') s := by
  induction h' with
  | refl => rwa [List.append_nil, List.append_nil]
  | step before h ih =>
    rw [← List.append_assoc, ← List.append_assoc]
    exact ih.step h
  | call before f ih =>
    rw [← List.append_assoc]
    exact ih.call f
  | outside before h ih => exact ih.outside h

inductive Happens (c : Cast D) (s : System D) : Label D → System D → Prop
  | step {a : Actor} {s' : System D} (h : s.step c a = some s') : Happens c s (s.label c a) s'
  | call (f : Activity D D.Result) : Happens c s (.began f) (s.start f)

theorem Happens.moved {asked : Option (Exchange D.requests)}
    {work : Option (Exchange (Worker.requests (Receiver D) D.Event))}
    (h : Happens c s (.moved a asked work) s') :
    s.step c a = some s' ∧ s.label c a = .moved a asked work := by
  generalize hl : Label.moved a asked work = l at h
  cases h with
  | call f => cases hl
  | step hs =>
    obtain ⟨_, _, hlabel, -⟩ := stride_of_step hs
    obtain ⟨rfl, -, -⟩ := Label.moved.inj (hl.trans hlabel)
    exact ⟨hs, rfl⟩

theorem perform_of_asked {reply : q.Reply} (h : s.asked? c a = some ⟨q, reply⟩) :
    ∃ s', s.perform c a q = some (.reply reply, s') := by
  simp only [asked?] at h
  split at h
  · cases h
  · split at h
    · next answer =>
      cases h
      exact ⟨_, answer⟩
    · cases h

theorem Happens.answered {reply : q.Reply}
    {work : Option (Exchange (Worker.requests (Receiver D) D.Event))}
    (h : Happens c s (.moved a (some ⟨q, reply⟩) work) s') :
    ∃ s₁, s.perform c a q = some (.reply reply, s₁) := by
  obtain ⟨-, hlabel⟩ := h.moved
  have hasked : s.asked? c a = some ⟨q, reply⟩ := by
    cases a <;> exact congrArg Label.asked? hlabel
  exact perform_of_asked hasked

theorem split_concat {B : List (Label D) → System D → Prop} {A : System D → List (Label D) → System D → Prop}
    {m : Label D} (before : B τ s) (happens : Happens c s m s') (last : A s' [] s')
    (hτ : τ ++ [m] = σ ++ l :: σ')
    (ih : ∀ {σ'}, τ = σ ++ l :: σ' → ∃ s₁ s₂, B σ s₁ ∧ Happens c s₁ l s₂ ∧ A s₂ σ' s)
    (next : ∀ {s₂ σ'}, A s₂ σ' s → A s₂ (σ' ++ [m]) s') :
    ∃ s₁ s₂, B σ s₁ ∧ Happens c s₁ l s₂ ∧ A s₂ σ' s' := by
  rcases List.eq_nil_or_concat σ' with rfl | ⟨σ'', m', rfl⟩
  · obtain ⟨rfl, hm⟩ := List.append_inj' hτ rfl
    cases hm
    exact ⟨s, s', before, happens, last⟩
  · have heq : τ ++ [m] = (σ ++ l :: σ'') ++ [m'] := by simpa using hτ
    obtain ⟨hinit, hm⟩ := List.append_inj' heq rfl
    cases hm
    obtain ⟨s₁, s₂, run, hl, rest⟩ := ih hinit
    exact ⟨s₁, s₂, run, hl, by simpa using next rest⟩

/-- A run falls apart at each of its labels. -/
theorem Run.split (h : Run c s₀ τ s) (hτ : τ = σ ++ l :: σ') :
    ∃ s₁ s₂, Run c s₀ σ s₁ ∧ Happens c s₁ l s₂ ∧ Run c s₂ σ' s := by
  induction h generalizing σ' with
  | refl => simp at hτ
  | step before h ih => exact split_concat before (.step h) .refl hτ ih fun rest => rest.step h
  | call before f ih => exact split_concat before (.call f) .refl hτ ih fun rest => rest.call f
  | outside before h ih =>
    obtain ⟨s₁, s₂, run, hl, rest⟩ := ih hτ
    exact ⟨s₁, s₂, run, hl, rest.outside h⟩

theorem split_of_told {x : Exchange D.requests} {xs ys : List (Exchange D.requests)}
    (h : told a τ = xs ++ x :: ys) :
    ∃ σ work σ', τ = σ ++ .moved a (some x) work :: σ' ∧ told a σ = xs := by
  obtain ⟨σ₁, σ₂, rfl, hxs, hrest⟩ := List.filterMap_eq_append_iff.mp h
  obtain ⟨σ₃, l, σ', rfl, hnone, hl, -⟩ := List.filterMap_eq_cons_iff.mp hrest
  obtain ⟨work, rfl⟩ := told?_eq_some.mp hl
  refine ⟨σ₁ ++ σ₃, work, σ', (List.append_assoc _ _ _).symm, ?_⟩
  rw [told_append, told, hxs, told, List.filterMap_eq_nil_iff.mpr hnone, List.append_nil]

/-- Whatever an actor was told, it was told in some step. -/
theorem Run.at_told (h : Run c s₀ τ s) {reply : q.Reply} {xs ys : List (Exchange D.requests)}
    (htold : told a τ = xs ++ ⟨q, reply⟩ :: ys) : ∃ σ work σ' s₁ s₂ s₃,
      τ = σ ++ .moved a (some ⟨q, reply⟩) work :: σ' ∧ told a σ = xs ∧ Run c s₀ σ s₁ ∧
      s₁.step c a = some s₂ ∧ s₁.label c a = .moved a (some ⟨q, reply⟩) work ∧
      s₁.perform c a q = some (.reply reply, s₃) ∧ Run c s₂ σ' s := by
  obtain ⟨σ, work, σ', hτ, hxs⟩ := split_of_told htold
  obtain ⟨s₁, s₂, run, happens, rest⟩ := h.split hτ
  obtain ⟨hs, hlabel⟩ := happens.moved
  obtain ⟨s₃, answer⟩ := happens.answered
  exact ⟨σ, work, σ', s₁, s₂, s₃, hτ, hxs, run, hs, hlabel, answer, rest⟩

structure Amid (c : Cast D) (s₀ : System D) (τ : List (Label D)) (s m : System D) : Prop where
  cut : ∃ σ σ', τ = σ ++ σ' ∧ Run c s₀ σ m ∧ Run c m σ' s

theorem Run.amid {m : System D} (before : Run c s₀ σ m) (hs : m.step c a = some s₂)
    (hl : m.label c a = l) (after : Run c s₂ σ' s) : Amid c s₀ (σ ++ l :: σ') s m :=
  ⟨σ, l :: σ', rfl, before, hl ▸ (Run.refl.step hs).trans after⟩

theorem Amid.later {m : System D} (h : Amid c s₀ τ s m) {τ' : List (Label D)} (h' : Run c s τ' s') :
    Amid c s₀ (τ ++ τ') s' m := by
  obtain ⟨σ, σ', rfl, before, after⟩ := h.cut
  exact ⟨σ, σ' ++ τ', List.append_assoc _ _ _, before, after.trans h'⟩

theorem Run.panicked {k : Nat} {r₀ : Routine D D.Result} {p : Panic} (h : Run c s₀ τ s)
    (running : s₀.calls[k]? = some (.running r₀)) (ended : s.calls[k]? = some (.ended (.error p))) :
    ∃ (m m' : System D) (q : Request D) (rest : q.Reply → Routine D D.Result), Amid c s₀ τ s m ∧
      Path r₀ (told (.call k) τ) (.ask q rest) ∧ m.perform c (.call k) q = some (.panicked p, m') := by
  induction h with
  | refl =>
    rw [running] at ended
    cases ended
  | @step τ s s' before a hs ih =>
    rcases calls_of_turn (turn_of_step hs) with
      ⟨-, quiet, calls⟩ | ⟨j, asked, task, task', hl, hj, calls, -, panics⟩
    · obtain ⟨m, m', q, rest, amid, path, answer⟩ := ih (calls ▸ ended)
      exact ⟨m, m', q, rest, amid.later (Run.refl.step hs), by rwa [told_quiet (quiet k)], answer⟩
    by_cases hk : j = k
    · subst hk
      rw [calls, List.getElem?_set_self (List.getElem?_eq_some_iff.mp hj).1] at ended
      obtain ⟨rfl, q, rest, m', rfl, answer⟩ := panics p (Option.some.inj ended)
      obtain ⟨task, htask, follows⟩ := before.pursues running
      obtain rfl := Option.some.inj (hj.symm.trans htask)
      cases follows with
      | running path =>
        refine ⟨s, m', q, rest, before.amid hs rfl .refl, ?_, answer⟩
        rwa [hl, told_quiet (by rw [Label.told?, if_pos rfl])]
    · rw [calls, List.getElem?_set_ne hk] at ended
      obtain ⟨m, m', q, rest, amid, path, answer⟩ := ih ended
      refine ⟨m, m', q, rest, amid.later (Run.refl.step hs), ?_, answer⟩
      rwa [hl, told_quiet (Label.told?_of_ne fun h => hk (Actor.call.inj h))]
  | @call τ s before f ih =>
    obtain ⟨task, htask, -⟩ := before.pursues running
    have hk := (List.getElem?_eq_some_iff.mp htask).1
    rw [start, List.getElem?_append_left hk] at ended
    obtain ⟨m, m', q, rest, amid, path, answer⟩ := ih ended
    exact ⟨m, m', q, rest, amid.later (Run.refl.call f), by rwa [told_quiet rfl], answer⟩
  | outside before h ih =>
    obtain ⟨m, m', q, rest, amid, path, answer⟩ := ih (h.calls ▸ ended)
    exact ⟨m, m', q, rest, by simpa using amid.later (Run.refl.outside h), path, answer⟩

/-! ### How far a runner is started -/

theorem Goes.onward {x : Option (Exchange D.requests)} {y : Option (Exchange (Duties D))}
    (h : Goes c s i t x y t') : t.Onward t' := by
  cases h with
  | asked routine =>
    obtain ⟨service, launched, released, stopRequested, aborted⟩ := onward_upon (i := i) (t := t)
    exact ⟨service, launched, released, stopRequested, aborted⟩
  | _ => exact ⟨rfl, id, id, id, id⟩

theorem onward_of_step (h : s.step c a = some s') (ht : s.runners[i]? = some t) :
    ∃ t', s'.runners[i]? = some t' ∧ t.Onward t' := by
  by_cases ha : a = .runner i
  · subst ha
    obtain ⟨t₀, t', ht₀, -, ht', goes⟩ := goes_of_step h
    obtain rfl := Option.some.inj (ht.symm.trans ht₀)
    exact ⟨t', ht', goes.onward⟩
  · obtain ⟨_, _, hlabel, -⟩ := stride_of_step h
    rcases runner_of_turn (hlabel ▸ turn_of_step h) ha ht with ⟨-, hsame⟩ | ⟨q, reply, -, hupon⟩
    · exact ⟨t, hsame, .refl t⟩
    · exact ⟨_, hupon, onward_upon⟩

/-- Nobody undoes the start of a runner. -/
theorem Run.onward (h : Run c s τ s') (ht : s.runners[i]? = some t) :
    ∃ t', s'.runners[i]? = some t' ∧ t.Onward t' := by
  induction h with
  | refl => exact ⟨t, ht, .refl t⟩
  | step before h ih =>
    obtain ⟨t₁, ht₁, onward⟩ := ih
    obtain ⟨t', ht', last⟩ := onward_of_step h ht₁
    exact ⟨t', ht', onward.trans last⟩
  | call before f ih => exact ih
  | outside before h ih => exact h.runners ▸ ih

/-! ### The end of a runner -/

def ending? (s : System D) (i : Nat) : Option Ending := s.runners[i]?.bind (·.ending)

theorem ending?_eq (ht : s.runners[i]? = some t) : s.ending? i = t.ending := by
  rw [ending?, ht, Option.bind_some]

theorem fallen_of_ending {e : Ending} (h : s.ending? i = some e) : Fallen s i := by
  obtain ⟨t, ht, he⟩ := Option.bind_eq_some_iff.mp h
  exact ⟨t, ht, by rw [he]; exact Option.some_ne_none e⟩

theorem ending_of_fallen (h : Fallen s i) : ∃ e, s.ending? i = some e := by
  obtain ⟨t, ht, hne⟩ := h
  exact (ending?_eq ht).symm ▸ Option.ne_none_iff_exists'.mp hne

theorem not_fallen_step (h : Fallen s i) (hs : s.step c a = some s') : a ≠ .runner i := by
  rintro rfl
  have hrunning := running_of_step hs i rfl
  rw [not_running_of_fallen h] at hrunning
  cases hrunning

theorem ending_of_step {e : Ending} (h : s.step c a = some s') (he : s.ending? i = some e) :
    s'.ending? i = some e := by
  have ha := not_fallen_step (fallen_of_ending he) h
  obtain ⟨t, ht, hend⟩ := Option.bind_eq_some_iff.mp he
  obtain ⟨_, _, hlabel, -⟩ := stride_of_step h
  rcases runner_of_turn (hlabel ▸ turn_of_step h) ha ht with ⟨-, hsame⟩ | ⟨q, reply, -, hupon⟩
  · rw [ending?_eq hsame, hend]
  · rw [ending?_eq hupon, ending_upon, hend]

/-- A runner that has ended keeps its ending, and makes no more steps. -/
theorem Run.ending {e : Ending} (h : Run c s τ s') (he : s.ending? i = some e) :
    s'.ending? i = some e ∧ ∀ l ∈ τ, l.actor? ≠ some (.runner i) := by
  induction h with
  | refl => exact ⟨he, fun _ h => absurd h List.not_mem_nil⟩
  | @step τ s₁ s₂ before a hs ih =>
    refine ⟨ending_of_step hs ih.1, fun l hl => ?_⟩
    rcases List.mem_append.mp hl with hl | hl
    · exact ih.2 l hl
    · obtain ⟨_, _, hlabel, -⟩ := stride_of_step hs
      rw [List.mem_singleton.mp hl, hlabel]
      exact fun heq => not_fallen_step (fallen_of_ending ih.1) hs (Option.some.inj heq)
  | call before f ih =>
    refine ⟨ih.1, fun l hl => ?_⟩
    rcases List.mem_append.mp hl with hl | hl
    · exact ih.2 l hl
    · rw [List.mem_singleton.mp hl]
      exact nofun
  | outside before hout ih => exact ⟨by rw [ending?, hout.runners]; exact ih.1, ih.2⟩

theorem Fallen.observed (h : Fallen s i) (hr : Observed c s i τ ρ s') : ρ = [] := by
  induction hr with
  | refl => rfl
  | step before hs ih =>
    obtain ⟨e, he⟩ := ending_of_fallen h
    have hnow := fallen_of_ending (before.run.ending he).1
    rw [ih, replied?_of_ne (not_fallen_step hnow hs)]
    rfl
  | call before f ih => exact ih
  | outside before h ih => exact ih

theorem ending_of_awaitEnd {until? : Option Nat} {reply : Option Ending}
    (answer : s.perform c a (.awaitEnd i until?) = some (.reply reply, s')) :
    s.ending? i = reply ∧ (reply = none → ∃ ms, until? = some ms ∧ ms ≤ s.time) := by
  cases performed_of_perform answer with
  | ended ending until? => exact ⟨ending, fun hnone => by cases hnone⟩
  | @timedOut _ ms ending due => exact ⟨ending, fun _ => ⟨ms, rfl, due⟩⟩

/-- Whoever was told how a runner ended was told the truth. -/
theorem Run.ending_of_told (h : Run c s₀ τ s) {until? : Option Nat} {e : Ending}
    (hx : ⟨.awaitEnd i until?, some e⟩ ∈ told a τ) : s.ending? i = some e := by
  obtain ⟨xs, ys, htold⟩ := List.append_of_mem hx
  obtain ⟨σ, work, σ', s₁, s₂, s₃, -, -, -, hs, -, answer, rest⟩ := h.at_told htold
  exact (rest.ending (ending_of_step hs (ending_of_awaitEnd answer).1)).1

/-! ### Careers -/

/-- The machine of a runner rests, and is not in a routine then. -/
def Resting (q : Runner.Request D.Event D.Id (Items D)) : Prop :=
  q = .isStopRequested ∨ ∃ limit inboxOpen, q = .wait limit inboxOpen

/-- How a runner may have come to where it is. -/
structure Career (τ : List (Label D)) (i : Nat) (t : RunnerTask D) : Prop where
  /-- A runner stops just when it leaves its loop. -/
  stopped : t.machine.phase = .stopped ↔ t.ending = some .stopped
  heeded : t.machine.phase = .stopped → t.stopRequested = true
  requested : t.stopRequested = true → ∃ l ∈ τ, l.asked? = some ⟨.requestStop i, ()⟩
  dropped : t.ending = some .aborted → t.aborted = true
  aborted : t.aborted = true → ∃ l ∈ τ, l.asked? = some ⟨.abort i, ()⟩
  calling : t.pending ≠ none → ¬ Resting t.machine.request

theorem not_resting_of_source {q : Runner.Request D.Event D.Id (Items D)} {r : Routine D q.Reply}
    (h : s.runnerSource c i t q = .routine r) : ¬ Resting q := by
  rintro (rfl | ⟨limit, inboxOpen, rfl⟩)
  · cases h
  · exact not_wait_of_source h limit inboxOpen rfl

theorem not_resting_of_routine (calling : t.pending ≠ none → ¬ Resting t.machine.request)
    {r : Routine D t.machine.request.Reply} (routine : RunnerIn c s i t r) :
    ¬ Resting t.machine.request := by
  rcases routine with hp | ⟨-, source⟩
  · exact calling (by rw [hp]; exact Option.some_ne_none _)
  · exact not_resting_of_source source

theorem resting_of_rests {q : Runner.Request D.Event D.Id (Items D)} {reply : q.Reply}
    (h : Runner.rests ⟨q, reply⟩ = true) : Resting q := by
  cases q with
  | isStopRequested => exact Or.inl rfl
  | wait limit inboxOpen => exact Or.inr ⟨limit, inboxOpen, rfl⟩
  | _ => cases h

section
variable {q : Runner.Request D.Event D.Id (Items D)} {reply : q.Reply}

theorem isStop_of_source (asked : t.stopRequested = true)
    (source : s.runnerSource c i t q = .atOnce reply s₁) (hrests : Runner.rests ⟨q, reply⟩ = true) :
    Runner.isStop ⟨q, reply⟩ = true := by
  cases q with
  | isStopRequested =>
    cases source
    exact asked
  | wait limit inboxOpen =>
    simp only [runnerSource, asked, if_true] at source
    cases source
    rfl
  | _ => cases hrests

theorem requested_of_source (source : s.runnerSource c i t q = .atOnce reply s₁)
    (hstop : Runner.isStop ⟨q, reply⟩ = true) : t.stopRequested = true := by
  cases q with
  | isStopRequested =>
    cases source
    exact hstop
  | wait limit inboxOpen =>
    by_contra hasked
    simp only [runnerSource, hasked] at source
    repeat' split at source
    all_goals first
      | contradiction
      | (cases source; cases hstop)
  | _ => cases hstop

end

/-- A runner that is asked to stop is told so when it rests. -/
theorem isStop_of_goes (calling : t.pending ≠ none → ¬ Resting t.machine.request)
    (asked : t.stopRequested = true) {x : Option (Exchange D.requests)} {y : Exchange (Duties D)}
    (h : Goes c s i t x (some y) t') (hrests : Runner.rests y = true) : Runner.isStop y = true := by
  cases h with
  | returned routine => exact absurd (resting_of_rests hrests) (not_resting_of_routine calling routine)
  | served idle source left => exact isStop_of_source asked source hrests

theorem requested_of_goes (calling : t.pending ≠ none → ¬ Resting t.machine.request)
    {x : Option (Exchange D.requests)} {y : Exchange (Duties D)}
    (h : Goes c s i t x (some y) t') (hstop : Runner.isStop y = true) : t.stopRequested = true := by
  cases h with
  | returned routine =>
    have hrests := Runner.rests_of_isStop hstop
    exact absurd (resting_of_rests hrests) (not_resting_of_routine calling routine)
  | served idle source left => exact requested_of_source source hstop

theorem Career.later (h : Career τ i t) : Career (τ ++ [l]) i t := by
  obtain ⟨stopped, heeded, requested, dropped, aborted, calling⟩ := h
  refine ⟨stopped, heeded, fun hr => ?_, dropped, fun ha => ?_, calling⟩
  · obtain ⟨l, hl, hasked⟩ := requested hr
    exact ⟨l, List.mem_append_left _ hl, hasked⟩
  · obtain ⟨l, hl, hasked⟩ := aborted ha
    exact ⟨l, List.mem_append_left _ hl, hasked⟩

theorem Career.upon {reply : q.Reply}
    {work : Option (Exchange (Worker.requests (Receiver D) D.Event))} (h : Career τ i t)
    (ht' : ∃ pending, t' = { q.upon i reply t with machine := t.machine, pending })
    (calling : t'.pending ≠ none → ¬ Resting t'.machine.request) :
    Career (τ ++ [.moved a (some ⟨q, reply⟩) work]) i t' := by
  obtain ⟨pending, rfl⟩ := ht'
  have hlast : Label.moved a (some ⟨q, reply⟩) work ∈ τ ++ [.moved a (some ⟨q, reply⟩) work] :=
    List.mem_append_right τ (List.mem_singleton_self _)
  refine ⟨?_, fun hp => onward_upon.stopRequested (h.heeded hp), fun hr => ?_, fun he => ?_,
    fun ha => ?_, calling⟩
  · show t.machine.phase = .stopped ↔ (q.upon i reply t).ending = some .stopped
    rw [ending_upon]
    exact h.stopped
  · rcases stopRequested_of_upon hr with hold | rfl
    · exact h.later.requested hold
    · exact ⟨_, hlast, rfl⟩
  · exact onward_upon.aborted (h.dropped (ending_upon.symm.trans he))
  · rcases aborted_of_upon ha with hold | rfl
    · exact h.later.aborted hold
    · exact ⟨_, hlast, rfl⟩

/-- A runner that goes on with a reply stops when it leaves its loop. -/
theorem Career.resumed (h : Career τ i t) {inbox : List D.Event} (reply : t.machine.request.Reply)
    (asked : Runner.isStop ⟨t.machine.request, reply⟩ = true → t.stopRequested = true) :
    Career (τ ++ [l]) i (RunnerTask.resumed { t with inbox } reply) := by
  refine ⟨?_, fun hp => asked (Runner.isStop_of_stopped reply hp), h.later.requested, fun ha => ?_,
    h.later.aborted, fun hne => absurd rfl hne⟩
  · rcases RunnerTask.ending_resumed { t with inbox } reply with ⟨hp, he⟩ | ⟨hp, he⟩
    · exact ⟨fun _ => he, fun _ => hp⟩
    · exact ⟨fun h => absurd h hp, fun h => by cases he.symm.trans h⟩
  · rcases RunnerTask.ending_resumed { t with inbox } reply with ⟨-, he⟩ | ⟨-, he⟩
    · cases he.symm.trans ha
    · cases he.symm.trans ha

theorem Career.ended (h : Career τ i t) (running : t.ending = none) {e : Ending}
    (unstopped : e ≠ .stopped) (dropped : e = .aborted → t.aborted = true) :
    Career (τ ++ [l]) i { t with ending := some e } := by
  obtain ⟨stopped, heeded, requested, -, aborted, calling⟩ := h.later (l := l)
  refine ⟨?_, heeded, requested, fun he => dropped (Option.some.inj he), aborted, calling⟩
  rw [stopped, running]
  exact ⟨nofun, fun he => absurd (Option.some.inj he) unstopped⟩

theorem Career.goes (h : Career τ i t) (running : t.ending = none)
    {asked : Option (Exchange D.requests)} {replied : Option (Exchange (Duties D))}
    (goes : Goes c s i t asked replied t') :
    Career (τ ++ [.moved (.runner i) asked none]) i t' := by
  have stop (y) (hy : replied = some y) := requested_of_goes h.calling (hy ▸ goes)
  cases goes with
  | asked routine =>
    have working : ¬ Resting t.machine.request := not_resting_of_routine h.calling routine
    exact h.upon ⟨_, rfl⟩ fun _ => working
  | panicked routine =>
    exact h.ended running nofun nofun
  | returned routine => exact h.resumed _ (stop _ rfl)
  | served idle source left => exact h.resumed _ (stop _ rfl)
  | timed idle =>
    obtain ⟨stopped, heeded, requested, dropped, aborted, calling⟩ :=
      h.later (l := .moved (.runner i) none none)
    exact ⟨stopped, heeded, requested, dropped, aborted, calling⟩
  | cancelled aborted => exact h.ended running nofun fun _ => aborted

theorem Run.career (new : s₀.IsNew) (h : Run c s₀ τ s) (ht : s.runners[i]? = some t) :
    Career τ i t := by
  induction h generalizing t with
  | refl =>
    rw [new.runners, List.getElem?_nil] at ht
    cases ht
  | @step τ s s' before a hs ih =>
    by_cases ha : a = .runner i
    · subst ha
      obtain ⟨t₀, t', ht₀, hrun, ht', goes⟩ := goes_of_step hs
      rw [ht] at ht'
      cases ht'
      exact (ih ht₀).goes (RunnerTask.mayRun_iff.mp hrun).2.2 goes
    · obtain ⟨asked, work, hlabel, -⟩ := stride_of_step hs
      rw [hlabel]
      cases ht₀ : s.runners[i]? with
      | none =>
        rw [new_of_step (t := t) (hlabel ▸ turn_of_step hs) ha ht₀ ht]
        exact ⟨⟨nofun, nofun⟩, nofun, nofun, nofun, nofun, fun hne => absurd rfl hne⟩
      | some t₀ =>
        rcases runner_of_turn (hlabel ▸ turn_of_step hs) ha ht₀ with ⟨-, hsame⟩ | ⟨q, reply, rfl, hupon⟩
        · obtain rfl := Option.some.inj (hsame.symm.trans ht)
          exact (ih ht₀).later
        · obtain rfl := Option.some.inj (hupon.symm.trans ht)
          obtain ⟨_, _, _, _, _, heq⟩ := upon_eq q i reply t₀
          rw [heq]
          exact (ih ht₀).upon ⟨t₀.pending, by rw [heq]⟩ (ih ht₀).calling
  | call before f ih => exact (ih ht).later
  | outside before h ih => exact ih (h.runners ▸ ht)

end System

end Reveille
