import Reveille.Proofs.Program.Path
import Reveille.Proofs.System.History

/-!
# What a call was told

The replies that an actor was given are read off the labels of a run (`told`).  What is left of a call
is what its activity comes to when it is told these replies, and so is its result (`Run.follows`); a
call fails only at a request that may panic.
-/

namespace Reveille

open Program (Path)

variable {D : Domain}

namespace Label

def told? (a : Actor) : Label D → Option (Exchange D.requests)
  | .moved b asked _ => if b = a then asked else none
  | .began _ => none

theorem told?_of_ne {asked : Option (Exchange D.requests)}
    {worked : Option (Exchange (Bus.Worker.requests (Receiver D) D.Event))} {a b : Actor} (h : b ≠ a) :
    (moved b asked worked).told? a = none := if_neg h

end Label

def told (a : Actor) (τ : List (Label D)) : List (Exchange D.requests) := τ.filterMap (Label.told? a)

namespace System

variable {c : Cast D} {s₀ s s' : System D} {τ : List (Label D)} {l : Label D} {a : Actor} {i : Nat}

theorem told_concat : told a (τ ++ [l]) = told a τ ++ (l.told? a).toList := by
  rw [told, List.filterMap_append]
  cases h : l.told? a <;> simp [h, told]

theorem began_concat : began (τ ++ [l]) = began τ ++ l.began?.toList := by
  rw [began, List.filterMap_append]
  cases h : l.began? <;> simp [h, began]

theorem told_quiet (h : l.told? a = none) : told a (τ ++ [l]) = told a τ := by
  rw [told_concat, h, Option.toList_none, List.append_nil]

theorem began_quiet (h : l.began? = none) : began (τ ++ [l]) = began τ := by
  rw [began_concat, h, Option.toList_none, List.append_nil]

/-- The call is what its routine comes to with these replies. -/
inductive Follows (r₀ : Routine D D.Result) (xs : List (Exchange D.requests)) : CallTask D → Prop
  | running {r : Routine D D.Result} (path : Path r₀ xs r) : Follows r₀ xs (.running r)
  | returned {v : D.Result} (path : Path r₀ xs (.done v)) : Follows r₀ xs (.ended (.ok v))
  | panicked {q : Request D} {rest : q.Reply → Routine D D.Result} {p : Panic}
      (path : Path r₀ xs (.ask q rest)) (panics : q.Panics) : Follows r₀ xs (.ended (.error p))

variable {r₀ : Routine D D.Result} {xs : List (Exchange D.requests)} {task : CallTask D}

theorem Follows.path (h : Follows r₀ xs task) : ∃ r, Path r₀ xs r := by
  cases h with
  | running path => exact ⟨_, path⟩
  | returned path => exact ⟨_, path⟩
  | panicked path panics => exact ⟨_, path⟩

theorem calls_of_result {r : Except Panic D.Result} (h : s.result? i = some r) :
    s.calls[i]? = some (.ended r) := by
  unfold result? at h
  split at h
  · next hi => cases h; exact hi
  · cases h

structure Followed (τ : List (Label D)) (s : System D) : Prop where
  length : s.calls.length = (began τ).length
  follows : ∀ i f, (began τ)[i]? = some f →
    ∃ task, s.calls[i]? = some task ∧ Follows f.routine (told (.call i) τ) task
  unborn : ∀ i, s.calls.length ≤ i → told (.call i) τ = []

theorem Followed.aside (h : Followed τ s) (began : l.began? = none)
    (told : ∀ i, l.told? (.call i) = none) (calls : s'.calls = s.calls) :
    Followed (τ ++ [l]) s' := by
  refine ⟨?_, ?_, ?_⟩
  · rw [calls, began_quiet began]
    exact h.length
  · intro i f hf
    rw [began_quiet began] at hf
    rw [calls, told_quiet (told _)]
    exact h.follows i f hf
  · intro i hi
    rw [told_quiet (told _)]
    exact h.unborn i (calls ▸ hi)

theorem Followed.call (h : Followed τ s) {asked : Option (Exchange D.requests)} {task' : CallTask D}
    (hi : s.calls[i]? = some task) (calls : s'.calls = s.calls.set i task')
    (goes : ∀ r₀ xs, Follows r₀ xs task → Follows r₀ (xs ++ asked.toList) task') :
    Followed (τ ++ [.moved (.call i) asked none]) s' := by
  have hlen := (List.getElem?_eq_some_iff.mp hi).1
  have began : (Label.moved (.call i) asked none : Label D).began? = none := rfl
  have other {j : Nat} (hj : i ≠ j) : told (.call j) (τ ++ [.moved (.call i) asked none]) =
      told (.call j) τ := told_quiet (Label.told?_of_ne fun h => hj (Actor.call.inj h))
  refine ⟨?_, ?_, ?_⟩
  · rw [calls, List.length_set, began_quiet began]
    exact h.length
  · intro j f hf
    rw [began_quiet began] at hf
    obtain ⟨task₀, htask, hfollows⟩ := h.follows j f hf
    rw [calls]
    by_cases hj : i = j
    · subst hj
      obtain rfl := Option.some.inj (hi.symm.trans htask)
      refine ⟨task', List.getElem?_set_self hlen, ?_⟩
      rw [told_concat, Label.told?, if_pos rfl]
      exact goes _ _ hfollows
    · rw [List.getElem?_set_ne hj, other hj]
      exact ⟨task₀, htask, hfollows⟩
  · intro j hj
    rw [calls, List.length_set] at hj
    rw [other (Nat.ne_of_lt (Nat.lt_of_lt_of_le hlen hj))]
    exact h.unborn j hj

theorem Aside.calls_eq (h : Aside (.runner i) s s') : s'.calls = s.calls :=
  List.ext_getElem? fun j => h.calls j nofun

/-- A step is one of a call, which goes on along its routine, or leaves the calls alone.  A call fails when its
request panics. -/
theorem calls_of_turn (turn : Turn c s l s') :
    (l.began? = none ∧ (∀ i, l.told? (.call i) = none) ∧ s'.calls = s.calls) ∨
    ∃ i asked task task', l = .moved (.call i) asked none ∧ s.calls[i]? = some task ∧
      s'.calls = s.calls.set i task' ∧
      (∀ r₀ xs, Follows r₀ xs task → Follows r₀ (xs ++ asked.toList) task') ∧
      ∀ p, task' = .ended (.error p) → asked = none ∧ ∃ q rest s₁, task = .running (.ask q rest) ∧
        s.perform c (.call i) q = some (.panicked p, s₁) := by
  have aside {a : Actor} {asked : Option (Exchange D.requests)}
      {work : Option (Exchange (Bus.Worker.requests (Receiver D) D.Event))} (ha : ∀ i, a ≠ .call i)
      (calls : s'.calls = s.calls) : (Label.moved a asked work).began? = none ∧
        (∀ i, (Label.moved a asked work).told? (.call i) = none) ∧ s'.calls = s.calls :=
    ⟨rfl, fun i => Label.told?_of_ne (ha i), calls⟩
  cases turn with
  | @callAsked i q rest reply s₁ task answer =>
    obtain ⟨-, hcalls, -⟩ := perform_frame answer
    refine Or.inr ⟨i, _, _, .running (rest reply), rfl, task, by rw [hcalls], fun r₀ xs hr => ?_, nofun⟩
    cases hr with
    | running path => exact .running (path.concat reply)
  | @callPanicked i q rest p s₁ task answer =>
    obtain ⟨-, hcalls, -⟩ := perform_frame answer
    refine Or.inr ⟨i, _, _, _, rfl, task, by rw [hcalls], fun r₀ xs hr => ?_, fun p' hp => ?_⟩
    · cases hr with
      | running path =>
        rw [Option.toList_none, List.append_nil]
        exact .panicked path (channel_of_panicked answer).1
    · cases hp
      exact ⟨rfl, q, rest, s₁, rfl, answer⟩
  | @callReturned i result task =>
    refine Or.inr ⟨i, _, _, .ended (.ok result), rfl, task, rfl, fun r₀ xs hr => ?_, nofun⟩
    cases hr with
    | running path =>
      rw [Option.toList_none, List.append_nil]
      exact .returned path
  | workerAsked routine answer => exact Or.inl (aside nofun (perform_frame answer).2.1)
  | workerPanicked routine answer panic => exact Or.inl (aside nofun (perform_frame answer).2.1)
  | workerReturned routine => exact Or.inl (aside nofun rfl)
  | workerServed idle source =>
    refine Or.inl (aside nofun ?_)
    obtain ⟨-, ⟨item, channel, -, rfl, -⟩ | ⟨-, rfl, -⟩⟩ := served_cases source <;> rfl
  | runnerAsked hired answer beside =>
    exact Or.inl (aside nofun (beside.calls_eq.trans (perform_frame answer).2.1))
  | runnerPanicked hired answer beside =>
    exact Or.inl (aside nofun (beside.calls_eq.trans (perform_frame answer).2.1))
  | runnerAlone hired beside => exact Or.inl (aside nofun beside.calls_eq)
  | runnerCancelled runner aborted => exact Or.inl (aside nofun rfl)

theorem Followed.turn (h : Followed τ s) (turn : Turn c s l s') : Followed (τ ++ [l]) s' := by
  rcases calls_of_turn turn with ⟨began, told, calls⟩ | ⟨i, asked, task, task', rfl, hi, calls, goes, -⟩
  · exact h.aside began told calls
  · exact h.call hi calls goes

theorem Run.follows (new : s₀.IsNew) (h : Run c s₀ τ s) : Followed τ s := by
  induction h with
  | refl =>
    refine ⟨?_, fun i f hf => ?_, fun _ _ => rfl⟩
    · rw [new.calls]
      rfl
    · cases hf
  | step before h ih => exact ih.turn (turn_of_step h)
  | @call τ s before f ih =>
    have told_eq : ∀ i, told (.call i) (τ ++ [.began f]) = told (.call i) τ := fun i => told_quiet rfl
    refine ⟨?_, fun i g hg => ?_, fun i hi => ?_⟩
    · rw [began_concat, Label.began?, Option.toList_some, List.length_append, ← ih.length]
      exact List.length_append
    · rw [began_concat, Label.began?, Option.toList_some] at hg
      rw [told_eq, start]
      by_cases hi : i < (began τ).length
      · rw [List.getElem?_append_left hi] at hg
        rw [List.getElem?_append_left (ih.length ▸ hi)]
        exact ih.follows i g hg
      · have hlast : i = (began τ).length := by
          have := (List.getElem?_eq_some_iff.mp hg).1
          rw [List.length_append, List.length_singleton] at this
          omega
        subst hlast
        rw [List.getElem?_concat_length] at hg
        cases hg
        rw [← ih.length, List.getElem?_concat_length, ih.unborn _ (Nat.le_refl _)]
        exact ⟨_, rfl, .running (.refl _)⟩
    · rw [told_eq]
      refine ih.unborn i (Nat.le_of_succ_le ?_)
      rwa [start, List.length_append, List.length_singleton] at hi
  | outside before h ih =>
    obtain ⟨hlength, hfollows, hunborn⟩ := ih
    rw [← h.calls] at *
    exact ⟨hlength, hfollows, hunborn⟩

/-- From wherever it is, a call goes on along its routine. -/
theorem Run.pursues (h : Run c s₀ τ s) (hi : s₀.calls[i]? = some (.running r₀)) :
    ∃ task, s.calls[i]? = some task ∧ Follows r₀ (told (.call i) τ) task := by
  induction h with
  | refl => exact ⟨_, hi, .running (.refl _)⟩
  | step before h ih =>
    obtain ⟨task, htask, follows⟩ := ih
    rw [told_concat]
    rcases calls_of_turn (turn_of_step h) with
      ⟨-, told, calls⟩ | ⟨j, asked, task₀, task', hl, hj, calls, goes, -⟩
    · rw [told, Option.toList_none, List.append_nil, calls]
      exact ⟨task, htask, follows⟩
    · rw [hl, calls]
      by_cases hij : j = i
      · subst hij
        obtain rfl := Option.some.inj (hj.symm.trans htask)
        refine ⟨task', List.getElem?_set_self (List.getElem?_eq_some_iff.mp hj).1, ?_⟩
        rw [Label.told?, if_pos rfl]
        exact goes _ _ follows
      · refine ⟨task, (List.getElem?_set_ne hij).trans htask, ?_⟩
        rwa [Label.told?_of_ne fun h => hij (Actor.call.inj h), Option.toList_none, List.append_nil]
  | call before f ih =>
    obtain ⟨task, htask, follows⟩ := ih
    rw [told_quiet rfl]
    refine ⟨task, ?_, follows⟩
    rwa [start, List.getElem?_append_left (List.getElem?_eq_some_iff.mp htask).1]
  | outside before h ih => rwa [h.calls]

/-- The first part of a call is over, or the call is at one of its requests. -/
theorem Run.underway {α : Type} {r : Routine D α} {g : α → Routine D D.Result} (h : Run c s₀ τ s)
    (hi : s₀.calls[i]? = some (.running (r.bind g))) :
    (∃ xs ys v, told (.call i) τ = xs ++ ys ∧ Path r xs (.done v)) ∨
    ∃ q rest, Path r (told (.call i) τ) (.ask q rest) ∧
      (q.Panics ∧ (∃ p, s.calls[i]? = some (.ended (.error p))) ∨
        s.calls[i]? = some (.running ((Program.ask q rest).bind g))) := by
  obtain ⟨task, htask, follows⟩ := h.pursues hi
  obtain ⟨r', path⟩ := follows.path
  rcases path.of_bind with ⟨q, rest, waits, rfl⟩ | ⟨v, xs, ys, htold, ends, -⟩
  · refine Or.inr ⟨q, rest, waits, ?_⟩
    cases follows with
    | running path' => exact Or.inr (path'.functional path ▸ htask)
    | returned path' => cases path'.functional path
    | panicked path' panics =>
      cases path'.functional path
      exact Or.inl ⟨panics, _, htask⟩
  · exact Or.inl ⟨xs, ys, v, htold, ends⟩

end System

end Reveille
