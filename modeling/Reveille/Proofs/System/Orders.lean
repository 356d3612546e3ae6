import Reveille.Proofs.System.Stride

/-!
# What a request does to a runner

Whoever makes a request, it changes at most one runner, and of this runner only what others may change:
its inbox, how far it was started, whether it is asked to stop, and whether it was aborted
(`Request.upon`).  A step changes a runner just as the request does that was answered in it, but for what
the runner itself does (`runner_of_turn`).
-/

namespace Reveille

variable {D : Domain}

structure RunnerTask.Onward (t t' : RunnerTask D) : Prop where
  service : t'.service = t.service
  launched : t.launched = true → t'.launched = true
  released : t.released = true → t'.released = true
  stopRequested : t.stopRequested = true → t'.stopRequested = true
  aborted : t.aborted = true → t'.aborted = true

theorem RunnerTask.Onward.refl (t : RunnerTask D) : t.Onward t := ⟨rfl, id, id, id, id⟩

theorem RunnerTask.Onward.trans {t t' t'' : RunnerTask D} (h : t.Onward t') (h' : t'.Onward t'') :
    t.Onward t'' :=
  ⟨h'.service.trans h.service, h'.launched ∘ h.launched, h'.released ∘ h.released,
    h'.stopRequested ∘ h.stopRequested, h'.aborted ∘ h.aborted⟩

namespace System

variable {c : Cast D} {a b : Actor} {s s' s₁ : System D} {i : Nat} {t : RunnerTask D}
  {q : Request D}

/-- What an answered request makes of runner `i`. -/
def Request.upon (i : Nat) : (q : Request D) → q.Reply → RunnerTask D → RunnerTask D
  | .push j e, (pushed : Bool), t =>
    if pushed && j == i then { t with inbox := t.inbox ++ [e] } else t
  | .launch j, _, t => if j = i then { t with launched := true } else t
  | .release j, _, t => if j = i then { t with released := true } else t
  | .requestStop j, _, t => if j = i then { t with stopRequested := true } else t
  | .abort j, _, t => if j = i then { t with aborted := true } else t
  | _, _, t => t

theorem modified_eq {j : Nat} {f : RunnerTask D → RunnerTask D} (ht : s.runners[i]? = some t) :
    (s.runners.modify j f)[i]? = some (if j = i then f t else t) := by
  rw [List.getElem?_modify, ht]
  by_cases hj : j = i <;> simp [hj]

theorem isRunning_eq_isNone (ht : s.runners[i]? = some t) : s.isRunning i = t.ending.isNone := by
  rw [isRunning, ht]

/-- An answered request does to a runner what it says. -/
theorem upon_of_perform {reply : q.Reply} (h : s.perform c a q = some (.reply reply, s'))
    (ht : s.runners[i]? = some t) : s'.runners[i]? = some (q.upon i reply t) := by
  cases performed_of_perform h with
  | readTime source => cases source <;> exact ht
  | @pushed j _ e =>
    refine (modified_eq ht).trans ?_
    by_cases hj : j = i <;> simp [Request.upon, hj]
  | hired service => exact (List.getElem?_append_left (List.getElem?_eq_some_iff.mp ht).1).trans ht
  | launched | released | stopRequested | aborted => exact modified_eq ht
  | _ => exact ht

inductive Request.Changes (i : Nat) (t : RunnerTask D) : Request D → RunnerTask D → Prop
  | nothing (q : Request D) : Request.Changes i t q t
  | pushed (e : D.Event) : Request.Changes i t (.push i e) { t with inbox := t.inbox ++ [e] }
  | launched : Request.Changes i t (.launch i) { t with launched := true }
  | released : Request.Changes i t (.release i) { t with released := true }
  | stopRequested : Request.Changes i t (.requestStop i) { t with stopRequested := true }
  | aborted : Request.Changes i t (.abort i) { t with aborted := true }

theorem changes_upon (q : Request D) (i : Nat) (reply : q.Reply) (t : RunnerTask D) :
    q.Changes i t (q.upon i reply t) := by
  cases q with
  | push j e =>
    simp only [Request.upon]
    split
    · next h =>
      obtain rfl : j = i := by simpa using (Bool.and_eq_true_iff.mp h).2
      exact .pushed e
    · exact .nothing _
  | launch j =>
    by_cases hj : j = i
    · subst hj
      simpa [Request.upon] using .launched
    · simpa [Request.upon, hj] using .nothing _
  | release j =>
    by_cases hj : j = i
    · subst hj
      simpa [Request.upon] using .released
    · simpa [Request.upon, hj] using .nothing _
  | requestStop j =>
    by_cases hj : j = i
    · subst hj
      simpa [Request.upon] using .stopRequested
    · simpa [Request.upon, hj] using .nothing _
  | abort j =>
    by_cases hj : j = i
    · subst hj
      simpa [Request.upon] using .aborted
    · simpa [Request.upon, hj] using .nothing _
  | _ => exact .nothing _

/-- Whatever is requested, a runner keeps its service, its machine and its routine. -/
theorem upon_eq (q : Request D) (i : Nat) (reply : q.Reply) (t : RunnerTask D) :
    ∃ inbox launched released stopRequested aborted,
      q.upon i reply t = { t with inbox, launched, released, stopRequested, aborted } := by
  have changes := changes_upon q i reply t
  generalize q.upon i reply t = t' at changes ⊢
  cases changes <;> exact ⟨_, _, _, _, _, rfl⟩

theorem runners_of_panicked {p : Panic} (h : s.perform c a q = some (.panicked p, s')) :
    s'.runners = s.runners := by
  cases performed_of_perform h <;> rfl

/-! ### The fields of a runner -/

section
variable {reply : q.Reply}

@[simp] theorem machine_upon : (q.upon i reply t).machine = t.machine := by
  obtain ⟨_, _, _, _, _, h⟩ := upon_eq q i reply t
  rw [h]

theorem pending_upon : (q.upon i reply t).pending = none ↔ t.pending = none := by
  obtain ⟨_, _, _, _, _, h⟩ := upon_eq q i reply t
  rw [h]

/-- Nobody is brought to an end by a request. -/
@[simp] theorem ending_upon : (q.upon i reply t).ending = t.ending := by
  obtain ⟨_, _, _, _, _, h⟩ := upon_eq q i reply t
  rw [h]

/-- Whatever is requested of a runner, nobody takes it back. -/
theorem onward_upon : t.Onward (q.upon i reply t) := by
  have changes := changes_upon q i reply t
  generalize q.upon i reply t = t' at changes ⊢
  cases changes with
  | launched => exact ⟨rfl, fun _ => rfl, id, id, id⟩
  | released => exact ⟨rfl, id, fun _ => rfl, id, id⟩
  | stopRequested => exact ⟨rfl, id, id, fun _ => rfl, id⟩
  | aborted => exact ⟨rfl, id, id, id, fun _ => rfl⟩
  | nothing | pushed => exact ⟨rfl, id, id, id, id⟩

theorem launched_of_upon (h : (q.upon i reply t).launched = true) :
    t.launched = true ∨ q = .launch i := by
  have changes := changes_upon q i reply t
  generalize q.upon i reply t = t' at changes h
  cases changes with
  | launched => exact Or.inr rfl
  | _ => exact Or.inl h

theorem stopRequested_of_upon (h : (q.upon i reply t).stopRequested = true) :
    t.stopRequested = true ∨ q = .requestStop i := by
  have changes := changes_upon q i reply t
  generalize q.upon i reply t = t' at changes h
  cases changes with
  | stopRequested => exact Or.inr rfl
  | _ => exact Or.inl h

theorem aborted_of_upon (h : (q.upon i reply t).aborted = true) : t.aborted = true ∨ q = .abort i := by
  have changes := changes_upon q i reply t
  generalize q.upon i reply t = t' at changes h
  cases changes with
  | aborted => exact Or.inr rfl
  | _ => exact Or.inl h

end

/-! ### Steps of others -/

/-- The step of somebody else is an answered request, as far as a runner goes, or leaves it alone. -/
theorem Turn.elsewhere {asked : Option (Exchange D.requests)}
    {work : Option (Exchange (Bus.Worker.requests (Receiver D) D.Event))}
    (h : Turn c s (.moved a asked work) s') (ha : a ≠ .runner i) :
    (∃ q reply s₁, asked = some ⟨q, reply⟩ ∧ s.perform c a q = some (.reply reply, s₁) ∧
      s'.runners[i]? = s₁.runners[i]?) ∨
    asked = none ∧ s'.runners[i]? = s.runners[i]? := by
  cases h with
  | callAsked task answer => exact Or.inl ⟨_, _, _, rfl, answer, rfl⟩
  | callPanicked task answer =>
    have same := runners_of_panicked answer
    exact Or.inr ⟨rfl, congrArg (·[i]?) same⟩
  | callReturned task => exact Or.inr ⟨rfl, rfl⟩
  | workerAsked routine answer => exact Or.inl ⟨_, _, _, rfl, answer, rfl⟩
  | workerPanicked routine answer panic =>
    have same := runners_of_panicked answer
    exact Or.inr ⟨rfl, congrArg (·[i]?) same⟩
  | workerReturned routine => exact Or.inr ⟨rfl, rfl⟩
  | workerServed idle source =>
    obtain ⟨-, ⟨item, channel, -, rfl, -⟩ | ⟨-, rfl, -⟩⟩ := served_cases source <;>
      exact Or.inr ⟨rfl, rfl⟩
  | runnerAsked hired answer aside => exact Or.inl ⟨_, _, _, rfl, answer, aside.runners i ha⟩
  | runnerPanicked hired answer aside =>
    have same := runners_of_panicked answer
    exact Or.inr ⟨rfl, (aside.runners i ha).trans (congrArg (·[i]?) same)⟩
  | runnerAlone hired aside => exact Or.inr ⟨rfl, aside.runners i ha⟩
  | runnerCancelled ht aborted => exact Or.inr ⟨rfl, runners_cancel_ne fun h => ha (congrArg Actor.runner h)⟩

/-- What is left of a runner after the step of somebody else. -/
theorem runner_of_turn {asked : Option (Exchange D.requests)}
    {work : Option (Exchange (Bus.Worker.requests (Receiver D) D.Event))}
    (h : Turn c s (.moved a asked work) s') (ha : a ≠ .runner i) (ht : s.runners[i]? = some t) :
    asked = none ∧ s'.runners[i]? = some t ∨
      ∃ q reply, asked = some ⟨q, reply⟩ ∧ s'.runners[i]? = some (q.upon i reply t) := by
  rcases h.elsewhere ha with ⟨q, reply, s₁, rfl, answer, hsame⟩ | ⟨rfl, hsame⟩
  · exact Or.inr ⟨q, reply, rfl, hsame.trans (upon_of_perform answer ht)⟩
  · exact Or.inl ⟨rfl, hsame.trans ht⟩

/-- Who was not there before the step of somebody else is new. -/
theorem new_of_step {asked : Option (Exchange D.requests)}
    {work : Option (Exchange (Bus.Worker.requests (Receiver D) D.Event))}
    (h : Turn c s (.moved a asked work) s') (ha : a ≠ .runner i) (unborn : s.runners[i]? = none)
    (ht : s'.runners[i]? = some t) :
    t = { service := t.service, machine := .init (c.service t.service).jitter } := by
  rcases h.elsewhere ha with ⟨q, reply, s₁, rfl, answer, hsame⟩ | ⟨rfl, hsame⟩
  · rw [hsame] at ht
    rcases (treated_of_perform answer).before ht with ⟨t₀, _, _, _, _, _, ht₀, -⟩ | hnew
    · rw [unborn] at ht₀
      cases ht₀
    · exact hnew
  · rw [hsame, unborn] at ht
    cases ht

end System

end Reveille
