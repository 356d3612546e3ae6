import Reveille.Proofs.System.Career
import Reveille.Proofs.System.Traffic

/-!
# What an aborted runner still does

To abort a runner is only to ask for its end.  A runner that waits then is dropped when it is its turn again,
but one that is at work cannot be interrupted: it goes on until it has to wait, and its momentum says for how
many steps at most.

An aborted runner uses up its momentum with every step, or ends with it (`Aborted.step`).  So it makes no more
steps than it has left (`Observed.leftover`), and nobody has to wait for it.
-/

namespace Reveille.System

variable {D : Domain} {c : Cast D} {s s' : System D} {a : Actor} {i : Nat} {t : RunnerTask D}
  {τ : List (Label D)} {ρ : List (Exchange (Duties D))} {momentum : Nat → Nat}

/-- A runner that was aborted, dropped or not yet. -/
def Aborted (s : System D) (i : Nat) : Prop := ∃ t, s.runners[i]? = some t ∧ t.aborted = true

theorem Aborted.later (h : Aborted s i) (run : Run c s τ s') : Aborted s' i := by
  obtain ⟨t, ht, aborted⟩ := h
  obtain ⟨t', ht', onward⟩ := run.onward ht
  exact ⟨t', ht', onward.aborted aborted⟩

/-- The steps that an aborted runner makes at most, with the one in which it is dropped. -/
def stepsLeft (s : System D) (i : Nat) : Nat := if s.isRunning i then s.momentum i + 1 else 0

theorem stepsLeft_le : s.stepsLeft i ≤ s.momentum i + 1 := by
  unfold stepsLeft
  split
  · exact Nat.le_refl _
  · exact Nat.zero_le _

theorem stepsLeft_of_fallen (h : Fallen s i) : s.stepsLeft i = 0 := by
  rw [stepsLeft, not_running_of_fallen h]
  rfl

/-! ### One step -/

theorem Paced.others {j : Nat} (h : Paced s j t momentum) (hij : i ≠ j) : momentum i = s.momentum i := by
  cases h with
  | free kept => rfl
  | spent left => exact if_neg hij

/-- Nobody else uses up the momentum of a runner. -/
theorem momentum_of_step (h : s.step c a = some s') (ha : a ≠ .runner i) :
    s'.momentum i = s.momentum i := by
  cases a with
  | worker =>
    have turn := turn_of_step h
    generalize hl : s.label c .worker = l at turn
    cases turn with
    | workerAsked routine answer | workerPanicked routine answer panic =>
      exact congrFun (momentum_of_perform answer) i
    | workerReturned routine => rfl
    | workerServed idle source =>
      obtain ⟨-, ⟨item, channel, -, rfl, -⟩ | ⟨-, rfl, -⟩⟩ := served_cases source <;> rfl
    | _ => cases hl
  | call k =>
    have turn := turn_of_step h
    generalize hl : s.label c (.call k) = l at turn
    cases turn with
    | callAsked task answer | callPanicked task answer => exact congrFun (momentum_of_perform answer) i
    | callReturned task => rfl
    | _ => cases hl
  | runner j =>
    obtain ⟨t, -, -, turn⟩ := runnerTurn_of_step h
    have hij : i ≠ j := fun h => ha (congrArg Actor.runner h.symm)
    generalize s.asked? c (.runner j) = asked at turn
    generalize s.replied? c j (.runner j) = replied at turn
    cases turn with
    | cancelled aborted => rfl
    | asked _ _ pace | panicked _ _ pace | returned _ pace | served _ _ pace | timed _ _ pace =>
      exact pace.others hij

/-- Who has momentum left and was not dropped has used up some of it. -/
theorem Paced.used (h : Paced s i t momentum) (aborted : t.aborted = true) :
    momentum i + 1 = s.momentum i := by
  cases h with
  | free kept => exact absurd (aborted.symm.trans kept) nofun
  | spent left => exact (congrArg (· + 1) (if_pos rfl)).trans left.symm

/-- An aborted runner goes on with something, and has less momentum then, or it is dropped. -/
theorem Aborted.step (h : Aborted s i) (hs : s.step c (.runner i) = some s') :
    (s'.momentum i + 1 = s.momentum i ∧
      (s.asked? c (.runner i)).toList.length + (s.replied? c i (.runner i)).toList.length ≤ 1) ∨
    s' = s.cancel i ∧ s.asked? c (.runner i) = none ∧ s.replied? c i (.runner i) = none := by
  obtain ⟨t, ht, aborted⟩ := h
  obtain ⟨t', ht', -, turn⟩ := runnerTurn_of_step hs
  obtain rfl := Option.some.inj (ht.symm.trans ht')
  generalize s.asked? c (.runner i) = asked at turn ⊢
  generalize s.replied? c i (.runner i) = replied at turn ⊢
  cases turn with
  | asked _ _ pace | returned _ pace | served _ _ pace =>
    exact Or.inl ⟨pace.used aborted, Nat.le_refl 1⟩
  | panicked _ _ pace | timed _ _ pace => exact Or.inl ⟨pace.used aborted, Nat.zero_le 1⟩
  | cancelled aborted => exact Or.inr ⟨rfl, rfl, rfl⟩

theorem fallen_cancel (h : Aborted s i) : Fallen (s.cancel i) i := by
  obtain ⟨t, ht, -⟩ := h
  exact ⟨_, runners_cancel ht, Option.some_ne_none _⟩

/-- In the step of somebody else it keeps what it has left. -/
theorem Aborted.stepsLeft_le (h : Aborted s i) (fallen : Fallen s i → Fallen s' i)
    (same : s'.momentum i = s.momentum i) : s'.stepsLeft i ≤ s.stepsLeft i := by
  cases running : s.isRunning i with
  | true =>
    rw [show s.stepsLeft i = s.momentum i + 1 from if_pos running, ← same]
    exact System.stepsLeft_le
  | false =>
    obtain ⟨t, ht, -⟩ := h
    rw [stepsLeft_of_fallen (fallen (fallen_of_not_running ht running))]
    exact Nat.zero_le _

/-! ### Runs -/

/-- What an aborted runner has done, it has used up. -/
theorem Observed.used (h : Aborted s i) (after : Observed c s i τ ρ s') :
    (told (.runner i) τ).length + ρ.length + s'.momentum i ≤ s.momentum i ∧
      τ.countP (·.actor? == some (.runner i)) + s'.stepsLeft i ≤ s.stepsLeft i := by
  induction after with
  | refl => exact ⟨by simp [told], by simp⟩
  | @step τ ρ m m' after a hs ih =>
    obtain ⟨goes, steps⟩ := ih
    have aborted := h.later after.run
    obtain ⟨asked, work, hlabel, -⟩ := stride_of_step hs
    by_cases ha : a = .runner i
    · subst ha
      have hmoves : (m.label c (.runner i)).actor? = some (.runner i) := by rw [hlabel]; rfl
      have htold : (m.label c (.runner i)).told? (.runner i) = m.asked? c (.runner i) := if_pos rfl
      have left : m.stepsLeft i = m.momentum i + 1 := if_pos (running_of_step hs i rfl)
      rw [told_concat, htold, List.countP_append, List.countP_singleton, hmoves]
      simp only [List.length_append, beq_self_eq_true, if_true]
      rcases aborted.step hs with ⟨used, one⟩ | ⟨rfl, hasked, hreplied⟩
      · have most := stepsLeft_le (s := m') (i := i)
        omega
      · rw [stepsLeft_of_fallen (fallen_cancel aborted), hasked, hreplied]
        rw [show (m.cancel i).momentum = m.momentum from rfl]
        simp only [Option.toList_none, List.length_nil]
        omega
    · have hmoves : (m.label c a).actor? ≠ some (.runner i) := by
        rw [hlabel]
        exact fun h => ha (Option.some.inj h)
      have hquiet : (m.label c a).told? (.runner i) = none := by
        rw [hlabel]
        exact Label.told?_of_ne ha
      have same := momentum_of_step hs ha
      have left := aborted.stepsLeft_le (fun fallen => fallen.step hs) same
      rw [told_quiet hquiet, replied?_of_ne ha, Option.toList_none, List.append_nil, same,
        List.countP_append, List.countP_singleton, if_neg (by simpa using hmoves)]
      exact ⟨goes, by omega⟩
  | call after f ih =>
    rw [told_quiet rfl, List.countP_append]
    exact ih
  | @outside τ ρ m m' after elsewhere ih =>
    have running : m'.isRunning i = m.isRunning i := by simp only [isRunning, elsewhere.runners]
    have same : m'.stepsLeft i = m.stepsLeft i := by
      rw [stepsLeft, stepsLeft, running, elsewhere.momentum]
    rw [same, elsewhere.momentum]
    exact ih

end Reveille.System
