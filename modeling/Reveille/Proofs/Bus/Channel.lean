import Mathlib.Data.List.Nodup
import Reveille.Bus.Channel

/-!
# Slots of the queue

A sender on the way either waits or holds a slot, once, and nobody waits while a slot is free
(`Channel.Fair`).  Every operation keeps this, and only moves senders from the waiting line to the
slots, so that a sender stays on the way until it commits.
-/

namespace Reveille.Bus.Channel

variable {T C : Type}

/-- The sender asked for a slot and has not used it. -/
def OnWay (c : Channel T C) (t : T) : Prop := t ∈ c.waiting ++ c.granted

structure Fair (c : Channel T C) : Prop where
  positive : 0 < c.capacity
  nodup : (c.waiting ++ c.granted).Nodup
  full : c.waiting ≠ [] → c.free = 0

variable {c : Channel T C} {t u : T} {item : C}

theorem fair_empty (capacity : Nat) : (empty capacity : Channel T C).Fair where
  positive := Nat.lt_of_lt_of_le Nat.one_pos (Nat.le_max_right _ _)
  nodup := List.nodup_nil
  full h := absurd rfl h

/-! ### What every operation answers -/

theorem enter_eq_some {left : Channel T C} : c.enter t = some left ↔
    c.accepting = true ∧ left = { c with entered := t :: c.entered } := by
  unfold enter
  split
  · next h => simp [h, eq_comm]
  · next h => simp [h]

theorem enter_eq_none : c.enter t = none ↔ c.accepting = false := by
  unfold enter
  split <;> simp_all

theorem trySend_cases (c : Channel T C) (item : C) :
    (c.accepting = true ∧ c.listening = true ∧ c.free ≠ 0 ∧
      c.trySend item = .ok { c with queue := c.queue ++ [item] }) ∨
    (c.accepting = true ∧ c.listening = true ∧ c.free = 0 ∧ c.trySend item = .error .full) ∨
    ((c.accepting = false ∨ c.listening = false) ∧ c.trySend item = .error .closed) := by
  unfold trySend
  cases c.accepting <;> cases c.listening <;> by_cases h : c.free = 0 <;> simp [h]

theorem take_eq_item {left : Channel T C} : c.take = .item item left ↔
    ∃ rest, c.queue = item :: rest ∧ left = { c with queue := rest }.promote := by
  unfold take
  cases hqueue : c.queue with
  | nil => by_cases h : (c.accepting || !c.senders.isEmpty) = true <;> simp [h]
  | cons head rest => simp [eq_comm]

theorem take_eq_nothingYet : c.take = .nothingYet ↔
    c.queue = [] ∧ (c.accepting = true ∨ c.senders ≠ []) := by
  unfold take
  cases hqueue : c.queue with
  | nil => by_cases h : c.accepting = true ∨ c.senders ≠ [] <;> simp_all
  | cons head rest => simp

theorem take_eq_ended : c.take = .ended ↔ c.queue = [] ∧ c.accepting = false ∧ c.senders = [] := by
  unfold take
  cases hqueue : c.queue with
  | nil => by_cases h : c.accepting = false ∧ c.senders = [] <;> simp_all
  | cons head rest => simp

theorem close_of_closed (h : c.accepting = false) : c.close = c := by
  rw [close, ← h]

theorem promote_cases :
    (c.promote = c ∧ (c.waiting = [] ∨ c.free = 0)) ∨
      ∃ t ts, c.waiting = t :: ts ∧ 0 < c.free ∧
        c.promote = { c with waiting := ts, granted := c.granted ++ [t] } := by
  unfold promote
  split
  · next h => exact Or.inl ⟨rfl, Or.inl h⟩
  · next t ts h =>
    split
    · next hfree => exact Or.inr ⟨t, ts, h, hfree, rfl⟩
    · next hfree => exact Or.inl ⟨rfl, Or.inr (Nat.eq_zero_of_not_pos hfree)⟩

theorem promote_same : c.promote.capacity = c.capacity ∧ c.promote.queue = c.queue ∧
    c.promote.accepting = c.accepting ∧ c.promote.listening = c.listening := by
  rcases promote_cases (c := c) with ⟨h, -⟩ | ⟨t, ts, -, -, h⟩ <;> rw [h] <;>
    exact ⟨rfl, rfl, rfl, rfl⟩

theorem promote_entered : c.promote.entered = c.entered := by
  rcases promote_cases (c := c) with ⟨h, -⟩ | ⟨t, ts, -, -, h⟩ <;> rw [h]

theorem promote_perm :
    (c.promote.waiting ++ c.promote.granted).Perm (c.waiting ++ c.granted) := by
  rcases promote_cases (c := c) with ⟨h, -⟩ | ⟨t, ts, hw, -, h⟩
  · rw [h]
  · rw [h, hw]
    show (ts ++ (c.granted ++ [t])).Perm (t :: (ts ++ c.granted))
    rw [← List.append_assoc]
    exact List.perm_append_singleton t (ts ++ c.granted)

theorem promote_granted (h : t ∈ c.granted) : t ∈ c.promote.granted := by
  rcases promote_cases (c := c) with ⟨h', -⟩ | ⟨u, ts, -, -, h'⟩
  · rw [h']
    exact h
  · rw [h']
    exact List.mem_append_left _ h

/-- With at most one free slot, or one sender waiting, promoting leaves nobody waiting in vain. -/
theorem promote_full (h : c.waiting.length ≤ 1 ∨ c.free ≤ 1) :
    c.promote.waiting ≠ [] → c.promote.free = 0 := by
  rcases promote_cases (c := c) with ⟨h', hc⟩ | ⟨u, ts, hw, hfree, h'⟩
  · rw [h']
    exact hc.resolve_left
  · rw [h']
    intro hts
    simp only [free, List.length_append, List.length_singleton] at hfree ⊢
    rw [hw] at h
    rcases h with h | h
    · exact absurd (List.eq_nil_of_length_eq_zero (by simpa using h)) hts
    · simp only [free] at h
      omega

theorem queue_of_take {left : Channel T C} (h : c.take = .item item left) :
    c.queue = item :: left.queue ∧ left.accepting = c.accepting ∧ left.listening = c.listening := by
  obtain ⟨rest, hq, rfl⟩ := take_eq_item.mp h
  obtain ⟨-, hqueue, haccepting, hlistening⟩ := promote_same (c := { c with queue := rest })
  rw [hqueue, hq]
  exact ⟨rfl, haccepting, hlistening⟩

theorem entered_take {left : Channel T C} (h : c.take = .item item left) :
    left.entered = c.entered := by
  obtain ⟨rest, -, rfl⟩ := take_eq_item.mp h
  exact promote_entered

theorem Fair.take {left : Channel T C} (h : c.Fair) (ht : c.take = .item item left) :
    left.Fair ∧ (∀ t, left.OnWay t ↔ c.OnWay t) ∧ ∀ t ∈ c.granted, t ∈ left.granted := by
  obtain ⟨rest, hq, rfl⟩ := take_eq_item.mp ht
  have hpositive : 0 < ({ c with queue := rest } : Channel T C).promote.capacity := by
    rw [promote_same.1]
    exact h.positive
  have hperm := promote_perm (c := { c with queue := rest })
  refine ⟨⟨hpositive, hperm.nodup_iff.mpr h.nodup, promote_full ?_⟩, fun t => hperm.mem_iff,
    fun t ht => promote_granted ht⟩
  by_cases hw : c.waiting = []
  · exact Or.inl (by simp [hw])
  · right
    have := h.full hw
    simp only [free, hq, List.length_cons] at this ⊢
    omega

theorem Fair.addItem (h : c.Fair) : { c with queue := c.queue ++ [item] }.Fair where
  positive := h.positive
  nodup := h.nodup
  full hw := by
    have := h.full hw
    simp only [free, List.length_append, List.length_singleton] at this ⊢
    omega

variable [DecidableEq T]

theorem slot?_eq_true : c.slot? t = some true ↔ c.listening = true ∧ t ∈ c.granted := by
  unfold slot?
  cases c.listening <;> by_cases h : t ∈ c.granted <;> simp [h]

theorem slot?_eq_false : c.slot? t = some false ↔ c.listening = false := by
  unfold slot?
  cases c.listening <;> by_cases h : t ∈ c.granted <;> simp [h]

theorem commit_of_accepting (h : c.accepting = true) : c.commit t item =
    { c with queue := c.queue ++ [item], granted := c.granted.erase t } :=
  if_pos h

theorem withdraw_same : (c.withdraw t).capacity = c.capacity ∧ (c.withdraw t).queue = c.queue ∧
    (c.withdraw t).accepting = c.accepting ∧ (c.withdraw t).listening = c.listening :=
  promote_same

theorem commit_of_closed (h : c.accepting = false) : c.commit t item = c.withdraw t :=
  if_neg (by rw [h]; decide)

theorem Fair.requestSlot (h : c.Fair) (ht : ¬ c.OnWay t) :
    (c.requestSlot t).Fair ∧ (∀ u, (c.requestSlot t).OnWay u ↔ u = t ∨ c.OnWay u) ∧
      ∀ u ∈ c.granted, u ∈ (c.requestSlot t).granted := by
  let c' : Channel T C := { c with entered := c.entered.erase t, waiting := c.waiting ++ [t] }
  have hperm : (c'.promote.waiting ++ c'.promote.granted).Perm (t :: (c.waiting ++ c.granted)) := by
    refine (promote_perm (c := c')).trans ?_
    show (c.waiting ++ [t] ++ c.granted).Perm _
    rw [List.append_assoc]
    exact List.perm_middle
  have hpositive : 0 < c'.promote.capacity := by
    rw [promote_same.1]
    exact h.positive
  refine ⟨⟨hpositive, hperm.nodup_iff.mpr (List.nodup_cons.mpr ⟨ht, h.nodup⟩),
    promote_full ?_⟩, fun u => hperm.mem_iff.trans List.mem_cons, fun u hu => promote_granted hu⟩
  by_cases hw : c.waiting = []
  · exact Or.inl (by simp [hw])
  · exact Or.inr (Nat.le_trans (Nat.le_of_eq (h.full hw)) (Nat.zero_le 1))

theorem Fair.commit (h : c.Fair) (ht : t ∈ c.granted) :
    { c with queue := c.queue ++ [item], granted := c.granted.erase t }.Fair ∧
      ∀ u, ({ c with queue := c.queue ++ [item], granted := c.granted.erase t } :
        Channel T C).OnWay u ↔ u ≠ t ∧ c.OnWay u := by
  obtain ⟨hw, hg, hdisjoint⟩ := List.nodup_append.mp h.nodup
  have htw : t ∉ c.waiting := fun hm => hdisjoint t hm t ht rfl
  refine ⟨⟨h.positive, ?_, fun hne => ?_⟩, fun u => ?_⟩
  · refine List.nodup_append.mpr ⟨hw, hg.erase t, fun a ha b hb => hdisjoint a ha b ?_⟩
    exact List.mem_of_mem_erase hb
  · have := h.full hne
    have := List.length_erase_of_mem ht
    have := List.length_pos_of_mem ht
    simp only [free, List.length_append, List.length_singleton] at *
    omega
  · simp only [OnWay, List.mem_append, hg.mem_erase_iff]
    constructor
    · rintro (hu | ⟨hne, hu⟩)
      · exact ⟨fun he => htw (he ▸ hu), Or.inl hu⟩
      · exact ⟨hne, Or.inr hu⟩
    · rintro ⟨hne, hu | hu⟩
      · exact Or.inl hu
      · exact Or.inr ⟨hne, hu⟩

/-- Whoever is taken off is not on the way any more; the others are where they were, or have got the
slot. -/
theorem Fair.withdraw (h : c.Fair) (t : T) :
    (c.withdraw t).Fair ∧ (∀ u, (c.withdraw t).OnWay u ↔ u ≠ t ∧ c.OnWay u) ∧
      ∀ u, u ≠ t → u ∈ c.granted → u ∈ (c.withdraw t).granted := by
  let c' : Channel T C := { c with
    entered := c.entered.erase t, waiting := c.waiting.erase t, granted := c.granted.erase t }
  obtain ⟨hw, hg, hdisjoint⟩ := List.nodup_append.mp h.nodup
  have hnodup : (c'.waiting ++ c'.granted).Nodup := by
    refine List.nodup_append.mpr ⟨hw.erase t, hg.erase t, fun a ha b hb => ?_⟩
    exact hdisjoint a (List.mem_of_mem_erase ha) b (List.mem_of_mem_erase hb)
  have hperm := promote_perm (c := c')
  have hpositive : 0 < c'.promote.capacity := by
    rw [promote_same.1]
    exact h.positive
  refine ⟨⟨hpositive, hperm.nodup_iff.mpr hnodup, promote_full ?_⟩, fun u => ?_, fun u hu hug => ?_⟩
  · by_cases hwaiting : c.waiting = []
    · left
      show (c.waiting.erase t).length ≤ 1
      rw [hwaiting]
      exact Nat.zero_le 1
    · right
      have hfull := h.full hwaiting
      have hlen : c.granted.length - 1 ≤ (c.granted.erase t).length := by
        rw [List.length_erase]
        split <;> omega
      simp only [free] at hfull ⊢
      show c.capacity - (c.queue.length + (c.granted.erase t).length) ≤ 1
      omega
  · refine hperm.mem_iff.trans ?_
    show u ∈ c.waiting.erase t ++ c.granted.erase t ↔ _
    rw [List.mem_append, hw.mem_erase_iff, hg.mem_erase_iff, OnWay, List.mem_append, and_or_left]
  · exact promote_granted ((List.mem_erase_of_ne hu).mpr hug)

theorem entered_withdraw (t : T) : (c.withdraw t).entered = c.entered.erase t := promote_entered

theorem entered_requestSlot (t : T) : (c.requestSlot t).entered = c.entered.erase t := promote_entered

end Reveille.Bus.Channel
