import Reveille.Proofs.Bus.Channel

/-!
# How many slots are in use

A slot is in use while it holds an item, or while a sender holds it (`Channel.used`).  No operation takes more
slots than there are, as long as nobody commits without a slot.  Whoever gives up while holding one passes it
on to the first in the waiting line, or else it is free again (`Channel.withdraw_of_granted`).
-/

namespace Reveille.Bus.Channel

variable {T C : Type} {c left : Channel T C} {t : T} {item : C}

/-- Slots that hold an item or belong to a sender. -/
def used (c : Channel T C) : Nat := c.queue.length + c.granted.length

theorem free_eq_zero (h : c.used ≤ c.capacity) : c.free = 0 ↔ c.used = c.capacity := by
  unfold used free at *
  omega

theorem promote_used (h : c.used ≤ c.capacity) : c.promote.used ≤ c.capacity := by
  rcases promote_cases (c := c) with ⟨hc, -⟩ | ⟨t, ts, -, hfree, hc⟩
  · rwa [hc]
  · rw [hc]
    simp only [used, free, List.length_append, List.length_singleton] at *
    omega

theorem take_used (h : c.used ≤ c.capacity) (ht : c.take = .item item left) :
    left.used ≤ c.capacity ∧ left.capacity = c.capacity := by
  obtain ⟨rest, hq, rfl⟩ := take_eq_item.mp ht
  refine ⟨promote_used (c := { c with queue := rest }) ?_, promote_same.1⟩
  simp only [used, hq, List.length_cons] at h ⊢
  omega

theorem addItem_used (h : c.used ≤ c.capacity) (room : c.free ≠ 0) :
    ({ c with queue := c.queue ++ [item] } : Channel T C).used ≤ c.capacity := by
  simp only [used, free, List.length_append, List.length_singleton] at *
  omega

variable [DecidableEq T]

theorem requestSlot_used (h : c.used ≤ c.capacity) :
    (c.requestSlot t).used ≤ c.capacity ∧ (c.requestSlot t).capacity = c.capacity :=
  ⟨promote_used (c := { c with entered := c.entered.erase t, waiting := c.waiting ++ [t] }) h,
    promote_same.1⟩

theorem withdraw_used (h : c.used ≤ c.capacity) :
    (c.withdraw t).used ≤ c.capacity ∧ (c.withdraw t).capacity = c.capacity := by
  refine ⟨promote_used (c := { c with
    entered := c.entered.erase t, waiting := c.waiting.erase t, granted := c.granted.erase t }) ?_,
    promote_same.1⟩
  have hle : (c.granted.erase t).length ≤ c.granted.length := List.length_erase_le
  simp only [used] at h ⊢
  omega

theorem commit_used (ht : t ∈ c.granted) :
    ({ c with queue := c.queue ++ [item], granted := c.granted.erase t } : Channel T C).used =
      c.used := by
  have hlen := List.length_erase_of_mem ht
  have hpos := List.length_pos_of_mem ht
  simp only [used, List.length_append, List.length_singleton]
  omega

/-- The slot of a sender that gives up goes to the first who waits. -/
theorem withdraw_of_granted (fair : c.Fair) (h : c.used ≤ c.capacity) (ht : t ∈ c.granted) :
    (c.withdraw t).queue = c.queue ∧ (c.withdraw t).waiting = c.waiting.drop 1 ∧
      (c.withdraw t).granted = c.granted.erase t ++ c.waiting.take 1 := by
  have hwaiting : c.waiting.erase t = c.waiting := by
    refine List.erase_of_not_mem fun hw => ?_
    exact (List.nodup_append.mp fair.nodup).2.2 t hw t ht rfl
  have hlen := List.length_erase_of_mem ht
  have hpos := List.length_pos_of_mem ht
  let c' : Channel T C := { c with
    entered := c.entered.erase t, waiting := c.waiting.erase t, granted := c.granted.erase t }
  show c'.promote.queue = c.queue ∧ c'.promote.waiting = _ ∧ c'.promote.granted = _
  have hfree : 0 < c'.free := by
    simp only [used] at h
    show 0 < c.capacity - (c.queue.length + (c.granted.erase t).length)
    omega
  rcases promote_cases (c := c') with ⟨hc, hnobody | hnone⟩ | ⟨u, ts, hline, -, hc⟩
  · have hnil : c.waiting = [] := hwaiting.symm.trans hnobody
    rw [hc, hnil]
    exact ⟨rfl, hnobody, (List.append_nil _).symm⟩
  · omega
  · have hcons : c.waiting = u :: ts := hwaiting.symm.trans hline
    rw [hc, hcons]
    exact ⟨rfl, rfl, rfl⟩

end Reveille.Bus.Channel
