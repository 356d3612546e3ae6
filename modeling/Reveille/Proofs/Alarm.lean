import Reveille.Proofs.Offer

/-!
# The first of the earliest

Candidates are offers that come from an entity, folded into an alarm one after another (`Alarm.offerAll`).
From an alarm that never goes off this leaves the earliest due time of all candidates, and the entity that
was the first to come with it (`Alarm.soonest`, `Alarm.soonest_eq_offerAll`).  Any other alarm moves only for
a candidate that is earlier (`Alarm.offerAll_eq`).  Whether candidates that are due come before or after the others makes no
difference (`Alarm.soonest_split`).
-/

namespace Reveille.Alarm

variable {Id : Type} {a : Alarm Id} {items more : List (Id × DueTime)} {item : Id × DueTime}

def offerAll (a : Alarm Id) (items : List (Id × DueTime)) : Alarm Id :=
  items.foldl (fun a item => a.offer item.2 (some item.1)) a

theorem offerAll_concat :
    a.offerAll (items ++ [item]) = (a.offerAll items).offer item.2 (some item.1) := by
  rw [offerAll, List.foldl_append]
  rfl

/-- The earliest due time of some candidates, or `never` if there are none. -/
def earliestDue (items : List (Id × DueTime)) : DueTime := (items.map (·.2)).foldr min .never

/-- The earliest due time of some candidates, and the entity that was the first to come with it. -/
def soonest (items : List (Id × DueTime)) : Alarm Id :=
  ⟨earliestDue items, if earliestDue items = .never then none
    else (items.find? fun item => item.2 = earliestDue items).map (·.1)⟩

@[simp] theorem earliestDue_cons : earliestDue (item :: items) = min item.2 (earliestDue items) := rfl

theorem earliestDue_append :
    earliestDue (items ++ more) = min (earliestDue items) (earliestDue more) := by
  induction items with
  | nil => exact (min_eq_right DueTime.le_never).symm
  | cons item items ih => rw [List.cons_append, earliestDue_cons, earliestDue_cons, ih, min_assoc]

theorem soonest_of_never (h : earliestDue items = .never) : soonest items = never := by
  rw [soonest, h, if_pos rfl]
  rfl

theorem soonest_of_find? (h : earliestDue items ≠ .never)
    (hfirst : items.find? (fun other => other.2 = earliestDue items) = some item) :
    soonest items = ⟨earliestDue items, some item.1⟩ := by
  rw [soonest, if_neg h, hfirst]
  rfl

/-- Candidates are offers with an entity. -/
theorem offerAll_eq_offerEach :
    a.offerAll items = a.offerEach (items.map fun item => (item.2, some item.1)) := by
  rw [offerEach, List.foldl_map]
  rfl

theorem offerAll_due : (a.offerAll items).due = min a.due (earliestDue items) := by
  induction items generalizing a with
  | nil => exact (min_eq_left DueTime.le_never).symm
  | cons item items ih =>
    show ((a.offer item.2 (some item.1)).offerAll items).due = _
    rw [ih, offer_due, earliestDue_cons, min_left_comm, min_assoc]

/-- An alarm that moves is set by the first candidate that is as early as that. -/
theorem find?_of_offerAll_lt (h : (a.offerAll items).due < a.due) :
    ∃ id, (a.offerAll items).id = some id ∧
      items.find? (fun item => item.2 = (a.offerAll items).due) =
        some (id, (a.offerAll items).due) := by
  rw [offerAll_eq_offerEach] at h ⊢
  have hfirst := find?_of_offerEach_lt h
  rw [List.find?_map, Option.map_eq_some_iff] at hfirst
  obtain ⟨⟨id, due⟩, hitem, hoffer⟩ := hfirst
  obtain ⟨hdue, hid⟩ := Prod.mk.inj hoffer
  exact ⟨id, hid.symm, hdue ▸ hitem⟩

/-- An alarm stays as it is unless some candidate is earlier; then the candidates decide. -/
theorem offerAll_eq :
    a.offerAll items = if earliestDue items < a.due then soonest items else a := by
  have hdue : (a.offerAll items).due = min a.due (earliestDue items) := offerAll_due
  by_cases h : earliestDue items < a.due
  · rw [min_eq_right h.le] at hdue
    obtain ⟨id, hid, hfirst⟩ := find?_of_offerAll_lt (a := a) (hdue.trans_lt h)
    rw [hdue] at hfirst
    have hnever : earliestDue items ≠ .never := fun he => DueTime.not_never_lt (he ▸ h)
    rw [if_pos h, soonest_of_find? hnever hfirst, ← hdue, ← hid]
  · rw [min_eq_left (not_lt.mp h)] at hdue
    rw [if_neg h]
    rw [offerAll_eq_offerEach] at hdue ⊢
    exact settles_offerEach.eq_of_not_lt hdue.not_lt

/-- The soonest is what the candidates make of an alarm that never goes off. -/
theorem soonest_eq_offerAll : soonest items = never.offerAll items := by
  rw [offerAll_eq]
  by_cases h : earliestDue items < .never
  · exact (if_pos h).symm
  · rw [soonest_of_never (DueTime.le_never.antisymm (not_lt.mp h))]
    exact (if_neg h).symm

theorem soonest_concat :
    soonest (items ++ [item]) = (soonest items).offer item.2 (some item.1) := by
  rw [soonest_eq_offerAll, soonest_eq_offerAll, offerAll_concat]

/-- Folding goes on with the earliest due time, and the first entity that came with it. -/
theorem offerAll_soonest : (soonest items).offerAll more = soonest (items ++ more) := by
  rw [soonest_eq_offerAll, soonest_eq_offerAll, offerAll, offerAll, offerAll, List.foldl_append]

section
variable (p : DueTime → Bool)

theorem earliestDue_split :
    earliestDue (items.filter (fun item => !p item.2) ++ items.filter fun item => p item.2) =
      earliestDue items := by
  induction items with
  | nil => rfl
  | cons item items ih =>
    rw [earliestDue_cons, ← ih]
    cases h : p item.2 with
    | true => simp [h, earliestDue_append, min_left_comm]
    | false => simp [h]

/-- All candidates with one due time are on the same side. -/
theorem find?_split (due : DueTime) :
    (items.filter (fun item => !p item.2) ++ items.filter fun item => p item.2).find?
      (fun item => item.2 = due) = items.find? fun item => item.2 = due := by
  rw [List.find?_append]
  induction items with
  | nil => rfl
  | cons item items ih =>
    by_cases hi : item.2 = due
    · cases h : p due with
      | true =>
        have hnone : (items.filter fun item => !p item.2).find? (fun item => item.2 = due) = none := by
          refine List.find?_eq_none.mpr fun other hother => ?_
          have hp := (List.mem_filter.mp hother).2
          simpa using fun he : other.2 = due => by simp [he, h] at hp
        rw [List.filter_cons_of_neg (by simp [hi, h]), List.filter_cons_of_pos (by simp [hi, h]), hnone]
        simp [hi]
      | false => simp [hi, h]
    · cases h : p item.2 <;> simpa [hi, h] using ih

/-- Candidates may be told apart by their due times first. -/
theorem soonest_split :
    soonest (items.filter (fun item => !p item.2) ++ items.filter fun item => p item.2) =
      soonest items := by
  rw [soonest, earliestDue_split, find?_split]
  rfl

end

end Reveille.Alarm
