import Mathlib.Order.Bounds.Basic
import Reveille.Alarm
import Reveille.Proofs.Time.Order

/-!
# Offers made one after another

An alarm that gets offers one after another (`Alarm.offerEach`) either stays as it is, or is set by one of
them: by the one that is earlier than the alarm and than all offers before it, while none after it is
earlier still (`Alarm.Settles`).  So its due time becomes the least of all, in whatever order the offers
come, and on a tie the first counts (`Alarm.keeps_earliest`).
-/

namespace Reveille.Alarm

variable {Id : Type} {a b : Alarm Id} {due : DueTime} {id : Option Id}
  {offers : List (DueTime × Option Id)} {offer : DueTime × Option Id}

theorem movedBy_iff : a.movedBy due = true ↔ due < a.due := decide_eq_true_iff

theorem not_movedBy_iff : a.movedBy due = false ↔ a.due ≤ due := by
  rw [← Bool.not_eq_true, movedBy_iff, not_lt]

theorem offer_of_lt (h : due < a.due) : a.offer due id = ⟨due, id⟩ := if_pos (movedBy_iff.mpr h)

theorem offer_of_le (h : a.due ≤ due) : a.offer due id = a :=
  if_neg fun moved => (movedBy_iff.mp moved).not_ge h

theorem offer_due : (a.offer due id).due = min due a.due := by
  rcases lt_or_ge due a.due with h | h
  · rw [offer_of_lt h, min_eq_left h.le]
  · rw [offer_of_le h, min_eq_right h]

def offerEach (a : Alarm Id) (offers : List (DueTime × Option Id)) : Alarm Id :=
  offers.foldl (fun a offer => a.offer offer.1 offer.2) a

/-- The due time of an alarm and those that are offered to it. -/
def atHand (a : Alarm Id) (offers : List (DueTime × Option Id)) : Set DueTime :=
  {due | due = a.due ∨ ∃ id, (due, id) ∈ offers}

inductive Settles (a : Alarm Id) : List (DueTime × Option Id) → Alarm Id → Prop
  /-- None of them is earlier. -/
  | kept {offers : List (DueTime × Option Id)} (late : ∀ o ∈ offers, a.due ≤ o.1) : Settles a offers a
  /-- One is earlier than the alarm and than those before it, and no later one is earlier still. -/
  | set {before after : List (DueTime × Option Id)} {due : DueTime} {id : Option Id}
      (earlier : due < a.due) (first : ∀ o ∈ before, due < o.1) (late : ∀ o ∈ after, due ≤ o.1) :
      Settles a (before ++ (due, id) :: after) ⟨due, id⟩

structure KeepsEarliest (a : Alarm Id) (offers : List (DueTime × Option Id)) : Prop where
  /-- Moments come in the order of their instants, and `never` comes after all of them. -/
  order : ∀ t u : Instant, (DueTime.moment t < .moment u ↔ t.nanos < u.nanos) ∧ DueTime.moment t < .never
  least : IsLeast (a.atHand offers) (a.offerEach offers).due
  /-- It is set by the first offer that is as early as that. -/
  first : (a.offerEach offers).due < a.due → ∃ before after,
    offers = before ++ ((a.offerEach offers).due, (a.offerEach offers).id) :: after ∧
      ∀ o ∈ before, (a.offerEach offers).due < o.1
  kept : ¬ (a.offerEach offers).due < a.due → a.offerEach offers = a
  /-- An offer moves the alarm just if it is earlier than the alarm was at the start and than all offers
  before it. -/
  moved_iff : ∀ before due id after, offers = before ++ (due, id) :: after →
    ((a.offerEach before).movedBy due = true ↔ due < a.due ∧ ∀ o ∈ before, due < o.1)
  untouched : ∀ before due id after, offers = before ++ (due, id) :: after →
    (a.offerEach before).movedBy due = false → (a.offerEach before).offer due id = a.offerEach before
  permuted : ∀ other, other.Perm offers → (a.offerEach other).due = (a.offerEach offers).due
  again : ∀ o ∈ offers, (a.offerEach offers).movedBy o.1 = false ∧
    (a.offerEach offers).offer o.1 o.2 = a.offerEach offers

theorem offerEach_cons : a.offerEach (offer :: offers) = (a.offer offer.1 offer.2).offerEach offers := rfl

theorem mem_atHand_of_mem (h : offer ∈ offers) : offer.1 ∈ a.atHand offers := Or.inr ⟨offer.2, h⟩

/-- An offer that moves the alarm goes first among those that come later. -/
theorem Settles.cons_of_lt (h : due < a.due) (rest : Settles ⟨due, id⟩ offers b) :
    Settles a ((due, id) :: offers) b := by
  cases rest with
  | kept late =>
    rw [← List.nil_append ((due, id) :: offers)]
    exact .set h (List.forall_mem_nil _) late
  | set earlier first late =>
    rw [← List.cons_append]
    exact .set (earlier.trans h) (List.forall_mem_cons.mpr ⟨earlier, first⟩) late

/-- An offer that leaves the alarm as it is comes before the one that sets it, if there is any. -/
theorem Settles.cons_of_le (h : a.due ≤ offer.1) (rest : Settles a offers b) :
    Settles a (offer :: offers) b := by
  cases rest with
  | kept late => exact .kept (List.forall_mem_cons.mpr ⟨h, late⟩)
  | set earlier first late =>
    rw [← List.cons_append]
    exact .set earlier (List.forall_mem_cons.mpr ⟨earlier.trans_le h, first⟩) late

theorem settles_offerEach : Settles a offers (a.offerEach offers) := by
  induction offers generalizing a with
  | nil => exact .kept (List.forall_mem_nil _)
  | cons offer offers ih =>
    rw [offerEach_cons]
    rcases lt_or_ge offer.1 a.due with h | h
    · rw [offer_of_lt h]
      exact .cons_of_lt h ih
    · rw [offer_of_le h]
      exact ih.cons_of_le h

theorem Settles.isLeast (h : Settles a offers b) : IsLeast (a.atHand offers) b.due := by
  cases h with
  | kept late =>
    refine ⟨Or.inl rfl, ?_⟩
    rintro _ (rfl | ⟨id, hid⟩)
    · exact le_rfl
    · exact late _ hid
  | @set before after due id earlier first late =>
    refine ⟨mem_atHand_of_mem (List.mem_append_right before List.mem_cons_self), ?_⟩
    rintro other (rfl | ⟨id', h⟩)
    · exact earlier.le
    · rcases List.mem_append.mp h with h | h
      · exact (first _ h).le
      · rcases List.mem_cons.mp h with h | h
        · exact (congrArg Prod.fst h).ge
        · exact late _ h

theorem Settles.eq_of_not_lt (h : Settles a offers b) (hle : ¬ b.due < a.due) : b = a := by
  cases h with
  | kept late => rfl
  | set earlier first late => exact absurd earlier hle

theorem Settles.exists_first (h : Settles a offers b) (hlt : b.due < a.due) :
    ∃ before after, offers = before ++ (b.due, b.id) :: after ∧ ∀ o ∈ before, b.due < o.1 := by
  cases h with
  | kept late => exact absurd hlt (lt_irrefl _)
  | set earlier first late => exact ⟨_, _, rfl, first⟩

theorem find?_of_offerEach_lt (h : (a.offerEach offers).due < a.due) :
    offers.find? (fun o => o.1 = (a.offerEach offers).due) =
      some ((a.offerEach offers).due, (a.offerEach offers).id) := by
  obtain ⟨before, after, hoffers, first⟩ := settles_offerEach.exists_first h
  refine List.find?_eq_some_iff_append.mpr ⟨decide_eq_true rfl, before, after, hoffers, fun o ho => ?_⟩
  simpa using (first o ho).ne'

/-- The next offer is compared with all that came before. -/
theorem movedBy_offerEach_iff :
    (a.offerEach offers).movedBy due = true ↔ due < a.due ∧ ∀ o ∈ offers, due < o.1 := by
  have least : IsLeast (a.atHand offers) (a.offerEach offers).due := settles_offerEach.isLeast
  rw [movedBy_iff]
  constructor
  · intro h
    exact ⟨h.trans_le (least.2 (Or.inl rfl)), fun o ho => h.trans_le (least.2 (mem_atHand_of_mem ho))⟩
  · rintro ⟨hstart, hoffers⟩
    rcases least.1 with hdue | ⟨id, hid⟩
    · rwa [hdue]
    · exact hoffers _ hid

theorem atHand_perm {other : List (DueTime × Option Id)} (h : other.Perm offers) :
    a.atHand other = a.atHand offers := by
  ext due
  simp only [atHand, Set.mem_ofPred_eq, h.mem_iff]

/-- The earliest due time wins, whoever comes first; the first to come with it gives the alarm its id. -/
theorem keeps_earliest (a : Alarm Id) (offers : List (DueTime × Option Id)) :
    KeepsEarliest a offers where
  order _ _ := ⟨Iff.rfl, DueTime.moment_lt_never⟩
  least := settles_offerEach.isLeast
  first h := settles_offerEach.exists_first h
  kept h := settles_offerEach.eq_of_not_lt h
  moved_iff _ _ _ _ _ := movedBy_offerEach_iff
  untouched _ _ _ _ _ h := offer_of_le (not_movedBy_iff.mp h)
  permuted other h := by
    have least : IsLeast (a.atHand other) (a.offerEach other).due := settles_offerEach.isLeast
    rw [atHand_perm h] at least
    exact least.unique settles_offerEach.isLeast
  again o ho := by
    have hle : (a.offerEach offers).due ≤ o.1 := settles_offerEach.isLeast.2 (mem_atHand_of_mem ho)
    exact ⟨not_movedBy_iff.mpr hle, offer_of_le hle⟩

/-- On a tie the first offer counts, and none is earlier than `never`. -/
example : (never : Alarm Nat).offerEach
    [(.never, some 1), (.moment .last, some 2), (.moment .epoch, none), (.moment .epoch, some 3)] =
      ⟨.moment .epoch, none⟩ := by decide

end Reveille.Alarm
