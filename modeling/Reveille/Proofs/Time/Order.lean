import Mathlib.Order.Defs.LinearOrder
import Mathlib.Order.MinMax
import Reveille.DueTime

/-!
# The order of instants and of due times

Instants are ordered as their nanoseconds, and due times as instants with `never` after all of
them; both orders are linear.  A due time is due at an instant exactly when it is not later than the
moment of that instant (`DueTime.isDue_iff_le`), so the order decides which of two due times comes
first at every reading of a clock.
-/

namespace Reveille

namespace Instant

theorem le_iff {a b : Instant} : a ≤ b ↔ a.nanos ≤ b.nanos := Iff.rfl

instance : LinearOrder Instant where
  le_refl a := Int.le_refl a.nanos
  le_trans _ _ _ h g := Int.le_trans (le_iff.mp h) (le_iff.mp g)
  lt_iff_le_not_ge _ _ := Int.lt_iff_le_and_not_ge
  le_antisymm _ _ h g := ext_nanos (Int.le_antisymm h g)
  le_total a b := Int.le_total a.nanos b.nanos
  toDecidableLE := inferInstance
  toDecidableLT := inferInstance

end Instant

theorem Duration.nanos_max {a b : Duration} : (max a b).nanos = max a.nanos b.nanos := by
  show (if a ≤ b then b else a).nanos = _
  by_cases h : a ≤ b
  · rw [if_pos h, max_eq_right h]
  · rw [if_neg h, max_eq_left (Nat.lt_of_not_le h).le]

namespace DueTime

@[simp] theorem moment_lt_moment {t u : Instant} : moment t < moment u ↔ t < u := Iff.rfl
@[simp] theorem moment_lt_never {t : Instant} : moment t < never := trivial
@[simp] theorem not_never_lt {d : DueTime} : ¬ never < d := fun h => h

theorem le_iff_not_lt {a b : DueTime} : a ≤ b ↔ ¬ b < a := Iff.rfl

@[simp] theorem moment_le_moment {t u : Instant} : moment t ≤ moment u ↔ t ≤ u := by
  rw [le_iff_not_lt, moment_lt_moment, not_lt]

@[simp] theorem le_never {d : DueTime} : d ≤ never := not_never_lt
@[simp] theorem not_never_le_moment {t : Instant} : ¬ never ≤ moment t := fun h => h trivial

theorem le_of_lt' {a b : DueTime} (h : a < b) : a ≤ b := by
  cases a with
  | never => exact absurd h not_never_lt
  | moment t =>
    cases b with
    | never => exact le_never
    | moment u => exact moment_le_moment.mpr (le_of_lt (moment_lt_moment.mp h))

theorem eq_of_le_of_le {a b : DueTime} (h : a ≤ b) (g : b ≤ a) : a = b := by
  cases a with
  | never =>
    cases b with
    | never => rfl
    | moment u => exact absurd h not_never_le_moment
  | moment t =>
    cases b with
    | never => exact absurd g not_never_le_moment
    | moment u =>
      exact congrArg moment (le_antisymm (moment_le_moment.mp h) (moment_le_moment.mp g))

instance : LinearOrder DueTime where
  le_refl a := by
    cases a with
    | never => exact le_never
    | moment t => exact moment_le_moment.mpr le_rfl
  le_trans a b c h g := by
    cases c with
    | never => exact le_never
    | moment v =>
      cases b with
      | never => exact absurd g not_never_le_moment
      | moment u =>
        cases a with
        | never => exact absurd h not_never_le_moment
        | moment t =>
          exact moment_le_moment.mpr ((moment_le_moment.mp h).trans (moment_le_moment.mp g))
  lt_iff_le_not_ge a b := by
    constructor
    · exact fun h => ⟨le_of_lt' h, fun g => g h⟩
    · exact fun h => Classical.not_not.mp h.2
  le_antisymm _ _ h g := eq_of_le_of_le h g
  le_total a b := by
    by_cases h : b < a
    · exact Or.inr (le_of_lt' h)
    · exact Or.inl h
  toDecidableLE := inferInstance
  toDecidableLT := inferInstance
  compare_eq_compareOfLessAndEq a b := by
    have hEq : a = b ↔ ¬ a < b ∧ ¬ b < a := by
      constructor
      · rintro rfl
        exact ⟨fun h => le_of_lt' h h, fun h => le_of_lt' h h⟩
      · exact fun h => eq_of_le_of_le h.2 h.1
    simp only [compare, compareOfLessAndEq, hEq]
    split
    · rfl
    · next h => simp only [h, not_false_eq_true, true_and]; split <;> simp_all

/-! ### Being due -/

@[simp] theorem isDue_moment {t now : Instant} : (moment t).isDue now = true ↔ t ≤ now := by
  simp [isDue]

@[simp] theorem isDue_never {now : Instant} : never.isDue now = false := rfl

theorem isDue_iff_le {d : DueTime} {now : Instant} : d.isDue now = true ↔ d ≤ moment now := by
  cases d with
  | moment t => rw [isDue_moment, moment_le_moment]
  | never => simp

theorem isDue_of_le {d e : DueTime} {now : Instant} (h : d ≤ e) (he : e.isDue now = true) :
    d.isDue now = true := isDue_iff_le.mpr (h.trans (isDue_iff_le.mp he))

/-- What is due once is due from then on. -/
theorem isDue_mono {d : DueTime} {now later : Instant} (h : now ≤ later)
    (hd : d.isDue now = true) : d.isDue later = true :=
  isDue_iff_le.mpr ((isDue_iff_le.mp hd).trans (moment_le_moment.mpr h))

theorem isDue_min {d e : DueTime} {now : Instant} :
    (min d e).isDue now = true ↔ d.isDue now = true ∨ e.isDue now = true := by
  rw [isDue_iff_le, isDue_iff_le, isDue_iff_le, min_le_iff]

/-! ### Some time from an instant on -/

variable {since now : Instant} {d : Duration}

/-- The sum is the due time when there is such an instant. -/
theorem after_of_le (h : since.nanos + d.nanos ≤ Instant.last.nanos) :
    ∃ t, after since d = .moment t ∧ t.nanos = since.nanos + d.nanos := by
  have hlast : Instant.last.nanos = 8210266876799 * 1000000000 + 999999999 := rfl
  have hlower := since.lower
  -- a sum of instants' size leaves no room for a duration that is too long for a delta
  have hbounds : -Delta.bound ≤ (d.nanos : Int) ∧ (d.nanos : Int) ≤ Delta.bound := by
    simp only [Delta.bound]
    omega
  have hδ : Delta.ofDuration? d = some ⟨d.nanos, hbounds.1, hbounds.2⟩ := dif_pos hbounds
  have hfirst : Instant.first.nanos ≤ since.nanos + d.nanos := by
    simp only [Instant.first]
    omega
  refine ⟨⟨since.nanos + d.nanos, hfirst, h⟩, ?_, rfl⟩
  have hsum : since.add? ⟨d.nanos, hbounds.1, hbounds.2⟩ = some ⟨since.nanos + d.nanos, hfirst, h⟩ :=
    dif_pos ⟨hfirst, h⟩
  rw [after, hδ, Option.bind_some, hsum]

theorem after_of_lt (h : Instant.last.nanos < since.nanos + d.nanos) : after since d = .never := by
  have hnone : (Delta.ofDuration? d).bind since.add? = none := by
    rw [Option.bind_eq_none_iff]
    intro δ hδ
    have hsame : δ.nanos = d.nanos := by
      simp only [Delta.ofDuration?, Delta.ofNanos?] at hδ
      split at hδ
      · cases hδ
        rfl
      · cases hδ
    refine dif_neg fun hrange => ?_
    rw [hsame] at hrange
    omega
  rw [after, hnone]

theorem after_eq_never_iff :
    after since d = .never ↔ Instant.last.nanos < since.nanos + d.nanos := by
  constructor
  · intro h
    by_contra hle
    obtain ⟨t, ht, -⟩ : ∃ t, after since d = .moment t ∧ t.nanos = since.nanos + d.nanos :=
      after_of_le (by omega)
    rw [h] at ht
    cases ht
  · exact after_of_lt

theorem after_eq_moment_iff {t : Instant} :
    after since d = .moment t ↔ t.nanos = since.nanos + d.nanos := by
  constructor
  · intro h
    by_cases hle : since.nanos + d.nanos ≤ Instant.last.nanos
    · obtain ⟨u, hu, hsum⟩ := after_of_le hle
      rw [h] at hu
      cases hu
      exact hsum
    · rw [after_of_lt (by omega)] at h
      cases h
  · intro h
    obtain ⟨u, hu, hsum⟩ : ∃ u, after since d = .moment u ∧ u.nanos = since.nanos + d.nanos :=
      after_of_le (h ▸ t.upper)
    rw [hu, Instant.ext_nanos (h.trans hsum.symm)]

/-- A sum beyond the last instant is later than all others. -/
theorem after_le_after {other : Instant} {e : Duration} :
    after since d ≤ after other e ↔
      since.nanos + d.nanos ≤ other.nanos + e.nanos ∨ Instant.last.nanos < other.nanos + e.nanos := by
  by_cases hbeyond : Instant.last.nanos < other.nanos + e.nanos
  · rw [after_of_lt hbeyond]
    exact iff_of_true le_never (Or.inr hbeyond)
  · obtain ⟨u, hu, hsum⟩ : ∃ u, after other e = .moment u ∧ u.nanos = other.nanos + e.nanos :=
      after_of_le (by omega)
    rw [hu]
    cases h : after since d with
    | moment t =>
      have ht := after_eq_moment_iff.mp h
      rw [moment_le_moment, Instant.le_iff]
      omega
    | never =>
      have hlt := after_eq_never_iff.mp h
      simp only [not_never_le_moment, false_iff]
      omega

/-- No sum that an instant reaches is out of range. -/
theorem isDue_after :
    (after since d).isDue now = true ↔ since.nanos + d.nanos ≤ now.nanos := by
  have hnow : now.nanos ≤ Instant.last.nanos := now.upper
  cases h : after since d with
  | moment t => rw [isDue_moment, Instant.le_iff, after_eq_moment_iff.mp h]
  | never =>
    have hlt := after_eq_never_iff.mp h
    rw [isDue_never]
    simp only [Bool.false_eq_true, false_iff]
    omega

/-- What remains until a moment is the time up to it, and nothing once it is past. -/
theorem remaining_moment {t : Instant} : ∃ w, (moment t).remaining now = some w ∧
    (w.nanos : Int) = max (t.nanos - now.nanos) 0 := by
  have hupper := t.upper
  have hlower := now.lower
  refine ⟨((t.sub now).toDuration?).getD .zero, rfl, ?_⟩
  by_cases h : t.nanos - now.nanos < 0
  · have hpast : (t.sub now).toDuration? = none := if_pos h
    rw [hpast, Option.getD_none, max_eq_right h.le]
    rfl
  · have hahead : (t.sub now).toDuration? = some (.clamp (t.nanos - now.nanos).toNat) := if_neg h
    rw [hahead, Option.getD_some,
      Duration.nanos_clamp (by simp only [wordSize, nanosPerSecond]; omega)]
    omega

end DueTime

end Reveille
