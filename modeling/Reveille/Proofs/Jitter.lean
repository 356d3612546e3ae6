import Reveille.Proofs.Time.Order
import Reveille.Runner.Machine

/-!
# What jitter makes of an interval

A jitter that draws numbers draws them from a range that is never empty (`Jitter.range_le`), so a wait comes
out of it whoever hands out the numbers (`Jitter.shorten?`).  The waits are the whole milliseconds of that
range, no more and no fewer (`Jitter.mem_waits_iff`), and none is longer than the interval.  The rescan after
one of them is later than the instant it counts from, and no later than the rescan after the whole interval
(`Jitter.only_shortens`).
-/

namespace Reveille

theorem Duration.nanos_ofMillis {n : Nat} (h : n ≤ Jitter.mostMillis) :
    (ofMillis n).nanos = n * nanosPerMilli := by
  refine nanos_clamp ?_
  simp only [Jitter.mostMillis, wordSize, nanosPerMilli, nanosPerSecond] at h ⊢
  omega

/-- A source of numbers.  Asked for one from `low` to `high` it hands one out, and it fails if there is none. -/
structure Chance where
  pick : Nat → Nat → Option Nat
  inside {low high n : Nat} : pick low high = some n → low ≤ n ∧ n ≤ high
  answers {low high : Nat} : low ≤ high → ∃ n, pick low high = some n

def Chance.near (n : Nat) : Chance where
  pick low high := if low ≤ high then some (max low (min n high)) else none
  inside h := by
    rw [Option.ite_none_right_eq_some] at h
    obtain ⟨hle, hn⟩ := h
    cases hn
    omega
  answers h := ⟨_, if_pos h⟩

theorem Chance.pick_near {low n high : Nat} (h : low ≤ n) (h' : n ≤ high) :
    (near n).pick low high = some n := by
  show (if low ≤ high then some (max low (min n high)) else none) = some n
  rw [if_pos (h.trans h'), min_eq_left h', max_eq_right h]

namespace Jitter

variable {j : Jitter} {chance : Chance} {interval w : Duration} {low high draw : Nat}

/-- The interval shortened to a number of milliseconds that is handed out.  A range of one number leaves
nothing to chance. -/
def shorten? (j : Jitter) (chance : Chance) (interval : Duration) : Option Duration :=
  match j.range interval with
  | Option.none => some interval
  | some (low, high) =>
    if low = high then some (.ofMillis high) else (chance.pick low high).map .ofMillis

structure OnlyShortens (j : Jitter) (interval : Duration) : Prop where
  nonempty : ∀ low high, j.range interval = some (low, high) → low ≤ high
  /-- So no source of numbers fails. -/
  answers : ∀ chance, ∃ w, j.shorten? chance interval = some w
  unchanged : j = .none → ∀ chance, j.shorten? chance interval = some interval
  full : j = .full → ∀ w, (∃ chance, j.shorten? chance interval = some w) ↔
    ∃ n, n ≤ min interval.millis mostMillis ∧ w.nanos = n * nanosPerMilli
  equal : j = .equal → ∀ w, (∃ chance, j.shorten? chance interval = some w) ↔
    ∃ n, min interval.half.millis mostMillis ≤ n ∧ n ≤ min interval.millis mostMillis ∧
      w.nanos = n * nanosPerMilli
  shorter : ∀ chance w, j.shorten? chance interval = some w → w ≤ interval
  /-- The draws of a runner lead to the same waits. -/
  drawn : ∀ w, (∃ chance, j.shorten? chance interval = some w) ↔ ∃ draw, j.apply interval draw = w
  /-- The rescan is set after the wait, or after a millisecond if the wait is shorter. -/
  rescan : ∀ {E Id F : Type} (r : Runner E Id F) (now : Instant) (draw : Nat), r.jitter = j →
    (r.armRescan now interval draw).rescanAt =
        .after now (max (j.apply interval draw) Runner.leastInterval) ∧
      .moment now < (r.armRescan now interval draw).rescanAt ∧
      (r.armRescan now interval draw).rescanAt ≤ .after now (max interval Runner.leastInterval)

/-! ### The range -/

theorem range_full : full.range interval = some (0, min interval.millis mostMillis) := by
  have hzero : min (min Duration.zero.millis mostMillis) (min interval.millis mostMillis) = 0 :=
    Nat.le_zero.mp ((min_le_left _ _).trans (min_le_left _ _))
  rw [range, millisBetween, hzero]

theorem range_equal : equal.range interval =
    some (min interval.half.millis mostMillis, min interval.millis mostMillis) := by
  have hhalf : interval.half.millis ≤ interval.millis :=
    Nat.div_le_div_right (Nat.div_le_self interval.nanos 2)
  have hfloor : min (min interval.half.millis mostMillis) (min interval.millis mostMillis) =
      min interval.half.millis mostMillis := min_eq_left (min_le_min_right _ hhalf)
  rw [range, millisBetween, hfloor]

theorem range_le (h : j.range interval = some (low, high)) :
    low ≤ high ∧ high ≤ interval.millis ∧ high ≤ mostMillis := by
  cases j with
  | none => cases h
  | full => cases h; exact ⟨min_le_right _ _, min_le_left _ _, min_le_right _ _⟩
  | equal => cases h; exact ⟨min_le_right _ _, min_le_left _ _, min_le_right _ _⟩

/-! ### The waits -/

theorem waits_of_range (h : j.range interval = some (low, high)) :
    j.waits interval = (List.range (high - low + 1)).map fun n => .ofMillis (low + n) := by
  rw [waits, h]

theorem mem_waits_iff (h : j.range interval = some (low, high)) :
    w ∈ j.waits interval ↔ ∃ n, low ≤ n ∧ n ≤ high ∧ w.nanos = n * nanosPerMilli := by
  obtain ⟨hle, -, hmost⟩ := range_le h
  rw [waits_of_range h, List.mem_map]
  constructor
  · rintro ⟨n, hn, rfl⟩
    have hn' : n < high - low + 1 := List.mem_range.mp hn
    exact ⟨low + n, by omega, by omega, Duration.nanos_ofMillis (by omega)⟩
  · rintro ⟨n, hlow, hhigh, hw⟩
    refine ⟨n - low, List.mem_range.mpr (by omega), Duration.ext_nanos ?_⟩
    rw [Nat.add_sub_cancel' hlow, Duration.nanos_ofMillis (hhigh.trans hmost), hw]

/-- Half of an interval may begin within a millisecond. -/
example : equal.waits (.ofMillis 3) = [.ofMillis 1, .ofMillis 2, .ofMillis 3] := by decide

theorem ofMillis_mem_waits (h : j.range interval = some (low, high)) {n : Nat} (hlow : low ≤ n)
    (hhigh : n ≤ high) : .ofMillis n ∈ j.waits interval :=
  (mem_waits_iff h).mpr
    ⟨n, hlow, hhigh, Duration.nanos_ofMillis (hhigh.trans (range_le h).2.2)⟩

theorem exists_ofMillis (h : j.range interval = some (low, high)) (hw : w ∈ j.waits interval) :
    ∃ n, low ≤ n ∧ n ≤ high ∧ .ofMillis n = w := by
  obtain ⟨n, hlow, hhigh, hnanos⟩ := (mem_waits_iff h).mp hw
  refine ⟨n, hlow, hhigh, Duration.ext_nanos ?_⟩
  rw [hnanos, Duration.nanos_ofMillis (hhigh.trans (range_le h).2.2)]

theorem mem_waits_of_range_none (h : j.range interval = Option.none) :
    w ∈ j.waits interval ↔ w = interval := by
  rw [waits, h, List.mem_singleton]

theorem nanos_le_of_mem_waits (hw : w ∈ j.waits interval) : w.nanos ≤ interval.nanos := by
  cases h : j.range interval with
  | none => rw [(mem_waits_of_range_none h).mp hw]
  | some range =>
    obtain ⟨n, -, hhigh, hnanos⟩ := (mem_waits_iff h).mp hw
    calc w.nanos = n * nanosPerMilli := hnanos
      _ ≤ interval.millis * nanosPerMilli := Nat.mul_le_mul_right _ (hhigh.trans (range_le h).2.1)
      _ ≤ interval.nanos := Nat.div_mul_le_self _ _

/-- Every draw leads to a wait, and every wait comes from a draw. -/
theorem mem_waits_iff_apply : w ∈ j.waits interval ↔ ∃ draw, j.apply interval draw = w := by
  cases h : j.range interval with
  | none =>
    rw [mem_waits_of_range_none h]
    simp only [apply, h, exists_const, eq_comm]
  | some range =>
    obtain ⟨low, high⟩ := range
    have happly (draw : Nat) : j.apply interval draw = .ofMillis (min (low + draw) high) := by
      rw [apply, h]
    constructor
    · intro hw
      obtain ⟨n, hlow, hhigh, rfl⟩ := exists_ofMillis h hw
      exact ⟨n - low, by rw [happly, Nat.add_sub_cancel' hlow, min_eq_left hhigh]⟩
    · rintro ⟨draw, rfl⟩
      rw [happly]
      exact ofMillis_mem_waits h (le_min (Nat.le_add_right _ _) (range_le h).1) (min_le_right _ _)

theorem nanos_apply_le : (j.apply interval draw).nanos ≤ interval.nanos :=
  nanos_le_of_mem_waits (mem_waits_iff_apply.mpr ⟨draw, rfl⟩)

/-! ### Where the numbers come from -/

/-- No source can fail, for it is never asked for a number of an empty range. -/
theorem exists_shorten? : ∃ w, j.shorten? chance interval = some w ∧ w ∈ j.waits interval := by
  cases h : j.range interval with
  | none => exact ⟨interval, by rw [shorten?, h], (mem_waits_of_range_none h).mpr rfl⟩
  | some range =>
    obtain ⟨low, high⟩ := range
    have hle : low ≤ high := (range_le h).1
    by_cases hone : low = high
    · exact ⟨.ofMillis high, by simp only [shorten?, h, if_pos hone], ofMillis_mem_waits h hle le_rfl⟩
    · obtain ⟨n, hn⟩ := chance.answers hle
      obtain ⟨hlow, hhigh⟩ := chance.inside hn
      exact ⟨.ofMillis n, by simp only [shorten?, h, if_neg hone, hn, Option.map_some],
        ofMillis_mem_waits h hlow hhigh⟩

theorem mem_waits_of_shorten? (h : j.shorten? chance interval = some w) : w ∈ j.waits interval := by
  obtain ⟨v, hv, hmem⟩ : ∃ v, j.shorten? chance interval = some v ∧ v ∈ j.waits interval :=
    exists_shorten?
  rw [h] at hv
  cases hv
  exact hmem

theorem mem_waits_iff_shorten? :
    w ∈ j.waits interval ↔ ∃ chance, j.shorten? chance interval = some w := by
  constructor
  · intro hw
    cases h : j.range interval with
    | none => exact ⟨.near 0, by rw [shorten?, h, (mem_waits_of_range_none h).mp hw]⟩
    | some range =>
      obtain ⟨low, high⟩ := range
      obtain ⟨n, hlow, hhigh, rfl⟩ := exists_ofMillis h hw
      refine ⟨.near n, ?_⟩
      by_cases hone : low = high
      · obtain rfl : n = high := by omega
        simp only [shorten?, h, if_pos hone]
      · simp only [shorten?, h, if_neg hone, Chance.pick_near hlow hhigh, Option.map_some]
  · rintro ⟨chance, h⟩
    exact mem_waits_of_shorten? h

end Jitter

namespace Runner

variable {E Id F : Type} {r : Runner E Id F} {now t : Instant} {interval : Duration} {draw : Nat}

/-- However short the interval, the rescan is later than the time from which it counts. -/
theorem lt_rescanAt (h : t ≤ now) : .moment t < (r.armRescan now interval draw).rescanAt := by
  rw [← not_le, ← DueTime.isDue_iff_le]
  show ¬ (DueTime.after now _).isDue t = true
  rw [DueTime.isDue_after]
  have hleast : leastInterval.nanos ≤ (max (r.jitter.apply interval draw) leastInterval).nanos := by
    rw [Duration.nanos_max]
    exact le_max_right _ _
  have hpos : 0 < leastInterval.nanos := by decide
  have hle := Instant.le_iff.mp h
  omega

/-- However late the draw, the rescan is no later than after the whole interval. -/
theorem rescanAt_le :
    (r.armRescan now interval draw).rescanAt ≤ .after now (max interval leastInterval) := by
  have hwait : (max (r.jitter.apply interval draw) leastInterval).nanos ≤
      (max interval leastInterval).nanos := by
    rw [Duration.nanos_max, Duration.nanos_max]
    exact max_le_max_right _ Jitter.nanos_apply_le
  show DueTime.after now _ ≤ _
  rw [DueTime.after_le_after]
  omega

end Runner

/-- Jitter only shortens an interval, and never so much that the rescan is at once. -/
theorem Jitter.only_shortens (j : Jitter) (interval : Duration) : OnlyShortens j interval where
  nonempty _ _ h := (range_le h).1
  answers _ := exists_shorten?.imp fun _ h => h.1
  unchanged := by
    rintro rfl chance
    rfl
  full := by
    rintro rfl w
    rw [← mem_waits_iff_shorten?, mem_waits_iff range_full]
    simp only [Nat.zero_le, true_and]
  equal := by
    rintro rfl w
    rw [← mem_waits_iff_shorten?, mem_waits_iff range_equal]
  shorter _ _ h := nanos_le_of_mem_waits (mem_waits_of_shorten? h)
  drawn w := by rw [← mem_waits_iff_shorten?, mem_waits_iff_apply]
  rescan := by
    rintro E Id F r now draw rfl
    exact ⟨rfl, Runner.lt_rescanAt le_rfl, Runner.rescanAt_le⟩

end Reveille
