import Reveille.Proofs.Time.Order
import Reveille.Time.Clock

/-!
# Readings of a clock

A clock that nobody moved by hand shows its anchor plus the time that went by, up to the last instant
(`Clock.nanos_reading`).  So its readings never go back, and what was not due at one reading is not due
at another before the remaining time is over (`Clock.isDue_of_remaining`).
-/

namespace Reveille

/-! ### Ticks -/

theorem Duration.le_tick (time : Nat) : time ≤ tick time := by
  simp only [tick, wholeMillis, nanosPerMilli]
  omega

/-- No whole millisecond lies between a time and its tick. -/
theorem Duration.lt_of_lt_tick {time earlier : Nat} (whole : nanosPerMilli ∣ earlier)
    (h : earlier < tick time) : earlier < time := by
  simp only [tick, wholeMillis, nanosPerMilli] at h whole
  omega

namespace Clock

variable {c : Clock} {e : Duration} {now later : Nat} {due : DueTime} {w : Duration}

/-- A time that is too long for a delta counts as the longest delta. -/
theorem nanos_longest_of_ofDuration? :
    ((Delta.ofDuration? e).getD .longest).nanos = min (e.nanos : Int) Delta.bound := by
  unfold Delta.ofDuration? Delta.ofNanos?
  split
  · next h =>
    simp only [Option.getD_some, min_eq_left h.2]
  · next h =>
    simp only [Option.getD_none, Delta.longest, Delta.bound] at h ⊢
    omega

theorem nanos_steady_eq :
    (c.steady e).nanos = min (c.wall.nanos + e.nanos) Instant.last.nanos := by
  have hlower := c.wall.lower
  have hupper := c.wall.upper
  have hlast : Instant.last.nanos = 8210266876799 * 1000000000 + 999999999 := rfl
  have hfirst : Instant.first.nanos = -8334601228800 * 1000000000 := rfl
  have hδ := nanos_longest_of_ofDuration? (e := e)
  simp only [Delta.bound] at hδ
  -- also the longest delta leads beyond the last instant, wherever the clock began
  unfold steady Instant.add? Instant.ofNanos?
  split
  · next h =>
    simp only [Option.getD_some]
    omega
  · next h =>
    simp only [Option.getD_none]
    omega

theorem reading_eq_steady (unmoved : c.skew = 0) : c.reading e = c.steady e := by
  have hlower := (c.steady e).lower
  have hupper := (c.steady e).upper
  refine Instant.ext_nanos ?_
  have hzero : Delta.ofNanos? 0 = some ⟨0, by decide, by decide⟩ := rfl
  have hin : Instant.first.nanos ≤ (c.steady e).nanos + 0 ∧
      (c.steady e).nanos + 0 ≤ Instant.last.nanos := by
    simp only [Instant.first, Instant.last]
    omega
  unfold reading
  simp only [unmoved, hzero, Option.bind_some, Instant.add?, Instant.ofNanos?, dif_pos hin,
    Option.getD_some]
  omega

/-- What a clock that nobody moved shows. -/
theorem nanos_reading_eq (unmoved : c.skew = 0) :
    (c.reading e).nanos = min (c.wall.nanos + e.nanos) Instant.last.nanos := by
  rw [reading_eq_steady unmoved, nanos_steady_eq]

theorem nanos_reading (unmoved : c.skew = 0) : (c.reading (.clamp now)).nanos =
    min (c.wall.nanos + now) Instant.last.nanos := by
  have hlower := c.wall.lower
  have hlast : Instant.last.nanos = 8210266876799 * 1000000000 + 999999999 := rfl
  have hnow : (Duration.clamp now).nanos = min now Duration.longest.nanos := rfl
  have hlongest : Duration.longest.nanos = 18446744073709551616000000000 - 1 := rfl
  rw [nanos_reading_eq unmoved]
  omega

theorem reading_le_reading {e' : Duration} (unmoved : c.skew = 0) (h : e ≤ e') :
    c.reading e ≤ c.reading e' := by
  have hle : e.nanos ≤ e'.nanos := h
  rw [Instant.le_iff, nanos_reading_eq unmoved, nanos_reading_eq unmoved]
  omega

theorem reading_mono (unmoved : c.skew = 0) (h : now ≤ later) :
    c.reading (.clamp now) ≤ c.reading (.clamp later) := by
  rw [Instant.le_iff, nanos_reading unmoved, nanos_reading unmoved]
  omega

/-- Before the remaining time is over, nothing becomes due. -/
theorem isDue_of_remaining (unmoved : c.skew = 0)
    (notYet : due.isDue (c.reading (.clamp now)) = false)
    (remaining : due.remaining (c.reading (.clamp now)) = some w) (h : later < now + w.nanos) :
    due.isDue (c.reading (.clamp later)) = false := by
  cases due with
  | never => rfl
  | moment t =>
    rw [← Bool.not_eq_true, DueTime.isDue_moment, Instant.le_iff] at notYet ⊢
    have hupper := t.upper
    have hw : (w.nanos : Int) = max (t.nanos - (c.reading (.clamp now)).nanos) 0 := by
      obtain ⟨v, hv, hnanos⟩ : ∃ v, (DueTime.moment t).remaining (c.reading (.clamp now)) = some v ∧
          (v.nanos : Int) = max (t.nanos - (c.reading (.clamp now)).nanos) 0 :=
        DueTime.remaining_moment
      rw [remaining] at hv
      cases hv
      exact hnanos
    rw [nanos_reading unmoved] at notYet hw ⊢
    omega

end Clock

end Reveille
