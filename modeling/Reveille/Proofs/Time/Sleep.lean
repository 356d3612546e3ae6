import Reveille.Proofs.Time.Clock

/-!
# Sleeping until something is due

Whoever reads a clock, makes a due time some duration later, and sleeps for what remains of it, wakes
neither early nor late: what remains is that very duration, and the clock shows that it is over when the
time has gone by and not before (`Clock.sleeps_exactly`).  At the end of time the clock stops at the last
instant; then a duration leads to no instant at all, unless it is zero.
-/

namespace Reveille.Clock

variable {wall t : Instant} {e e' d : Duration}

/-- What is known of a clock that was anchored at `wall`, of its reading when the time `e` went by, and of
the due time `d` later. -/
structure SleepsExactly (wall : Instant) (e d : Duration) : Prop where
  reading : (({ wall } : Clock).reading e).nanos = min (wall.nanos + e.nanos) Instant.last.nanos
  onward : ∀ e', e ≤ e' → ({ wall } : Clock).reading e ≤ ({ wall } : Clock).reading e'
  /-- The due time is the sum, when there is such an instant. -/
  sum : (∃ t, DueTime.after (({ wall } : Clock).reading e) d = .moment t ∧
      t.nanos = (({ wall } : Clock).reading e).nanos + d.nanos) ↔
    (({ wall } : Clock).reading e).nanos + d.nanos ≤ Instant.last.nanos
  never : DueTime.after (({ wall } : Clock).reading e) d = .never ↔
    Instant.last.nanos < (({ wall } : Clock).reading e).nanos + d.nanos
  remaining : ∀ t, DueTime.after (({ wall } : Clock).reading e) d = .moment t →
    (DueTime.moment t).remaining (({ wall } : Clock).reading e) = some d
  /-- It is due at a later reading just if the duration has gone by. -/
  punctual : ∀ t, DueTime.after (({ wall } : Clock).reading e) d = .moment t → ∀ e', e ≤ e' →
    ((DueTime.moment t).isDue (({ wall } : Clock).reading e') = true ↔ e.nanos + d.nanos ≤ e'.nanos)
  /-- Between any two instants the difference is a delta, and what remains is exact. -/
  between : ∀ t now : Instant, Delta.ofNanos? (t.nanos - now.nanos) = some (t.sub now) ∧
    ∃ w, (DueTime.moment t).remaining now = some w ∧ (w.nanos : Int) = max (t.nanos - now.nanos) 0
  past : ∀ t now : Instant, t ≤ now → (DueTime.moment t).remaining now = some .zero

/-- A due time that was made from a reading is that far from it. -/
theorem remaining_after {now : Instant} (h : DueTime.after now d = .moment t) :
    (DueTime.moment t).remaining now = some d := by
  have hsum := DueTime.after_eq_moment_iff.mp h
  obtain ⟨w, hw, hnanos⟩ : ∃ w, (DueTime.moment t).remaining now = some w ∧
      (w.nanos : Int) = max (t.nanos - now.nanos) 0 := DueTime.remaining_moment
  have hsame : w = d := by
    apply Duration.ext_nanos
    omega
  rw [hw, hsame]

theorem remaining_of_past {now : Instant} (h : t ≤ now) :
    (DueTime.moment t).remaining now = some .zero := by
  have hle : t.nanos ≤ now.nanos := h
  obtain ⟨w, hw, hnanos⟩ : ∃ w, (DueTime.moment t).remaining now = some w ∧
      (w.nanos : Int) = max (t.nanos - now.nanos) 0 := DueTime.remaining_moment
  have hzero : w = .zero := by
    apply Duration.ext_nanos
    show w.nanos = 0
    omega
  rw [hw, hzero]

/-- A clock that has stopped at the last instant has nothing due but what was due at once. -/
theorem isDue_reading_iff (h : DueTime.after (({ wall } : Clock).reading e) d = .moment t)
    (later : e ≤ e') :
    (DueTime.moment t).isDue (({ wall } : Clock).reading e') = true ↔
      e.nanos + d.nanos ≤ e'.nanos := by
  have hle : e.nanos ≤ e'.nanos := later
  have hsum := DueTime.after_eq_moment_iff.mp h
  have hlast : t.nanos ≤ Instant.last.nanos := t.upper
  have now := nanos_reading_eq (c := { wall }) (e := e) rfl
  have then' := nanos_reading_eq (c := { wall }) (e := e') rfl
  rw [DueTime.isDue_moment, Instant.le_iff]
  dsimp only at now then'
  omega

theorem sleeps_exactly (wall : Instant) (e d : Duration) : SleepsExactly wall e d where
  reading := nanos_reading_eq rfl
  onward _ later := reading_le_reading rfl later
  sum := by
    constructor
    · rintro ⟨t, -, hsum⟩
      rw [← hsum]
      exact t.upper
    · exact DueTime.after_of_le
  never := DueTime.after_eq_never_iff
  remaining _ h := remaining_after h
  punctual _ h _ later := isDue_reading_iff h later
  between t now := ⟨dif_pos ⟨(t.sub now).lower, (t.sub now).upper⟩, DueTime.remaining_moment⟩
  past _ _ h := remaining_of_past h

end Reveille.Clock
