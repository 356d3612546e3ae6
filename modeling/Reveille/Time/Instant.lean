import Reveille.Time.Duration

/-!
# Instants

An `Instant` is a point of time in nanoseconds since the start of 1970, between the first and the
last representable instant. A `Delta` is a signed length of time whose size in milliseconds fits in
63 bits. Adding a delta to an instant gives an instant or nothing (`Instant.add?`), the difference
of two instants is always a delta (`Instant.sub`), and a delta that is not negative is a duration
(`Delta.toDuration?`).
-/

namespace Reveille

/-- The largest size of a `Delta` in nanoseconds. -/
abbrev Delta.bound : Int := 9223372036854775807 * 1000000

/-- A signed length of time. -/
structure Delta where
  nanos : Int
  lower : -Delta.bound ≤ nanos
  upper : nanos ≤ Delta.bound
  deriving DecidableEq

namespace Delta

def longest : Delta := ⟨Delta.bound, by decide, by decide⟩

/-- The delta of `n` nanoseconds, if it is within the bounds. -/
def ofNanos? (n : Int) : Option Delta :=
  if h : -Delta.bound ≤ n ∧ n ≤ Delta.bound then some ⟨n, h.1, h.2⟩ else none

/-- A duration as a delta, if it is not too long. -/
def ofDuration? (d : Duration) : Option Delta := ofNanos? d.nanos

/-- A delta that is not negative as a duration. -/
def toDuration? (d : Delta) : Option Duration :=
  if d.nanos < 0 then none else some (Duration.clamp d.nanos.toNat)

end Delta

/-- A point of time. -/
structure Instant where
  nanos : Int
  lower : -8334601228800 * 1000000000 ≤ nanos
  upper : nanos ≤ 8210266876799 * 1000000000 + 999999999
  deriving DecidableEq

namespace Instant

/-- The start of the year -262143. -/
def first : Instant := ⟨-8334601228800 * 1000000000, by decide, by decide⟩

/-- The last nanosecond of the year 262142. -/
def last : Instant := ⟨8210266876799 * 1000000000 + 999999999, by decide, by decide⟩

/-- The start of 1970. -/
def epoch : Instant := ⟨0, by decide, by decide⟩

instance : Inhabited Instant := ⟨first⟩

/-- The instant `n` nanoseconds after the start of 1970, if it is within the bounds. -/
def ofNanos? (n : Int) : Option Instant :=
  if h : first.nanos ≤ n ∧ n ≤ last.nanos then some ⟨n, h.1, h.2⟩ else none

instance : LT Instant := ⟨fun a b => a.nanos < b.nanos⟩
instance : LE Instant := ⟨fun a b => a.nanos ≤ b.nanos⟩

instance (a b : Instant) : Decidable (a < b) := inferInstanceAs (Decidable (a.nanos < b.nanos))
instance (a b : Instant) : Decidable (a ≤ b) := inferInstanceAs (Decidable (a.nanos ≤ b.nanos))

/-- Whole seconds since the start of 1970, rounded toward the past. -/
def seconds (t : Instant) : Int := t.nanos / 1000000000

/-- Nanoseconds beyond the whole seconds. -/
def subseconds (t : Instant) : Nat := (t.nanos % 1000000000).toNat

/-- The instant a delta later, if it is representable. -/
def add? (t : Instant) (d : Delta) : Option Instant := ofNanos? (t.nanos + d.nanos)

/-- The instant one nanosecond later, or the last one again. -/
def next (t : Instant) : Instant := (ofNanos? (t.nanos + 1)).getD last

/-- The time from `u` to `t`. -/
def sub (t u : Instant) : Delta :=
  ⟨t.nanos - u.nanos, by have := t.lower; have := u.upper; simp only [Delta.bound]; omega,
    by have := t.upper; have := u.lower; simp only [Delta.bound]; omega⟩

theorem ext_nanos {a b : Instant} (h : a.nanos = b.nanos) : a = b := by
  cases a; cases b; cases h; rfl

end Instant

end Reveille
