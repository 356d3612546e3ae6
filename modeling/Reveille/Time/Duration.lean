/-!
# Durations

A `Duration` is a length of time in nanoseconds, as long as its whole seconds fit in 64 bits.
`Duration.clamp` makes one out of any number of nanoseconds and stops at the longest.

`Duration.text` writes a duration in the largest of the units `s`, `ms`, `µs` and `ns` that it
reaches, with the fewest decimals that are exact.
-/

namespace Reveille

/-- Nanoseconds in one second. -/
abbrev nanosPerSecond : Nat := 1000000000

/-- Nanoseconds in one millisecond. -/
abbrev nanosPerMilli : Nat := 1000000

/-- The number of values of 64 bits. -/
abbrev wordSize : Nat := 18446744073709551616

/-- A length of time whose whole seconds fit in 64 bits. -/
structure Duration where
  nanos : Nat
  bounded : nanos < wordSize * nanosPerSecond
  deriving DecidableEq

namespace Duration

/-- The longest duration: all 64 bits of seconds, and one nanosecond short of another. -/
def longest : Duration := ⟨wordSize * nanosPerSecond - 1, by decide⟩

/-- The duration of `n` nanoseconds, or the longest one if `n` is too many. -/
def clamp (n : Nat) : Duration :=
  ⟨min n longest.nanos, Nat.lt_of_le_of_lt (Nat.min_le_right _ _) longest.bounded⟩

def zero : Duration := ⟨0, by decide⟩

instance : Inhabited Duration := ⟨zero⟩

def ofSeconds (s : Nat) : Duration := clamp (s * nanosPerSecond)

def ofMillis (ms : Nat) : Duration := clamp (ms * nanosPerMilli)

instance : LT Duration := ⟨fun a b => a.nanos < b.nanos⟩
instance : LE Duration := ⟨fun a b => a.nanos ≤ b.nanos⟩

instance (a b : Duration) : Decidable (a < b) := inferInstanceAs (Decidable (a.nanos < b.nanos))
instance (a b : Duration) : Decidable (a ≤ b) := inferInstanceAs (Decidable (a.nanos ≤ b.nanos))

instance : Max Duration := maxOfLe

/-- Whole seconds. -/
def seconds (d : Duration) : Nat := d.nanos / nanosPerSecond

/-- Nanoseconds beyond the whole seconds. -/
def subseconds (d : Duration) : Nat := d.nanos % nanosPerSecond

/-- Whole milliseconds. -/
def millis (d : Duration) : Nat := d.nanos / nanosPerMilli

/-- The fewest whole milliseconds that last `n` nanoseconds. -/
def wholeMillis (n : Nat) : Nat := (n + (nanosPerMilli - 1)) / nanosPerMilli

/-- The first whole millisecond that is not before a time. Timers go off at whole milliseconds. -/
def tick (time : Nat) : Nat := wholeMillis time * nanosPerMilli

/-- The fewest whole milliseconds that are not shorter. -/
def millisUp (d : Duration) : Nat := wholeMillis d.nanos

/-- The duration divided by `n`, rounded down to a nanosecond. -/
def div (d : Duration) (n : Nat) : Duration :=
  ⟨d.nanos / n, Nat.lt_of_le_of_lt (Nat.div_le_self _ _) d.bounded⟩

def half (d : Duration) : Duration := d.div 2

theorem ext_nanos {a b : Duration} (h : a.nanos = b.nanos) : a = b := by
  cases a; cases b; cases h; rfl

theorem nanos_clamp {n : Nat} (h : n < wordSize * nanosPerSecond) : (clamp n).nanos = n := by
  simp only [clamp, longest]; omega

/-- The decimals of `part / whole`, where `whole` is a power of ten, without closing zeros. -/
def decimals (part whole : Nat) : String :=
  let digits := ((toString (whole + part)).toList.drop 1).reverse.dropWhile (· == '0')
  if digits.isEmpty then "" else "." ++ String.ofList digits.reverse

/-- A number of nanoseconds in a unit of `unit` nanoseconds. -/
def inUnit (n unit : Nat) (name : String) : String :=
  toString (n / unit) ++ decimals (n % unit) unit ++ name

/-- The duration in the largest unit it reaches. -/
def text (d : Duration) : String :=
  if nanosPerSecond ≤ d.nanos then inUnit d.nanos nanosPerSecond "s"
  else if nanosPerMilli ≤ d.nanos then inUnit d.nanos nanosPerMilli "ms"
  else if 1000 ≤ d.nanos then inUnit d.nanos 1000 "µs"
  else inUnit d.nanos 1 "ns"

end Duration

end Reveille
