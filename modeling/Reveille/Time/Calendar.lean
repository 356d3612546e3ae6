import Reveille.Time.Instant

/-!
# Calendar text of an instant

`Instant.text` writes an instant as RFC 3339 text in universal time. The day count is turned into a
date of the Gregorian calendar, extended without end into both directions (`Date.ofDays`). Years
outside 0 to 9999 carry a sign.
-/

namespace Reveille

/-- A day of the Gregorian calendar. -/
structure Date where
  year : Int
  month : Nat
  day : Nat
  deriving DecidableEq

namespace Date

/-- Days in one cycle of 400 years. -/
abbrev daysPerCycle : Int := 146097

/-- The date `n` days after 1970-01-01. Years are counted from March: a leap day ends one. -/
def ofDays (n : Int) : Date :=
  let shifted := n + 719468
  let cycle := shifted / daysPerCycle
  let day := (shifted % daysPerCycle).toNat
  let year := (day - day / 1460 + day / 36524 - day / 146096) / 365
  let dayOfYear := day - (365 * year + year / 4 - year / 100)
  let month := (5 * dayOfYear + 2) / 153
  { year := cycle * 400 + (year : Int) + (if month < 10 then 0 else 1)
    month := if month < 10 then month + 3 else month - 9
    day := dayOfYear - (153 * month + 2) / 5 + 1 }

example : ofDays 0 = ⟨1970, 1, 1⟩ := by decide
example : ofDays 11016 = ⟨2000, 2, 29⟩ := by decide
example : ofDays (-719529) = ⟨-1, 12, 31⟩ := by decide

end Date

/-- A number with zeros in front up to `width` digits. -/
def padded (width n : Nat) : String :=
  let digits := toString n
  String.ofList (List.replicate (width - digits.length) '0') ++ digits

namespace Instant

/-- A year: four digits, and a sign unless it lies in 0 to 9999. -/
def yearText (y : Int) : String :=
  if y < 0 then "-" ++ padded 4 y.natAbs
  else if 9999 < y then "+" ++ padded 4 y.natAbs
  else padded 4 y.natAbs

/-- The fraction of a second in 0, 3, 6 or 9 digits, the fewest that are exact. -/
def fractionText (n : Nat) : String :=
  if n = 0 then ""
  else if n % 1000000 = 0 then "." ++ padded 3 (n / 1000000)
  else if n % 1000 = 0 then "." ++ padded 6 (n / 1000)
  else "." ++ padded 9 n

/-- The instant as RFC 3339 text in universal time. -/
def text (t : Instant) : String :=
  let date := Date.ofDays (t.seconds / 86400)
  let second := (t.seconds % 86400).toNat
  yearText date.year ++ "-" ++ padded 2 date.month ++ "-" ++ padded 2 date.day ++ "T"
    ++ padded 2 (second / 3600) ++ ":" ++ padded 2 (second / 60 % 60) ++ ":"
    ++ padded 2 (second % 60) ++ fractionText t.subseconds ++ "+00:00"

end Instant

end Reveille
