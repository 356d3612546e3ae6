import Reveille.Time.Duration

/-!
# Jitter of an interval

A `Jitter` shortens an interval by chance, so that runners which started together do not rescan
together. The possible waits are the whole milliseconds of a range (`Jitter.range`); which of them
is taken is decided by a draw, the distance from the shortest one as far as the range goes
(`Jitter.apply`).
-/

namespace Reveille

/-- How an interval is shortened. -/
inductive Jitter where
  /-- Not at all. -/
  | none
  /-- Anything from zero to the interval. -/
  | full
  /-- Anything from half of the interval to the interval. -/
  | equal
  deriving DecidableEq, Inhabited

namespace Jitter

/-- The most milliseconds a wait can have. -/
abbrev mostMillis : Nat := wordSize - 1

/-- The least and the greatest number of milliseconds between `floor` and `interval`. -/
def millisBetween (floor interval : Duration) : Nat × Nat :=
  let high := min interval.millis mostMillis
  (min (min floor.millis mostMillis) high, high)

/-- The range of the draw in milliseconds, if there is a draw. -/
def range (j : Jitter) (interval : Duration) : Option (Nat × Nat) :=
  match j with
  | .none => Option.none
  | .full => some (millisBetween Duration.zero interval)
  | .equal => some (millisBetween interval.half interval)

/-- The interval shortened as the draw says. -/
def apply (j : Jitter) (interval : Duration) (draw : Nat) : Duration :=
  match j.range interval with
  | Option.none => interval
  | some (low, high) => Duration.ofMillis (min (low + draw) high)

/-- Every possible wait, shortest first. -/
def waits (j : Jitter) (interval : Duration) : List Duration :=
  match j.range interval with
  | Option.none => [interval]
  | some (low, high) => (List.range (high - low + 1)).map fun n => Duration.ofMillis (low + n)

/-- The shortest possible wait. -/
def shortest (j : Jitter) (interval : Duration) : Duration :=
  match j.range interval with
  | Option.none => interval
  | some (low, _) => Duration.ofMillis low

/-- The longest possible wait. -/
def longest (j : Jitter) (interval : Duration) : Duration :=
  match j.range interval with
  | Option.none => interval
  | some (_, high) => Duration.ofMillis high

/-- What can be said about all possible waits against an expected span. -/
structure Bounds where
  inside : Bool
  wholeMillis : Bool
  reachesLow : Bool
  reachesHigh : Bool

/-- The possible waits against a span from `low` to `high`: whether all lie inside and are whole
milliseconds, and whether some lie in the first and in the last tenth. -/
def bounds (j : Jitter) (interval low high : Duration) : Bounds :=
  let least := j.shortest interval
  let most := j.longest interval
  let tenth := (high.nanos - low.nanos) / 10
  { inside := low ≤ least && most ≤ high
    wholeMillis := least.nanos % nanosPerMilli = 0
    reachesLow := least.nanos ≤ low.nanos + tenth
    reachesHigh := high.nanos ≤ most.nanos + tenth }

end Jitter

end Reveille
