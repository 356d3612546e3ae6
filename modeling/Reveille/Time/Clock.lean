import Reveille.Time.Instant

/-!
# Clocks

A `Clock` shows the wall instant at which it was anchored plus the time that went by since, and
stops at the last instant. A hand can move it: `Clock.skew` is added to every reading that stays
representable with it.
-/

namespace Reveille

/-- A wall instant that follows elapsed time. -/
structure Clock where
  wall : Instant
  /-- Nanoseconds by which the readings were moved by hand. -/
  skew : Int := 0
  deriving DecidableEq

namespace Clock

/-- The anchor plus the elapsed time, at most the last instant. -/
def steady (c : Clock) (elapsed : Duration) : Instant :=
  (c.wall.add? ((Delta.ofDuration? elapsed).getD .longest)).getD .last

/-- What the clock shows after some elapsed time. -/
def reading (c : Clock) (elapsed : Duration) : Instant :=
  let steady := c.steady elapsed
  ((Delta.ofNanos? c.skew).bind steady.add?).getD steady

/-- The clock moved by hand by some milliseconds. -/
def shift (c : Clock) (ms : Int) : Clock := { c with skew := c.skew + ms * nanosPerMilli }

end Clock

end Reveille
