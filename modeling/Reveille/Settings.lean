import Reveille.Jitter

/-!
# Settings

What a whole installation is run with: the capacity of the bus, how long a stopping runner is waited
for, how often a service looks at all of its entities, and the jitter of that interval. Zero stands
for the smallest capacity and for the default interval.
-/

namespace Reveille

/-- How often a service looks at all entities unless told otherwise: every hour. -/
def defaultCheckInterval : Duration := Duration.ofSeconds 3600

/-- How many items a bus queue holds unless told otherwise. -/
def defaultBusCapacity : Nat := 1024

structure Settings where
  busCapacity : Nat := defaultBusCapacity
  /-- How long a runner may go on after it was asked to stop. -/
  grace : Duration := Duration.ofSeconds 30
  checkInterval : Duration := defaultCheckInterval
  rescanJitter : Jitter := .none

namespace Settings

/-- The capacity, at least one. -/
def effectiveBusCapacity (s : Settings) : Nat := max s.busCapacity 1

/-- The interval, or the default one for zero. -/
def effectiveCheckInterval (s : Settings) : Duration :=
  if s.checkInterval = Duration.zero then defaultCheckInterval else s.checkInterval

end Settings

end Reveille
