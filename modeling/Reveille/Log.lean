/-!
# Log lines

A `Log.Line` is what one part of the program has to say: how severe it is, a message, and named
fields. `Log.gather` puts lines into the order in which they are reported: by the part that wrote
them and the service they are about, and in the order of writing otherwise.
-/

namespace Reveille.Log

inductive Level where
  | warn
  | info
  | debug
  | trace
  deriving DecidableEq, Inhabited

namespace Level

/-- Zero for the most severe. -/
def rank : Level → Nat
  | .warn => 0
  | .info => 1
  | .debug => 2
  | .trace => 3

def name : Level → String
  | .warn => "WARN"
  | .info => "INFO"
  | .debug => "DEBUG"
  | .trace => "TRACE"

end Level

/-- The part of the program that writes a line. -/
inductive Part where
  | runner
  | bus
  | scheduler
  | pollContext
  | advanceService
  | closeService
  | startService
  | logReceiver
  deriving DecidableEq, Inhabited

/-- The order in which the parts are reported. -/
def Part.rank : Part → Nat
  | .runner => 0
  | .bus => 1
  | .scheduler => 2
  | .pollContext => 3
  | .advanceService => 4
  | .closeService => 5
  | .startService => 6
  | .logReceiver => 7

structure Line where
  part : Part
  level : Level
  message : String
  fields : List (String × String)
  deriving DecidableEq

namespace Line

/-- The service a line is about, or nothing. -/
def service (l : Line) : String := (l.fields.lookup "service").getD ""

/-- `a` may stand before `b` in a report. -/
def before (a b : Line) : Bool :=
  a.part.rank < b.part.rank || (a.part.rank == b.part.rank && decide (a.service ≤ b.service))

end Line

/-- The lines at a level or more severe, in the order of a report. -/
def gather (level : Level) (lines : List Line) : List Line :=
  (lines.filter fun l => l.level.rank ≤ level.rank).mergeSort Line.before

end Reveille.Log
