import Reveille.Text.Quoted
import Reveille.Time.Duration

/-!
# Errors

The reasons for which an operation can fail, by layer: the bus, a service asked about its entities,
and the starting and stopping of runners. Each has a short stable label for logs, a message, and,
where it carries another error on, that error's message as its source.
-/

namespace Reveille

/-- Why the bus refused an operation. -/
inductive BusError where
  /-- Closing has begun. -/
  | closed
  /-- Closing had begun before this request to close. -/
  | alreadyClosed
  /-- The queue has no room. -/
  | full
  /-- There is no shared bus yet. -/
  | notInitialized
  deriving DecidableEq, Inhabited

namespace BusError

def label : BusError → String
  | .closed => "bus_closed"
  | .alreadyClosed => "bus_already_closed"
  | .full => "bus_full"
  | .notInitialized => "bus_not_initialized"

def message : BusError → String
  | .closed => "event bus is closed"
  | .alreadyClosed => "event bus already closed"
  | .full => "event bus queue is full"
  | .notInitialized => "default event bus is not initialized"

end BusError

/-- Why a service could not answer. -/
inductive ServiceError where
  /-- Its own store failed, with this message. -/
  | store (source : String)
  /-- Anything else. -/
  | failed (reason : String)
  deriving DecidableEq, Inhabited

namespace ServiceError

def label : ServiceError → String
  | .store _ => "service_store"
  | .failed _ => "service_failed"

def message : ServiceError → String
  | .store source => "store error: " ++ source
  | .failed reason => "service failed: " ++ reason

def source : ServiceError → Option String
  | .store source => some source
  | .failed _ => none

end ServiceError

/-- Why a runner could not be started or stopped. -/
inductive RuntimeError where
  /-- The bus did not take its receiver. -/
  | bus (cause : BusError)
  /-- These runners were still busy when the grace ran out, and were aborted. -/
  | graceExceeded (grace : Duration) (stuck : List String)
  /-- The runner of this service panicked. -/
  | runnerPanicked (name : String)
  deriving DecidableEq

namespace RuntimeError

def label : RuntimeError → String
  | .bus _ => "runtime_bus"
  | .graceExceeded _ _ => "runtime_grace_exceeded"
  | .runnerPanicked _ => "runtime_runner_panicked"

def message : RuntimeError → String
  | .bus cause => "bus rejected runner: " ++ cause.message
  | .graceExceeded grace stuck =>
    "stop timeout " ++ grace.text ++ " exceeded; stuck: " ++ Text.quotedList stuck
  | .runnerPanicked name => "runner " ++ name ++ " panicked"

def source : RuntimeError → Option String
  | .bus cause => some cause.message
  | .graceExceeded _ _ => none
  | .runnerPanicked _ => none

end RuntimeError

/-- What code leaves behind when it panics: a message, unless it is not text. -/
structure Panic where
  text? : Option String
  deriving DecidableEq, Inhabited

namespace Panic

def message (p : Panic) : String := p.text?.getD "unknown panic"

end Panic

end Reveille
