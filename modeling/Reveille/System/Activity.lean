import Reveille.System.Domain

/-!
# Activities

The effects as activities of one effect, sleeping, and the ways to stop a runner: with all patience
(`stopRunner`), or with an abort after some grace (`stopWithGrace`).
-/

namespace Reveille.Activity

variable {D : Domain}

/-- The activity of one effect. -/
def perform (e : Effect D) : Activity D e.Reply := Program.request (S := D.effects) e

def log (line : Log.Line) : Activity D Unit := perform (.log line)

/-- Goes no further. -/
def panic {α : Type} (p : Panic) : Activity D α :=
  Program.ask (S := D.effects) (.panic p) fun e => nomatch (e : Empty)

/-- Never goes on. -/
def hang {α : Type} : Activity D α :=
  Program.ask (S := D.effects) .hang fun e => nomatch (e : Empty)

def send (e : D.Event) : Activity D (Except BusError Unit) := perform (.send e)

def register (s : D.Sink) : Activity D (Except BusError Unit) := perform (.register s)

def closeBus : Activity D (Except BusError Unit) := perform .closeBus

def isBusClosed : Activity D Bool := perform .isBusClosed

def startRunner (s : D.Service) : Activity D (Except RuntimeError (Handle D.Service)) :=
  perform (.startRunner s)

/-! ### Time -/

/-- The longest sleep, which is thirty years. -/
def longestSleep : Nat := 30 * 365 * 86400 * nanosPerSecond

/-- The time at which a sleep is over: never before the duration has passed, unless that is too
long for one sleep. -/
def wakeTime (now : Nat) (d : Duration) : Nat := Duration.tick (now + min d.nanos longestSleep)

def sleep (d : Duration) : Activity D Unit := do
  let now ← perform .elapsed
  perform (.sleepUntil (wakeTime now d))

/-- Lets some milliseconds pass, if any. -/
def pause (ms : Nat) : Activity D Unit := if 0 < ms then sleep (.ofMillis ms) else pure ()

/-! ### Stopping runners -/

/-- What the end of the runner of a service means to the one who stopped it. -/
def verdict (name : String) : Ending → Except RuntimeError Unit
  | .stopped => .ok ()
  | .panicked _ | .aborted => .error (.runnerPanicked name)

/-- Asks a runner to stop and waits for its end. -/
def stopRunner (name : String) (h : Handle D.Service) : Activity D (Except RuntimeError Unit) := do
  perform (.requestStop h)
  match ← perform (.awaitEnd h none) with
  | some e => return verdict name e
  | none => return .ok ()

/-- Waits for the end of a runner that was asked to stop, and aborts it at a time. -/
def awaitOrAbort (name : String) (grace : Duration) (deadline : Nat) (h : Handle D.Service) :
    Activity D (Except RuntimeError Unit) := do
  match ← perform (.awaitEnd h (some deadline)) with
  | some e => return verdict name e
  | none =>
    perform (.abort h)
    return .error (.graceExceeded grace [name])

/-- Asks a runner to stop, waits for its end, and aborts it after the grace. -/
def stopWithGrace (name : String) (grace : Duration) (h : Handle D.Service) :
    Activity D (Except RuntimeError Unit) := do
  perform (.requestStop h)
  let now ← perform .elapsed
  awaitOrAbort name grace (Duration.tick (now + grace.nanos)) h

end Reveille.Activity
