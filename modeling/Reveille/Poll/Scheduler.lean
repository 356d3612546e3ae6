import Reveille.Poll.Duty
import Reveille.System.Activity

/-!
# The poll scheduler

A `Scheduler` is a number of runners that were started together and are shut down together. Starting
is all or nothing: when the bus refuses one of them, those started before are stopped again.
Shutting down asks all of them to stop, aborts those still busy when the grace has run out, and then
closes the bus.
-/

namespace Reveille

variable {D : Domain}

/-- The runners of a scheduler, in the order in which they were started. -/
structure Scheduler (S : Type) where
  handles : List (Handle S)
  grace : Duration

namespace Scheduler

open Activity

def line (level : Log.Level) (message : String) (fields : List (String × String)) : Log.Line :=
  ⟨.scheduler, level, message, fields⟩

/-- Stops the runners that were started before one could not be. -/
def rollback (name : D.Service → String) : List (Handle D.Service) → Activity D Unit
  | [] => pure ()
  | h :: rest => do
    match ← stopRunner (name h.service) h with
    | .ok () => pure ()
    | .error e => log (line .warn "rollback stop failed"
        [("runner", name h.service), ("label", e.label), ("error", e.message)])
    rollback name rest

/-- Starts the runners of a list after others, or stops those as well. -/
def startRest (name : D.Service → String) (started : List (Handle D.Service)) :
    List D.Service → Activity D (Except RuntimeError (List (Handle D.Service)))
  | [] => pure (.ok started)
  | s :: rest => do
    match ← startRunner s with
    | .ok h => startRest name (started ++ [h]) rest
    | .error e =>
      rollback name started
      return .error e

/-- Starts a runner for every service of a list. -/
def start (name : D.Service → String) (grace : Duration) (services : List D.Service) :
    Activity D (Except RuntimeError (Scheduler D.Service)) := do
  match ← startRest name [] services with
  | .ok handles =>
    log (line .info "poll scheduler started" [("runners", toString handles.length)])
    return .ok ⟨handles, grace⟩
  | .error e => return .error e

/-- Waits for runners that were asked to stop, and aborts them at a time. -/
def awaitAll (name : D.Service → String) (grace : Duration) (deadline : Nat) :
    List (Handle D.Service) → Activity D (List (Except RuntimeError Unit))
  | [] => pure []
  | h :: rest => do
    let result ← awaitOrAbort (name h.service) grace deadline h
    return result :: (← awaitAll name grace deadline rest)

/-- The runners that had to be aborted. -/
def stuck (results : List (Except RuntimeError Unit)) : List String :=
  results.flatMap fun
    | .error (.graceExceeded _ names) => names
    | _ => []

/-- Reports the runners that ended badly. -/
def report : Except RuntimeError Unit → Activity D Unit
  | .ok () | .error (.graceExceeded _ _) => pure ()
  | .error e => log (line .warn "runner stop failed" [("label", e.label), ("error", e.message)])

/-- Stops the runners, then closes the bus. -/
def shutdown (name : D.Service → String) (s : Scheduler D.Service) :
    Activity D (Except RuntimeError Unit) := do
  Program.each (fun h => perform (.requestStop h)) s.handles
  let now ← perform .elapsed
  let results ← awaitAll name s.grace (Duration.tick (now + s.grace.nanos)) s.handles
  Program.each report results
  match ← closeBus with
  | .ok () | .error .alreadyClosed =>
    if (stuck results).isEmpty then
      log (line .info "poll scheduler stopped" [])
      return .ok ()
    else
      log (line .warn "runners aborted after grace period"
        [("stuck", Text.quotedList (stuck results)), ("grace", s.grace.text)])
      return .error (.graceExceeded s.grace (stuck results))
  | .error e => return .error (.bus e)

end Scheduler

end Reveille
