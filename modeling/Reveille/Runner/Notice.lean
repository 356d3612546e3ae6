import Reveille.Alarm
import Reveille.Log
import Reveille.Runner.Service

/-!
# What a runner writes to the log
-/

namespace Reveille.Runner

inductive Notice (Id : Type) where
  | started (alarm rescanAt : DueTime)
  | stopped
  | alarmMoved (id : Id) (due : DueTime)
  | earlyWake
  | processing (due : Nat)
  | nothingToDo (id : Id)
  | stillDue (id : Id) (due : DueTime)
  | rescheduled (alarm rescanAt : DueTime)
  | itemFailed (error : ServiceError)
  | checkFailed (id : Id) (error : ServiceError)
  | processFailed (id : Id) (error : ServiceError)

namespace Notice

variable {Id : Type}

/-- The line of a notice of the runner of a service; `name` writes an entity. -/
def line (service : String) (name : Id → String) : Notice Id → Log.Line
  | .started alarm rescanAt =>
    say .info "runner started" [("alarm", alarm.text), ("rescan_at", rescanAt.text)]
  | .stopped => say .info "runner stopped" []
  | .alarmMoved id due =>
    say .debug "alarm moved earlier" [("id", name id), ("due", due.text)]
  | .earlyWake => say .trace "early wake" []
  | .processing n => say .debug "processing due entities" [("due", toString n)]
  | .nothingToDo id => say .debug "nothing to do yet" [("id", name id)]
  | .stillDue id due =>
    say .warn "still due after processing; deferred to next rescan"
      [("id", name id), ("due", due.text)]
  | .rescheduled alarm rescanAt =>
    say .debug "rescheduled" [("alarm", alarm.text), ("rescan_at", rescanAt.text)]
  | .itemFailed error => say .warn "check_all item failed" (failure error)
  | .checkFailed id error => say .warn "check_one failed" (("id", name id) :: failure error)
  | .processFailed id error => say .warn "process_one failed" (("id", name id) :: failure error)
where
  say (level : Log.Level) (message : String) (fields : List (String × String)) : Log.Line :=
    ⟨.runner, level, message, ("service", service) :: fields⟩
  failure (error : ServiceError) : List (String × String) :=
    [("label", error.label), ("error", error.message)]

end Notice

end Reveille.Runner
