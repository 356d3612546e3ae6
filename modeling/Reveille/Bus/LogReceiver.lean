import Reveille.Log

/-!
# Log receivers

A log receiver writes every event it sees to the log, and says how many there were when it is told
to stop.
-/

namespace Reveille.Bus

/-- A receiver that writes events to the log under a label, with the number it has seen. -/
structure LogReceiver where
  label : String := "log"
  seen : Nat := 0

namespace LogReceiver

def eventLine (r : LogReceiver) (event : String) : Log.Line :=
  ⟨.logReceiver, .debug, "event", [("receiver", r.label), ("event", event)]⟩

def stopLine (r : LogReceiver) : Log.Line :=
  ⟨.logReceiver, .info, "receiver stopped", [("receiver", r.label), ("seen", toString r.seen)]⟩

end LogReceiver

end Reveille.Bus
