import Reveille.System.Run

/-!
# Sessions

A session runs a system step by step from outside. A step begins a call, does something at once, or
lets time pass; then the system settles, unless the step says otherwise, and the step is answered.
The answer has the result of the step's own call, if there is one by then, the results of earlier
calls that came in since, and what was written to the log.
-/

namespace Reveille

variable {D : Domain}

/-- What a step of a session does. -/
inductive Act (D : Domain) where
  /-- Begins a call. -/
  | begin (a : Activity D D.Result)
  /-- Changes the system at once. -/
  | change (s : System D) (result : D.Result)
  /-- Lets some milliseconds pass. -/
  | pass (ms : Nat) (result : D.Result)

/-- The answer to a step. -/
inductive Reply (ρ : Type) where
  /-- The step did not let the system settle; its result, unless that is up to a call. -/
  | unsettled (result : Option ρ)
  /-- The result of the step unless it is pending, those of earlier steps, and the log, oldest line
  first. -/
  | settled (result : Option (Except Panic ρ)) (late : List (Nat × Except Panic ρ))
      (log : List Log.Line)

/-- A system with the calls whose results are still to be told. -/
structure Session (D : Domain) where
  system : System D
  /-- The number of the next step. -/
  step : Nat := 0
  /-- Calls whose results are still to be told, and the steps that began them. -/
  pending : List (Nat × Nat) := []

namespace Session

/-- The calls that are over by now, by the steps that began them. -/
def results (pending : List (Nat × Nat)) (s : System D) : List (Nat × Except Panic D.Result) :=
  pending.filterMap fun (call, step) => (s.result? call).map fun r => (step, r)

/-- Tells what happened since the last time. -/
def report (s : Session D) (own : Option D.Result) : Session D × Reply D.Result :=
  let results := results s.pending s.system
  let result := match own with
    | some r => some (.ok r)
    | none => results.lookup s.step
  let late := results.filter fun r => r.1 != s.step
  ({ system := { s.system with log := [] }
     step := s.step + 1
     pending := s.pending.filter fun (call, _) => (s.system.result? call).isNone },
    .settled result late s.system.log.reverse)

/-- Carries out a step. -/
def perform (c : Cast D) (s : Session D) (settles : Bool) (act : Act D) :
    Session D × Reply D.Result :=
  let (system, pending, own) := match act with
    | .begin a => (s.system.start a, s.pending ++ [(s.system.calls.length, s.step)], none)
    | .change system result => (system, s.pending, some result)
    | .pass ms result => (s.system.advance c ms, s.pending, some result)
  if settles then report { s with system := system.settle c, pending } own
  else ({ s with system, pending, step := s.step + 1 }, .unsettled own)

end Session

/-- How many tasks a system has created: its worker, the calls, and the runners handed out. -/
def System.taskCount (s : System D) : Nat :=
  1 + s.calls.length + (s.runners.filter fun t => t.released).length

end Reveille
