import Reveille.System.Step

/-!
# Running a system

One of the many runs of a system: every actor goes on until it blocks, one after another, again and
again until nobody can go on (`System.settle`). Whoever starts a runner lends it the turn for its
seeding pass, and an aborted runner is dropped in the turn that is under way (`System.stepFor`).
Time moves from one deadline to the next, and the system settles at each of them (`System.advance`).
-/

namespace Reveille.System

variable {D : Domain}

/-- More steps than any run between two moments of time makes. -/
def stepLimit : Nat := wordSize / 4

/-- The runner whose seeding pass an actor waits for. -/
def seededFor? (s : System D) : Actor → Option Nat
  | .call i =>
    match s.calls[i]? with
    | some (.running (.ask (.release runner) _)) => some runner
    | _ => none
  | _ => none

/-- The runner that is to be dropped. -/
def condemned? (s : System D) : Option Nat :=
  s.runners.findIdx? fun t => t.aborted && t.ending.isNone

/-- One step in the turn of an actor, made by itself, by the runner that it starts, or by one that
was aborted. -/
def stepFor (c : Cast D) (s : System D) (a : Actor) : Option (System D) :=
  match s.step c a with
  | some s => some s
  | none => ((s.seededFor? a).or s.condemned?).bind fun i => s.step c (.runner i)

/-- Lets one actor make up to `n` steps. -/
def drive (c : Cast D) (a : Actor) : Nat → System D → System D
  | 0, s => s
  | n + 1, s =>
    match s.stepFor c a with
    | some s => drive c a n s
    | none => s

/-- Lets everyone go on until nobody can, in at most `n` rounds. -/
def settleWithin (c : Cast D) : Nat → System D → System D
  | 0, s => s
  | n + 1, s =>
    if s.isSettled c then s
    else settleWithin c n (s.actors.foldl (fun s a => drive c a stepLimit s) s)

/-- Lets everyone go on until nobody can without time passing. -/
def settle (c : Cast D) (s : System D) : System D := settleWithin c stepLimit s

/-- Moves time on to `target` in at most `n` stops at deadlines. -/
def advanceWithin (c : Cast D) (target : Nat) : Nat → System D → System D
  | 0, s => settle c { s with time := target }
  | n + 1, s =>
    let s := settle c s
    match s.nextDeadline? with
    | some time =>
      if time < target then advanceWithin c target n { s with time := max time s.time }
      else settle c { s with time := target }
    | none => settle c { s with time := target }

/-- Moves time on by some milliseconds. -/
def advance (c : Cast D) (s : System D) (ms : Nat) : System D :=
  advanceWithin c (s.time + ms * nanosPerMilli) (ms + 1) s

end Reveille.System
