import Reveille.Poll.Basic

/-!
# When a poll is due

A scheduled poll is due to start. An open poll is due for its next round, or to close: the last
round closes the poll, and so does the closing time once the least number of rounds was reached.
These rules only look at the poll and at a time.
-/

namespace Reveille.Poll

variable (p : Poll)

/-- The end of the present round. -/
def roundDeadline : DueTime :=
  match p.state with
  | .opened _ since _ => .after since p.roundDuration
  | _ => .never

/-- The present round has as many votes as the quorum asks for. -/
def hasQuorum : Bool :=
  match p.state with
  | .opened _ _ votes => 0 < p.quorum && p.quorum ≤ votes.size
  | _ => false

/-- When the first round opens. -/
def startDue : DueTime :=
  match p.state with
  | .scheduled => .moment p.startsAt
  | _ => .never

/-- The closing time counts in this round and has come. -/
def closingReached (round : UInt32) (now : Instant) : Bool :=
  decide (p.minRounds ≤ round) && p.closesAt.any (fun t => decide (t ≤ now))

/-- When the present round gives way to the next one. -/
def advanceDue (now : Instant) : DueTime :=
  match p.state.round? with
  | none => .never
  | some round =>
    if p.maxRounds ≤ round || p.closingReached round now then .never
    else if p.hasQuorum then .moment now
    else p.roundDeadline

/-- The closing time as far as it counts in this round. -/
def closingDue (round : UInt32) : DueTime :=
  if p.minRounds ≤ round then
    match p.closesAt with
    | some t => .moment t
    | none => .never
  else .never

/-- The end of the poll by the end of its last round. -/
def lastRoundDue (round : UInt32) (now : Instant) : DueTime :=
  if p.maxRounds ≤ round then if p.hasQuorum then .moment now else p.roundDeadline
  else .never

/-- When the poll closes. -/
def closeDue (now : Instant) : DueTime :=
  match p.state.round? with
  | none => .never
  | some round => min (p.closingDue round) (p.lastRoundDue round now)

end Reveille.Poll
