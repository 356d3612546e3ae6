import Reveille.Poll.Basic

/-!
# Events of polls

Every change of a poll is announced on the bus by one event.
-/

namespace Reveille.Poll

/-- What happened to a poll. -/
inductive Event where
  | created (poll : Id)
  /-- The first round opened. -/
  | started (poll : Id) (round : UInt32)
  | voteCast (poll : Id) (round : UInt32) (voter : String)
  /-- A round gave way to this one. -/
  | roundAdvanced (poll : Id) (round : UInt32)
  /-- The poll closed after so many rounds. -/
  | closed (poll : Id) (rounds : UInt32)
  deriving DecidableEq, Inhabited

namespace Event

/-- The poll that an event is about. -/
def poll : Event → Id
  | .created poll => poll
  | .started poll _ => poll
  | .voteCast poll _ _ => poll
  | .roundAdvanced poll _ => poll
  | .closed poll _ => poll

def label : Event → String
  | .created _ => "poll_created"
  | .started _ _ => "poll_started"
  | .voteCast _ _ _ => "poll_vote_cast"
  | .roundAdvanced _ _ => "poll_round_advanced"
  | .closed _ _ => "poll_closed"

end Event

end Reveille.Poll
