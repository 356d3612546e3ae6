import Reveille.Error
import Reveille.Poll.Basic

/-!
# Errors of polls

Why the store refuses a request, and why a poll could not be created or a vote not be cast.
-/

namespace Reveille

namespace Poll

/-- Why a store refuses a request. -/
inductive StoreError where
  | notFound (poll : Id)
  /-- The state is not the expected one, or the number is taken. -/
  | conflict (poll : Id)
  | notOpen (poll : Id)
  /-- The voter voted in this round before. -/
  | duplicateVote (poll : Id) (round : UInt32) (voter : String)
  deriving DecidableEq, Inhabited

namespace StoreError

def label : StoreError → String
  | .notFound _ => "store_not_found"
  | .conflict _ => "store_conflict"
  | .notOpen _ => "store_not_open"
  | .duplicateVote _ _ _ => "store_duplicate_vote"

def message : StoreError → String
  | .notFound poll => "poll " ++ poll.text ++ " not found"
  | .conflict poll => "poll " ++ poll.text ++ " was modified concurrently"
  | .notOpen poll => "poll " ++ poll.text ++ " is not open"
  | .duplicateVote poll round voter =>
    voter ++ " already voted in round " ++ toString round.toNat ++ " of poll " ++ poll.text

end StoreError

end Poll

/-- Why a poll could not be created, or a vote not be cast. -/
inductive PollError where
  | store (cause : Poll.StoreError)
  /-- The change was stored but could not be announced. -/
  | bus (cause : BusError)
  deriving DecidableEq, Inhabited

namespace PollError

/-- The label of the cause. -/
def label : PollError → String
  | .store cause => cause.label
  | .bus cause => cause.label

def message : PollError → String
  | .store cause => cause.message
  | .bus cause => "event not published: " ++ cause.message

/-- A store error stands for itself; a bus error is carried on. -/
def source : PollError → Option String
  | .store _ => none
  | .bus cause => some cause.message

end PollError

end Reveille
