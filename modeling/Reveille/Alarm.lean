import Reveille.DueTime

/-!
# Alarms

An `Alarm` is the one wake that a runner keeps: a due time, and the entity that asked for it, if
any. Candidates are folded in with `Alarm.offer`, which keeps the earlier due time and, on a tie,
the alarm as it is.
-/

namespace Reveille

/-- The next wake and the entity that set it. -/
structure Alarm (Id : Type) where
  due : DueTime
  id : Option Id
  deriving DecidableEq

namespace Alarm

variable {Id : Type}

def never : Alarm Id := ⟨.never, none⟩

/-- An alarm that no entity asked for. -/
def fallback (due : DueTime) : Alarm Id := ⟨due, none⟩

instance : Inhabited (Alarm Id) := ⟨never⟩

/-- A candidate moves the alarm when it is strictly earlier. -/
def movedBy (a : Alarm Id) (due : DueTime) : Bool := decide (due < a.due)

/-- The alarm after a candidate was folded in. -/
def offer (a : Alarm Id) (due : DueTime) (id : Option Id) : Alarm Id :=
  if a.movedBy due then ⟨due, id⟩ else a

end Alarm

end Reveille
