import Reveille.DueTime
import Reveille.Error

/-!
# What a service answers

A service knows a changing set of entities, each with a due time, and can process one of them. A
runner asks it for all entities, for one, or to process one; these are the answers.
-/

namespace Reveille

/-- The outcome of processing one entity. -/
inductive Processed where
  /-- Something was done, and the due time has to be looked up anew. -/
  | advanced
  /-- Something was done, and the entity is next due then. -/
  | advancedUntil (due : DueTime)
  /-- The entity was not due after all. -/
  | nothingToDoYet
  deriving DecidableEq, Inhabited

/-- One entity and its due time, or why it could not be told. -/
abbrev Reported (Id : Type) := Except ServiceError (Id × DueTime)

/-- The entities a service asked to be looked at, each once, in the order of the first asking. -/
def scheduled {Id : Type} [DecidableEq Id] (asked : List Id) : List Id :=
  asked.foldl (fun seen id => if id ∈ seen then seen else seen ++ [id]) []

end Reveille
