import Reveille.Time.Calendar

/-!
# Due times

A `DueTime` says when an entity has to be looked at again: from some moment on, or never. Moments
are ordered as instants and `never` comes after all of them. `DueTime.after` is the due time a
duration from now; one that would lie beyond the last instant is `never`.
-/

namespace Reveille

/-- When an entity becomes due. -/
inductive DueTime where
  /-- Due at this instant and from then on. -/
  | moment (t : Instant)
  /-- Not due, and time alone will not make it so. -/
  | never
  deriving DecidableEq

namespace DueTime

instance : Inhabited DueTime := ⟨.never⟩

/-- Moments in the order of time, and `never` last. -/
def lt : DueTime → DueTime → Prop
  | .moment t, .moment u => t < u
  | .moment _, .never => True
  | .never, _ => False

def le (a b : DueTime) : Prop := ¬ lt b a

instance : LT DueTime := ⟨lt⟩
instance : LE DueTime := ⟨le⟩

instance decidableLT : (a b : DueTime) → Decidable (a < b)
  | .moment t, .moment u => inferInstanceAs (Decidable (t < u))
  | .moment _, .never => isTrue trivial
  | .never, _ => isFalse id

instance (a b : DueTime) : Decidable (a ≤ b) := inferInstanceAs (Decidable (¬ b < a))

instance : Min DueTime := minOfLe
instance : Max DueTime := maxOfLe

instance : Ord DueTime := ⟨fun a b => if a < b then .lt else if b < a then .gt else .eq⟩

/-- The due time `d` from `now`, or `never` if no instant lies that far ahead. -/
def after (now : Instant) (d : Duration) : DueTime :=
  match (Delta.ofDuration? d).bind now.add? with
  | some t => .moment t
  | none => .never

def instant? : DueTime → Option Instant
  | .moment t => some t
  | .never => none

/-- The due time is a moment at or before `now`. -/
def isDue : DueTime → Instant → Bool
  | .moment t, now => decide (t ≤ now)
  | .never, _ => false

def isNever : DueTime → Bool
  | .moment _ => false
  | .never => true

/-- How long to wait from `now`: nothing when already due, and without end when never. -/
def remaining (due : DueTime) (now : Instant) : Option Duration :=
  due.instant?.map fun t => ((t.sub now).toDuration?).getD Duration.zero

def text : DueTime → String
  | .moment t => t.text
  | .never => "never"

end DueTime

end Reveille
