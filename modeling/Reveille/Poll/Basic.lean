import Reveille.DueTime

/-!
# Polls

A poll is scheduled, then open for one round of votes after another, then closed. Its parameters say
when it starts, how long a round lasts, how many votes end a round early, how many rounds it has at
least and at most, and from when on it may close after the least number of rounds.

The voters of a round are a set, kept as a list in ascending order, so that equal sets are equal
values.
-/

namespace Reveille.Poll

/-- The number of a poll. -/
structure Id where
  number : Nat
  deriving DecidableEq, Inhabited

namespace Id

def text (id : Id) : String := "#" ++ toString id.number

/-- The number as runners write it to the log. -/
def logText (id : Id) : String := "PollId(" ++ toString id.number ++ ")"

end Id

/-- Puts an element before the first larger one. -/
def insertOrdered {α : Type} (smaller : α → α → Bool) (a : α) : List α → List α
  | [] => [a]
  | b :: bs => if smaller a b then a :: b :: bs else b :: insertOrdered smaller a bs

theorem mem_insertOrdered {α : Type} {smaller : α → α → Bool} {a b : α} {l : List α} :
    b ∈ insertOrdered smaller a l ↔ b = a ∨ b ∈ l := by
  induction l with
  | nil => simp [insertOrdered]
  | cons c l ih =>
    unfold insertOrdered
    split
    · simp
    · simp only [List.mem_cons, ih]
      constructor
      · rintro (h | h | h)
        · exact .inr (.inl h)
        · exact .inl h
        · exact .inr (.inr h)
      · rintro (h | h | h)
        · exact .inr (.inl h)
        · exact .inl h
        · exact .inr (.inr h)

/-- Insertion keeps an ascending list ascending if the element can be compared with all others. -/
theorem pairwise_insertOrdered {α : Type} {smaller : α → α → Bool} {R : α → α → Prop} {a : α}
    {l : List α} (trans : ∀ {x y z}, R x y → R y z → R x z) (h : l.Pairwise R)
    (below : ∀ b ∈ l, smaller a b = true → R a b) (above : ∀ b ∈ l, smaller a b = false → R b a) :
    (insertOrdered smaller a l).Pairwise R := by
  induction l with
  | nil => simp [insertOrdered]
  | cons c l ih =>
    obtain ⟨hc, hl⟩ := List.pairwise_cons.1 h
    unfold insertOrdered
    split
    next hs =>
      have hac := below c (by simp) hs
      refine List.pairwise_cons.2 ⟨fun b hb => ?_, h⟩
      rcases List.mem_cons.1 hb with rfl | hb
      · exact hac
      · exact trans hac (hc b hb)
    next hs =>
      refine List.pairwise_cons.2 ⟨fun b hb => ?_, ih hl
        (fun b hb => below b (List.mem_cons_of_mem _ hb))
        (fun b hb => above b (List.mem_cons_of_mem _ hb))⟩
      rcases mem_insertOrdered.1 hb with rfl | hb
      · exact above c (by simp) (by simpa using hs)
      · exact hc b hb

/-- A set of voters, in ascending order. -/
structure Voters where
  names : List String
  ascending : names.Pairwise (· < ·)
  deriving DecidableEq

namespace Voters

def empty : Voters := ⟨[], .nil⟩

instance : Inhabited Voters := ⟨empty⟩
instance : Membership String Voters := ⟨fun v name => name ∈ v.names⟩

instance (name : String) (v : Voters) : Decidable (name ∈ v) :=
  inferInstanceAs (Decidable (name ∈ v.names))

def size (v : Voters) : Nat := v.names.length

/-- Adds a voter, once. -/
def insert (v : Voters) (name : String) : Voters :=
  if h : name ∈ v.names then v
  else ⟨insertOrdered (fun a b => decide (a < b)) name v.names,
    pairwise_insertOrdered (fun h₁ h₂ => String.lt_trans h₁ h₂) v.ascending
      (fun _ _ h => by simpa using h)
      (fun b hb h' => Decidable.byContradiction fun hn => h (by
        have hle : b ≤ name := String.not_lt.1 (by simpa using h')
        exact String.le_antisymm hle (String.not_lt.1 hn) ▸ hb))⟩

def ofList (names : List String) : Voters := names.foldl insert empty

end Voters

/-- How far a poll is. -/
inductive State where
  | scheduled
  /-- Open for the votes of a round. -/
  | opened (round : UInt32) (since : Instant) (votes : Voters)
  /-- Closed after so many rounds. -/
  | closed (time : Instant) (rounds : UInt32)
  deriving DecidableEq, Inhabited

namespace State

/-- A round without votes. -/
def fresh (round : UInt32) (since : Instant) : State := .opened round since .empty

def round? : State → Option UInt32
  | .opened round _ _ => some round
  | _ => none

def isClosed : State → Bool
  | .closed _ _ => true
  | _ => false

end State

end Reveille.Poll

namespace Reveille

/-- A poll. -/
structure Poll where
  id : Poll.Id
  title : String
  startsAt : Instant
  roundDuration : Duration
  /-- Votes that end a round early; with zero none do. -/
  quorum : Nat
  /-- Rounds before which the poll does not close. -/
  minRounds : UInt32
  /-- The last round. -/
  maxRounds : UInt32
  /-- From when on the poll closes once it had `minRounds`. -/
  closesAt : Option Instant
  state : Poll.State
  deriving DecidableEq

namespace Poll

/-- A scheduled poll of one round of an hour, without a quorum. -/
def create (id : Id) (title : String) (startsAt : Instant) : Poll :=
  { id, title, startsAt, roundDuration := .ofSeconds 3600, quorum := 0, minRounds := 1,
    maxRounds := 1, closesAt := none, state := .scheduled }

def withRoundDuration (p : Poll) (d : Duration) : Poll := { p with roundDuration := d }

def withQuorum (p : Poll) (n : Nat) : Poll := { p with quorum := n }

/-- Sets the least and the greatest number of rounds, so that `1 ≤ least ≤ greatest`. -/
def withRounds (p : Poll) (least greatest : UInt32) : Poll :=
  { p with minRounds := max least 1, maxRounds := max greatest (max least 1) }

def withClosesAt (p : Poll) (t : Instant) : Poll := { p with closesAt := some t }

end Poll

end Reveille
