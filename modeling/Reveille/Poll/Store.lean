import Reveille.Poll.Error
import Reveille.Program

/-!
# The store of polls

A `Store` holds polls under their numbers, in ascending order. A state is only replaced if it is the
one that the caller expects as a whole (`Store.update`), and a vote only counts in an open round and
once for each voter (`Store.recordVote`).

`Store.Request` lists the requests to a store, and `Store.answer` answers one.
-/

namespace Reveille.Poll

/-- Polls in ascending order of their numbers. -/
structure Store where
  polls : List Poll
  ascending : polls.Pairwise (fun p q => p.id.number < q.id.number)

namespace Store

def empty : Store := ⟨[], .nil⟩

instance : Inhabited Store := ⟨empty⟩

def size (s : Store) : Nat := s.polls.length

def find? (s : Store) (id : Id) : Option Poll := s.polls.find? (fun p => p.id = id)

/-- Adds a poll whose number is free. -/
def add (s : Store) (p : Poll) (h : ∀ q ∈ s.polls, q.id ≠ p.id) : Store :=
  ⟨insertOrdered (fun a b => decide (a.id.number < b.id.number)) p s.polls,
    pairwise_insertOrdered (fun h₁ h₂ => Nat.lt_trans h₁ h₂) s.ascending
      (fun _ _ h => by simpa using h)
      (fun q hq h' => by
        have hne : q.id.number ≠ p.id.number := fun he => h q hq (by
          cases hq' : q.id; cases hp' : p.id; simp_all)
        have hle : q.id.number ≤ p.id.number := by simpa using h'
        omega)⟩

/-- Replaces the state of a poll. -/
def setState (s : Store) (id : Id) (next : State) : Store :=
  ⟨s.polls.map fun p => if p.id = id then { p with state := next } else p, by
    refine List.pairwise_map.2 (s.ascending.imp fun {p q} h => ?_)
    split <;> split <;> exact h⟩

/-- Stores a new poll. -/
def insert (s : Store) (p : Poll) : Except StoreError Store :=
  if h : ∀ q ∈ s.polls, q.id ≠ p.id then .ok (s.add p h) else .error (.conflict p.id)

/-- Loads a poll. -/
def get (s : Store) (id : Id) : Except StoreError Poll :=
  match s.find? id with
  | some p => .ok p
  | none => .error (.notFound id)

/-- Replaces the state of a poll if it is the expected one; gives the poll with the new state. -/
def update (s : Store) (id : Id) (expected next : State) : Except StoreError (Store × Poll) :=
  match s.find? id with
  | none => .error (.notFound id)
  | some p =>
    if p.state = expected then .ok (s.setState id next, { p with state := next })
    else .error (.conflict id)

/-- Adds a vote to the present round of a poll, and gives the round. -/
def recordVote (s : Store) (id : Id) (voter : String) : Except StoreError (Store × UInt32) :=
  match s.find? id with
  | none => .error (.notFound id)
  | some p =>
    match p.state with
    | .opened round since votes =>
      if voter ∈ votes then .error (.duplicateVote id round voter)
      else .ok (s.setState id (.opened round since (votes.insert voter)), round)
    | _ => .error (.notOpen id)

/-- What a store can be asked for. -/
inductive Request where
  | insert (p : Poll)
  | get (id : Id)
  | all
  | update (id : Id) (expected next : State)
  | recordVote (id : Id) (voter : String)

/-- The replies to a request. -/
abbrev Request.Reply : Request → Type
  | .insert _ => Except StoreError Unit
  | .get _ => Except StoreError Poll
  | .all => Except StoreError (List Poll)
  | .update _ _ _ => Except StoreError Poll
  | .recordVote _ _ => Except StoreError UInt32

/-- The reply of a request that may have changed the store. -/
def settled {α : Type} (s : Store) : Except StoreError (Store × α) → Except StoreError α × Store
  | .ok (s, a) => (.ok a, s)
  | .error e => (.error e, s)

/-- Answers a request. -/
def answer (s : Store) : (q : Request) → q.Reply × Store
  | .insert p => s.settled ((s.insert p).map fun s => (s, ()))
  | .get id => (s.get id, s)
  | .all => (.ok s.polls, s)
  | .update id expected next => s.settled (s.update id expected next)
  | .recordVote id voter => s.settled (s.recordVote id voter)

end Store

end Reveille.Poll
