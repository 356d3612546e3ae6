import Reveille.Error

/-!
# The queue of a bus

A `Channel` is a queue of at most `capacity` items between many senders and one worker. A sender
that is ready to wait goes through three steps: it enters while the channel accepts senders, it asks
for a slot, which it gets at once or when its turn in the waiting line comes, and it commits its
item into that slot. Closing comes between any two of these steps: a sender that commits after it
gives its slot back instead. `Channel.trySend` does everything in one step or fails.

The worker takes the oldest item (`Channel.take`). It learns that the queue has ended when nobody is
accepted any more, nobody is on the way, and nothing is left.
-/

namespace Reveille.Bus

/-- A bounded queue. Senders on the way are named by `T`, items have the type `C`. -/
structure Channel (T C : Type) where
  capacity : Nat
  /-- Committed items, oldest first. -/
  queue : List C := []
  /-- Senders that entered and did not ask for a slot yet. -/
  entered : List T := []
  /-- Senders that asked for a slot and got none, first come first. -/
  waiting : List T := []
  /-- Senders that hold a slot. -/
  granted : List T := []
  /-- New senders are let in. -/
  accepting : Bool := true
  /-- The worker is there to take items. -/
  listening : Bool := true

namespace Channel

variable {T C : Type}

/-- An empty queue with room for at least one item. -/
def empty (capacity : Nat) : Channel T C := { capacity := max capacity 1 }

/-- Slots that neither hold an item nor belong to a sender. -/
def free (c : Channel T C) : Nat := c.capacity - (c.queue.length + c.granted.length)

/-- Senders on the way. -/
def senders (c : Channel T C) : List T := c.entered ++ c.waiting ++ c.granted

/-- Gives a free slot to the first waiting sender. -/
def promote (c : Channel T C) : Channel T C :=
  match c.waiting with
  | [] => c
  | t :: ts => if 0 < c.free then { c with waiting := ts, granted := c.granted ++ [t] } else c

/-- Lets a sender in. -/
def enter (c : Channel T C) (t : T) : Option (Channel T C) :=
  if c.accepting then some { c with entered := t :: c.entered } else none

/-- What the worker finds. -/
inductive Taken (T C : Type) where
  | item (item : C) (left : Channel T C)
  | nothingYet
  | ended

/-- Takes the oldest item; its slot goes to the first waiting sender. -/
def take (c : Channel T C) : Taken T C :=
  match c.queue with
  | item :: rest => .item item { c with queue := rest }.promote
  | [] => if c.accepting || !c.senders.isEmpty then .nothingYet else .ended

/-- Commits an item without waiting. -/
def trySend (c : Channel T C) (item : C) : Except BusError (Channel T C) :=
  if !c.accepting || !c.listening then .error .closed
  else if c.free = 0 then .error .full
  else .ok { c with queue := c.queue ++ [item] }

/-- Lets nobody in any more. -/
def close (c : Channel T C) : Channel T C := { c with accepting := false }

/-- The worker goes away. -/
def hangUp (c : Channel T C) : Channel T C := { c with listening := false }

variable [DecidableEq T]

/-- A sender that entered asks for a slot: it gets one, or a place at the end of the line. -/
def requestSlot (c : Channel T C) (t : T) : Channel T C :=
  { c with entered := c.entered.erase t, waiting := c.waiting ++ [t] }.promote

/-- Takes a sender off, wherever it is, and passes its slot on. -/
def withdraw (c : Channel T C) (t : T) : Channel T C :=
  { c with
    entered := c.entered.erase t
    waiting := c.waiting.erase t
    granted := c.granted.erase t }.promote

/-- Whether a sender that asked for a slot has got one, or never will; nothing while it waits. -/
def slot? (c : Channel T C) (t : T) : Option Bool :=
  if !c.listening then some false
  else if t ∈ c.granted then some true
  else none

/-- Puts an item into the slot of a sender; after closing the slot is passed on instead. -/
def commit (c : Channel T C) (t : T) (item : C) : Channel T C :=
  if c.accepting then { c with queue := c.queue ++ [item], granted := c.granted.erase t }
  else c.withdraw t

end Channel

end Reveille.Bus
