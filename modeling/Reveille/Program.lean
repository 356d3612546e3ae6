/-!
# Programs of requests

A `Signature` lists requests and the type of the reply to each. A `Program` asks requests one after
another and ends with a value; what it asks next may depend on the replies. It says nothing about
who answers, so the same program can be run against a store, against a whole system, or followed
through every possible list of replies.

A `Feed` is a program that hands out items on its way; `Feed.next` runs it to the next one.
-/

namespace Reveille

/-- Requests, and the type of the reply to each. -/
structure Signature where
  Request : Type
  Reply : Request → Type

/-- A computation that asks for replies and ends with a value. -/
inductive Program (S : Signature) (α : Type) where
  | done (a : α)
  | ask (r : S.Request) (rest : S.Reply r → Program S α)

namespace Program

variable {S T : Signature} {α β : Type}

def bind : Program S α → (α → Program S β) → Program S β
  | .done a, f => f a
  | .ask r rest, f => .ask r fun reply => (rest reply).bind f

instance : Monad (Program S) where
  pure := .done
  bind := bind

/-- The program of one request. -/
def request (r : S.Request) : Program S (S.Reply r) := .ask r .done

/-- Answers every request by a program over other requests. -/
def interpret (h : (r : S.Request) → Program T (S.Reply r)) : Program S α → Program T α
  | .done a => .done a
  | .ask r rest => (h r).bind fun reply => (rest reply).interpret h

/-- Runs the program for every member of a list, in order. -/
def each (f : α → Program S Unit) : List α → Program S Unit
  | [] => .done ()
  | a :: as => (f a).bind fun _ => each f as

end Program

/-- A computation that asks for replies and hands out items. -/
inductive Feed (S : Signature) (α : Type) where
  | stop
  | item (a : α) (rest : Feed S α)
  | ask (r : S.Request) (rest : S.Reply r → Feed S α)

namespace Feed

variable {S T : Signature} {α β : Type}

/-- Hands out the members of a list. -/
def ofList : List α → Feed S α
  | [] => .stop
  | a :: as => .item a (ofList as)

/-- Runs a program and goes on with what it says. -/
def after : Program S α → (α → Feed S β) → Feed S β
  | .done a, f => f a
  | .ask r rest, f => .ask r fun reply => after (rest reply) f

/-- Answers every request by a program over other requests. -/
def interpret (h : (r : S.Request) → Program T (S.Reply r)) : Feed S α → Feed T α
  | .stop => .stop
  | .item a rest => .item a (rest.interpret h)
  | .ask r rest => after (h r) fun reply => (rest reply).interpret h

/-- Runs to the next item, and gives it with what is left. -/
def next : Feed S α → Program S (Option (α × Feed S α))
  | .stop => .done none
  | .item a rest => .done (some (a, rest))
  | .ask r rest => .ask r fun reply => (rest reply).next

end Feed

end Reveille
