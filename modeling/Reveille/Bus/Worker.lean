import Reveille.Error
import Reveille.Log

/-!
# The worker of a bus

A `Worker` takes one command after another and keeps the list of registered receivers. It is a
machine that makes one request at a time (`Phase.request`) and goes on with the reply
(`Worker.resume`): it asks for the next command, asks a receiver whether it is retired, hands it an
event, or tells it to stop. How long a reply takes, and what a receiver does meanwhile, is not its
concern.

An event is handled in these phases. First the receivers are asked in order whether one is retired.
If one is, all are asked again: those retired now leave the list, and each of them is told to stop.
Then every receiver left is handed the event, in the order of registration. A receiver that panics
while it handles an event or stops is reported and nothing else changes; one that panics when asked
whether it is retired takes the worker down. At the end of the queue every receiver is told to stop.
-/

namespace Reveille.Bus

/-- What travels through the queue. -/
inductive Command (R E : Type) where
  | event (e : E)
  | register (r : R)
  deriving DecidableEq

/-- A registered receiver. The same receiver may be registered more than once. -/
structure Registration (R : Type) where
  number : Nat
  receiver : R
  deriving DecidableEq

/-- What a worker writes to the log. -/
inductive Notice (R : Type) where
  | registered (r : R)
  | fanOut (receivers : Nat)
  | panickedOnEvent (r : R) (p : Panic)
  | panickedOnStop (r : R) (p : Panic)
  | retired (r : R)
  | closed (receivers : Nat)
  deriving DecidableEq

namespace Notice

/-- The line of a notice; `name` gives the names of receivers. -/
def line {R : Type} (name : R → String) : Notice R → Log.Line
  | .registered r => ⟨.bus, .trace, "receiver registered", [("receiver", name r)]⟩
  | .fanOut n => ⟨.bus, .trace, "fan-out", [("receivers", toString n)]⟩
  | .panickedOnEvent r p =>
    ⟨.bus, .warn, "receiver panicked on event", [("receiver", name r), ("info", p.message)]⟩
  | .panickedOnStop r p =>
    ⟨.bus, .warn, "receiver panicked on stop", [("receiver", name r), ("info", p.message)]⟩
  | .retired r => ⟨.bus, .debug, "receiver retired", [("receiver", name r)]⟩
  | .closed n => ⟨.bus, .info, "event bus closed", [("receivers", toString n)]⟩

end Notice

namespace Worker

/-- What a worker asks for. -/
inductive Request (R E : Type) where
  /-- The next command, or the end of the queue. -/
  | receive
  | isRetired (r : R)
  | deliver (r : R) (e : E)
  | stop (r : R)
  /-- Nothing any more. -/
  | finished

/-- The replies to a request. -/
abbrev Request.Reply {R E : Type} : Request R E → Type
  | .receive => Option (Command R E)
  | .isRetired _ => Except Panic Bool
  | .deliver _ _ => Except Panic Unit
  | .stop _ => Except Panic Unit
  | .finished => Empty

/-- Where a worker is. `rest` is what is left to do of a list of receivers. -/
inductive Phase (R E : Type) where
  | waiting
  /-- Asks whether any receiver is retired, before an event. -/
  | surveying (e : E) (asked : Registration R) (rest : List (Registration R))
  /-- Tells the retired receivers from the live ones, which were collected in order. -/
  | sorting (e : E) (retired live : List (Registration R)) (asked : Registration R)
      (rest : List (Registration R))
  /-- Stops the retired receivers. -/
  | dismissing (e : E) (leaving : Registration R) (rest : List (Registration R))
  | delivering (e : E) (target : Registration R) (rest : List (Registration R))
  /-- Stops every receiver at the end. -/
  | stopping (leaving : Registration R) (rest : List (Registration R))
  | exited
  | died (p : Panic)

def Phase.request {R E : Type} : Phase R E → Request R E
  | .waiting => .receive
  | .surveying _ asked _ => .isRetired asked.receiver
  | .sorting _ _ _ asked _ => .isRetired asked.receiver
  | .dismissing _ leaving _ => .stop leaving.receiver
  | .delivering e target _ => .deliver target.receiver e
  | .stopping leaving _ => .stop leaving.receiver
  | .exited => .finished
  | .died _ => .finished

/-- The worker will not touch a receiver again. -/
def Phase.isOver {R E : Type} : Phase R E → Bool
  | .exited | .died _ => true
  | _ => false

end Worker

/-- A worker. -/
structure Worker (R E : Type) where
  /-- Registered receivers in the order of registration. -/
  receivers : List (Registration R) := []
  /-- How many receivers were ever registered. -/
  registered : Nat := 0
  /-- How many receivers it tells others it has. -/
  count : Nat := 0
  phase : Worker.Phase R E := .waiting

namespace Worker

variable {R E : Type}

def init : Worker R E := {}

/-- A worker and what it has just written to the log. -/
abbrev Turn (R E : Type) := Worker R E × List (Notice R)

def register (w : Worker R E) (r : R) : Turn R E :=
  let receivers := w.receivers ++ [⟨w.registered, r⟩]
  ({ receivers, registered := w.registered + 1, count := receivers.length, phase := .waiting },
    [.registered r])

/-- Hands an event to the receivers of a list. -/
def deliverTo (w : Worker R E) (e : E) : List (Registration R) → Worker R E
  | [] => { w with phase := .waiting }
  | r :: rest => { w with phase := .delivering e r rest }

/-- Hands an event to every receiver. -/
def fanOut (w : Worker R E) (e : E) : Turn R E :=
  (w.deliverTo e w.receivers, [.fanOut w.receivers.length])

/-- Asks the receivers of a list whether one is retired. -/
def survey (w : Worker R E) (e : E) : List (Registration R) → Turn R E
  | [] => w.fanOut e
  | r :: rest => ({ w with phase := .surveying e r rest }, [])

/-- Stops the retired receivers of a list, and hands the event to the others afterwards. -/
def dismiss (w : Worker R E) (e : E) : List (Registration R) → Turn R E
  | [] => { w with count := w.receivers.length }.fanOut e
  | r :: rest => ({ w with phase := .dismissing e r rest }, [.retired r.receiver])

/-- Tells the retired receivers of a list from the live ones. -/
def sort (w : Worker R E) (e : E) (retired live : List (Registration R)) :
    List (Registration R) → Turn R E
  | [] => { w with receivers := live }.dismiss e retired
  | r :: rest => ({ w with phase := .sorting e retired live r rest }, [])

/-- Stops every receiver of a list and ends. -/
def stopAll (w : Worker R E) : List (Registration R) → Turn R E
  | [] => ({ w with phase := .exited }, [.closed w.receivers.length])
  | r :: rest => ({ w with phase := .stopping r rest }, [])

def die (w : Worker R E) (p : Panic) : Turn R E := ({ w with phase := .died p }, [])

/-- Writes notices ahead of those of a turn. -/
def saying (notices : List (Notice R)) (t : Turn R E) : Turn R E := (t.1, notices ++ t.2)

/-- The complaint about a receiver that panicked, if it did. -/
def complaint (say : Panic → Notice R) : Except Panic Unit → List (Notice R)
  | .ok () => []
  | .error p => [say p]

/-- Goes on with the reply to the request of its phase. -/
def next (w : Worker R E) : (p : Phase R E) → p.request.Reply → Turn R E
  | .waiting, (reply : Option (Command R E)) =>
    match reply with
    | none => w.stopAll w.receivers
    | some (.register r) => w.register r
    | some (.event e) => w.survey e w.receivers
  | .surveying e _ rest, (reply : Except Panic Bool) =>
    match reply with
    | .ok true => w.sort e [] [] w.receivers
    | .ok false => w.survey e rest
    | .error p => w.die p
  | .sorting e retired live asked rest, (reply : Except Panic Bool) =>
    match reply with
    | .ok true => w.sort e (retired ++ [asked]) live rest
    | .ok false => w.sort e retired (live ++ [asked]) rest
    | .error p => w.die p
  | .dismissing e leaving rest, reply =>
    saying (complaint (.panickedOnStop leaving.receiver) reply) (w.dismiss e rest)
  | .delivering e target rest, reply =>
    (w.deliverTo e rest, complaint (.panickedOnEvent target.receiver) reply)
  | .stopping leaving rest, reply =>
    saying (complaint (.panickedOnStop leaving.receiver) reply) (w.stopAll rest)

/-- The request of the present phase. -/
def request (w : Worker R E) : Request R E := w.phase.request

def resume (w : Worker R E) (reply : w.request.Reply) : Turn R E := w.next w.phase reply

/-- How the worker ended: on its own, or by a panic; nothing while it works. -/
def ending? (w : Worker R E) : Option (Except Panic Unit) :=
  match w.phase with
  | .exited => some (.ok ())
  | .died p => some (.error p)
  | _ => none

end Worker

end Reveille.Bus
