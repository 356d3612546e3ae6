import Reveille.Poll.Service
import Reveille.System.Step

/-!
# Runs of a poll scheduler

A `World` has a store of polls, a bus, and a clock that nobody moves by hand.  Besides the runners of
one scheduler there are receivers and callers of any number.  What these do is up to them, as long as
they change polls only by creating them and by voting, start and stop no runner, and leave the bus
open (`Client`).

`World.Run` is a run of such a world from the start: polls are put into the store before the scheduler
is started, anybody who can make a step may make the next one, and calls begin at any time.  Where time may
pass is left open; a runner is `AtRest` in no pass and at no event.
-/

namespace Reveille.Poll

abbrev placeRequests (X : Signature) : Signature :=
  ⟨Store.Request ⊕ X.Request, Sum.elim Store.Request.Reply X.Reply⟩

/-- A system about polls whose services are the three duties. -/
abbrev place (Sink : Type) (X : Signature) (σ : Type) : Domain :=
  domain Duty Sink (placeRequests X) (Store × σ) Unit

/-- A store, a scheduler, and receivers with a state of their own. -/
structure World (Sink : Type) (X : Signature) (σ : Type) where
  jitter : Jitter
  interval : Duration
  grace : Duration
  sink : Sink → Reveille.Sink (place Sink X σ)
  answer : (q : X.Request) → σ → Option (X.Reply q × σ)

variable {Sink : Type} {X : Signature} {σ α : Type}

def access : StoreAccess (place Sink X σ) := fun q =>
  Program.request (S := (place Sink X σ).effects) (.call (.inl q))

/-- Effects of one who changes no poll, starts and stops no runner, and leaves the bus open. -/
def Harmless : Effect (place Sink X σ) → Prop
  | .panic _ | .closeBus | .startRunner _ | .requestStop _ | .abort _ => False
  | .call (.inl (.insert _)) | .call (.inl (.update _ _ _)) | .call (.inl (.recordVote _ _)) => False
  | _ => True

/-- Activities that change polls only by creating them and by voting. -/
inductive Client : Activity (place Sink X σ) α → Prop
  | done (a : α) : Client (.done a)
  | effect {e : Effect (place Sink X σ)} {rest : e.Reply → Activity (place Sink X σ) α}
      (harmless : Harmless e) (h : ∀ reply, Client (rest reply)) : Client (.ask e rest)
  | create {p : Poll} {rest : Except PollError Unit → Activity (place Sink X σ) α}
      (scheduled : p.state = .scheduled) (lasting : 0 < p.roundDuration.nanos)
      (h : ∀ reply, Client (rest reply)) :
      Client (((createPoll p).activity access .clock).bind rest)
  | vote {id : Id} {voter : String}
      {rest : Except PollError UInt32 → Activity (place Sink X σ) α}
      (h : ∀ reply, Client (rest reply)) :
      Client (((castVote id voter).activity access .clock).bind rest)

namespace World

variable (W : World Sink X σ)

def cast : Cast (place Sink X σ) where
  service d := d.service access .clock W.jitter W.interval
  sink := W.sink
  nameId := Id.logText
  answer
    | .inl q, x => some (.reply (x.1.answer q).1, ((x.1.answer q).2, x.2))
    | .inr q, x => (W.answer q x.2).map fun (reply, y) => (.reply reply, (x.1, y))

def Courteous : Prop :=
  ∀ k, (∀ e, Client ((W.sink k).onEvent e)) ∧ Client (W.sink k).onStop ∧ Client (W.sink k).isRetired

def startScheduler : Activity (place Sink X σ) Unit :=
  (Scheduler.start (D := place Sink X σ) Duty.name W.grace [.start, .advance, .close]).bind
    fun _ => .done ()

/-- The worker waits for a command, and no receiver is at work. -/
def Receptive (s : System (place Sink X σ)) : Prop :=
  s.worker.pending = none ∧ s.worker.machine.phase = .waiting

instance (s : System (place Sink X σ)) : Decidable (Receptive s) :=
  have : Decidable (s.worker.machine.phase = .waiting) :=
    match s.worker.machine.phase with
    | .waiting => isTrue rfl
    | .surveying _ _ _ | .sorting _ _ _ _ _ | .dismissing _ _ _ | .delivering _ _ _
    | .stopping _ _ | .exited | .died _ => isFalse nofun
  have : Decidable (s.worker.pending = none) := decidable_of_iff _ Option.isNone_iff_eq_none
  inferInstanceAs (Decidable (_ ∧ _))

/-- A runner in no pass and at no event: it has not begun, or is about to look whether it shall stop,
or waits until a time that is set or for events alone. -/
def AtRest (t : RunnerTask (place Sink X σ)) : Prop :=
  t.pending = none ∧ match t.machine.phase with
    | .seeding | .top => True
    | .waiting limit => t.timer = none → limit = none
    | _ => False

def Resting (s : System (place Sink X σ)) : Prop := ∀ t ∈ s.runners, AtRest t

/-- A run in which time may go on wherever `May` says so; the flag says whether the scheduler was asked
to start. -/
inductive Run (May : System (place Sink X σ) → Prop) : Bool → System (place Sink X σ) → Prop
  | init {wall hostTime : Instant} {draws : List Nat} {capacity number : Nat} {store : Store} {y : σ}
      (stored : ∀ p ∈ store.polls, p.state = .scheduled ∧ 0 < p.roundDuration.nanos) :
      Run May false
        { clock := { wall }, hostTime, draws, channel := .empty capacity, workerNumber := number,
          state := (store, y) }
  | insert {s : System (place Sink X σ)} {p : Poll} (before : Run May false s)
      (scheduled : p.state = .scheduled) (lasting : 0 < p.roundDuration.nanos) :
      Run May false { s with state := ((s.state.1.answer (.insert p)).2, s.state.2) }
  | step {started : Bool} {s s' : System (place Sink X σ)} {a : Actor} (before : Run May started s)
      (h : s.step W.cast a = some s') : Run May started s'
  | pass {started : Bool} {s : System (place Sink X σ)} {nanos : Nat} (before : Run May started s)
      (may : May s) : Run May started { s with time := s.time + nanos }
  | call {started : Bool} {s : System (place Sink X σ)} {f : Activity (place Sink X σ) Unit}
      (before : Run May started s) (client : Client f) : Run May started (s.start f)
  | start {s : System (place Sink X σ)} (before : Run May false s) :
      Run May true (s.start W.startScheduler)

end World

end Reveille.Poll
