import Reveille.Proofs.Poll.News
import Reveille.Proofs.Poll.Streams

/-!
# Routines that announce what they change

Whoever changes the store owes an event until the sending of it is over (`owes`).  A routine is `Candid`
if it sends no event but the one that it owes, does nothing else before it has sent it, and owes nothing
when it ends.

All routines of runners are candid (`candid_runner`), and so are those of partners, who create polls, vote,
process polls, and start and stop runners (`Partner.candid`).  If the receivers are partners, the worker
has only candid routines as well (`candid_worker`).
-/

namespace Reveille.Poll

open Program Reveille.System

variable {Sink : Type} {X : Signature} {σ α β : Type}

/-- The event to be announced after the reply to a request. -/
def change? : Exchange (place Sink X σ).requests → Option Event
  | ⟨.call (.inl q), reply⟩ => q.news? reply
  | _ => none

/-- The event that an actor still has to send, after the reply to another request. -/
def owes (owed : Option Event) : Exchange (place Sink X σ).requests → Option Event
  | ⟨.call (.inl q), reply⟩ => (q.news? reply).or owed
  | ⟨.commit (.event _), _⟩ => none
  | ⟨.enter, (accepted : Bool)⟩ => if accepted then owed else none
  | ⟨.awaitSlot, (granted : Bool)⟩ => if granted then owed else none
  | _ => owed

def Permits (owed : Option Event) : System.Request (place Sink X σ) → Prop
  | .log _ | .enter | .requestSlot | .awaitSlot => True
  | .commit (.event e) => owed = some e
  | .trySend _ => False
  | .call (.inl q) => owed = none ∧ q.Steps
  | _ => owed = none

/-- A routine that announces every change before it does anything else. -/
def Candid : Option Event → Routine (place Sink X σ) α → Prop
  | owed, .done _ => owed = none
  | owed, .ask q rest => Permits owed q ∧ ∀ reply, Candid (owes owed ⟨q, reply⟩) (rest reply)

variable {owed : Option Event} {e : Event} {d : Duty} {id : Id}

namespace Candid

/-- What comes after may count on how the first routine ends. -/
theorem bind_of_leads {p : Routine (place Sink X σ) α} {f : α → Routine (place Sink X σ) β} {Q : α → Prop}
    (h : Candid owed p) (leads : p.Leads (fun _ _ => True) (fun _ => False) Q)
    (hf : ∀ a, Q a → Candid none (f a)) : Candid owed (p.bind f) := by
  induction p generalizing owed with
  | done a =>
    obtain rfl : owed = none := h
    exact hf a leads
  | ask q rest ih =>
    exact ⟨h.1, fun reply => ih reply (h.2 reply) ((leads.step trivial).resolve_left nofun)⟩

theorem bind {p : Routine (place Sink X σ) α} {f : α → Routine (place Sink X σ) β}
    (h : Candid owed p) (hf : ∀ a, Candid none (f a)) : Candid owed (p.bind f) :=
  h.bind_of_leads (Leads.of_forall fun _ => trivial) fun a (_ : True) => hf a

theorem forget {p : Routine (place Sink X σ) α} (h : Candid owed p) : Candid owed p.forget :=
  h.bind fun _ => rfl

theorem enqueue_event : Candid (some e) (Routine.enqueue (D := place Sink X σ) (.event e)) := by
  refine ⟨trivial, fun (accepted : Bool) => ?_⟩
  cases accepted with
  | false => exact rfl
  | true =>
    refine ⟨trivial, fun _ => ⟨trivial, fun (granted : Bool) => ?_⟩⟩
    cases granted with
    | false => exact rfl
    | true =>
      refine ⟨rfl, fun (committed : Bool) => ?_⟩
      cases committed <;> exact rfl

theorem enqueue_register {r : Receiver (place Sink X σ)} :
    Candid none (Routine.enqueue (D := place Sink X σ) (.register r)) := by
  refine ⟨trivial, fun (accepted : Bool) => ?_⟩
  cases accepted with
  | false => exact rfl
  | true =>
    refine ⟨trivial, fun _ => ⟨trivial, fun (granted : Bool) => ?_⟩⟩
    cases granted with
    | false => exact rfl
    | true =>
      refine ⟨rfl, fun (committed : Bool) => ?_⟩
      cases committed <;> exact rfl

theorem close : Candid none (Routine.close (D := place Sink X σ)) := by
  refine ⟨rfl, fun (first : Bool) => ?_⟩
  cases first with
  | false => exact rfl
  | true =>
    refine ⟨rfl, fun (ended : Nat × Except Panic Unit) => ?_⟩
    obtain ⟨task, _ | _⟩ := ended
    · exact ⟨trivial, fun _ => rfl⟩
    · exact rfl

theorem startRunner : Candid none (Routine.startRunner (D := place Sink X σ) d) := by
  refine ⟨rfl, fun _ => enqueue_register.bind fun (registered : Except BusError Unit) => ?_⟩
  cases registered with
  | error e => exact rfl
  | ok u => exact ⟨rfl, fun _ => ⟨rfl, fun _ => rfl⟩⟩

end Candid

/-! ### Procedures -/

theorem owes_news {q : Store.Request} {reply : q.Reply} (h : q.news? reply = some e) :
    owes none (⟨.call (.inl q), reply⟩ : Exchange (place Sink X σ).requests) = some e := by
  show (q.news? reply).or none = some e
  rw [h]
  rfl

theorem candid_createPoll {p : Poll} :
    Candid none ((createPoll p).routine : Routine (place Sink X σ) (Except PollError Unit)) := by
  refine ⟨⟨rfl, trivial⟩, fun (reply : Except StoreError Unit) => ?_⟩
  cases reply with
  | error e => exact rfl
  | ok u => exact Candid.enqueue_event.bind fun (sent : Except BusError Unit) => by cases sent <;> exact rfl

theorem candid_castVote {voter : String} :
    Candid none ((castVote id voter).routine : Routine (place Sink X σ) (Except PollError UInt32)) := by
  refine ⟨⟨rfl, trivial⟩, fun (reply : Except StoreError UInt32) => ?_⟩
  cases reply with
  | error e => exact rfl
  | ok round => exact Candid.enqueue_event.bind fun (sent : Except BusError Unit) => by cases sent <;> exact rfl

theorem candid_announce {f : Unit → Procedure α}
    (hf : ∀ u, Candid none ((f u).routine : Routine (place Sink X σ) α)) :
    Candid (some e) (Procedure.routine ((Duty.announce e).bind f) : Routine (place Sink X σ) α) := by
  refine Candid.enqueue_event.bind fun (sent : Except BusError Unit) => ?_
  cases sent with
  | ok u => exact hf ()
  | error cause => exact ⟨trivial, fun _ => hf ()⟩

/-- To carry out a move on a poll that was due is to replace its state and to announce that. -/
theorem candid_carryOut {p : Poll} {now : Instant} {m : Move} (due : (d.due p now).isDue now = true)
    (move : d.move? p now = some m) : Candid none
      ((Duty.carryOut p m).routine : Routine (place Sink X σ) (Except ServiceError Processed)) := by
  obtain ⟨hnews, turn⟩ := Duty.news_of_move due move
  refine ⟨⟨rfl, m.event, hnews, turn⟩, fun (reply : Except StoreError Poll) => ?_⟩
  cases reply with
  | error e =>
    cases e with
    | notFound id => exact ⟨trivial, fun _ => rfl⟩
    | conflict id => exact ⟨trivial, fun _ => rfl⟩
    | notOpen id => exact rfl
    | duplicateVote id round voter => exact rfl
  | ok q =>
    have hnews : (Store.Request.update p.id p.state m.next).news? (.ok q) = some m.event := hnews
    rw [owes_news hnews]
    exact ⟨trivial, fun _ => candid_announce fun _ => rfl⟩

theorem candid_loadDue : Candid none ((d.loadDue id).routine :
    Routine (place Sink X σ) (Except ServiceError (Option (Poll × Instant)))) := by
  refine ⟨⟨rfl, trivial⟩, fun (reply : Except StoreError Poll) => ?_⟩
  cases reply with
  | error e => cases e <;> exact rfl
  | ok p => exact ⟨rfl, fun _ => rfl⟩

/-- What is loaded is due. -/
theorem leads_loadDue : ((d.loadDue id).routine :
    Routine (place Sink X σ) (Except ServiceError (Option (Poll × Instant)))).Leads (fun _ _ => True)
      (fun _ => False) fun loaded => ∀ p now, loaded = .ok (some (p, now)) →
        (d.due p now).isDue now = true := by
  refine Or.inr fun (reply : Except StoreError Poll) _ => ?_
  cases reply with
  | error e =>
    cases e <;>
    · intro p now hloaded
      cases hloaded
  | ok p =>
    refine Or.inr fun (now : Instant) _ => ?_
    intro p' now' hloaded
    split at hloaded
    · next due =>
      cases hloaded
      exact due
    · cases hloaded

theorem candid_process : Candid none
    ((d.process id).routine : Routine (place Sink X σ) (Except ServiceError Processed)) := by
  rw [Duty.process, Procedure.routine, Program.bind_eq, interpret_bind]
  refine candid_loadDue.bind_of_leads leads_loadDue fun loaded due => ?_
  rcases loaded with e | _ | ⟨p, now⟩
  · exact rfl
  · exact rfl
  · dsimp only
    cases hm : d.move? p now with
    | some m => exact candid_carryOut (due p now rfl) hm
    | none => exact rfl

theorem candid_check : Candid none
    ((d.check id).routine : Routine (place Sink X σ) (Except ServiceError DueTime)) := by
  refine ⟨⟨rfl, trivial⟩, fun (reply : Except StoreError Poll) => ?_⟩
  cases reply with
  | error e => cases e <;> exact rfl
  | ok p => exact ⟨rfl, fun _ => rfl⟩

theorem candid_receive : Candid none
    ((d.receive e).routine : Routine (place Sink X σ) (List Id)) := by
  cases d with
  | advance => exact ⟨trivial, fun _ => rfl⟩
  | start => exact rfl
  | close => exact rfl

/-! ### Partners -/

/-- Effects of one who changes no poll and sends no event. -/
def Neutral : Effect (place Sink X σ) → Prop
  | .send _ | .trySend _ => False
  | .call (.inl (.insert _)) | .call (.inl (.update _ _ _)) | .call (.inl (.recordVote _ _)) => False
  | _ => True

/-- Activities that create polls, vote, process polls, and do what is neutral. -/
inductive Partner : Activity (place Sink X σ) α → Prop
  | done (a : α) : Partner (.done a)
  | effect {e : Effect (place Sink X σ)} {rest : e.Reply → Activity (place Sink X σ) α}
      (neutral : Neutral e) (h : ∀ reply, Partner (rest reply)) : Partner (.ask e rest)
  | create {p : Poll} {rest : Except PollError Unit → Activity (place Sink X σ) α}
      (h : ∀ reply, Partner (rest reply)) :
      Partner (((createPoll p).activity access .clock).bind rest)
  | vote {id : Id} {voter : String} {rest : Except PollError UInt32 → Activity (place Sink X σ) α}
      (h : ∀ reply, Partner (rest reply)) :
      Partner (((castVote id voter).activity access .clock).bind rest)
  | process {d : Duty} {id : Id}
      {rest : Except ServiceError Processed → Activity (place Sink X σ) α}
      (h : ∀ reply, Partner (rest reply)) :
      Partner (((d.process id).activity access .clock).bind rest)

theorem candid_effect {e : Effect (place Sink X σ)} (h : Neutral e) : Candid none e.routine := by
  cases e with
  | send e => exact False.elim h
  | trySend e => exact False.elim h
  | register k => exact .enqueue_register
  | closeBus => exact .close
  | startRunner d => exact .startRunner
  | log line => exact ⟨trivial, fun _ => rfl⟩
  | call q =>
    cases q with
    | inr q => exact ⟨rfl, fun _ => rfl⟩
    | inl q =>
      cases q with
      | get id => exact ⟨⟨rfl, trivial⟩, fun _ => rfl⟩
      | all => exact ⟨⟨rfl, trivial⟩, fun _ => rfl⟩
      | insert p => exact False.elim h
      | update id expected next => exact False.elim h
      | recordVote id voter => exact False.elim h
  | _ => exact ⟨rfl, fun _ => rfl⟩

theorem Partner.candid {f : Activity (place Sink X σ) α} (h : Partner f) : Candid none f.routine := by
  induction h with
  | done a => exact rfl
  | effect neutral _ ih => exact (candid_effect neutral).bind ih
  | create _ ih =>
    rw [Activity.routine, interpret_bind]
    refine Candid.bind ?_ ih
    rw [← Activity.routine, routine_activity]
    exact candid_createPoll
  | vote _ ih =>
    rw [Activity.routine, interpret_bind]
    refine Candid.bind ?_ ih
    rw [← Activity.routine, routine_activity]
    exact candid_castVote
  | process _ ih =>
    rw [Activity.routine, interpret_bind]
    refine Candid.bind ?_ ih
    rw [← Activity.routine, routine_activity]
    exact candid_process

def World.Cooperative (W : World Sink X σ) : Prop :=
  ∀ k, (∀ e, Partner ((W.sink k).onEvent e)) ∧ Partner (W.sink k).onStop ∧ Partner (W.sink k).isRetired

/-! ### Runners and the worker -/

variable {W : World Sink X σ} {s : System (place Sink X σ)} {i : Nat} {t : RunnerTask (place Sink X σ)}

theorem candid_runner {q : MachineRequest Sink X σ} {r : Routine (place Sink X σ) q.Reply}
    (h : s.runnerSource W.cast i t q = .routine r) (asks : t.service.Asks q) : Candid none r := by
  cases does_of_source World.onDuty h asks with
  | clock => exact ⟨rfl, fun _ => rfl⟩
  | items => exact rfl
  | first => exact ⟨rfl, fun now => ⟨⟨rfl, trivial⟩, fun reply => rfl⟩⟩
  | next items => exact rfl
  | check id =>
    rw [routine_activity]
    exact candid_check
  | process id =>
    rw [routine_activity]
    exact candid_process
  | interval interval => exact ⟨rfl, fun _ => rfl⟩
  | receive e =>
    rw [routine_activity]
    exact candid_receive

theorem candid_worker (cooperative : W.Cooperative)
    {q : Bus.Worker.Request (Receiver (place Sink X σ)) Event}
    {r : Routine (place Sink X σ) q.Reply} (h : s.workerSource W.cast q = .routine r) :
    Candid none r := by
  cases q with
  | receive => exact absurd h receive_ne_routine
  | isRetired target =>
    cases h
    refine Candid.bind ?_ fun _ => rfl
    cases target with
    | sink k => exact (cooperative k).2.2.candid
    | inbox d j => exact ⟨rfl, fun _ => rfl⟩
  | deliver target e =>
    cases h
    refine Candid.bind ?_ fun _ => rfl
    cases target with
    | sink k => exact ((cooperative k).1 e).candid
    | inbox d j =>
      refine ⟨rfl, fun (isOpen : Bool) => ?_⟩
      cases isOpen with
      | false => exact rfl
      | true =>
        show Candid none (if d.listensTo e = true then _ else _)
        split
        · refine ⟨rfl, fun (pushed : Bool) => ?_⟩
          cases pushed with
          | false => exact ⟨trivial, fun _ => rfl⟩
          | true => exact rfl
        · exact rfl
  | stop target =>
    cases h
    refine Candid.bind ?_ fun _ => rfl
    cases target with
    | sink k => exact (cooperative k).2.1.candid
    | inbox d j =>
      refine ⟨rfl, fun (isOpen : Bool) => ?_⟩
      cases isOpen <;> exact ⟨trivial, fun _ => rfl⟩
  | finished => cases h

end Reveille.Poll
