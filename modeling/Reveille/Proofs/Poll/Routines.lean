import Reveille.Proofs.Poll.Manners
import Reveille.Proofs.Program.Feed
import Reveille.Proofs.Runner.Turned

/-!
# The routines of the services

The runner of a duty never stops and never loses its inbox, and the streams of its passes are the
items of its duty (`Duty.Runs`, kept by every reply as long as nobody asks it to stop:
`Duty.Runs.resume`).  Its routines are few (`Duty.Does`, `does_of_source`).  All of them are mannerly
(`mannerly_runner`), and so are those of the worker (`mannerly_worker`).
-/

namespace Reveille.Poll

open Program Reveille.System

variable {Sink : Type} {X : Signature} {σ : Type} {W : World Sink X σ}
  {s : System (place Sink X σ)} {d : Duty} {i : Nat} {t : RunnerTask (place Sink X σ)}

abbrev Machine (Sink : Type) (X : Signature) (σ : Type) : Type :=
  Runner Event Id (Items (place Sink X σ))

abbrev MachineRequest (Sink : Type) (X : Signature) (σ : Type) : Type :=
  Runner.Request Event Id (Items (place Sink X σ))

namespace Duty

def feed (d : Duty) : Items (place Sink X σ) := d.items.interpret (Request.inSystem access .clock)

/-- The streams of the passes of a duty. -/
def Streams (d : Duty) (stream : Items (place Sink X σ)) : Prop :=
  stream = d.feed ∨ ∃ items, stream = Feed.ofList items

def Runs (d : Duty) (m : Machine Sink X σ) : Prop :=
  m.inboxOpen = true ∧ match m.phase with
    | .collecting _ _ _ stream => d.Streams stream
    | .stopped => False
    | _ => True

/-- Replies at some time to a runner of a duty that nobody asks to stop, on a bus that is open. -/
def Replies (d : Duty) (now : Instant) : (q : MachineRequest Sink X σ) → q.Reply → Prop
  | .readClock, (t : Instant) => t = now
  | .isStopRequested, (stop : Bool) => stop = false
  | .wait _ _, (woken : Runner.Woken Event) => (∃ e, woken = .event e) ∨ woken = .elapsed
  | .checkAll, (stream : Items (place Sink X σ)) => stream = d.feed
  | .nextItem _, (reply : Option (Reported Id × Items (place Sink X σ))) =>
    ∀ item rest, reply = some (item, rest) → ∃ items, rest = Feed.ofList items
  | _, _ => True

variable {m : Machine Sink X σ} {now : Instant}

theorem runs_check (h : m.inboxOpen = true) {ids : List Id} : d.Runs (m.check ids).1 := by
  cases ids <;> exact ⟨h, trivial⟩

theorem runs_process (h : m.inboxOpen = true) {next : Alarm Id} {ids : List Id} :
    d.Runs (m.process next ids).1 := by
  cases ids <;> exact ⟨h, trivial⟩

theorem Runs.resume (h : d.Runs m) (reply : m.request.Reply) (hr : d.Replies now m.request reply) :
    d.Runs (m.resume reply).1 := by
  obtain ⟨hopen, hphase⟩ := h
  have turned := Runner.turned_resume m reply
  generalize m.resume reply = turn at turned ⊢
  cases turned with
  | scanning => exact ⟨hopen, Or.inl hr⟩
  | collected r pass =>
    cases pass with
    | seed => exact ⟨hopen, trivial⟩
    | wake => exact runs_process hopen
  | item | itemFailed => exact ⟨hopen, Or.inr (hr _ _ rfl)⟩
  | stopped => cases (hr : true = false)
  | stoppedWaiting | inboxEnded =>
    rcases hr with ⟨e, he⟩ | he <;> cases he
  | checked r poll rest due => exact runs_check (m := (r.learn poll due).1) hopen
  | receiving | checkFailed => exact runs_check hopen
  | processFailed | recheckFailed | stillDue | dueLater => exact runs_process hopen
  | _ => exact ⟨hopen, trivial⟩

end Duty

/-! ### What a runner may be in -/

def Duty.Asks (d : Duty) (q : MachineRequest Sink X σ) : Prop :=
  ∀ stream, q = .nextItem stream → d.Streams stream

theorem Duty.Runs.asks {m : Machine Sink X σ} (h : d.Runs m) : d.Asks m.request := by
  obtain ⟨jitter, alarm, rescanAt, shown, inboxOpen, phase⟩ := m
  rintro stream hq
  cases phase with
  | collecting pass now scan stream' =>
    cases hq
    exact h.2
  | _ => cases hq

section
variable {q : MachineRequest Sink X σ} {r : Routine (place Sink X σ) q.Reply}

/-- What a list hands out, with what is left of it. -/
def handed : List (Reported Id) → Option (Reported Id × Items (place Sink X σ))
  | [] => none
  | item :: items => some (item, Feed.ofList items)

theorem next_ofList (items : List (Reported Id)) :
    Activity.routine (Feed.next (Feed.ofList items : Items (place Sink X σ))) = .done (handed items) := by
  cases items <;> rfl

theorem rest_of_handed {items : List (Reported Id)} {item : Reported Id} {rest : Items (place Sink X σ)}
    (h : handed items = some (item, rest)) : rest = Feed.ofList items.tail := by
  cases items with
  | nil => cases h
  | cons item items =>
    cases h
    rfl

theorem map_handed {items : List (Reported Id)} :
    (handed items : Option (Reported Id × Items (place Sink X σ))).map (·.1) = items.head? := by
  cases items <;> rfl

def Duty.listed (d : Duty) (now : Instant) : Except StoreError (List Poll) → List (Reported Id)
  | .ok polls => polls.map fun p => .ok (p.id, d.due p now)
  | .error e => [.error (.store e.message)]

def Duty.listing (d : Duty) : Routine (place Sink X σ) (Option (Reported Id × Items (place Sink X σ))) :=
  .ask (.readTime .clock) fun (now : Instant) => .ask (.call (.inl .all)) fun reply =>
    .done (handed (d.listed now reply))

theorem next_feed : Activity.routine (Feed.next (d.feed : Items (place Sink X σ))) = d.listing := by
  refine congrArg (Program.ask _) (funext fun now => congrArg (Program.ask _) (funext fun reply => ?_))
  refine Eq.trans ?_ (next_ofList (d.listed now reply))
  cases reply with
  | ok polls =>
    show Activity.routine (Feed.next (Feed.interpret _ (Feed.ofList _))) = _
    rw [Feed.interpret_ofList]
    rfl
  | error e => rfl

/-- The services of the cast are the duties. -/
def OnDuty (c : Cast (place Sink X σ)) : Prop :=
  ∀ d : Duty, ∃ jitter interval, c.service d = d.service access .clock jitter interval

theorem World.onDuty : OnDuty W.cast := fun _ => ⟨_, _, rfl⟩

inductive Duty.Does (d : Duty) :
    (q : MachineRequest Sink X σ) → Routine (place Sink X σ) q.Reply → Prop
  | clock : d.Does .readClock (Routine.query (.readTime .clock))
  | items : d.Does .checkAll (.done d.feed)
  | first : d.Does (.nextItem d.feed) d.listing
  | next (items : List (Reported Id)) : d.Does (.nextItem (Feed.ofList items)) (.done (handed items))
  | check (id : Id) : d.Does (.checkOne id) (Activity.routine ((d.check id).activity access .clock))
  | process (id : Id) : d.Does (.processOne id) (Activity.routine ((d.process id).activity access .clock))
  | interval (interval : Duration) :
      d.Does .checkInterval (.ask .draw fun (draw : Nat) => .done (interval, draw))
  | receive (e : Event) : d.Does (.receiveEvent e) (Activity.routine ((d.receive e).activity access .clock))

/-- Whoever has a duty does nothing else. -/
theorem does_of_source {c : Cast (place Sink X σ)} (onDuty : OnDuty c)
    (h : s.runnerSource c i t q = .routine r) (asks : t.service.Asks q) : t.service.Does q r := by
  obtain ⟨jitter, interval, service⟩ := onDuty t.service
  cases q with
  | readClock =>
    cases h
    rw [service]
    exact .clock
  | isStopRequested => cases h
  | checkAll =>
    cases h
    rw [service]
    exact .items
  | nextItem stream =>
    cases h
    rcases asks stream rfl with rfl | ⟨items, rfl⟩
    · rw [next_feed]
      exact .first
    · rw [next_ofList]
      exact .next items
  | checkOne id =>
    cases h
    rw [service]
    exact .check id
  | processOne id =>
    cases h
    rw [service]
    exact .process id
  | checkInterval =>
    cases h
    rw [service]
    exact .interval interval
  | receiveEvent e =>
    cases h
    rw [service]
    exact .receive e
  | wait limit inboxOpen => exact absurd h wait_ne_routine
  | finished => cases h

def Told (now : Instant) : (q : System.Request (place Sink X σ)) → q.Reply → Prop
  | .readTime .clock, (t : Instant) => t = now
  | _, _ => True

/-- The routines of a runner end with replies on which it goes on. -/
theorem leads_replies (h : s.runnerSource W.cast i t q = .routine r) (asks : t.service.Asks q)
    (now : Instant) : r.Leads (Told now) (fun _ => False) (t.service.Replies now q) := by
  cases does_of_source World.onDuty h asks with
  | clock => exact Or.inr fun _ ht => ht
  | items => exact rfl
  | first => exact Or.inr fun _ _ => Or.inr fun _ _ item rest h => ⟨_, rest_of_handed h⟩
  | next items => exact fun item rest h => ⟨_, rest_of_handed h⟩
  | _ => exact Leads.of_forall fun _ => trivial

theorem mannerly_runner (h : s.runnerSource W.cast i t q = .routine r) (asks : t.service.Asks q) :
    Mannerly (some t.service) .away r := by
  cases does_of_source World.onDuty h asks with
  | clock => exact .query trivial nofun trivial (fun _ _ _ h => h) fun _ => rfl
  | items => exact rfl
  | first =>
    refine .query trivial nofun trivial (fun _ _ _ h => h) fun now => ?_
    exact .query trivial nofun trivial (fun _ _ _ h => h) fun reply => rfl
  | next items => exact rfl
  | check id => exact mannerly_activity (.of_only Duty.idle_check)
  | process id => exact mannerly_activity announces_process
  | interval interval => exact .query trivial nofun trivial (fun _ _ _ h => h) fun _ => rfl
  | receive e => exact mannerly_activity (.of_only Duty.idle_receive)

end

/-! ### The worker -/

theorem mannerly_isInboxOpen {α : Type} {j : Nat} {f : Bool → Routine (place Sink X σ) α}
    (h : ∀ isOpen, Mannerly none .away (f isOpen)) :
    Mannerly none .away (.ask (.isInboxOpen j) f) :=
  .query trivial nofun trivial (fun _ _ _ h => h) h

theorem mannerly_line {line : Log.Line} :
    Mannerly none .away (Routine.query (.log line) : Routine (place Sink X σ) Unit) :=
  .query trivial nofun trivial (fun _ _ _ h => h) fun _ => rfl

theorem mannerly_worker (courteous : W.Courteous)
    {q : Bus.Worker.Request (Receiver (place Sink X σ)) Event}
    {r : Routine (place Sink X σ) q.Reply} (h : s.workerSource W.cast q = .routine r) :
    Mannerly none .away r := by
  cases q with
  | receive => exact absurd h receive_ne_routine
  | isRetired target =>
    cases h
    refine Mannerly.bind ?_ fun _ => rfl
    cases target with
    | sink k => exact (courteous k).2.2.mannerly
    | inbox d j => exact mannerly_isInboxOpen fun _ => rfl
  | deliver target e =>
    cases h
    refine Mannerly.bind ?_ fun _ => rfl
    cases target with
    | sink k => exact ((courteous k).1 e).mannerly
    | inbox d j =>
      refine mannerly_isInboxOpen fun isOpen => ?_
      cases isOpen with
      | false => exact rfl
      | true =>
        show Mannerly none .away (if d.listensTo e = true then _ else _)
        split
        · refine .query trivial (fun h => by cases h) trivial (fun _ _ _ h => h) fun pushed => ?_
          cases pushed with
          | false => exact mannerly_line
          | true => exact rfl
        · exact rfl
  | stop target =>
    cases h
    refine Mannerly.bind ?_ fun _ => rfl
    cases target with
    | sink k => exact (courteous k).2.1.mannerly
    | inbox d j =>
      refine mannerly_isInboxOpen fun isOpen => ?_
      cases isOpen <;> exact mannerly_line
  | finished => cases h

end Reveille.Poll
