import Reveille.Proofs.Poll.Due
import Reveille.Proofs.Poll.Procedure
import Reveille.Proofs.Poll.Scheduler
import Reveille.Proofs.Poll.World

/-!
# Who changes a poll says so

A request to the store may make a duty due on a poll (`Affects`).  A routine is `Mannerly` if it
goes on to publish an event that the service of this duty listens to, whenever that happens; the
runner of a duty need not tell itself.  The procedures of the services announce what they change
(`announces_process`), and the routines of clients are mannerly (`Client.mannerly`).
-/

namespace Reveille.Poll

open Program Reveille.System

variable {Sink : Type} {X : Signature} {σ α β : Type} {d : Duty} {id : Id} {own : Option Duty}

/-- The states in which a duty can be due. -/
def Duty.Concerns : Duty → State → Prop
  | .start, st => st = .scheduled
  | .advance, st => st.round?.isSome = true
  | .close, st => st.round?.isSome = true

/-- After the reply of the store a duty may be due on a poll. -/
def Store.Request.Affects (d : Duty) (id : Id) : (q : Store.Request) → q.Reply → Prop
  | .insert p, (reply : Except StoreError Unit) => reply = .ok () ∧ p.id = id ∧ d.Concerns p.state
  | .update poll _ next, (reply : Except StoreError Poll) =>
    (∃ p, reply = .ok p) ∧ poll = id ∧ d.Concerns next
  | .recordVote poll _, (reply : Except StoreError UInt32) =>
    (∃ round, reply = .ok round) ∧ poll = id ∧ d ≠ .start
  | .get _, _ => False
  | .all, _ => False

def Request.Affects (d : Duty) (id : Id) : (q : Request) → q.Reply → Prop
  | .store q, reply => q.Affects d id reply
  | _, _ => False

/-- Polls that enter the store have rounds that last. -/
def Store.Request.Lasting : Store.Request → Prop
  | .insert p => 0 < p.roundDuration.nanos
  | _ => True

def Request.Lasting : Request → Prop
  | .store q => q.Lasting
  | _ => True

theorem Request.Idle.not_affects {q : Request} (h : q.Idle) {reply : q.Reply} :
    ¬ q.Affects d id reply := by
  intro haffects
  cases q with
  | store q => cases q <;> first | exact h | exact haffects
  | readTime => exact haffects
  | publish e => exact haffects
  | log line => exact haffects

theorem Request.Idle.lasting {q : Request} (h : q.Idle) : q.Lasting := by
  cases q with
  | store q => cases q <;> first | exact trivial | exact False.elim h
  | _ => exact trivial

def Affects (d : Duty) (id : Id) : (q : System.Request (place Sink X σ)) → q.Reply → Prop
  | .call (.inl q), reply => q.Affects d id reply
  | _, _ => False

/-- The commitment of an event about a poll to which the service of a duty listens. -/
def Tells (d : Duty) (id : Id) (q : System.Request (place Sink X σ)) : Prop :=
  ∃ e, q = .commit (.event e) ∧ d.listensTo e = true ∧ e.poll = id

/-- Requests that are answered at once while the bus is open, up to waiting for a slot. -/
def Prompt : System.Request (place Sink X σ) → Prop
  | .readTime _ | .draw | .log _ | .enter | .requestSlot | .awaitSlot | .commit _ => True
  | .call (.inl q) => q.Lasting
  | _ => False

/-- What the runner of a duty may request, and everybody else. -/
def May : Option Duty → System.Request (place Sink X σ) → Prop
  | none, .call (.inl q) => q.Lasting
  | none, q => q.Plain
  | some _, q => Prompt q

/-- A routine that takes the stages to the queue in order and announces what it changes. -/
def Mannerly (own : Option Duty) : Stage → Routine (place Sink X σ) α → Prop
  | st, .done _ => st = .away
  | st, .ask q rest => st.Allows q ∧ May own q ∧ ∀ reply, Granted q reply →
      (∀ d id, own ≠ some d → Affects d id q reply →
        (rest reply).Leads Granted (Tells d id) fun _ => False) ∧
      Mannerly own (st.after q reply) (rest reply)

theorem Prompt.plain {q : System.Request (place Sink X σ)} (h : Prompt q) : q.Plain := by
  cases q <;> first | exact trivial | exact False.elim h

theorem May.plain {q : System.Request (place Sink X σ)} (h : May own q) : q.Plain := by
  cases own with
  | some d => exact Prompt.plain h
  | none => cases q <;> first | exact trivial | exact h

theorem May.lasting {q : Store.Request}
    (h : May own (.call (.inl q) : System.Request (place Sink X σ))) : q.Lasting := by
  cases own <;> exact h

theorem Prompt.may {q : System.Request (place Sink X σ)} (h : Prompt q) : May own q := by
  cases own with
  | some d => exact h
  | none =>
    cases q with
    | call q =>
      cases q with
      | inl q => exact h
      | inr q => exact trivial
    | _ => exact h.plain

theorem Duty.isDue_eq_false {p : Poll} {now : Instant} (h : ¬ d.Concerns p.state) :
    (d.due p now).isDue now = false := by
  rw [← Bool.not_eq_true]
  intro hdue
  cases d with
  | start => exact h (isDue_startDue.mp hdue).1
  | advance =>
    obtain ⟨round, since, votes, hst⟩ := exists_opened_of_isDue (by decide) hdue
    rw [hst] at h
    exact h rfl
  | close =>
    obtain ⟨round, since, votes, hst⟩ := exists_opened_of_isDue (by decide) hdue
    rw [hst] at h
    exact h rfl

/-- A request that does not make a duty due on a poll leaves the poll as it is, or in a state in
which the duty is never due. -/
theorem answer_of_not_affects {s s' : Store} {q : Store.Request} {reply : q.Reply}
    (h : s.answer q = (reply, s')) (hq : ¬ q.Affects d id reply) :
    s'.find? id = s.find? id ∨ ∀ p, s'.find? id = some p → ¬ d.Concerns p.state := by
  cases q with
  | get poll => exact Or.inl (congrArg (Store.find? · id) (Store.answer_get h).1)
  | all => exact Or.inl (congrArg (Store.find? · id) (congrArg Prod.snd h).symm)
  | insert p =>
    obtain ⟨-, rfl, hs⟩ | ⟨-, -, rfl⟩ := Store.answer_insert h
    · by_cases hid : id = p.id
      · right
        intro q hstored hconcerns
        rw [hs, if_pos hid] at hstored
        obtain rfl := Option.some.inj hstored
        exact hq ⟨rfl, hid.symm, hconcerns⟩
      · left
        rw [hs, if_neg hid]
    · exact Or.inl rfl
  | update poll expected next =>
    obtain ⟨p, -, -, rfl, hs⟩ | ⟨-, -, rfl⟩ | ⟨-, -, rfl⟩ := Store.answer_update h
    · by_cases hid : id = poll
      · right
        intro q hstored hconcerns
        rw [hs, if_pos hid] at hstored
        obtain rfl := Option.some.inj hstored
        exact hq ⟨⟨_, rfl⟩, hid.symm, hconcerns⟩
      · left
        rw [hs, if_neg hid]
    · exact Or.inl rfl
    · exact Or.inl rfl
  | recordVote poll voter =>
    obtain ⟨p, round, since, votes, -, hst, -, rfl, hs⟩ | ⟨-, rfl⟩ := Store.answer_recordVote h
    · by_cases hid : id = poll
      · right
        intro q hstored hconcerns
        rw [hs, if_pos hid] at hstored
        obtain rfl := Option.some.inj hstored
        cases d with
        | start => cases hconcerns
        | advance => exact hq ⟨⟨_, rfl⟩, hid.symm, by decide⟩
        | close => exact hq ⟨⟨_, rfl⟩, hid.symm, by decide⟩
      · left
        rw [hs, if_neg hid]
    · exact Or.inl rfl

def Store.Lasts (s : Store) : Prop := ∀ p ∈ s.polls, 0 < p.roundDuration.nanos

theorem Store.Lasts.answer {s s' : Store} {q : Store.Request} {reply : q.Reply} (hs : s.Lasts)
    (hq : q.Lasting) (h : s.answer q = (reply, s')) : s'.Lasts := by
  intro p hp
  have hfind := Store.find?_of_mem hp
  obtain rfl | ⟨new, rfl, -, hstored⟩ | ⟨poll, old, st, hold, hstored⟩ := Store.answer_cases h
  · exact hs p hp
  · rw [hstored] at hfind
    split at hfind
    · obtain rfl := Option.some.inj hfind
      exact hq
    · exact hs p (Store.mem_of_find? hfind)
  · rw [hstored] at hfind
    split at hfind
    · obtain rfl := Option.some.inj hfind
      exact hs old (Store.mem_of_find? hold)
    · exact hs p (Store.mem_of_find? hfind)

namespace Mannerly

theorem bind {p : Routine (place Sink X σ) α} {f : α → Routine (place Sink X σ) β} {st : Stage}
    (h : Mannerly own st p) (hf : ∀ a, Mannerly own .away (f a)) : Mannerly own st (p.bind f) := by
  induction p generalizing st with
  | done a =>
    obtain rfl : st = .away := h
    exact hf a
  | ask q rest ih =>
    refine ⟨h.1, h.2.1, fun reply hreply => ⟨?_, ih reply (h.2.2 reply hreply).2⟩⟩
    intro d id hown haffects
    exact ((h.2.2 reply hreply).1 d id hown haffects).bind_of_request

theorem forget {p : Routine (place Sink X σ) α} {st : Stage} (h : Mannerly own st p) :
    Mannerly own st p.forget := h.bind fun _ => rfl

theorem orderly {p : Routine (place Sink X σ) α} {st : Stage} (h : Mannerly own st p) :
    Orderly (fun _ => True) st p := by
  induction p generalizing st with
  | done a => exact ⟨h, trivial⟩
  | ask q rest ih => exact ⟨h.1, fun reply hreply => ih reply (h.2.2 reply hreply).2⟩

theorem query {q : System.Request (place Sink X σ)} {f : q.Reply → Routine (place Sink X σ) α}
    (hq : Stage.away.Allows q) (hne : q ≠ .requestSlot) (may : May own q)
    (hnot : ∀ d id reply, ¬ Affects d id q reply) (hf : ∀ reply, Mannerly own .away (f reply)) :
    Mannerly own .away (.ask q f) := by
  refine ⟨hq, may, fun reply _ => ⟨fun d id _ h => absurd h (hnot d id reply), ?_⟩⟩
  have hafter : Stage.away.after q reply = .away := by
    cases q with
    | requestSlot => exact absurd rfl hne
    | _ => rfl
  rw [hafter]
  exact hf reply

theorem enqueue (item : Bus.Command (Receiver (place Sink X σ)) Event) :
    Mannerly own .away (Routine.enqueue (D := place Sink X σ) item) := by
  have may {q : System.Request (place Sink X σ)} (h : Prompt q) : May own q := h.may
  refine ⟨trivial, may trivial, ?_⟩
  rintro _ rfl
  refine ⟨nofun, trivial, may trivial, fun _ _ => ⟨nofun, trivial, may trivial, ?_⟩⟩
  rintro _ rfl
  refine ⟨nofun, trivial, may trivial, ?_⟩
  rintro _ rfl
  exact ⟨nofun, rfl⟩

end Mannerly

theorem leads_enqueue {e : Event} (listens : d.listensTo e = true) (about : e.poll = id)
    {f : Except BusError Unit → Routine (place Sink X σ) α} {Q : α → Prop} :
    ((Routine.enqueue (D := place Sink X σ) (.event e)).bind f).Leads Granted (Tells d id) Q := by
  refine Or.inr ?_
  rintro _ rfl
  refine Or.inr fun _ _ => Or.inr ?_
  rintro _ rfl
  exact Or.inl ⟨e, rfl, listens, about⟩

/-! ### Procedures -/

def Request.routine : (q : Request) → Routine (place Sink X σ) q.Reply
  | .store q => Routine.query (D := place Sink X σ) (.call (.inl q))
  | .readTime => Routine.query (D := place Sink X σ) (.readTime .clock)
  | .publish e => Routine.enqueue (D := place Sink X σ) (.event e)
  | .log line => Routine.query (D := place Sink X σ) (.log line)

def Procedure.routine (p : Procedure α) : Routine (place Sink X σ) α := p.interpret Request.routine

theorem routine_activity (p : Procedure α) :
    Activity.routine (p.activity access .clock : Activity (place Sink X σ) α) = p.routine := by
  have hrequest : (fun q : Request => Activity.routine (Request.inSystem access .clock q :
      Activity (place Sink X σ) q.Reply)) = Request.routine := by
    funext q
    cases q with
    | publish e => exact interpret_request (S := (place Sink X σ).effects) Effect.routine (.send e)
    | _ => rfl
  rw [Activity.routine, Procedure.activity, interpret_interpret]
  exact congrArg p.interpret hrequest

def Publishes (d : Duty) (id : Id) (q : Request) : Prop :=
  ∃ e, q = .publish e ∧ d.listensTo e = true ∧ e.poll = id

/-- A procedure that announces what it changes. -/
def Procedure.Announces (own : Option Duty) : Procedure α → Prop
  | .done _ => True
  | .ask q rest => q.Lasting ∧ ∀ reply,
      (∀ d id, own ≠ some d → q.Affects d id reply →
        (rest reply).Leads (fun _ _ => True) (Publishes d id) fun _ => False) ∧
      Procedure.Announces own (rest reply)

theorem leads_routine {p : Procedure α}
    (h : p.Leads (fun _ _ => True) (Publishes d id) fun _ => False) :
    (p.routine : Routine (place Sink X σ) α).Leads Granted (Tells d id) fun _ => False := by
  induction p with
  | done a => exact h
  | ask q rest ih =>
    rcases h with ⟨e, rfl, listens, about⟩ | h
    · exact leads_enqueue listens about
    · exact Leads.bind (Leads.of_forall fun _ => trivial) fun reply _ => ih reply (h reply trivial)

namespace Procedure.Announces

theorem mannerly {p : Procedure α} (h : p.Announces own) :
    Mannerly own .away (p.routine : Routine (place Sink X σ) α) := by
  have may {q : System.Request (place Sink X σ)} (h : Prompt q) : May own q := h.may
  induction p with
  | done a => exact rfl
  | ask q rest ih =>
    obtain ⟨hlasting, h⟩ := h
    have hrest := fun reply => ih reply (h reply).2
    cases q with
    | store q =>
      refine ⟨trivial, may hlasting, fun reply _ => ⟨?_, hrest reply⟩⟩
      intro d id hown haffects
      exact leads_routine ((h reply).1 d id hown haffects)
    | readTime => exact ⟨trivial, may trivial, fun reply _ => ⟨nofun, hrest reply⟩⟩
    | publish e => exact Mannerly.bind (.enqueue (.event e)) hrest
    | log line => exact ⟨trivial, may trivial, fun reply _ => ⟨nofun, hrest reply⟩⟩

theorem bind {p : Procedure α} {f : α → Procedure β} (h : p.Announces own)
    (hf : ∀ a, (f a).Announces own) : Procedure.Announces own (p.bind f) := by
  induction p with
  | done a => exact hf a
  | ask q rest ih =>
    refine ⟨h.1, fun reply => ⟨?_, ih reply (h.2 reply).2⟩⟩
    intro d id hown haffects
    exact ((h.2 reply).1 d id hown haffects).bind_of_request

theorem of_only {p : Procedure α} (h : p.Only Request.Idle) : p.Announces own := by
  induction p with
  | done a => exact trivial
  | ask q rest ih =>
    refine ⟨h.1.lasting, fun reply => ⟨?_, ih reply (h.2 reply)⟩⟩
    intro d id _ haffects
    exact absurd haffects h.1.not_affects

end Procedure.Announces

theorem mannerly_activity {p : Procedure α} (h : p.Announces own) :
    Mannerly own .away (Activity.routine (p.activity access .clock :
      Activity (place Sink X σ) α)) := by
  rw [routine_activity]
  exact h.mannerly

theorem announces_createPoll {p : Poll} (scheduled : p.state = .scheduled)
    (lasting : 0 < p.roundDuration.nanos) : (createPoll p).Announces none := by
  have hrest := (opens_createPoll (p := p)).2
  refine ⟨lasting, fun reply => ⟨?_, Procedure.Announces.of_only (hrest reply)⟩⟩
  rintro d id - ⟨rfl, rfl, hconcerns⟩
  rw [scheduled] at hconcerns
  cases d with
  | start => exact Or.inl ⟨_, rfl, rfl, rfl⟩
  | advance => cases hconcerns
  | close => cases hconcerns

theorem announces_castVote {voter : String} : (castVote id voter).Announces none := by
  have hrest := (@opens_castVote id voter).2
  refine ⟨trivial, fun reply => ⟨?_, Procedure.Announces.of_only (hrest reply)⟩⟩
  rintro d poll - ⟨⟨round, rfl⟩, rfl, hd⟩
  cases d with
  | start => exact absurd rfl hd
  | advance => exact Or.inl ⟨_, rfl, rfl, rfl⟩
  | close => exact Or.inl ⟨_, rfl, rfl, rfl⟩

/-- Another duty is due in the new state only if its service listens to the event of the move. -/
theorem Duty.listensTo_of_move {d' : Duty} {p : Poll} {now : Instant} {m : Move}
    (h : d.move? p now = some m) (hne : d ≠ d') (hconcerns : d'.Concerns m.next) :
    d'.listensTo m.event = true ∧ m.event.poll = p.id := by
  cases d with
  | start =>
    cases h
    cases d' with
    | start => exact absurd rfl hne
    | advance => exact ⟨rfl, rfl⟩
    | close => exact ⟨rfl, rfl⟩
  | advance =>
    obtain ⟨round, -, rfl⟩ := Option.map_eq_some_iff.mp h
    cases d' with
    | start => cases hconcerns
    | advance => exact absurd rfl hne
    | close => exact ⟨rfl, rfl⟩
  | close =>
    obtain ⟨rounds, -, rfl⟩ := Option.map_eq_some_iff.mp h
    cases d' with
    | start => cases hconcerns
    | advance => cases hconcerns
    | close => cases hconcerns

theorem announces_carryOut {p : Poll} {now : Instant} {m : Move} (h : d.move? p now = some m) :
    (Duty.carryOut p m).Announces (some d) := by
  have hrest := (Duty.opens_carryOut (p := p) (m := m)).2
  refine ⟨trivial, fun reply => ⟨?_, Procedure.Announces.of_only (hrest reply)⟩⟩
  rintro d' id hown ⟨⟨q, rfl⟩, rfl, hconcerns⟩
  have hne : d ≠ d' := by
    rintro rfl
    exact hown rfl
  obtain ⟨listens, about⟩ := Duty.listensTo_of_move h hne hconcerns
  exact Or.inr fun _ _ => Or.inl ⟨_, rfl, listens, about⟩

theorem announces_process : (d.process id).Announces (some d) := by
  refine Procedure.Announces.bind (.of_only Duty.idle_loadDue) fun reply => ?_
  rcases reply with e | _ | ⟨p, now⟩
  · exact trivial
  · exact trivial
  · dsimp only
    cases hm : d.move? p now with
    | some m => exact announces_carryOut hm
    | none => exact trivial

/-! ### Routines of clients, services and receivers -/

theorem mannerly_effect {e : Effect (place Sink X σ)} (h : Harmless e) :
    Mannerly none .away e.routine := by
  have done {q : System.Request (place Sink X σ)} (hq : Stage.away.Allows q)
      (hne : q ≠ .requestSlot) (may : May none q) (hnot : ∀ d id reply, ¬ Affects d id q reply) :
      Mannerly none .away (Routine.query q) := .query hq hne may hnot fun _ => rfl
  cases e with
  | readTime source => exact done trivial nofun trivial fun _ _ _ h => h
  | elapsed => exact done trivial nofun trivial fun _ _ _ h => h
  | sleepUntil ms => exact done trivial nofun trivial fun _ _ _ h => h
  | hang => exact done trivial nofun trivial fun _ _ _ h => h
  | log line => exact done trivial nofun trivial fun _ _ _ h => h
  | send e => exact .enqueue (.event e)
  | trySend e => exact done trivial nofun trivial fun _ _ _ h => h
  | register k => exact .enqueue (.register (.sink k))
  | isBusClosed => exact done trivial nofun trivial fun _ _ _ h => h
  | awaitEnd handle until? => exact done trivial nofun trivial fun _ _ _ h => h
  | panic p => exact False.elim h
  | closeBus => exact False.elim h
  | startRunner d => exact False.elim h
  | requestStop handle => exact False.elim h
  | abort handle => exact False.elim h
  | call q =>
    cases q with
    | inr q => exact done trivial nofun trivial fun _ _ _ h => h
    | inl q =>
      cases q with
      | get id => exact done trivial nofun trivial fun _ _ _ h => h
      | all => exact done trivial nofun trivial fun _ _ _ h => h
      | insert p => exact False.elim h
      | update id expected next => exact False.elim h
      | recordVote id voter => exact False.elim h

theorem Client.mannerly {f : Activity (place Sink X σ) α} (h : Client f) :
    Mannerly none .away f.routine := by
  induction h with
  | done a => exact rfl
  | effect harmless _ ih => exact Mannerly.bind (mannerly_effect harmless) ih
  | @create p rest scheduled lasting _ ih =>
    rw [Activity.routine, interpret_bind]
    exact (mannerly_activity (announces_createPoll scheduled lasting)).bind ih
  | @vote id voter rest _ ih =>
    rw [Activity.routine, interpret_bind]
    exact (mannerly_activity announces_castVote).bind ih

end Reveille.Poll
