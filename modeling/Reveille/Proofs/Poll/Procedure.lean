import Reveille.Proofs.Poll.Pool

/-!
# What the programs about polls ask for

Most requests are `Idle`: they change no poll (`Request.Idle.same`).  A service that looks at polls or
receives an event makes no other request (`Duty.idle_items`, `Duty.idle_check`, `Duty.idle_loadDue`,
`Duty.idle_receive`).  One who changes a poll makes a single request that is not idle, and makes it
first (`Opens`): to carry out a move is to replace the state (`Duty.opens_carryOut`), to create a poll
is to insert it (`opens_createPoll`), and to cast a vote is to record it (`opens_castVote`).
-/

namespace Reveille.Poll

open Program

variable {α β : Type}

def Request.Idle : Request → Prop
  | .store (.insert _) | .store (.update _ _ _) | .store (.recordVote _ _) => False
  | _ => True

theorem Request.Idle.same {q : Request} (h : q.Idle) {now : Instant} {reply : q.Reply} {s s' : Store}
    (answers : Answers now q s reply s') : s' = s := by
  cases q with
  | store q =>
    cases q with
    | get id => exact (Store.answer_get answers).1
    | all => exact (congrArg Prod.snd answers).symm
    | insert p => exact False.elim h
    | update id expected next => exact False.elim h
    | recordVote id voter => exact False.elim h
  | readTime => exact answers.2
  | publish e => exact answers
  | log line => exact answers

/-- A procedure whose first request is `q`, and whose others are idle. -/
def Procedure.Opens (q : Request) : Procedure α → Prop
  | .done _ => False
  | .ask q' rest => q' = q ∧ ∀ reply, (rest reply).Only Request.Idle

namespace Procedure

theorem Opens.only {q : Request} {P : Request → Prop} {p : Procedure α} (h : p.Opens q) (hq : P q)
    (idle : ∀ q, q.Idle → P q) : p.Only P := by
  cases p with
  | done a => exact False.elim h
  | ask q' rest =>
    obtain ⟨rfl, hrest⟩ := h
    exact ⟨hq, fun reply => (hrest reply).mono idle⟩

theorem Opens.bind {q : Request} {p : Procedure α} {f : α → Procedure β} (h : p.Opens q)
    (hf : ∀ a, (f a).Only Request.Idle) : Procedure.Opens q (p.bind f) := by
  cases p with
  | done a => exact False.elim h
  | ask q' rest => exact ⟨h.1, fun reply => (h.2 reply).bind hf⟩

end Procedure

namespace Duty

variable {d : Duty} {id : Id}

theorem idle_items : d.items.collect.Only Request.Idle := by
  refine ⟨trivial, fun _ => ⟨trivial, fun (reply : Except StoreError _) => ?_⟩⟩
  cases reply with
  | ok polls =>
    show Only _ (Feed.ofList _).collect
    rw [Feed.collect_ofList]
    exact trivial
  | error e => exact trivial

theorem idle_check : (d.check id).Only Request.Idle := by
  refine ⟨trivial, fun (reply : Except StoreError Poll) => ?_⟩
  rcases reply with e | p
  · cases e <;> exact trivial
  · exact ⟨trivial, fun _ => trivial⟩

theorem idle_loadDue : (d.loadDue id).Only Request.Idle := by
  refine ⟨trivial, fun (reply : Except StoreError Poll) => ?_⟩
  rcases reply with e | p
  · cases e <;> exact trivial
  · exact ⟨trivial, fun _ => trivial⟩

theorem idle_receive {e : Event} : (d.receive e).Only Request.Idle := by
  cases d with
  | advance => exact ⟨trivial, fun _ => trivial⟩
  | start => exact trivial
  | close => exact trivial

theorem idle_announce {e : Event} : (Duty.announce e).Only Request.Idle := by
  refine ⟨trivial, fun (reply : Except BusError Unit) => ?_⟩
  cases reply with
  | ok u => exact trivial
  | error cause => exact ⟨trivial, fun _ => trivial⟩

theorem opens_replace {p : Poll} {next : State} :
    (Duty.replace p next).Opens (.store (.update p.id p.state next)) := by
  refine ⟨rfl, fun (reply : Except StoreError Poll) => ?_⟩
  rcases reply with e | q
  · cases e with
    | notFound id => exact ⟨trivial, fun _ => trivial⟩
    | conflict id => exact ⟨trivial, fun _ => trivial⟩
    | notOpen id => exact trivial
    | duplicateVote id round voter => exact trivial
  · exact trivial

theorem opens_carryOut {p : Poll} {m : Move} :
    (Duty.carryOut p m).Opens (.store (.update p.id p.state m.next)) := by
  refine opens_replace.bind fun (done : Except ServiceError Bool) => ?_
  rcases done with e | _ | _
  · exact trivial
  · exact trivial
  · exact ⟨trivial, fun _ => idle_announce.bind fun _ => trivial⟩

end Duty

theorem opens_createPoll {p : Poll} : (createPoll p).Opens (.store (.insert p)) := by
  refine ⟨rfl, fun (reply : Except StoreError Unit) => ?_⟩
  cases reply with
  | error e => exact trivial
  | ok u => exact ⟨trivial, fun (sent : Except BusError Unit) => by cases sent <;> exact trivial⟩

theorem opens_castVote {id : Id} {voter : String} :
    (castVote id voter).Opens (.store (.recordVote id voter)) := by
  refine ⟨rfl, fun (reply : Except StoreError UInt32) => ?_⟩
  cases reply with
  | error e => exact trivial
  | ok round => exact ⟨trivial, fun (sent : Except BusError Unit) => by cases sent <;> exact trivial⟩

end Reveille.Poll
