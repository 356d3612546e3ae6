import Reveille.Proofs.Poll.Due
import Reveille.Proofs.Poll.Procedure
import Reveille.Proofs.Program.Path

/-!
# What a thread has done

What is left of a thread is what its procedure comes to by the replies that it was given, and a poll is
given under its own number (`Run.traced`).  So a thread that is about to replace the state of a poll has
loaded it and found it due, and has still to announce the move and to report its outcome; one that is about
to insert a poll or to record a vote has still to announce that (`Changing`).
-/

namespace Reveille.Poll

open Program Procedure

variable {α : Type} {d : Duty} {id : Id} {past : List (Exchange requests)} {q : Request}

def Procedure.Sends (e : Event) (P : Procedure α) : Prop :=
  P.Leads (fun _ _ => True) (· = Request.publish e) fun _ => False

def Procedure.EndsWith (a : α) (P : Procedure α) : Prop :=
  P.Leads (fun _ _ => True) (fun _ => False) (· = a)

/-- A poll is given under its own number. -/
def Honest : Exchange requests → Prop
  | ⟨.store (.get id), (reply : Except StoreError Poll)⟩ => ∀ p, reply = .ok p → p.id = id
  | _ => True

theorem Answers.honest {now : Instant} {s s' : Store} {reply : q.Reply}
    (h : Answers now q s reply s') : Honest ⟨q, reply⟩ := by
  cases q with
  | store q =>
    cases q with
    | get id =>
      rintro p rfl
      obtain ⟨-, ⟨p', hp', hp⟩ | ⟨-, hp⟩⟩ := Store.answer_get h
      · cases hp
        exact Store.find?_id hp'
      · cases hp
    | _ => exact trivial
  | _ => exact trivial

/-- A thread that has come to where it is by honest replies. -/
structure Traced (th : Thread) : Prop where
  path : Path th.op.procedure th.past th.rest
  honest : ∀ x ∈ th.past, Honest x

namespace Pool

variable {P Q : Pool} {a : Label} {τ : List Label}

theorem Step.traced (h : Step P a Q) (traced : ∀ th ∈ P.threads, Traced th) :
    ∀ th ∈ Q.threads, Traced th := by
  intro th hth
  cases h with
  | begin op =>
    rcases List.mem_append.mp hth with hth | hth
    · exact traced th hth
    · rw [List.mem_singleton.mp hth]
      exact ⟨.refl _, List.forall_mem_nil _⟩
  | pass h => exact traced th hth
  | ask thread answers =>
    rcases List.mem_or_eq_of_mem_set hth with hth | rfl
    · exact traced th hth
    · obtain ⟨path, honest⟩ := traced _ (List.mem_of_getElem? thread)
      refine ⟨path.concat _, fun x hx => ?_⟩
      rcases List.mem_append.mp hx with hx | hx
      · exact honest x hx
      · rw [List.mem_singleton.mp hx]
        exact answers.honest

theorem Run.traced (h : Run P τ Q) (traced : ∀ th ∈ P.threads, Traced th) :
    ∀ th ∈ Q.threads, Traced th := by
  induction h with
  | refl => exact traced
  | step before h ih => exact h.traced ih

end Pool

/-! ### Threads that change a poll -/

/-- A thread that is about to change a poll, with what it has still to say about that. -/
inductive Changing : Thread → Prop
  | create {p : Poll} {rest : Except StoreError Unit → Procedure (Except PollError Unit)}
      (sends : (rest (.ok ())).Sends (.created p.id)) :
      Changing ⟨.create p, [], .ask (.store (.insert p)) rest⟩
  | vote {id : Id} {voter : String}
      {rest : Except StoreError UInt32 → Procedure (Except PollError UInt32)}
      (sends : ∀ round, (rest (.ok round)).Sends (.voteCast id round voter)) :
      Changing ⟨.castVote id voter, [], .ask (.store (.recordVote id voter)) rest⟩
  | unannounced {id : Id} {voter : String} :
      Changing ⟨.recordVote id voter, [], .ask (.store (.recordVote id voter)) .done⟩
  | move {d : Duty} {p : Poll} {t : Instant} {m : Move}
      {rest : Except StoreError Poll → Procedure (Except ServiceError Processed)}
      (due : (d.due p t).isDue t = true) (move : d.move? p t = some m)
      (sends : ∀ q, (rest (.ok q)).Sends m.event)
      (ends : ∀ q, (rest (.ok q)).EndsWith (.ok m.outcome)) :
      Changing ⟨.process d p.id, [⟨.store (.get p.id), .ok p⟩, ⟨.readTime, t⟩],
        .ask (.store (.update p.id p.state m.next)) rest⟩

theorem sends_announce {e : Event} {f : Unit → Procedure α} :
    Procedure.Sends e ((Duty.announce e).bind f) := Or.inl rfl

theorem endsWith_announce {e : Event} {a : α} :
    Procedure.EndsWith a ((Duty.announce e).bind fun _ => .done a) := by
  refine Leads.bind ?_ (fun (_ : Unit) (_ : True) => rfl)
  exact Leads.of_forall fun _ => trivial

/-- What was loaded is due, and its number is the one that was asked for. -/
theorem path_loadDue {loaded : Except ServiceError (Option (Poll × Instant))}
    (path : Path (d.loadDue id) past (.done loaded)) (honest : ∀ x ∈ past, Honest x) {p : Poll}
    {t : Instant} (h : loaded = .ok (some (p, t))) :
    past = [⟨.store (.get id), .ok p⟩, ⟨.readTime, t⟩] ∧ p.id = id ∧ (d.due p t).isDue t = true := by
  obtain ⟨-, ⟨⟩⟩ | ⟨(reply : Except StoreError Poll), xs, rfl, got⟩ := Path.of_ask path
  cases reply with
  | error e =>
    cases e <;>
    · obtain ⟨rfl, hdone⟩ := Path.of_done got
      cases hdone
      cases h
  | ok p' =>
    obtain ⟨-, ⟨⟩⟩ | ⟨(now : Instant), ys, rfl, read⟩ := Path.of_ask got
    obtain ⟨rfl, hdone⟩ := Path.of_done read
    cases hdone
    split at h
    · next due =>
      cases h
      exact ⟨rfl, honest _ List.mem_cons_self p rfl, due⟩
    · cases h

/-- Until when there is nothing more to do, if a service says so. -/
def untilWhen? : Except ServiceError Processed → Option DueTime
  | .ok (.advancedUntil due) => some due
  | _ => none

/-- An idle request, or an end that does not say until when there is nothing more to do. -/
def Tentative : Procedure (Except ServiceError Processed) → Prop
  | .done result => untilWhen? result = none
  | .ask q _ => q.Idle

/-- A service does nothing of weight before it carries out its move on a poll that is due. -/
theorem path_process {r : Procedure (Except ServiceError Processed)}
    (path : Path (d.process id) past r) (honest : ∀ x ∈ past, Honest x) :
    Tentative r ∨ ∃ p t m zs, p.id = id ∧ (d.due p t).isDue t = true ∧ d.move? p t = some m ∧
      past = [⟨.store (.get id), .ok p⟩, ⟨.readTime, t⟩] ++ zs ∧ Path (Duty.carryOut p m) zs r := by
  obtain ⟨q', rest', hload, rfl⟩ | ⟨loaded, ys, zs, rfl, hload, found⟩ := Path.of_bind path
  · exact Or.inl (hload.only_rest Duty.idle_loadDue).1
  rcases loaded with e | _ | ⟨p, t⟩
  · obtain ⟨-, rfl⟩ := Path.of_done found
    exact Or.inl rfl
  · obtain ⟨-, rfl⟩ := Path.of_done found
    exact Or.inl rfl
  obtain ⟨rfl, number, due⟩ :=
    path_loadDue hload (fun x hx => honest x (List.mem_append_left _ hx)) rfl
  dsimp only at found
  cases move : d.move? p t with
  | none =>
    rw [move] at found
    obtain ⟨-, rfl⟩ := Path.of_done found
    exact Or.inl rfl
  | some m =>
    rw [move] at found
    exact Or.inr ⟨p, t, m, zs, number, due, move, rfl, found⟩

theorem changing_process {rest : q.Reply → Procedure (Except ServiceError Processed)}
    (path : Path (d.process id) past (.ask q rest)) (honest : ∀ x ∈ past, Honest x) (busy : ¬ q.Idle) :
    Changing ⟨.process d id, past, .ask q rest⟩ := by
  obtain hidle | ⟨p, t, m, zs, rfl, due, move, rfl, carried⟩ := path_process path honest
  · exact absurd hidle busy
  obtain ⟨rfl, hask⟩ | ⟨reply, xs, rfl, replaced⟩ := Path.of_ask carried
  · rw [hask]
    exact .move due move (fun _ => Or.inr fun _ _ => sends_announce)
      fun _ => Or.inr fun _ _ => endsWith_announce
  · exact absurd (replaced.only_rest (Duty.opens_carryOut.2 reply)).1 busy

theorem Traced.changing {op : Operation} {rest : q.Reply → Procedure op.Result}
    (h : Traced ⟨op, past, .ask q rest⟩) (busy : ¬ q.Idle) : Changing ⟨op, past, .ask q rest⟩ := by
  obtain ⟨(path : Path op.procedure past (.ask q rest)), (honest : ∀ x ∈ past, Honest x)⟩ := h
  cases op with
  | scan d => exact absurd (path.only_rest Duty.idle_items).1 busy
  | check d id => exact absurd (path.only_rest Duty.idle_check).1 busy
  | process d id => exact changing_process path honest busy
  | create p =>
    obtain ⟨rfl, hask⟩ | ⟨reply, xs, rfl, inserted⟩ := Path.of_ask path
    · rw [hask]
      exact .create (Or.inl rfl)
    · exact absurd (inserted.only_rest (opens_createPoll.2 reply)).1 busy
  | castVote id voter =>
    obtain ⟨rfl, hask⟩ | ⟨reply, xs, rfl, recorded⟩ := Path.of_ask path
    · rw [hask]
      exact .vote fun _ => Or.inl rfl
    · exact absurd (recorded.only_rest (opens_castVote.2 reply)).1 busy
  | recordVote id voter =>
    obtain ⟨rfl, hask⟩ | ⟨reply, xs, rfl, recorded⟩ := Path.of_ask path
    · rw [hask]
      exact .unannounced
    · cases (Path.of_done recorded).2

/-- A service that says until when there is nothing to do has replaced the state of the poll. -/
theorem replaced_of_until {result : Except ServiceError Processed} {due : DueTime}
    (path : Path (d.process id) past (.done result)) (honest : ∀ x ∈ past, Honest x)
    (h : untilWhen? result = some due) :
    ∃ p t m q, d.move? p t = some m ∧ result = .ok m.outcome ∧
      ⟨.store (.update id p.state m.next), .ok q⟩ ∈ past := by
  obtain hnone | ⟨p, t, m, zs, rfl, -, move, rfl, carried⟩ := path_process path honest
  · cases h.symm.trans hnone
  obtain ⟨-, ⟨⟩⟩ | ⟨(reply : Except StoreError Poll), xs, rfl, replaced⟩ := Path.of_ask carried
  cases reply with
  | ok q =>
    have ends : Procedure.EndsWith (Except.ok m.outcome : Except ServiceError Processed) (.done result) :=
      replaced.leads (Or.inr fun _ _ => endsWith_announce)
    exact ⟨p, t, m, q, move, ends, List.mem_append_right _ List.mem_cons_self⟩
  | error e =>
    have hnone : untilWhen? result = none := by
      refine replaced.leads (Q := fun result => untilWhen? result = none) ?_
      cases e with
      | notFound id => exact Or.inr fun _ _ => rfl
      | conflict id => exact Or.inr fun _ _ => rfl
      | notOpen id => exact rfl
      | duplicateVote id round voter => exact rfl
    cases h.symm.trans hnone

theorem result_of_check {result : Except ServiceError DueTime}
    (path : Path (d.check id) past (.done result)) :
    (∃ p t, past = [⟨.store (.get id), .ok p⟩, ⟨.readTime, t⟩] ∧ result = .ok (d.due p t)) ∨
      ∃ e, past = [⟨.store (.get id), .error e⟩] := by
  obtain ⟨-, ⟨⟩⟩ | ⟨(reply : Except StoreError Poll), xs, rfl, got⟩ := Path.of_ask path
  cases reply with
  | error e =>
    refine Or.inr ⟨e, ?_⟩
    cases e <;> rw [(Path.of_done got).1]
  | ok p =>
    obtain ⟨-, ⟨⟩⟩ | ⟨(t : Instant), ys, rfl, read⟩ := Path.of_ask got
    obtain ⟨rfl, hdone⟩ := Path.of_done read
    exact Or.inl ⟨p, t, rfl, Program.done.inj hdone⟩

end Reveille.Poll
