import Mathlib.Logic.Function.Basic
import Reveille.Proofs.Poll.Votes

/-!
# The store is a table

A `Table` keeps polls under keys.  `Table.Serves` lists the answers of a table to the requests that can be made
of a store, with what each of them changes: one key at most, and nothing if the request was refused
(`Table.Serves.refused`).  A store answers as the table `Store.find?` does (`Store.serves`), request by request
and so in every sequence of requests (`Table.run_serve`).

From an empty store on a poll stays under its own number (`Table.Run.own`), and what is listed are the polls of
the numbers that were inserted (`Table.Run.listed`).  All of this together is `Store.acts_as_table`.
-/

namespace Reveille.Poll

abbrev Table := Id → Option Poll

namespace Store

abbrev requests : Signature := ⟨Request, Request.Reply⟩

namespace Request

def id? : Request → Option Id
  | .insert p => some p.id
  | .get id | .update id _ _ | .recordVote id _ => some id
  | .all => none

def isRefused : (q : Request) → q.Reply → Bool
  | .insert _, (reply : Except StoreError Unit) => !reply.toBool
  | .get _, (reply : Except StoreError Poll) => !reply.toBool
  | .all, (reply : Except StoreError (List Poll)) => !reply.toBool
  | .update _ _ _, (reply : Except StoreError Poll) => !reply.toBool
  | .recordVote _ _, (reply : Except StoreError UInt32) => !reply.toBool

end Request

def serve (s : Store) : List Request → List (Exchange requests) × Store
  | [] => ([], s)
  | q :: qs =>
    let (reply, s') := s.answer q
    let (xs, s'') := s'.serve qs
    (⟨q, reply⟩ :: xs, s'')

def inserted? : Exchange requests → Option Id
  | ⟨.insert p, (.ok () : Except StoreError Unit)⟩ => some p.id
  | _ => none

def inserted (xs : List (Exchange requests)) : List Id := xs.filterMap inserted?

end Store

open Store (inserted? inserted)

namespace Table

def empty : Table := fun _ => none

def put (t : Table) (id : Id) (p : Poll) : Table := Function.update t id (some p)

/-- How a table answers a request, and what it is afterwards. -/
inductive Serves (t : Table) : (q : Store.Request) → q.Reply → Table → Prop
  | inserted {p : Poll} (free : t p.id = none) : Serves t (.insert p) (.ok ()) (t.put p.id p)
  | taken {p q : Poll} (stored : t p.id = some q) : Serves t (.insert p) (.error (.conflict p.id)) t
  | got {id : Id} {p : Poll} (stored : t id = some p) : Serves t (.get id) (.ok p) t
  | missing {id : Id} (free : t id = none) : Serves t (.get id) (.error (.notFound id)) t
  | listed {l : List Poll} (ascending : l.Pairwise fun p q => p.id.number < q.id.number)
      (complete : ∀ id p, t id = some p ↔ p ∈ l ∧ p.id = id) : Serves t .all (.ok l) t
  | updated {id : Id} {p : Poll} {next : State} (stored : t id = some p) :
      Serves t (.update id p.state next) (.ok { p with state := next }) (t.put id { p with state := next })
  | moved {id : Id} {p : Poll} {expected next : State} (stored : t id = some p) (other : p.state ≠ expected) :
      Serves t (.update id expected next) (.error (.conflict id)) t
  | lost {id : Id} {expected next : State} (free : t id = none) :
      Serves t (.update id expected next) (.error (.notFound id)) t
  | voted {id : Id} {p : Poll} {voter : String} {round : UInt32} {since : Instant} {votes : Voters}
      (stored : t id = some p) (opened : p.state = .opened round since votes) (new : voter ∉ votes) :
      Serves t (.recordVote id voter) (.ok round)
        (t.put id { p with state := .opened round since (votes.insert voter) })
  | again {id : Id} {p : Poll} {voter : String} {round : UInt32} {since : Instant} {votes : Voters}
      (stored : t id = some p) (opened : p.state = .opened round since votes) (old : voter ∈ votes) :
      Serves t (.recordVote id voter) (.error (.duplicateVote id round voter)) t
  | shut {id : Id} {p : Poll} {voter : String} (stored : t id = some p)
      (other : ∀ round since votes, p.state ≠ .opened round since votes) :
      Serves t (.recordVote id voter) (.error (.notOpen id)) t
  | unknown {id : Id} {voter : String} (free : t id = none) :
      Serves t (.recordVote id voter) (.error (.notFound id)) t

inductive Run : Table → List (Exchange Store.requests) → Table → Prop
  | nil {t : Table} : Run t [] t
  | cons {t t' t'' : Table} {q : Store.Request} {reply : q.Reply} {xs : List (Exchange Store.requests)}
      (h : Serves t q reply t') (rest : Run t' xs t'') : Run t (⟨q, reply⟩ :: xs) t''

variable {t t' : Table} {q : Store.Request} {reply : q.Reply} {id : Id} {p : Poll}
  {xs : List (Exchange Store.requests)}

theorem put_apply (id' : Id) : t.put id p id' = if id' = id then some p else t id' :=
  Function.update_apply t id (some p) id'

def Own (t : Table) : Prop := ∀ id p, t id = some p → p.id = id

theorem Own.put (h : t.Own) (hp : p.id = id) : (t.put id p).Own := by
  intro id' p' hput
  rw [put_apply] at hput
  by_cases hid : id' = id
  · rw [if_pos hid] at hput
    rw [← Option.some.inj hput, hp, hid]
  · rw [if_neg hid] at hput
    exact h id' p' hput

namespace Serves

theorem own (h : Serves t q reply t') (own : t.Own) : t'.Own := by
  cases h with
  | inserted free => exact own.put rfl
  | @updated id p next stored => exact own.put (own id p stored)
  | @voted id p _ _ _ _ stored => exact own.put (own id p stored)
  | _ => exact own

theorem refused (h : Serves t q reply t') (hrefused : q.isRefused reply = true) : t' = t := by
  cases h with
  | inserted free => cases hrefused
  | updated stored => cases hrefused
  | voted stored opened new => cases hrefused
  | _ => rfl

/-- A request changes at most the state of the poll that it is about, unless it inserts one. -/
theorem others (h : Serves t q reply t') (hq : ∀ p, q ≠ .insert p) (id : Id) :
    t' id = t id ∨ q.id? = some id ∧ ∃ p st, t id = some p ∧ t' id = some { p with state := st } := by
  have changed {id' : Id} {p : Poll} (st : State) (stored : t id' = some p) :
      t.put id' { p with state := st } id = t id ∨
        some id' = some id ∧ ∃ q st', t id = some q ∧
          t.put id' { p with state := st } id = some { q with state := st' } := by
    rw [put_apply]
    by_cases hid : id = id'
    · subst hid
      exact Or.inr ⟨rfl, p, st, stored, if_pos rfl⟩
    · exact Or.inl (if_neg hid)
  cases h with
  | @inserted p free => exact absurd rfl (hq p)
  | @updated _ _ next stored => exact changed next stored
  | @voted _ _ voter round since votes stored opened new =>
    exact changed (.opened round since (votes.insert voter)) stored
  | _ => exact Or.inl rfl

/-- Polls get under a number by an insertion only, and stay there. -/
theorem listed_iff (h : Serves t q reply t') (id : Id) :
    (t' id).isSome ↔ (t id).isSome ∨ inserted? ⟨q, reply⟩ = some id := by
  have put_iff {id' : Id} {p : Poll} : (t.put id' p id).isSome ↔ id = id' ∨ (t id).isSome := by
    rw [put_apply]
    by_cases hid : id = id' <;> simp [hid]
  have stays {id' : Id} {p p' : Poll} (stored : t id' = some p) :
      (t.put id' p' id).isSome ↔ (t id).isSome := by
    rw [put_iff]
    constructor
    · rintro (rfl | hid)
      · rw [stored]
        rfl
      · exact hid
    · exact Or.inr
  cases h with
  | @inserted p free =>
    rw [put_iff, or_comm, inserted?, Option.some.injEq]
    exact or_congr_right eq_comm
  | updated stored => exact (stays stored).trans (by simp [inserted?])
  | voted stored opened new => exact (stays stored).trans (by simp [inserted?])
  | _ => simp [inserted?]

end Serves

namespace Run

theorem own (h : Run t xs t') (own : t.Own) : t'.Own := by
  induction h with
  | nil => exact own
  | cons h rest ih => exact ih (h.own own)

theorem listed (h : Run t xs t') (id : Id) : (t' id).isSome ↔ (t id).isSome ∨ id ∈ inserted xs := by
  induction h with
  | nil => simp [inserted]
  | @cons t t' t'' q reply xs h rest ih =>
    have hcons : id ∈ inserted (⟨q, reply⟩ :: xs) ↔ inserted? ⟨q, reply⟩ = some id ∨ id ∈ inserted xs := by
      simp [inserted, List.mem_filterMap]
    rw [ih, h.listed_iff, hcons, or_assoc]

end Run

end Table

namespace Store

variable {s : Store} {id : Id} {p : Poll}

theorem find?_setState_eq {next : State} (stored : s.find? id = some p) :
    (s.setState id next).find? = Table.put s.find? id { p with state := next } := by
  funext id'
  rw [find?_setState, stored, Table.put_apply]
  rfl

theorem serves (s : Store) (q : Request) : Table.Serves s.find? q (s.answer q).1 (s.answer q).2.find? := by
  cases q with
  | insert p =>
    simp only [answer, insert]
    split
    · next hfree =>
      have hput : (s.add p hfree).find? = Table.put s.find? p.id p := by
        funext id
        rw [find?_add, Table.put_apply]
      have hserves := Table.Serves.inserted (t := s.find?) (find?_eq_none_iff.mpr hfree)
      rw [← hput] at hserves
      exact hserves
    · next htaken =>
      cases hfind : s.find? p.id with
      | none => exact absurd (find?_eq_none_iff.mp hfind) htaken
      | some q => exact .taken hfind
  | get id =>
    simp only [answer, get]
    cases hfind : s.find? id with
    | none => exact .missing hfind
    | some p => exact .got hfind
  | all => exact .listed s.ascending fun id p => find?_eq_some_iff
  | update id expected next =>
    simp only [answer, update]
    cases hfind : s.find? id with
    | none => exact .lost hfind
    | some p =>
      by_cases hstate : p.state = expected
      · subst hstate
        simp only [if_true, settled, find?_setState_eq hfind]
        exact .updated hfind
      · simp only [hstate, if_false, settled]
        exact .moved hfind hstate
  | recordVote id voter =>
    simp only [answer, recordVote]
    cases hfind : s.find? id with
    | none => exact .unknown hfind
    | some p =>
      cases hstate : p.state with
      | scheduled =>
        simp only [hstate, settled]
        refine .shut hfind ?_
        intro round since votes hopened
        rw [hstate] at hopened
        cases hopened
      | closed time rounds =>
        simp only [hstate, settled]
        refine .shut hfind ?_
        intro round since votes hopened
        rw [hstate] at hopened
        cases hopened
      | opened round since votes =>
        by_cases hvoter : voter ∈ votes
        · simp only [hstate, hvoter, if_true, settled]
          exact .again hfind hstate hvoter
        · simp only [hstate, hvoter, if_false, settled, find?_setState_eq hfind]
          exact .voted hfind hstate hvoter

end Store

theorem Table.run_serve (s : Store) (qs : List Store.Request) :
    Run s.find? (s.serve qs).1 (s.serve qs).2.find? := by
  induction qs generalizing s with
  | nil => exact .nil
  | cons q qs ih => exact .cons (s.serves q) (ih (s.answer q).2)

namespace Store

variable {s : Store} {id : Id} {p : Poll}

theorem get_eq_ok_iff : s.get id = .ok p ↔ s.find? id = some p := by
  unfold get
  split
  · next q hfind => rw [hfind, Except.ok.injEq, Option.some.injEq]
  · next hfind =>
    rw [hfind]
    constructor <;> intro h <;> cases h

/-- No two polls of a store have the same number. -/
theorem nodup_ids (s : Store) : (s.polls.map (·.id)).Nodup := by
  rw [List.nodup_iff_pairwise_ne, List.pairwise_map]
  refine s.ascending.imp ?_
  intro p q hlt heq
  rw [heq] at hlt
  exact Nat.lt_irrefl _ hlt

theorem settled_refused {α : Type} {r : Except StoreError (Store × α)}
    (h : (!(s.settled r).1.toBool) = true) : (s.settled r).2 = s := by
  cases r with
  | error e => rfl
  | ok a => cases h

theorem answer_refused {q : Request} (h : q.isRefused (s.answer q).1 = true) : (s.answer q).2 = s := by
  cases q with
  | get id => rfl
  | all => rfl
  | insert p => exact settled_refused h
  | update id expected next => exact settled_refused h
  | recordVote id voter => exact settled_refused h

/-- What the table of the store is after a reply. -/
theorem serves_of_reply {q : Request} {reply : q.Reply} (h : (s.answer q).1 = reply) :
    ∃ t, (s.answer q).2.find? = t ∧ Table.Serves s.find? q reply t := by
  subst h
  exact ⟨_, rfl, s.serves q⟩

/-- An update succeeds if the poll is in the expected state as a whole, and not otherwise. -/
theorem update_succeeds_iff {expected next : State} :
    (∃ p, (s.answer (.update id expected next)).1 = .ok p) ↔ ∃ p, s.get id = .ok p ∧ p.state = expected := by
  simp only [get_eq_ok_iff]
  constructor
  · rintro ⟨p, hreply⟩
    obtain ⟨t, -, hserves⟩ := serves_of_reply hreply
    cases hserves with
    | updated stored => exact ⟨_, stored, rfl⟩
  · rintro ⟨p, hfind, rfl⟩
    refine ⟨{ p with state := next }, ?_⟩
    simp only [answer, update, hfind, if_true, settled]

/-- A successful update gives the poll as it is now stored. -/
theorem get_of_update {expected next : State} (h : (s.answer (.update id expected next)).1 = .ok p) :
    p.state = next ∧ (s.answer (.update id expected next)).2.get id = .ok p := by
  obtain ⟨t, ht, hserves⟩ := serves_of_reply h
  rw [get_eq_ok_iff, ht]
  cases hserves with
  | updated stored => exact ⟨rfl, (Table.put_apply id).trans (if_pos rfl)⟩

/-- A vote is accepted if the poll is open and the voter has not voted yet in this round, and not
otherwise. -/
theorem recordVote_succeeds_iff {voter : String} :
    (∃ round, (s.answer (.recordVote id voter)).1 = .ok round) ↔
      ∃ p round since votes, s.get id = .ok p ∧ p.state = .opened round since votes ∧ voter ∉ votes := by
  simp only [get_eq_ok_iff]
  constructor
  · rintro ⟨round, hreply⟩
    obtain ⟨t, -, hserves⟩ := serves_of_reply hreply
    cases hserves with
    | voted stored opened new => exact ⟨_, _, _, _, stored, opened, new⟩
  · rintro ⟨p, round, since, votes, hfind, hstate, hnew⟩
    refine ⟨round, ?_⟩
    simp only [answer, recordVote, hfind, hstate, hnew, if_false, settled]

/-- An accepted vote is added to the votes of the present round, and nothing else is changed. -/
theorem get_of_recordVote {voter : String} {round : UInt32}
    (h : (s.answer (.recordVote id voter)).1 = .ok round) :
    ∃ p since votes votes', s.get id = .ok p ∧ p.state = .opened round since votes ∧
      (s.answer (.recordVote id voter)).2.get id = .ok { p with state := .opened round since votes' } ∧
      ∀ name, name ∈ votes' ↔ name = voter ∨ name ∈ votes := by
  obtain ⟨t, ht, hserves⟩ := serves_of_reply h
  simp only [get_eq_ok_iff, ht]
  cases hserves with
  | @voted _ p _ _ since votes stored opened new =>
    refine ⟨p, since, votes, votes.insert voter, stored, opened, ?_, ?_⟩
    · exact (Table.put_apply id).trans (if_pos rfl)
    · intro name
      exact Voters.mem_insert

/-- `s` is what a table of polls is after the exchanges `xs`, and it will answer any further request as
this table. -/
structure ActsAsTable (xs : List (Exchange requests)) (s : Store) : Prop where
  /-- Every reply so far was that of a table. -/
  answered : Table.Run Table.empty xs s.find?
  own : ∀ {id p}, s.get id = .ok p → p.id = id
  once : (s.polls.map (·.id)).Nodup
  /-- The polls are listed in the order of their numbers, and these are the numbers inserted so far. -/
  all : ∃ l, s.answer .all = (.ok l, s) ∧ l.Pairwise (fun p q => p.id.number < q.id.number) ∧
    ∀ p, p ∈ l ↔ ∃ id ∈ inserted xs, s.get id = .ok p
  /-- Nothing that was inserted is lost. -/
  found : ∀ id ∈ inserted xs, ∃ p, s.get id = .ok p
  /-- Only states change, and only that of the poll that the request is about. -/
  others : ∀ q : Request, (∀ p, q ≠ .insert p) → ∀ id,
    (s.answer q).2.find? id = s.find? id ∨
      q.id? = some id ∧ ∃ p st, s.find? id = some p ∧ (s.answer q).2.find? id = some { p with state := st }
  update : ∀ {id expected next}, (∃ p, (s.answer (.update id expected next)).1 = .ok p) ↔
    ∃ p, s.get id = .ok p ∧ p.state = expected
  updated : ∀ {id expected next p}, (s.answer (.update id expected next)).1 = .ok p →
    p.state = next ∧ (s.answer (.update id expected next)).2.get id = .ok p
  vote : ∀ {id voter}, (∃ round, (s.answer (.recordVote id voter)).1 = .ok round) ↔
    ∃ p round since votes, s.get id = .ok p ∧ p.state = .opened round since votes ∧ voter ∉ votes
  voted : ∀ {id voter round}, (s.answer (.recordVote id voter)).1 = .ok round →
    ∃ p since votes votes', s.get id = .ok p ∧ p.state = .opened round since votes ∧
      (s.answer (.recordVote id voter)).2.get id = .ok { p with state := .opened round since votes' } ∧
      ∀ name, name ∈ votes' ↔ name = voter ∨ name ∈ votes
  refused : ∀ {q : Request}, q.isRefused (s.answer q).1 = true → (s.answer q).2 = s

/-- Whatever requests are made of an empty store, one after another, it acts as a table. -/
theorem acts_as_table (qs : List Request) : ActsAsTable (empty.serve qs).1 (empty.serve qs).2 := by
  have hrun : Table.Run Table.empty (empty.serve qs).1 (empty.serve qs).2.find? := Table.run_serve empty qs
  have hlisted := hrun.listed
  generalize (empty.serve qs).1 = xs, (empty.serve qs).2 = s at hrun hlisted
  have hinserted (id : Id) : id ∈ inserted xs ↔ ∃ p, s.get id = .ok p := by
    have hempty : ¬(Table.empty id).isSome = true := Bool.false_ne_true
    have hiff : (s.find? id).isSome ↔ id ∈ inserted xs := (hlisted id).trans (or_iff_right hempty)
    rw [← hiff, Option.isSome_iff_exists]
    simp only [get_eq_ok_iff]
  constructor
  · exact hrun
  · intro id p h
    exact find?_id (get_eq_ok_iff.mp h)
  · exact s.nodup_ids
  · refine ⟨s.polls, rfl, s.ascending, ?_⟩
    intro p
    constructor
    · intro hp
      have hget : s.get p.id = .ok p := get_eq_ok_iff.mpr (find?_of_mem hp)
      exact ⟨p.id, (hinserted p.id).mpr ⟨p, hget⟩, hget⟩
    · rintro ⟨id, -, hget⟩
      exact mem_of_find? (get_eq_ok_iff.mp hget)
  · exact fun id => (hinserted id).mp
  · exact fun q hq => (s.serves q).others hq
  · exact update_succeeds_iff
  · exact get_of_update
  · exact recordVote_succeeds_iff
  · exact get_of_recordVote
  · exact answer_refused

end Store

end Reveille.Poll
