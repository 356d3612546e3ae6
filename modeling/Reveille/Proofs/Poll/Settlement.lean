import Mathlib.Logic.Relation
import Reveille.Proofs.Poll.Owner
import Reveille.Proofs.Poll.Pool

/-!
# One instant, one outcome

The three services are called for one poll at one reading of the clock, in any order and as often as one
likes, and nobody else is at the store (`Calls`).  A call of a duty that is not due leaves store and bus
alone; one of a duty that is due carries out its move (`alone_process`).  As no two duties are due at once,
the next state is settled by the present one (`rightUnique_turns`), and every move brings the poll closer to
its end (`changesLeft_lt`).  So all orders lead to the same state, and after few changes
(`outcome_at_one_instant`).
-/

namespace Reveille.Poll

open Program Procedure Relation

variable {α β : Type}

/-- A procedure that has the store to itself at one reading of the clock: the requests with their replies,
the value, and what is left of the store. -/
inductive Procedure.Alone (now : Instant) :
    Procedure α → Store → List (Exchange requests) → α → Store → Prop
  | done {a : α} {s : Store} : Alone now (.done a) s [] a s
  | ask {q : Request} {rest : q.Reply → Procedure α} {s s' s'' : Store} {reply : q.Reply}
      {τ : List (Exchange requests)} {a : α} (answers : Answers now q s reply s')
      (after : Alone now (rest reply) s' τ a s'') : Alone now (.ask q rest) s (⟨q, reply⟩ :: τ) a s''

def handedOver (τ : List (Exchange requests)) : List Event :=
  τ.filterMap fun x => match x.request with
    | .publish e => some e
    | _ => none

variable {now : Instant} {s s' s'' : Store} {τ : List (Exchange requests)} {id : Id} {p : Poll}
  {d d' : Duty} {m : Move}

namespace Procedure.Alone

theorem of_bind {P : Procedure α} {f : α → Procedure β} {b : β} (h : Alone now (P.bind f) s τ b s'') :
    ∃ τ₁ τ₂ a s', τ = τ₁ ++ τ₂ ∧ Alone now P s τ₁ a s' ∧ Alone now (f a) s' τ₂ b s'' := by
  induction P generalizing s τ with
  | done a => exact ⟨[], τ, a, s, rfl, .done, h⟩
  | ask q rest ih =>
    cases h with
    | @ask _ _ _ _ _ reply _ _ answers after =>
      obtain ⟨τ₁, τ₂, a, s', rfl, hfirst, hrest⟩ := ih _ after
      exact ⟨⟨q, reply⟩ :: τ₁, τ₂, a, s', rfl, .ask answers hfirst, hrest⟩

theorem of_done {a a' : α} (h : Alone now (.done a) s τ a' s') : τ = [] ∧ a' = a ∧ s' = s := by
  cases h
  exact ⟨rfl, rfl, rfl⟩

theorem of_ask {q : Request} {rest : q.Reply → Procedure α} {a : α}
    (h : Alone now (.ask q rest) s τ a s'') :
    ∃ reply s' τ', τ = ⟨q, reply⟩ :: τ' ∧ Answers now q s reply s' ∧
      Alone now (rest reply) s' τ' a s'' := by
  cases h with
  | ask answers after => exact ⟨_, _, _, rfl, answers, after⟩

end Procedure.Alone

def Procedure.runAlone (now : Instant) : Procedure α → Store → List (Exchange requests) × α × Store
  | .done a, s => ([], a, s)
  | .ask q rest, s =>
    let x := Pool.reply ⟨s, now, []⟩ q
    let after := Procedure.runAlone now (rest x.1) x.2
    (⟨q, x.1⟩ :: after.1, after.2)

theorem alone_runAlone (P : Procedure α) (now : Instant) (s : Store) :
    P.Alone now s (P.runAlone now s).1 (P.runAlone now s).2.1 (P.runAlone now s).2.2 := by
  induction P generalizing s with
  | done a => exact .done
  | ask q rest ih => exact .ask (Pool.answers_reply ⟨s, now, []⟩ q) (ih _ _)

theorem handedOver_append {τ' : List (Exchange requests)} :
    handedOver (τ ++ τ') = handedOver τ ++ handedOver τ' := List.filterMap_append

/-! ### What a call does -/

theorem alone_loadDue {a : Except ServiceError (Option (Poll × Instant))}
    (stored : s.find? id = some p) (h : (d.loadDue id).Alone now s τ a s') :
    handedOver τ = [] ∧ s' = s ∧
      a = .ok (if (d.due p now).isDue now then some (p, now) else none) := by
  obtain ⟨reply, s₁, τ₁, rfl, hget, loaded⟩ := Alone.of_ask h
  obtain ⟨rfl, ⟨p', hp', rfl⟩ | ⟨hnone, -⟩⟩ := Store.answer_get hget
  · obtain rfl := Option.some.inj (hp'.symm.trans stored)
    obtain ⟨reading, s₂, τ₂, rfl, ⟨rfl, rfl⟩, read⟩ := Alone.of_ask loaded
    obtain ⟨rfl, rfl, rfl⟩ := Alone.of_done read
    exact ⟨rfl, rfl, rfl⟩
  · rw [stored] at hnone
    cases hnone

theorem alone_replace {a : Except ServiceError Bool} {next : State} (stored : s.find? p.id = some p)
    (h : (Duty.replace p next).Alone now s τ a s') :
    handedOver τ = [] ∧ s' = s.setState p.id next ∧ a = .ok true := by
  obtain ⟨reply, s₁, τ₁, rfl, hupdate, replaced⟩ := Alone.of_ask h
  have hdone : s.answer (.update p.id p.state next) =
      (.ok { p with state := next }, s.setState p.id next) := by
    simp only [Store.answer, Store.update, stored, if_pos, Store.settled]
  obtain ⟨rfl, rfl⟩ := Prod.mk.inj (hdone.symm.trans hupdate)
  obtain ⟨rfl, rfl, rfl⟩ := Alone.of_done replaced
  exact ⟨rfl, rfl, rfl⟩

theorem alone_announce {e : Event} {a : Unit} (h : (Duty.announce e).Alone now s τ a s') :
    handedOver τ = [e] ∧ s' = s := by
  obtain ⟨reply, s₁, τ₁, rfl, rfl, published⟩ := Alone.of_ask h
  cases reply with
  | ok sent =>
    obtain ⟨rfl, -, rfl⟩ := Alone.of_done published
    exact ⟨rfl, rfl⟩
  | error cause =>
    obtain ⟨_, s₂, τ₂, rfl, rfl, logged⟩ := Alone.of_ask published
    obtain ⟨rfl, -, rfl⟩ := Alone.of_done logged
    exact ⟨rfl, rfl⟩

theorem alone_carryOut {a : Except ServiceError Processed} (stored : s.find? p.id = some p)
    (h : (Duty.carryOut p m).Alone now s τ a s') :
    handedOver τ = [m.event] ∧ s' = s.setState p.id m.next ∧ a = .ok m.outcome := by
  obtain ⟨τ₁, τ₂, done, s₁, rfl, hreplace, replaced⟩ := Alone.of_bind h
  obtain ⟨hquiet, rfl, rfl⟩ := alone_replace stored hreplace
  obtain ⟨_, s₂, τ₃, rfl, rfl, logged⟩ := Alone.of_ask replaced
  obtain ⟨τ₄, τ₅, _, s₃, rfl, hannounce, announced⟩ := Alone.of_bind (P := Duty.announce m.event) logged
  obtain ⟨hevent, rfl⟩ := alone_announce hannounce
  obtain ⟨rfl, rfl, rfl⟩ := Alone.of_done announced
  refine ⟨?_, rfl, rfl⟩
  rw [handedOver_append, hquiet, List.append_nil]
  exact hevent

theorem exists_move_of_isDue (due : (d.due p now).isDue now = true) :
    ∃ m, d.move? p now = some m := by
  cases d with
  | start => exact ⟨_, rfl⟩
  | advance =>
    obtain ⟨round, since, votes, hst⟩ := exists_opened_of_isDue (by decide) due
    exact ⟨_, by rw [Duty.move?, hst]; rfl⟩
  | close =>
    obtain ⟨round, since, votes, hst⟩ := exists_opened_of_isDue (by decide) due
    exact ⟨_, by rw [Duty.move?, hst]; rfl⟩

/-- A duty that is not due leaves store and bus alone, and one that is due carries out its move. -/
theorem alone_process {a : Except ServiceError Processed} (stored : s.find? id = some p)
    (h : (d.process id).Alone now s τ a s') :
    ((d.due p now).isDue now = false ∧ handedOver τ = [] ∧ s' = s ∧ a = .ok .nothingToDoYet) ∨
    ∃ m, (d.due p now).isDue now = true ∧ d.move? p now = some m ∧ handedOver τ = [m.event] ∧
      s' = s.setState id m.next ∧ a = .ok m.outcome := by
  obtain ⟨τ₁, τ₂, loaded, s₁, rfl, hload, found⟩ := Alone.of_bind h
  obtain ⟨hquiet, rfl, rfl⟩ := alone_loadDue stored hload
  rw [handedOver_append, hquiet, List.nil_append]
  cases hdue : (d.due p now).isDue now with
  | false =>
    rw [hdue] at found
    obtain ⟨rfl, rfl, rfl⟩ := Alone.of_done found
    exact Or.inl ⟨rfl, rfl, rfl, rfl⟩
  | true =>
    rw [hdue, if_pos rfl] at found
    obtain ⟨m, hm⟩ := exists_move_of_isDue hdue
    dsimp only at found
    rw [hm] at found
    obtain rfl := Store.find?_id stored
    obtain ⟨hevent, rfl, rfl⟩ := alone_carryOut stored found
    exact Or.inr ⟨m, rfl, hm, hevent, rfl, rfl⟩

theorem outcome_of_move (move : d.move? p now = some m) : m.outcome ≠ .nothingToDoYet := by
  cases d with
  | start =>
    cases move
    exact nofun
  | advance =>
    obtain ⟨round, -, rfl⟩ := Option.map_eq_some_iff.mp move
    exact nofun
  | close =>
    obtain ⟨round, -, rfl⟩ := Option.map_eq_some_iff.mp move
    exact nofun

/-! ### One duty at a time -/

theorem eq_of_isDue (h : (d.due p now).isDue now = true) (h' : (d'.due p now).isDue now = true) :
    d = d' := by
  by_cases hopen : ∃ round since votes, p.state = .opened round since votes
  · obtain ⟨round, since, votes, hst⟩ := hopen
    have hsome : (p.advanceDue now).isDue now = true ∨ (p.closeDue now).isDue now = true := by
      cases d with
      | start =>
        rw [Duty.due, startDue_opened hst] at h
        cases h
      | advance => exact Or.inl h
      | close => exact Or.inr h
    exact (existsUnique_isDue hst hsome).unique h h'
  · have only {d : Duty} (h : (d.due p now).isDue now = true) : d = .start := by
      by_contra hne
      exact hopen (exists_opened_of_isDue hne h)
    rw [only h, only h']

/-- A stored poll is moved by the duty that is due. -/
def Turns (now : Instant) (id : Id) (s s' : Store) : Prop :=
  ∃ (p : Poll) (d : Duty) (m : Move), s.find? id = some p ∧ (d.due p now).isDue now = true ∧
    d.move? p now = some m ∧ s' = s.setState id m.next

def AtRest (now : Instant) (id : Id) (s : Store) : Prop :=
  ∀ p, s.find? id = some p → ∀ d : Duty, (d.due p now).isDue now = false

theorem rightUnique_turns : Relator.RightUnique (Turns now id) := by
  rintro s s₁ s₂ ⟨p, d, m, stored, due, move, rfl⟩ ⟨p', d', m', stored', due', move', rfl⟩
  obtain rfl := Option.some.inj (stored.symm.trans stored')
  obtain rfl := eq_of_isDue due due'
  obtain rfl := Option.some.inj (move.symm.trans move')
  rfl

theorem AtRest.not_turns (h : AtRest now id s) : ¬ Turns now id s s' := by
  rintro ⟨p, d, m, stored, due, -, -⟩
  exact Bool.false_ne_true ((h p stored d).symm.trans due)

/-- All ways to a state where nothing is due lead to the same one. -/
theorem AtRest.unique {s₁ s₂ : Store} (h₁ : AtRest now id s₁) (h₂ : AtRest now id s₂)
    (path₁ : ReflTransGen (Turns now id) s s₁) (path₂ : ReflTransGen (Turns now id) s s₂) :
    s₁ = s₂ := by
  have stays {s s' : Store} (h : AtRest now id s) (path : ReflTransGen (Turns now id) s s') :
      s = s' := by
    cases path using ReflTransGen.head_induction_on with
    | refl => rfl
    | head turn _ => exact absurd turn h.not_turns
  rcases ReflTransGen.total_of_right_unique rightUnique_turns path₁ path₂ with path | path
  · exact stays h₁ path
  · exact (stays h₂ path).symm

/-- How many changes a poll has before it at most, without more votes. -/
def State.changesLeft (most : UInt32) : State → Nat
  | .scheduled => most.toNat + 2
  | .opened round _ _ => most.toNat - round.toNat + 1
  | .closed _ _ => 0

theorem changesLeft_le {most : UInt32} (st : State) : st.changesLeft most ≤ most.toNat + 2 := by
  cases st <;> simp only [State.changesLeft] <;> omega

theorem changesLeft_lt (due : (d.due p now).isDue now = true) (move : d.move? p now = some m) :
    m.next.changesLeft p.maxRounds < p.state.changesLeft p.maxRounds := by
  rcases d.move_cases due move with ⟨hst, -, hm⟩ | ⟨round, since, votes, hst, ⟨hmore, -, hm⟩ | ⟨-, hm⟩⟩
  · rw [hst, hm]
    exact Nat.lt_succ_of_le (Nat.succ_le_succ (Nat.sub_le _ _))
  · have hlt := UInt32.lt_iff_toNat_lt.mp hmore
    rw [hst, hm]
    simp only [State.fresh, State.changesLeft, toNat_succ hmore]
    omega
  · rw [hst, hm]
    exact Nat.succ_pos _

theorem find?_turned (stored : s.find? id = some p) (next : State) :
    (s.setState id next).find? id = some { p with state := next } := by
  rw [Store.find?_setState, if_pos rfl, stored]
  rfl

/-! ### Calls one after another -/

structure Call where
  duty : Duty
  found : Store
  left : Store
  result : Except ServiceError Processed
  published : List Event

def Call.changes (id : Id) (c : Call) : Bool := decide (c.left.find? id ≠ c.found.find? id)

/-- Calls for one poll, all of them at one reading of the clock and with nobody else at the store. -/
inductive Calls (now : Instant) (id : Id) : Store → List Call → Store → Prop
  | nil {s : Store} : Calls now id s [] s
  | cons {s s' s'' : Store} {d : Duty} {τ : List (Exchange requests)}
      {result : Except ServiceError Processed} {cs : List Call}
      (call : (d.process id).Alone now s τ result s') (rest : Calls now id s' cs s'') :
      Calls now id s (⟨d, s, s', result, handedOver τ⟩ :: cs) s''

variable {cs : List Call}

theorem Calls.path (h : Calls now id s cs s') (stored : s.find? id = some p) :
    ReflTransGen (Turns now id) s s' := by
  induction h generalizing p with
  | nil => exact .refl
  | cons call rest ih =>
    rcases alone_process stored call with ⟨-, -, rfl, -⟩ | ⟨m, due, move, -, rfl, -⟩
    · exact ih stored
    · exact .head ⟨p, _, m, stored, due, move, rfl⟩ (ih (find?_turned stored m.next))

theorem Calls.changes_le (h : Calls now id s cs s') (stored : s.find? id = some p) :
    cs.countP (·.changes id) ≤ p.state.changesLeft p.maxRounds := by
  induction h generalizing p with
  | nil => exact Nat.zero_le _
  | cons call rest ih =>
    rw [List.countP_cons]
    rcases alone_process stored call with ⟨-, -, rfl, -⟩ | ⟨m, due, move, -, rfl, -⟩
    · rw [if_neg (by simp [Call.changes])]
      exact ih stored
    · have hrest := ih (find?_turned stored m.next)
      have hlt : m.next.changesLeft p.maxRounds < _ := changesLeft_lt due move
      split
      · exact (Nat.succ_le_succ hrest).trans hlt
      · exact hrest.trans hlt.le

/-- From every stored poll calls lead to a state where nothing is due. -/
theorem exists_atRest (now : Instant) (stored : s.find? id = some p) :
    ∃ cs final, Calls now id s cs final ∧ AtRest now id final := by
  generalize hn : p.state.changesLeft p.maxRounds = n
  induction n using Nat.strongRecOn generalizing s p with
  | ind n ih =>
    by_cases hdue : ∃ d : Duty, (d.due p now).isDue now = true
    · obtain ⟨d, hd⟩ := hdue
      have call := alone_runAlone (d.process id) now s
      rcases alone_process stored call with ⟨hnot, -⟩ | ⟨m, -, move, -, hs, -⟩
      · exact absurd (hnot.symm.trans hd) Bool.false_ne_true
      · obtain ⟨cs, final, hcalls, hfinal⟩ :=
          ih _ (hn ▸ changesLeft_lt hd move) (hs ▸ find?_turned stored m.next) rfl
        exact ⟨_, final, .cons call hcalls, hfinal⟩
    · refine ⟨[], s, .nil, fun q hq d => ?_⟩
      obtain rfl := Option.some.inj (stored.symm.trans hq)
      exact Bool.eq_false_iff.mpr fun hd => hdue ⟨d, hd⟩

/-- A call to which there was nothing to do left the store and the bus alone. -/
theorem Calls.idle (h : Calls now id s cs s') (stored : s.find? id = some p) :
    ∀ c ∈ cs, c.result = .ok .nothingToDoYet → c.left = c.found ∧ c.published = [] := by
  induction h generalizing p with
  | nil => exact List.forall_mem_nil _
  | @cons s _ _ d _ _ _ call rest ih =>
    rcases alone_process stored call with ⟨-, hquiet, rfl, -⟩ | ⟨m, due, move, -, rfl, rfl⟩
    · exact List.forall_mem_cons.mpr ⟨fun _ => ⟨rfl, hquiet⟩, ih stored⟩
    · refine List.forall_mem_cons.mpr ⟨fun hnothing => ?_, ih (find?_turned stored m.next)⟩
      exact absurd (Except.ok.inj hnothing) (outcome_of_move move)

/-! ### Rounds that last -/

theorem not_isDue_of_isClosed (h : p.state.isClosed = true) (d : Duty) :
    (d.due p now).isDue now = false := by
  refine Bool.eq_false_iff.mpr fun hdue => ?_
  by_cases hd : d = .start
  · subst hd
    rw [(isDue_startDue.mp hdue).1] at h
    cases h
  · obtain ⟨round, since, votes, hst⟩ := exists_opened_of_isDue hd hdue
    rw [hst] at h
    cases h

/-- A duty that has nothing more to do at a time, unless rounds end as soon as they begin. -/
def Duty.Spent (now : Instant) : Duty → State → Prop
  | .start, st => st ≠ .scheduled
  | .advance, st => (∃ round, st = .fresh round now) ∨ st.isClosed = true
  | .close, st => st.isClosed = true

theorem Duty.Spent.not_isDue (h : d.Spent now p.state) (lasting : 0 < p.roundDuration.nanos) :
    (d.due p now).isDue now = false := by
  cases d with
  | start => exact Bool.eq_false_iff.mpr fun hdue => h (isDue_startDue.mp hdue).1
  | advance =>
    rcases h with ⟨round', hfresh⟩ | hclosed
    · refine Bool.eq_false_iff.mpr fun hdue => ?_
      have hover := ((isDue_advanceDue hfresh).mp hdue).2.2
      rw [roundOver_fresh hfresh lasting] at hover
      cases hover
    · exact not_isDue_of_isClosed hclosed .advance
  | close => exact not_isDue_of_isClosed h .close

/-- Whoever moves a poll, it has started and its round is new or its last. -/
theorem spent_of_move (due : (d'.due p now).isDue now = true) (move : d'.move? p now = some m)
    (h : d = d' ∨ d.Spent now p.state) : d.Spent now m.next := by
  have hcases := d'.move_cases due move
  cases d with
  | start =>
    rcases hcases with ⟨-, -, hm⟩ | ⟨round, since, votes, -, ⟨-, -, hm⟩ | ⟨-, hm⟩⟩
    all_goals
      rw [hm]
      exact nofun
  | advance =>
    rcases hcases with ⟨-, -, hm⟩ | ⟨round, since, votes, -, ⟨-, -, hm⟩ | ⟨-, hm⟩⟩
    · exact Or.inl ⟨_, hm⟩
    · exact Or.inl ⟨_, hm⟩
    · exact Or.inr (hm ▸ rfl)
  | close =>
    rcases h with rfl | hclosed
    · obtain ⟨round, -, rfl⟩ := Option.map_eq_some_iff.mp move
      rfl
    · exact absurd ((not_isDue_of_isClosed hclosed d').symm.trans due) Bool.false_ne_true

theorem Calls.not_changes_of_spent (h : Calls now id s cs s') (stored : s.find? id = some p)
    (lasting : 0 < p.roundDuration.nanos) (spent : d.Spent now p.state) :
    ∀ c ∈ cs, c.duty = d → c.changes id = false := by
  induction h generalizing p with
  | nil => exact List.forall_mem_nil _
  | @cons s _ _ d' _ _ _ call rest ih =>
    rcases alone_process stored call with ⟨-, -, rfl, -⟩ | ⟨m, due, move, -, rfl, -⟩
    · exact List.forall_mem_cons.mpr ⟨fun _ => by simp [Call.changes], ih stored lasting spent⟩
    · refine List.forall_mem_cons.mpr ⟨fun hd => ?_, ih (find?_turned stored m.next) lasting ?_⟩
      · obtain rfl : d' = d := hd
        exact absurd ((spent.not_isDue lasting).symm.trans due) Bool.false_ne_true
      · exact spent_of_move due move (Or.inr spent)

theorem Calls.changes_once (h : Calls now id s cs s') (stored : s.find? id = some p)
    (lasting : 0 < p.roundDuration.nanos) (d : Duty) :
    cs.countP (fun c => decide (c.duty = d) && c.changes id) ≤ 1 := by
  induction h generalizing p with
  | nil => exact Nat.zero_le _
  | @cons s _ _ d' _ _ _ call rest ih =>
    rw [List.countP_cons]
    rcases alone_process stored call with ⟨-, -, rfl, -⟩ | ⟨m, due, move, -, rfl, -⟩
    · rw [if_neg (by simp [Call.changes])]
      exact ih stored lasting
    · have hrest := find?_turned stored m.next
      by_cases hd : d' = d
      · have hnone := rest.not_changes_of_spent hrest lasting (spent_of_move due move (Or.inl rfl))
        rw [List.countP_eq_zero.mpr]
        · split <;> omega
        · intro c hc
          rw [Bool.and_eq_true, decide_eq_true_eq]
          rintro ⟨hduty, hchanges⟩
          exact Bool.false_ne_true ((hnone c hc (hduty.trans hd.symm)).symm.trans hchanges)
      · rw [if_neg (by simp [hd])]
        exact ih hrest lasting

/-- Whatever the parameters of a stored poll and its state are: at one reading of the clock, and without
more votes, it changes at most two times more than it has rounds, however its services are called.  There
is one state in which all calls end that go on until nothing is due.  A call with nothing to do leaves the
store and the bus as they are, and if rounds last at all, no service changes the poll twice. -/
theorem outcome_at_one_instant (now : Instant) (stored : s.find? id = some p) :
    (∀ cs s', Calls now id s cs s' → cs.countP (·.changes id) ≤ p.maxRounds.toNat + 2) ∧
    (∃ final, AtRest now id final ∧ (∃ cs, Calls now id s cs final) ∧
      ∀ cs s', Calls now id s cs s' → AtRest now id s' → s' = final) ∧
    (∀ cs s', Calls now id s cs s' →
      ∀ c ∈ cs, c.result = .ok .nothingToDoYet → c.left = c.found ∧ c.published = []) ∧
    (0 < p.roundDuration.nanos → ∀ cs s', Calls now id s cs s' →
      ∀ d, cs.countP (fun c => decide (c.duty = d) && c.changes id) ≤ 1) := by
  refine ⟨fun cs s' h => (h.changes_le stored).trans (changesLeft_le p.state), ?_,
    fun cs s' h => h.idle stored, fun lasting cs s' h => h.changes_once stored lasting⟩
  obtain ⟨cs, final, hcalls, hfinal⟩ := exists_atRest now stored
  refine ⟨final, hfinal, ⟨cs, hcalls⟩, fun cs' s' h hrest => ?_⟩
  exact hrest.unique hfinal (h.path stored) (hcalls.path stored)

/-! ### Rounds that do not last -/

def callAll (now : Instant) (id : Id) : List Duty → Store → List Call × Store
  | [], s => ([], s)
  | d :: ds, s =>
    let x := (d.process id).runAlone now s
    let rest := callAll now id ds x.2.2
    (⟨d, s, x.2.2, x.2.1, handedOver x.1⟩ :: rest.1, rest.2)

theorem calls_callAll (ds : List Duty) :
    Calls now id s (callAll now id ds s).1 (callAll now id ds s).2 := by
  induction ds generalizing s with
  | nil => exact .nil
  | cons d ds ih => exact .cons (alone_runAlone (d.process id) now s) ih

/-- A store with one poll of two rounds, which are over as soon as they begin. -/
def blink : Store :=
  ⟨[((Poll.create ⟨1⟩ "blink" .epoch).withRoundDuration .zero).withRounds 1 2],
    List.pairwise_singleton _ _⟩

theorem atRest_blink {ds : List Duty}
    (h : (callAll .epoch ⟨1⟩ ds blink).2.polls.all fun p => p.state.isClosed) :
    AtRest .epoch ⟨1⟩ (callAll .epoch ⟨1⟩ ds blink).2 :=
  fun p hp d => not_isDue_of_isClosed (List.all_eq_true.mp h p (Store.mem_of_find? hp)) d

/-- It starts, advances and closes at one instant, in whatever order the services are called.  With rounds
that last it starts once. -/
theorem outcome_at_one_instant_blink :
    (callAll .epoch ⟨1⟩ [.start, .advance, .close] blink).1.countP (·.changes ⟨1⟩) = 3 ∧
    (callAll .epoch ⟨1⟩ [.start, .advance, .close] blink).1.countP (·.changes ⟨1⟩) ≤ 2 + 2 ∧
    (callAll .epoch ⟨1⟩ [.start, .advance, .close] blink).2 =
      (callAll .epoch ⟨1⟩ [.close, .advance, .start, .close, .advance, .close] blink).2 ∧
    (callAll .epoch ⟨1⟩ [.start, .close, .start] Pool.morning.store).1.countP
      (fun c => decide (c.duty = .start) && c.changes ⟨1⟩) ≤ 1 := by
  have stored : blink.find? ⟨1⟩ = some _ := rfl
  have lasting : Pool.morning.store.find? ⟨1⟩ = some Pool.lunch := rfl
  obtain ⟨hbound, ⟨final, -, -, hfinal⟩, -⟩ := outcome_at_one_instant .epoch stored
  have ends (ds : List Duty)
      (h : (callAll .epoch ⟨1⟩ ds blink).2.polls.all fun p => p.state.isClosed) :
      (callAll .epoch ⟨1⟩ ds blink).2 = final := hfinal _ _ (calls_callAll ds) (atRest_blink h)
  refine ⟨by decide +kernel, hbound _ _ (calls_callAll _), ?_,
    (outcome_at_one_instant .epoch lasting).2.2.2 (by decide) _ _ (calls_callAll _) .start⟩
  exact (ends [.start, .advance, .close] (by decide +kernel)).trans
    (ends [.close, .advance, .start, .close, .advance, .close] (by decide +kernel)).symm

end Reveille.Poll
