import Reveille.Proofs.Poll.Owner
import Reveille.Proofs.Poll.Trace
import Reveille.Proofs.Runner.Ledger

/-!
# Events reach whom they concern

Which events a service listens to is a table (`Duty.listensTo`), and when a poll is due is a rule.  The two
agree: whenever a change moves a due time to an earlier one, the service of that duty hears of the event
that announces the change, or it has made the change itself and says `advanced`, after which its runner
asks for the due time anew (`Step.routed`).

A service that says instead until when there is nothing to do for it is right for good, whatever happens to
the poll (`Run.finished`).
-/

namespace Reveille.Poll

open Program Procedure

variable {d d' : Duty} {id : Id} {p : Poll} {m : Move} {t now : Instant} {e : Event}

/-- When a poll is due for a duty; one that is not there is never due. -/
def Store.dueAt (s : Store) (d : Duty) (id : Id) (now : Instant) : DueTime :=
  (s.find? id).elim .never (d.due · now)

/-- The service of a duty listens to an event, and then names this poll. -/
def Duty.Hears (d : Duty) (e : Event) (id : Id) : Prop :=
  d.listensTo e = true ∧ ∀ reply, (d.receive e).eval reply = [id]

theorem Duty.hears (h : d.listensTo e = true) : d.Hears e e.poll := by
  refine ⟨h, fun reply => ?_⟩
  cases d with
  | start => rfl
  | advance => rfl
  | close => rfl

/-! ### Due times and the table -/

theorem due_of_not_opened (hd : d ≠ .start) (h : p.state.round? = none) : d.due p now = .never := by
  cases d with
  | start => exact absurd rfl hd
  | advance => rw [Duty.due, advanceDue, h]
  | close => rw [Duty.due, closeDue, h]

def Duty.Finished : Duty → State → Prop
  | .start, st => st ≠ .scheduled
  | .advance, _ => False
  | .close, st => st.isClosed = true

theorem Duty.Finished.due (h : d.Finished p.state) : d.due p now = .never := by
  cases d with
  | start =>
    rw [Duty.due, startDue]
    split
    · next hst => exact absurd hst h
    · rfl
  | advance => exact False.elim h
  | close =>
    refine due_of_not_opened (by decide) ?_
    cases hst : p.state with
    | closed time rounds => rfl
    | scheduled => rw [hst] at h; cases h
    | opened round since votes => rw [hst] at h; cases h

theorem listensTo_of_inserted (scheduled : p.state = .scheduled) (h : d.due p now ≠ .never) :
    d.listensTo (.created id) = true := by
  by_cases hd : d = .start
  · rw [hd]
    rfl
  · exact absurd (due_of_not_opened hd (by rw [scheduled]; rfl)) h

theorem listensTo_of_voted {round : UInt32} {since : Instant} {votes : Voters} {voter : String}
    (opened : p.state = .opened round since votes) (h : d.due p now ≠ .never) :
    d.listensTo (.voteCast id round voter) = true := by
  cases d with
  | start => exact absurd (startDue_opened opened) h
  | advance => rfl
  | close => rfl

/-- A service that does not listen to a move has no due time after it, or it has made the move itself. -/
theorem listensTo_of_moved (move : d'.move? p t = some m) {q : Poll} (hq : q.state = m.next)
    (h : d.due q now ≠ .never) : d.listensTo m.event = true ∨ d = d' ∧ m.outcome = .advanced := by
  have hstart : m.next ≠ .scheduled → d = .start → False := by
    rintro hnext rfl
    exact h (Duty.Finished.due (d := .start) (hq ▸ hnext))
  cases d' with
  | start =>
    cases move
    cases d with
    | start => exact (hstart nofun rfl).elim
    | advance => exact Or.inl rfl
    | close => exact Or.inl rfl
  | advance =>
    obtain ⟨round, -, rfl⟩ := Option.map_eq_some_iff.mp move
    cases d with
    | start => exact (hstart nofun rfl).elim
    | advance => exact Or.inr ⟨rfl, rfl⟩
    | close => exact Or.inl rfl
  | close =>
    obtain ⟨round, -, rfl⟩ := Option.map_eq_some_iff.mp move
    cases d with
    | start => exact (hstart nofun rfl).elim
    | advance => exact absurd (due_of_not_opened (by decide) (by rw [hq]; rfl)) h
    | close => exact absurd (due_of_not_opened (by decide) (by rw [hq]; rfl)) h

theorem poll_of_move (move : d.move? p t = some m) : m.event.poll = p.id := by
  cases d with
  | start =>
    cases move
    rfl
  | advance =>
    obtain ⟨round, -, rfl⟩ := Option.map_eq_some_iff.mp move
    rfl
  | close =>
    obtain ⟨round, -, rfl⟩ := Option.map_eq_some_iff.mp move
    rfl

/-- A service that says until when there is nothing to do for it is through with the poll. -/
theorem finished_of_move (move : d.move? p t = some m) {due : DueTime}
    (h : m.outcome = .advancedUntil due) : due = .never ∧ d.Finished m.next := by
  cases d with
  | start =>
    cases move
    cases h
    exact ⟨rfl, nofun⟩
  | advance =>
    obtain ⟨round, -, rfl⟩ := Option.map_eq_some_iff.mp move
    cases h
  | close =>
    obtain ⟨round, -, rfl⟩ := Option.map_eq_some_iff.mp move
    cases h
    exact ⟨rfl, rfl⟩

/-- No move undoes that a duty is through with a poll. -/
theorem Duty.Finished.move (h : d.Finished p.state) (due : (d'.due p t).isDue t = true)
    (move : d'.move? p t = some m) : d.Finished m.next := by
  cases d with
  | start =>
    rcases d'.move_cases due move with ⟨-, -, hm⟩ | ⟨round, since, votes, -, ⟨-, -, hm⟩ | ⟨-, hm⟩⟩
    all_goals
      rw [hm]
      exact nofun
  | advance => exact False.elim h
  | close =>
    -- nobody is due for a closed poll
    rcases d'.move_cases due move with ⟨hst, -⟩ | ⟨round, since, votes, hst, -⟩
    all_goals
      rw [hst] at h
      cases h

theorem Duty.Finished.vote {round : UInt32} {since : Instant} {votes votes' : Voters}
    (h : d.Finished (.opened round since votes)) : d.Finished (.opened round since votes') := by
  cases d with
  | start => exact nofun
  | advance => exact False.elim h
  | close => cases h

def Store.FinishedAt (s : Store) (d : Duty) (id : Id) : Prop :=
  ∃ p, s.find? id = some p ∧ d.Finished p.state

namespace Store.FinishedAt

variable {s s' : Store}

/-- To replace the state of a poll by another one with which the duty is through does no harm. -/
theorem replaced {poll : Id} {st : State} (h : s.FinishedAt d id) (stored : s.find? poll = some p)
    (hs : ∀ id, s'.find? id = if id = poll then some { p with state := st } else s.find? id)
    (keeps : d.Finished p.state → d.Finished st) : s'.FinishedAt d id := by
  obtain ⟨q, hq, hfinished⟩ := h
  by_cases hid : id = poll
  · subst hid
    obtain rfl := Option.some.inj (stored.symm.trans hq)
    exact ⟨{ p with state := st }, by rw [hs, if_pos rfl], keeps hfinished⟩
  · exact ⟨q, by rw [hs, if_neg hid, hq], hfinished⟩

theorem insert {reply : Except StoreError Unit} (h : s.FinishedAt d id)
    (answers : s.answer (.insert p) = (reply, s')) : s'.FinishedAt d id := by
  obtain ⟨hfree, -, hs⟩ | ⟨-, -, rfl⟩ := answer_insert answers
  · obtain ⟨q, hq, hfinished⟩ := h
    have hne : id ≠ p.id := by
      intro hid
      rw [hid, hfree] at hq
      cases hq
    exact ⟨q, by rw [hs, if_neg hne, hq], hfinished⟩
  · exact h

theorem recordVote {poll : Id} {voter : String} {reply : Except StoreError UInt32}
    (h : s.FinishedAt d id) (answers : s.answer (.recordVote poll voter) = (reply, s')) :
    s'.FinishedAt d id := by
  obtain ⟨p, round, since, votes, stored, opened, -, -, hs⟩ | ⟨-, rfl⟩ := answer_recordVote answers
  · refine h.replaced stored hs fun hfinished => ?_
    rw [opened] at hfinished
    exact hfinished.vote
  · exact h

theorem move {q : Poll} {reply : Except StoreError Poll} (h : s.FinishedAt d id)
    (due : (d'.due q t).isDue t = true) (move : d'.move? q t = some m)
    (answers : s.answer (.update q.id q.state m.next) = (reply, s')) : s'.FinishedAt d id := by
  obtain ⟨p, stored, hst, -, hs⟩ | ⟨-, -, rfl⟩ | ⟨-, -, rfl⟩ := answer_update answers
  · refine h.replaced stored hs fun hfinished => ?_
    rw [hst] at hfinished
    exact hfinished.move due move
  · exact h
  · exact h

end Store.FinishedAt

/-! ### Steps of a pool -/

namespace Pool

variable {P Q P₀ : Pool} {a : Label} {τ σ : List Label}

theorem Step.finishedAt (h : Step P a Q) (traced : ∀ th ∈ P.threads, Traced th)
    (hfin : P.store.FinishedAt d id) : Q.store.FinishedAt d id := by
  cases h with
  | begin op => exact hfin
  | pass h => exact hfin
  | @ask i op past q rest reply s thread answers =>
    show s.FinishedAt d id
    by_cases hidle : q.Idle
    · rw [hidle.same answers]
      exact hfin
    cases (traced _ (List.mem_of_getElem? thread)).changing hidle with
    | create sends => exact hfin.insert answers
    | vote sends => exact hfin.recordVote answers
    | unannounced => exact hfin.recordVote answers
    | move due move sends ends => exact hfin.move due move answers

theorem Run.finishedAt (h : Run P τ Q) (traced : ∀ th ∈ P.threads, Traced th)
    (hfin : P.store.FinishedAt d id) : Q.store.FinishedAt d id := by
  induction h with
  | refl => exact hfin
  | step before h ih => exact h.finishedAt (before.traced traced) ih

/-- Whoever replaced the state of a poll by one with which a duty is through, it is through with it. -/
def Kept (P : Pool) : Prop :=
  ∀ th ∈ P.threads, ∀ id expected next q d,
    ⟨.store (.update id expected next), .ok q⟩ ∈ th.past → d.Finished next → P.store.FinishedAt d id

theorem Step.kept (h : Step P a Q) (traced : ∀ th ∈ P.threads, Traced th) (kept : Kept P) :
    Kept Q := by
  intro th hth id expected next q' d hx hfinished
  have old {th : Thread} (hth : th ∈ P.threads)
      (hx : ⟨.store (.update id expected next), .ok q'⟩ ∈ th.past) : Q.store.FinishedAt d id :=
    h.finishedAt traced (kept th hth id expected next q' d hx hfinished)
  cases h with
  | begin op =>
    rcases List.mem_append.mp hth with hth | hth
    · exact old hth hx
    · rw [List.mem_singleton.mp hth] at hx
      cases hx
  | pass h => exact old hth hx
  | ask thread answers =>
    rcases List.mem_or_eq_of_mem_set hth with hth | rfl
    · exact old hth hx
    · rcases List.mem_append.mp hx with hx | hx
      · exact old (List.mem_of_getElem? thread) hx
      · cases List.mem_singleton.mp hx
        obtain ⟨p, stored, -, -, hs⟩ | ⟨-, hr, -⟩ | ⟨-, hr, -⟩ := Store.answer_update answers
        · exact ⟨{ p with state := next }, by rw [hs, if_pos rfl], hfinished⟩
        · cases hr
        · cases hr

theorem Run.kept (h : Run P τ Q) (threads : P.threads = []) : Kept Q := by
  have traced : ∀ th ∈ P.threads, Traced th := by
    rw [threads]
    exact List.forall_mem_nil _
  induction h with
  | refl =>
    intro th hth
    rw [threads] at hth
    cases hth
  | step before h ih => exact h.kept (before.traced traced) ih

/-- The threads from a number on have found a poll only in states with which a duty is through. -/
def LoadFinished (P : Pool) (n : Nat) (d : Duty) (id : Id) : Prop :=
  ∀ j th, n ≤ j → P.threads[j]? = some th →
    ∀ reply, ⟨.store (.get id), reply⟩ ∈ th.past → ∃ p, reply = .ok p ∧ d.Finished p.state

theorem Step.loadFinished {n : Nat} (h : Step P a Q) (hfin : P.store.FinishedAt d id)
    (loads : LoadFinished P n d id) : LoadFinished Q n d id := by
  intro j th hj hth reply hx
  cases h with
  | begin op =>
    rw [List.getElem?_append] at hth
    split at hth
    · exact loads j th hj hth reply hx
    · obtain rfl := List.mem_singleton.mp (List.mem_of_getElem? hth)
      cases hx
  | pass h => exact loads j th hj hth reply hx
  | @ask i op past q rest reply' s thread answers =>
    by_cases hij : i = j
    · subst hij
      have hlen := (List.getElem?_eq_some_iff.mp thread).1
      rw [List.getElem?_set_self hlen] at hth
      cases hth
      rcases List.mem_append.mp hx with hx | hx
      · exact loads i _ hj thread reply hx
      · cases List.mem_singleton.mp hx
        obtain ⟨p, stored, hp⟩ := hfin
        obtain ⟨-, ⟨p', hp', rfl⟩ | ⟨hnone, -⟩⟩ := Store.answer_get answers
        · obtain rfl := Option.some.inj (stored.symm.trans hp')
          exact ⟨p, rfl, hp⟩
        · cases hnone.symm.trans stored
    · rw [List.getElem?_set_ne hij] at hth
      exact loads j th hj hth reply hx

theorem Run.loadFinished (h : Run P τ Q) (traced : ∀ th ∈ P.threads, Traced th)
    (hfin : P.store.FinishedAt d id) : LoadFinished Q P.threads.length d id := by
  induction h with
  | refl =>
    intro j th hj hth
    rw [List.getElem?_eq_none hj] at hth
    cases hth
  | step before h ih => exact h.loadFinished (before.finishedAt traced hfin) ih

/-- A service that says until when there is nothing to do for it is told the same by every later look. -/
theorem Run.check_of_until (h : Run P₀ τ P) (threads : P₀.threads = []) {i : Nat}
    {past : List (Exchange requests)} {due : DueTime}
    (told : P.threads[i]? = some ⟨.process d id, past, .done (.ok (.advancedUntil due))⟩)
    (later : Run P σ Q) {j : Nat} {past' : List (Exchange requests)}
    {result : Except ServiceError DueTime} (hj : P.threads.length ≤ j)
    (looked : Q.threads[j]? = some ⟨.check d id, past', .done result⟩) : result = .ok due := by
  have traced : ∀ th ∈ P.threads, Traced th := by
    refine h.traced ?_
    rw [threads]
    exact List.forall_mem_nil _
  obtain ⟨path, honest⟩ := traced _ (List.mem_of_getElem? told)
  obtain ⟨p, t, m, q, move, hresult, hreplaced⟩ := replaced_of_until path honest rfl
  obtain ⟨rfl, hfinished⟩ := finished_of_move move (Except.ok.inj hresult).symm
  have hfin : P.store.FinishedAt d id :=
    h.kept threads _ (List.mem_of_getElem? told) _ _ _ _ _ hreplaced hfinished
  have loads := later.loadFinished traced hfin j _ hj looked
  have path' := (later.traced traced _ (List.mem_of_getElem? looked)).path
  rcases result_of_check path' with ⟨p', t', rfl, rfl⟩ | ⟨e, rfl⟩
  · obtain ⟨p'', hp'', hfinished'⟩ := loads _ List.mem_cons_self
    cases hp''
    rw [hfinished'.due]
  · obtain ⟨p', hp', -⟩ := loads _ List.mem_cons_self
    cases hp'

/-! ### Changes that move a due time to an earlier one -/

theorem dueAt_ne_never_of_lt {s s' : Store} (h : s'.dueAt d id now < s.dueAt d id now) :
    ∃ q, s'.find? id = some q ∧ d.due q now ≠ .never ∧ s'.find? id ≠ s.find? id := by
  unfold Store.dueAt at h
  cases hq : s'.find? id with
  | none =>
    rw [hq] at h
    exact absurd h DueTime.not_never_lt
  | some q =>
    rw [hq] at h
    refine ⟨q, rfl, ?_, ?_⟩
    · intro hnever
      rw [Option.elim_some, hnever] at h
      exact DueTime.not_never_lt h
    · intro hsame
      rw [← hsame] at h
      exact lt_irrefl _ h

theorem eq_of_changed {s s' : Store} {poll : Id} {new : Poll}
    (hs : ∀ id, s'.find? id = if id = poll then some new else s.find? id)
    (changed : s'.find? id ≠ s.find? id) (stored : s'.find? id = some p) : id = poll ∧ p = new := by
  rw [hs] at changed stored
  split at changed
  · next hid =>
    rw [if_pos hid] at stored
    exact ⟨hid, (Option.some.inj stored).symm⟩
  · exact absurd rfl changed

/-- If a step moves the due time of a poll to an earlier one, the thread that made it has still to send an
event of which the service of this duty hears; or it is a thread of that service itself, and will say that
it advanced the poll. -/
theorem Step.routed (h : Step P a Q) (traced : ∀ th ∈ P.threads, Traced th)
    (scheduled : ∀ p, a.inserted? = some p → p.state = .scheduled)
    (announced : ∀ i x th, a = .asked i x → P.threads[i]? = some th →
      ∀ id voter, th.op ≠ .recordVote id voter)
    (earlier : Q.store.dueAt d id now < P.store.dueAt d id now) :
    ∃ i x th e, a = .asked i x ∧ Q.threads[i]? = some th ∧ th.rest.Sends e ∧
      (d.Hears e id ∨ ∃ past rest, th = ⟨.process d id, past, rest⟩ ∧ rest.EndsWith (.ok .advanced)) := by
  obtain ⟨p, stored, hp, hchanged⟩ := dueAt_ne_never_of_lt earlier
  cases h with
  | begin op => exact absurd rfl hchanged
  | pass h => exact absurd rfl hchanged
  | @ask i op past q rest reply s thread answers =>
    by_cases hidle : q.Idle
    · rw [hidle.same answers] at hchanged
      exact absurd rfl hchanged
    have hth : (P.threads.set i ⟨op, past ++ [⟨q, reply⟩], rest reply⟩)[i]? =
        some ⟨op, past ++ [⟨q, reply⟩], rest reply⟩ :=
      List.getElem?_set_self (List.getElem?_eq_some_iff.mp thread).1
    cases (traced _ (List.mem_of_getElem? thread)).changing hidle with
    | @create new rest sends =>
      obtain ⟨-, rfl, hs⟩ | ⟨-, -, hs⟩ := Store.answer_insert answers
      · obtain ⟨rfl, rfl⟩ := eq_of_changed hs hchanged stored
        refine ⟨i, _, _, .created p.id, rfl, hth, sends, Or.inl (Duty.hears ?_)⟩
        exact listensTo_of_inserted (scheduled p rfl) hp
      · exact absurd (by rw [hs]) hchanged
    | @vote poll voter rest sends =>
      obtain ⟨q, round, since, votes, -, opened, -, rfl, hs⟩ | ⟨-, hs⟩ :=
        Store.answer_recordVote answers
      · obtain ⟨rfl, rfl⟩ := eq_of_changed hs hchanged stored
        refine ⟨i, _, _, .voteCast id round voter, rfl, hth, sends round, Or.inl (Duty.hears ?_)⟩
        exact listensTo_of_voted rfl hp
      · exact absurd (by rw [hs]) hchanged
    | unannounced => exact absurd rfl (announced i _ _ rfl thread _ _)
    | @move d' q t m rest due move sends ends =>
      obtain ⟨q', -, -, rfl, hs⟩ | ⟨-, -, hs⟩ | ⟨-, -, hs⟩ := Store.answer_update answers
      · obtain ⟨rfl, rfl⟩ := eq_of_changed hs hchanged stored
        refine ⟨i, _, _, m.event, rfl, hth, sends _, ?_⟩
        rcases listensTo_of_moved move (q := { q' with state := m.next }) rfl hp with hears | ⟨rfl, hm⟩
        · exact Or.inl (poll_of_move move ▸ Duty.hears hears)
        · exact Or.inr ⟨_, _, rfl, hm ▸ ends _⟩
      · exact absurd (by rw [hs]) hchanged
      · exact absurd (by rw [hs]) hchanged

end Pool

/-! ### The runner of a service that advanced a poll -/

/-- A runner that was told that an entity is advanced asks for its due time next. -/
theorem recheck_of_advanced {E Id F : Type} [DecidableEq Id] {jitter : Jitter} {id : Id}
    {τ : List (Exchange (Runner.requests E Id F))} {r : Runner E Id F}
    (h : Runner.Run jitter (τ ++ [⟨.processOne id, .ok .advanced⟩]) r) : r.request = .checkOne id := by
  generalize hτ : τ ++ [⟨.processOne id, .ok .advanced⟩] = whole at h
  cases h with
  | init => exact absurd hτ (List.append_ne_nil_of_right_ne_nil _ (List.cons_ne_nil _ _))
  | @step _ r before reply =>
    obtain ⟨-, hlast⟩ := List.append_inj' hτ rfl
    have hreply := List.singleton_inj.mp hlast
    obtain ⟨jitter', alarm, rescanAt, shown, inboxOpen, phase⟩ := r
    cases phase with
    | processing id' rest next =>
      cases hreply
      rfl
    | _ => cases hreply

/-! ### All due times -/

namespace Pool

variable {P₀ P : Pool} {τ : List Label}

/-- Any number of threads create polls, vote, and process and check polls.  Whenever a step moves the due
time of a poll to an earlier one, at whatever time one looks, the change is announced by an event of which
the service of that duty hears; or the service made the change itself and says that it advanced the poll,
and a runner that is told so asks for the due time next.  When a service says instead that there is nothing
to do until some time, every look at the poll from then on says the same. -/
theorem Run.due_times_covered (h : Run P₀ τ P) (threads : P₀.threads = []) :
    (∀ a Q, Step P a Q → (∀ p, a.inserted? = some p → p.state = .scheduled) →
      (∀ i x th, a = .asked i x → P.threads[i]? = some th →
        ∀ id voter, th.op ≠ .recordVote id voter) →
      ∀ d id now, Q.store.dueAt d id now < P.store.dueAt d id now →
        ∃ i x th e, a = .asked i x ∧ Q.threads[i]? = some th ∧ th.rest.Sends e ∧
          (d.Hears e id ∨
            (∃ past rest, th = ⟨.process d id, past, rest⟩ ∧ rest.EndsWith (.ok .advanced)) ∧
            ∀ (F : Type) jitter (σ : List (Exchange (Runner.requests Event Id F))) r,
              Runner.Run jitter (σ ++ [⟨.processOne id, .ok .advanced⟩]) r → r.request = .checkOne id)) ∧
    (∀ (i : Nat) d id past due,
      P.threads[i]? = some ⟨.process d id, past, .done (.ok (.advancedUntil due))⟩ →
      ∀ σ Q, Run P σ Q → ∀ (j : Nat) past' result, P.threads.length ≤ j →
        Q.threads[j]? = some ⟨.check d id, past', .done result⟩ → result = .ok due) := by
  have traced : ∀ th ∈ P.threads, Traced th := by
    refine h.traced ?_
    rw [threads]
    exact List.forall_mem_nil _
  constructor
  · intro a Q step scheduled announced d id now earlier
    obtain ⟨i, x, th, e, ha, hth, hsends, hears | own⟩ := step.routed traced scheduled announced earlier
    · exact ⟨i, x, th, e, ha, hth, hsends, Or.inl hears⟩
    · exact ⟨i, x, th, e, ha, hth, hsends, Or.inr ⟨own, fun _ _ _ _ => recheck_of_advanced⟩⟩
  · intro i d id past due told σ Q later j past' result hj looked
    exact h.check_of_until threads told later hj looked

def voted : Pool := (morning.play firstRound).2

def started : Pool := (morning.play (.begin (.process .start ⟨1⟩) :: List.replicate 5 (.serve 0))).2

/-- The end of its second round closes `lunch`, and the service that closes polls hears of that round.
There is nothing to start any more, and who looks whether there is finds none. -/
theorem due_times_covered_lunch :
    (∃ th e, (voted.play [.serve 2]).2.threads[2]? = some th ∧ th.rest.Sends e ∧
      Duty.close.Hears e ⟨1⟩) ∧
    ∃ past result, (started.play [.begin (.check .start ⟨1⟩), .serve 1, .serve 1]).2.threads[1]? =
      some ⟨.check .start ⟨1⟩, past, .done result⟩ ∧ result = .ok .never := by
  have toVote : Run morning _ voted := run_play morning firstRound
  have toStart : Run morning _ started := run_play morning _
  constructor
  · have thread : voted.threads[2]? =
        some ⟨.process .advance ⟨1⟩, _, .ask (.store (.update _ _ _)) _⟩ := rfl
    have step : Step voted _ (voted.play [.serve 2]).2 := .ask thread (voted.answers_reply _)
    have earlier : (voted.play [.serve 2]).2.store.dueAt .close ⟨1⟩ .epoch <
        voted.store.dueAt .close ⟨1⟩ .epoch := by decide +kernel
    have announced (y : Exchange requests) : ∀ i x th, Label.asked 2 y = .asked i x →
        voted.threads[i]? = some th → ∀ id voter, th.op ≠ .recordVote id voter := by
      rintro i x th ⟨⟩ hth id voter hop
      cases thread.symm.trans hth
      cases hop
    obtain ⟨i, x, th, e, ha, hth, hsends, hears | ⟨⟨past, rest, rfl, -⟩, -⟩⟩ :=
      (toVote.due_times_covered rfl).1 _ _ step (fun p hp => nomatch (hp : none = some p)) (announced _)
        .close ⟨1⟩ .epoch earlier
    · cases ha
      exact ⟨th, e, hth, hsends, hears⟩
    · cases ha
      cases hth
  · have told : started.threads[0]? =
        some ⟨.process .start ⟨1⟩, _, .done (.ok (.advancedUntil .never))⟩ := rfl
    have looked : (started.play [.begin (.check .start ⟨1⟩), .serve 1, .serve 1]).2.threads[1]? =
        some ⟨.check .start ⟨1⟩, _, .done _⟩ := rfl
    exact ⟨_, _, looked,
      (toStart.due_times_covered rfl).2 0 _ _ _ _ told _ _ (run_play started _) 1 _ _ le_rfl looked⟩

end Pool

end Reveille.Poll
