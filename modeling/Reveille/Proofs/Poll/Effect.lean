import Reveille.Proofs.Poll.Procedure
import Reveille.Proofs.Time.Order

/-!
# What a step does to a poll

A thread replaces a state only after it loaded the poll in that state, then read the time, and found
the poll due at that reading (`Decided`).  Other threads may have been at the poll in between; but
the replacement succeeds only while the state is the loaded one, and parameters never change, so the
poll that is replaced is the very poll that was loaded.

`Sound` is the invariant behind this: no time in the poll lies ahead of the clock, and every thread
is safe among the others.  From it follows what one step of a pool can do to a poll (`Effect`,
`Sound.effect`).
-/

namespace Reveille.Poll

def State.time? : State → Option Instant
  | .scheduled => none
  | .opened _ since _ => some since
  | .closed time _ => some time

/-- Polls of `s` are in `s'` as well, up to their states. -/
def Store.Keeps (s s' : Store) : Prop :=
  ∀ id p, s.find? id = some p → ∃ st, s'.find? id = some { p with state := st }

namespace Store.Keeps

theorem refl (s : Store) : s.Keeps s := fun _ p h => ⟨p.state, h⟩

theorem trans {s s' s'' : Store} (h : s.Keeps s') (g : s'.Keeps s'') : s.Keeps s'' := by
  intro id p hp
  obtain ⟨st, hst⟩ := h id p hp
  obtain ⟨st', hst'⟩ := g id _ hst
  exact ⟨st', hst'⟩

theorem of_answer {s s' : Store} {q : Store.Request} {reply : q.Reply}
    (h : s.answer q = (reply, s')) : s.Keeps s' := by
  intro id p hp
  obtain rfl | ⟨new, -, hfree, hs⟩ | ⟨poll, q, st, hq, hs⟩ := answer_cases h
  · exact refl s' id p hp
  · have hne : id ≠ new.id := by
      rintro rfl
      rw [hp] at hfree
      cases hfree
    refine ⟨p.state, ?_⟩
    rw [hs, if_neg hne]
    exact hp
  · rw [hs]
    split
    · next hid =>
      subst hid
      obtain rfl : q = p := Option.some.inj (hq.symm.trans hp)
      exact ⟨st, rfl⟩
    · exact ⟨p.state, hp⟩

end Store.Keeps

theorem Duty.time_of_move {d : Duty} {p : Poll} {t : Instant} {m : Move}
    (h : d.move? p t = some m) : m.next.time? = some t := by
  cases d with
  | start => cases h; rfl
  | advance =>
    obtain ⟨round, -, rfl⟩ := Option.map_eq_some_iff.mp h
    rfl
  | close =>
    obtain ⟨rounds, -, rfl⟩ := Option.map_eq_some_iff.mp h
    rfl

structure View where
  store : Store
  now : Instant
  past : List (Exchange requests)

/-- No time in the poll is ahead of the clock. -/
def Timely (id : Id) (s : Store) (now : Instant) : Prop :=
  ∀ p, s.find? id = some p → ∀ t ∈ p.state.time?, t ≤ now

/-- A view in which a poll was loaded, then the time read, and the poll found due. -/
structure Loaded (id : Id) (x : View) (d : Duty) (p : Poll) (t : Instant) : Prop where
  past : x.past = [⟨.store (.get p.id), .ok p⟩, ⟨.readTime, t⟩]
  due : (d.due p t).isDue t = true
  read : t ≤ x.now
  timely : p.id = id → ∀ u ∈ p.state.time?, u ≤ t
  stored : ∃ st, x.store.find? p.id = some { p with state := st }

/-- The thread asks to replace the state of the poll it loaded by that of a move. -/
def Decided (id : Id) (x : View) (poll : Id) (expected next : State) : Prop :=
  ∃ d p t m, Loaded id x d p t ∧ d.move? p t = some m ∧
    p.id = poll ∧ p.state = expected ∧ m.next = next

def Promised (id : Id) (v : View) (q : Request) (reply : q.Reply) : Prop :=
  match q, reply with
  | .store (.update poll expected next), (.ok _ : Except _ _) => Decided id v poll expected next
  | _, _ => True

open Program Procedure

def sharing (id : Id) : Sharing requests View where
  answers q x reply y := Answers x.now q x.store reply y.store ∧ y.now = x.now ∧
    y.past = x.past ++ [⟨q, reply⟩]
  rely x y := x.now ≤ y.now ∧ x.past = y.past ∧ x.store.Keeps y.store
  inv v := Timely id v.store v.now
  guar q v reply _ := Promised id v q reply
  refl _ := ⟨le_refl _, rfl, .refl _⟩
  trans h g := ⟨le_trans h.1 g.1, h.2.1.trans g.2.1, h.2.2.trans g.2.2⟩

def Request.NoUpdate : Request → Prop
  | .store (.update _ _ _) => False
  | _ => True

theorem Request.Idle.noUpdate (q : Request) (h : q.Idle) : q.NoUpdate := by
  cases q with
  | store q =>
    cases q with
    | update id expected next => exact False.elim h
    | _ => exact trivial
  | _ => exact trivial

theorem safe_of_noUpdate {id : Id} {α : Type} {p : Procedure α} (h : p.Only Request.NoUpdate)
    (x : View) : p.Safe (sharing id) (fun _ _ => True) x := by
  refine Safe.of_only h (fun q hq v reply _ => ?_) x
  show Promised id v q reply
  unfold Promised
  split
  · exact False.elim hq
  · trivial

theorem Loaded.later {id : Id} {x y : View} {d : Duty} {p : Poll} {t : Instant}
    (h : Loaded id x d p t) (hxy : (sharing id).rely x y) : Loaded id y d p t where
  past := hxy.2.1 ▸ h.past
  due := h.due
  read := le_trans h.read hxy.1
  timely := h.timely
  stored := by
    obtain ⟨st, hst⟩ := h.stored
    obtain ⟨st', hst'⟩ := hxy.2.2 _ _ hst
    exact ⟨st', hst'⟩

section
variable {id poll : Id} {d : Duty} {x : View}

theorem safe_loadDue (h : x.past = []) :
    (d.loadDue poll).Safe (sharing id)
      (fun a y => ∀ p t, a = .ok (some (p, t)) → p.id = poll ∧ Loaded id y d p t) x := by
  refine safe_ask.mpr fun y hy iy reply z hz => ⟨trivial, ?_⟩
  obtain ⟨ha, hnow, hpast⟩ := hz
  obtain ⟨hs, ⟨p, hp, rfl⟩ | ⟨-, rfl⟩⟩ := Store.answer_get ha
  · have hid := Store.find?_id hp
    refine safe_ask.mpr fun u hu iu now v hv => ⟨trivial, ?_⟩
    obtain ⟨⟨rfl, hvs⟩, hvnow, hvpast⟩ := hv
    refine safe_done.mpr fun w hw _ p' t' he => ?_
    split at he
    · next hdue =>
      cases he
      have hload : Loaded id v d p u.now :=
        { past := by rw [hvpast, ← hu.2.1, hpast, ← hy.2.1, h, hid]; rfl
          due := hdue
          read := le_of_eq hvnow.symm
          timely := fun hpid t ht => (iy p (by rw [← hpid, hid]; exact hp) t ht).trans
            (hnow ▸ hu.1)
          stored := by
            obtain ⟨st, hst⟩ := hu.2.2 p.id p (hs ▸ hid ▸ hp)
            exact ⟨st, hvs ▸ hst⟩ }
      exact ⟨hid, hload.later hw⟩
    · cases he
  · exact safe_done.mpr fun _ _ _ _ _ he => by cases he

theorem safe_of_idle {α : Type} {p : Procedure α} (h : p.Only Request.Idle) (x : View) :
    p.Safe (sharing id) (fun _ _ => True) x := safe_of_noUpdate (h.mono Request.Idle.noUpdate) x

theorem safe_carryOut {p : Poll} {t : Instant} {m : Move} (h : Loaded id x d p t)
    (hm : d.move? p t = some m) :
    (Duty.carryOut p m).Safe (sharing id) (fun _ _ => True) x := by
  have hrest := (Duty.opens_carryOut (p := p) (m := m)).2
  refine safe_ask.mpr fun y hy _ reply z _ => ⟨?_, safe_of_idle (hrest reply) z⟩
  cases reply with
  | ok q => exact ⟨d, p, t, m, h.later hy, hm, rfl, rfl, rfl⟩
  | error e => exact trivial

theorem safe_process (h : x.past = []) :
    (d.process poll).Safe (sharing id) (fun _ _ => True) x := by
  refine Safe.bind (safe_loadDue h) fun a y ha => ?_
  rcases a with e | _ | ⟨p, t⟩
  · exact safe_done.mpr fun _ _ _ => trivial
  · exact safe_done.mpr fun _ _ _ => trivial
  · have hload := (ha p t rfl).2
    dsimp only
    cases hm : d.move? p t with
    | some m => exact safe_carryOut hload hm
    | none => exact safe_done.mpr fun _ _ _ => trivial

theorem safe_procedure (op : Operation) (h : x.past = []) :
    op.procedure.Safe (sharing id) (fun _ _ => True) x := by
  cases op with
  | process d poll => exact safe_process h
  | scan d => exact safe_of_idle Duty.idle_items x
  | check d poll => exact safe_of_idle Duty.idle_check x
  | create p => exact safe_of_noUpdate (opens_createPoll.only trivial Request.Idle.noUpdate) x
  | castVote poll voter =>
    exact safe_of_noUpdate (opens_castVote.only trivial Request.Idle.noUpdate) x
  | recordVote poll voter =>
    refine safe_of_noUpdate ?_ x
    exact ⟨trivial, fun _ => trivial⟩

end

/-! ### Steps of a pool -/

namespace Pool

def Label.changed? : Label → Option Id
  | .asked _ ⟨.store (.insert p), (.ok _ : Except _ _)⟩ => some p.id
  | .asked _ ⟨.store (.update id _ _), (.ok _ : Except _ _)⟩ => some id
  | .asked _ ⟨.store (.recordVote id _), (.ok _ : Except _ _)⟩ => some id
  | _ => none

/-- What a step does to the poll under a number; the last argument is that poll after the step. -/
inductive Effect (id : Id) (P : Pool) : Label → Option Poll → Prop
  | unchanged {a : Label} (h : a.changed? ≠ some id) : Effect id P a (P.store.find? id)
  | inserted {i : Nat} {p : Poll} (free : P.store.find? id = none) (number : p.id = id) :
      Effect id P (.asked i ⟨.store (.insert p), .ok ()⟩) (some p)
  | voted {i : Nat} {p : Poll} {round : UInt32} {since : Instant} {votes : Voters}
      {voter : String} (stored : P.store.find? id = some p)
      (opened : p.state = .opened round since votes) (new : voter ∉ votes) :
      Effect id P (.asked i ⟨.store (.recordVote id voter), .ok round⟩)
        (some { p with state := .opened round since (votes.insert voter) })
  | moved {i : Nat} {th : Thread} {d : Duty} {p q : Poll} {t : Instant} {m : Move}
      (stored : P.store.find? id = some p) (thread : P.threads[i]? = some th)
      (past : th.past = [⟨.store (.get id), .ok p⟩, ⟨.readTime, t⟩])
      (due : (d.due p t).isDue t = true) (move : d.move? p t = some m)
      (timely : ∀ u ∈ p.state.time?, u ≤ t) (read : t ≤ P.now) :
      Effect id P (.asked i ⟨.store (.update id p.state m.next), .ok q⟩)
        (some { p with state := m.next })

/-- No time in the poll is ahead of the clock, and every thread is safe. -/
structure Sound (id : Id) (P : Pool) : Prop where
  timely : Timely id P.store P.now
  safe : ∀ th ∈ P.threads, th.rest.Safe (sharing id) (fun _ _ => True) ⟨P.store, P.now, th.past⟩

variable {id : Id} {P Q : Pool} {a : Label}

theorem Sound.init (h : P.threads = []) (timely : Timely id P.store P.now) : Sound id P :=
  ⟨timely, fun th hth => by rw [h] at hth; cases hth⟩

theorem Label.changed?_of_idle {i : Nat} {x : Exchange requests} (h : x.request.Idle) :
    (Label.asked i x).changed? = none := by
  obtain ⟨q, reply⟩ := x
  cases q with
  | store q => cases q <;> first | rfl | exact False.elim h
  | _ => rfl

/-- A request that sets one poll leaves the polls under other numbers alone. -/
theorem Effect.elsewhere {i : Nat} {x : Exchange requests} {s : Store} {poll : Id} {p : Poll}
    (hs : ∀ id, s.find? id = if id = poll then some p else P.store.find? id)
    (hc : (Label.asked i x).changed? = some poll) (hne : id ≠ poll) :
    Effect id P (.asked i x) (s.find? id) := by
  rw [hs, if_neg hne]
  refine .unchanged fun h => hne ?_
  exact Option.some.inj (h.symm.trans hc)

theorem Sound.effect (hS : Sound id P) (h : Step P a Q) : Effect id P a (Q.store.find? id) := by
  cases h with
  | begin op => exact .unchanged (by simp [Label.changed?])
  | pass h => exact .unchanged (by simp [Label.changed?])
  | @ask i op past q rest reply s thread answers =>
    have hsafe := hS.safe _ (List.mem_of_getElem? thread)
    obtain ⟨hguar, -⟩ := hsafe.step (z := ⟨s, P.now, past ++ [⟨q, reply⟩]⟩) hS.timely
      ⟨answers, rfl, rfl⟩
    have same (hs : s = P.store) (hc : (Label.asked i ⟨q, reply⟩).changed? = none) :
        Effect id P (.asked i ⟨q, reply⟩) (s.find? id) := by
      subst hs
      refine .unchanged fun h => ?_
      rw [hc] at h
      cases h
    by_cases hidle : q.Idle
    · exact same (hidle.same answers) (Label.changed?_of_idle hidle)
    cases q with
    | store q =>
      cases q with
      | insert p =>
        obtain ⟨hfree, rfl, hs⟩ | ⟨-, rfl, hs⟩ := Store.answer_insert answers
        · by_cases hid : id = p.id
          · subst hid
            show Effect _ _ _ (s.find? p.id)
            rw [hs, if_pos rfl]
            exact .inserted hfree rfl
          · exact .elsewhere hs rfl hid
        · exact same hs rfl
      | recordVote poll voter =>
        obtain ⟨p, round, since, votes, hp, hst, hnew, rfl, hs⟩ | ⟨⟨e, rfl⟩, hs⟩ :=
          Store.answer_recordVote answers
        · by_cases hid : id = poll
          · subst hid
            show Effect _ _ _ (s.find? id)
            rw [hs, if_pos rfl]
            exact .voted hp hst hnew
          · exact .elsewhere hs rfl hid
        · exact same hs rfl
      | update poll expected next =>
        obtain ⟨p, hp, hst, rfl, hs⟩ | ⟨-, rfl, hs⟩ | ⟨-, rfl, hs⟩ := Store.answer_update answers
        · by_cases hid : id = poll
          · subst hid
            obtain ⟨d, q, t, m, hload, hm, rfl, rfl, rfl⟩ := hguar
            -- the loaded poll has the stored state, and the same parameters
            obtain ⟨st, hst'⟩ := hload.stored
            obtain rfl : p = { q with state := st } := Option.some.inj (hp.symm.trans hst')
            obtain rfl : st = q.state := hst
            show Effect _ _ _ (s.find? q.id)
            rw [hs, if_pos rfl]
            exact .moved hp thread hload.past hload.due hm (hload.timely rfl) hload.read
          · exact .elsewhere hs rfl hid
        · exact same hs rfl
        · exact same hs rfl
      | get poll => exact absurd trivial hidle
      | all => exact absurd trivial hidle
    | _ => exact absurd trivial hidle

theorem Step.now_le (h : Step P a Q) : P.now ≤ Q.now := by
  cases h with
  | begin op => exact le_refl _
  | pass h => exact h
  | ask thread answers => exact le_refl _

theorem Step.keeps (h : Step P a Q) : P.store.Keeps Q.store := by
  cases h with
  | begin op => exact .refl _
  | pass h => exact .refl _
  | @ask i op past q rest reply s thread answers =>
    by_cases hidle : q.Idle
    · rw [hidle.same answers]
      exact .refl _
    · cases q with
      | store q => exact .of_answer answers
      | _ => exact absurd trivial hidle

theorem Sound.step (hS : Sound id P) (h : Step P a Q)
    (enters : P.store.find? id = none →
      ∀ p, a.inserted? = some p → p.id = id → p.state = .scheduled) : Sound id Q := by
  have hnow := h.now_le
  have hkeeps := h.keeps
  refine ⟨fun r hr => ?_, fun th hth => ?_⟩
  · have heff := hS.effect h
    rw [hr] at heff
    generalize ho : some r = o at heff
    cases heff with
    | unchanged _ => exact fun u hu => (hS.timely r ho.symm u hu).trans hnow
    | inserted free number =>
      cases ho
      rw [enters free _ rfl number]
      exact fun u hu => by cases hu
    | voted stored opened new =>
      cases ho
      intro u hu
      exact (hS.timely _ stored u (by rw [opened]; exact hu)).trans hnow
    | moved stored thread past due move timely read =>
      cases ho
      intro u hu
      rw [Duty.time_of_move move] at hu
      cases hu
      exact read.trans hnow
  · cases h with
    | begin op =>
      rcases List.mem_append.mp hth with hth | hth
      · exact hS.safe th hth
      · rw [List.mem_singleton.mp hth]
        exact safe_procedure op rfl
    | pass h => exact (hS.safe th hth).later ⟨h, rfl, .refl _⟩
    | @ask i op past q rest reply s thread answers =>
      rcases List.mem_or_eq_of_mem_set hth with hth | rfl
      · exact (hS.safe th hth).later ⟨le_refl _, rfl, hkeeps⟩
      · have hsafe := hS.safe _ (List.mem_of_getElem? thread)
        exact (hsafe.step (z := ⟨s, P.now, past ++ [⟨q, reply⟩]⟩) hS.timely
          ⟨answers, rfl, rfl⟩).2

theorem Run.sound {τ : List Label} (h : Run P τ Q) (threads : P.threads = [])
    (enters : EntersOnly (·.state = .scheduled) P τ id) : Sound id Q := by
  induction h with
  | refl => exact .init threads fun p hp u hu => by rw [enters p (Or.inl hp)] at hu; cases hu
  | step before h ih => exact (ih enters.before).step h fun _ _ => enters.last

/-- A poll that is stored cannot be inserted again, so nothing has to be said about insertions. -/
theorem Run.sound_of_stored {τ : List Label} (h : Run P τ Q) (hS : Sound id P) {p : Poll}
    (hp : P.store.find? id = some p) :
    Sound id Q ∧ ∃ s, Q.store.find? id = some { p with state := s } := by
  induction h with
  | refl => exact ⟨hS, p.state, hp⟩
  | step before h ih =>
    obtain ⟨hQ, s, hs⟩ := ih
    obtain ⟨s', hs'⟩ := h.keeps id _ hs
    exact ⟨hQ.step h fun hnone => (by rw [hs] at hnone; cases hnone), s', hs'⟩

end Pool

end Reveille.Poll
