import Reveille.Proofs.Poll.Due
import Reveille.Proofs.Poll.Store
import Reveille.Proofs.Poll.Votes

/-!
# What there is to announce

A request that changes the store has one event to be announced, which follows from the request and the
reply alone (`Store.Request.news?`).  `Store.Happens` says what an event does to a store, and a store
`Shows` an event if the poll is as far as the event says.

When every replacement is by a state that may come next, what there is to announce is what happens to the
store (`Store.answer_news`).  No event is shown before it happens, it is shown afterwards, and whatever is
shown stays shown.  So the same event never happens twice.
-/

namespace Reveille.Poll

variable {id : Id} {e e' : Event}

namespace State

/-- What an event does to the state of a poll. -/
inductive Happens : State → Event → State → Prop
  | start {id : Id} {t : Instant} : Happens .scheduled (.started id 1) (.fresh 1 t)
  | vote {id : Id} {round : UInt32} {since : Instant} {votes : Voters} {voter : String}
      (new : voter ∉ votes) :
      Happens (.opened round since votes) (.voteCast id round voter)
        (.opened round since (votes.insert voter))
  | advance {id : Id} {round : UInt32} {since t : Instant} {votes : Voters} (more : round < round + 1) :
      Happens (.opened round since votes) (.roundAdvanced id (round + 1)) (.fresh (round + 1) t)
  | close {id : Id} {round : UInt32} {since t : Instant} {votes : Voters} :
      Happens (.opened round since votes) (.closed id round) (.closed t round)

def news? (id : Id) : State → State → Option Event
  | .scheduled, .opened round _ _ => some (.started id round)
  | .opened _ _ _, .opened round _ _ => some (.roundAdvanced id round)
  | .opened _ _ _, .closed _ rounds => some (.closed id rounds)
  | _, _ => none

theorem poll_of_news {st st' : State} (h : news? id st st' = some e) : e.poll = id := by
  unfold news? at h
  split at h <;> cases h <;> rfl

/-- A poll in this state is as far as an event says. -/
def Shows : State → Event → Prop
  | _, .created _ => True
  | st, .started _ _ => st ≠ .scheduled
  | .opened round _ votes, .voteCast _ r voter => r = round ∧ voter ∈ votes ∨ r < round
  | .closed _ rounds, .voteCast _ r _ => r ≤ rounds
  | .opened round _ _, .roundAdvanced _ r => r ≤ round
  | .closed _ rounds, .roundAdvanced _ r => r ≤ rounds
  | .closed _ rounds, .closed _ r => rounds = r
  | _, _ => False

namespace Happens

variable {st st' : State}

theorem not_shows (h : Happens st e st') : ¬ st.Shows e := by
  cases h with
  | start => exact fun h => h rfl
  | vote new =>
    rintro (⟨-, hmem⟩ | hlt)
    · exact new hmem
    · exact UInt32.lt_irrefl _ hlt
  | advance more => exact UInt32.not_le.mpr more
  | close => exact fun h => h

theorem shows (h : Happens st e st') : st'.Shows e := by
  cases h with
  | start => exact nofun
  | vote new => exact Or.inl ⟨rfl, Voters.mem_insert.mpr (Or.inl rfl)⟩
  | advance more => exact UInt32.le_refl _
  | close => exact rfl

/-- A poll does not go back behind an event. -/
theorem keeps (h : Happens st e st') (shows : st.Shows e') : st'.Shows e' := by
  cases h with
  | start =>
    cases e' with
    | created poll => exact trivial
    | started poll r => exact nofun
    | _ => exact False.elim shows
  | vote new =>
    cases e' with
    | created poll => exact trivial
    | started poll r => exact nofun
    | voteCast poll r voter => exact shows.imp_left fun h => ⟨h.1, Voters.mem_insert.mpr (Or.inr h.2)⟩
    | roundAdvanced poll r => exact shows
    | closed poll r => exact False.elim shows
  | advance more =>
    cases e' with
    | created poll => exact trivial
    | started poll r => exact nofun
    | voteCast poll r voter =>
      rcases shows with ⟨rfl, -⟩ | hlt
      · exact Or.inr more
      · exact Or.inr (UInt32.lt_trans hlt more)
    | roundAdvanced poll r => exact UInt32.le_trans shows (UInt32.le_of_lt more)
    | closed poll r => exact False.elim shows
  | close =>
    cases e' with
    | created poll => exact trivial
    | started poll r => exact nofun
    | voteCast poll r voter =>
      rcases shows with ⟨rfl, -⟩ | hlt
      · exact UInt32.le_refl _
      · exact UInt32.le_of_lt hlt
    | roundAdvanced poll r => exact shows
    | closed poll r => exact False.elim shows

end Happens

end State

namespace Store

namespace Request

def news? : (q : Request) → q.Reply → Option Event
  | .insert p, (reply : Except StoreError Unit) => reply.toOption.map fun _ => .created p.id
  | .update id expected next, (reply : Except StoreError Poll) =>
    reply.toOption.bind fun _ => State.news? id expected next
  | .recordVote id voter, (reply : Except StoreError UInt32) =>
    reply.toOption.map fun round => .voteCast id round voter
  | .get _, _ => none
  | .all, _ => none

def Steps : Request → Prop
  | .update id expected next => ∃ e, State.news? id expected next = some e ∧ expected.Happens e next
  | _ => True

end Request

def Shows (s : Store) (e : Event) : Prop := ∃ p, s.find? e.poll = some p ∧ p.state.Shows e

inductive Happens (s : Store) : Event → Store → Prop
  | created {p : Poll} {s' : Store} (free : s.find? p.id = none)
      (h : ∀ id, s'.find? id = if id = p.id then some p else s.find? id) : Happens s (.created p.id) s'
  | turned {e : Event} {p : Poll} {st : State} {s' : Store} (stored : s.find? e.poll = some p)
      (turn : p.state.Happens e st)
      (h : ∀ id, s'.find? id = if id = e.poll then some { p with state := st } else s.find? id) :
      Happens s e s'

namespace Happens

variable {s s' : Store}

theorem not_shows (h : s.Happens e s') : ¬ s.Shows e := by
  rintro ⟨q, hq, hshows⟩
  cases h with
  | created free h => exact nomatch free.symm.trans hq
  | turned stored turn h =>
    obtain rfl := Option.some.inj (stored.symm.trans hq)
    exact turn.not_shows hshows

theorem shows (h : s.Happens e s') : s'.Shows e := by
  cases h with
  | created free h => exact ⟨_, (h _).trans (if_pos rfl), trivial⟩
  | turned stored turn h => exact ⟨_, (h _).trans (if_pos rfl), turn.shows⟩

/-- What is shown stays shown. -/
theorem keeps (h : s.Happens e s') (shows : s.Shows e') : s'.Shows e' := by
  obtain ⟨q, hq, hshows⟩ := shows
  cases h with
  | created free h =>
    refine ⟨q, ?_, hshows⟩
    rw [h, if_neg, hq]
    intro hid
    rw [hid, free] at hq
    cases hq
  | @turned _ p st _ stored turn h =>
    by_cases hid : e'.poll = e.poll
    · rw [hid, stored] at hq
      obtain rfl := Option.some.inj hq
      exact ⟨{ p with state := st }, by rw [h, if_pos hid], turn.keeps hshows⟩
    · exact ⟨q, by rw [h, if_neg hid, hq], hshows⟩

end Happens

variable {s s' : Store}

/-- What there is to announce happens to the store; without news the store stays as it is. -/
theorem answer_news {q : Request} {reply : q.Reply} (h : s.answer q = (reply, s')) (steps : q.Steps) :
    q.news? reply = none ∧ s' = s ∨ ∃ e, q.news? reply = some e ∧ s.Happens e s' := by
  cases q with
  | get id => exact Or.inl ⟨rfl, (answer_get h).1⟩
  | all => exact Or.inl ⟨rfl, (congrArg Prod.snd h).symm⟩
  | insert p =>
    obtain ⟨hfree, rfl, hs⟩ | ⟨-, rfl, rfl⟩ := answer_insert h
    · exact Or.inr ⟨_, rfl, .created hfree hs⟩
    · exact Or.inl ⟨rfl, rfl⟩
  | update id expected next =>
    obtain ⟨p, hp, rfl, rfl, hs⟩ | ⟨-, rfl, rfl⟩ | ⟨-, rfl, rfl⟩ := answer_update h
    · obtain ⟨e, hnews, turn⟩ := steps
      obtain rfl := State.poll_of_news hnews
      exact Or.inr ⟨e, hnews, .turned hp turn hs⟩
    · exact Or.inl ⟨rfl, rfl⟩
    · exact Or.inl ⟨rfl, rfl⟩
  | recordVote id voter =>
    obtain ⟨p, round, since, votes, hp, hst, hnew, rfl, hs⟩ | ⟨⟨e, rfl⟩, rfl⟩ := answer_recordVote h
    · exact Or.inr ⟨.voteCast id round voter, rfl, .turned hp (hst ▸ .vote hnew) hs⟩
    · exact Or.inl ⟨rfl, rfl⟩

theorem Shows.answer {q : Request} {reply : q.Reply} (shows : s.Shows e)
    (h : s.answer q = (reply, s')) (steps : q.Steps) : s'.Shows e := by
  rcases answer_news h steps with ⟨-, rfl⟩ | ⟨_, -, happens⟩
  · exact shows
  · exact happens.keeps shows

end Store

/-- A move on a poll that is due is what its event does to the poll. -/
theorem Duty.news_of_move {d : Duty} {p : Poll} {now : Instant} {m : Move}
    (due : (d.due p now).isDue now = true) (move : d.move? p now = some m) :
    State.news? p.id p.state m.next = some m.event ∧ p.state.Happens m.event m.next := by
  cases d with
  | start =>
    obtain ⟨hst, -⟩ := isDue_startDue.mp due
    cases move
    rw [hst]
    exact ⟨rfl, .start⟩
  | advance =>
    obtain ⟨round, since, votes, hst⟩ := exists_opened_of_isDue (by decide) due
    obtain ⟨hmore, -, -⟩ := (isDue_advanceDue hst).mp due
    simp only [move?, hst, State.round?, Option.map_some, Option.some.injEq] at move
    subst move
    rw [hst]
    exact ⟨rfl, .advance (lt_succ hmore)⟩
  | close =>
    obtain ⟨round, since, votes, hst⟩ := exists_opened_of_isDue (by decide) due
    simp only [move?, hst, State.round?, Option.map_some, Option.some.injEq] at move
    subst move
    rw [hst]
    exact ⟨rfl, .close⟩

end Reveille.Poll
