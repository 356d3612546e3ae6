import Reveille.Poll.Store

/-!
# The store as a map

What `Store.find?` gives after each operation: a new poll stands under its own number, a new state
changes nothing but the state of the one poll, and everything else is as it was.  From these laws
follow the possible outcomes of the three requests that can change a store (`answer_insert`,
`answer_update`, `answer_recordVote`), and what any request can do to the polls (`answer_cases`).
-/

namespace Reveille.Poll

namespace Store

variable {s s' : Store} {id : Id} {p : Poll}

theorem find?_id (h : s.find? id = some p) : p.id = id := by
  simpa using List.find?_some h

theorem mem_of_find? (h : s.find? id = some p) : p ∈ s.polls := List.mem_of_find?_eq_some h

theorem find?_of_mem (h : p ∈ s.polls) : s.find? p.id = some p := by
  obtain ⟨polls, ascending⟩ := s
  simp only [find?] at h ⊢
  induction polls with
  | nil => simp at h
  | cons q rest ih =>
    obtain ⟨hq, hrest⟩ := List.pairwise_cons.mp ascending
    rcases List.mem_cons.mp h with rfl | hm
    · simp
    · have hne : q.id ≠ p.id := fun he => Nat.lt_irrefl _ (he ▸ hq p hm)
      rw [List.find?_cons_of_neg (by simpa using hne)]
      exact ih hrest hm

theorem find?_eq_some_iff : s.find? id = some p ↔ p ∈ s.polls ∧ p.id = id := by
  constructor
  · exact fun h => ⟨mem_of_find? h, find?_id h⟩
  · rintro ⟨h, rfl⟩
    exact find?_of_mem h

theorem find?_eq_none_iff : s.find? id = none ↔ ∀ q ∈ s.polls, q.id ≠ id := by
  simp [find?]

theorem find?_add (h : ∀ q ∈ s.polls, q.id ≠ p.id) :
    (s.add p h).find? id = if id = p.id then some p else s.find? id := by
  have hmem : ∀ q, q ∈ (s.add p h).polls ↔ q = p ∨ q ∈ s.polls := fun q => mem_insertOrdered
  by_cases hid : id = p.id
  · rw [if_pos hid, find?_eq_some_iff]
    exact ⟨(hmem p).mpr (Or.inl rfl), hid.symm⟩
  · rw [if_neg hid]
    cases hf : s.find? id with
    | some q =>
      rw [find?_eq_some_iff] at hf ⊢
      exact ⟨(hmem q).mpr (Or.inr hf.1), hf.2⟩
    | none =>
      rw [find?_eq_none_iff] at hf ⊢
      intro q hq
      rcases (hmem q).mp hq with rfl | hq
      · exact fun he => hid he.symm
      · exact hf q hq

theorem find?_setState (next : State) {id' : Id} :
    (s.setState id next).find? id' =
      if id' = id then (s.find? id).map ({ · with state := next }) else s.find? id' := by
  obtain ⟨polls, ascending⟩ := s
  simp only [find?, setState]
  clear ascending
  induction polls with
  | nil => simp
  | cons q rest ih =>
    simp only [List.map_cons, List.find?_cons, ih]
    by_cases hid : id' = id
    · subst hid
      by_cases hq : q.id = id' <;> simp [hq]
    · by_cases hq : q.id = id
      · simp [hq, hid, Ne.symm hid]
      · simp [hq, hid]

/-! ### Outcomes of requests -/

theorem answer_insert {reply : Except StoreError Unit}
    (h : s.answer (.insert p) = (reply, s')) :
    (s.find? p.id = none ∧ reply = .ok () ∧
        ∀ id, s'.find? id = if id = p.id then some p else s.find? id) ∨
      ((∃ q, s.find? p.id = some q) ∧ reply = .error (.conflict p.id) ∧ s' = s) := by
  simp only [answer, insert] at h
  split at h
  · next hfree =>
    obtain ⟨rfl, rfl⟩ := Prod.mk.inj h
    exact Or.inl ⟨find?_eq_none_iff.mpr hfree, rfl, fun id => find?_add hfree⟩
  · next htaken =>
    obtain ⟨rfl, rfl⟩ := Prod.mk.inj h
    refine Or.inr ⟨?_, rfl, rfl⟩
    cases hf : s.find? p.id with
    | some q => exact ⟨q, rfl⟩
    | none => exact absurd (find?_eq_none_iff.mp hf) htaken

theorem answer_get {reply : Except StoreError Poll} (h : s.answer (.get id) = (reply, s')) :
    s' = s ∧ ((∃ p, s.find? id = some p ∧ reply = .ok p) ∨
      (s.find? id = none ∧ reply = .error (.notFound id))) := by
  simp only [answer, get] at h
  obtain ⟨hr, rfl⟩ := Prod.mk.inj h
  refine ⟨rfl, ?_⟩
  cases hf : s.find? id with
  | some p => exact Or.inl ⟨p, rfl, by rw [← hr, hf]⟩
  | none => exact Or.inr ⟨rfl, by rw [← hr, hf]⟩

theorem answer_update {expected next : State} {reply : Except StoreError Poll}
    (h : s.answer (.update id expected next) = (reply, s')) :
    (∃ p, s.find? id = some p ∧ p.state = expected ∧ reply = .ok { p with state := next } ∧
        ∀ id', s'.find? id' = if id' = id then some { p with state := next } else s.find? id') ∨
      ((∃ p, s.find? id = some p ∧ p.state ≠ expected) ∧ reply = .error (.conflict id) ∧ s' = s) ∨
      (s.find? id = none ∧ reply = .error (.notFound id) ∧ s' = s) := by
  simp only [answer, update] at h
  split at h
  · next hnone =>
    obtain ⟨rfl, rfl⟩ := Prod.mk.inj h
    exact Or.inr (Or.inr ⟨hnone, rfl, rfl⟩)
  · next p hsome =>
    split at h
    · next heq =>
      obtain ⟨rfl, rfl⟩ := Prod.mk.inj h
      refine Or.inl ⟨p, hsome, heq, rfl, fun id' => ?_⟩
      rw [find?_setState, hsome]
      rfl
    · next hne =>
      obtain ⟨rfl, rfl⟩ := Prod.mk.inj h
      exact Or.inr (Or.inl ⟨⟨p, hsome, hne⟩, rfl, rfl⟩)

theorem answer_recordVote {voter : String} {reply : Except StoreError UInt32}
    (h : s.answer (.recordVote id voter) = (reply, s')) :
    (∃ p round since votes, s.find? id = some p ∧ p.state = .opened round since votes ∧
        voter ∉ votes ∧ reply = .ok round ∧
        ∀ id', s'.find? id' = if id' = id
          then some { p with state := .opened round since (votes.insert voter) }
          else s.find? id') ∨
      ((∃ e, reply = .error e) ∧ s' = s) := by
  simp only [answer, recordVote] at h
  split at h
  · obtain ⟨rfl, rfl⟩ := Prod.mk.inj h
    exact Or.inr ⟨⟨_, rfl⟩, rfl⟩
  · next p hsome =>
    split at h
    · next round since votes hst =>
      split at h
      · obtain ⟨rfl, rfl⟩ := Prod.mk.inj h
        exact Or.inr ⟨⟨_, rfl⟩, rfl⟩
      · next hnew =>
        obtain ⟨rfl, rfl⟩ := Prod.mk.inj h
        refine Or.inl ⟨p, round, since, votes, hsome, hst, hnew, rfl, fun id' => ?_⟩
        rw [find?_setState, hsome]
        rfl
    · obtain ⟨rfl, rfl⟩ := Prod.mk.inj h
      exact Or.inr ⟨⟨_, rfl⟩, rfl⟩

/-- A request changes nothing, stores a poll under a number that was free, or sets the state of one
poll. -/
theorem answer_cases {q : Request} {reply : q.Reply} (h : s.answer q = (reply, s')) :
    s' = s ∨
      (∃ p, q = .insert p ∧ s.find? p.id = none ∧
        ∀ id, s'.find? id = if id = p.id then some p else s.find? id) ∨
      ∃ poll p st, s.find? poll = some p ∧
        ∀ id, s'.find? id = if id = poll then some { p with state := st } else s.find? id := by
  cases q with
  | get id => exact Or.inl (answer_get h).1
  | all => exact Or.inl (congrArg Prod.snd h).symm
  | insert p =>
    obtain ⟨hfree, -, hs⟩ | ⟨-, -, hs⟩ := answer_insert h
    · exact Or.inr (Or.inl ⟨p, rfl, hfree, hs⟩)
    · exact Or.inl hs
  | update id expected next =>
    obtain ⟨p, hp, -, -, hs⟩ | ⟨-, -, hs⟩ | ⟨-, -, hs⟩ := answer_update h
    · exact Or.inr (Or.inr ⟨id, p, next, hp, hs⟩)
    · exact Or.inl hs
    · exact Or.inl hs
  | recordVote id voter =>
    obtain ⟨p, round, since, votes, hp, -, -, -, hs⟩ | ⟨-, hs⟩ := answer_recordVote h
    · exact Or.inr (Or.inr ⟨id, p, _, hp, hs⟩)
    · exact Or.inl hs

end Store

end Reveille.Poll
