import Reveille.Proofs.Poll.Debt
import Reveille.Proofs.Poll.Table

/-!
# What a caller learns

To create a poll and to cast a vote are done in the same way: the store is asked for a change, and if it agrees
the event of the change is published (`published`).  So whoever made such a call was told one of three things, and
its result says which (`Published`).

What the store answers at the moment when it is asked settles whether the call is refused.  The event of a change
is committed once if the call succeeds, and never if it was turned away from the bus.  So the result tells what
was changed (`Receipt`), whoever else goes on in the meantime (`World.Shared.receipts`).
-/

namespace Reveille.Poll

open Program Procedure Reveille.System Bus.Worker

variable {Sink : Type} {X : Signature} {σ α : Type} {W : World Sink X σ}
  {s₀ s : System (place Sink X σ)} {a : Actor}

/-! ### What the caller is told -/

/-- Goes on from the reply of the store: publishes the event of the change, if there is one. -/
def published (e : α → Event) : Except StoreError α → Procedure (Except PollError α)
  | .error cause => .done (.error (.store cause))
  | .ok a => (query (.publish (e a))).bind fun (sent : Except BusError Unit) =>
    match sent with
    | .error cause => .done (.error (.bus cause))
    | .ok () => .done (.ok a)

theorem createPoll_eq {p : Poll} :
    createPoll p = (fromStore (.insert p)).bind (published fun _ => .created p.id) := by
  refine congrArg (Program.ask _) (funext fun (reply : Except StoreError Unit) => ?_)
  cases reply with
  | error e => rfl
  | ok u => exact congrArg (Program.ask _) (funext fun (sent : Except BusError Unit) => by cases sent <;> rfl)

theorem castVote_eq {id : Id} {voter : String} : castVote id voter =
    (fromStore (.recordVote id voter)).bind (published fun round => .voteCast id round voter) := by
  refine congrArg (Program.ask _) (funext fun (reply : Except StoreError UInt32) => ?_)
  cases reply with
  | error e => rfl
  | ok round =>
    exact congrArg (Program.ask _) (funext fun (sent : Except BusError Unit) => by cases sent <;> rfl)

inductive Published (e : α → Event) :
    Except StoreError α → List (Exchange (place Sink X σ).requests) → Except PollError α → Prop
  | refused {cause : StoreError} : Published e (.error cause) [] (.error (.store cause))
  | lost {a : α} {ys : List (Exchange (place Sink X σ).requests)}
      (away : ys ∈ Routine.turnedAway (.event (e a))) : Published e (.ok a) ys (.error (.bus .closed))
  | sent {a : α} : Published e (.ok a) (Routine.passed (.event (e a))) (.ok a)

theorem published_of_path {e : α → Event} {reply : Except StoreError α} {r : Except PollError α}
    {ys : List (Exchange (place Sink X σ).requests)} (path : Path (published e reply).routine ys (.done r)) :
    Published e reply ys r := by
  cases reply with
  | error cause =>
    obtain ⟨rfl, hr⟩ := Path.of_done path
    cases hr
    exact .refused
  | ok a =>
    rcases Path.of_bind (p := Routine.enqueue (D := place Sink X σ) (.event (e a))) path with
      ⟨q, rest, -, hdone⟩ | ⟨sent, us, vs, rfl, sends, ends⟩
    · cases hdone
    rcases Routine.enqueue_told sends with ⟨rfl, rfl⟩ | ⟨rfl, away⟩
    · obtain ⟨rfl, hr⟩ := Path.of_done ends
      cases hr
      rw [List.append_nil]
      exact .sent
    · obtain ⟨rfl, hr⟩ := Path.of_done ends
      cases hr
      rw [List.append_nil]
      exact .lost away

/-! ### What the result tells -/

variable {τ σ₁ : List (Label (place Sink X σ))} {xs ys zs : List (Exchange (place Sink X σ).requests)}
  {q : Store.Request} {reply : q.Reply} {m m' : System (place Sink X σ)}

/-- The result `r` of a call tells what the call changed.  The store was asked between `m` and `m'`, after `σ₁`,
and the caller was told `xs`; `refuses` says when the store refuses the call, and `makes` what it makes of the
store otherwise. -/
structure Receipt (refuses : StoreError → Prop) (makes : α → Prop) (e : α → Event)
    (τ σ₁ : List (Label (place Sink X σ))) (s m m' : System (place Sink X σ))
    (xs : List (Exchange (place Sink X σ).requests)) (r : Except PollError α) : Prop where
  outcome : (∃ cause, r = .error (.store cause)) ∨ r = .error (.bus .closed) ∨ ∃ a, r = .ok a
  refused : ∀ cause, r = .error (.store cause) ↔ refuses cause
  /-- A call that is refused changes no poll, and asks for nothing more. -/
  unchanged : ∀ cause, r = .error (.store cause) → m'.state.1 = m.state.1 ∧ xs.length = 1
  lost : r = .error (.bus .closed) ↔ ∃ a, makes a ∧ announcements (e a) τ = 0
  sent : ∀ a, r = .ok a ↔ makes a ∧ announcements (e a) τ = 1
  /-- The event was not committed before the change. -/
  later : ∀ a, makes a → announcements (e a) σ₁ = 0
  /-- The change is not undone. -/
  lasts : ∀ a, makes a → s.state.1.Shows (e a)
  /-- What the call commits is the event of a success. -/
  own : xs.filterMap committed? = match r with
    | .ok a => [.event (e a)]
    | .error _ => []

variable {refuses : StoreError → Prop} {makes : α → Prop} {event : α → Event} {r : Except PollError α}

theorem receipt_of_published (h : W.Shared s₀ τ s) (cooperative : W.Cooperative) (new : s₀.IsNew)
    (moment : Moment W s₀ τ s a q reply σ₁ m m') (steps : q.Steps) (free : zs.foldl owes none = none)
    (hzs : told a σ₁ = zs) (htold : told a τ = zs ++ (⟨.call (.inl q), reply⟩ :: xs) ++ ys)
    {result : Except StoreError α} (published : Published event result xs r)
    (refusal : ∀ cause, result = .error cause ↔ refuses cause) (change : ∀ a, result = .ok a ↔ makes a)
    (same : ∀ cause, result = .error cause → m'.state.1 = m.state.1)
    (news : ∀ a, result = .ok a → q.news? reply = some (event a)) :
    Receipt refuses makes event τ σ₁ s m m' (⟨.call (.inl q), reply⟩ :: xs) r := by
  obtain rfl : refuses = fun cause => result = .error cause := funext fun cause => propext (refusal cause).symm
  obtain rfl : makes = fun a => result = .ok a := funext fun a => propext (change a).symm
  have shows (a : α) (made : result = .ok a) :=
    h.shows_of_news cooperative new moment steps (news a made)
  have later (a : α) (made : result = .ok a) : announcements (event a) σ₁ = 0 :=
    List.count_eq_zero.mpr (shows a made).2.2
  have lasts (a : α) (made : result = .ok a) := (shows a made).2.1
  cases published with
  | @refused cause =>
    refine ⟨Or.inl ⟨cause, rfl⟩, ?_, fun _ _ => ⟨same cause rfl, rfl⟩, ?_, ?_, later, lasts, rfl⟩
    · simp
    · simp
    · simp
  | @lost b _ away =>
    have never := h.never_announced cooperative new free hzs (later b rfl) htold (news b rfl) away
    refine ⟨Or.inr (Or.inl rfl), ?_, nofun, ?_, ?_, later, lasts, ?_⟩
    · simp
    · simp [never]
    · rintro a
      simp only [reduceCtorEq, false_iff, not_and, Except.ok.injEq]
      rintro rfl
      omega
    · rw [List.filterMap_cons_none rfl]
      rcases away with _ | ⟨_, _ | ⟨_, _ | ⟨_, ⟨⟩⟩⟩⟩ <;> rfl
  | @sent b =>
    have hmem : (⟨.commit (.event (event b)), true⟩ : Exchange (place Sink X σ).requests) ∈ told a τ := by
      rw [htold]
      simp [Routine.passed]
    have once : announcements (event b) τ = 1 := h.announced_once cooperative new hmem rfl
    refine ⟨Or.inr (Or.inr ⟨b, rfl⟩), ?_, nofun, ?_, ?_, later, lasts, rfl⟩
    · simp
    · simp [once]
    · intro a
      simp only [Except.ok.injEq, iff_self_and]
      rintro rfl
      exact once

/-! ### The two calls -/

namespace Store

variable {t t' : Store} {p : Poll} {id : Id} {voter : String} {round : UInt32} {cause : StoreError}

def Inserts (p : Poll) (t t' : Store) : Prop :=
  t.find? p.id = none ∧ ∀ id, t'.find? id = if id = p.id then some p else t.find? id

/-- The vote was added to those of the round that was open, and nothing else was changed. -/
def Counts (id : Id) (voter : String) (t t' : Store) (round : UInt32) : Prop :=
  ∃ p since votes, t.find? id = some p ∧ p.state = .opened round since votes ∧ voter ∉ votes ∧
    ∀ id', t'.find? id' =
      if id' = id then some { p with state := .opened round since (votes.insert voter) } else t.find? id'

inductive Rejects (t : Store) (id : Id) (voter : String) : StoreError → Prop
  | notFound (free : t.find? id = none) : Rejects t id voter (.notFound id)
  | notOpen {p : Poll} (stored : t.find? id = some p)
      (other : ∀ round since votes, p.state ≠ .opened round since votes) : Rejects t id voter (.notOpen id)
  | duplicate {p : Poll} {round : UInt32} {since : Instant} {votes : Voters} (stored : t.find? id = some p)
      (opened : p.state = .opened round since votes) (old : voter ∈ votes) :
      Rejects t id voter (.duplicateVote id round voter)

theorem insert_refused_iff {reply : Except StoreError Unit} (h : t.answer (.insert p) = (reply, t')) :
    reply = .error cause ↔ (∃ q, t.find? p.id = some q) ∧ cause = .conflict p.id := by
  obtain ⟨hfree, rfl, -⟩ | ⟨htaken, rfl, -⟩ := answer_insert h
  · simp [hfree]
  · rw [and_iff_right htaken, Except.error.injEq, eq_comm]

theorem insert_ok_iff {reply : Except StoreError Unit} {u : Unit} (h : t.answer (.insert p) = (reply, t')) :
    reply = .ok u ↔ Inserts p t t' := by
  obtain ⟨hfree, rfl, hs⟩ | ⟨⟨q, htaken⟩, rfl, -⟩ := answer_insert h
  · simp [Inserts, hfree, hs]
  · simp [Inserts, htaken]

theorem recordVote_refused_iff {reply : Except StoreError UInt32}
    (h : t.answer (.recordVote id voter) = (reply, t')) : reply = .error cause ↔ Rejects t id voter cause := by
  have hreply : (t.answer (.recordVote id voter)).1 = reply := by rw [h]
  constructor
  · rintro rfl
    obtain ⟨t₁, -, hserves⟩ := serves_of_reply hreply
    cases hserves with
    | again stored opened old => exact .duplicate stored opened old
    | shut stored other => exact .notOpen stored other
    | unknown free => exact .notFound free
  · intro hrejects
    rw [← hreply]
    cases hrejects with
    | notFound free => simp only [answer, recordVote, free, settled]
    | duplicate stored opened old => simp only [answer, recordVote, stored, opened, old, if_true, settled]
    | @notOpen p stored other =>
      cases hstate : p.state with
      | opened round since votes => exact absurd hstate (other round since votes)
      | scheduled => simp only [answer, recordVote, stored, hstate, settled]
      | closed time rounds => simp only [answer, recordVote, stored, hstate, settled]

theorem recordVote_ok_iff {reply : Except StoreError UInt32}
    (h : t.answer (.recordVote id voter) = (reply, t')) : reply = .ok round ↔ Counts id voter t t' round := by
  constructor
  · rintro rfl
    obtain ⟨p, round', since, votes, stored, opened, hnew, hreply, hs⟩ | ⟨⟨e, hreply⟩, -⟩ := answer_recordVote h
    · cases hreply
      exact ⟨p, since, votes, stored, opened, hnew, hs⟩
    · cases hreply
  · rintro ⟨p, since, votes, stored, opened, hnew, -⟩
    have hreply : reply = (t.answer (.recordVote id voter)).1 := by rw [h]
    rw [hreply]
    simp only [answer, recordVote, stored, opened, hnew, if_false, settled]

end Store

/-! ### From the call to its result -/

/-- What is known of a call that was told `xs` after `zs`, and came back with `r`. -/
def Discloses (W : World Sink X σ) (s₀ : System (place Sink X σ)) (τ : List (Label (place Sink X σ)))
    (s : System (place Sink X σ)) (a : Actor) (zs xs : List (Exchange (place Sink X σ).requests))
    (q : Store.Request) (refuses : Store → StoreError → Prop) (makes : Store → Store → α → Prop)
    (event : α → Event) (r : Except PollError α) : Prop :=
  ∃ reply σ₁ m m', told a σ₁ = zs ∧ Moment W s₀ τ s a q reply σ₁ m m' ∧
    Receipt (refuses m.state.1) (makes m.state.1 m'.state.1) event τ σ₁ s m m' xs r

theorem told_of_asking {f : q.Reply → Procedure α} {r : α}
    (path : Path (Procedure.routine ((fromStore q).bind f)) xs (.done r)) :
    ∃ (reply : q.Reply) (ys : List (Exchange (place Sink X σ).requests)), xs = ⟨.call (.inl q), reply⟩ :: ys ∧
      Path (f reply).routine ys (.done r) := by
  rcases path.of_ask with ⟨-, hdone⟩ | ⟨reply, ys, rfl, rest⟩
  · cases hdone
  · exact ⟨reply, ys, rfl, rest⟩

section
variable {heard : q.Reply → Except StoreError α} {refuses : Store → StoreError → Prop}
  {makes : Store → Store → α → Prop}

theorem discloses_of_path (h : W.Shared s₀ τ s) (cooperative : W.Cooperative) (new : s₀.IsNew)
    (htold : told a τ = zs ++ xs ++ ys)
    (path : Path (Procedure.routine ((fromStore q).bind fun reply => published event (heard reply))) xs (.done r))
    (refusal : ∀ t t' reply cause, t.answer q = (reply, t') → (heard reply = .error cause ↔ refuses t cause))
    (change : ∀ t t' reply a, t.answer q = (reply, t') → (heard reply = .ok a ↔ makes t t' a))
    (refused : ∀ reply cause, heard reply = .error cause → q.isRefused reply = true)
    (news : ∀ reply a, heard reply = .ok a → q.news? reply = some (event a)) :
    Discloses W s₀ τ s a zs xs q refuses makes event r := by
  obtain ⟨reply, us, rfl, rest⟩ := told_of_asking path
  obtain ⟨σ₁, m, m', hzs, free, steps, moment⟩ := h.moment cooperative new (by simpa using htold)
  refine ⟨reply, σ₁, m, m', hzs, moment, ?_⟩
  refine receipt_of_published h cooperative new moment steps free hzs htold (published_of_path rest)
    (fun cause => refusal _ _ _ cause moment.answer) (fun a => change _ _ _ a moment.answer) ?_ (news reply)
  intro cause hcause
  have hsame := Store.answer_refused (s := m.state.1) (q := q)
  rw [moment.answer] at hsame
  exact hsame (refused reply cause hcause)

end

theorem discloses_of_createPoll (h : W.Shared s₀ τ s) (cooperative : W.Cooperative) (new : s₀.IsNew) {p : Poll}
    {r : Except PollError Unit} (htold : told a τ = zs ++ xs ++ ys)
    (path : Path (createPoll p).routine xs (.done r)) :
    Discloses W s₀ τ s a zs xs (.insert p)
      (fun t cause => (∃ q, t.find? p.id = some q) ∧ cause = .conflict p.id)
      (fun t t' _ => Store.Inserts p t t') (fun _ => .created p.id) r := by
  rw [createPoll_eq] at path
  refine discloses_of_path h cooperative new htold path ?_ ?_ ?_ ?_
  · exact fun t t' reply cause answer => Store.insert_refused_iff answer
  · exact fun t t' reply u answer => Store.insert_ok_iff answer
  · rintro reply cause rfl
    rfl
  · rintro reply u rfl
    rfl

theorem discloses_of_castVote (h : W.Shared s₀ τ s) (cooperative : W.Cooperative) (new : s₀.IsNew) {id : Id}
    {voter : String} {r : Except PollError UInt32} (htold : told a τ = zs ++ xs ++ ys)
    (path : Path (castVote id voter).routine xs (.done r)) :
    Discloses W s₀ τ s a zs xs (.recordVote id voter) (fun t cause => Store.Rejects t id voter cause)
      (Store.Counts id voter) (fun round => .voteCast id round voter) r := by
  rw [castVote_eq] at path
  refine discloses_of_path h cooperative new htold path ?_ ?_ ?_ ?_
  · exact fun t t' reply cause answer => Store.recordVote_refused_iff answer
  · exact fun t t' reply round answer => Store.recordVote_ok_iff answer
  · rintro reply cause rfl
    rfl
  · rintro reply round rfl
    rfl

/-! ### From the beginning of a call to its end -/

def ComesBack (W : World Sink X σ) (s₀ : System (place Sink X σ)) (τ : List (Label (place Sink X σ)))
    (s : System (place Sink X σ)) (P : Procedure α) : Prop :=
  ∀ τ₁ s₁ τ₂ k (g : α → Routine (place Sink X σ) Unit), τ = τ₁ ++ τ₂ → W.Shared s₀ τ₁ s₁ → W.Shared s₁ τ₂ s →
    s₁.calls[k]? = some (.running (P.routine.bind g)) →
    ∃ xs ys r, told (.call k) τ = told (.call k) τ₁ ++ xs ++ ys ∧ Path P.routine xs (.done r)

theorem asks_of_published {result : Except StoreError α} {q : System.Request (place Sink X σ)}
    {rest : q.Reply → Routine (place Sink X σ) (Except PollError α)}
    (path : Path (published event result).routine xs (.ask q rest)) : q.Offhand ∨ q = .awaitSlot := by
  cases result with
  | error cause => cases (Path.of_done path).2
  | ok a =>
    rcases Path.of_bind (p := Routine.enqueue (D := place Sink X σ) (.event (event a))) path with
      ⟨q', rest', sends, hask⟩ | ⟨sent, us, vs, -, -, ends⟩
    · cases hask
      have sending : Sending (.send (event a)) _ _ _ := sending_enqueue sends
      cases sending with
      | underway asks nothing => exact asks
    · cases sent with
      | ok u => cases (Path.of_done ends).2
      | error cause => cases (Path.of_done ends).2

/-- In a settled system where no receiver is at work nobody is on its way to publish something. -/
theorem comesBack_of_published (h : W.Shared s₀ τ s) (new : s₀.IsNew) (settled : s.isSettled W.cast = true)
    (between : s.worker.machine.phase.isCalling = false) (composed : (worked τ).all isComposed = true)
    {heard : q.Reply → Except StoreError α} :
    ComesBack W s₀ τ s ((fromStore q).bind fun reply => published event (heard reply)) := by
  rintro τ₁ s₁ τ₂ k g rfl before after about
  rcases after.run.underway about with ⟨xs, ys, r, htold, path⟩ | ⟨q', rest, path, waits⟩
  · refine ⟨xs, ys, r, ?_, path⟩
    rw [told_append, htold, List.append_assoc]
  exfalso
  have whole := (before.run.trans after.run)
  have stuck := isSettled_iff.mp settled
  rcases path.of_ask with ⟨hnil, hask⟩ | ⟨reply, ys, hcons, rest'⟩
  · cases hask
    rcases waits with ⟨-, p, ended⟩ | task
    · obtain ⟨m, m', q'', rest'', -, path', answer⟩ := after.run.panicked about ended
      cases path'.functional path.bind
      cases answer
    · have answer : s.perform W.cast (.call k) (.call (.inl q)) =
          some (.reply (s.state.1.answer q).1, { s with state := ((s.state.1.answer q).2, s.state.2) }) := rfl
      exact step_of_answer task answer (stuck _)
  · have task (quiet : ¬q'.Panics) := waits.resolve_left fun h => quiet h.1
    rcases asks_of_published rest' with offhand | rfl
    · obtain ⟨reply', s', answer⟩ := perform_of_offhand (c := W.cast) (s := s) (a := .call k) offhand
      exact step_of_answer (task offhand.not_panics) answer (stuck _)
    · have hactive : s.active (.call k) = some (.ask .awaitSlot fun reply => ((rest reply).bind g).forget) :=
        residual_call (task fun h => h)
      exact (whole.crossing new).no_awaitSlot (whole.account new) (whole.gate new composed) stuck between hactive

structure Receipts (W : World Sink X σ) (s₀ : System (place Sink X σ)) (τ : List (Label (place Sink X σ)))
    (s : System (place Sink X σ)) : Prop where
  created : ∀ a p zs xs ys r, told a τ = zs ++ xs ++ ys → Path (createPoll p).routine xs (.done r) →
    Discloses W s₀ τ s a zs xs (.insert p) (fun t cause => (∃ q, t.find? p.id = some q) ∧ cause = .conflict p.id)
      (fun t t' _ => Store.Inserts p t t') (fun _ => .created p.id) r
  voted : ∀ a id voter zs xs ys r, told a τ = zs ++ xs ++ ys → Path (castVote id voter).routine xs (.done r) →
    Discloses W s₀ τ s a zs xs (.recordVote id voter) (fun t cause => Store.Rejects t id voter cause)
      (Store.Counts id voter) (fun round => .voteCast id round voter) r
  /-- Calls have come back when nobody can go on and no receiver is at work. -/
  returns : s.isSettled W.cast = true → s.worker.machine.phase.isCalling = false →
    (worked τ).all isComposed = true →
    (∀ p, ComesBack W s₀ τ s (createPoll p)) ∧ ∀ id voter, ComesBack W s₀ τ s (castVote id voter)

/-- Whatever is in the store, and whoever goes on in the meantime or closes the bus: the result of a call that
creates a poll or casts a vote tells exactly what the call changed, and what was announced of it. -/
theorem World.Shared.receipts (h : W.Shared s₀ τ s) (cooperative : W.Cooperative) (new : s₀.IsNew) :
    Receipts W s₀ τ s := by
  refine ⟨fun a p zs xs ys r htold path => discloses_of_createPoll h cooperative new htold path,
    fun a id voter zs xs ys r htold path => discloses_of_castVote h cooperative new htold path,
    fun settled between composed => ⟨fun p => ?_, fun id voter => ?_⟩⟩
  · rw [createPoll_eq]
    exact comesBack_of_published h new settled between composed
  · rw [castVote_eq]
    exact comesBack_of_published h new settled between composed

/-! ### A vote that is announced late, and a poll that is not announced -/

namespace World

def dinner : Poll := Poll.create ⟨2⟩ "dinner" .epoch

def shutDown : Activity (place Empty ⟨Empty, nofun⟩ Unit) Unit := Activity.closeBus.bind fun _ => .done ()

/-- A vote is recorded in the first round of `lunch`, which is over before the vote is announced.  Then `lunch` is
to be created again, the bus is closed, and `dinner` is created. -/
def longDay : List (System.Move (place Empty ⟨Empty, nofun⟩ Unit)) :=
  [.begin (errand (Duty.start.process ⟨1⟩)), .begin (errand (castVote ⟨1⟩ "ann")),
    .begin (errand (Duty.advance.process ⟨1⟩)), .begin (errand (createPoll Pool.lunch)), .begin shutDown,
    .begin (errand (createPoll dinner))] ++
  [(9, .call 0), (1, .call 1), (9, .call 2), (9, .call 1), (9, .call 3), (1, .call 4), (9, .call 5)].flatMap
    fun (n, a) => turns n a

abbrev night : List (Label (place Empty ⟨Empty, nofun⟩ Unit)) × System (place Empty ⟨Empty, nofun⟩ Unit) :=
  dawn.play lonely.cast longDay

theorem voted_night : Path (castVote ⟨1⟩ "ann").routine (told (.call 1) night.1) (.done (.ok 1)) := by
  have htold : told (.call 1) night.1 = ⟨.call (.inl (.recordVote ⟨1⟩ "ann")), .ok 1⟩ ::
      Routine.passed (D := place Empty ⟨Empty, nofun⟩ Unit) (.event (.voteCast ⟨1⟩ 1 "ann")) := rfl
  rw [htold]
  exact .step (.step (.step (.step (.step (.refl _)))))

theorem refused_night : Path (createPoll Pool.lunch).routine (told (.call 3) night.1)
    (.done (.error (.store (.conflict ⟨1⟩)))) := by
  have htold : told (.call 3) night.1 = [⟨.call (.inl (.insert Pool.lunch)), .error (.conflict ⟨1⟩)⟩] := rfl
  rw [htold]
  exact .step (.refl _)

theorem lost_night : Path (createPoll dinner).routine (told (.call 5) night.1)
    (.done (.error (.bus .closed))) := by
  have htold : told (.call 5) night.1 =
      [⟨.call (.inl (.insert dinner)), .ok ()⟩, ⟨.enter, false⟩] := rfl
  rw [htold]
  exact .step (.step (.refl _))

theorem receipts_night :
    announced night.1 = [(.call 0, .started ⟨1⟩ 1), (.call 2, .roundAdvanced ⟨1⟩ 2),
      (.call 1, .voteCast ⟨1⟩ 1 "ann")] ∧
    announcements (.voteCast ⟨1⟩ 1 "ann") night.1 = 1 ∧ night.2.state.1.Shows (.voteCast ⟨1⟩ 1 "ann") ∧
    (told (.call 3) night.1).length = 1 ∧
    announcements (.created ⟨2⟩) night.1 = 0 ∧ night.2.state.1.Shows (.created ⟨2⟩) := by
  have new : dawn.IsNew := ⟨⟨16, rfl⟩, rfl, rfl, rfl⟩
  have partners : ∀ f ∈ longDay.filterMap Move.began?, Partner f := by
    rintro f (_ | ⟨_, _ | ⟨_, _ | ⟨_, _ | ⟨_, _ | ⟨_, _ | ⟨_, hf⟩⟩⟩⟩⟩⟩)
    · exact .process fun _ => .done ()
    · exact .vote fun _ => .done ()
    · exact .process fun _ => .done ()
    · exact .create fun _ => .done ()
    · exact .effect (e := .closeBus) trivial fun _ => .done ()
    · exact .create fun _ => .done ()
    · cases hf
  have run : lonely.Shared dawn night.1 night.2 := by
    simpa only [List.nil_append] using Shared.refl.play longDay partners
  have receipts := World.Shared.receipts run nofun new
  have whole (a : Actor) : told a night.1 = [] ++ told a night.1 ++ [] := (List.append_nil _).symm
  obtain ⟨_, _, _, _, -, -, voted⟩ := receipts.voted _ _ _ _ _ _ _ (whole (.call 1)) voted_night
  obtain ⟨_, _, _, _, -, -, refused⟩ := receipts.created _ _ _ _ _ _ (whole (.call 3)) refused_night
  obtain ⟨_, _, _, _, -, -, lost⟩ := receipts.created _ _ _ _ _ _ (whole (.call 5)) lost_night
  obtain ⟨counts, once⟩ := (voted.sent 1).mp rfl
  obtain ⟨_, inserts, never⟩ := lost.lost.mp rfl
  exact ⟨by decide +kernel, once, voted.lasts 1 counts, (refused.unchanged _ rfl).2, never,
    lost.lasts () inserts⟩

end World

end Reveille.Poll
