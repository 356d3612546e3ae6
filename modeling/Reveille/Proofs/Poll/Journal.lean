import Reveille.Proofs.Poll.Book
import Reveille.Proofs.Poll.Punctual

/-!
# Events are a journal of the store

In a `World.Shared` run any number of runners, receivers and callers share one store and one bus.  Polls
are put into the store at any time, calls of partners begin at any time, anybody who can make a step may
make the next one, and time and the clocks go on as they like.

Every step keeps the book and leaves everybody in a candid routine (`Keeping.step`), and so the events
that are committed are a journal of what happens to the store (`World.Shared.journal`).
-/

namespace Reveille.Poll

open Program Reveille.System

variable {Sink : Type} {X : Signature} {σ : Type} {W : World Sink X σ}
  {s₀ s s' s₁ : System (place Sink X σ)} {τ : List (Label (place Sink X σ))} {a : Actor}
  {q : System.Request (place Sink X σ)} {o : Option Event}

/-! ### One step -/

theorem news_of_perform {reply : q.Reply} (answer : s.perform W.cast a q = some (.reply reply, s₁))
    (permits : Permits o q) : News ⟨q, reply⟩ s.state.1 s₁.state.1 := by
  cases q with
  | call q =>
    cases q with
    | inl q =>
      cases answer
      exact News.of_answer rfl permits.2
    | inr q =>
      simp only [perform, World.cast, Option.map_map, Option.map_eq_some_iff] at answer
      obtain ⟨_, -, heq⟩ := answer
      cases heq
      exact .still rfl
  | _ =>
    rw [state_of_perform answer fun _ h => by cases h]
    exact .still rfl

theorem state_of_panicked {p : Panic} (answer : s.perform W.cast a q = some (.panicked p, s₁)) :
    s₁.state = s.state := by
  cases q with
  | call q =>
    cases q with
    | inl q => cases answer
    | inr q =>
      simp only [perform, World.cast, Option.map_map, Option.map_eq_some_iff] at answer
      obtain ⟨_, -, heq⟩ := answer
      cases heq
  | _ => exact state_of_perform answer fun _ h => by cases h

theorem eq_none_of_panics (panics : q.Panics) (permits : Permits o q) : o = none := by
  cases q with
  | panic p => exact permits
  | release i => exact permits
  | call q =>
    cases q with
    | inl q => exact permits.1
    | inr q => exact permits
  | _ => exact False.elim panics

structure Keeping (τ : List (Label (place Sink X σ))) (s : System (place Sink X σ)) : Prop where
  book : Book τ s
  streaming : AllStreaming s
  owing : ∀ a, s.residual a = none → owed a τ = none
  candid : ∀ a r, s.residual a = some r → Candid (owed a τ) r

namespace Keeping

theorem doing (h : Keeping τ s) (cooperative : W.Cooperative) {r : Routine (place Sink X σ) Unit}
    (doing : Doing W.cast s a r) : Candid (owed a τ) r := by
  rcases doing with hr | ⟨hnone, fresh⟩
  · exact h.candid a r hr
  · rw [h.owing a hnone]
    cases a with
    | worker =>
      obtain ⟨-, r', hsource, rfl⟩ := fresh
      exact (candid_worker cooperative hsource).forget
    | runner i =>
      obtain ⟨t, r', ht, -, hsource, rfl⟩ := fresh
      exact (candid_runner hsource (h.streaming i t ht).reads.asks).forget
    | call i => exact fresh.elim

theorem alone {τ' : List (Label (place Sink X σ))} (h : Keeping τ s) (book : Book τ' s')
    (streaming : AllStreaming s')
    (others : ∀ b, b ≠ a → s'.residual b = s.residual b ∧ owed b τ' = owed b τ)
    (owing : s'.residual a = none → owed a τ' = none)
    (candid : ∀ r, s'.residual a = some r → Candid (owed a τ') r) : Keeping τ' s' := by
  refine ⟨book, streaming, fun b hb => ?_, fun b r hr => ?_⟩
  · by_cases hba : b = a
    · subst hba
      exact owing hb
    · obtain ⟨hresidual, howed⟩ := others b hba
      rw [howed]
      exact h.owing b (hresidual ▸ hb)
  · by_cases hba : b = a
    · subst hba
      exact candid r hr
    · obtain ⟨hresidual, howed⟩ := others b hba
      rw [howed]
      exact h.candid b r (hresidual ▸ hr)

/-- The actor owes nothing, and nothing was answered. -/
theorem unasked {worked : Option (Exchange (Bus.Worker.requests (Receiver (place Sink X σ)) Event))}
    (h : Keeping τ s) (streaming : AllStreaming s') (narrowed : Narrowed s.channel s'.channel)
    (state : s'.state = s.state) (nothing : owed a τ = none)
    (residual : s'.residual a = none ∨ s'.residual a = s.residual a)
    (others : ∀ b, b ≠ a → s'.residual b = s.residual b) :
    Keeping (τ ++ [.moved a none worked]) s' := by
  have book : Book τ s' := h.book.mono narrowed fun e he => state ▸ he
  have howed (b : Actor) : owed b (τ ++ [.moved a none worked]) = owed b τ := owed_quiet rfl
  refine h.alone (book.quiet rfl) streaming (fun b hb => ⟨others b hb, howed b⟩)
    (fun _ => (howed a).trans nothing) fun r hr => ?_
  rw [howed]
  rcases residual with hnone | hsame
  · exact nomatch hnone.symm.trans hr
  · exact h.candid a r (hsame ▸ hr)

theorem step (h : Keeping τ s) (cooperative : W.Cooperative) (step : s.step W.cast a = some s') :
    Keeping (τ ++ [s.label W.cast a]) s' := by
  have streaming := streaming_step h.streaming World.onDuty step
  obtain ⟨asked, worked, hlabel, stride⟩ := stride_of_step step
  rw [hlabel]
  cases stride with
  | @asked q rest reply s₁ _ doing answer channel state residual others =>
    obtain ⟨permits, next⟩ := h.doing cooperative doing
    have narrowed := narrowed_of_perform answer
    have news := news_of_perform answer permits
    have turned := shut_of_turnsAway (passage_of_perform answer)
    rw [← channel] at narrowed turned
    rw [← state] at news
    refine h.alone (h.book.answered (entry_of_permits permits reply) narrowed news turned) streaming
      (fun b hb => ⟨others b hb, ?_⟩) (fun hnone => ?_) fun r hr => ?_
    · rw [owed_concat, if_neg fun h => hb h.symm]
    · exact nomatch residual.symm.trans hnone
    · obtain rfl := Option.some.inj (residual.symm.trans hr)
      rw [owed_concat, if_pos rfl]
      exact next reply
  | panicked doing answer narrowed state residual others =>
    have permits := (h.doing cooperative doing).1
    have nothing := eq_none_of_panics (channel_of_panicked answer).1 permits
    exact h.unasked streaming narrowed (state.trans (state_of_panicked answer)) nothing residual others
  | ended before narrowed state residual others =>
    refine h.unasked streaming narrowed state ?_ (Or.inl residual) others
    cases hr : s.residual a with
    | none => exact h.owing a hr
    | some r =>
      have hcandid := h.candid a r hr
      rw [before r hr] at hcandid
      exact hcandid
  | @cancelled i t actor runner aborted =>
    -- What it owes stays owed for good: nobody goes on with its routine.
    have book : Book τ (s.cancel i) := h.book.mono narrowed_cancel fun e he => he
    refine ⟨book.quiet rfl, streaming, fun b hb => ?_, fun b r hr => ?_⟩ <;>
      rw [owed_quiet rfl] <;> rw [residual_cancel] at *
    · exact h.owing b hb
    · exact h.candid b r hr

theorem call (h : Keeping τ s) {f : Activity (place Sink X σ) Unit} (partner : Partner f) :
    Keeping (τ ++ [.began f]) (s.start f) := by
  have book : Book τ (s.start f) := h.book.mono (Narrowed.refl _) fun e he => he
  have howed (b : Actor) : owed b (τ ++ [.began f]) = owed b τ := owed_quiet rfl
  refine ⟨book.quiet rfl, h.streaming, fun b hb => ?_, fun b r hr => ?_⟩
  · rw [howed]
    refine h.owing b ?_
    cases hr : s.residual b with
    | none => rfl
    | some r => exact nomatch (residual_of_start hr).symm.trans hb
  · rw [howed]
    rcases residual_start hr with hold | ⟨rfl, rfl⟩
    · exact h.candid b r hold
    · rw [h.owing _ residual_new]
      exact partner.candid.forget

/-- The world outside goes on, and nothing that the store shows is lost. -/
theorem outside (h : Keeping τ s) (elsewhere : Elsewhere s s')
    (shows : ∀ e, s.state.1.Shows e → s'.state.1.Shows e) : Keeping τ s' := by
  have hresidual (b : Actor) : s'.residual b = s.residual b := by
    cases b <;> simp only [System.residual, elsewhere.worker, elsewhere.runners, elsewhere.calls]
  refine ⟨h.book.mono (elsewhere.channel ▸ Narrowed.refl _) shows, ?_, fun b hb => ?_, fun b r hr => ?_⟩
  · exact fun i t ht => h.streaming i t (elsewhere.runners ▸ ht)
  · exact h.owing b (hresidual b ▸ hb)
  · exact h.candid b r (hresidual b ▸ hr)

end Keeping

/-! ### Runs -/

/-- A run of a world with any number of runners, receivers and callers from some state on, with the labels
of its steps. -/
inductive World.Shared (W : World Sink X σ) (s₀ : System (place Sink X σ)) :
    List (Label (place Sink X σ)) → System (place Sink X σ) → Prop
  | refl : Shared W s₀ [] s₀
  | step {τ : List (Label (place Sink X σ))} {s s' : System (place Sink X σ)} {a : Actor}
      (before : Shared W s₀ τ s) (h : s.step W.cast a = some s') :
      Shared W s₀ (τ ++ [s.label W.cast a]) s'
  | call {τ : List (Label (place Sink X σ))} {s : System (place Sink X σ)}
      {f : Activity (place Sink X σ) Unit} (before : Shared W s₀ τ s) (partner : Partner f) :
      Shared W s₀ (τ ++ [.began f]) (s.start f)
  | outside {τ : List (Label (place Sink X σ))} {s s' : System (place Sink X σ)}
      (before : Shared W s₀ τ s) (h : Elsewhere s s') (store : s'.state.1 = s.state.1) : Shared W s₀ τ s'
  | insert {τ : List (Label (place Sink X σ))} {s : System (place Sink X σ)} {p : Poll}
      (before : Shared W s₀ τ s) :
      Shared W s₀ τ { s with state := ((s.state.1.answer (.insert p)).2, s.state.2) }

theorem keeping_of_new (new : s.IsNew) : Keeping [] s := by
  have hresidual (a : Actor) : s.residual a = none := by
    cases a <;> simp only [System.residual, new.worker, new.runners, new.calls] <;> rfl
  refine ⟨⟨.nil, List.forall_mem_nil _, .nil, fun a => .refl _, fun _ _ a => rfl⟩, fun i t ht => ?_,
    fun a _ => rfl, fun a r hr => ?_⟩
  · rw [new.runners] at ht
    cases ht
  · rw [hresidual] at hr
    cases hr

theorem World.Shared.keeping (h : W.Shared s₀ τ s) (cooperative : W.Cooperative) (new : s₀.IsNew) :
    Keeping τ s := by
  induction h with
  | refl => exact keeping_of_new new
  | step before hs ih => exact ih.step cooperative hs
  | call before partner ih => exact ih.call partner
  | outside before elsewhere store ih => exact ih.outside elsewhere fun e he => store ▸ he
  | @insert τ s p before ih =>
    refine ih.outside ⟨rfl, rfl, rfl, rfl, rfl⟩ fun e he => ?_
    exact he.answer (q := .insert p) rfl trivial

/-- Events are a journal of what happens to the store. -/
structure Journal (W : World Sink X σ) (τ : List (Label (place Sink X σ)))
    (s : System (place Sink X σ)) : Prop where
  /-- A step leaves the store as it is, or it is a change, which does what its event says. -/
  faithful : ∀ a s', s.step W.cast a = some s' →
    changes (τ ++ [s.label W.cast a]) = changes τ ∧ s'.state.1 = s.state.1 ∨
      ∃ e, changes (τ ++ [s.label W.cast a]) = changes τ ++ [(a, e)] ∧ s.state.1.Happens e s'.state.1
  /-- No two changes have the same event. -/
  distinct : ((changes τ).map Prod.snd).Nodup
  /-- No event is committed twice. -/
  once : ((announced τ).map Prod.snd).Nodup
  /-- Everybody announces its own changes only, in their order. -/
  own : ∀ a, (ofActor a (announced τ)).Sublist (ofActor a (changes τ))
  /-- On an open bus everybody has announced all of its changes but the one that it still owes. -/
  complete : s.channel.accepting = true → s.channel.listening = true → ∀ a,
    ofActor a (changes τ) = ofActor a (announced τ) ++ (owed a τ).toList
  /-- Whoever owes an event is in a routine that does nothing else before it has sent it. -/
  sending : ∀ a e, owed a τ = some e → ∃ r, s.residual a = some r ∧ Candid (some e) r
  /-- The store shows whatever was announced. -/
  shown : ∀ x ∈ announced τ, s.state.1.Shows x.2

/-- Whatever happens to the store in a step is noted. -/
theorem Keeping.faithful (h : Keeping τ s) (cooperative : W.Cooperative)
    (step : s.step W.cast a = some s') :
    changes (τ ++ [s.label W.cast a]) = changes τ ∧ s'.state.1 = s.state.1 ∨
      ∃ e, changes (τ ++ [s.label W.cast a]) = changes τ ++ [(a, e)] ∧
        s.state.1.Happens e s'.state.1 := by
  obtain ⟨asked, worked, hlabel, stride⟩ := stride_of_step step
  rw [hlabel]
  cases stride with
  | asked doing answer channel state residual others =>
    rw [state]
    exact (news_of_perform answer (h.doing cooperative doing).1).concat
  | panicked doing answer narrowed state residual others =>
    exact Or.inl ⟨noted_quiet rfl, by rw [state, state_of_panicked answer]⟩
  | ended before narrowed state residual others => exact Or.inl ⟨noted_quiet rfl, by rw [state]⟩
  | cancelled actor runner aborted => exact Or.inl ⟨noted_quiet rfl, rfl⟩

/-- Events are a faithful journal of the store, whoever shares it, and in whatever order they go on. -/
theorem World.Shared.journal (h : W.Shared s₀ τ s) (cooperative : W.Cooperative) (new : s₀.IsNew) :
    Journal W τ s := by
  have keeping := h.keeping cooperative new
  have book := keeping.book
  refine ⟨fun a s' step => keeping.faithful cooperative step, book.news, book.once, fun a => ?_,
    book.complete, fun a e howed => ?_, fun x hx => ?_⟩
  · exact (List.sublist_append_left _ _).trans (book.sent a)
  · cases hr : s.residual a with
    | none => exact nomatch (keeping.owing a hr).symm.trans howed
    | some r => exact ⟨r, rfl, howed ▸ keeping.candid a r hr⟩
  · exact book.shown x (book.mem_changes hx)

/-! ### One poll that is started twice at once -/

/-- What is made to happen is one way to run. -/
theorem World.Shared.play (h : W.Shared s₀ τ s) (moves : List (System.Move (place Sink X σ)))
    (partners : ∀ f ∈ moves.filterMap Move.began?, Partner f) :
    W.Shared s₀ (τ ++ (s.play W.cast moves).1) (s.play W.cast moves).2 :=
  play_induction moves (fun f hf _ _ run => run.call (partners f hf))
    (fun run hs => run.step hs) h

namespace World

def errand {α : Type} (p : Procedure α) : Activity (place Empty ⟨Empty, nofun⟩ Unit) Unit :=
  (p.activity access .clock).bind fun _ => .done ()

/-- Two calls find that `lunch` is due to start, and one of them comes too late to replace its state.
A vote comes in, which is not announced yet. -/
def race : List (System.Move (place Empty ⟨Empty, nofun⟩ Unit)) :=
  [.begin (errand (Duty.start.process ⟨1⟩)), .begin (errand (Duty.start.process ⟨1⟩)),
    .begin (errand (castVote ⟨1⟩ "ann"))] ++
  [(2, .call 0), (3, .call 1), (1, .call 0), (2, .call 2), (6, .call 0), (6, .call 1)].flatMap
    fun (n, a) => turns n a

theorem journal_race :
    changes (dawn.play lonely.cast race).1 =
      [(.call 1, .started ⟨1⟩ 1), (.call 2, .voteCast ⟨1⟩ 1 "ann")] ∧
    announced (dawn.play lonely.cast race).1 = [(.call 1, .started ⟨1⟩ 1)] ∧
    (dawn.play lonely.cast race).2.state.1.Shows (.started ⟨1⟩ 1) ∧
    ofActor (.call 2) (changes (dawn.play lonely.cast race).1) =
      ofActor (.call 2) (announced (dawn.play lonely.cast race).1) ++
        (owed (.call 2) (dawn.play lonely.cast race).1).toList := by
  have new : dawn.IsNew := ⟨⟨16, rfl⟩, rfl, rfl, rfl⟩
  have partners : ∀ f ∈ race.filterMap Move.began?, Partner f := by
    rintro f (_ | ⟨_, _ | ⟨_, _ | ⟨_, hf⟩⟩⟩)
    · exact .process fun _ => .done ()
    · exact .process fun _ => .done ()
    · exact .vote fun _ => .done ()
    · cases hf
  have run : lonely.Shared dawn (dawn.play lonely.cast race).1 (dawn.play lonely.cast race).2 := by
    simpa only [List.nil_append] using Shared.refl.play race partners
  have sent : announced (dawn.play lonely.cast race).1 = [(.call 1, .started ⟨1⟩ 1)] := by decide +kernel
  have journal := Shared.journal run nofun new
  refine ⟨by decide +kernel, sent, journal.shown (.call 1, .started ⟨1⟩ 1) ?_, ?_⟩
  · rw [sent]
    exact List.mem_singleton.mpr rfl
  · exact journal.complete (by decide +kernel) (by decide +kernel) (.call 2)

end World

end Reveille.Poll
