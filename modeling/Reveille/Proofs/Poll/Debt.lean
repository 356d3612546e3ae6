import Reveille.Proofs.Poll.Journal
import Reveille.Proofs.System.Starting

/-!
# Changes that are never announced

An actor asks the store at one moment of a run (`Moment`).  A change that it makes there is noted, and its event
was not committed before (`World.Shared.shows_of_news`).

Afterwards the actor owes the event.  If it sends it, nobody will ever do so again
(`World.Shared.announced_once`).  If it is turned away from the bus it owes the event no longer: nobody announces
what it does not owe (`World.Shared.owed_of_announcement`), what is owed is the event of a change (`mem_of_owed`),
and no two changes have the same event.  So nobody will announce it (`World.Shared.never_announced`).
-/

namespace Reveille.Poll

open Program Procedure Reveille.System

variable {Sink : Type} {X : Signature} {σ : Type} {W : World Sink X σ}
  {s₀ s : System (place Sink X σ)} {a : Actor}

/-! ### The moment of the change -/

variable {τ σ₁ σ₂ : List (Label (place Sink X σ))} {l : Label (place Sink X σ)} {e : Event}
  {x : Exchange (place Sink X σ).requests} {xs ys zs : List (Exchange (place Sink X σ).requests)}

theorem World.Shared.run (h : W.Shared s₀ τ s) : System.Run W.cast s₀ τ s := by
  induction h with
  | refl => exact .refl
  | step before hs ih => exact ih.step hs
  | call before partner ih => exact ih.call _
  | outside before elsewhere store ih => exact ih.outside elsewhere
  | insert before ih => exact ih.outside ⟨rfl, rfl, rfl, rfl, rfl⟩

/-- A run falls apart at each of its labels. -/
theorem World.Shared.split (h : W.Shared s₀ τ s) (hτ : τ = σ₁ ++ l :: σ₂) :
    ∃ m m', W.Shared s₀ σ₁ m ∧ System.Happens W.cast m l m' ∧ W.Shared m' σ₂ s := by
  induction h generalizing σ₂ with
  | refl => simp at hτ
  | step before hs ih => exact split_concat before (.step hs) .refl hτ ih fun rest => rest.step hs
  | call before partner ih => exact split_concat before (.call _) .refl hτ ih fun rest => rest.call partner
  | outside before elsewhere store ih =>
    obtain ⟨m, m', run, happens, rest⟩ := ih hτ
    exact ⟨m, m', run, happens, rest.outside elsewhere store⟩
  | insert before ih =>
    obtain ⟨m, m', run, happens, rest⟩ := ih hτ
    exact ⟨m, m', run, happens, rest.insert⟩

theorem ofActor_told {f : Exchange (place Sink X σ).requests → Option Event} :
    ofActor a (noted f τ) = (told a τ).filterMap f := by
  induction τ with
  | nil => rfl
  | cons l τ ih =>
    have hcons : noted f (l :: τ) = noted f [l] ++ noted f τ := List.filterMap_append (l := [l])
    have htold : told a (l :: τ) = (l.told? a).toList ++ told a τ := by
      cases h : l.told? a <;> simp [told, h]
    rw [hcons, ofActor_append, ih, htold, List.filterMap_append]
    congr 1
    cases l with
    | began f => rfl
    | moved b asked work =>
      cases asked with
      | none => simp [noted, ofActor, Label.told?]
      | some x =>
        by_cases hb : b = a <;> cases hx : f x <;> simp [noted, ofActor, Label.told?, hb, hx]

theorem mem_of_owes {o : Option Event} (h : owes o x = some e) : change? x = some e ∨ o = some e := by
  obtain ⟨q, reply⟩ := x
  cases q with
  | call q =>
    cases q with
    | inr q => exact Or.inr h
    | inl q =>
      have hor : (q.news? reply).or o = some e := h
      cases hnews : q.news? reply with
      | some e' =>
        rw [hnews, Option.some_or] at hor
        exact Or.inl (hnews.trans hor)
      | none =>
        rw [hnews, Option.none_or] at hor
        exact Or.inr hor
  | commit item =>
    cases item with
    | event e' => cases h
    | register r => exact Or.inr h
  | enter =>
    cases (reply : Bool) with
    | true => exact Or.inr h
    | false => cases h
  | awaitSlot =>
    cases (reply : Bool) with
    | true => exact Or.inr h
    | false => cases h
  | _ => exact Or.inr h

theorem mem_of_owed (h : xs.foldl owes none = some e) : e ∈ xs.filterMap change? := by
  induction xs using List.reverseRecOn with
  | nil => cases h
  | append_singleton xs x ih =>
    rw [List.foldl_append] at h
    rw [List.filterMap_append, List.mem_append]
    rcases mem_of_owes h with hchange | hold
    · refine Or.inr ?_
      simp [hchange]
    · exact Or.inl (ih hold)

/-- Whatever an actor was told, it was told in some step, and it asked for nothing but what it may. -/
theorem World.Shared.at_told (h : W.Shared s₀ τ s) (cooperative : W.Cooperative) (new : s₀.IsNew)
    {q : System.Request (place Sink X σ)} {reply : q.Reply} (htold : told a τ = zs ++ ⟨q, reply⟩ :: ys) :
    ∃ σ₁ work σ₂ m m' m₁, τ = σ₁ ++ .moved a (some ⟨q, reply⟩) work :: σ₂ ∧ told a σ₁ = zs ∧
      W.Shared s₀ σ₁ m ∧ W.Shared m' σ₂ s ∧ Permits (zs.foldl owes none) q ∧
      m.perform W.cast a q = some (.reply reply, m₁) ∧ m'.channel = m₁.channel ∧ m'.state = m₁.state := by
  obtain ⟨σ₁, work, σ₂, hτ, hzs⟩ := split_of_told htold
  obtain ⟨m, m', before, happens, after⟩ := h.split hτ
  obtain ⟨hstep, hlabel⟩ := happens.moved
  obtain ⟨asked, _, hl, stride⟩ := stride_of_step hstep
  obtain ⟨-, rfl, -⟩ := Label.moved.inj (hlabel.symm.trans hl)
  cases stride with
  | asked doing answer channel state residual others =>
    have permits := ((before.keeping cooperative new).doing cooperative doing).1
    rw [owed, hzs] at permits
    exact ⟨σ₁, work, σ₂, m, m', _, hτ, hzs, before, after, permits, answer, channel, state⟩

/-- Nobody announces what it does not owe. -/
theorem World.Shared.owed_of_announcement (h : W.Shared s₀ τ s) (cooperative : W.Cooperative)
    (new : s₀.IsNew) (htold : told a τ = zs ++ x :: ys) (hx : announcement? x = some e) :
    zs.foldl owes none = some e := by
  obtain ⟨q, reply⟩ := x
  obtain ⟨_, _, _, _, _, _, -, -, -, -, permits, -⟩ := h.at_told cooperative new htold
  cases entry_of_permits permits reply with
  | quiet _ hnone _ => exact nomatch hnone.symm.trans hx
  | change _ hnone _ _ => exact nomatch hnone.symm.trans hx
  | sent _ hsome howed _ =>
    obtain rfl := Option.some.inj (hsome.symm.trans hx)
    exact howed
  | refused _ hnone _ _ => exact nomatch hnone.symm.trans hx

/-- The moment of a run in which an actor asked the store: what had happened before, and the system before and
after. -/
structure Moment (W : World Sink X σ) (s₀ : System (place Sink X σ)) (τ : List (Label (place Sink X σ)))
    (s : System (place Sink X σ)) (a : Actor) (q : Store.Request) (reply : q.Reply)
    (σ₁ : List (Label (place Sink X σ))) (m m' : System (place Sink X σ)) : Prop where
  before : W.Shared s₀ σ₁ m
  answer : m.state.1.answer q = (reply, m'.state.1)
  channel : m'.channel = m.channel
  after : ∃ work σ₂, τ = σ₁ ++ .moved a (some ⟨.call (.inl q), reply⟩) work :: σ₂ ∧ W.Shared m' σ₂ s

theorem World.Shared.moment (h : W.Shared s₀ τ s) (cooperative : W.Cooperative) (new : s₀.IsNew)
    {q : Store.Request} {reply : q.Reply} (htold : told a τ = zs ++ ⟨.call (.inl q), reply⟩ :: ys) :
    ∃ σ₁ m m', told a σ₁ = zs ∧ zs.foldl owes none = none ∧ q.Steps ∧
      Moment W s₀ τ s a q reply σ₁ m m' := by
  obtain ⟨σ₁, work, σ₂, m, m', m₁, hτ, hzs, before, after, permits, answer, channel, state⟩ :=
    h.at_told cooperative new htold
  cases answer
  refine ⟨σ₁, m, m', hzs, permits.1, permits.2, before, ?_, channel, work, σ₂, hτ, after⟩
  rw [state]

/-! ### The event of the change -/

variable {q : Store.Request} {reply : q.Reply} {m m' : System (place Sink X σ)}

/-- A change is shown from its moment on, and its event was not committed before. -/
theorem World.Shared.shows_of_news (h : W.Shared s₀ τ s) (cooperative : W.Cooperative) (new : s₀.IsNew)
    (moment : Moment W s₀ τ s a q reply σ₁ m m') (steps : q.Steps) (news : q.news? reply = some e) :
    (a, e) ∈ changes τ ∧ s.state.1.Shows e ∧ e ∉ (announced σ₁).map Prod.snd := by
  have happens : m.state.1.Happens e m'.state.1 := by
    rcases Store.answer_news moment.answer steps with ⟨hnone, -⟩ | ⟨e', hsome, happens⟩
    · exact nomatch hnone.symm.trans news
    · obtain rfl := Option.some.inj (hsome.symm.trans news)
      exact happens
  have changed : (a, e) ∈ changes τ := by
    obtain ⟨work, σ₂, rfl, -⟩ := moment.after
    refine List.mem_filterMap.mpr ⟨_, List.mem_append_right _ List.mem_cons_self, ?_⟩
    exact congrArg (Option.map fun e => (a, e)) news
  refine ⟨changed, (h.keeping cooperative new).book.shown _ changed, ?_⟩
  intro hmem
  obtain ⟨⟨b, e'⟩, hb, rfl⟩ := List.mem_map.mp hmem
  have book := (moment.before.keeping cooperative new).book
  exact happens.not_shows (book.shown _ (book.mem_changes hb))

def announcements (e : Event) (τ : List (Label (place Sink X σ))) : Nat :=
  ((announced τ).map Prod.snd).count e

theorem mem_announced_of_told (hx : x ∈ told a τ) (announcement : announcement? x = some e) :
    (a, e) ∈ announced τ := by
  rw [← mem_ofActor, announced_eq, ofActor_told]
  exact List.mem_filterMap.mpr ⟨x, hx, announcement⟩

theorem World.Shared.announced_once (h : W.Shared s₀ τ s) (cooperative : W.Cooperative) (new : s₀.IsNew)
    (hx : x ∈ told a τ) (announcement : announcement? x = some e) :
    announcements e τ = 1 := by
  refine List.count_eq_one_of_mem (h.keeping cooperative new).book.once ?_
  exact List.mem_map_of_mem (mem_announced_of_told hx announcement)

/-- What was changed, not announced, and is no longer owed will not be announced by anybody. -/
theorem World.Shared.not_announced (h : W.Shared s₀ τ s) (cooperative : W.Cooperative) (new : s₀.IsNew)
    (htold : told a τ = xs ++ ys) (changed : e ∈ xs.filterMap change?)
    (unsent : e ∉ xs.filterMap announcement?) (settled : xs.foldl owes none = none) :
    announcements e τ = 0 := by
  have book := (h.keeping cooperative new).book
  have htwice : ((xs ++ ys).filterMap change?).Nodup := by
    rw [← htold, ← ofActor_told]
    exact book.news.sublist ofActor_sublist
  rw [List.filterMap_append] at htwice
  have own : (a, e) ∈ changes τ := by
    rw [← mem_ofActor, changes, ofActor_told, htold, List.filterMap_append]
    exact List.mem_append_left _ changed
  refine List.count_eq_zero.mpr ?_
  intro hmem
  obtain ⟨⟨b, e'⟩, hb, rfl⟩ := List.mem_map.mp hmem
  obtain rfl := book.actor_eq own (book.mem_changes hb)
  rw [← mem_ofActor, announced_eq, ofActor_told, htold, List.filterMap_append, List.mem_append] at hb
  obtain ⟨y, hy, announcement⟩ := List.mem_filterMap.mp (hb.resolve_left unsent)
  -- Whoever announces it later owes it then, and so has made the same change twice.
  obtain ⟨us, vs, rfl⟩ := List.append_of_mem hy
  rw [← List.append_assoc] at htold
  have howed := h.owed_of_announcement cooperative new htold announcement
  rw [List.foldl_append, settled] at howed
  have again : e' ∈ (us ++ y :: vs).filterMap change? := by
    rw [List.filterMap_append]
    exact List.mem_append_left _ (mem_of_owed howed)
  exact List.disjoint_of_nodup_append htwice changed again

/-- Whoever was turned away has announced nothing, and owes nothing any more. -/
theorem settled_of_turnedAway {o : Option Event} (away : ys ∈ Routine.turnedAway (.event e)) :
    ys.filterMap announcement? = [] ∧ ys.foldl owes o = none := by
  rcases away with _ | ⟨_, _ | ⟨_, _ | ⟨_, ⟨⟩⟩⟩⟩ <;> exact ⟨rfl, rfl⟩

/-- Whoever was turned away after a change never announces it, and nobody else does. -/
theorem World.Shared.never_announced (h : W.Shared s₀ τ s) (cooperative : W.Cooperative) (new : s₀.IsNew)
    (free : zs.foldl owes none = none) (hzs : told a σ₁ = zs) (before : announcements e σ₁ = 0)
    (htold : told a τ = zs ++ (⟨.call (.inl q), reply⟩ :: xs) ++ ys) (news : q.news? reply = some e)
    (away : xs ∈ Routine.turnedAway (.event e)) : announcements e τ = 0 := by
  obtain ⟨unsent, settled⟩ := settled_of_turnedAway (o := some e) away
  have hchange : change? (⟨.call (.inl q), reply⟩ : Exchange (place Sink X σ).requests) = some e := news
  refine h.not_announced cooperative new htold ?_ ?_ ?_
  · rw [List.filterMap_append, List.filterMap_cons_some hchange]
    exact List.mem_append_right _ List.mem_cons_self
  · rw [List.filterMap_append, List.filterMap_cons_none rfl, unsent, List.append_nil, ← hzs, ← ofActor_told,
      ← announced_eq, mem_ofActor]
    exact fun hmem => List.count_eq_zero.mp before (List.mem_map_of_mem hmem)
  · rw [List.foldl_append, free, List.foldl_cons, owes_news hchange]
    exact settled

end Reveille.Poll
