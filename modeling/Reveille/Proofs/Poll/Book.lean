import Mathlib.Data.List.Basic
import Reveille.Proofs.Poll.Candid
import Reveille.Proofs.System.Cut

/-!
# Changes and announcements

`changes` are the changes of the store in a run, each as the actor that made it and the event that it has
to announce.  `announced` are the events that were committed to the queue, each with the actor that sent
it, and `owed` is the event that an actor still has to send.

A `Book` relates the three: no two changes have the same event, and the store shows every one of them; an
actor announces its own changes only, in order and each at most once; and on an open bus it has announced
all of them but the one that it owes.  An answered request of one who may make it keeps the book
(`Book.answered`).
-/

namespace Reveille.Poll

open Program Reveille.System

variable {Sink : Type} {X : Signature} {σ : Type}

/-- The event that an answered request committed to the queue. -/
def announcement? (x : Exchange (place Sink X σ).requests) : Option Event :=
  match System.committed? x with
  | some (.event e) => some e
  | _ => none

/-- Events of the answered requests of a run, each with its actor. -/
def noted (f : Exchange (place Sink X σ).requests → Option Event) :
    List (Label (place Sink X σ)) → List (Actor × Event) :=
  List.filterMap fun
    | .moved a asked _ => (asked.bind f).map fun e => (a, e)
    | .began _ => none

def changes (τ : List (Label (place Sink X σ))) : List (Actor × Event) := noted change? τ

def announced (τ : List (Label (place Sink X σ))) : List (Actor × Event) :=
  (committed τ).filterMap fun x =>
    match x.2 with
    | .event e => some (x.1, e)
    | .register _ => none

def ofActor (a : Actor) (l : List (Actor × Event)) : List Event :=
  (l.filter fun x => x.1 = a).map Prod.snd

/-- The event that an actor still has to send. -/
def owed (a : Actor) (τ : List (Label (place Sink X σ))) : Option Event :=
  (told a τ).foldl owes none

variable {τ : List (Label (place Sink X σ))} {a b : Actor} {l l' : List (Actor × Event)} {e : Event}
  {f : Exchange (place Sink X σ).requests → Option Event} {x : Exchange (place Sink X σ).requests}
  {asked : Option (Exchange (place Sink X σ).requests)}
  {worked : Option (Exchange (Bus.Worker.requests (Receiver (place Sink X σ)) Event))}

theorem announced_eq : announced τ = noted announcement? τ := by
  rw [announced, noted, committed, List.filterMap_filterMap]
  refine congrArg (List.filterMap · τ) (funext fun l => ?_)
  cases l with
  | began f => rfl
  | moved a asked worked =>
    cases asked with
    | none => rfl
    | some x =>
      show (((System.committed? x).map _).bind _) = (announcement? x).map _
      unfold announcement?
      rcases System.committed? x with _ | _ | _ <;> rfl

theorem noted_concat : noted f (τ ++ [.moved a (some x) worked]) =
    noted f τ ++ ((f x).map fun e => (a, e)).toList := by
  rw [noted, List.filterMap_append]
  cases h : f x <;> simp [h]

theorem noted_quiet {l : Label (place Sink X σ)} (h : l.asked? = none) :
    noted f (τ ++ [l]) = noted f τ := by
  rw [noted, List.filterMap_append]
  cases l with
  | began f => simp
  | moved a asked worked =>
    obtain rfl : asked = none := h
    simp

theorem owed_quiet {l : Label (place Sink X σ)} (h : l.asked? = none) : owed b (τ ++ [l]) = owed b τ := by
  have told : l.told? b = none := by
    cases l with
    | began f => rfl
    | moved a asked worked =>
      obtain rfl : asked = none := h
      exact ite_self none
  rw [owed, told_quiet told, owed]

theorem owed_concat : owed b (τ ++ [.moved a (some x) worked]) =
    if a = b then owes (owed b τ) x else owed b τ := by
  rw [owed, told_concat, List.foldl_append]
  by_cases h : a = b <;> simp [Label.told?, h, owed]

theorem ofActor_append : ofActor a (l ++ l') = ofActor a l ++ ofActor a l' := by
  rw [ofActor, List.filter_append, List.map_append]
  rfl

theorem mem_ofActor : e ∈ ofActor a l ↔ (a, e) ∈ l := by
  simp [ofActor]

theorem ofActor_sublist : (ofActor a l).Sublist (l.map Prod.snd) := List.filter_sublist.map _

theorem changes_concat : changes (τ ++ [.moved a (some x) worked]) =
    changes τ ++ ((change? x).map fun e => (a, e)).toList := noted_concat

theorem announced_concat : announced (τ ++ [.moved a (some x) worked]) =
    announced τ ++ ((announcement? x).map fun e => (a, e)).toList := by
  rw [announced_eq, announced_eq]
  exact noted_concat

/-! ### What a request may be -/

def turnsAway : Exchange (place Sink X σ).requests → Bool
  | ⟨.enter, (accepted : Bool)⟩ => !accepted
  | ⟨.awaitSlot, (granted : Bool)⟩ => !granted
  | ⟨.commit _, (kept : Bool)⟩ => !kept
  | _ => false

inductive Entry (o : Option Event) (x : Exchange (place Sink X σ).requests) : Prop
  | quiet (change : change? x = none) (announcement : announcement? x = none) (owes : owes o x = o)
  | change {e : Event} (change : change? x = some e) (announcement : announcement? x = none)
      (none : o = none) (owes : owes o x = some e)
  | sent {e : Event} (change : change? x = none) (announcement : announcement? x = some e)
      (some : o = some e) (owes : owes o x = none)
  | refused (change : change? x = none) (announcement : announcement? x = none)
      (owes : owes o x = none) (turned : turnsAway x = true)

variable {o : Option Event} {q : System.Request (place Sink X σ)}

theorem entry_of_permits (h : Permits o q) (reply : q.Reply) : Entry o ⟨q, reply⟩ := by
  cases q with
  | enter =>
    match reply with
    | true => exact .quiet rfl rfl rfl
    | false => exact .refused rfl rfl rfl rfl
  | awaitSlot =>
    match reply with
    | true => exact .quiet rfl rfl rfl
    | false => exact .refused rfl rfl rfl rfl
  | commit item =>
    match item, reply with
    | .event e, true => exact .sent rfl rfl h rfl
    | .event e, false => exact .refused rfl rfl rfl rfl
    | .register r, true => exact .quiet rfl rfl rfl
    | .register r, false => exact .quiet rfl rfl rfl
  | trySend e => exact False.elim h
  | call q =>
    cases q with
    | inr q => exact .quiet rfl rfl rfl
    | inl q =>
      obtain ⟨rfl, -⟩ := h
      cases hnews : q.news? reply with
      | none =>
        refine .quiet hnews rfl ?_
        show (q.news? reply).or none = none
        rw [hnews]
        rfl
      | some e => exact .change hnews rfl rfl (owes_news hnews)
  | _ => exact .quiet rfl rfl rfl

/-- Nobody is turned away from a bus that is open. -/
theorem shut_of_turnsAway {ch ch' : Queue (place Sink X σ)} {reply : q.Reply}
    (h : Passage a ch q reply ch') (turned : turnsAway ⟨q, reply⟩ = true) :
    ch'.accepting = false ∨ ch'.listening = false := by
  cases h with
  | shutOut closed => exact Or.inl closed
  | sentAway gone => exact Or.inr (Bus.Channel.withdraw_same.2.2.2.trans gone)
  | gaveUp closed item => exact Or.inl (Bus.Channel.withdraw_same.2.2.1.trans closed)
  | apart hq => cases q <;> first | exact False.elim hq | cases turned
  | _ => cases turned

/-- What an answered request did to the store. -/
inductive News (x : Exchange (place Sink X σ).requests) (s : Store) : Store → Prop
  | still (change : change? x = none) : News x s s
  | changed {e : Event} {s' : Store} (change : change? x = some e) (happens : s.Happens e s') :
      News x s s'

namespace News

variable {s s' : Store}

theorem of_answer {q : Store.Request} {reply : q.Reply} (h : s.answer q = (reply, s'))
    (steps : q.Steps) :
    News (⟨.call (.inl q), reply⟩ : Exchange (place Sink X σ).requests) s s' := by
  rcases Store.answer_news h steps with ⟨hnone, rfl⟩ | ⟨e, hsome, happens⟩
  · exact .still hnone
  · exact .changed hsome happens

theorem happens (h : News x s s') (change : change? x = some e) : s.Happens e s' := by
  cases h with
  | still hnone => exact nomatch hnone.symm.trans change
  | changed hsome happens =>
    obtain rfl := Option.some.inj (hsome.symm.trans change)
    exact happens

theorem concat (h : News x s s') :
    changes (τ ++ [.moved a (some x) worked]) = changes τ ∧ s' = s ∨
      ∃ e, changes (τ ++ [.moved a (some x) worked]) = changes τ ++ [(a, e)] ∧ s.Happens e s' := by
  rw [changes_concat]
  cases h with
  | still hnone =>
    rw [hnone]
    exact Or.inl ⟨List.append_nil _, rfl⟩
  | changed hsome happens =>
    rw [hsome]
    exact Or.inr ⟨_, rfl, happens⟩

theorem keeps (h : News x s s') (shows : s.Shows e) : s'.Shows e := by
  cases h with
  | still => exact shows
  | changed change happens => exact happens.keeps shows

end News

/-- What changes, announcements and debts have to do with each other. -/
structure Book (τ : List (Label (place Sink X σ))) (s : System (place Sink X σ)) : Prop where
  news : ((changes τ).map Prod.snd).Nodup
  shown : ∀ x ∈ changes τ, s.state.1.Shows x.2
  once : ((announced τ).map Prod.snd).Nodup
  sent : ∀ a, (ofActor a (announced τ) ++ (owed a τ).toList).Sublist (ofActor a (changes τ))
  complete : s.channel.accepting = true → s.channel.listening = true → ∀ a,
    ofActor a (changes τ) = ofActor a (announced τ) ++ (owed a τ).toList

variable {s s' : System (place Sink X σ)}

theorem ofActor_noted {o : Option Event} :
    ofActor b (o.map fun e => (a, e)).toList = if a = b then o.toList else [] := by
  cases o with
  | none => simp [ofActor]
  | some e => by_cases h : a = b <;> simp [ofActor, h]

namespace Book

/-- Whoever made the change of an event is the only one to announce it. -/
theorem actor_eq (h : Book τ s) (ha : (a, e) ∈ changes τ) (hb : (b, e) ∈ changes τ) : a = b :=
  congrArg Prod.fst (List.inj_on_of_nodup_map h.news ha hb rfl)

theorem mem_changes (h : Book τ s) (ha : (a, e) ∈ announced τ) : (a, e) ∈ changes τ :=
  mem_ofActor.mp ((h.sent a).subset (List.mem_append_left _ (mem_ofActor.mpr ha)))

/-- What is owed was not announced yet. -/
theorem not_announced (h : Book τ s) (hdebt : owed a τ = some e) : e ∉ (announced τ).map Prod.snd := by
  intro hmem
  obtain ⟨⟨b, e'⟩, hb, rfl⟩ := List.mem_map.mp hmem
  have hsent := h.sent a
  rw [hdebt] at hsent
  have ha : (a, e') ∈ changes τ :=
    mem_ofActor.mp (hsent.subset (List.mem_append_right _ (List.mem_singleton.mpr rfl)))
  obtain rfl := h.actor_eq ha (h.mem_changes hb)
  have hnodup := (h.news.sublist ofActor_sublist).sublist hsent
  exact List.disjoint_of_nodup_append hnodup (mem_ofActor.mpr hb) (List.mem_singleton.mpr rfl)

/-- The store and the bus go on. -/
theorem mono (h : Book τ s) (narrowed : Narrowed s.channel s'.channel)
    (shows : ∀ e, s.state.1.Shows e → s'.state.1.Shows e) : Book τ s' where
  news := h.news
  shown x hx := shows _ (h.shown x hx)
  once := h.once
  sent := h.sent
  complete haccepting hlistening :=
    h.complete (narrowed.accepting haccepting) (narrowed.listening hlistening)

theorem quiet {l : Label (place Sink X σ)} (h : Book τ s) (nothing : l.asked? = none) :
    Book (τ ++ [l]) s := by
  have hchanges : changes (τ ++ [l]) = changes τ := noted_quiet nothing
  have hannounced : announced (τ ++ [l]) = announced τ := by
    rw [announced_eq, announced_eq]
    exact noted_quiet nothing
  refine ⟨hchanges ▸ h.news, hchanges ▸ h.shown, hannounced ▸ h.once, fun a => ?_, fun ha hl a => ?_⟩
  · rw [hchanges, hannounced, owed_quiet nothing]
    exact h.sent a
  · rw [hchanges, hannounced, owed_quiet nothing]
    exact h.complete ha hl a

variable (τ a x worked) in
/-- The two lists of the actor that had a request answered, and those of the others. -/
theorem lists_concat (b : Actor) :
    (a = b ∧ ofActor b (changes (τ ++ [.moved a (some x) worked])) =
          ofActor b (changes τ) ++ (change? x).toList ∧
        ofActor b (announced (τ ++ [.moved a (some x) worked])) =
          ofActor b (announced τ) ++ (announcement? x).toList ∧
        owed b (τ ++ [.moved a (some x) worked]) = owes (owed b τ) x) ∨
      ofActor b (changes (τ ++ [.moved a (some x) worked])) = ofActor b (changes τ) ∧
        ofActor b (announced (τ ++ [.moved a (some x) worked])) = ofActor b (announced τ) ∧
        owed b (τ ++ [.moved a (some x) worked]) = owed b τ := by
  rw [changes_concat, announced_concat, owed_concat, ofActor_append, ofActor_append, ofActor_noted,
    ofActor_noted]
  by_cases hab : a = b <;> simp [hab]

/-- An answered request keeps the book if its event is news, and its announcement is new. -/
theorem entered (h : Book τ s) (narrowed : Narrowed s.channel s'.channel)
    (news : News x s.state.1 s'.state.1)
    (unsent : ∀ e, announcement? x = some e → e ∉ (announced τ).map Prod.snd)
    (sent : (ofActor a (announced τ) ++ (announcement? x).toList ++ (owes (owed a τ) x).toList).Sublist
      (ofActor a (changes τ) ++ (change? x).toList))
    (complete : s'.channel.accepting = true → s'.channel.listening = true →
      ofActor a (changes τ) ++ (change? x).toList =
        ofActor a (announced τ) ++ (announcement? x).toList ++ (owes (owed a τ) x).toList) :
    Book (τ ++ [.moved a (some x) worked]) s' := by
  refine ⟨?_, ?_, ?_, fun b => ?_, fun haccepting hlistening b => ?_⟩
  · rw [changes_concat]
    cases hx : change? x with
    | none => simpa using h.news
    | some e =>
      have hnew : e ∉ (changes τ).map Prod.snd := by
        intro hmem
        obtain ⟨y, hy, rfl⟩ := List.mem_map.mp hmem
        exact (news.happens hx).not_shows (h.shown y hy)
      simpa using h.news.concat hnew
  · rw [changes_concat]
    intro y hy
    rcases List.mem_append.mp hy with hy | hy
    · exact news.keeps (h.shown y hy)
    · obtain ⟨e, hx, rfl⟩ := Option.map_eq_some_iff.mp (Option.mem_toList.mp hy)
      exact (news.happens hx).shows
  · rw [announced_concat]
    cases hx : announcement? x with
    | none => simpa using h.once
    | some e => simpa using h.once.concat (unsent e hx)
  · rcases lists_concat τ a x worked b with
      ⟨rfl, hchanges, hannounced, howed⟩ | ⟨hchanges, hannounced, howed⟩
    · rw [hchanges, hannounced, howed]
      exact sent
    · rw [hchanges, hannounced, howed]
      exact h.sent b
  · rcases lists_concat τ a x worked b with
      ⟨rfl, hchanges, hannounced, howed⟩ | ⟨hchanges, hannounced, howed⟩
    · rw [hchanges, hannounced, howed]
      exact complete haccepting hlistening
    · rw [hchanges, hannounced, howed]
      exact h.complete (narrowed.accepting haccepting) (narrowed.listening hlistening) b

theorem answered (h : Book τ s) (entry : Entry (owed a τ) x)
    (narrowed : Narrowed s.channel s'.channel) (news : News x s.state.1 s'.state.1)
    (turned : turnsAway x = true → s'.channel.accepting = false ∨ s'.channel.listening = false) :
    Book (τ ++ [.moved a (some x) worked]) s' := by
  have sent := h.sent a
  have complete (haccepting : s'.channel.accepting = true) (hlistening : s'.channel.listening = true) :=
    h.complete (narrowed.accepting haccepting) (narrowed.listening hlistening) a
  cases entry with
  | quiet hchange hannouncement howes =>
    refine h.entered narrowed news ?_ ?_ ?_ <;> rw [hannouncement]
    · exact nofun
    · rw [hchange, howes]
      simpa using sent
    · rw [hchange, howes]
      simpa using complete
  | @change e hchange hannouncement hnone howes =>
    rw [hnone] at sent complete
    refine h.entered narrowed news ?_ ?_ ?_ <;> rw [hannouncement]
    · exact nofun
    · rw [hchange, howes]
      simpa using sent
    · rw [hchange, howes]
      simpa using complete
  | @sent e hchange hannouncement hsome howes =>
    have unsent := h.not_announced hsome
    rw [hsome] at sent complete
    refine h.entered narrowed news ?_ ?_ ?_ <;> rw [hannouncement]
    · rintro e' ⟨⟩
      exact unsent
    · rw [hchange, howes]
      simpa using sent
    · rw [hchange, howes]
      simpa using complete
  | refused hchange hannouncement howes hturned =>
    refine h.entered narrowed news ?_ ?_ ?_ <;> rw [hannouncement]
    · exact nofun
    · rw [hchange, howes]
      simpa using (List.sublist_append_left _ _).trans sent
    · intro haccepting hlistening
      rcases turned hturned with hclosed | hgone
      · exact absurd (hclosed.symm.trans haccepting) nofun
      · exact absurd (hgone.symm.trans hlistening) nofun

end Book

end Reveille.Poll
