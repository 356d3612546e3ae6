import Reveille.Proofs.Poll.Alert
import Reveille.Proofs.Poll.Steady

/-!
# Every poll is attended to

For each poll a runner either knows all that matters (`Attentive`), or it will be told: an event
about the poll is on its way to its inbox, or somebody is about to send one (`Notified`).  Every step
keeps this, its own (`Handled.step`) and those of others (`Handled.others`).  A step of others that
makes the duty due on the poll turns the one into the other, since whoever makes it says so.
-/

namespace Reveille.Poll

open Program Reveille.System

variable {Sink : Type} {X : Signature} {σ : Type} {W : World Sink X σ}
  {s s' : System (place Sink X σ)} {d : Duty} {id : Id} {a : Actor} {own : Option Duty} {i : Nat}
  {t t' : RunnerTask (place Sink X σ)}

/-- The runner misses no time at which its duty will be due on the poll, once it is through with its
routine. -/
def Attentive (s : System (place Sink X σ)) (t : RunnerTask (place Sink X σ)) (id : Id) : Prop :=
  match t.pending with
  | none => Watched t.service id t.machine (glance s)
  | some r => r.Safe (watch Sink X σ t.service id)
      (fun reply y => Watched t.service id (t.machine.resume reply).1 y) (glance s)

/-- Somebody has still to tell those who listen for a duty about the poll. -/
def Owed (s : System (place Sink X σ)) (d : Duty) (id : Id) : Prop :=
  ∃ a r, s.residual a = some r ∧ r.Leads Granted (Tells d id) fun _ => False

def Notified (s : System (place Sink X σ)) (d : Duty) (i : Nat) (id : Id) : Prop :=
  Owed s d id ∨ ∃ e, d.listensTo e = true ∧ e.poll = id ∧ Coming s d i e

/-- The runner knows about the poll or will be told. -/
def Handled (s : System (place Sink X σ)) (i : Nat) (t : RunnerTask (place Sink X σ)) (id : Id) :
    Prop :=
  Attentive s t id ∨ t.launched = true ∧ Notified s t.service i id

theorem attentive_iff_watched (hp : t.pending = none) :
    Attentive s t id ↔ Watched t.service id t.machine (glance s) := by
  unfold Attentive
  rw [hp]

theorem attentive_iff_safe {r : Routine (place Sink X σ) t.machine.request.Reply}
    (hp : t.pending = some r) : Attentive s t id ↔ r.Safe (watch Sink X σ t.service id)
      (fun reply y => Watched t.service id (t.machine.resume reply).1 y) (glance s) := by
  unfold Attentive
  rw [hp]

/-! ### What can be seen of a step -/

theorem sees_of_answered {q : System.Request (place Sink X σ)} {reply : q.Reply}
    (h : Answered W.cast a s q reply s') : Sees q (glance s) reply (glance s') := by
  have hnow : s'.timeOn .clock = s.timeOn .clock := by
    simp only [timeOn, h.time, h.clock]
  have hreplied := h.replied
  have same (hstate : s'.state = s.state) : glance s' = glance s := by
    unfold glance
    rw [hstate, hnow]
  cases h.deed with
  | nothing light channel runners state =>
    cases q with
    | readTime source =>
      cases source with
      | clock => exact ⟨hreplied, same state⟩
      | host => exact same state
    | call q => exact False.elim light
    | _ => exact same state
  | @call q reply _ _ _ state =>
    cases q with
    | inl q =>
      have hanswer : some (Answer.reply (s.state.1.answer q).1,
          ((s.state.1.answer q).2, s.state.2)) = some (Answer.reply reply, s'.state) := state
      obtain ⟨hfirst, hstate⟩ := Prod.mk.inj (Option.some.inj hanswer)
      obtain rfl := Answer.reply.inj hfirst
      refine ⟨?_, hnow⟩
      show _ = ((s.state.1.answer q).1, s'.state.1)
      rw [← hstate]
      rfl
    | inr q =>
      obtain ⟨⟨reply', y⟩, -, hanswer⟩ := Option.map_eq_some_iff.mp state
      obtain ⟨-, hstate⟩ := Prod.mk.inj hanswer
      show glance s' = glance s
      unfold glance
      rw [← hstate, hnow]
  | requestSlot _ _ state => exact same state
  | commit _ _ state => exact same state
  | trySend _ _ _ state => exact same state
  | push _ _ state => exact same state
  | hire _ _ state => exact same state
  | launch _ _ state => exact same state
  | release _ _ _ _ state => exact same state

theorem glance_of_aside (h : Aside a s s') : glance s' = glance s := by
  unfold glance
  simp only [timeOn, h.state, h.time, h.clock]

/-- Whoever may make a duty due on a poll owes that duty an event about the poll. -/
theorem disturbed (hp : Progress W.cast s a s')
    (mannerly : ∀ r, Doing W.cast s a r → ∃ st, Mannerly own st r) (hown : own ≠ some d) :
    Undisturbed d id (glance s) (glance s') ∨ Owed s' d id := by
  cases hp with
  | @asked q rest reply s₁ doing answered aside residual =>
    rw [glance_of_aside aside]
    obtain ⟨st, -, -, hrest⟩ := mannerly _ doing
    have hsees := sees_of_answered answered
    by_cases hq : ∃ r, q = .call (.inl r)
    · obtain ⟨r, rfl⟩ := hq
      by_cases haffects : r.Affects d id reply
      · right
        refine ⟨a, rest reply, residual, ?_⟩
        exact (hrest reply answered.granted).1 d id hown haffects
      · exact Or.inl ⟨hsees.2, answer_of_not_affects hsees.1 haffects⟩
    · left
      rw [hsees.same (not_exists.mp hq)]
      exact .refl _
  | ended _ aside _ =>
    left
    rw [glance_of_aside aside]
    exact .refl _
  | received _ _ _ aside _ =>
    left
    rw [glance_of_aside aside]
    exact .refl _

/-! ### To be told -/

/-- What is owed is owed on, or is on its way. -/
theorem Owed.step (h : Owed s d id) (hm : Moves W.cast s a s') (hi : i < s.runners.length)
    (enrolled : Enrolled s d i) : Notified s' d i id := by
  obtain ⟨b, r, hr, hleads⟩ := h
  by_cases hb : b = a
  · subst hb
    cases hm.progress with
    | @asked q rest reply s₁ doing answered aside residual =>
      obtain rfl := eq_of_doing doing hr
      rcases hleads.step answered.granted with ⟨e, rfl, listens, about⟩ | hrest
      · refine Or.inr ⟨e, listens, about, Or.inl ?_⟩
        refine enrolled.queued (hm.kept hi) ?_
        rw [aside.channel]
        cases answered.deed with
        | nothing light _ _ _ => exact False.elim light
        | commit channel _ _ => rw [channel]
      · exact Or.inl ⟨b, rest reply, residual, hrest⟩
    | ended before aside residual =>
      rw [before r hr] at hleads
      exact False.elim hleads
    | received worker before taken aside residual =>
      rw [before] at hr
      cases hr
  · refine Or.inl ⟨b, r, ?_, hleads⟩
    rw [hm.progress.others hb]
    exact hr

/-- A notice stays on its way, up to the inbox. -/
theorem Notified.step (h : Notified s d i id) (hm : Moves W.cast s a s') (hi : i < s.runners.length)
    (enrolled : Enrolled s d i) :
    Notified s' d i id ∨ ∃ e, d.listensTo e = true ∧ e.poll = id ∧ InInbox s i e := by
  rcases h with howed | ⟨e, listens, about, hcoming⟩
  · exact Or.inl (howed.step hm hi enrolled)
  · have relevant : (W.cast.service d).filterEvent e = .done true := congrArg Program.done listens
    refine (hm.coming hi relevant hcoming).imp ?_ ?_
    · exact fun hc => Or.inr ⟨e, listens, about, hc⟩
    · exact fun hc => ⟨e, listens, about, hc⟩

/-! ### Steps of others -/

theorem Attentive.later (h : Attentive s t id)
    (hu : Undisturbed t.service id (glance s) (glance s')) (hn : t.Nudged t') :
    Attentive s' t' id := by
  obtain ⟨more, launched, released, -, -, rfl⟩ := hn
  cases hp : t.pending with
  | none =>
    have hwatched := ((attentive_iff_watched hp).mp h).later hu
    exact (attentive_iff_watched rfl).mpr hwatched
  | some r =>
    have hsafe := ((attentive_iff_safe hp).mp h).later hu
    exact (attentive_iff_safe rfl).mpr hsafe

theorem attentive_of_dormant (h : Steady s t) (hl : t.launched = false) : Attentive s t id := by
  obtain ⟨hphase, hp⟩ := h.dormant hl
  refine (attentive_iff_watched hp).mpr ?_
  unfold Watched
  rw [hphase]
  exact trivial

theorem Handled.others (h : Handled s i t id) (ha : a ≠ .runner i)
    (ht : s.runners[i]? = some t) (hn : t.Nudged t') (steady : Steady s' t')
    (hm : Moves W.cast s a s') (enrolled : t.launched = true → Enrolled s t.service i)
    (hu : Undisturbed t.service id (glance s) (glance s') ∨ Owed s' t.service id) :
    Handled s' i t' id := by
  have hi := (List.getElem?_eq_some_iff.mp ht).1
  rcases h with hattentive | ⟨hl, hnotified⟩
  · rcases hu with hu | howed
    · exact Or.inl (hattentive.later hu hn)
    · cases hl : t'.launched with
      | false => exact Or.inl (attentive_of_dormant steady hl)
      | true =>
        right
        rw [hn.service]
        exact ⟨hl, Or.inl howed⟩
  · right
    rw [hn.service]
    refine ⟨hn.launched hl, ?_⟩
    rcases hnotified.step hm hi (enrolled hl) with hstill | ⟨e, listens, about, hinbox⟩
    · exact hstill
    · exact Or.inr ⟨e, listens, about, Or.inr (Or.inr (hinbox.step ha hm.progress))⟩

/-! ### The steps of the runner itself -/

section
variable {q : Runner.Request (place Sink X σ).Event (place Sink X σ).Id (Items (place Sink X σ))}
  {reply : q.Reply} {inbox : List Event}

theorem finds_of_served (h : Served s t q reply inbox) {x : Glance} : Finds d id q reply x := by
  cases h <;> exact trivial

end

/-- An event that was taken out of the inbox is what the runner turns to. -/
theorem receiving_of_served {reply : t.machine.request.Reply} {inbox : List Event}
    (h : Served s t t.machine.request reply inbox) {e : Event} (he : e ∈ t.inbox) :
    e ∈ inbox ∨ (t.machine.resume reply).1.phase = .receiving e := by
  obtain ⟨service, launched, released, stopRequested, aborted, inbox₀, timer,
    ⟨jitter, alarm, rescanAt, shown, inboxOpen, phase⟩, pending, ending⟩ := t
  cases phase with
  | top =>
    cases h
    exact Or.inl he
  | waiting limit =>
    cases h with
    | stopRequested _ => exact Or.inl he
    | inboxEnded _ => exact Or.inl he
    | elapsed _ _ => exact Or.inl he
    | event hinbox =>
      rw [show inbox₀ = _ from hinbox] at he
      rcases List.mem_cons.mp he with rfl | hrest
      · exact Or.inr rfl
      · exact Or.inl hrest
  | _ => cases h

/-- What a runner is in leaves it with what it has to know. -/
theorem Attentive.runnerIn (h : Attentive s t id) (runs : t.service.Runs t.machine)
    {r : Routine (place Sink X σ) t.machine.request.Reply} (hr : RunnerIn W.cast s i t r) :
    r.Safe (watch Sink X σ t.service id)
      (fun reply y => Watched t.service id (t.machine.resume reply).1 y) (glance s) := by
  rcases hr with hp | ⟨hp, hsrc⟩
  · exact (attentive_iff_safe hp).mp h
  · refine Safe.imp (safe_source hsrc runs.asks) ?_
    rintro reply y ⟨hfinds, hu⟩
    have hwatched := (attentive_iff_watched hp).mp h
    exact Watched.resume (fun hne => hwatched.later (hu hne)) reply hfinds

theorem Attentive.step (h : Attentive s t id) (runs : t.service.Runs t.machine)
    (lasting : s.state.1.Lasts) (hs : RunnerStep W.cast s i t s')
    (ht' : s'.runners[i]? = some t') : Attentive s' t' id := by
  cases hs with
  | @asked q rest reply s₁ t₁ routine answered aside nudged task =>
    obtain rfl := Option.some.inj (task.symm.trans ht')
    obtain ⟨more, launched, released, -, -, rfl⟩ := nudged
    have hsafe := ((h.runnerIn runs routine).step lasting (sees_of_answered answered)).2
    rw [← glance_of_aside aside] at hsafe
    exact hsafe
  | @returned reply routine aside task =>
    obtain rfl := Option.some.inj (task.symm.trans ht')
    refine (attentive_iff_watched rfl).mpr ?_
    rw [glance_of_aside aside]
    exact safe_done.mp (h.runnerIn runs routine) _ (.refl _) lasting
  | @served reply inbox idle served aside task =>
    obtain rfl := Option.some.inj (task.symm.trans ht')
    refine (attentive_iff_watched rfl).mpr ?_
    rw [glance_of_aside aside]
    exact Watched.resume (fun _ => (attentive_iff_watched idle).mp h) reply
      (finds_of_served served)
  | timed idle unset request aside task =>
    obtain rfl := Option.some.inj (task.symm.trans ht')
    have hwatched := (attentive_iff_watched idle).mp h
    rw [← glance_of_aside aside] at hwatched
    refine (attentive_iff_watched ?_).mpr hwatched
    exact idle

theorem inInbox_step {e : Event} (h : InInbox s i e) (ht : s.runners[i]? = some t)
    (hs : RunnerStep W.cast s i t s') (ht' : s'.runners[i]? = some t') :
    InInbox s' i e ∨ Attentive s' t' e.poll := by
  obtain ⟨t₀, ht₀, he⟩ := h
  obtain rfl := Option.some.inj (ht.symm.trans ht₀)
  cases hs with
  | @asked q rest reply s₁ t₁ routine answered aside nudged task =>
    exact Or.inl ⟨_, task, nudged.mem_inbox he⟩
  | returned routine aside task => exact Or.inl ⟨_, task, he⟩
  | timed idle unset request aside task => exact Or.inl ⟨_, task, he⟩
  | @served reply inbox idle served aside task =>
    rcases receiving_of_served served he with hstays | hphase
    · exact Or.inl ⟨_, task, hstays⟩
    · right
      obtain rfl := Option.some.inj (task.symm.trans ht')
      refine (attentive_iff_watched rfl).mpr ?_
      unfold Watched
      have hreceiving : (RunnerTask.resumed { t with inbox } reply).machine.phase = .receiving e :=
        hphase
      rw [hreceiving]
      exact Or.inl rfl

theorem Handled.step (h : Handled s i t id) (ht : s.runners[i]? = some t)
    (runs : t.service.Runs t.machine)
    (lasting : s.state.1.Lasts) (hs : RunnerStep W.cast s i t s')
    (ht' : s'.runners[i]? = some t') (hbadge : t'.badge = t.badge)
    (hm : Moves W.cast s (.runner i) s') (enrolled : t.launched = true → Enrolled s t.service i) :
    Handled s' i t' id := by
  have hservice : t'.service = t.service := congrArg Badge.service hbadge
  have hlaunched : t'.launched = t.launched := congrArg Badge.launched hbadge
  rcases h with hattentive | ⟨hl, hnotified⟩
  · exact Or.inl (hattentive.step runs lasting hs ht')
  · have hi := (List.getElem?_eq_some_iff.mp ht).1
    rw [← hlaunched] at hl
    rcases hnotified.step hm hi (enrolled (hlaunched ▸ hl)) with hstill | ⟨e, listens, rfl, hinbox⟩
    · exact Or.inr ⟨hl, hservice ▸ hstill⟩
    · rcases inInbox_step hinbox ht hs ht' with hstays | hattentive
      · exact Or.inr ⟨hl, hservice ▸ Or.inr ⟨e, listens, rfl, Or.inr (Or.inr hstays)⟩⟩
      · exact Or.inl hattentive

end Reveille.Poll
