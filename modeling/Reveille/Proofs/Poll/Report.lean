import Reveille.Proofs.Poll.Manners

/-!
# What a service finds out about a poll

A service reports a due time for a poll, or processes it, while others may change the store.  As
long as their changes make the duty due on no poll without an announcement, the outcome can be relied
on: a reported due time misses no time at which the poll will be due (`Covers`), and a poll that was
just processed is not due at that time (`NotDue`).  The main lemmas are `watching_check` and
`watching_process`.
-/

namespace Reveille.Poll

open Program

structure Glance where
  store : Store
  now : Instant

variable {d : Duty} {id poll : Id} {due : DueTime} {x y : Glance}

/-- The duty will not be due on the poll in its present state. -/
def QuietAt (d : Duty) (id : Id) (x : Glance) : Prop :=
  ∀ p, x.store.find? id = some p → ¬ d.Concerns p.state

def NotDue (d : Duty) (id : Id) (x : Glance) : Prop :=
  ∀ p, x.store.find? id = some p → (d.due p x.now).isDue x.now = false

/-- The due time misses no time at which the duty is due on the poll in its present state. -/
def Covers (d : Duty) (id : Id) (due : DueTime) (x : Glance) : Prop :=
  ∀ p, x.store.find? id = some p →
    ∀ u, x.now ≤ u → (d.due p u).isDue u = true → due.isDue u = true

theorem QuietAt.covers (h : QuietAt d id x) : Covers d id due x := by
  intro p hp u _ hu
  rw [Duty.isDue_eq_false (h p hp)] at hu
  cases hu

theorem QuietAt.notDue (h : QuietAt d id x) : NotDue d id x :=
  fun p hp => Duty.isDue_eq_false (h p hp)

theorem Covers.of_le {earlier : DueTime} (h : Covers d id due x) (hle : earlier ≤ due) :
    Covers d id earlier x :=
  fun p hp u hu hdue => DueTime.isDue_of_le hle (h p hp u hu hdue)

/-- The others change nothing about the poll, or leave it in a state that is quiet for the duty;
time stands still. -/
def Undisturbed (d : Duty) (id : Id) (x y : Glance) : Prop :=
  y.now = x.now ∧ (y.store.find? id = x.store.find? id ∨ QuietAt d id y)

namespace Undisturbed

theorem refl (x : Glance) : Undisturbed d id x x := ⟨rfl, Or.inl rfl⟩

theorem trans {z : Glance} (h : Undisturbed d id x y) (g : Undisturbed d id y z) :
    Undisturbed d id x z := by
  refine ⟨g.1.trans h.1, ?_⟩
  rcases g.2 with hg | hq
  · rcases h.2 with hh | hq
    · exact Or.inl (hg.trans hh)
    · right
      intro p hp
      exact hq p (hg ▸ hp)
  · exact Or.inr hq

theorem covers (h : Undisturbed d id x y) (hc : Covers d id due x) : Covers d id due y := by
  rcases h.2 with hsame | hq
  · intro p hp u hu
    exact hc p (hsame ▸ hp) u (h.1 ▸ hu)
  · exact hq.covers

theorem quietAt (h : Undisturbed d id x y) (hc : QuietAt d id x) : QuietAt d id y := by
  rcases h.2 with hsame | hq
  · exact fun p hp => hc p (hsame ▸ hp)
  · exact hq

theorem notDue (h : Undisturbed d id x y) (hc : NotDue d id x) : NotDue d id y := by
  rcases h.2 with hsame | hq
  · intro p hp
    rw [h.1]
    exact hc p (hsame ▸ hp)
  · exact hq.notDue

end Undisturbed

def watching (d : Duty) (id : Id) : Sharing requests Glance where
  answers q x reply y := Answers x.now q x.store reply y.store ∧ y.now = x.now
  rely := Undisturbed d id
  inv x := x.store.Lasts
  guar _ _ _ _ := True
  refl := .refl
  trans := .trans

theorem Undisturbed.of_idle {q : Request} {reply : q.Reply}
    (h : (watching d id).answers q x reply y) (hq : q.Idle) : Undisturbed d id x y := by
  refine ⟨h.2, Or.inl ?_⟩
  rw [hq.same h.1]

def Tight (d : Duty) (id : Id) (due : DueTime) (x : Glance) : Prop :=
  QuietAt d id x ∨ (Covers d id due x ∧ (NotDue d id x → due.isDue x.now = false))

theorem Undisturbed.tight (h : Undisturbed d id x y) (ht : Tight d id due x) :
    Tight d id due y := by
  rcases h.2 with hsame | hq
  · rcases ht with hq | ⟨hc, hn⟩
    · exact Or.inl (h.quietAt hq)
    · refine Or.inr ⟨h.covers hc, fun hnot => ?_⟩
      rw [h.1]
      refine hn fun p hp => ?_
      have := hnot p (hsame ▸ hp)
      rw [h.1] at this
      exact this
  · exact Or.inl hq

theorem tight_due {p : Poll} (hp : x.store.find? id = some p) : Tight d id (d.due p x.now) x := by
  refine Or.inr ⟨?_, fun hn => hn p hp⟩
  intro q hq u hu hdue
  obtain rfl := Option.some.inj (hp.symm.trans hq)
  exact isDue_of_later hu hdue

theorem tight_never (h : x.store.find? id = none) : Tight d id .never x := by
  refine Or.inr ⟨?_, fun _ => rfl⟩
  intro p hp
  rw [h] at hp
  cases hp

theorem watching_check : (d.check poll).Safe (watching d id) (fun reply y =>
    (∃ due, reply = .ok due ∧ (poll = id → Tight d id due y)) ∧ Undisturbed d id x y) x := by
  refine safe_ask.mpr fun y hy _ reply z hz => ⟨trivial, ?_⟩
  have hxz : Undisturbed d id x z := hy.trans (.of_idle hz trivial)
  obtain ⟨hs, ⟨p, hp, rfl⟩ | ⟨hp, rfl⟩⟩ := Store.answer_get hz.1
  · refine safe_ask.mpr fun u hu _ now v hv => ⟨trivial, ?_⟩
    have huv : Undisturbed d id u v := .of_idle hv trivial
    obtain rfl : now = u.now := hv.1.1
    refine safe_done.mpr fun w hw _ => ⟨⟨_, rfl, ?_⟩, ((hxz.trans hu).trans huv).trans hw⟩
    rintro rfl
    have hzw := (hu.trans huv).trans hw
    have htight : Tight d poll (d.due p z.now) z := tight_due (by rw [hs]; exact hp)
    rw [hu.1]
    exact hzw.tight htight
  · refine safe_done.mpr fun w hw _ => ⟨⟨_, rfl, ?_⟩, hxz.trans hw⟩
    rintro rfl
    exact hw.tight (tight_never (by rw [hs]; exact hp))

/-- What a service knows about a poll that it loaded. -/
def Seen (d : Duty) (id poll : Id) (x : Glance) : Option (Poll × Instant) → Prop
  | none => poll = id → NotDue d id x
  | some (p, now) => p.id = poll ∧ now = x.now ∧ (d.due p now).isDue now = true ∧
      (poll = id → x.store.find? id = some p ∨ QuietAt d id x)

theorem Undisturbed.seen {o : Option (Poll × Instant)} (h : Undisturbed d id x y)
    (hs : Seen d id poll x o) : Seen d id poll y o := by
  match o with
  | none => exact fun hid => h.notDue (hs hid)
  | some (p, now) =>
    obtain ⟨hp, hnow, hdue, hstored⟩ := hs
    refine ⟨hp, hnow.trans h.1.symm, hdue, fun hid => ?_⟩
    rcases hstored hid with hsome | hq
    · exact h.2.imp_left fun hsame => hsame.trans hsome
    · exact Or.inr (h.quietAt hq)

theorem watching_loadDue : (d.loadDue poll).Safe (watching d id) (fun reply y =>
    (∃ o, reply = .ok o ∧ Seen d id poll y o) ∧ Undisturbed d id x y) x := by
  refine safe_ask.mpr fun y hy _ reply z hz => ⟨trivial, ?_⟩
  have hxz : Undisturbed d id x z := hy.trans (.of_idle hz trivial)
  obtain ⟨hs, ⟨p, hp, rfl⟩ | ⟨hp, rfl⟩⟩ := Store.answer_get hz.1
  · refine safe_ask.mpr fun u hu _ now v hv => ⟨trivial, ?_⟩
    have huv : Undisturbed d id u v := .of_idle hv trivial
    obtain rfl : now = u.now := hv.1.1
    have hstored : poll = id → v.store.find? id = some p ∨ QuietAt d id v := by
      rintro rfl
      refine (hu.trans huv).2.imp_left fun hsame => ?_
      rw [hsame, hs]
      exact hp
    refine safe_done.mpr fun w hw _ => ⟨⟨_, rfl, hw.seen ?_⟩, ((hxz.trans hu).trans huv).trans hw⟩
    split
    · next hdue => exact ⟨Store.find?_id hp, hv.2.symm, hdue, hstored⟩
    · next hdue =>
      intro hid q hq
      rcases hstored hid with hsome | hquiet
      · obtain rfl := Option.some.inj (hsome.symm.trans hq)
        rw [hv.2]
        exact Bool.not_eq_true _ ▸ hdue
      · exact hquiet.notDue q hq
  · refine safe_done.mpr fun w hw _ => ⟨⟨_, rfl, hw.seen ?_⟩, hxz.trans hw⟩
    rintro rfl q hq
    rw [hs, hp] at hq
    cases hq

def Settled (d : Duty) (id : Id) (x : Glance) : Processed → Prop
  | .advancedUntil _ => QuietAt d id x
  | _ => NotDue d id x

theorem Undisturbed.settled {o : Processed} (h : Undisturbed d id x y) (hs : Settled d id x o) :
    Settled d id y o := by
  cases o with
  | advancedUntil due => exact h.quietAt hs
  | advanced => exact h.notDue hs
  | nothingToDoYet => exact h.notDue hs

/-- A duty has a move for every poll that it concerns. -/
theorem Duty.move?_ne_none {p : Poll} {now : Instant} (h : d.Concerns p.state) :
    d.move? p now ≠ none := by
  cases d with
  | start => exact nofun
  | advance | close =>
    obtain ⟨round, hround⟩ := Option.isSome_iff_exists.mp (show p.state.round?.isSome = true from h)
    simp [Duty.move?, hround]

/-- A poll is settled by its own move. -/
theorem settled_of_move {p q : Poll} {m : Move} (hm : d.move? p x.now = some m)
    (hq : x.store.find? id = some { q with state := m.next })
    (lasting : 0 < q.roundDuration.nanos) : Settled d id x m.outcome := by
  cases d with
  | start =>
    cases hm
    intro r hr hconcerns
    obtain rfl := Option.some.inj (hq.symm.trans hr)
    cases hconcerns
  | advance =>
    obtain ⟨round, -, rfl⟩ := Option.map_eq_some_iff.mp hm
    intro r hr
    obtain rfl := Option.some.inj (hq.symm.trans hr)
    rw [← Bool.not_eq_true]
    intro hdue
    have hst : Poll.state { q with state := .fresh (round + 1) x.now } =
        .opened (round + 1) x.now .empty := rfl
    obtain ⟨-, -, hover⟩ := (isDue_advanceDue hst).mp hdue
    rw [roundOver_fresh hst lasting] at hover
    cases hover
  | close =>
    obtain ⟨rounds, -, rfl⟩ := Option.map_eq_some_iff.mp hm
    intro r hr hconcerns
    obtain rfl := Option.some.inj (hq.symm.trans hr)
    cases hconcerns

theorem watching_idle {α : Type} {p : Procedure α} (h : p.Only Request.Idle)
    (hxy : Undisturbed d id x y) :
    p.Safe (watching d id) (fun _ z => Undisturbed d id x z) y := by
  induction p generalizing y with
  | done a => exact safe_done.mpr fun z hz _ => hxy.trans hz
  | ask q rest ih =>
    refine safe_ask.mpr fun z hz _ reply u hu => ⟨trivial, ih reply (h.2 reply) ?_⟩
    exact (hxy.trans hz).trans (.of_idle hu h.1)

theorem watching_tell {line : Log.Line} {e : Event} {o : Processed} :
    (ask (.log line) fun _ => (Duty.announce e).bind fun _ => .done (.ok o) :
      Procedure (Except ServiceError Processed)).Safe (watching d id)
        (fun reply y => reply = .ok o ∧ Undisturbed d id x y) x := by
  refine safe_ask.mpr fun y hy _ _ z hz => ⟨trivial, ?_⟩
  refine Safe.bind (watching_idle Duty.idle_announce (hy.trans (.of_idle hz trivial))) ?_
  intro _ w hw
  exact safe_done.mpr fun u hu _ => ⟨rfl, hw.trans hu⟩

theorem watching_replace {p : Poll} {now : Instant} {m : Move}
    (hs : Seen d id poll x (some (p, now))) (hm : d.move? p now = some m) :
    (Duty.replace p m.next).Safe (watching d id) (fun reply y =>
      (reply = .ok true ∧ (poll = id → Settled d id y m.outcome) ∧
        (poll ≠ id → Undisturbed d id x y)) ∨
      (reply = .ok false ∧ (poll = id → NotDue d id y) ∧ Undisturbed d id x y)) x := by
  obtain ⟨rfl, rfl, hdue, hstored⟩ := hs
  refine safe_ask.mpr fun y hy iy reply z hz => ⟨trivial, ?_⟩
  obtain ⟨ha, hnow⟩ := hz
  have hznow : z.now = x.now := hnow.trans hy.1
  -- another path was faster, so that the poll is quiet or gone
  have failed {line : Log.Line} (hsame : z.store = y.store)
      (hchanged : y.store.find? p.id ≠ some p) :
      (ask (.log line) fun _ => .done (.ok false) : Procedure (Except ServiceError Bool)).Safe
        (watching d id) (fun reply w => reply = .ok false ∧ (p.id = id → NotDue d id w) ∧
          Undisturbed d id x w) z := by
    have hyz : Undisturbed d id y z := ⟨hnow, Or.inl (by rw [hsame])⟩
    have hquiet : p.id = id → QuietAt d id z := by
      rintro rfl
      refine hyz.quietAt ?_
      rcases hy.2 with hh | hq
      · rcases hstored rfl with hsome | hq
        · exact absurd (hh.trans hsome) hchanged
        · exact Undisturbed.quietAt hy hq
      · exact hq
    refine safe_ask.mpr fun u hu _ _ v hv => ⟨trivial, safe_done.mpr fun w hw _ => ?_⟩
    have hzw : Undisturbed d id z w := (hu.trans (.of_idle hv trivial)).trans hw
    exact ⟨rfl, fun hid => (hzw.quietAt (hquiet hid)).notDue, (hy.trans hyz).trans hzw⟩
  obtain ⟨q, hq, -, rfl, hzs⟩ | ⟨⟨q, hq, hst⟩, rfl, hzs⟩ | ⟨hq, rfl, hzs⟩ := Store.answer_update ha
  · refine safe_done.mpr fun w hw _ => Or.inl ⟨rfl, ?_, ?_⟩
    · rintro rfl
      have hmove : d.move? p z.now = some m := by
        rw [hznow]
        exact hm
      refine Undisturbed.settled hw (settled_of_move hmove ?_ (iy q (Store.mem_of_find? hq)))
      rw [hzs, if_pos rfl]
    · intro hne
      refine (Undisturbed.trans hy ⟨hnow, Or.inl ?_⟩).trans hw
      rw [hzs, if_neg (Ne.symm hne)]
  · refine Safe.imp (failed hzs ?_) fun _ _ => Or.inr
    intro hsome
    obtain rfl := Option.some.inj (hq.symm.trans hsome)
    exact hst rfl
  · refine Safe.imp (failed hzs ?_) fun _ _ => Or.inr
    intro hsome
    rw [hq] at hsome
    cases hsome

/-- A service that processes a poll settles it, and leaves the others alone. -/
theorem watching_process : (d.process poll).Safe (watching d id) (fun reply y =>
    (∃ o, reply = .ok o ∧ (poll = id → Settled d id y o)) ∧ (poll ≠ id → Undisturbed d id x y))
    x := by
  refine Safe.bind watching_loadDue ?_
  rintro _ y ⟨⟨o, rfl, hseen⟩, hxy⟩
  rcases o with _ | ⟨p, now⟩
  · refine safe_done.mpr fun z hz _ => ⟨⟨_, rfl, ?_⟩, fun _ => hxy.trans hz⟩
    exact fun hid => Undisturbed.notDue hz (hseen hid)
  · dsimp only
    cases hm : d.move? p now with
    | none =>
      have hconcerns : d.Concerns p.state := by
        by_contra hnot
        have hdue := hseen.2.2.1
        rw [Duty.isDue_eq_false hnot] at hdue
        cases hdue
      exact absurd hm (Duty.move?_ne_none hconcerns)
    | some m =>
      refine Safe.bind (watching_replace hseen hm) ?_
      rintro _ z (⟨rfl, hsettled, hothers⟩ | ⟨rfl, hnot, hyz⟩)
      · refine Safe.imp watching_tell ?_
        rintro _ w ⟨rfl, hzw⟩
        refine ⟨⟨_, rfl, fun hid => hzw.settled (hsettled hid)⟩, ?_⟩
        exact fun hne => hxy.trans ((hothers hne).trans hzw)
      · refine safe_done.mpr fun w hw _ => ⟨⟨_, rfl, ?_⟩, fun _ => hxy.trans (hyz.trans hw)⟩
        exact fun hid => Undisturbed.notDue hw (hnot hid)

/-- An event makes a service look at the poll that it is about. -/
theorem watching_receive {e : Event} : (d.receive e).Safe (watching d id)
    (fun reply y => reply = [e.poll] ∧ Undisturbed d id x y) x := by
  have hdone : ∀ y, Undisturbed d id x y → Safe (watching d id)
      (fun reply y => reply = [e.poll] ∧ Undisturbed d id x y) (.done [e.poll]) y :=
    fun y hy => safe_done.mpr fun z hz _ => ⟨rfl, hy.trans hz⟩
  cases d with
  | advance =>
    refine safe_ask.mpr fun y hy _ _ z hz => ⟨trivial, hdone z ?_⟩
    exact hy.trans (.of_idle hz trivial)
  | start => exact hdone x (.refl x)
  | close => exact hdone x (.refl x)

end Reveille.Poll
