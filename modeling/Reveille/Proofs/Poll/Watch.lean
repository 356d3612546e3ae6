import Reveille.Proofs.Poll.Report
import Reveille.Proofs.Poll.Routines
import Reveille.Proofs.Runner.Pass

/-!
# What a runner learns about a poll

A routine of a runner sees the store and the clock of its system at a `Glance`.  `watch` is the
sharing of such routines with all others, seen with an eye on one poll, and `Finds` is what the reply
of a routine tells about that poll.  The main result is `safe_source`: whatever the others do without
making the duty due on the poll, the routine finds out the truth, and leaves the poll undisturbed
unless it processes it.
-/

namespace Reveille.Poll

open Program Reveille.System

variable {Sink : Type} {X : Signature} {σ α : Type} {W : World Sink X σ}
  {s : System (place Sink X σ)} {d : Duty} {id : Id} {x y : Glance}

def glance (s : System (place Sink X σ)) : Glance := ⟨s.state.1, s.timeOn .clock⟩

/-- The answer to a request as far as the store and the clock go. -/
def Sees : (q : System.Request (place Sink X σ)) → Glance → q.Reply → Glance → Prop
  | .readTime .clock, x, (reply : Instant), y => reply = x.now ∧ y = x
  | .call (.inl q), x, reply, y => x.store.answer q = (reply, y.store) ∧ y.now = x.now
  | _, x, _, y => y = x

/-- A request that is not for the store changes nothing that can be seen. -/
theorem Sees.same {q : System.Request (place Sink X σ)} {reply : q.Reply} (h : Sees q x reply y)
    (hq : ∀ r, q ≠ .call (.inl r)) : y = x := by
  cases q with
  | call q =>
    cases q with
    | inl r => exact absurd rfl (hq r)
    | inr q => exact h
  | readTime source =>
    cases source with
    | clock => exact h.2
    | host => exact h
  | _ => exact h

def watch (Sink : Type) (X : Signature) (σ : Type) (d : Duty) (id : Id) :
    Sharing (place Sink X σ).requests Glance where
  answers := Sees
  rely := Undisturbed d id
  inv x := x.store.Lasts
  guar _ _ _ _ := True
  refl := .refl
  trans := .trans

/-! ### From procedures to routines -/

theorem safe_blind {q : System.Request (place Sink X σ)}
    {rest : q.Reply → Routine (place Sink X σ) α} {post : α → Glance → Prop}
    (blind : ∀ x reply y, Sees q x reply y → y = x)
    (h : ∀ reply y, Undisturbed d id x y → (rest reply).Safe (watch Sink X σ d id) post y) :
    (ask (S := (place Sink X σ).requests) q rest).Safe (watch Sink X σ d id) post x := by
  refine safe_ask.mpr fun y hy _ reply z hz => ⟨trivial, ?_⟩
  obtain rfl := blind y reply z hz
  exact h reply z hy

theorem safe_publish {item : Bus.Command (Receiver (place Sink X σ)) Event} :
    (Routine.enqueue (D := place Sink X σ) item).Safe (watch Sink X σ d id)
      (fun _ y => Undisturbed d id x y) x := by
  have through {y : Glance} {reply : Except BusError Unit} (h : Undisturbed d id x y) :
      (Program.done reply : Routine (place Sink X σ) _).Safe (watch Sink X σ d id)
        (fun _ y => Undisturbed d id x y) y := safe_done.mpr fun z hz _ => h.trans hz
  refine safe_blind (fun _ _ _ h => h) fun entered y hy => ?_
  cases entered with
  | false => exact through hy
  | true =>
    refine safe_blind (fun _ _ _ h => h) fun _ z hz => ?_
    refine safe_blind (fun _ _ _ h => h) fun granted u hu => ?_
    have hxu := (hy.trans hz).trans hu
    cases granted with
    | false => exact through hxu
    | true =>
      refine safe_blind (fun _ _ _ h => h) fun committed v hv => ?_
      cases committed <;> exact through (hxu.trans hv)

/-- What a procedure does among others it does as a routine, too. -/
theorem safe_routine {p : Procedure α} {post : α → Glance → Prop}
    (h : p.Safe (watching d id) post x) :
    (p.routine : Routine (place Sink X σ) α).Safe (watch Sink X σ d id) post x := by
  induction p generalizing x with
  | done a => exact h
  | ask q rest ih =>
    cases q with
    | store q =>
      refine safe_ask.mpr fun y hy iy reply z hz => ⟨trivial, ?_⟩
      exact ih reply (h y hy iy reply z hz).2
    | readTime =>
      refine safe_ask.mpr fun y hy iy reply z hz => ⟨trivial, ?_⟩
      obtain ⟨hreply, rfl⟩ := hz
      exact ih reply (h z hy iy reply z ⟨⟨hreply, rfl⟩, rfl⟩).2
    | publish e =>
      refine Safe.bind safe_publish fun reply y hy => Safe.of_later fun z hz iz => ?_
      exact ih reply (h z (hy.trans hz) iz reply z ⟨rfl, rfl⟩).2
    | log line =>
      refine safe_blind (fun _ _ _ h => h) fun reply y hy => Safe.of_later fun z hz iz => ?_
      exact ih reply (h z (hy.trans hz) iz reply z ⟨rfl, rfl⟩).2

theorem safe_activity {p : Procedure α} {post : α → Glance → Prop}
    (h : p.Safe (watching d id) post x) :
    (Activity.routine (p.activity access .clock : Activity (place Sink X σ) α)).Safe
      (watch Sink X σ d id) post x := by
  rw [routine_activity]
  exact safe_routine h

/-! ### What replies tell -/

def HandsOut (items : List (Reported Id))
    (reply : Option (Reported Id × Items (place Sink X σ))) : Prop :=
  reply.map (·.1) = items.head? ∧ ∀ item rest, reply = some (item, rest) →
    rest = Feed.ofList items.tail

/-- The items of a pass miss no time at which the duty is due on the poll. -/
def Lists (d : Duty) (id : Id) (items : List (Reported Id)) (x : Glance) : Prop :=
  Covers d id .never x ∨ ∃ due, .ok (id, due) ∈ items ∧ Covers d id due x

def Finds (d : Duty) (id : Id) : (q : MachineRequest Sink X σ) → q.Reply → Glance → Prop
  | .readClock, (now : Instant), x => now = x.now
  | .checkAll, (stream : Items (place Sink X σ)), _ => stream = d.feed
  | .nextItem stream, (reply : Option (Reported Id × Items (place Sink X σ))), x =>
    (∀ items, stream = Feed.ofList items → HandsOut items reply) ∧
      (stream = d.feed → ∃ items, Lists d id items x ∧ HandsOut items reply)
  | .checkOne poll, (reply : Except ServiceError DueTime), x =>
    ∃ due, reply = .ok due ∧ (poll = id → Tight d id due x)
  | .processOne poll, (reply : Except ServiceError Processed), x =>
    ∃ o, reply = .ok o ∧ (poll = id → Settled d id x o)
  | .receiveEvent e, (asked : List Id), _ => asked = [e.poll]
  | _, _, _ => True

theorem Undisturbed.lists {items : List (Reported Id)} (h : Undisturbed d id x y)
    (hl : Lists d id items x) : Lists d id items y := by
  rcases hl with hc | ⟨due, hmem, hc⟩
  · exact Or.inl (h.covers hc)
  · exact Or.inr ⟨due, hmem, h.covers hc⟩

theorem lists_listed {reply : Except StoreError (List Poll)}
    (h : x.store.answer .all = (reply, y.store)) (hnow : y.now = x.now) :
    Lists d id (d.listed x.now reply) y := by
  obtain ⟨rfl, hstore⟩ := Prod.mk.inj h
  cases hp : x.store.find? id with
  | none =>
    left
    intro p hstored
    rw [← hstore, hp] at hstored
    cases hstored
  | some p =>
    right
    refine ⟨d.due p x.now, ?_, ?_⟩
    · refine List.mem_map.mpr ⟨p, Store.mem_of_find? hp, ?_⟩
      rw [Store.find?_id hp]
    · intro q hq u hu hdue
      rw [← hstore, hp] at hq
      obtain rfl := Option.some.inj hq
      exact isDue_of_later (hnow ▸ hu) hdue

/-! ### The routines of a runner -/

section
variable {i : Nat} {t : RunnerTask (place Sink X σ)} {q : MachineRequest Sink X σ}
  {r : Routine (place Sink X σ) q.Reply}

theorem safe_handed {items : List (Reported Id)} :
    (Program.done (handed items) :
        Routine (place Sink X σ) (Option (Reported Id × Items (place Sink X σ)))).Safe
      (watch Sink X σ d id) (fun reply y => HandsOut items reply ∧ Undisturbed d id x y) x :=
  safe_done.mpr fun _ hy _ => ⟨⟨map_handed, fun _ _ => rest_of_handed⟩, hy⟩

/-- A stream of the store hands out what the store has. -/
theorem safe_listing : d.listing.Safe (watch Sink X σ d id) (fun reply y =>
    Finds d id (.nextItem d.feed : MachineRequest Sink X σ) reply y ∧ Undisturbed d id x y) x := by
  refine safe_ask.mpr fun y hy _ now z hz => ⟨trivial, ?_⟩
  obtain ⟨rfl, rfl⟩ := hz
  refine safe_ask.mpr fun u hu _ reply v hv => ⟨trivial, ?_⟩
  have hnow : z.now = u.now := hu.1.symm
  have hlists : Lists d id (d.listed z.now reply) v := by
    rw [hnow]
    exact lists_listed hv.1 hv.2
  have hstore : v.store = u.store := (congrArg Prod.snd hv.1).symm
  have hxv : Undisturbed d id x v := (hy.trans hu).trans ⟨hv.2, Or.inl (by rw [hstore])⟩
  refine Safe.imp safe_handed ?_
  rintro reply' w ⟨hhands, hvw⟩
  refine ⟨⟨?_, fun _ => ⟨_, hvw.lists hlists, hhands⟩⟩, hxv.trans hvw⟩
  intro items hfeed
  cases items <;> cases hfeed

/-- A routine of a runner finds out the truth about a poll. -/
theorem safe_source (h : s.runnerSource W.cast i t q = .routine r) (asks : t.service.Asks q) :
    r.Safe (watch Sink X σ t.service id) (fun reply y => Finds t.service id q reply y ∧
      (q ≠ .processOne id → Undisturbed t.service id x y)) x := by
  cases does_of_source World.onDuty h asks with
  | clock =>
    refine safe_ask.mpr fun y hy _ now z hz => ⟨trivial, ?_⟩
    obtain ⟨rfl, rfl⟩ := hz
    exact safe_done.mpr fun u hu _ => ⟨hu.1.symm, fun _ => hy.trans hu⟩
  | items => exact safe_done.mpr fun y hy _ => ⟨rfl, fun _ => hy⟩
  | first => exact Safe.imp safe_listing fun reply y hy => ⟨hy.1, fun _ => hy.2⟩
  | next items =>
    refine Safe.imp safe_handed ?_
    rintro reply y ⟨hhands, hxy⟩
    refine ⟨⟨?_, ?_⟩, fun _ => hxy⟩
    · intro items' he
      obtain rfl : items = items' := Feed.ofList_injective he
      exact hhands
    · intro hfeed
      cases items <;> cases hfeed
  | check poll => exact Safe.imp (safe_activity watching_check) fun reply y hy => ⟨hy.1, fun _ => hy.2⟩
  | process poll =>
    refine Safe.imp (safe_activity watching_process) fun reply y hy => ⟨hy.1, fun hne => hy.2 ?_⟩
    exact fun he => hne (congrArg Runner.Request.processOne he)
  | interval interval =>
    refine safe_blind (fun _ _ _ h => h) fun draw y hy => ?_
    exact safe_done.mpr fun z hz _ => ⟨trivial, fun _ => hy.trans hz⟩
  | receive e => exact Safe.imp (safe_activity watching_receive) fun reply y hy => ⟨hy.1, fun _ => hy.2⟩

end

end Reveille.Poll
