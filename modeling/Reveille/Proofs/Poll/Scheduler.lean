import Reveille.Poll.Scheduler
import Reveille.Proofs.System.Delivery
import Reveille.Proofs.System.Traffic

/-!
# Starting a scheduler

Whoever starts a scheduler creates one runner after another.  Each of them is enrolled on the bus
before it is launched, and it is released before the next one is created.  `hiring` is the sharing of
one who does this among others that leave the staff alone; `safe_start` says that a scheduler is
started in this order and comes to its end with all its runners ready.
-/

namespace Reveille

open Program Reveille.System

variable {D : Domain} {c : Cast D} {a : Actor} {s s' : System D} {service : D.Service} {i : Nat}

def ready {S : Type} (service : S) : Badge S := ⟨service, true, true, false⟩

/-- One who starts runners, among others who start none. -/
def hiring (c : Cast D) (a : Actor) : Sharing D.requests (System D) where
  answers q s reply s' := Answered c a s q reply s'
  rely s s' := s'.staff = s.staff ∧
    ∀ service i, i < s.staff.length → Enrolled s service i → Enrolled s' service i
  inv _ := True
  guar q s _ _ := match q with
    | .hire service => ∀ b ∈ s.staff, b.service ≠ service
    | .launch i => ∀ b, s.staff[i]? = some b → Enrolled s b.service i
    | .call _ => False
    | _ => True
  refl _ := ⟨rfl, fun _ _ _ h => h⟩
  trans h g := ⟨g.1.trans h.1, fun service i hi he =>
    g.2 service i (by rw [h.1]; exact hi) (h.2 service i hi he)⟩

theorem Answered.enrolled {q : System.Request D} {reply : q.Reply} (h : Answered c a s q reply s')
    (he : Enrolled s service i) : Enrolled s' service i := by
  obtain ⟨more, hmore⟩ := h.deed.channel.1
  rcases he with hkept | hqueue
  · left
    unfold Kept at hkept ⊢
    rw [h.worker]
    exact hkept
  · right
    rw [hmore]
    exact List.mem_append_left _ hqueue

theorem safe_plain {α : Type} {post : α → System D → Prop} {q : System.Request D}
    {rest : q.Reply → Routine D α} (plain : q.Plain) (inside : ∀ x, q ≠ .call x)
    (h : ∀ reply s', Granted q reply → (hiring c a).rely s s' →
      (rest reply).Safe (hiring c a) post s') :
    (ask (S := D.requests) q rest).Safe (hiring c a) post s := by
  refine safe_ask.mpr fun y hy _ reply z hz => ⟨?_, ?_⟩
  · cases q with
    | hire service => exact False.elim plain
    | launch i => exact False.elim plain
    | call x => exact absurd rfl (inside x)
    | _ => exact trivial
  · refine h reply z (Answered.granted hz) ((hiring c a).trans hy ?_)
    exact ⟨hz.deed.staff plain, fun _ _ _ he => Answered.enrolled hz he⟩

/-- To send succeeds, and a registration that was sent is enrolled. -/
theorem safe_enqueue {item : Bus.Command (Receiver D) D.Event} :
    (Routine.enqueue item).Safe (hiring c a) (fun reply s' => reply = .ok () ∧
      s'.staff = s.staff ∧ ∀ service i, item = .register (.inbox service i) →
        i < s.staff.length → Enrolled s' service i) s := by
  refine safe_plain trivial nofun ?_
  rintro _ s₁ rfl h₁
  refine safe_plain trivial nofun fun _ s₂ _ h₂ => safe_plain trivial nofun ?_
  rintro _ s₃ rfl h₃
  refine safe_ask.mpr fun y hy _ reply z hz => ⟨trivial, ?_⟩
  have hstaff : z.staff = s.staff := by
    rw [hz.deed.staff trivial, hy.1, h₃.1, h₂.1, h₁.1]
  cases hz.deed with
  | nothing light _ _ _ => exact False.elim light
  | commit channel _ _ =>
    refine safe_done.mpr fun w hw _ => ⟨rfl, hw.1.trans hstaff, ?_⟩
    rintro service i rfl hi
    refine hw.2 service i (hstaff ▸ hi) (Or.inr ?_)
    rw [channel]
    exact List.mem_append_right _ (List.mem_singleton.mpr rfl)

theorem modify_length_append {α : Type} {f : α → α} {x : α} (l : List α) :
    (l ++ [x]).modify l.length f = l ++ [f x] := by
  induction l with
  | nil => rfl
  | cons y l ih =>
    rw [List.cons_append, List.length_cons, List.modify_succ_cons, ih]
    rfl

theorem safe_startRunner {staff : List (Badge D.Service)} (hs : s.staff = staff)
    (new : ∀ b ∈ staff, b.service ≠ service) :
    (Routine.startRunner service).Safe (hiring c a) (fun reply s' => (∃ h, reply = .ok h) ∧
      s'.staff = staff ++ [ready service]) s := by
  refine safe_ask.mpr fun y hy _ reply z hz => ⟨?_, ?_⟩
  · intro b hb
    rw [hy.1, hs] at hb
    exact new b hb
  have hlen : y.runners.length = staff.length := by
    rw [← hs, ← hy.1, System.staff, List.length_map]
  cases hz.deed with
  | nothing light _ _ _ => exact False.elim light
  | hire _ runners _ =>
    rw [hlen]
    have hz₀ : z.staff = staff ++ [⟨service, false, false, false⟩] := by
      rw [System.staff, runners, List.map_append, ← hs, ← hy.1]
      rfl
    show Safe _ _ ((Routine.enqueue (.register (.inbox service staff.length))).bind _) z
    refine Safe.bind safe_enqueue ?_
    rintro _ u ⟨rfl, hu, henrolled⟩
    rw [hz₀] at hu henrolled
    have hn : staff.length < (staff ++ [(⟨service, false, false, false⟩ : Badge _)]).length := by
      rw [List.length_append]
      exact Nat.lt_succ_self _
    refine safe_ask.mpr fun v hv _ _ w hw => ⟨?_, ?_⟩
    · intro b hb
      rw [hv.1, hu, List.getElem?_append_right (Nat.le_refl _), Nat.sub_self] at hb
      obtain rfl := Option.some.inj hb
      exact hv.2 _ _ (hu ▸ hn) (henrolled _ _ rfl hn)
    cases hw.deed with
    | nothing light _ _ _ => exact False.elim light
    | launch _ runners _ =>
      have hw₀ : w.staff = staff ++ [⟨service, true, false, false⟩] := by
        rw [System.staff, runners, badges_modify (g := fun b => { b with launched := true })]
        · rw [← System.staff, hv.1, hu]
          exact modify_length_append staff
        · exact fun _ => rfl
      refine safe_ask.mpr fun x hx _ _ x' hx' => ⟨trivial, ?_⟩
      cases hx'.deed with
      | nothing light _ _ _ => exact False.elim light
      | release _ _ _ runners _ =>
        refine safe_done.mpr fun x'' hx'' _ => ⟨⟨_, rfl⟩, ?_⟩
        rw [hx''.1, System.staff, runners, badges_modify (g := fun b => { b with released := true })]
        · rw [← System.staff, hx.1, hw₀]
          exact modify_length_append staff
        · exact fun _ => rfl

theorem safe_startRest (name : D.Service → String) {services : List D.Service}
    (distinct : services.Nodup) {staff : List (Badge D.Service)} (hs : s.staff = staff)
    (new : ∀ b ∈ staff, b.service ∉ services) (started : List (Handle D.Service)) :
    (Scheduler.startRest name started services).routine.Safe (hiring c a) (fun reply s' =>
      (∃ handles, reply = .ok handles) ∧ s'.staff = staff ++ services.map ready) s := by
  induction services generalizing s staff started with
  | nil =>
    refine safe_done.mpr fun y hy _ => ⟨⟨_, rfl⟩, ?_⟩
    rw [hy.1, hs]
    exact (List.append_nil _).symm
  | cons service rest ih =>
    obtain ⟨hnot, hrest⟩ := List.nodup_cons.mp distinct
    refine Safe.bind (safe_startRunner hs fun b hb he => new b hb (he ▸ List.mem_cons_self)) ?_
    rintro _ y ⟨⟨h, rfl⟩, hy⟩
    have hnew : ∀ b ∈ staff ++ [ready service], b.service ∉ rest := by
      intro b hb
      rcases List.mem_append.mp hb with hb | hb
      · exact fun hmem => new b hb (List.mem_cons_of_mem _ hmem)
      · rw [List.mem_singleton.mp hb]
        exact hnot
    have hall := ih hrest hy hnew (started ++ [h])
    rw [List.append_assoc] at hall
    exact hall

/-- A scheduler is started with all its runners ready. -/
theorem safe_start {name : D.Service → String} {grace : Duration} {services : List D.Service}
    (distinct : services.Nodup) (none : s.staff = []) :
    (Scheduler.start name grace services).routine.Safe (hiring c a)
      (fun _ s' => s'.staff = services.map ready) s := by
  have hall := safe_startRest (c := c) (a := a) name distinct none nofun []
  rw [Scheduler.start, Activity.routine, bind_eq, interpret_bind]
  refine Safe.bind hall ?_
  rintro _ y ⟨⟨handles, rfl⟩, hy⟩
  refine safe_plain trivial nofun fun _ z _ hz => safe_done.mpr fun w hw _ => ?_
  rw [hw.1, hz.1, hy]
  rfl

/-! ### On the way to the queue -/

theorem orderly_startRunner :
    Orderly (fun reply => ∃ h, reply = .ok h) .away (Routine.startRunner service) := by
  refine Orderly.query trivial nofun fun runner => ?_
  show Orderly _ _ ((Routine.enqueue _).bind _)
  refine Orderly.bind (Orderly.enqueue (.register (.inbox service runner))) ?_
  rintro _ rfl
  refine Orderly.query trivial nofun fun _ => Orderly.query trivial nofun fun _ => ?_
  exact ⟨rfl, _, rfl⟩

theorem orderly_startRest {name : D.Service → String} {services : List D.Service}
    (started : List (Handle D.Service)) : Orderly (fun reply => ∃ handles, reply = .ok handles)
      .away (Scheduler.startRest name started services).routine := by
  induction services generalizing started with
  | nil => exact ⟨rfl, _, rfl⟩
  | cons service rest ih =>
    refine Orderly.bind orderly_startRunner ?_
    rintro _ ⟨h, rfl⟩
    exact ih (started ++ [h])

theorem orderly_start {name : D.Service → String} {grace : Duration} {services : List D.Service} :
    Orderly (fun _ => True) .away (Scheduler.start name grace services).routine := by
  rw [Scheduler.start, Activity.routine, bind_eq, interpret_bind]
  refine Orderly.bind (orderly_startRest []) ?_
  rintro _ ⟨handles, rfl⟩
  exact Orderly.query trivial nofun fun _ => ⟨rfl, trivial⟩

end Reveille
