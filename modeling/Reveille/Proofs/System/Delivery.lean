import Reveille.Proofs.Bus.Worker
import Reveille.Proofs.System.Residual

/-!
# From the queue to an inbox

The receiver of a runner is enrolled once its registration was committed (`Enrolled`).  An event that
is committed after that is on its way to the runner (`Coming`): it waits in the queue behind the
registration, or the worker has still to hand it over, or it is in the inbox.  Every step keeps both,
as long as the bus is open and the runner does not take the event (`Enrolled.step`, `Coming.step`).
-/

namespace Reveille

variable {D : Domain} {c : Cast D} {a : Actor}

namespace System

open Program
open Bus.Worker (Working Keeps Hands Lively Stays)

/-- Replies to the receiver of runner `i`, which has not ended. -/
def Expected (i : Nat) : (q : Request D) → q.Reply → Prop
  | .isInboxOpen j, (isOpen : Bool) => j = i → isOpen = true
  | _, _ => True

/-- What is left of the routine of the worker leads to a request in `P`, or to a worker in `F`. -/
def Attends (expected : (q : Request D) → q.Reply → Prop) (P : Request D → Prop)
    (F : Bus.Worker (Receiver D) D.Event → Prop) (t : WorkerTask D) : Prop :=
  match t.pending with
  | none => F t.machine
  | some r => r.Leads expected P fun reply => F (t.machine.resume reply).1

variable {s s' : System D} {service : D.Service} {i : Nat} {e : D.Event}

theorem Answered.expected {q : Request D} {reply : q.Reply} (h : Answered c a s q reply s')
    (hi : i < s.runners.length) : Expected i q reply := by
  have hreplied := h.replied
  cases q with
  | isInboxOpen j =>
    intro hj
    subst hj
    exact hreplied.trans (decide_eq_true hi)
  | _ => exact trivial

/-! ### Routines of the worker -/

section
variable {q : Bus.Worker.Request (Receiver D) D.Event} {r : Routine D q.Reply}

theorem leads_lively (h : s.workerSource c q = .routine r)
    {expected : (q : Request D) → q.Reply → Prop} {P : Request D → Prop} :
    r.Leads expected P fun reply => Lively q reply := by
  cases q with
  | isRetired asked =>
    cases h
    refine Leads.bind (Q := fun _ => True) (Leads.of_forall fun _ => trivial) ?_
    exact fun retired _ => ⟨retired, rfl⟩
  | receive => exact absurd h receive_ne_routine
  | deliver target e => exact Leads.of_forall fun _ => trivial
  | stop target => exact Leads.of_forall fun _ => trivial
  | finished => cases h

theorem leads_stays (h : s.workerSource c q = .routine r) {P : Request D → Prop} :
    r.Leads (Expected i) P fun reply => Lively q reply ∧ Stays (.inbox service i) q reply := by
  cases q with
  | isRetired asked =>
    cases h
    cases asked with
    | sink k =>
      refine Leads.bind (Q := fun _ => True) (Leads.of_forall fun _ => trivial) ?_
      exact fun retired _ => ⟨⟨retired, rfl⟩, nofun⟩
    | inbox service' j =>
      refine Or.inr fun isOpen hopen => ⟨⟨!isOpen, rfl⟩, ?_⟩
      intro hj
      cases hj
      rw [hopen rfl]
      rfl
  | receive => exact absurd h receive_ne_routine
  | deliver target e => exact Leads.of_forall fun _ => ⟨trivial, trivial⟩
  | stop target => exact Leads.of_forall fun _ => ⟨trivial, trivial⟩
  | finished => cases h

theorem leads_forward (relevant : (c.service service).filterEvent e = .done true) {α : Type}
    {f : Unit → Routine D α} {Q : α → Prop} :
    ((Cast.forward (c.service service) i e).bind f).Leads (Expected i) (· = Request.push i e) Q := by
  refine Or.inr fun isOpen hopen => ?_
  obtain rfl := hopen rfl
  show Leads _ _ _ (Program.bind (Program.bind ((c.service service).filterEvent e).routine _) _)
  rw [relevant]
  exact Or.inl rfl

theorem leads_push (relevant : (c.service service).filterEvent e = .done true)
    (h : s.workerSource c q = .routine r) :
    r.Leads (Expected i) (· = Request.push i e) fun reply =>
      (Lively q reply ∧ Stays (.inbox service i) q reply) ∧ q ≠ .deliver (.inbox service i) e := by
  by_cases hq : q = .deliver (.inbox service i) e
  · subst hq
    cases h
    exact leads_forward relevant
  · exact (leads_stays h).mono fun _ hreply => ⟨hreply, hq⟩

end

/-! ### Steps of the worker -/

section
variable {expected : (q : Request D) → q.Reply → Prop} {P : Request D → Prop}
  {F : Bus.Worker (Receiver D) D.Event → Prop}

/-- What the worker attends to is kept by its steps, up to a request in `P`. -/
theorem Attends.step (hA : Attends expected P F s.worker)
    (begins : ∀ r, s.workerSource c s.worker.machine.request = .routine r → F s.worker.machine →
      r.Leads expected P fun reply => F (s.worker.machine.resume reply).1)
    (takes : ∀ item, s.worker.machine.phase = .waiting → F s.worker.machine →
      F (s.worker.machine.next .waiting (some item)).1)
    (replied : ∀ q reply s₁, Answered c .worker s q reply s₁ → expected q reply)
    (h : WorkerStep c s s') :
    Attends expected P F s'.worker ∨
      ∃ q reply s₁, P q ∧ Answered c .worker s q reply s₁ ∧ Aside .worker s₁ s' := by
  have leads {r} (hr : WorkerIn c s r) :
      r.Leads expected P fun reply => F (s.worker.machine.resume reply).1 := by
    rcases hr with hp | ⟨hp, hsrc⟩
    · simp only [Attends, hp] at hA
      exact hA
    · simp only [Attends, hp] at hA
      exact begins r hsrc hA
  cases h with
  | @asked q rest reply s₁ routine answered aside task =>
    rcases (leads routine).step (replied q reply s₁ answered) with hP | hrest
    · exact Or.inr ⟨q, reply, s₁, hP, answered, aside⟩
    · left
      rw [task]
      exact hrest
  | returned routine task aside =>
    left
    rw [task]
    exact leads routine
  | received idle waiting taken task aside =>
    left
    simp only [Attends, idle] at hA
    rw [task]
    exact takes _ waiting hA

/-- What is put into the queue and taken from it while the worker makes a step. -/
theorem WorkerStep.queue (h : WorkerStep c s s') (alive : s'.worker.machine.phase.isOver = false) :
    (∃ more, s'.channel.queue = s.channel.queue ++ more) ∨
      ∃ item, s.channel.queue = item :: s'.channel.queue ∧ s.worker.pending = none ∧
        s.worker.machine.phase = .waiting ∧
        s'.worker = { machine := (s.worker.machine.next .waiting (some item)).1 } := by
  cases h with
  | asked routine answered aside task =>
    left
    rw [aside.channel]
    exact answered.deed.channel.1
  | returned routine task aside =>
    left
    rw [(aside alive).channel]
    exact ⟨[], (List.append_nil _).symm⟩
  | @received item channel idle waiting taken task aside =>
    right
    have hchannel : s'.channel = channel := (aside alive).channel
    rw [hchannel]
    exact ⟨item, (Bus.Channel.queue_of_take taken).1, idle, waiting, task⟩

end

structure Serving (s : System D) : Prop where
  working : Working s.worker.machine
  attends : Attends (fun _ _ => True) (fun _ => False) Working s.worker

theorem Serving.alive (h : Serving s) : s.worker.machine.phase.isOver = false := by
  have hw := h.working
  unfold Working at hw
  cases hp : s.worker.machine.phase with
  | exited => rw [hp] at hw; exact False.elim hw
  | died p => rw [hp] at hw; exact False.elim hw
  | _ => rfl

theorem Serving.step (h : Serving s) (hs : WorkerStep c s s') : Serving s' := by
  have hattends : Attends (fun _ _ => True) (fun _ => False) Working s'.worker := by
    refine (h.attends.step ?_ (fun _ _ _ => Bus.Worker.Working.take) (fun _ _ _ _ => trivial)
      hs).resolve_right fun ⟨_, _, _, hP, _⟩ => hP
    intro r hr hworking
    exact (leads_lively hr).mono fun reply hlively => hworking.resume reply hlively
  refine ⟨?_, hattends⟩
  cases hs with
  | asked routine answered aside task =>
    rw [task]
    exact h.working
  | returned routine task aside =>
    rw [task] at hattends ⊢
    exact hattends
  | received idle waiting taken task aside =>
    rw [task] at hattends ⊢
    exact hattends

/-! ### Enrolled receivers -/

def Kept (s : System D) (service : D.Service) (i : Nat) : Prop :=
  Attends (Expected i) (fun _ => False) (Keeps (.inbox service i)) s.worker

def Enrolled (s : System D) (service : D.Service) (i : Nat) : Prop :=
  Kept s service i ∨ .register (.inbox service i) ∈ s.channel.queue

theorem Kept.step (h : Kept s service i) (hi : i < s.runners.length) (hs : WorkerStep c s s') :
    Kept s' service i := by
  refine (Attends.step h ?_ (fun _ waiting hkeeps => hkeeps.take waiting)
    (fun _ _ _ answered => answered.expected hi) hs).resolve_right fun ⟨_, _, _, hP, _⟩ => hP
  intro r hr hkeeps
  exact (leads_stays hr).mono fun reply hreply => hkeeps.resume reply hreply.1 hreply.2

/-- A receiver whose registration is taken is kept from then on. -/
theorem kept_of_register
    (task : s'.worker = { machine :=
      (s.worker.machine.next .waiting (some (.register (.inbox service i)))).1 }) :
    Kept s' service i := by
  unfold Kept
  rw [task]
  exact Bus.Worker.keeps_of_register _

theorem Enrolled.step (h : Enrolled s service i) (hi : i < s.runners.length)
    (hs : WorkerStep c s s') (alive : s'.worker.machine.phase.isOver = false) :
    Enrolled s' service i := by
  rcases h with hkept | hqueue
  · exact Or.inl (hkept.step hi hs)
  · rcases hs.queue alive with ⟨more, hmore⟩ | ⟨item, hitem, -, -, task⟩
    · right
      rw [hmore]
      exact List.mem_append_left _ hqueue
    · rw [hitem] at hqueue
      rcases List.mem_cons.mp hqueue with hfirst | hrest
      · rw [← hfirst] at task
        exact Or.inl (kept_of_register task)
      · exact Or.inr hrest

/-! ### Events on their way -/

/-- An event waits in the queue, behind the registration of a runner. -/
def Queued (s : System D) (service : D.Service) (i : Nat) (e : D.Event) : Prop :=
  Kept s service i ∧ .event e ∈ s.channel.queue ∨
    ∃ before behind, s.channel.queue = before ++ .register (.inbox service i) :: behind ∧
      .event e ∈ behind

def Handing (s : System D) (service : D.Service) (i : Nat) (e : D.Event) : Prop :=
  Attends (Expected i) (· = Request.push i e) (Hands (.inbox service i) e) s.worker

def InInbox (s : System D) (i : Nat) (e : D.Event) : Prop :=
  ∃ t, s.runners[i]? = some t ∧ e ∈ t.inbox

def Coming (s : System D) (service : D.Service) (i : Nat) (e : D.Event) : Prop :=
  Queued s service i e ∨ Handing s service i e ∨ InInbox s i e

/-- What is put into the queue behind a registration is on its way. -/
theorem Enrolled.queued (h : Enrolled s service i) (hkept : Kept s service i → Kept s' service i)
    (hqueue : s'.channel.queue = s.channel.queue ++ [.event e]) : Queued s' service i e := by
  rcases h with hk | hmem
  · left
    rw [hqueue]
    exact ⟨hkept hk, List.mem_append_right _ (List.mem_singleton.mpr rfl)⟩
  · right
    obtain ⟨before, behind, hsplit⟩ := List.append_of_mem hmem
    refine ⟨before, behind ++ [.event e], ?_, ?_⟩
    · rw [hqueue, hsplit, List.append_assoc, List.cons_append]
    · exact List.mem_append_right _ (List.mem_singleton.mpr rfl)

theorem Queued.mono (h : Queued s service i e) (hkept : Kept s service i → Kept s' service i)
    (hqueue : ∃ more, s'.channel.queue = s.channel.queue ++ more) : Queued s' service i e := by
  obtain ⟨more, hmore⟩ := hqueue
  rcases h with ⟨hk, hmem⟩ | ⟨before, behind, hsplit, hmem⟩
  · left
    rw [hmore]
    exact ⟨hkept hk, List.mem_append_left _ hmem⟩
  · right
    refine ⟨before, behind ++ more, ?_, List.mem_append_left _ hmem⟩
    rw [hmore, hsplit, List.append_assoc, List.cons_append]

theorem Queued.step (h : Queued s service i e) (hi : i < s.runners.length) (hs : WorkerStep c s s')
    (alive : s'.worker.machine.phase.isOver = false) :
    Queued s' service i e ∨ Handing s' service i e := by
  rcases hs.queue alive with hmore | ⟨item, hitem, idle, waiting, task⟩
  · exact Or.inl (h.mono (fun hk => hk.step hi hs) hmore)
  · rcases h with ⟨hk, hmem⟩ | ⟨before, behind, hsplit, hmem⟩
    · rw [hitem] at hmem
      rcases List.mem_cons.mp hmem with hfirst | hrest
      · right
        have hkeeps : Keeps (.inbox service i) s.worker.machine := by
          simpa only [Kept, Attends, idle] using hk
        unfold Handing
        rw [task, ← hfirst]
        exact hkeeps.take_event waiting
      · exact Or.inl (Or.inl ⟨hk.step hi hs, hrest⟩)
    · left
      rw [hitem] at hsplit
      cases before with
      | nil =>
        obtain ⟨hfirst, hrest⟩ := List.cons.inj hsplit
        rw [hfirst] at task
        rw [← hrest] at hmem
        exact Or.inl ⟨kept_of_register task, hmem⟩
      | cons x before =>
        obtain ⟨-, hrest⟩ := List.cons.inj hsplit
        exact Or.inr ⟨before, behind, hrest, hmem⟩

theorem Handing.step (h : Handing s service i e) (hi : i < s.runners.length)
    (relevant : (c.service service).filterEvent e = .done true) (hs : WorkerStep c s s') :
    Handing s' service i e ∨ InInbox s' i e := by
  have hstep := Attends.step h
    (fun r hr hhands => (leads_push relevant hr).mono fun reply hreply =>
      hhands.resume reply hreply.1.1 hreply.1.2 hreply.2)
    (fun item waiting hhands => by simp only [Hands, waiting] at hhands)
    (fun _ _ _ answered => answered.expected hi) hs
  rcases hstep with hhanding | ⟨q, reply, s₁, rfl, answered, aside⟩
  · exact Or.inl hhanding
  · right
    obtain ⟨t, ht⟩ : ∃ t, s.runners[i]? = some t := ⟨_, List.getElem?_eq_getElem hi⟩
    unfold InInbox
    rw [aside.runners i nofun]
    cases answered.deed with
    | nothing light _ _ _ => exact absurd hi (Nat.not_lt.mpr light)
    | push _ runners _ =>
      refine ⟨{ t with inbox := t.inbox ++ [e] }, by simp [runners, ht], ?_⟩
      exact List.mem_append_right _ (List.mem_singleton.mpr rfl)

theorem InInbox.step (h : InInbox s i e) (ha : a ≠ .runner i) (hp : Progress c s a s') :
    InInbox s' i e := by
  obtain ⟨t, ht, he⟩ := h
  obtain ⟨t', ht', hn⟩ := hp.runner ha ht
  exact ⟨t', ht', hn.mem_inbox he⟩

/-! ### Steps of anybody -/

structure Moves (c : Cast D) (s : System D) (a : Actor) (s' : System D) : Prop where
  progress : Progress c s a s'
  worker : a = .worker → WorkerStep c s s'
  alive : s'.worker.machine.phase.isOver = false

theorem Moves.kept (h : Moves c s a s') (hi : i < s.runners.length) (hk : Kept s service i) :
    Kept s' service i := by
  by_cases ha : a = .worker
  · exact hk.step hi (h.worker ha)
  · unfold Kept at hk ⊢
    rw [(h.progress.away ha).1]
    exact hk

theorem Moves.enrolled (h : Moves c s a s') (hi : i < s.runners.length)
    (he : Enrolled s service i) : Enrolled s' service i := by
  by_cases ha : a = .worker
  · exact he.step hi (h.worker ha) h.alive
  · obtain ⟨hworker, more, hmore⟩ := h.progress.away ha
    rcases he with hk | hqueue
    · exact Or.inl (h.kept hi hk)
    · right
      rw [hmore]
      exact List.mem_append_left _ hqueue

/-- An event stays on its way to a runner, up to the inbox. -/
theorem Moves.coming (h : Moves c s a s') (hi : i < s.runners.length)
    (relevant : (c.service service).filterEvent e = .done true) (hc : Coming s service i e) :
    Coming s' service i e ∨ InInbox s i e := by
  by_cases ha : a = .worker
  · left
    have hs := h.worker ha
    rcases hc with hqueued | hhanding | hinbox
    · exact (hqueued.step hi hs h.alive).imp_right Or.inl
    · exact Or.inr (hhanding.step hi relevant hs)
    · exact Or.inr (Or.inr (hinbox.step (by rw [ha]; exact nofun) h.progress))
  · obtain ⟨hworker, hmore⟩ := h.progress.away ha
    rcases hc with hqueued | hhanding | hinbox
    · exact Or.inl (Or.inl (hqueued.mono (h.kept hi) hmore))
    · left
      right
      left
      unfold Handing at hhanding ⊢
      rw [hworker]
      exact hhanding
    · exact Or.inr hinbox

end System

end Reveille
