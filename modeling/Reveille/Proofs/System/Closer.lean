import Reveille.Proofs.System.Crossing
import Reveille.Proofs.System.Cut

/-!
# Who closes the bus

Whoever closes the bus waits for the end of its worker next (`Awaits`).  So a receiver that does so
never comes back to the worker that called it; when the worker is not in a receiver, the bus was
closed by a call from outside, if it was closed (`Held.closer`).
-/

namespace Reveille.System

open Bus Bus.Worker

variable {D : Domain} {c : Cast D} {s s' s₀ : System D} {τ : List (Label D)} {l : Label D} {a : Actor}
  {α β : Type}

/-- Whoever is told that it closes the bus waits for the worker next. -/
def Awaits : Routine D α → Prop
  | .done _ => True
  | .ask q rest => ∀ reply, Awaits (rest reply) ∧
      (closes ⟨q, reply⟩ = true → ∃ rest', rest reply = .ask .awaitWorker rest')

theorem Awaits.bind {r : Routine D α} {f : α → Routine D β} (h : Awaits r) (hf : ∀ v, Awaits (f v)) :
    Awaits (r.bind f) := by
  induction r with
  | done v => exact hf v
  | ask q rest ih =>
    refine fun reply => ⟨ih reply (h reply).1, fun hcloses => ?_⟩
    obtain ⟨rest', hrest⟩ := (h reply).2 hcloses
    refine ⟨fun reply => (rest' reply).bind f, ?_⟩
    show (rest reply).bind f = _
    rw [hrest]
    rfl

theorem awaits_of_only {r : Routine D α} (h : r.Only Request.LeavesOpen) : Awaits r := by
  induction r with
  | done v => exact trivial
  | ask q rest ih =>
    exact fun reply => ⟨ih reply (h.2 reply), fun hcloses => absurd (request_of_closes hcloses) h.1⟩

theorem awaits_close : Awaits (Routine.close (D := D)) := by
  intro first
  cases (first : Bool) with
  | false => exact ⟨trivial, nofun⟩
  | true =>
    refine ⟨fun reply => ⟨?_, nofun⟩, fun _ => ⟨_, rfl⟩⟩
    match reply with
    | (_, .ok ()) => exact trivial
    | (task, .error p) => exact fun _ => ⟨trivial, nofun⟩

theorem not_isOver_of_isCalling {R E : Type} {p : Phase R E} (h : p.isCalling = true) :
    p.isOver = false := by
  cases p <;> first | rfl | cases h

theorem closedBy?_concat : closedBy? (τ ++ [l]) = (closedBy? τ).or l.closer? := by
  rw [closedBy?, List.findSome?_append, List.findSome?_singleton]
  rfl

section
variable [IsEmpty D.Service]

theorem awaits_effect (e : Effect D) : Awaits e.routine := by
  cases e with
  | send e => exact awaits_of_only (enqueue_only _)
  | register k => exact awaits_of_only (enqueue_only _)
  | closeBus => exact awaits_close
  | startRunner s => exact isEmptyElim s
  | requestStop h => exact isEmptyElim h.service
  | awaitEnd h until? => exact isEmptyElim h.service
  | abort h => exact isEmptyElim h.service
  | _ => exact fun reply => ⟨trivial, nofun⟩

theorem awaits_activity (f : Activity D α) : Awaits f.routine := by
  induction f with
  | done v => exact trivial
  | ask e rest ih => exact (awaits_effect e).bind ih

/-- A receiver is asked by the routine of an activity. -/
theorem routine_of_source {q : Worker.Request (Receiver D) D.Event} {r : Routine D q.Reply}
    (h : s.workerSource c q = .routine r) :
    ∃ (α : Type) (f : Activity D α) (reply : α → q.Reply), r = f.routine.bind fun v => .done (reply v) := by
  cases q with
  | receive => exact absurd h receive_ne_routine
  | isRetired k =>
    cases h
    cases k with
    | sink k => exact ⟨_, _, _, rfl⟩
    | inbox service i => exact isEmptyElim service
  | deliver k e =>
    cases h
    cases k with
    | sink k => exact ⟨_, _, fun _ => .ok (), rfl⟩
    | inbox service i => exact isEmptyElim service
  | stop k =>
    cases h
    cases k with
    | sink k => exact ⟨_, _, fun _ => .ok (), rfl⟩
    | inbox service i => exact isEmptyElim service
  | finished => cases h

theorem awaits_source {q : Worker.Request (Receiver D) D.Event} {r : Routine D q.Reply}
    (h : s.workerSource c q = .routine r) : Awaits r := by
  obtain ⟨α, f, reply, rfl⟩ := routine_of_source h
  exact (awaits_activity f).bind fun _ => trivial

/-- A worker that closed the bus waits for its own end. -/
structure Held (τ : List (Label D)) (s : System D) : Prop where
  awaits : ∀ r, s.worker.pending = some r → Awaits r
  held : ∀ a, closedBy? τ = some a → (∃ i, a = .call i) ∨
    a = .worker ∧ ∃ rest, s.worker.pending = some (.ask .awaitWorker rest)

omit [IsEmpty D.Service] in
/-- A worker that is not in a receiver did not close the bus. -/
theorem Held.closer (h : Held τ s) (idle : s.worker.pending = none) (closer : closedBy? τ = some a) :
    ∃ i, a = .call i := by
  rcases h.held a closer with hcall | ⟨-, rest, hrest⟩
  · exact hcall
  · cases idle.symm.trans hrest

omit [IsEmpty D.Service] in
theorem Held.aside (h : Held τ s) (worker : s'.worker = s.worker)
    (closer : ∀ a, l.closer? = some a → ∃ i, a = .call i) : Held (τ ++ [l]) s' := by
  refine ⟨worker ▸ h.awaits, fun a ha => ?_⟩
  rw [closedBy?_concat, Option.or_eq_some_iff] at ha
  rw [worker]
  exact ha.elim (h.held a) fun ha => Or.inl (closer a ha.2)

omit [IsEmpty D.Service] in
theorem Held.resumed (h : Held τ s) {s₁ : System D} {t : WorkerTask D} {reply : t.machine.request.Reply}
    {worked : Option (Exchange (Worker.requests (Receiver D) D.Event))}
    (free : ∀ rest, s.worker.pending ≠ some (.ask .awaitWorker rest)) :
    Held (τ ++ [.moved .worker none worked]) (s₁.resumeWorker c t reply) := by
  refine ⟨nofun, fun a ha => ?_⟩
  rw [closedBy?_concat, Option.or_eq_some_iff] at ha
  refine Or.inl ((h.held a ?_).resolve_right fun ⟨_, rest, hrest⟩ => free rest hrest)
  exact ha.resolve_right fun ha => nomatch ha.2

theorem Held.turn (h : Held τ s) (account : Account τ s) (unstaffed : s.runners = [])
    (turn : Turn c s l s') : Held (τ ++ [l]) s' := by
  have none_closes {b : Actor} {worked : Option (Exchange (Worker.requests (Receiver D) D.Event))}
      (a : Actor) (ha : (Label.moved b none worked : Label D).closer? = some a) : ∃ i, a = .call i := by
    cases ha
  cases turn with
  | callAsked task answer =>
    refine h.aside (perform_frame answer).1 fun a ha => ?_
    obtain ⟨x, htold, -⟩ := closer?_eq_some.mp ha
    obtain ⟨worked, hl⟩ := told?_eq_some.mp htold
    cases hl
    exact ⟨_, rfl⟩
  | callPanicked task answer => exact h.aside (perform_frame answer).1 none_closes
  | callReturned task => exact h.aside rfl none_closes
  | @workerAsked q rest reply s₁ routine answer =>
    have hawaits : Awaits (.ask q rest) := routine.elim (h.awaits _) fun hr => awaits_source hr.2
    refine ⟨fun r hr => Option.some.inj hr ▸ (hawaits reply).1, fun a ha => ?_⟩
    rw [closedBy?_concat, Option.or_eq_some_iff] at ha
    rcases ha with ha | ⟨-, ha⟩
    · refine Or.inl ((h.held a ha).resolve_right fun ⟨_, rest', hrest⟩ => ?_)
      -- It waits for its own end, so this request is not answered.
      rcases routine with hp | ⟨hp, -⟩
      · cases hp.symm.trans hrest
        have hover := isOver_of_reportsEnd answer rfl
        have hcalling := account.calling (by rw [hp]; exact Option.some_ne_none _)
        exact absurd (hover.symm.trans (not_isOver_of_isCalling hcalling)) nofun
      · cases hp.symm.trans hrest
    · obtain ⟨x, htold, hcloses⟩ := closer?_eq_some.mp ha
      obtain ⟨worked, hl⟩ := told?_eq_some.mp htold
      cases hl
      obtain ⟨rest', hrest⟩ := (hawaits reply).2 hcloses
      exact Or.inr ⟨rfl, rest', congrArg some hrest⟩
  | workerPanicked routine answer panic =>
    refine h.resumed fun rest' hrest => ?_
    have hpanics := (channel_of_panicked answer).1
    rcases routine with hp | ⟨hp, -⟩
    · cases hp.symm.trans hrest
      exact hpanics
    · cases hp.symm.trans hrest
  | workerReturned routine =>
    refine h.resumed fun rest' hrest => ?_
    rcases routine with hp | ⟨hp, -⟩
    · cases hp.symm.trans hrest
    · cases hp.symm.trans hrest
  | workerServed idle source => exact h.resumed fun rest' hrest => by cases idle.symm.trans hrest
  | runnerAsked hired answer aside => exact absurd hired (not_hired unstaffed)
  | runnerPanicked hired answer aside => exact absurd hired (not_hired unstaffed)
  | runnerAlone hired aside => exact absurd hired (not_hired unstaffed)
  | @runnerCancelled i t runner aborted => exact isEmptyElim t.service

theorem Run.held (new : s₀.IsNew) (h : Run c s₀ τ s) : Held τ s := by
  induction h with
  | refl =>
    have idle (t : WorkerTask D) (ht : t = {}) (r) (hr : t.pending = some r) : Awaits r := by
      subst ht
      cases hr
    exact ⟨idle s₀.worker new.worker, nofun⟩
  | step before h ih =>
    exact ih.turn (before.account new) (unstaffed _) (turn_of_step h)
  | call before f ih => exact ih.aside rfl nofun
  | outside before h ih => exact ⟨h.worker ▸ ih.awaits, h.worker ▸ ih.held⟩

end

end Reveille.System
