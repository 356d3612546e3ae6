import Reveille.Proofs.System.Residual

/-!
# What routines are made of

All routines of a system are made of single requests and of three longer ones: to commit a command, to close
the bus, and to start a runner.  So a property that these have, and that is kept when routines are run one
after another, is a habit of everybody (`Habit.activity`, `Habit.fresh`).
-/

namespace Reveille.System

open Bus

variable {D : Domain} {c : Cast D} {s : System D} {a : Actor} {i : Nat} {α β : Type}

def Request.Single : Request D → Prop
  | .enter | .requestSlot | .awaitSlot | .commit _ | .beginClose | .awaitWorker | .hire _ | .launch _
  | .release _ | .push _ _ => False
  | _ => True

/-- A property of routines that is kept whatever an actor does. -/
structure Habit (a : Actor) (P : {α : Type} → Routine D α → Prop) : Prop where
  done : ∀ {α : Type} (v : α), P (.done v : Routine D α)
  bind : ∀ {α β : Type} {r : Routine D α} {f : α → Routine D β}, P r → (∀ v, P (f v)) → P (r.bind f)
  single : ∀ q : Request D, q.Single → P (Routine.query q)
  send : ∀ e, P (Routine.enqueue (D := D) (.event e))
  register : ∀ k, P (Routine.enqueue (D := D) (.register (.sink k)))
  close : P (Routine.close (D := D))
  startRunner : ∀ service, P (Routine.startRunner (D := D) service)
  /-- Only the worker puts anything into an inbox. -/
  push : a = .worker → ∀ i e, P (Routine.query (.push i e : Request D))

namespace Habit

variable {P : {α : Type} → Routine D α → Prop}

theorem effect (h : Habit a P) (e : Effect D) : P e.routine := by
  cases e with
  | send e => exact h.send e
  | register k => exact h.register k
  | closeBus => exact h.close
  | startRunner service => exact h.startRunner service
  | _ => exact h.single _ trivial

theorem activity (h : Habit a P) (f : Activity D α) : P f.routine := by
  induction f with
  | done v => exact h.done v
  | ask e rest ih => exact h.bind (h.effect e) ih

theorem ask (h : Habit a P) {q : Request D} (hq : q.Single) {f : q.Reply → Routine D β}
    (hf : ∀ reply, P (f reply)) : P (.ask q f) :=
  h.bind (h.single q hq) hf

theorem forward (h : Habit .worker P) {service : Service D} {e : D.Event} :
    P (Cast.forward service i e) := by
  refine h.ask (q := .isInboxOpen i) trivial fun isOpen => ?_
  cases (isOpen : Bool) with
  | false => exact h.done _
  | true =>
    show P ((service.filterEvent e).routine.bind _)
    refine h.bind (h.activity (service.filterEvent e)) fun relevant => ?_
    cases relevant with
    | false => exact h.done _
    | true =>
      show P ((Routine.query (.push i e)).bind _)
      refine h.bind (h.push rfl i e) fun pushed => ?_
      cases (pushed : Bool) with
      | false => exact h.single (.log _) trivial
      | true => exact h.done _

theorem detach (h : Habit a P) {service : Service D} : P (Cast.detach service i) := by
  refine h.ask (q := .isInboxOpen i) trivial fun isOpen => ?_
  cases (isOpen : Bool) <;> exact h.single (.log _) trivial

theorem workerSource (h : Habit .worker P) {q : Worker.Request (Receiver D) D.Event}
    {r : Routine D q.Reply} (source : s.workerSource c q = .routine r) : P r := by
  cases q with
  | receive => exact absurd source receive_ne_routine
  | isRetired k =>
    cases source
    refine h.bind ?_ fun _ => h.done _
    cases k with
    | sink k => exact h.activity _
    | inbox service i => exact h.ask (q := .isInboxOpen i) trivial fun _ => h.done _
  | deliver k e =>
    cases source
    refine h.bind ?_ fun _ => h.done _
    cases k with
    | sink k => exact h.activity _
    | inbox service i => exact h.forward
  | stop k =>
    cases source
    refine h.bind ?_ fun _ => h.done _
    cases k with
    | sink k => exact h.activity _
    | inbox service i => exact h.detach
  | finished => cases source

theorem runnerSource (h : Habit a P) {t : RunnerTask D} {q : Runner.Request D.Event D.Id (Items D)}
    {r : Routine D q.Reply} (source : s.runnerSource c i t q = .routine r) : P r := by
  cases q with
  | readClock =>
    cases source
    exact h.single _ trivial
  | isStopRequested => cases source
  | checkInterval =>
    cases source
    exact h.bind (h.activity _) fun _ => h.ask (q := .draw) trivial fun _ => h.done _
  | wait limit inboxOpen => exact absurd source wait_ne_routine
  | finished => cases source
  | _ =>
    cases source
    exact h.activity _

theorem fresh (h : Habit a P) {r : Routine D Unit} (begins : Fresh c s a r) : P r := by
  cases a with
  | worker =>
    obtain ⟨-, r', source, rfl⟩ := begins
    exact h.bind (h.workerSource source) fun _ => h.done _
  | runner i =>
    obtain ⟨t, r', -, -, source, rfl⟩ := begins
    exact h.bind (h.runnerSource source) fun _ => h.done _
  | call i => cases begins

end Habit

end Reveille.System
