import Mathlib.Data.List.Induction
import Reveille.Proofs.System.Inbox

/-!
# Rounds of the worker

While the worker waits for a receiver, the requests of this receiver are answered.  A `Round` is all that was
answered until the worker went on with a reply, and `rounds` splits a history into rounds, with the present
one at the end.

The answers of a round lead through the routine of the receiver, up to its end or to a request that panicked,
and those of the present round lead to what is left of the routine (`Run.rounded`).  As nobody but the worker
puts anything into an inbox, all that is put there is put there in rounds (`Run.mail_eq`).
-/

namespace Reveille

open Bus Program

variable {D : Domain} {c : Cast D} {a : Actor}

/-- What was answered while the worker waited, and the reply with which it went on. -/
structure Round (D : Domain) where
  asked : List (Exchange D.requests)
  reply : Exchange (Worker.requests (Receiver D) D.Event)

/-- The rounds that are over, and what was answered since. -/
structure Rounds (D : Domain) where
  past : List (Round D) := []
  present : List (Exchange D.requests) := []

def Rounds.note (r : Rounds D) : Label D → Rounds D
  | .moved _ _ (some x) => { past := r.past ++ [⟨r.present, x⟩] }
  | .moved .worker (some x) none => { r with present := r.present ++ [x] }
  | _ => r

def Rounds.mail (i : Nat) (r : Rounds D) : List D.Event :=
  r.past.flatMap (fun x => x.asked.filterMap (mail? i)) ++ r.present.filterMap (mail? i)

def rounds (τ : List (Label D)) : Rounds D := τ.foldl Rounds.note {}

namespace System

def errand (c : Cast D) : (q : Worker.Request (Receiver D) D.Event) → Option (Routine D q.Reply)
  | .isRetired r => some ((c.isRetired r).bind fun b => .done (.ok b))
  | .deliver r e => some ((c.onEvent r e).bind fun _ => .done (.ok ()))
  | .stop r => some ((c.onStop r).bind fun _ => .done (.ok ()))
  | .receive | .finished => none

/-- The answers of a round lead to the reply with which the worker went on. -/
inductive Closed (c : Cast D) : Round D → Prop
  | served {p : Worker.Phase (Receiver D) D.Event} {reply : p.request.Reply}
      (idle : errand c p.request = none) : Closed c ⟨[], ⟨p, reply⟩⟩
  | returned {p : Worker.Phase (Receiver D) D.Event} {r₀ : Routine D p.request.Reply}
      {xs : List (Exchange D.requests)} {reply : p.request.Reply}
      (begun : errand c p.request = some r₀) (path : Path r₀ xs (.done reply)) :
      Closed c ⟨xs, ⟨p, reply⟩⟩
  | panicked {p : Worker.Phase (Receiver D) D.Event} {r₀ : Routine D p.request.Reply}
      {xs : List (Exchange D.requests)} {q : Request D} {rest : q.Reply → Routine D p.request.Reply}
      {panic : Panic} {reply : p.request.Reply} (begun : errand c p.request = some r₀)
      (path : Path r₀ xs (.ask q rest)) (panics : q.Panics)
      (told : panicReply panic p.request = some reply) : Closed c ⟨xs, ⟨p, reply⟩⟩

variable {s s' s₀ s₁ : System D} {i : Nat} {q : Request D} {τ : List (Label D)} {l : Label D}

theorem rounds_concat : rounds (τ ++ [l]) = (rounds τ).note l := List.foldl_concat _ _ _ _

theorem rounds_worked {asked : Option (Exchange D.requests)}
    {x : Exchange (Worker.requests (Receiver D) D.Event)} :
    rounds (τ ++ [.moved a asked (some x)]) =
      { past := (rounds τ).past ++ [⟨(rounds τ).present, x⟩] } := by
  rw [rounds_concat]
  cases a <;> cases asked <;> rfl

theorem rounds_asked {x : Exchange D.requests} : rounds (τ ++ [.moved .worker (some x) none]) =
    { rounds τ with present := (rounds τ).present ++ [x] } := rounds_concat

theorem rounds_aside {asked : Option (Exchange D.requests)} (ha : a ≠ .worker) :
    rounds (τ ++ [.moved a asked none]) = rounds τ := by
  rw [rounds_concat]
  cases a with
  | worker => exact absurd rfl ha
  | _ => cases asked <;> rfl

theorem rounds_began {f : Activity D D.Result} : rounds (τ ++ [.began f]) = rounds τ := rounds_concat

theorem worked_eq : worked τ = (rounds τ).past.map Round.reply := by
  induction τ using List.reverseRecOn with
  | nil => rfl
  | append_singleton τ l ih =>
    rw [worked_concat, ih]
    match l with
    | .began f =>
      rw [rounds_began]
      exact List.append_nil _
    | .moved a asked (some x) =>
      rw [rounds_worked, List.map_append]
      rfl
    | .moved a asked none =>
      rw [rounds_concat]
      cases a <;> cases asked <;> exact List.append_nil _

/-! ### One step -/

/-- What a step means to the worker. -/
inductive Shift (c : Cast D) (s : System D) : Label D → System D → Prop
  | asked {q : Request D} {rest : q.Reply → Routine D s.worker.machine.request.Reply}
      {reply : q.Reply} {s₁ : System D} (routine : WorkerIn c s (.ask q rest))
      (answer : s.perform c .worker q = some (.reply reply, s₁)) :
      Shift c s (.moved .worker (some ⟨q, reply⟩) none)
        { s₁ with worker := { s.worker with pending := some (rest reply) } }
  | served {reply : s.worker.machine.request.Reply} {s₁ : System D} (idle : s.worker.pending = none)
      (waiting : s.worker.machine.phase = .waiting) :
      Shift c s (.moved .worker none (some ⟨s.worker.machine.phase, reply⟩))
        (s₁.resumeWorker c s.worker reply)
  | returned {reply : s.worker.machine.request.Reply} {s₁ : System D}
      (routine : WorkerIn c s (.done reply)) :
      Shift c s (.moved .worker none (some ⟨s.worker.machine.phase, reply⟩))
        (s₁.resumeWorker c s.worker reply)
  | panicked {q : Request D} {rest : q.Reply → Routine D s.worker.machine.request.Reply}
      {p : Panic} {reply : s.worker.machine.request.Reply} {s₁ : System D}
      (routine : WorkerIn c s (.ask q rest)) (panics : q.Panics)
      (told : panicReply p s.worker.machine.request = some reply) :
      Shift c s (.moved .worker none (some ⟨s.worker.machine.phase, reply⟩))
        (s₁.resumeWorker c s.worker reply)
  | aside {a : Actor} {asked : Option (Exchange D.requests)} {s' : System D} (ha : a ≠ .worker)
      (worker : s'.worker = s.worker) : Shift c s (.moved a asked none) s'

theorem shift_of_turn (h : Turn c s l s') : Shift c s l s' := by
  cases h with
  | callAsked task answer => exact .aside nofun (perform_frame answer).1
  | callPanicked task answer => exact .aside nofun (perform_frame answer).1
  | callReturned task => exact .aside nofun rfl
  | workerAsked routine answer => exact .asked routine answer
  | workerPanicked routine answer panic => exact .panicked routine (channel_of_panicked answer).1 panic
  | workerReturned routine => exact .returned routine
  | workerServed idle source => exact .served idle (served_cases source).1
  | runnerAsked hired answer aside =>
    exact .aside nofun ((aside.worker nofun).trans (perform_frame answer).1)
  | runnerPanicked hired answer aside =>
    exact .aside nofun ((aside.worker nofun).trans (perform_frame answer).1)
  | runnerAlone hired aside => exact .aside nofun (aside.worker nofun)
  | runnerCancelled runner aborted => exact .aside nofun rfl

theorem shift_of_step (h : s.step c a = some s') : Shift c s (s.label c a) s' :=
  shift_of_turn (turn_of_step h)

/-! ### The ways through the routines -/

theorem errand_of_source {q : Worker.Request (Receiver D) D.Event} {r : Routine D q.Reply}
    (h : s.workerSource c q = .routine r) : errand c q = some r := by
  cases q with
  | receive => exact absurd h receive_ne_routine
  | finished => cases h
  | _ =>
    cases h
    rfl

structure Rounded (c : Cast D) (τ : List (Label D)) (s : System D) : Prop where
  past : ∀ x ∈ (rounds τ).past, Closed c x
  idle : s.worker.pending = none → (rounds τ).present = []
  way : ∀ r, s.worker.pending = some r →
    ∃ r₀, errand c s.worker.machine.request = some r₀ ∧ Path r₀ (rounds τ).present r

theorem Rounded.leads (h : Rounded c τ s) {r : Routine D s.worker.machine.request.Reply}
    (routine : WorkerIn c s r) :
    ∃ r₀, errand c s.worker.machine.request = some r₀ ∧ Path r₀ (rounds τ).present r := by
  rcases routine with hp | ⟨hp, hsource⟩
  · exact h.way r hp
  · refine ⟨r, errand_of_source hsource, ?_⟩
    rw [h.idle hp]
    exact .refl r

theorem Rounded.resumed (h : Rounded c τ s) {reply : s.worker.machine.request.Reply}
    (closed : Closed c ⟨(rounds τ).present, ⟨s.worker.machine.phase, reply⟩⟩) :
    Rounded c (τ ++ [.moved .worker none (some ⟨s.worker.machine.phase, reply⟩)])
      (s₁.resumeWorker c s.worker reply) := by
  refine ⟨fun x hx => ?_, fun _ => ?_, nofun⟩
  · rw [rounds_worked] at hx
    rcases List.mem_append.mp hx with hx | hx
    · exact h.past x hx
    · rw [List.mem_singleton.mp hx]
      exact closed
  · rw [rounds_worked]

theorem Rounded.shift (h : Rounded c τ s) (shift : Shift c s l s') : Rounded c (τ ++ [l]) s' := by
  cases shift with
  | @asked q rest reply s₁ routine answer =>
    obtain ⟨r₀, begun, path⟩ := h.leads routine
    refine ⟨?_, nofun, fun r hr => ⟨r₀, begun, ?_⟩⟩
    · rw [rounds_asked]
      exact h.past
    · rw [rounds_asked, ← Option.some.inj hr]
      exact path.concat reply
  | @served reply s₁ idle waiting =>
    refine h.resumed ?_
    rw [h.idle idle]
    exact .served (by rw [waiting]; rfl)
  | returned routine =>
    obtain ⟨r₀, begun, path⟩ := h.leads routine
    exact h.resumed (.returned begun path)
  | panicked routine panics told =>
    obtain ⟨r₀, begun, path⟩ := h.leads routine
    exact h.resumed (.panicked begun path panics told)
  | aside ha worker =>
    obtain ⟨past, idle, way⟩ := h
    rw [← rounds_aside ha, ← worker] at *
    exact ⟨past, idle, way⟩

theorem Run.rounded (new : s₀.IsNew) (h : Run c s₀ τ s) : Rounded c τ s := by
  induction h with
  | refl =>
    refine ⟨nofun, fun _ => rfl, ?_⟩
    rw [new.worker]
    exact nofun
  | step before h ih => exact ih.shift (shift_of_step h)
  | call before f ih =>
    obtain ⟨past, idle, way⟩ := ih
    rw [← rounds_began] at past idle way
    exact ⟨past, idle, way⟩
  | outside before h ih =>
    obtain ⟨past, idle, way⟩ := ih
    rw [← h.worker] at *
    exact ⟨past, idle, way⟩

/-! ### What is put into an inbox -/

/-- What is put into the inbox of a runner is put there by the worker, in one of its rounds. -/
theorem Run.mail_eq (new : s₀.IsNew) (h : Run c s₀ τ s) : mail i τ = (rounds τ).mail i := by
  induction h with
  | refl => rfl
  | @step τ s s' before a h ih =>
    have outward := ((before.step h).registry new).outward _
      (List.mem_append_right τ (List.mem_singleton_self _))
    have shift := shift_of_step h
    rw [mail_concat, ih]
    generalize s.label c a = l at shift outward
    cases shift with
    | @asked q rest reply s₁ routine answer =>
      rw [rounds_asked, Rounds.mail, Rounds.mail, List.filterMap_append, ← List.append_assoc]
      show _ ++ (mail? i ⟨q, reply⟩).toList = _
      cases hx : mail? i ⟨q, reply⟩ <;> simp [hx]
    | @aside a asked s' ha worker =>
      have hnone : (Label.moved a asked none : Label D).mail? i = none := by
        rcases asked with _ | ⟨q, reply⟩
        · rfl
        · cases q with
          | push j e => exact absurd outward ha
          | _ => rfl
      rw [rounds_aside ha, hnone]
      exact List.append_nil _
    | _ =>
      rw [rounds_worked]
      simp [Rounds.mail, Label.mail?]
  | call before f ih =>
    rw [mail_concat, ih, rounds_began]
    exact List.append_nil _
  | outside before h ih => exact ih

end System

end Reveille
