import Reveille.Proofs.Bus.Stop
import Reveille.Proofs.Runner.Pass
import Reveille.Proofs.System.Passage
import Reveille.Proofs.System.Step

/-!
# What happens in a step

A `Label` says what happened in a step: the request of a routine that was answered, with the reply, and
the reply that the worker went on with.  `System.label` is the label of the next step of an actor.

`Turn` lists all steps with their labels, whatever the receivers, the services and the calls do and
whether the bus is open or not.  Every step is one of them (`turn_of_step`).  Of the steps of runners it
only says what they do to others; `RunnerTurn` has them in full.
-/

namespace Reveille

variable {D : Domain}

/-- What happened in one step of a run. -/
inductive Label (D : Domain) where
  /-- A call began. -/
  | began (f : Activity D D.Result)
  /-- An actor made a step, in which a request of its routine was answered, or the worker went on with
  a reply. -/
  | moved (a : Actor) (asked : Option (Exchange D.requests))
      (worked : Option (Exchange (Bus.Worker.requests (Receiver D) D.Event)))

namespace System

def first? {α : Type} : Routine D α → Option (Request D)
  | .ask q _ => some q
  | .done _ => none

def runnerRequest? (c : Cast D) (s : System D) (i : Nat) (t : RunnerTask D) : Option (Request D) :=
  match t.pending with
  | some r => first? r
  | none =>
    match s.runnerSource c i t t.machine.request with
    | .routine r => first? r
    | _ => none

def request? (c : Cast D) (s : System D) : Actor → Option (Request D)
  | .worker =>
    match s.worker.pending with
    | some r => first? r
    | none =>
      match s.workerSource c s.worker.machine.request with
      | .routine r => first? r
      | _ => none
  | .runner i =>
    match s.runners[i]? with
    | none => none
    | some t => if t.aborted && s.momentum i == 0 then none else s.runnerRequest? c i t
  | .call i =>
    match s.calls[i]? with
    | some (.running r) => first? r
    | _ => none

/-- That request with the reply to it. -/
def asked? (c : Cast D) (s : System D) (a : Actor) : Option (Exchange D.requests) :=
  match s.request? c a with
  | none => none
  | some q =>
    match s.perform c a q with
    | some (.reply reply, _) => some ⟨q, reply⟩
    | _ => none

/-- The reply with which the worker goes on from a routine in its next step. -/
def returned? (c : Cast D) (s : System D) (t : WorkerTask D) :
    Routine D t.machine.request.Reply → Option t.machine.request.Reply
  | .done reply => some reply
  | .ask q _ =>
    match s.perform c .worker q with
    | some (.panicked p, _) => panicReply p t.machine.request
    | _ => none

def workerReply? (c : Cast D) (s : System D) (t : WorkerTask D) : Option t.machine.request.Reply :=
  match t.pending with
  | some r => s.returned? c t r
  | none =>
    match s.workerSource c t.machine.request with
    | .atOnce reply _ => some reply
    | .routine r => s.returned? c t r
    | _ => none

def label (c : Cast D) (s : System D) : Actor → Label D
  | .worker => .moved .worker (s.asked? c .worker)
      ((s.workerReply? c s.worker).map fun reply => ⟨s.worker.machine.phase, reply⟩)
  | a => .moved a (s.asked? c a) none

abbrev Duties (D : Domain) : Signature := Runner.requests D.Event D.Id (Items D)

def runnerReply? (c : Cast D) (s : System D) (i : Nat) (t : RunnerTask D) :
    Option t.machine.request.Reply :=
  match t.pending with
  | some (.done reply) => some reply
  | some (.ask _ _) => none
  | none =>
    match s.runnerSource c i t t.machine.request with
    | .atOnce reply _ => some reply
    | .routine (.done reply) => some reply
    | _ => none

def replied? (c : Cast D) (s : System D) (i : Nat) : Actor → Option (Exchange (Duties D))
  | .runner j =>
    if j = i then s.runners[i]?.bind fun t =>
      if t.aborted && s.momentum i == 0 then none
      else (s.runnerReply? c i t).map fun reply => ⟨t.machine.request, reply⟩
    else none
  | _ => none

inductive Turn (c : Cast D) (s : System D) : Label D → System D → Prop
  | callAsked {i : Nat} {q : Request D} {rest : q.Reply → Routine D D.Result} {reply : q.Reply}
      {s₁ : System D} (task : s.calls[i]? = some (.running (.ask q rest)))
      (answer : s.perform c (.call i) q = some (.reply reply, s₁)) :
      Turn c s (.moved (.call i) (some ⟨q, reply⟩) none)
        { s₁ with calls := s₁.calls.set i (.running (rest reply)) }
  | callPanicked {i : Nat} {q : Request D} {rest : q.Reply → Routine D D.Result} {p : Panic}
      {s₁ : System D} (task : s.calls[i]? = some (.running (.ask q rest)))
      (answer : s.perform c (.call i) q = some (.panicked p, s₁)) :
      Turn c s (.moved (.call i) none none) { s₁ with calls := s₁.calls.set i (.ended (.error p)) }
  | callReturned {i : Nat} {result : D.Result} (task : s.calls[i]? = some (.running (.done result))) :
      Turn c s (.moved (.call i) none none) { s with calls := s.calls.set i (.ended (.ok result)) }
  | workerAsked {q : Request D} {rest : q.Reply → Routine D s.worker.machine.request.Reply}
      {reply : q.Reply} {s₁ : System D} (routine : WorkerIn c s (.ask q rest))
      (answer : s.perform c .worker q = some (.reply reply, s₁)) :
      Turn c s (.moved .worker (some ⟨q, reply⟩) none)
        { s₁ with worker := { s.worker with pending := some (rest reply) } }
  | workerPanicked {q : Request D} {rest : q.Reply → Routine D s.worker.machine.request.Reply}
      {p : Panic} {reply : s.worker.machine.request.Reply} {s₁ : System D}
      (routine : WorkerIn c s (.ask q rest))
      (answer : s.perform c .worker q = some (.panicked p, s₁))
      (panic : panicReply p s.worker.machine.request = some reply) :
      Turn c s (.moved .worker none (some ⟨s.worker.machine.phase, reply⟩))
        (s₁.resumeWorker c s.worker reply)
  | workerReturned {reply : s.worker.machine.request.Reply} (routine : WorkerIn c s (.done reply)) :
      Turn c s (.moved .worker none (some ⟨s.worker.machine.phase, reply⟩))
        (s.resumeWorker c s.worker reply)
  | workerServed {reply : s.worker.machine.request.Reply} {s₁ : System D}
      (idle : s.worker.pending = none)
      (source : s.workerSource c s.worker.machine.request = .atOnce reply s₁) :
      Turn c s (.moved .worker none (some ⟨s.worker.machine.phase, reply⟩))
        (s₁.resumeWorker c s.worker reply)
  | runnerAsked {i : Nat} {q : Request D} {reply : q.Reply} {s₁ s' : System D}
      (hired : i < s.runners.length)
      (answer : s.perform c (.runner i) q = some (.reply reply, s₁)) (aside : Aside (.runner i) s₁ s') :
      Turn c s (.moved (.runner i) (some ⟨q, reply⟩) none) s'
  | runnerPanicked {i : Nat} {q : Request D} {p : Panic} {s₁ s' : System D}
      (hired : i < s.runners.length)
      (answer : s.perform c (.runner i) q = some (.panicked p, s₁)) (aside : Aside (.runner i) s₁ s') :
      Turn c s (.moved (.runner i) none none) s'
  | runnerAlone {i : Nat} {s' : System D} (hired : i < s.runners.length)
      (aside : Aside (.runner i) s s') :
      Turn c s (.moved (.runner i) none none) s'
  | runnerCancelled {i : Nat} {t : RunnerTask D} (runner : s.runners[i]? = some t)
      (aborted : t.aborted = true) : Turn c s (.moved (.runner i) none none) (s.cancel i)

variable {c : Cast D} {s s' : System D} {a : Actor} {i : Nat}

theorem not_hired (unstaffed : s.runners = []) : ¬ i < s.runners.length := by
  rw [unstaffed]
  exact Nat.not_lt_zero i

theorem asked_of_answer {q : Request D} {reply : q.Reply} (hq : s.request? c a = some q)
    (answer : s.perform c a q = some (.reply reply, s')) : s.asked? c a = some ⟨q, reply⟩ := by
  simp only [asked?, hq, answer]

theorem asked_of_panicked {q : Request D} {p : Panic} (hq : s.request? c a = some q)
    (answer : s.perform c a q = some (.panicked p, s')) : s.asked? c a = none := by
  simp only [asked?, hq, answer]

theorem asked_of_none (hq : s.request? c a = none) : s.asked? c a = none := by
  simp only [asked?, hq]

theorem turn_of_call (h : s.step c (.call i) = some s') : Turn c s (s.label c (.call i)) s' := by
  show Turn c s (.moved (.call i) (s.asked? c (.call i)) none) s'
  simp only [step, stepCall] at h
  split at h
  · next result task =>
    cases h
    rw [asked_of_none (by simp only [request?, task, first?])]
    exact .callReturned task
  · next q rest task =>
    have hq : s.request? c (.call i) = some q := by simp only [request?, task, first?]
    split at h
    · cases h
    · next reply s₁ answer =>
      cases h
      rw [asked_of_answer hq answer]
      exact .callAsked task answer
    · next p s₁ answer =>
      cases h
      rw [asked_of_panicked hq answer]
      exact .callPanicked task answer
  · cases h

/-! ### The worker -/

theorem request_of_workerIn {r : Routine D s.worker.machine.request.Reply} (routine : WorkerIn c s r) :
    s.request? c .worker = first? r := by
  rcases routine with hp | ⟨hp, hsource⟩
  · simp only [request?, hp]
  · simp only [request?, hp, hsource]

theorem workerReply_of_workerIn {r : Routine D s.worker.machine.request.Reply}
    (routine : WorkerIn c s r) : s.workerReply? c s.worker = s.returned? c s.worker r := by
  rcases routine with hp | ⟨hp, hsource⟩
  · unfold workerReply?
    rw [hp]
  · unfold workerReply?
    rw [hp]
    dsimp only
    rw [hsource]

theorem turn_of_workerRoutine {r : Routine D s.worker.machine.request.Reply} (routine : WorkerIn c s r)
    (h : s.workerRoutine c s.worker r = some s') : Turn c s (s.label c .worker) s' := by
  have hq := request_of_workerIn routine
  have hreply := workerReply_of_workerIn routine
  rw [label, hreply]
  cases r with
  | done reply =>
    cases h
    rw [asked_of_none hq]
    exact .workerReturned routine
  | ask q rest =>
    simp only [workerRoutine] at h
    split at h
    · cases h
    · next reply s₁ answer =>
      cases h
      have hnone : s.returned? c s.worker (.ask q rest) = none := by simp only [returned?, answer]
      rw [asked_of_answer hq answer, hnone]
      exact .workerAsked routine answer
    · next p s₁ answer =>
      rw [Option.map_eq_some_iff] at h
      obtain ⟨reply, panic, rfl⟩ := h
      have hsome : s.returned? c s.worker (.ask q rest) = some reply := by
        simp only [returned?, answer, panic]
      rw [asked_of_panicked hq answer, hsome]
      exact .workerPanicked routine answer panic

theorem turn_of_worker (h : s.step c .worker = some s') : Turn c s (s.label c .worker) s' := by
  have h' : s.stepWorker c = some s' := h
  unfold stepWorker at h'
  dsimp only at h'
  split at h'
  · next r hr => exact turn_of_workerRoutine (Or.inl hr) h'
  · next idle =>
    split at h'
    · next reply s₁ source =>
      cases h'
      have hq : s.request? c .worker = none := by simp only [request?, idle, source]
      have hreply : s.workerReply? c s.worker = some reply := by
        unfold workerReply?
        rw [idle]
        dsimp only
        rw [source]
      rw [label, asked_of_none hq, hreply]
      exact .workerServed idle source
    · next s₁ source => exact absurd source workerSource_ne_later
    · next r source => exact turn_of_workerRoutine (Or.inr ⟨idle, source⟩) h'
    · cases h'

/-! ### Runners -/

variable {t : RunnerTask D}

/-- The momentum after a runner went on: a runner that was aborted has used up some of it. -/
inductive Paced (s : System D) (i : Nat) (t : RunnerTask D) : (Nat → Nat) → Prop
  | free (kept : t.aborted = false) : Paced s i t s.momentum
  | spent {n : Nat} (left : s.momentum i = n + 1) :
      Paced s i t fun j => if j = i then n else s.momentum j

inductive RunnerTurn (c : Cast D) (s : System D) (i : Nat) (t : RunnerTask D) :
    Option (Exchange D.requests) → Option (Exchange (Duties D)) → System D → Prop
  | asked {q : Request D} {rest : q.Reply → Routine D t.machine.request.Reply} {reply : q.Reply}
      {s₁ : System D} (routine : RunnerIn c s i t (.ask q rest))
      (answer : s.perform c (.runner i) q = some (.reply reply, s₁)) {momentum : Nat → Nat}
      (pace : Paced s i t momentum) :
      RunnerTurn c s i t (some ⟨q, reply⟩) none { s₁.modifyRunner i fun now =>
        { now with machine := t.machine, pending := some (rest reply) } with momentum }
  | panicked {q : Request D} {rest : q.Reply → Routine D t.machine.request.Reply} {p : Panic}
      {s₁ : System D} (routine : RunnerIn c s i t (.ask q rest))
      (answer : s.perform c (.runner i) q = some (.panicked p, s₁)) {momentum : Nat → Nat}
      (pace : Paced s i t momentum) :
      RunnerTurn c s i t none none { s₁.modifyRunner i fun now =>
        { now with ending := some (.panicked p) } with momentum }
  | returned {reply : t.machine.request.Reply} (routine : RunnerIn c s i t (.done reply))
      {momentum : Nat → Nat} (pace : Paced s i t momentum) :
      RunnerTurn c s i t none (some ⟨t.machine.request, reply⟩)
        { s.resumeRunner c i t reply with momentum }
  | served {reply : t.machine.request.Reply} {s₁ : System D} (idle : t.pending = none)
      (source : s.runnerSource c i t t.machine.request = .atOnce reply s₁) {momentum : Nat → Nat}
      (pace : Paced s i t momentum) :
      RunnerTurn c s i t none (some ⟨t.machine.request, reply⟩)
        { s₁.resumeRunner c i t reply with momentum }
  | timed {s₁ : System D} (idle : t.pending = none)
      (source : s.runnerSource c i t t.machine.request = .later s₁) {momentum : Nat → Nat}
      (pace : Paced s i t momentum) : RunnerTurn c s i t none none { s₁ with momentum }
  | cancelled (aborted : t.aborted = true) : RunnerTurn c s i t none none (s.cancel i)

abbrev runnerReplied? (c : Cast D) (s : System D) (i : Nat) (t : RunnerTask D) :
    Option (Exchange (Duties D)) :=
  (s.runnerReply? c i t).map fun reply => ⟨t.machine.request, reply⟩

section
variable (ht : s.runners[i]? = some t) (atWork : (t.aborted && s.momentum i == 0) = false)
  {momentum : Nat → Nat} (pace : Paced s i t momentum)
include ht atWork

theorem request_of_atWork : s.request? c (.runner i) = s.runnerRequest? c i t := by
  simp only [request?, ht, atWork, Bool.false_eq_true, if_false]

theorem replied_of_atWork : s.replied? c i (.runner i) = s.runnerReplied? c i t := by
  simp only [replied?, ht, if_true, Option.bind_some, atWork, Bool.false_eq_true, if_false]

include pace

theorem runnerTurn_of_routine {r : Routine D t.machine.request.Reply}
    (routine : RunnerIn c s i t r) (h : s.runnerRoutine c i t r = some s') :
    RunnerTurn c s i t (s.asked? c (.runner i)) (s.replied? c i (.runner i)) { s' with momentum } := by
  have hq : s.request? c (.runner i) = first? r := by
    rw [request_of_atWork ht atWork]
    rcases routine with hp | ⟨hp, hsource⟩
    · simp only [runnerRequest?, hp]
    · simp only [runnerRequest?, hp, hsource]
  rw [replied_of_atWork ht atWork, runnerReplied?]
  cases r with
  | done reply =>
    cases h
    have hreply : s.runnerReply? c i t = some reply := by
      rcases routine with hp | ⟨hp, hsource⟩
      · simp only [runnerReply?, hp]
      · simp only [runnerReply?, hp, hsource]
    rw [asked_of_none hq, hreply]
    exact .returned routine pace
  | ask q rest =>
    have hreply : s.runnerReply? c i t = none := by
      rcases routine with hp | ⟨hp, hsource⟩
      · simp only [runnerReply?, hp]
      · simp only [runnerReply?, hp, hsource]
    rw [hreply]
    simp only [runnerRoutine] at h
    split at h
    · cases h
    · next reply s₁ answer =>
      cases h
      rw [asked_of_answer hq answer]
      exact .asked routine answer pace
    · next p s₁ answer =>
      cases h
      rw [asked_of_panicked hq answer]
      exact .panicked routine answer pace

theorem runnerTurn_of_goOn (h : s.goOn c i t = some s') :
    RunnerTurn c s i t (s.asked? c (.runner i)) (s.replied? c i (.runner i)) { s' with momentum } := by
  unfold goOn at h
  split at h
  · next r hr => exact runnerTurn_of_routine ht atWork pace (Or.inl hr) h
  · next idle =>
    have hq := request_of_atWork (c := c) ht atWork
    have hreplied := replied_of_atWork (c := c) ht atWork
    split at h
    · next reply s₁ source =>
      cases h
      have hreply : s.runnerReply? c i t = some reply := by simp only [runnerReply?, idle, source]
      rw [asked_of_none (hq.trans (by simp only [runnerRequest?, idle, source])), hreplied,
        runnerReplied?, hreply]
      exact .served idle source pace
    · next s₁ source =>
      cases h
      have hreply : s.runnerReply? c i t = none := by simp only [runnerReply?, idle, source]
      rw [asked_of_none (hq.trans (by simp only [runnerRequest?, idle, source])), hreplied,
        runnerReplied?, hreply]
      exact .timed idle source pace
    · next r source => exact runnerTurn_of_routine ht atWork pace (Or.inr ⟨idle, source⟩) h
    · cases h

end

/-- A runner that cannot go on has a request that is not answered, or none. -/
theorem unanswered_of_blocked (h : s.goOn c i t = none) {q : Request D}
    (hq : s.runnerRequest? c i t = some q) : s.perform c (.runner i) q = none := by
  have routine {r : Routine D t.machine.request.Reply} (blocked : s.runnerRoutine c i t r = none)
      (first : first? r = some q) : s.perform c (.runner i) q = none := by
    cases r with
    | done reply => cases blocked
    | ask q' rest =>
      cases first
      simp only [runnerRoutine] at blocked
      split at blocked
      · assumption
      · cases blocked
      · cases blocked
  unfold goOn at h
  unfold runnerRequest? at hq
  split at h
  · next r hr => exact routine h (by simpa only [hr] using hq)
  · next idle =>
    simp only [idle] at hq
    split at hq
    · next r source =>
      rw [source] at h
      exact routine h hq
    · cases hq

theorem asked_of_blocked (ht : s.runners[i]? = some t) (h : s.goOn c i t = none) :
    s.asked? c (.runner i) = none := by
  cases hq : s.request? c (.runner i) with
  | none => exact asked_of_none hq
  | some q =>
    have hown : s.runnerRequest? c i t = some q := by
      simp only [request?, ht] at hq
      split at hq
      · cases hq
      · exact hq
    simp only [asked?, hq, unanswered_of_blocked h hown]

theorem replied_of_blocked (ht : s.runners[i]? = some t) (h : s.goOn c i t = none) :
    s.replied? c i (.runner i) = none := by
  have hreply : s.runnerReply? c i t = none := by
    unfold goOn at h
    unfold runnerReply?
    split at h
    · next r hr =>
      cases r with
      | done reply => cases h
      | ask q rest => rw [hr]
    · next idle =>
      rw [idle]
      dsimp only
      split at h
      · cases h
      · cases h
      · next r source =>
        cases r with
        | done reply => cases h
        | ask q rest => rw [source]
      · next source => rw [source]
  simp [replied?, ht, hreply]

/-- An aborted runner goes on while it is at work, or is dropped. -/
theorem runnerTurn_of_finishOff (ht : s.runners[i]? = some t) (aborted : t.aborted = true) :
    RunnerTurn c s i t (s.asked? c (.runner i)) (s.replied? c i (.runner i))
      ((s.finishOff c i t).getD (s.cancel i)) := by
  unfold finishOff
  split
  · next hn =>
    rw [asked_of_none (by simp [request?, ht, aborted, hn]),
      show s.replied? c i (.runner i) = none by simp [replied?, ht, aborted, hn]]
    exact .cancelled aborted
  · next n hn =>
    cases hgo : s.goOn c i t with
    | none =>
      rw [asked_of_blocked ht hgo, replied_of_blocked ht hgo]
      exact .cancelled aborted
    | some s₁ => exact runnerTurn_of_goOn ht (by simp [hn]) (.spent hn) hgo

theorem momentum_goOn (h : s.goOn c i t = some s') : s'.momentum = s.momentum := by
  have routine {r : Routine D t.machine.request.Reply} (h : s.runnerRoutine c i t r = some s') :
      s'.momentum = s.momentum := by
    cases r with
    | done reply =>
      cases h
      rfl
    | ask q rest =>
      simp only [runnerRoutine] at h
      split at h
      · cases h
      · next reply s₁ answer =>
        cases h
        have same := momentum_of_perform answer
        exact same
      · next p s₁ answer =>
        cases h
        have same := momentum_of_perform answer
        exact same
  unfold goOn at h
  split at h
  · exact routine h
  · split at h
    · next reply s₁ source =>
      cases h
      have same := momentum_of_source source
      exact same
    · next s₁ source =>
      cases h
      obtain ⟨d, inboxOpen, -, -, rfl⟩ := runnerSource_later source
      rfl
    · exact routine h
    · cases h

theorem runnerTurn_of_step (h : s.step c (.runner i) = some s') :
    ∃ t, s.runners[i]? = some t ∧ t.mayRun = true ∧
      RunnerTurn c s i t (s.asked? c (.runner i)) (s.replied? c i (.runner i)) s' := by
  simp only [step, stepRunner] at h
  split at h
  · cases h
  · next t ht =>
    split at h
    · next hrun =>
      refine ⟨t, ht, hrun, ?_⟩
      split at h
      · next aborted =>
        cases h
        exact runnerTurn_of_finishOff ht aborted
      · next kept =>
        have pace : Paced s i t s'.momentum :=
          momentum_goOn h ▸ .free (Bool.eq_false_iff.mpr kept)
        exact runnerTurn_of_goOn ht (by simp [kept]) pace h
    · cases h

theorem turn_of_runner (h : s.step c (.runner i) = some s') : Turn c s (s.label c (.runner i)) s' := by
  obtain ⟨t, ht, -, turn⟩ := runnerTurn_of_step h
  have hired : i < s.runners.length := (List.getElem?_eq_some_iff.mp ht).1
  show Turn c s (.moved (.runner i) (s.asked? c (.runner i)) none) s'
  generalize s.asked? c (.runner i) = asked at turn ⊢
  generalize s.replied? c i (.runner i) = replied at turn
  cases turn with
  | asked routine answer pace =>
    refine .runnerAsked hired answer (Aside.trans (aside_modifyRunner ?_) aside_momentum)
    exact fun _ => rfl
  | panicked routine answer pace =>
    refine .runnerPanicked hired answer (Aside.trans (aside_modifyRunner ?_) aside_momentum)
    exact fun _ => rfl
  | returned routine pace =>
    exact .runnerAlone hired ((resumeRunner_spec (t := t) _ ht).1.trans aside_momentum)
  | served idle source pace =>
    obtain ⟨_, -, aside, ht₁⟩ := runnerSource_atOnce ht source
    exact .runnerAlone hired ((aside.trans (resumeRunner_spec (t := t) _ ht₁).1).trans aside_momentum)
  | timed idle source pace =>
    obtain ⟨d, inboxOpen, -, -, rfl⟩ := runnerSource_later source
    refine .runnerAlone hired (Aside.trans (aside_modifyRunner ?_) aside_momentum)
    exact fun _ => rfl
  | cancelled aborted => exact .runnerCancelled ht aborted

theorem turn_of_step (h : s.step c a = some s') : Turn c s (s.label c a) s' := by
  cases a with
  | worker => exact turn_of_worker h
  | runner i => exact turn_of_runner h
  | call i => exact turn_of_call h

end System

end Reveille
