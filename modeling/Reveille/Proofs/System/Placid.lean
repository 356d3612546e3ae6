import Reveille.Proofs.System.Alike
import Reveille.Proofs.System.Career

/-!
# Runs in which receivers return where they panic

In a `PlacidRun` the calls to some receivers return, there and then, where they would panic; to the
question whether it is retired such a receiver answers no.  All else is as in a `Run`.

A worker goes on from a panic as it does from a return (`placidReply_cases`), unless it asked whether a
receiver is retired.  So a step and a placid one lead to the same system (`placid_alike`), and until there
is a panic at such a question the runs of both kinds go side by side (`Run.beside`, `PlacidRun.beside`).
-/

namespace Reveille

open Bus Bus.Worker

variable {D : Domain}

/-- Nobody panicked when it was asked whether it is retired. -/
def Label.Composed (l : Label D) : Prop := ∀ x, l.worked? = some x → isComposed x = true

namespace System

/-- The reply of a receiver that panics; a receiver of `who` returns instead, and is not retired. -/
def placidReply (who : Receiver D → Bool) (p : Panic) :
    (q : Bus.Worker.Request (Receiver D) D.Event) → Option q.Reply
  | .isRetired r => some (if who r then .ok false else .error p)
  | .deliver r _ => some (if who r then .ok () else .error p)
  | .stop r => some (if who r then .ok () else .error p)
  | .receive => none
  | .finished => none

/-- The reply of a receiver of `who` that returned where the other panicked, or the same reply. -/
inductive Placated (who : Receiver D → Bool) (x : Exchange (Worker.requests (Receiver D) D.Event)) :
    Exchange (Worker.requests (Receiver D) D.Event) → Prop
  | same : Placated who x x
  | returned {p : Panic} {reply : x.request.request.Reply}
      (panicked : panicReply p x.request.request = some x.reply)
      (placid : placidReply who p x.request.request = some reply) : Placated who x ⟨x.request, reply⟩

/-- The same happened, but that receivers of `who` returned where they panicked. -/
inductive Like (who : Receiver D → Bool) : Label D → Label D → Prop
  | began (f : Activity D D.Result) : Like who (.began f) (.began f)
  | moved (a : Actor) (asked : Option (Exchange D.requests))
      {worked worked' : Option (Exchange (Worker.requests (Receiver D) D.Event))}
      (placated : Option.Rel (Placated who) worked worked') :
      Like who (.moved a asked worked) (.moved a asked worked')

/-- The panic in which a call to a receiver ends in the next step of the worker, with the system at
that time. -/
def panic? (c : Cast D) (s : System D) : Option (Panic × System D) :=
  match s.request? c .worker with
  | none => none
  | some q =>
    match s.perform c .worker q with
    | some (.panicked p, s') => some (p, s')
    | _ => none

/-- One step of an actor, where the receivers of `who` return instead of panicking. -/
def placidStep (c : Cast D) (who : Receiver D → Bool) (s : System D) : Actor → Option (System D)
  | .worker =>
    match s.panic? c with
    | some (p, s') => (placidReply who p s.worker.machine.request).map (s'.resumeWorker c s.worker)
    | none => s.step c .worker
  | a => s.step c a

def placidLabel (c : Cast D) (who : Receiver D → Bool) (s : System D) : Actor → Label D
  | .worker =>
    match s.panic? c with
    | some (p, _) => .moved .worker none
        ((placidReply who p s.worker.machine.request).map fun reply => ⟨s.worker.machine.phase, reply⟩)
    | none => s.label c .worker
  | a => s.label c a

inductive PlacidRun (c : Cast D) (who : Receiver D → Bool) (s₀ : System D) :
    List (Label D) → System D → Prop
  | refl : PlacidRun c who s₀ [] s₀
  | step {τ : List (Label D)} {s s' : System D} (before : PlacidRun c who s₀ τ s) {a : Actor}
      (h : s.placidStep c who a = some s') : PlacidRun c who s₀ (τ ++ [s.placidLabel c who a]) s'
  | call {τ : List (Label D)} {s : System D} (before : PlacidRun c who s₀ τ s)
      (f : Activity D D.Result) : PlacidRun c who s₀ (τ ++ [.began f]) (s.start f)
  | outside {τ : List (Label D)} {s s' : System D} (before : PlacidRun c who s₀ τ s)
      (h : Elsewhere s s') : PlacidRun c who s₀ τ s'

variable {c : Cast D} {who : Receiver D → Bool} {s₀ s s' s₁ : System D} {a : Actor} {q : Request D}
  {τ τ' : List (Label D)} {l : Label D} {p : Panic}

theorem Like.refl (l : Label D) : Like who l l := by
  cases l with
  | began f => exact .began f
  | moved a asked worked =>
    refine .moved a asked ?_
    cases worked with
    | none => exact .none
    | some x => exact .some .same

/-! ### Calls that panic -/

theorem eq_ask_of_first {α : Type} {r : Routine D α} (h : first? r = some q) :
    ∃ rest, r = .ask q rest := by
  cases r with
  | done v => cases h
  | ask q' rest =>
    cases h
    exact ⟨rest, rfl⟩

theorem workerIn_of_request (h : s.request? c .worker = some q) : ∃ rest, WorkerIn c s (.ask q rest) := by
  simp only [request?] at h
  split at h
  · next r hr =>
    obtain ⟨rest, rfl⟩ := eq_ask_of_first h
    exact ⟨rest, Or.inl hr⟩
  · next idle =>
    split at h
    · next r source =>
      obtain ⟨rest, rfl⟩ := eq_ask_of_first h
      exact ⟨rest, Or.inr ⟨idle, source⟩⟩
    · cases h

theorem stepWorker_of_workerIn {r : Routine D s.worker.machine.request.Reply} (routine : WorkerIn c s r) :
    s.step c .worker = s.workerRoutine c s.worker r := by
  show s.stepWorker c = _
  unfold stepWorker
  rcases routine with hp | ⟨hp, hsource⟩
  · dsimp only
    rw [hp]
  · dsimp only
    rw [hp]
    dsimp only
    rw [hsource]

theorem step_of_panic (h : s.panic? c = some (p, s₁)) :
    s.step c .worker = (panicReply p s.worker.machine.request).map (s₁.resumeWorker c s.worker) ∧
    s.label c .worker = .moved .worker none
      ((panicReply p s.worker.machine.request).map fun reply => ⟨s.worker.machine.phase, reply⟩) := by
  unfold panic? at h
  split at h
  · cases h
  next q hq =>
  split at h
  next p' s' answer =>
    cases h
    obtain ⟨rest, routine⟩ := workerIn_of_request hq
    constructor
    · rw [stepWorker_of_workerIn routine]
      simp only [workerRoutine, answer]
    · rw [label, asked_of_panicked hq answer, workerReply_of_workerIn routine]
      simp only [returned?, answer]
  · cases h

theorem panic_alike (h : Alike s s') :
    (s.panic? c = none ∧ s'.panic? c = none) ∨
      ∃ p s₁ s₁', s.panic? c = some (p, s₁) ∧ s'.panic? c = some (p, s₁') ∧ Alike s₁ s₁' := by
  unfold panic?
  rw [request_alike h]
  cases s.request? c .worker with
  | none => exact Or.inl ⟨rfl, rfl⟩
  | some q =>
    dsimp only
    rcases answer_alike (c := c) (a := .worker) h q with ⟨hx, hy⟩ | ⟨answer, s₁, s₁', hx, hy, h₁⟩
    · rw [hx, hy]
      exact Or.inl ⟨rfl, rfl⟩
    · rw [hx, hy]
      cases answer with
      | reply reply => exact Or.inl ⟨rfl, rfl⟩
      | panicked p => exact Or.inr ⟨p, s₁, s₁', rfl, rfl, h₁⟩

/-- Unless it was asked whether it is retired, the worker goes on from a receiver that panics as it does
from one that returns. -/
theorem placidReply_cases (w : Worker (Receiver D) D.Event) (who : Receiver D → Bool) (p : Panic) :
    (panicReply p w.request = none ∧ placidReply who p w.request = none) ∨
      ∃ reply reply', panicReply p w.request = some reply ∧ placidReply who p w.request = some reply' ∧
        (isComposed ⟨w.phase, reply⟩ = true → (w.resume reply').1 = (w.resume reply).1) := by
  obtain ⟨receivers, registered, count, phase⟩ := w
  cases phase with
  | waiting => exact Or.inl ⟨rfl, rfl⟩
  | surveying e asked rest => exact Or.inr ⟨_, _, rfl, rfl, fun composed => by cases composed⟩
  | sorting e retired live asked rest =>
    exact Or.inr ⟨_, _, rfl, rfl, fun composed => by cases composed⟩
  | dismissing e leaving rest => exact Or.inr ⟨_, _, rfl, rfl, fun _ => rfl⟩
  | delivering e target rest => exact Or.inr ⟨_, _, rfl, rfl, fun _ => rfl⟩
  | stopping leaving rest => exact Or.inr ⟨_, _, rfl, rfl, fun _ => rfl⟩
  | exited => exact Or.inl ⟨rfl, rfl⟩
  | died p' => exact Or.inl ⟨rfl, rfl⟩

/-! ### A run beside a placid one -/

theorem composed_concat : (worked (τ ++ [l])).all isComposed = true ↔
    (worked τ).all isComposed = true ∧ l.Composed := by
  rw [worked_concat, List.all_append, Bool.and_eq_true, and_congr_right_iff]
  intro _
  cases hx : l.worked? with
  | none => simp [Label.Composed, hx]
  | some x => simp [Label.Composed, hx]

/-- The same actors can make a step and a placid one.  Unless somebody panics when asked whether it is
retired, both lead to the same system, up to the log. -/
theorem placid_alike (h : Alike s s') (who : Receiver D → Bool) (a : Actor) :
    Option.Rel (fun s₁ s₁' => (s.label c a).Composed → Alike s₁ s₁') (s.step c a)
        (s'.placidStep c who a) ∧
      Like who (s.label c a) (s'.placidLabel c who a) := by
  have ordinary : Option.Rel (fun s₁ s₁' => (s.label c a).Composed → Alike s₁ s₁') (s.step c a)
      (s'.step c a) ∧ Like who (s.label c a) (s'.label c a) := by
    rw [label_alike h]
    have hstep := step_alike (c := c) h a
    refine ⟨?_, .refl _⟩
    generalize s.step c a = x at hstep ⊢
    generalize s'.step c a = y at hstep ⊢
    cases hstep with
    | none => exact .none
    | some h₁ => exact .some fun _ => h₁
  cases a with
  | runner i => exact ordinary
  | call i => exact ordinary
  | worker =>
    unfold placidStep placidLabel
    rcases panic_alike (c := c) h with ⟨-, hy⟩ | ⟨p, s₁, s₁', hx, hy, h₁⟩
    · rw [hy]
      exact ordinary
    · obtain ⟨hstep, hlabel⟩ := step_of_panic hx
      rw [hy, hstep, hlabel]
      dsimp only
      rw [h.worker]
      rcases placidReply_cases s.worker.machine who p with
        ⟨hp, hq⟩ | ⟨reply, reply', hp, hq, same⟩
      · rw [hp, hq]
        exact ⟨.none, .refl _⟩
      · rw [hp, hq]
        refine ⟨.some fun composed => ?_, .moved _ _ (.some (.returned hp hq))⟩
        exact resumeWorker_alike h₁ (same (composed _ rfl))

/-- Whoever can go on can do so in the placid run. -/
theorem isSome_placidStep (h : Alike s s') (who : Receiver D → Bool) (a : Actor) :
    (s'.placidStep c who a).isSome = (s.step c a).isSome := by
  obtain ⟨hstep, -⟩ := placid_alike (c := c) h who a
  generalize s.step c a = x at hstep ⊢
  generalize s'.placidStep c who a = y at hstep ⊢
  cases hstep <;> rfl

theorem Elsewhere.alike (h : Elsewhere s s₁) (like : Alike s s') :
    ∃ s₁', Elsewhere s' s₁' ∧ Alike s₁ s₁' := by
  obtain ⟨log, rfl⟩ := like
  exact ⟨{ s₁ with log }, ⟨h.channel, h.worker, h.runners, h.calls, h.momentum⟩, log, rfl⟩

/-- As long as nobody panics when asked whether it is retired, a placid run goes along with the run. -/
theorem Run.beside (h : Run c s₀ τ s) (who : Receiver D → Bool)
    (composed : (worked τ).all isComposed = true) :
    ∃ τ' s', PlacidRun c who s₀ τ' s' ∧ List.Forall₂ (Like who) τ τ' ∧ Alike s s' := by
  induction h with
  | refl => exact ⟨[], s₀, .refl, .nil, .refl s₀⟩
  | @step τ s s₁ before a hs ih =>
    obtain ⟨earlier, now⟩ := composed_concat.mp composed
    obtain ⟨τ', s', run, labels, like⟩ := ih earlier
    obtain ⟨hstep, hlabel⟩ := placid_alike (c := c) like who a
    rw [hs] at hstep
    generalize hy : s'.placidStep c who a = y at hstep
    cases hstep with
    | some h₁ => exact ⟨_, _, run.step hy, List.rel_append labels (.cons hlabel .nil), h₁ now⟩
  | call before f ih =>
    rw [worked_quiet rfl] at composed
    obtain ⟨τ', s', run, labels, like⟩ := ih composed
    exact ⟨_, _, run.call f, List.rel_append labels (.cons (.began f) .nil), like.start f⟩
  | outside before hs ih =>
    obtain ⟨τ', s', run, labels, like⟩ := ih composed
    obtain ⟨s₁', hs', like'⟩ := hs.alike like
    exact ⟨_, _, run.outside hs', labels, like'⟩

/-- A run goes along with every placid one, to its end or until somebody panics when asked whether it is
retired. -/
theorem PlacidRun.beside (h : PlacidRun c who s₀ τ' s') :
    ∃ τ s, Run c s₀ τ s ∧
      (List.Forall₂ (Like who) τ τ' ∧ Alike s s' ∨
        (worked τ).all isComposed = false ∧ ∃ σ, σ <+: τ' ∧ List.Forall₂ (Like who) τ σ) := by
  induction h with
  | refl => exact ⟨[], s₀, .refl, Or.inl ⟨.nil, .refl s₀⟩⟩
  | @step τ' s' s₁' before a hs ih =>
    obtain ⟨τ, s, run, ⟨labels, like⟩ | ⟨rude, σ, first, labels⟩⟩ := ih
    · obtain ⟨hstep, hlabel⟩ := placid_alike (c := c) like who a
      have labels' := List.rel_append labels (.cons hlabel .nil)
      rw [hs] at hstep
      generalize hx : s.step c a = x at hstep
      cases hstep with
      | @some s₁ _ h₁ =>
        refine ⟨_, s₁, run.step hx, ?_⟩
        by_cases composed : (worked (τ ++ [s.label c a])).all isComposed = true
        · exact Or.inl ⟨labels', h₁ (composed_concat.mp composed).2⟩
        · exact Or.inr ⟨Bool.not_eq_true _ ▸ composed, _, List.prefix_rfl, labels'⟩
    · exact ⟨τ, s, run, Or.inr ⟨rude, σ, first.trans (List.prefix_append _ _), labels⟩⟩
  | call before f ih =>
    obtain ⟨τ, s, run, ⟨labels, like⟩ | ⟨rude, σ, first, labels⟩⟩ := ih
    · exact ⟨_, _, run.call f,
        Or.inl ⟨List.rel_append labels (.cons (.began f) .nil), like.start f⟩⟩
    · exact ⟨τ, s, run, Or.inr ⟨rude, σ, first.trans (List.prefix_append _ _), labels⟩⟩
  | outside before hs ih =>
    obtain ⟨τ, s, run, ⟨labels, like⟩ | ended⟩ := ih
    · obtain ⟨s₁, hs₁, like₁⟩ := hs.alike like.symm
      exact ⟨τ, s₁, run.outside hs₁, Or.inl ⟨labels, like₁.symm⟩⟩
    · exact ⟨τ, s, run, Or.inr ended⟩

theorem Placated.call {x y : Exchange (Worker.requests (Receiver D) D.Event)} (h : Placated who x y) :
    call? y = call? x := by
  obtain ⟨phase, reply⟩ := x
  cases h with
  | same => rfl
  | returned panicked placid => cases phase <;> rfl

/-- Receivers were called in the same order, whatever they came back with. -/
theorem calls_like (h : List.Forall₂ (Like who) τ τ') :
    Worker.calls (worked τ') = Worker.calls (worked τ) := by
  simp only [Worker.calls, worked, List.filterMap_filterMap]
  induction h with
  | nil => rfl
  | @cons l l' τ τ' hl _ ih =>
    have call : l'.worked?.bind call? = l.worked?.bind call? := by
      cases hl with
      | began f => rfl
      | moved a asked placated =>
        cases placated with
        | none => rfl
        | some hxy => exact hxy.call
    rw [List.filterMap_cons, List.filterMap_cons, call, ih]

end System

end Reveille
