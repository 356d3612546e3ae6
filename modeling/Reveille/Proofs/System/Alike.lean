import Mathlib.Data.Option.Defs
import Reveille.Proofs.System.History

/-!
# Nobody reads the log

Two systems are `Alike` when they differ in nothing but the log.  Every request is answered in one as it
is in the other (`perform_alike`), and whoever can make a step in one can make it in the other, with the
same label; after that the systems are alike again (`step_alike`, `label_alike`).
-/

namespace Reveille

variable {D : Domain} {c : Cast D} {a : Actor} {α : Type}

inductive Source.Rel (R : System D → System D → Prop) : Source D α → Source D α → Prop
  | atOnce (reply : α) {s s' : System D} (h : R s s') : Source.Rel R (.atOnce reply s) (.atOnce reply s')
  | later {s s' : System D} (h : R s s') : Source.Rel R (.later s) (.later s')
  | routine (r : Routine D α) : Source.Rel R (.routine r) (.routine r)
  | blocked : Source.Rel R .blocked .blocked

namespace System

/-- The second system is the first with another log. -/
def Alike (s s' : System D) : Prop := ∃ log, s' = { s with log }

def AlikeAnswers (x y : Answer α × System D) : Prop := x.1 = y.1 ∧ Alike x.2 y.2

variable {s s' : System D} {i : Nat} {t : RunnerTask D}

theorem Alike.refl (s : System D) : Alike s s := ⟨s.log, rfl⟩

theorem Alike.symm (h : Alike s s') : Alike s' s := by
  obtain ⟨log, rfl⟩ := h
  exact ⟨s.log, rfl⟩

theorem Alike.worker (h : Alike s s') : s'.worker = s.worker := by
  obtain ⟨log, rfl⟩ := h
  rfl

theorem Alike.runners (h : Alike s s') : s'.runners = s.runners := by
  obtain ⟨log, rfl⟩ := h
  rfl

theorem Alike.calls (h : Alike s s') : s'.calls = s.calls := by
  obtain ⟨log, rfl⟩ := h
  rfl

theorem Alike.momentum (h : Alike s s') : s'.momentum = s.momentum := by
  obtain ⟨log, rfl⟩ := h
  rfl

theorem Alike.addLines (h : Alike s s') (lines lines' : List Log.Line) :
    Alike (s.addLines lines) (s'.addLines lines') := by
  obtain ⟨log, rfl⟩ := h
  exact ⟨_, rfl⟩

theorem Alike.modifyRunner (h : Alike s s') (f : RunnerTask D → RunnerTask D) :
    Alike (s.modifyRunner i f) (s'.modifyRunner i f) := by
  obtain ⟨log, rfl⟩ := h
  exact ⟨log, rfl⟩

theorem Alike.start (h : Alike s s') (f : Activity D D.Result) : Alike (s.start f) (s'.start f) := by
  obtain ⟨log, rfl⟩ := h
  exact ⟨log, rfl⟩

/-- No answer depends on the log. -/
theorem perform_alike (h : Alike s s') (q : Request D) :
    Option.Rel AlikeAnswers (s.perform c a q) (s'.perform c a q) := by
  obtain ⟨log, rfl⟩ := h
  cases q with
  | readTime source => cases source <;> exact .some ⟨rfl, log, rfl⟩
  | log line => exact .some ⟨rfl, line :: log, rfl⟩
  | call q =>
    simp only [perform]
    cases c.answer q s.state with
    | none => exact .none
    | some answer => exact .some ⟨rfl, log, rfl⟩
  | awaitWorker =>
    simp only [perform]
    cases s.worker.machine.ending? with
    | none => exact .none
    | some e => exact .some ⟨rfl, log, rfl⟩
  | push j e =>
    have running : System.isRunning { s with log } j = s.isRunning j := rfl
    simp only [perform]
    rw [running]
    cases s.isRunning j <;> exact .some ⟨rfl, log, rfl⟩
  | _ =>
    simp only [perform]
    repeat' split
    all_goals first
      | exact .none
      | exact .some ⟨rfl, log, rfl⟩

theorem answer_alike (h : Alike s s') (q : Request D) :
    (s.perform c a q = none ∧ s'.perform c a q = none) ∨ ∃ answer s₁ s₁',
      s.perform c a q = some (answer, s₁) ∧ s'.perform c a q = some (answer, s₁') ∧ Alike s₁ s₁' := by
  have answers := perform_alike (c := c) (a := a) h q
  generalize s.perform c a q = x at answers ⊢
  generalize s'.perform c a q = y at answers ⊢
  cases answers with
  | none => exact Or.inl ⟨rfl, rfl⟩
  | @some x y hxy =>
    obtain ⟨answer, s₁⟩ := x
    obtain ⟨rfl, h₁⟩ := hxy
    exact Or.inr ⟨_, _, _, rfl, rfl, h₁⟩

/-! ### The worker -/

theorem workerSource_alike (h : Alike s s')
    (q : Bus.Worker.Request (Receiver D) D.Event) :
    Source.Rel Alike (s.workerSource c q) (s'.workerSource c q) := by
  obtain ⟨log, rfl⟩ := h
  cases q with
  | receive =>
    simp only [workerSource]
    split
    · exact .atOnce _ ⟨log, rfl⟩
    · exact .atOnce _ ⟨log, rfl⟩
    · exact .blocked
  | isRetired r => exact .routine _
  | deliver r e => exact .routine _
  | stop r => exact .routine _
  | finished => exact .blocked

theorem resumeWorker_alike (h : Alike s s') {w : WorkerTask D} {reply reply' : w.machine.request.Reply}
    (same : (w.machine.resume reply').1 = (w.machine.resume reply).1) :
    Alike (s.resumeWorker c w reply) (s'.resumeWorker c w reply') := by
  obtain ⟨log, rfl⟩ := h
  unfold resumeWorker
  dsimp only
  rw [same]
  exact ⟨_, rfl⟩

theorem workerRoutine_alike (h : Alike s s') {w : WorkerTask D}
    (r : Routine D w.machine.request.Reply) :
    Option.Rel Alike (s.workerRoutine c w r) (s'.workerRoutine c w r) := by
  cases r with
  | done reply => exact .some (resumeWorker_alike h rfl)
  | ask q rest =>
    simp only [workerRoutine]
    rcases answer_alike (c := c) (a := .worker) h q with ⟨hx, hy⟩ | ⟨answer, s₁, s₁', hx, hy, h₁⟩
    · rw [hx, hy]
      exact .none
    · rw [hx, hy]
      cases answer with
      | reply reply =>
        obtain ⟨log, rfl⟩ := h₁
        exact .some ⟨log, rfl⟩
      | panicked p =>
        dsimp only
        cases panicReply p w.machine.request with
        | none => exact .none
        | some reply => exact .some (resumeWorker_alike h₁ rfl)

theorem stepWorker_alike (h : Alike s s') : Option.Rel Alike (s.stepWorker c) (s'.stepWorker c) := by
  unfold stepWorker
  rw [h.worker]
  dsimp only
  cases s.worker.pending with
  | some r => exact workerRoutine_alike h r
  | none =>
    have source := workerSource_alike (c := c) h s.worker.machine.request
    generalize s.workerSource c s.worker.machine.request = x at source ⊢
    generalize s'.workerSource c s.worker.machine.request = y at source ⊢
    cases source with
    | atOnce reply h₁ => exact .some (resumeWorker_alike h₁ rfl)
    | later h₁ => exact .some h₁
    | routine r => exact workerRoutine_alike h r
    | blocked => exact .none

/-! ### Runners -/

theorem runnerSource_alike (h : Alike s s') (q : Runner.Request D.Event D.Id (Items D)) :
    Source.Rel Alike (s.runnerSource c i t q) (s'.runnerSource c i t q) := by
  obtain ⟨log, rfl⟩ := h
  cases q with
  | isStopRequested => exact .atOnce _ ⟨log, rfl⟩
  | wait limit inboxOpen =>
    simp only [runnerSource]
    repeat' split
    all_goals first
      | exact .blocked
      | exact .atOnce _ ⟨log, rfl⟩
      | exact .later ⟨log, rfl⟩
  | finished => exact .blocked
  | _ => exact .routine _

theorem runnerRoutine_alike (h : Alike s s') (r : Routine D t.machine.request.Reply) :
    Option.Rel Alike (s.runnerRoutine c i t r) (s'.runnerRoutine c i t r) := by
  cases r with
  | done reply => exact .some ((h.modifyRunner _).addLines _ _)
  | ask q rest =>
    simp only [runnerRoutine]
    rcases answer_alike (c := c) (a := .runner i) h q with ⟨hx, hy⟩ | ⟨answer, s₁, s₁', hx, hy, h₁⟩
    · rw [hx, hy]
      exact .none
    · rw [hx, hy]
      cases answer with
      | reply reply => exact .some (h₁.modifyRunner _)
      | panicked p => exact .some (h₁.modifyRunner _)

theorem goOn_alike (h : Alike s s') : Option.Rel Alike (s.goOn c i t) (s'.goOn c i t) := by
  unfold goOn
  cases t.pending with
  | some r => exact runnerRoutine_alike h r
  | none =>
    have source := runnerSource_alike (c := c) (i := i) (t := t) h t.machine.request
    dsimp only
    generalize s.runnerSource c i t t.machine.request = x at source ⊢
    generalize s'.runnerSource c i t t.machine.request = y at source ⊢
    cases source with
    | atOnce reply h₁ => exact .some ((h₁.modifyRunner _).addLines _ _)
    | later h₁ => exact .some h₁
    | routine r => exact runnerRoutine_alike h r
    | blocked => exact .none

theorem finishOff_alike (h : Alike s s') :
    Option.Rel Alike (s.finishOff c i t) (s'.finishOff c i t) := by
  have goes := goOn_alike (c := c) (i := i) (t := t) h
  unfold finishOff
  rw [h.momentum]
  cases s.momentum i with
  | zero => exact .none
  | succ n =>
    dsimp only
    generalize s.goOn c i t = x at goes ⊢
    generalize s'.goOn c i t = y at goes ⊢
    cases goes with
    | none => exact .none
    | some h₁ =>
      obtain ⟨log, rfl⟩ := h₁
      exact .some ⟨log, rfl⟩

theorem Alike.cancel (h : Alike s s') : Alike (s.cancel i) (s'.cancel i) := by
  obtain ⟨log, rfl⟩ := h
  exact ⟨log, rfl⟩

theorem stepRunner_alike (h : Alike s s') : Option.Rel Alike (s.stepRunner c i) (s'.stepRunner c i) := by
  unfold stepRunner
  rw [h.runners]
  cases s.runners[i]? with
  | none => exact .none
  | some t =>
    dsimp only
    split
    · split
      · have finishes := finishOff_alike (c := c) (i := i) (t := t) h
        generalize s.finishOff c i t = x at finishes ⊢
        generalize s'.finishOff c i t = y at finishes ⊢
        cases finishes with
        | none => exact .some h.cancel
        | some h₁ => exact .some h₁
      · exact goOn_alike h
    · exact .none

/-! ### Calls, and everybody -/

theorem stepCall_alike (h : Alike s s') : Option.Rel Alike (s.stepCall c i) (s'.stepCall c i) := by
  unfold stepCall
  rw [h.calls]
  split
  · obtain ⟨log, rfl⟩ := h
    exact .some ⟨log, rfl⟩
  · next q rest task =>
    rcases answer_alike (c := c) (a := .call i) h q with ⟨hx, hy⟩ | ⟨answer, s₁, s₁', hx, hy, h₁⟩
    · rw [hx, hy]
      exact .none
    · rw [hx, hy]
      obtain ⟨log, rfl⟩ := h₁
      cases answer with
      | reply reply => exact .some ⟨log, rfl⟩
      | panicked p => exact .some ⟨log, rfl⟩
  · exact .none

/-- Whoever can make a step can make it whatever is in the log. -/
theorem step_alike (h : Alike s s') (a : Actor) : Option.Rel Alike (s.step c a) (s'.step c a) := by
  cases a with
  | worker => exact stepWorker_alike h
  | runner i => exact stepRunner_alike h
  | call i => exact stepCall_alike h

/-! ### Labels -/

theorem runnerRequest_alike (h : Alike s s') : s'.runnerRequest? c i t = s.runnerRequest? c i t := by
  unfold runnerRequest?
  cases t.pending with
  | some r => rfl
  | none =>
    have source := runnerSource_alike (c := c) (i := i) (t := t) h t.machine.request
    dsimp only
    generalize s.runnerSource c i t t.machine.request = x at source ⊢
    generalize s'.runnerSource c i t t.machine.request = y at source ⊢
    cases source <;> rfl

theorem request_alike (h : Alike s s') (a : Actor) : s'.request? c a = s.request? c a := by
  cases a with
  | worker =>
    have source := workerSource_alike (c := c) h s.worker.machine.request
    obtain ⟨log, rfl⟩ := h
    simp only [request?]
    cases s.worker.pending with
    | some r => rfl
    | none =>
      dsimp only
      generalize s.workerSource c s.worker.machine.request = x at source ⊢
      generalize workerSource c _ s.worker.machine.request = y at source ⊢
      cases source <;> rfl
  | runner i =>
    simp only [request?, h.runners, h.momentum]
    cases s.runners[i]? with
    | none => rfl
    | some t =>
      dsimp only
      rw [runnerRequest_alike h]
  | call i => simp only [request?, h.calls]

theorem asked_alike (h : Alike s s') (a : Actor) : s'.asked? c a = s.asked? c a := by
  unfold asked?
  rw [request_alike h]
  cases s.request? c a with
  | none => rfl
  | some q =>
    dsimp only
    rcases answer_alike (c := c) (a := a) h q with ⟨hx, hy⟩ | ⟨answer, s₁, s₁', hx, hy, -⟩
    · rw [hx, hy]
    · rw [hx, hy]
      cases answer <;> rfl

theorem returned_alike (h : Alike s s') {w : WorkerTask D} (r : Routine D w.machine.request.Reply) :
    s'.returned? c w r = s.returned? c w r := by
  cases r with
  | done reply => rfl
  | ask q rest =>
    unfold returned?
    dsimp only
    rcases answer_alike (c := c) (a := .worker) h q with ⟨hx, hy⟩ | ⟨answer, s₁, s₁', hx, hy, -⟩
    · rw [hx, hy]
    · rw [hx, hy]
      cases answer <;> rfl

theorem workerReply_alike (h : Alike s s') (w : WorkerTask D) :
    s'.workerReply? c w = s.workerReply? c w := by
  unfold workerReply?
  cases w.pending with
  | some r => exact returned_alike h r
  | none =>
    have source := workerSource_alike (c := c) h w.machine.request
    dsimp only
    generalize s.workerSource c w.machine.request = x at source ⊢
    generalize s'.workerSource c w.machine.request = y at source ⊢
    cases source with
    | routine r => exact returned_alike h r
    | _ => rfl

theorem label_alike (h : Alike s s') (a : Actor) : s'.label c a = s.label c a := by
  cases a with
  | worker =>
    unfold label
    dsimp only
    rw [asked_alike h, h.worker, workerReply_alike h]
  | runner i => exact congrArg (Label.moved _ · none) (asked_alike h _)
  | call i => exact congrArg (Label.moved _ · none) (asked_alike h _)

end System

end Reveille
