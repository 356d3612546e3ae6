import Mathlib.Logic.Hydra
import Reveille.Proofs.System.Crossing

/-!
# A bus that closes settles

Once closing has begun nothing gets into the queue any more, every receiver is called a bounded number
of times for each command that is left (`Worker.effort`), and every call has only so much left to do.
So nobody can go on for ever, in whatever order they do, and whatever the world outside does meanwhile
(`Shut.settles`).
-/

namespace Reveille

inductive Program.Onward {S : Signature} {α : Type} : Program S α → Program S α → Prop
  | step (q : S.Request) (rest : S.Reply q → Program S α) (reply : S.Reply q) :
      Onward (rest reply) (.ask q rest)

theorem Program.onward_wf {S : Signature} {α : Type} :
    WellFounded (Program.Onward : Program S α → Program S α → Prop) := by
  refine ⟨fun p => ?_⟩
  induction p with
  | done v => exact ⟨_, fun p h => nomatch h⟩
  | ask q rest ih =>
    refine ⟨_, fun p h => ?_⟩
    cases h with
    | step _ _ reply => exact ih reply

namespace Bus.Worker

variable {R E : Type} {w : Worker R E} {e : E}

/-- More replies than these do not stand between the worker and its next command, or its end. -/
def effort (w : Worker R E) : Nat :=
  match w.phase with
  | .waiting => w.receivers.length + 1
  | .surveying _ _ rest => 3 * w.receivers.length + 4 + rest.length
  | .sorting _ retired live _ rest => 2 * (retired.length + live.length) + 3 * rest.length + 6
  | .dismissing _ _ rest => 2 * w.receivers.length + 3 + rest.length
  | .delivering _ _ rest => w.receivers.length + 2 + rest.length
  | .stopping _ rest => rest.length + 1
  | .exited | .died _ => 0

theorem effort_deliverTo {l : List (Registration R)} :
    (w.deliverTo e l).effort = w.receivers.length + 1 + l.length := by
  cases l with
  | nil => rfl
  | cons target rest =>
    simp only [deliverTo, effort, List.length_cons]
    omega

theorem effort_dismiss {l : List (Registration R)} :
    (w.dismiss e l).1.effort ≤ 2 * w.receivers.length + 2 + l.length := by
  cases l with
  | nil =>
    simp only [dismiss, fanOut, effort_deliverTo]
    omega
  | cons leaving rest =>
    simp only [dismiss, effort, List.length_cons]
    omega

theorem effort_sort {retired live l : List (Registration R)} :
    (w.sort e retired live l).1.effort ≤ 2 * (retired.length + live.length) + 3 * l.length + 3 := by
  cases l with
  | nil =>
    have := effort_dismiss (w := { w with receivers := live }) (e := e) (l := retired)
    simp only [sort, List.length_nil]
    dsimp only at this
    omega
  | cons asked rest =>
    simp only [sort, effort, List.length_cons]
    omega

theorem effort_survey {l : List (Registration R)} :
    (w.survey e l).1.effort ≤ 3 * w.receivers.length + 3 + l.length := by
  cases l with
  | nil =>
    simp only [survey, fanOut, effort_deliverTo]
    omega
  | cons asked rest =>
    simp only [survey, effort, List.length_cons]
    omega

theorem effort_stopAll {l : List (Registration R)} : (w.stopAll l).1.effort = l.length := by
  cases l <;> rfl

/-- Every reply but a command is a step towards the next one. -/
theorem effort_resume {reply : w.request.Reply} (h : taken? ⟨w.phase, reply⟩ = none) :
    (w.resume reply).1.effort < w.effort := by
  obtain ⟨receivers, registered, count, phase⟩ := w
  cases phase with
  | waiting =>
    match reply, h with
    | none, _ =>
      show (stopAll _ receivers).1.effort < receivers.length + 1
      rw [effort_stopAll]
      exact Nat.lt_succ_self _
    | some item, h => cases h
  | surveying e asked rest =>
    match reply with
    | .ok true =>
      refine Nat.lt_of_le_of_lt effort_sort ?_
      simp only [effort, List.length_nil]
      omega
    | .ok false =>
      refine Nat.lt_of_le_of_lt effort_survey ?_
      simp only [effort]
      omega
    | .error p =>
      show 0 < 3 * receivers.length + 4 + rest.length
      omega
  | sorting e retired live asked rest =>
    match reply with
    | .ok true =>
      refine Nat.lt_of_le_of_lt effort_sort ?_
      simp only [effort, List.length_append, List.length_singleton]
      omega
    | .ok false =>
      refine Nat.lt_of_le_of_lt effort_sort ?_
      simp only [effort, List.length_append, List.length_singleton]
      omega
    | .error p =>
      show 0 < 2 * (retired.length + live.length) + 3 * rest.length + 6
      omega
  | dismissing e leaving rest =>
    refine Nat.lt_of_le_of_lt effort_dismiss ?_
    simp only [effort]
    omega
  | delivering e target rest =>
    refine Nat.lt_of_le_of_lt (Nat.le_of_eq effort_deliverTo) ?_
    simp only [effort]
    omega
  | stopping leaving rest =>
    refine Nat.lt_of_le_of_lt (Nat.le_of_eq effort_stopAll) ?_
    simp only [effort]
    omega
  | exited => cases reply
  | died p => cases reply

end Bus.Worker

namespace System

open Bus Bus.Worker Relation

variable {D : Domain} {c : Cast D} {s s' s₁ : System D} {l : Label D}

inductive Later : CallTask D → CallTask D → Prop
  | asked {r r' : Routine D D.Result} (h : r'.Onward r) : Later (.running r') (.running r)
  | ended (r : Routine D D.Result) (result : Except Panic D.Result) : Later (.ended result) (.running r)

theorem later_wf : WellFounded (Later : CallTask D → CallTask D → Prop) := by
  have ended (result : Except Panic D.Result) : Acc Later (.ended result : CallTask D) :=
    ⟨_, fun t h => nomatch h⟩
  refine ⟨fun t => ?_⟩
  cases t with
  | ended result => exact ended result
  | running r =>
    induction r using Program.onward_wf.induction with
    | _ r ih =>
      refine ⟨_, fun t h => ?_⟩
      cases h with
      | asked h => exact ih _ h
      | ended _ result => exact ended result

/-- What is left to do: by the calls, of the queue, by the worker up to its next command, and in the
routine that it is in. -/
def toDo (s : System D) : Multiset (CallTask D) × Nat × Nat × Routine D Unit :=
  (s.calls, s.channel.queue.length,
    2 * s.worker.machine.effort + (if s.worker.pending.isNone then 1 else 0),
    (s.residual .worker).getD (.done ()))

def Less : Multiset (CallTask D) × Nat × Nat × Routine D Unit →
    Multiset (CallTask D) × Nat × Nat × Routine D Unit → Prop :=
  Prod.Lex (CutExpand Later) (Prod.Lex (· < ·) (Prod.Lex (· < ·) Program.Onward))

theorem less_wf : WellFounded (Less (D := D)) :=
  later_wf.cutExpand.prod_lex (wellFounded_lt.prod_lex (wellFounded_lt.prod_lex Program.onward_wf))

/-- Closing has begun, and nobody runs but the worker and the calls. -/
structure Shut (s : System D) : Prop where
  unstaffed : s.runners = []
  closed : s.channel.accepting = false
  calling : s.worker.pending ≠ none → s.worker.machine.phase.isCalling = true

theorem cutExpand_set {i : Nat} {task task' : CallTask D} {l : List (CallTask D)}
    (h : l[i]? = some task) (later : Later task' task) :
    CutExpand Later (l.set i task' : Multiset (CallTask D)) l := by
  obtain ⟨hlen, hget⟩ := List.getElem?_eq_some_iff.mp h
  obtain ⟨l₁, l₂, rfl, rfl⟩ : ∃ l₁ l₂, l = l₁ ++ task :: l₂ ∧ l₁.length = i := by
    refine ⟨l.take i, l.drop (i + 1), ?_, List.length_take_of_le (Nat.le_of_lt hlen)⟩
    rw [← hget, List.cons_getElem_drop_succ, List.take_append_drop]
  rw [List.set_append_right _ _ (Nat.le_refl _), Nat.sub_self, List.set_cons_zero]
  have hmiddle (t : CallTask D) : ((l₁ ++ t :: l₂ : List (CallTask D)) : Multiset (CallTask D)) =
      {t} + ((l₁ ++ l₂ : List (CallTask D)) : Multiset (CallTask D)) :=
    Multiset.coe_eq_coe.mpr List.perm_middle
  rw [hmiddle, hmiddle]
  exact cutExpand_single_add later _

theorem Less.call {i : Nat} {task task' : CallTask D} (h : s.calls[i]? = some task)
    (later : Later task' task) (calls : s'.calls = s.calls.set i task') : Less s'.toDo s.toDo := by
  refine .left _ _ ?_
  rw [calls]
  exact cutExpand_set h later

theorem Less.resumed {t : WorkerTask D} (ht : s.worker = t) {reply : t.machine.request.Reply}
    (nothing : taken? ⟨t.machine.phase, reply⟩ = none) (calls : s₁.calls = s.calls)
    (queue : s₁.channel.queue = s.channel.queue) : Less (s₁.resumeWorker c t reply).toDo s.toDo := by
  subst ht
  have heffort := effort_resume nothing
  have hcalls : (s₁.resumeWorker c s.worker reply).calls = s.calls := calls
  have hqueue := (queue_resumeWorker (c := c) (s := s₁) (t := s.worker) reply).trans queue
  rw [toDo, toDo, hcalls, hqueue]
  refine .right _ (.right _ (.left _ _ ?_))
  show 2 * (s.worker.machine.resume reply).1.effort + 1 < _
  omega

/-- A request that is answered opens nothing again and puts nothing into the queue. -/
theorem Shut.answered [IsEmpty D.Service] (h : Shut s) {a : Actor} {q : Request D} {reply : q.Reply}
    (answer : s.perform c a q = some (.reply reply, s₁)) :
    s₁.runners = [] ∧ s₁.channel.accepting = false ∧ s₁.channel.queue = s.channel.queue := by
  have passage := passage_of_perform answer
  have htimely := passage.timely fun _ => h.closed
  rw [h.closed, Bool.not_false] at htimely
  refine ⟨System.unstaffed _, ?_, ?_⟩
  · rw [passage.accepting, h.closed, Bool.false_and]
  · rw [passage.queue, (committed?_of_timely htimely).1, Option.toList_none, List.append_nil]

theorem Shut.resumed {t : WorkerTask D} {reply : t.machine.request.Reply} (unstaffed : s.runners = [])
    (closed : s.channel.accepting = false) : Shut (s.resumeWorker c t reply) := by
  refine ⟨unstaffed, ?_, fun hp => absurd rfl hp⟩
  unfold resumeWorker
  dsimp only [addLines]
  split <;> exact closed

theorem Shut.turn [IsEmpty D.Service] (h : Shut s) (turn : Turn c s l s') :
    Shut s' ∧ Less s'.toDo s.toDo := by
  cases turn with
  | @callAsked i q rest reply s₁ task answer =>
    obtain ⟨hworker, hcalls, -⟩ := perform_frame answer
    obtain ⟨hrunners, hclosed, -⟩ := h.answered answer
    refine ⟨⟨hrunners, hclosed, by rw [hworker]; exact h.calling⟩, ?_⟩
    exact .call task (.asked (Program.Onward.step (S := D.requests) q rest reply)) (by rw [hcalls])
  | @callPanicked i q rest p s₁ task answer =>
    obtain ⟨hworker, hcalls, -⟩ := perform_frame answer
    have hrunners := System.unstaffed s₁
    have hclosed := (congrArg Channel.accepting (channel_of_panicked answer).2).trans h.closed
    refine ⟨⟨hrunners, hclosed, by rw [hworker]; exact h.calling⟩, ?_⟩
    exact .call task (.ended _ _) (by rw [hcalls])
  | callReturned task => exact ⟨⟨h.unstaffed, h.closed, h.calling⟩, .call task (.ended _ _) rfl⟩
  | @workerAsked q rest reply s₁ routine answer =>
    have calling := isCalling_of_routine h.calling routine
    obtain ⟨hrunners, hclosed, hqueue⟩ := h.answered answer
    refine ⟨⟨hrunners, hclosed, fun _ => calling⟩, ?_⟩
    have hcalls := (perform_frame answer).2.1
    simp only [toDo, hcalls, hqueue]
    refine .right _ (.right _ ?_)
    rcases routine with hp | ⟨hp, -⟩
    · rw [hp]
      refine .right _ ?_
      simp only [residual, WorkerTask.residual, hp, Option.map_some, Option.getD_some]
      exact .step q (fun reply => (rest reply).forget) reply
    · rw [hp]
      exact .left _ _ (Nat.lt_succ_self _)
  | workerPanicked routine answer panic =>
    have hchannel := (channel_of_panicked answer).2
    refine ⟨.resumed (System.unstaffed _)
      ((congrArg Channel.accepting hchannel).trans h.closed), ?_⟩
    exact .resumed rfl (taken?_of_isCalling (isCalling_of_routine h.calling routine))
      (perform_frame answer).2.1 (congrArg Channel.queue hchannel)
  | workerReturned routine =>
    refine ⟨.resumed h.unstaffed h.closed, ?_⟩
    exact .resumed rfl (taken?_of_isCalling (isCalling_of_routine h.calling routine)) rfl rfl
  | @workerServed reply s₁ idle source =>
    obtain ⟨-, ⟨item, channel, htake, rfl, -⟩ | ⟨-, rfl, hx⟩⟩ := served_cases source
    · obtain ⟨hqueue, haccepting, -⟩ := Channel.queue_of_take htake
      refine ⟨.resumed h.unstaffed (haccepting.trans h.closed), .right _ (.left _ _ ?_)⟩
      rw [queue_resumeWorker, hqueue]
      exact Nat.lt_succ_self _
    · refine ⟨.resumed h.unstaffed h.closed, .resumed rfl ?_ rfl rfl⟩
      rw [hx]
      rfl
  | runnerAsked hired answer aside => exact absurd hired (not_hired h.unstaffed)
  | runnerPanicked hired answer aside => exact absurd hired (not_hired h.unstaffed)
  | runnerAlone hired aside => exact absurd hired (not_hired h.unstaffed)
  | @runnerCancelled i t runner aborted => exact isEmptyElim t.service

/-- The first system comes after the second: the world outside went on, and somebody made a step. -/
def Next (c : Cast D) (s' s : System D) : Prop := ∃ s₁ a, Elsewhere s s₁ ∧ s₁.step c a = some s'

/-- Nobody can go on for ever. -/
theorem Shut.settles [IsEmpty D.Service] (h : Shut s) : Acc (Next c) s := by
  induction s using (InvImage.wf toDo (less_wf (D := D))).induction with
  | _ s ih =>
    refine ⟨_, fun s' ⟨s₁, a, outside, hs⟩ => ?_⟩
    have shut : Shut s₁ := ⟨outside.runners.trans h.unstaffed,
      (congrArg Channel.accepting outside.channel).trans h.closed, by rw [outside.worker]; exact h.calling⟩
    obtain ⟨hshut, hless⟩ := shut.turn (turn_of_step hs)
    have hsame : s₁.toDo = s.toDo := by
      rw [toDo, residual, outside.calls, outside.channel, outside.worker]
      rfl
    rw [hsame] at hless
    exact ih s' hless hshut

end System

end Reveille
