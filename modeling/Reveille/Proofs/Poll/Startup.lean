import Reveille.Proofs.Poll.Punctual
import Reveille.Proofs.Poll.Streams
import Reveille.Proofs.System.Launch

/-!
# Starting the scheduler of polls

The runner of a duty asks for nothing but what is answered at once, up to waiting for a slot (`Brief`),
whatever becomes of the bus.  So nothing holds it up but an abort, and the start of the three runners comes back
(`starts_all_or_none`).
-/

namespace Reveille.Poll

open Bus Bus.Worker Program Reveille.System Scheduler

variable {Sink : Type} {X : Signature} {σ α : Type} {c : Cast (place Sink X σ)}
  {s s' s₀ s₁ : System (place Sink X σ)} {i k : Nat} {t : RunnerTask (place Sink X σ)} {a : Actor}
  {q : System.Request (place Sink X σ)} {τ τ₁ τ₂ : List (Label (place Sink X σ))} {grace : Duration}

/-- The services of the cast are the duties, and its store answers always, unless it panics. -/
structure Dutiful (c : Cast (place Sink X σ)) : Prop where
  onDuty : OnDuty c
  answers : ∀ q x, c.answer (.inl q) x ≠ none

/-! ### The routines of the runners -/

theorem brief_of_sends {item : Command (Receiver (place Sink X σ)) Event}
    (q : System.Request (place Sink X σ)) (h : q.Sends item) : Brief q := by
  cases h <;> exact trivial

theorem brief_activity (p : Procedure α) :
    (Activity.routine (p.activity access .clock : Activity (place Sink X σ) α)).Only Brief := by
  induction p with
  | done v => exact trivial
  | ask q rest ih =>
    show (Activity.routine ((Request.inSystem access .clock q).bind _)).Only Brief
    rw [Activity.routine_bind]
    refine Only.bind ?_ ih
    cases q with
    | publish e => exact ((enqueue_sends _).mono brief_of_sends).bind fun _ => trivial
    | _ => exact ⟨trivial, fun _ => trivial⟩

theorem brief_runner (onDuty : OnDuty c) {q : MachineRequest Sink X σ}
    {r : Routine (place Sink X σ) q.Reply} (h : s.runnerSource c i t q = .routine r)
    (asks : t.service.Asks q) : r.Only Brief := by
  cases does_of_source onDuty h asks with
  | clock => exact ⟨trivial, fun _ => trivial⟩
  | items => exact trivial
  | first => exact ⟨trivial, fun _ => ⟨trivial, fun _ => trivial⟩⟩
  | next items => exact trivial
  | check id => exact brief_activity _
  | process id => exact brief_activity _
  | interval interval => exact ⟨trivial, fun _ => trivial⟩
  | receive e => exact brief_activity _

/-! ### Runs -/

/-- Whatever becomes of the bus, the runners ask for nothing else. -/
structure Businesslike (s : System (place Sink X σ)) : Prop where
  streaming : AllStreaming s
  brief : ∀ i r, s.residual (.runner i) = some r → r.Only Brief

theorem Businesslike.doing (h : Businesslike s) (dutiful : Dutiful c) {r : Routine (place Sink X σ) Unit}
    (doing : Doing c s (.runner i) r) : r.Only Brief := by
  rcases doing with hr | ⟨-, t, r', ht, -, source, rfl⟩
  · exact h.brief i r hr
  · exact (brief_runner dutiful.onDuty source (h.streaming i t ht).reads.asks).bind fun _ => trivial

theorem Businesslike.step (h : Businesslike s) (dutiful : Dutiful c) (hs : s.step c a = some s') :
    Businesslike s' := by
  refine ⟨streaming_step h.streaming dutiful.onDuty hs, fun i r hr => ?_⟩
  obtain ⟨asked, work, -, stride⟩ := stride_of_step hs
  by_cases ha : .runner i = a
  · subst ha
    cases stride with
    | asked doing answer channel state residual others =>
      obtain rfl := Option.some.inj (residual.symm.trans hr)
      exact (h.doing dutiful doing).2 _
    | panicked doing answer narrowed state residual others =>
      rcases residual with hnone | hsame
      · cases hnone.symm.trans hr
      · exact h.brief i r (hsame ▸ hr)
    | ended before narrowed state residual others => cases residual.symm.trans hr
    | cancelled actor runner aborted => exact h.brief i r ((residual_cancel _).symm.trans hr)
  · exact h.brief i r (residual_of_step hs ha ▸ hr)

theorem businesslike_of_run (dutiful : Dutiful c) (new : s₀.IsNew) (h : System.Run c s₀ τ s) :
    Businesslike s := by
  induction h with
  | refl =>
    refine ⟨fun i t ht => ?_, fun i r hr => ?_⟩
    · rw [new.runners, List.getElem?_nil] at ht
      cases ht
    · cases (new.residual _).symm.trans hr
  | step before hs ih => exact ih.step dutiful hs
  | call before f ih =>
    refine ⟨ih.streaming, fun i r hr => ih.brief i r ?_⟩
    rcases residual_start hr with hold | ⟨hcall, -⟩
    · exact hold
    · cases hcall
  | outside before h ih => exact ⟨fun i t ht => ih.streaming i t (h.runners ▸ ht),
      fun i r hr => ih.brief i r (h.residual _ ▸ hr)⟩

/-- Nothing holds up the runner of a duty but an abort. -/
theorem Businesslike.aborted (h : Businesslike s) (dutiful : Dutiful c) (held : HeldUp c s i) :
    s.ending? i = some .aborted := by
  rcases held with aborted | ⟨t, q, rest, ht, routine, blocked, hw⟩
  · exact aborted
  · have brief := h.doing dutiful (doing_of_runnerIn ht routine)
    exact absurd blocked (brief.1.answered dutiful.answers hw)

/-! ### The start -/

def startDuties (grace : Duration) :
    Activity (place Sink X σ) (Except RuntimeError (Scheduler Duty)) :=
  Scheduler.start (D := place Sink X σ) Duty.name grace duties

structure AllOrNone (c : Cast (place Sink X σ)) (grace : Duration) (k : Nat)
    (τ₁ τ₂ : List (Label (place Sink X σ))) (s : System (place Sink X σ)) : Prop where
  /-- It comes back with all of its runners, or with none. -/
  returned : ∀ xs ys result, told (.call k) τ₂ = xs ++ ys →
    Path (startDuties grace).routine xs (.done result) →
    (∃ sch, result = .ok sch ∧ Started grace duties (τ₁ ++ τ₂) s xs sch) ∨
      result = .error (.bus .closed) ∧ Refused c duties (τ₁ ++ τ₂) s xs
  /-- It has come back when nobody can go on and no receiver is at work, unless the store panicked in the first
  pass of a runner, or somebody aborted a runner. -/
  returns : s.isSettled c = true → s.worker.machine.phase.isCalling = false →
    (worked (τ₁ ++ τ₂)).all isComposed = true →
    (∃ xs ys result, told (.call k) τ₂ = xs ++ ys ∧ Path (startDuties grace).routine xs (.done result)) ∨
    ∃ i ∈ (told (.call k) τ₂).filterMap launched?, s.ending? i = some .aborted ∨
      ∃ p, s.ending? i = some (.panicked p) ∧ s.result? k = some (.error p)

/-- Whatever is in the store, and whenever somebody closes the bus: a start comes back with a scheduler whose
three runners were registered one after another before they did anything, or it comes back with the error that
the bus is closed, and then those of them that it had launched have ended and do nothing any more. -/
theorem starts_all_or_none (dutiful : Dutiful c) (new : s₀.IsNew) (before : System.Run c s₀ τ₁ s₁)
    {g : Except RuntimeError (Scheduler Duty) → Routine (place Sink X σ) Unit}
    (about : s₁.calls[k]? = some (.running ((startDuties grace).routine.bind g)))
    (after : System.Run c s₁ τ₂ s) : AllOrNone c grace k τ₁ τ₂ s := by
  refine ⟨fun xs ys result htold path => before.start_returned new after htold path,
    fun settled between composed => ?_⟩
  rcases before.start_returns new about after ⟨isSettled_iff.mp settled, between, composed⟩ with
    done | ⟨i, hi, ⟨p, he, hresult⟩ | held⟩
  · exact Or.inl done
  · exact Or.inr ⟨i, hi, Or.inr ⟨p, he, hresult⟩⟩
  · have businesslike := businesslike_of_run dutiful new (before.trans after)
    exact Or.inr ⟨i, hi, Or.inl (businesslike.aborted dutiful held)⟩

/-! ### A start that is cut short -/

/-- The world of `dawn`, but the store panics when it is asked for one poll. -/
def brittle : Cast (place Empty ⟨Empty, nofun⟩ Unit) :=
  { World.lonely.cast with
    answer := fun
      | .inl (.get _), x => some (.panicked ⟨some "store panicked"⟩, x)
      | .inl q, x => some (.reply (x.1.answer q).1, ((x.1.answer q).2, x.2))
      | .inr q, _ => nomatch q }

def shutBus : Activity (place Empty ⟨Empty, nofun⟩ Unit) Unit := do
  let _ ← Activity.closeBus

/-- The runner that starts polls finds `lunch` due, and panics; the one that advances rounds waits. -/
def twoRunners : List (System.Move (place Empty ⟨Empty, nofun⟩ Unit)) := List.flatten
  [turns 6 (.call 0), turns 9 (.runner 0), turns 1 (.call 0), turns 20 (.runner 0), turns 6 (.call 0),
    turns 9 (.runner 1), turns 1 (.call 0), turns 10 .worker]

/-- The third runner is about to be registered when the bus is closed. -/
def noThird : List (System.Move (place Empty ⟨Empty, nofun⟩ Unit)) := List.flatten
  [turns 3 (.call 0), [.begin shutBus], turns 1 (.call 1), turns 9 (.call 0), turns 20 (.runner 1),
    turns 9 (.call 0), turns 20 .worker, turns 5 (.call 1)]

def brittleStart : System (place Empty ⟨Empty, nofun⟩ Unit) := World.dawn.start World.lonely.startScheduler

def withTwo : List (Label (place Empty ⟨Empty, nofun⟩ Unit)) × System (place Empty ⟨Empty, nofun⟩ Unit) :=
  brittleStart.play brittle twoRunners

def withNone : List (Label (place Empty ⟨Empty, nofun⟩ Unit)) × System (place Empty ⟨Empty, nofun⟩ Unit) :=
  withTwo.2.play brittle noThird

theorem starts_all_or_none_brittle :
    Path (startDuties World.lonely.grace).routine (told (.call 0) (withTwo.1 ++ withNone.1))
      (.done (.error (.bus .closed))) ∧
    withNone.2.isClosed = true ∧
    withNone.2.ending? 0 = some (.panicked ⟨some "store panicked"⟩) ∧ withNone.2.ending? 1 = some .stopped ∧
    ∀ τ s, System.Run brittle withNone.2 τ s →
      ∀ l ∈ τ, l.actor? ≠ some (.runner 0) ∧ l.actor? ≠ some (.runner 1) := by
  have dutiful : Dutiful brittle :=
    ⟨fun d => ⟨_, _, rfl⟩, fun q x => by cases q <;> exact Option.some_ne_none _⟩
  have new : World.dawn.IsNew := ⟨⟨16, rfl⟩, rfl, rfl, rfl⟩
  have before : System.Run brittle World.dawn [.began World.lonely.startScheduler] brittleStart :=
    System.Run.refl.call World.lonely.startScheduler
  have about : brittleStart.calls[0]? = some (.running
      ((startDuties World.lonely.grace).routine.bind fun _ => .done ())) :=
    congrArg some (congrArg CallTask.running Activity.routine_bind)
  have after : System.Run brittle brittleStart (withTwo.1 ++ withNone.1) withNone.2 :=
    (System.Run.played twoRunners).trans (System.Run.played noThird)
  have starts := starts_all_or_none dutiful new before about after
  have launched : (told (.call 0) (withTwo.1 ++ withNone.1)).filterMap launched? = [0, 1] := by
    decide +kernel
  have committed : ((told (.call 0) (withTwo.1 ++ withNone.1)).filterMap committed?).length = 2 := by
    decide +kernel
  have value : withNone.2.result? 0 = some (.ok ()) := by decide +kernel
  obtain ⟨task, htask, follows⟩ := after.pursues about
  obtain rfl := Option.some.inj (htask.symm.trans (calls_of_result value))
  cases follows with
  | returned path =>
    rcases path.of_bind with ⟨q, rest, -, hdone⟩ | ⟨r, xs, ys, htold, starting, returns⟩
    · cases hdone
    obtain ⟨rfl, -⟩ := returns.of_done
    rw [htold, List.append_nil] at launched committed ⊢
    rcases starts.returned xs [] r htold starting with ⟨sch, -, started⟩ | ⟨rfl, refused⟩
    · have services := congrArg List.length started.services
      rw [started.registered, List.length_map] at committed
      rw [List.length_map, committed] at services
      cases services
    · refine ⟨starting, refused.closed (by decide +kernel), by decide +kernel, by decide +kernel,
        fun τ s run l hl => ⟨?_, ?_⟩⟩
      · exact refused.for_good τ s run 0 (launched ▸ .head _) l hl
      · exact refused.for_good τ s run 1 (launched ▸ .tail _ (.head _)) l hl

end Reveille.Poll
