import Reveille.Proofs.Runner.Errors
import Reveille.Proofs.Runner.Events
import Reveille.Proofs.Runner.Passes

/-!
# Leaving the loop

A runner looks whether it should stop at the top of its loop and while it waits (`rests`), and nowhere else.
When it is told so at every such place it leaves at the first of them, takes no event any more, and begins a
pass or an event only if it was already about to (`Heeding`).

What has begun is carried through.  After an entity was processed it is looked up again if that is called
for, and after an event so are the entities that the service named, one after another (`Run.follows_up`).
-/

namespace Reveille.Runner

variable {E Id F : Type}

/-- The runner is between two rounds of its loop. -/
def rests : Exchange (requests E Id F) → Bool
  | ⟨.isStopRequested, _⟩ | ⟨.wait _ _, _⟩ => true
  | _ => false

def begins : Exchange (requests E Id F) → Bool
  | ⟨.checkAll, _⟩ | ⟨.receiveEvent _, _⟩ => true
  | _ => false

/-- A pass or an event is ahead, and the runner may begin it without resting before. -/
def Phase.isPoised : Phase E Id F → Bool
  | .seeding | .scanning _ _ | .timing | .waking | .receiving _ => true
  | _ => false

variable {r r' : Runner E Id F} {ρ σ σ' : List (Exchange (requests E Id F))}
  {x : Exchange (requests E Id F)} {jitter : Jitter} {p : Phase E Id F}

@[simp] theorem isPoised_check {ids : List Id} : (r.check ids).1.phase.isPoised = false := by
  cases ids <;> rfl

@[simp] theorem isPoised_process {next : Alarm Id} {ids : List Id} :
    (r.process next ids).1.phase.isPoised = false := by
  cases ids <;> rfl

section
variable [DecidableEq Id]

/-- Between two rests a pass or an event is begun once at most. -/
theorem poised_resume (reply : r.request.Reply) (working : rests ⟨r.request, reply⟩ = false) :
    (begins ⟨r.request, reply⟩).toNat + (r.resume reply).1.phase.isPoised.toNat ≤
      r.phase.isPoised.toNat := by
  have quiet {b : Bool} (h : b = false) (n : Nat) : (false : Bool).toNat + b.toNat ≤ n := by
    rw [h]
    exact Nat.zero_le n
  have turned := turned_resume r reply
  generalize r.resume reply = turn at turned ⊢
  cases turned with
  | seeding | scanning => exact Nat.le_refl 1
  | collected r pass =>
    cases pass with
    | seed => exact quiet rfl _
    | wake => exact quiet isPoised_process _
  | stopped | working | stoppedWaiting | event | inboxEnded | elapsed => cases working
  | late | early | wakes | earlyWake => exact (Nat.zero_add _).trans_le (Bool.toNat_le _)
  | receiving => exact Nat.add_le_add_left (Nat.le_of_eq (congrArg Bool.toNat isPoised_check)) 1
  | checked | checkFailed => exact quiet isPoised_check _
  | processFailed | recheckFailed | stillDue | dueLater => exact quiet isPoised_process _
  | _ => exact quiet rfl _

theorem stopped_of_isStop (reply : r.request.Reply) (h : isStop ⟨r.request, reply⟩ = true) :
    (r.resume reply).1.phase = .stopped := by
  have turned := turned_resume r reply
  generalize r.resume reply = turn at turned ⊢
  cases turned with
  | stopped | stoppedWaiting => rfl
  | _ => cases h

end

theorem countP_concat : (ρ ++ [x]).countP begins = ρ.countP begins + (begins x).toNat := by
  rw [List.countP_append, List.countP_singleton]
  cases begins x <;> rfl

theorem rests_of_isStop (h : isStop x = true) : rests x = true := by
  obtain ⟨q, reply⟩ := x
  cases q with
  | isStopRequested => rfl
  | wait limit inboxOpen => rfl
  | _ => cases h

theorem taken?_of_isStop (h : isStop x = true) : taken? x = none := by
  obtain ⟨q, reply⟩ := x
  cases q with
  | wait limit inboxOpen => rcases reply with _ | _ | _ | _ <;> first | rfl | cases h
  | _ => rfl

theorem taken?_of_working (h : rests x = false) : taken? x = none := by
  obtain ⟨q, reply⟩ := x
  cases q with
  | wait limit inboxOpen => cases h
  | _ => rfl

/-! ### The way out of the loop -/

/-- Passes and events that a runner began, and that it is about to begin, from some phase on. -/
def Begun (p : Phase E Id F) (ρ : List (Exchange (requests E Id F))) (ahead : Bool) : Prop :=
  (∀ x ∈ ρ, rests x = false) ∧ ρ.countP begins + ahead.toNat ≤ p.isPoised.toNat

/-- A runner that is told to stop at every rest, from some phase on: it works, or was told so and is out of
the loop. -/
def Heeding (p : Phase E Id F) (ρ : List (Exchange (requests E Id F))) (r : Runner E Id F) : Prop :=
  Begun p ρ r.phase.isPoised ∨
    ∃ σ x, ρ = σ ++ [x] ∧ isStop x = true ∧ r.phase = .stopped ∧ Begun p σ false

section
variable [DecidableEq Id]

omit [DecidableEq Id] in
theorem Heeding.init : Heeding r.phase [] r :=
  Or.inl ⟨fun _ h => absurd h List.not_mem_nil, by rw [List.countP_nil, Nat.zero_add]⟩

theorem Heeding.step (h : Heeding p ρ r) (reply : r.request.Reply)
    (told : rests ⟨r.request, reply⟩ = true → isStop ⟨r.request, reply⟩ = true) :
    Heeding p (ρ ++ [⟨r.request, reply⟩]) (r.resume reply).1 := by
  rcases h with ⟨hworking, hcount⟩ | ⟨σ, x, rfl, -, stopped, -⟩
  · cases hrests : rests ⟨r.request, reply⟩ with
    | true =>
      have hstop := told hrests
      exact Or.inr ⟨ρ, _, rfl, hstop, stopped_of_isStop reply hstop, hworking,
        (Nat.le_add_right _ _).trans hcount⟩
    | false =>
      have hstep := poised_resume reply hrests
      refine Or.inl ⟨fun y hy => ?_, ?_⟩
      · rcases List.mem_append.mp hy with hy | hy
        · exact hworking y hy
        · exact List.mem_singleton.mp hy ▸ hrests
      · rw [countP_concat, Nat.add_assoc]
        exact (Nat.add_le_add_left hstep _).trans hcount
  · obtain ⟨jitter, alarm, rescanAt, shown, inboxOpen, phase⟩ := r
    obtain rfl : phase = .stopped := stopped
    exact nomatch (reply : Empty)

end

/-- The first rest is the last thing that happens. -/
theorem Heeding.leaves (h : Heeding p ρ r) (hρ : ρ = σ ++ x :: σ') (hx : rests x = true) :
    isStop x = true ∧ σ' = [] := by
  rcases h with ⟨hworking, -⟩ | ⟨ρ', y, heq, hstop, -, hworking, -⟩
  · have hfalse := hworking x (by rw [hρ]; simp)
    rw [hx] at hfalse
    cases hfalse
  · rw [hρ] at heq
    rcases List.eq_nil_or_concat σ' with rfl | ⟨σ'', z, rfl⟩
    · obtain ⟨-, hxy⟩ := List.append_inj' heq rfl
      exact ⟨List.singleton_inj.mp hxy ▸ hstop, rfl⟩
    · have hinit : σ ++ x :: σ'' = ρ' := by
        have heq' : (σ ++ x :: σ'') ++ [z] = ρ' ++ [y] := by simpa using heq
        exact (List.append_inj' heq' rfl).1
      have hfalse := hworking x (by rw [← hinit]; simp)
      rw [hx] at hfalse
      cases hfalse

theorem Heeding.taken_nil (h : Heeding p ρ r) : taken ρ = [] := by
  have working {σ : List (Exchange (requests E Id F))} (h : ∀ x ∈ σ, rests x = false) : taken σ = [] :=
    List.filterMap_eq_nil_iff.mpr fun x hx => taken?_of_working (h x hx)
  rcases h with ⟨hworking, -⟩ | ⟨σ, x, rfl, hstop, -, hworking, -⟩
  · exact working hworking
  · rw [taken_concat, working hworking, taken?_of_isStop hstop]
    rfl

/-- One pass or event is begun at most, and only by a runner that was about to. -/
theorem Heeding.begun (h : Heeding p ρ r) : ρ.countP begins ≤ p.isPoised.toNat := by
  rcases h with ⟨-, hcount⟩ | ⟨σ, x, rfl, hstop, -, -, hcount⟩
  · exact (Nat.le_add_right _ _).trans hcount
  · have hx : begins x = false := by
      obtain ⟨q, reply⟩ := x
      cases q <;> first | rfl | cases hstop
    rw [List.countP_append, List.countP_singleton, hx]
    exact hcount

/-! ### What a reply calls for -/

def followUps [DecidableEq Id] : Exchange (requests E Id F) → List (Request E Id F)
  | ⟨.processOne id, reply⟩ =>
    if asksAgain (F := F) (E := E) ⟨.processOne id, reply⟩ then [.checkOne id] else []
  | ⟨.receiveEvent _, (asked : List Id)⟩ => (scheduled asked).map .checkOne
  | _ => []

/-- What a phase has still to ask because of an earlier reply. -/
def Phase.owes : Phase E Id F → List (Request E Id F)
  | .checking id rest => (id :: rest).map .checkOne
  | .rechecking id _ _ => [.checkOne id]
  | _ => []

@[simp] theorem owes_check {ids : List Id} : (r.check ids).1.phase.owes = ids.map .checkOne := by
  cases ids <;> rfl

@[simp] theorem owes_process {next : Alarm Id} {ids : List Id} :
    (r.process next ids).1.phase.owes = [] := by
  cases ids <;> rfl

section
variable [DecidableEq Id]

/-- A reply either calls for something, or is the reply to what an earlier one called for. -/
theorem owes_resume (reply : r.request.Reply) :
    r.phase.owes = [] ∧ (r.resume reply).1.phase.owes = followUps ⟨r.request, reply⟩ ∨
      followUps ⟨r.request, reply⟩ = [] ∧ r.phase.owes = r.request :: (r.resume reply).1.phase.owes := by
  have turned := turned_resume r reply
  generalize r.resume reply = turn at turned ⊢
  cases turned with
  | collected r pass =>
    cases pass with
    | seed => exact Or.inl ⟨rfl, rfl⟩
    | wake => exact Or.inl ⟨rfl, owes_process⟩
  | receiving => exact Or.inl ⟨rfl, owes_check⟩
  | checked | checkFailed => exact Or.inr ⟨rfl, congrArg (_ :: ·) owes_check.symm⟩
  | rechecked => exact Or.inr ⟨rfl, rfl⟩
  | recheckFailed => exact Or.inr ⟨rfl, congrArg (_ :: ·) owes_process.symm⟩
  | processFailed | stillDue | dueLater => exact Or.inl ⟨rfl, owes_process⟩
  | _ => exact Or.inl ⟨rfl, rfl⟩

/-- Whatever a reply calls for was asked next, or is still to be asked. -/
theorem Run.follows_up (h : Run jitter ρ r) (hρ : ρ = σ ++ x :: σ') :
    followUps x <+: σ'.map (·.request) ++ r.phase.owes := by
  induction h generalizing σ' with
  | init => simp at hρ
  | @step ρ r before reply ih =>
    rcases List.eq_nil_or_concat σ' with rfl | ⟨σ'', y, rfl⟩
    · obtain ⟨-, hx⟩ := List.append_inj' hρ rfl
      rw [← List.singleton_inj.mp hx]
      rcases owes_resume reply with ⟨-, hnext⟩ | ⟨hnone, -⟩
      · rw [hnext]
        exact List.prefix_rfl
      · rw [hnone]
        exact List.nil_prefix
    · have heq : ρ ++ [⟨r.request, reply⟩] = (σ ++ x :: σ'') ++ [y] := by simpa using hρ
      obtain ⟨hinit, hlast⟩ := List.append_inj' heq rfl
      have hbefore := ih hinit
      rw [List.concat_eq_append, List.map_append, ← List.singleton_inj.mp hlast]
      rcases owes_resume reply with ⟨hnone, -⟩ | ⟨-, hnext⟩
      · rw [hnone, List.append_nil] at hbefore
        exact hbefore.trans ((List.prefix_append _ _).trans (List.prefix_append _ _))
      · rw [hnext] at hbefore
        simpa using hbefore

/-- What has begun was carried through: no pass is under way, every wake pass has processed all that was due in
it, and whatever a reply called for was asked next. -/
structure CarriedThrough (ρ : List (Exchange (requests E Id F))) : Prop where
  finished : (passBook ρ).present = none
  due : ∀ p ∈ (passBook ρ).past, p.pass = .wake →
    ∃ sorted, StableSort p.due sorted ∧ p.processed = sorted.map (·.1)
  followed_up : ∀ σ x σ', ρ = σ ++ x :: σ' → followUps x <+: σ'.map (·.request)

/-- Whoever has left the loop has carried everything through. -/
theorem Run.carried_through (h : Run jitter ρ r) (stopped : r.phase = .stopped) : CarriedThrough ρ := by
  have books := h.orderly.phase
  rw [stopped] at books
  refine ⟨books.1, fun p hp wake => ?_, fun σ x σ' hρ => ?_⟩
  · exact (h.processes_in_order.2.1 p hp).2 wake
  · have follows := h.follows_up hρ
    rwa [stopped, show Phase.owes (.stopped : Phase E Id F) = [] from rfl, List.append_nil] at follows

end

end Reveille.Runner
