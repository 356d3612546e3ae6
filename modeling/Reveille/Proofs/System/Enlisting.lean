import Reveille.Proofs.System.Crossing
import Reveille.Proofs.System.Cut
import Reveille.Proofs.System.Hiring

/-!
# Nobody runs unregistered

A runner is launched only by whoever has committed its registration to the queue before.  Every routine keeps
to that, whatever it is told (`Launches`).  So every runner that was launched has its registration among the
commands that were committed (`Run.enlisted`).
-/

namespace Reveille.System

open Bus

variable {D : Domain} {c : Cast D} {s s' s₀ : System D} {a : Actor} {i : Nat} {t : RunnerTask D}
  {q : Request D} {τ : List (Label D)} {l : Label D} {C C' : List (Command (Receiver D) D.Event)}
  {α β : Type}

def Enlisted (i : Nat) (C : List (Command (Receiver D) D.Event)) : Prop :=
  ∃ service, .register (.inbox service i) ∈ C

/-- Whatever it is told, the routine launches only runners whose registration was committed before. -/
def Launches (C : List (Command (Receiver D) D.Event)) : Routine D α → Prop
  | .done _ => True
  | .ask q rest => (∀ i, q = .launch i → Enlisted i C) ∧
      ∀ reply, Launches (C ++ (committed? ⟨q, reply⟩).toList) (rest reply)

theorem Enlisted.mono (h : Enlisted i C) (hC : C ⊆ C') : Enlisted i C' := by
  obtain ⟨service, hmem⟩ := h
  exact ⟨service, hC hmem⟩

/-! ### Routines -/

theorem Launches.mono {r : Routine D α} (h : Launches C r) (hC : C ⊆ C') : Launches C' r := by
  induction r generalizing C C' with
  | done v => exact trivial
  | ask q rest ih =>
    exact ⟨fun i hq => (h.1 i hq).mono hC,
      fun reply => ih reply (h.2 reply) (List.append_subset.mpr
        ⟨List.subset_append_of_subset_left _ hC, List.subset_append_right _ _⟩)⟩

theorem Launches.bind {r : Routine D α} {f : α → Routine D β} (h : Launches C r)
    (hf : ∀ v, Launches C (f v)) : Launches C (r.bind f) := by
  induction r generalizing C with
  | done v => exact hf v
  | ask q rest ih =>
    exact ⟨h.1, fun reply => ih reply (h.2 reply)
      fun v => (hf v).mono (List.subset_append_left _ _)⟩

theorem launches_query (h : ∀ i, q ≠ .launch i) : Launches C (Routine.query q) :=
  ⟨fun i hq => absurd hq (h i), fun _ => trivial⟩

/-- Whoever is told that a command was sent has committed it. -/
theorem launches_enqueue {item : Command (Receiver D) D.Event}
    {f : Except BusError Unit → Routine D α} (refused : ∀ C' e, Launches C' (f (.error e)))
    (sent : ∀ C', item ∈ C' → Launches C' (f (.ok ()))) :
    Launches C ((Routine.enqueue item).bind f) := by
  refine ⟨nofun, fun letIn => ?_⟩
  cases (letIn : Bool) with
  | false => exact refused _ _
  | true =>
    refine ⟨nofun, fun _ => ⟨nofun, fun held => ?_⟩⟩
    cases (held : Bool) with
    | false => exact refused _ _
    | true =>
      refine ⟨nofun, fun kept => ?_⟩
      cases (kept : Bool) with
      | false => exact refused _ _
      | true => exact sent _ (List.mem_append_right _ (List.mem_singleton_self item))

theorem launches_send (item : Command (Receiver D) D.Event) : Launches C (Routine.enqueue item) := by
  have h : Launches C ((Routine.enqueue item).bind .done) :=
    launches_enqueue (fun _ _ => trivial) fun _ _ => trivial
  rwa [Program.bind_done] at h

theorem launches_close : Launches C (Routine.close (D := D)) := by
  refine ⟨nofun, fun first => ?_⟩
  cases (first : Bool) with
  | false => exact trivial
  | true =>
    refine ⟨nofun, fun reply => ?_⟩
    match reply with
    | (_, .ok ()) => exact trivial
    | (task, .error p) => exact ⟨nofun, fun _ => trivial⟩

theorem launches_startRunner (service : D.Service) :
    Launches C (Routine.startRunner service) := by
  refine ⟨nofun, fun i => launches_enqueue (fun _ _ => trivial) fun C' hmem => ?_⟩
  refine ⟨fun j hj => ?_, fun _ => ⟨nofun, fun _ => trivial⟩⟩
  cases hj
  exact ⟨service, hmem⟩

theorem launches_habit : Habit a (fun {_} r => Launches (D := D) C r) where
  done _ := trivial
  bind := Launches.bind
  single q hq := launches_query (by rintro i rfl; cases hq)
  send _ := launches_send _
  register _ := launches_send _
  close := launches_close
  startRunner := launches_startRunner
  push _ _ _ := launches_query nofun

/-! ### Runs -/

structure Roll (τ : List (Label D)) (s : System D) : Prop where
  routines : ∀ a r, s.residual a = some r → Launches (commands τ) r
  launched : ∀ i t, s.runners[i]? = some t → t.launched = true → Enlisted i (commands τ)

theorem commands_subset {τ' : List (Label D)} : commands τ ⊆ commands (τ ++ τ') := by
  rw [commands, commands, committed_append, List.map_append]
  exact List.subset_append_left _ _

theorem launches_of_doing (h : Roll τ s) {r : Routine D Unit} (doing : Doing c s a r) :
    Launches (commands τ) r := by
  rcases doing with hr | ⟨-, begins⟩
  · exact h.routines a r hr
  · exact launches_habit.fresh begins

theorem Roll.routines_of_stride {asked : Option (Exchange D.requests)}
    {work : Option (Exchange (Worker.requests (Receiver D) D.Event))} (h : Roll τ s)
    (stride : Stride c s a asked s') {b : Actor} {r : Routine D Unit} (hr : s'.residual b = some r) :
    Launches (commands (τ ++ [.moved a asked work])) r := by
  have kept (hb : s.residual b = some r) : Launches (commands (τ ++ [.moved a asked work])) r :=
    (h.routines b r hb).mono commands_subset
  cases stride with
  | @asked q rest reply s₁ s' doing answer channel state residual others =>
    by_cases hba : b = a
    · subst hba
      obtain rfl := Option.some.inj (residual.symm.trans hr)
      rw [commands_asked]
      exact (launches_of_doing h doing).2 reply
    · exact kept (others b hba ▸ hr)
  | panicked doing answer narrowed state residual others =>
    by_cases hba : b = a
    · subst hba
      rcases residual with hnone | hsame
      · cases hnone.symm.trans hr
      · exact kept (hsame ▸ hr)
    · exact kept (others b hba ▸ hr)
  | ended before narrowed state residual others =>
    by_cases hba : b = a
    · subst hba
      cases residual.symm.trans hr
    · exact kept (others b hba ▸ hr)
  | cancelled actor runner aborted => exact kept ((residual_cancel b).symm.trans hr)

/-- A runner that is launched now was launched before, or is launched by somebody who may. -/
theorem Roll.step (h : Roll τ s) (hs : s.step c a = some s') : Roll (τ ++ [s.label c a]) s' := by
  obtain ⟨asked, work, hlabel, stride⟩ := stride_of_step hs
  have turn := turn_of_step hs
  rw [hlabel] at turn ⊢
  refine ⟨fun b r hr => h.routines_of_stride stride hr, fun i t' ht' hlaunched => ?_⟩
  have kept {t : RunnerTask D} (ht : s.runners[i]? = some t) (hl : t.launched = true) :
      Enlisted i (commands (τ ++ [.moved a asked work])) :=
    (h.launched i t ht hl).mono commands_subset
  by_cases ha : a = .runner i
  · subst ha
    obtain ⟨t, ht, hrun, -⟩ := runnerTurn_of_step hs
    exact kept ht (RunnerTask.mayRun_iff.mp hrun).1
  · cases ht : s.runners[i]? with
    | none =>
      rw [new_of_step turn ha ht ht'] at hlaunched
      cases hlaunched
    | some t =>
      rcases runner_of_turn turn ha ht with ⟨-, hsame⟩ | ⟨q, reply, rfl, hupon⟩
      · obtain rfl := Option.some.inj (hsame.symm.trans ht')
        exact kept ht hlaunched
      · obtain rfl := Option.some.inj (hupon.symm.trans ht')
        rcases launched_of_upon hlaunched with hl | rfl
        · exact kept ht hl
        · cases stride with
          | asked doing => exact ((launches_of_doing h doing).1 i rfl).mono commands_subset

theorem Run.enlisted (new : s₀.IsNew) (h : Run c s₀ τ s) : Roll τ s := by
  induction h with
  | refl =>
    refine ⟨fun a r hr => ?_, fun i t ht => ?_⟩
    · cases (new.residual a).symm.trans hr
    · rw [new.runners, List.getElem?_nil] at ht
      cases ht
  | step before h ih => exact ih.step h
  | call before f ih =>
    refine ⟨fun b r hr => ?_, fun i t ht hl => (ih.launched i t ht hl).mono commands_subset⟩
    rcases residual_start hr with h | ⟨-, rfl⟩
    · exact (ih.routines b r h).mono commands_subset
    · exact Launches.bind ((launches_habit (a := .worker)).activity f) fun _ => trivial
  | outside before h ih =>
    exact ⟨fun b r hr => ih.routines b r (h.residual b ▸ hr),
      fun i t ht => ih.launched i t (h.runners ▸ ht)⟩

end Reveille.System
