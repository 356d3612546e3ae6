import Reveille.Proofs.System.History
import Reveille.Proofs.System.Residual

/-!
# Steps on a bus in any condition

`Stride` says what a step does to the routines of all actors, with the request that was answered as the
label has it.  Nothing is assumed about the bus, about panics or about the ends of runners
(`stride_of_step`).

Whatever is requested of a runner by anybody, it keeps its machine and its routine (`Treated`), and a bus
that is closed or that lost its worker stays so (`Narrowed`).
-/

namespace Reveille

variable {D : Domain} {c : Cast D} {a b : Actor}

namespace System

variable {s s' s₁ : System D} {i : Nat} {t : RunnerTask D} {q : Request D}

/-- What others may do to a runner. -/
def Treats (f : RunnerTask D → RunnerTask D) : Prop :=
  ∀ t, ∃ inbox launched released stopRequested aborted,
    f t = { t with inbox, launched, released, stopRequested, aborted }

inductive Treated (c : Cast D) (s s' : System D) : Prop
  | same (h : s'.runners = s.runners)
  | modified {j : Nat} {f : RunnerTask D → RunnerTask D} (h : s'.runners = s.runners.modify j f)
      (treats : Treats f)
  | hired {service : D.Service}
      (h : s'.runners = s.runners ++ [{ service, machine := .init (c.service service).jitter }])

theorem treated_of_perform {answer : Answer q.Reply} (h : s.perform c a q = some (answer, s')) :
    Treated c s s' := by
  cases performed_of_perform h with
  | readTime source => cases source <;> exact .same rfl
  | hired service => exact .hired rfl
  | pushed | launched | released | stopRequested | aborted =>
    exact .modified rfl fun t => ⟨_, _, _, _, _, rfl⟩
  | _ => exact .same rfl

/-- Every runner was there before, up to what others may do to it, or was just hired. -/
theorem Treated.before (h : Treated c s s') (ht : s'.runners[i]? = some t) :
    (∃ t₀ inbox launched released stopRequested aborted, s.runners[i]? = some t₀ ∧
        t = { t₀ with inbox, launched, released, stopRequested, aborted }) ∨
      t = { service := t.service, machine := .init (c.service t.service).jitter } := by
  cases h with
  | same h => exact Or.inl ⟨t, _, _, _, _, _, h ▸ ht, rfl⟩
  | @modified j f h treats =>
    rw [h, List.getElem?_modify, Option.map_eq_map, Option.map_eq_some_iff] at ht
    obtain ⟨t₀, ht₀, rfl⟩ := ht
    by_cases hj : j = i
    · rw [if_pos hj]
      obtain ⟨_, _, _, _, _, hf⟩ := treats t₀
      exact Or.inl ⟨t₀, _, _, _, _, _, ht₀, hf⟩
    · rw [if_neg hj]
      exact Or.inl ⟨t₀, _, _, _, _, _, ht₀, rfl⟩
  | hired h =>
    rw [h, List.getElem?_append] at ht
    split at ht
    · exact Or.inl ⟨t, _, _, _, _, _, ht, rfl⟩
    · cases hn : i - s.runners.length with
      | zero =>
        rw [hn] at ht
        cases ht
        exact Or.inr rfl
      | succ n =>
        rw [hn] at ht
        cases ht

theorem Treated.residual (h : Treated c s s') (i : Nat) :
    s'.residual (.runner i) = s.residual (.runner i) := by
  simp only [System.residual]
  cases h with
  | same h => rw [h]
  | @modified j f h treats =>
    rw [h, List.getElem?_modify]
    cases s.runners[i]? with
    | none => rfl
    | some t =>
      by_cases hj : j = i
      · obtain ⟨_, _, _, _, _, hf⟩ := treats t
        simp only [Option.map_eq_map, Option.map_some, if_pos hj, Option.bind_some, hf]
        rfl
      · simp only [Option.map_eq_map, Option.map_some, if_neg hj]
  | hired h =>
    rw [h, List.getElem?_append]
    split
    · rfl
    · next hlen =>
      rw [List.getElem?_eq_none_iff.mpr (Nat.le_of_not_lt hlen)]
      cases i - s.runners.length <;> rfl

theorem residual_of_perform {answer : Answer q.Reply} (h : s.perform c a q = some (answer, s'))
    (b : Actor) : s'.residual b = s.residual b := by
  obtain ⟨hworker, hcalls, -⟩ := perform_frame h
  cases b with
  | worker => exact congrArg WorkerTask.residual hworker
  | runner i => exact (treated_of_perform h).residual i
  | call i => simp only [residual, hcalls]

/-- Only the surrounding state answers for itself. -/
theorem state_of_perform {answer : Answer q.Reply} (h : s.perform c a q = some (answer, s'))
    (hq : ∀ x, q ≠ .call x) : s'.state = s.state := by
  cases performed_of_perform h with
  | readTime source => cases source <;> rfl
  | called _ => exact absurd rfl (hq _)
  | _ => rfl

/-- A bus that lets senders in has done so before, and its worker was there. -/
structure Narrowed (ch ch' : Queue D) : Prop where
  accepting : ch'.accepting = true → ch.accepting = true
  listening : ch'.listening = true → ch.listening = true

theorem Narrowed.refl (ch : Queue D) : Narrowed ch ch := ⟨id, id⟩

theorem narrowed_of_perform {answer : Answer q.Reply} (h : s.perform c a q = some (answer, s')) :
    Narrowed s.channel s'.channel := by
  cases answer with
  | panicked p =>
    have hchannel := (channel_of_panicked h).2
    exact ⟨fun hs => hchannel ▸ hs, fun hs => hchannel ▸ hs⟩
  | reply reply =>
    obtain ⟨hlistening, haccepting⟩ := (passage_of_perform h).gates
    refine ⟨fun hs => ?_, fun hs => hlistening ▸ hs⟩
    rcases haccepting with hsame | ⟨-, hclosed⟩
    · exact hsame ▸ hs
    · rw [hclosed] at hs
      cases hs

/-! ### All actors -/

inductive Stride (c : Cast D) (s : System D) (a : Actor) :
    Option (Exchange D.requests) → System D → Prop
  | asked {q : Request D} {rest : q.Reply → Routine D Unit} {reply : q.Reply} {s₁ s' : System D}
      (doing : Doing c s a (.ask q rest)) (answer : s.perform c a q = some (.reply reply, s₁))
      (channel : s'.channel = s₁.channel) (state : s'.state = s₁.state)
      (residual : s'.residual a = some (rest reply))
      (others : ∀ b, b ≠ a → s'.residual b = s.residual b) : Stride c s a (some ⟨q, reply⟩) s'
  | panicked {q : Request D} {rest : q.Reply → Routine D Unit} {p : Panic} {s₁ s' : System D}
      (doing : Doing c s a (.ask q rest)) (answer : s.perform c a q = some (.panicked p, s₁))
      (narrowed : Narrowed s.channel s'.channel) (state : s'.state = s₁.state)
      (residual : s'.residual a = none ∨ s'.residual a = s.residual a)
      (others : ∀ b, b ≠ a → s'.residual b = s.residual b) : Stride c s a none s'
  | ended {s' : System D} (before : ∀ r, s.residual a = some r → r = .done ())
      (narrowed : Narrowed s.channel s'.channel) (state : s'.state = s.state)
      (residual : s'.residual a = none)
      (others : ∀ b, b ≠ a → s'.residual b = s.residual b) : Stride c s a none s'
  | cancelled {i : Nat} {t : RunnerTask D} (actor : a = .runner i) (runner : s.runners[i]? = some t)
      (aborted : t.aborted = true) : Stride c s a none (s.cancel i)

theorem narrowed_cancel : Narrowed s.channel (s.cancel i).channel := by
  obtain ⟨-, -, haccepting, hlistening⟩ :=
    Bus.Channel.withdraw_same (c := s.channel) (t := Actor.runner i)
  exact ⟨fun h => haccepting.symm.trans h, fun h => hlistening.symm.trans h⟩

theorem Aside.narrowed {ch : Queue D} (h : Aside a s₁ s') (before : Narrowed ch s₁.channel) :
    Narrowed ch s'.channel :=
  h.channel ▸ before

theorem narrowed_resumeWorker {ch : Queue D} {w : WorkerTask D} (reply : w.machine.request.Reply)
    (before : Narrowed ch s₁.channel) : Narrowed ch (s₁.resumeWorker c w reply).channel := by
  unfold resumeWorker
  constructor <;> dsimp only [addLines] <;> split
  · exact before.accepting
  · exact before.accepting
  · exact nofun
  · exact before.listening

theorem residual_call {task : CallTask D} (h : s.calls[i]? = some task) :
    s.residual (.call i) = task.residual := by
  simp only [residual, h]
  rfl

theorem residual_set_call {j : Nat} {task : CallTask D} (hb : b ≠ .call j) :
    System.residual { s with calls := s.calls.set j task } b = s.residual b := by
  cases b with
  | worker => rfl
  | runner i => rfl
  | call i =>
    simp only [residual]
    rw [List.getElem?_set_ne fun h => hb (congrArg Actor.call h.symm)]

theorem residual_set_self {task : CallTask D} (h : i < s.calls.length) :
    System.residual { s with calls := s.calls.set i task } (.call i) = task.residual :=
  residual_call (List.getElem?_set_self h)

theorem residual_of_ne_worker {w : WorkerTask D} (hb : b ≠ .worker) :
    System.residual { s with worker := w } b = s.residual b := by
  cases b with
  | worker => exact absurd rfl hb
  | _ => rfl

theorem residual_modifyRunner {f : RunnerTask D → RunnerTask D} (hb : b ≠ .runner i) :
    (s.modifyRunner i f).residual b = s.residual b := by
  cases b with
  | runner j =>
    have hne : i ≠ j := fun h => hb (congrArg Actor.runner h.symm)
    simp only [residual, modifyRunner, List.getElem?_modify_ne _ _ hne]
  | _ => rfl

theorem residual_momentum {momentum : Nat → Nat} :
    System.residual { s with momentum } b = s.residual b := by
  cases b <;> rfl

/-- A runner that is dropped keeps its routine, which is never gone on with. -/
theorem residual_cancel (b : Actor) : (s.cancel i).residual b = s.residual b := by
  by_cases hb : b = .runner i
  · subst hb
    cases ht : s.runners[i]? with
    | none => simp only [residual, cancel, modifyRunner, List.getElem?_modify_eq, ht]; rfl
    | some t => exact (residual_runner (runners_cancel ht)).trans (residual_runner ht).symm
  · cases b with
    | runner j => simp only [residual, runners_cancel_ne fun h => hb (congrArg Actor.runner h.symm)]
    | _ => rfl

theorem residual_resumeWorker {w : WorkerTask D} {reply : w.machine.request.Reply} (hb : b ≠ .worker) :
    (s.resumeWorker c w reply).residual b = s.residual b := by
  cases b with
  | worker => exact absurd rfl hb
  | _ => rfl

theorem doing_of_call {rest : q.Reply → Routine D D.Result}
    (h : s.calls[i]? = some (.running (.ask q rest))) :
    Doing c s (.call i) (.ask q fun reply => (rest reply).forget) := Or.inl (residual_call h)

theorem stride_of_turn {asked : Option (Exchange D.requests)}
    {worked : Option (Exchange (Bus.Worker.requests (Receiver D) D.Event))}
    (h : Turn c s (.moved a asked worked) s') (ha : ∀ i, a ≠ .runner i) : Stride c s a asked s' := by
  cases h with
  | @callAsked i q rest reply s₁ task answer =>
    have hlen := (List.getElem?_eq_some_iff.mp task).1
    rw [← (perform_frame answer).2.1] at hlen
    refine .asked (doing_of_call task) answer rfl rfl (residual_set_self hlen) fun b hb => ?_
    rw [residual_set_call hb, residual_of_perform answer]
  | @callPanicked i q rest p s₁ task answer =>
    have narrowed := narrowed_of_perform answer
    have hlen := (List.getElem?_eq_some_iff.mp task).1
    rw [← (perform_frame answer).2.1] at hlen
    refine .panicked (doing_of_call task) answer narrowed rfl (Or.inl (residual_set_self hlen))
      fun b hb => ?_
    rw [residual_set_call hb, residual_of_perform answer]
  | callReturned task =>
    have hlen := (List.getElem?_eq_some_iff.mp task).1
    refine .ended (fun r hr => ?_) (Narrowed.refl _) rfl (residual_set_self hlen)
      fun b hb => residual_set_call hb
    rw [residual_call task] at hr
    exact (Option.some.inj hr).symm
  | workerAsked routine answer =>
    refine .asked (doing_of_workerIn routine) answer rfl rfl rfl fun b hb => ?_
    rw [residual_of_ne_worker hb, residual_of_perform answer]
  | workerPanicked routine answer panic =>
    refine .panicked (doing_of_workerIn routine) answer
      (narrowed_resumeWorker _ (narrowed_of_perform answer)) rfl (Or.inl rfl) fun b hb => ?_
    rw [residual_resumeWorker hb, residual_of_perform answer]
  | workerReturned routine =>
    exact .ended (fun r hr => eq_of_doing (doing_of_workerIn routine) hr)
      (narrowed_resumeWorker _ (Narrowed.refl _)) rfl rfl fun b hb => residual_resumeWorker hb
  | workerServed idle source =>
    have before (r : Routine D Unit) (hr : s.residual .worker = some r) : r = .done () := by
      simp only [residual, WorkerTask.residual, idle] at hr
      cases hr
    obtain ⟨-, ⟨item, channel, taken, rfl, -⟩ | ⟨-, rfl, -⟩⟩ := served_cases source
    · obtain ⟨-, haccepting, hlistening⟩ := Bus.Channel.queue_of_take taken
      refine .ended before (narrowed_resumeWorker _ ?_) rfl rfl fun b hb => residual_resumeWorker hb
      exact ⟨fun hs => haccepting ▸ hs, fun hs => hlistening ▸ hs⟩
    · exact .ended before (narrowed_resumeWorker _ (Narrowed.refl _)) rfl rfl
        fun b hb => residual_resumeWorker hb
  | runnerAsked hired answer aside => exact absurd rfl (ha _)
  | runnerPanicked hired answer aside => exact absurd rfl (ha _)
  | runnerAlone hired aside => exact absurd rfl (ha _)
  | runnerCancelled runner aborted => exact absurd rfl (ha _)

theorem Treated.after (h : Treated c s s') (ht : s.runners[i]? = some t) :
    ∃ inbox launched released stopRequested aborted,
      s'.runners[i]? = some { t with inbox, launched, released, stopRequested, aborted } := by
  cases h with
  | same h => exact ⟨_, _, _, _, _, h ▸ ht⟩
  | @modified j f h treats =>
    obtain ⟨_, _, _, _, _, hf⟩ := treats t
    rw [h, List.getElem?_modify, ht]
    by_cases hj : j = i
    · exact ⟨_, _, _, _, _, by rw [Option.map_eq_map, Option.map_some, if_pos hj, hf]⟩
    · exact ⟨_, _, _, _, _, by rw [Option.map_eq_map, Option.map_some, if_neg hj]⟩
  | hired h =>
    have hlen := (List.getElem?_eq_some_iff.mp ht).1
    exact ⟨_, _, _, _, _, by rw [h, List.getElem?_append_left hlen, ht]⟩

theorem stride_of_runnerTurn {asked : Option (Exchange D.requests)}
    {replied : Option (Exchange (Duties D))} (ht : s.runners[i]? = some t)
    (h : RunnerTurn c s i t asked replied s') : Stride c s (.runner i) asked s' := by
  have before (idle : t.pending = none) (r : Routine D Unit)
      (hr : s.residual (.runner i) = some r) : r = .done () := by
    rw [residual_runner ht, idle] at hr
    cases hr
  cases h with
  | asked routine answer pace =>
    obtain ⟨_, _, _, _, _, htask⟩ := (treated_of_perform answer).after ht
    refine .asked (doing_of_runnerIn ht routine) answer rfl rfl
      (residual_runner (runners_modifyRunner htask)) fun b hb => ?_
    rw [residual_momentum, residual_modifyRunner hb, residual_of_perform answer]
  | panicked routine answer pace =>
    obtain ⟨_, _, _, _, _, htask⟩ := (treated_of_perform answer).after ht
    have narrowed := narrowed_of_perform answer
    refine .panicked (doing_of_runnerIn ht routine) answer narrowed rfl (Or.inr ?_) fun b hb => ?_
    · rw [residual_momentum, residual_runner ht, residual_runner (runners_modifyRunner htask)]
    · rw [residual_momentum, residual_modifyRunner hb, residual_of_perform answer]
  | @returned reply routine momentum pace =>
    obtain ⟨aside, htask⟩ := resumeRunner_spec (c := c) (t := t) reply ht
    exact .ended (fun r hr => eq_of_doing (doing_of_runnerIn ht routine) hr)
      (aside.narrowed (Narrowed.refl _)) aside.state (residual_runner htask)
      fun b hb => residual_momentum.trans (aside.residual hb)
  | @served reply s₁ idle source momentum pace =>
    obtain ⟨inbox, -, aside, ht₁⟩ := runnerSource_atOnce ht source
    obtain ⟨aside', htask⟩ := resumeRunner_spec (c := c) (t := t) reply ht₁
    exact .ended (before idle) (aside'.narrowed (aside.narrowed (Narrowed.refl _)))
      (aside'.state.trans aside.state) (residual_runner htask)
      fun b hb => residual_momentum.trans ((aside'.residual hb).trans (aside.residual hb))
  | timed idle source pace =>
    obtain ⟨d, inboxOpen, -, -, rfl⟩ := runnerSource_later source
    refine .ended (before idle) (Narrowed.refl _) rfl ?_
      fun b hb => residual_momentum.trans (residual_modifyRunner hb)
    rw [residual_momentum, residual_runner (runners_modifyRunner ht), idle]
    rfl
  | cancelled aborted => exact .cancelled rfl ht aborted

theorem stride_of_step (h : s.step c a = some s') :
    ∃ asked worked, s.label c a = .moved a asked worked ∧ Stride c s a asked s' := by
  cases a with
  | worker => exact ⟨_, _, rfl, stride_of_turn (turn_of_step h) nofun⟩
  | runner i =>
    obtain ⟨t, ht, -, hturn⟩ := runnerTurn_of_step h
    exact ⟨_, _, rfl, stride_of_runnerTurn ht hturn⟩
  | call i => exact ⟨_, _, rfl, stride_of_turn (turn_of_step h) nofun⟩

theorem narrowed_of_step (h : s.step c a = some s') : Narrowed s.channel s'.channel := by
  obtain ⟨asked, worked, -, stride⟩ := stride_of_step h
  cases stride with
  | asked doing answer channel state residual others => exact channel ▸ narrowed_of_perform answer
  | panicked doing answer narrowed state residual others => exact narrowed
  | ended before narrowed state residual others => exact narrowed
  | cancelled actor runner aborted => exact narrowed_cancel

theorem Run.narrowed {τ : List (Label D)} (h : Run c s τ s') : Narrowed s.channel s'.channel := by
  induction h with
  | refl => exact .refl _
  | step before h ih =>
    have last := narrowed_of_step h
    exact ⟨fun hr => ih.accepting (last.accepting hr), fun hr => ih.listening (last.listening hr)⟩
  | call before f ih => exact ih
  | outside before h ih => exact h.channel ▸ ih

/-! ### New systems, and the world outside -/

theorem IsNew.residual (h : s.IsNew) (a : Actor) : s.residual a = none := by
  cases a with
  | worker =>
    simp only [System.residual, h.worker]
    rfl
  | runner i => simp only [System.residual, h.runners, List.getElem?_nil, Option.bind_none]
  | call i => simp only [System.residual, h.calls, List.getElem?_nil, Option.bind_none]

theorem Elsewhere.residual (h : Elsewhere s s') (a : Actor) : s'.residual a = s.residual a := by
  cases a with
  | worker => simp only [System.residual, h.worker]
  | runner i => simp only [System.residual, h.runners]
  | call i => simp only [System.residual, h.calls]

/-! ### New calls -/

variable {f : Activity D D.Result}

theorem residual_start {r : Routine D Unit} (h : (s.start f).residual a = some r) :
    s.residual a = some r ∨ a = .call s.calls.length ∧ r = f.routine.forget := by
  cases a with
  | worker => exact Or.inl h
  | runner i => exact Or.inl h
  | call i =>
    simp only [residual, start] at h ⊢
    by_cases hi : i < s.calls.length
    · rw [List.getElem?_append_left hi] at h
      exact Or.inl h
    · rw [List.getElem?_append_right (Nat.le_of_not_lt hi)] at h
      cases hd : i - s.calls.length with
      | succ n =>
        rw [hd] at h
        cases h
      | zero =>
        rw [hd] at h
        have hlen : i = s.calls.length := by omega
        exact Or.inr ⟨congrArg Actor.call hlen, (Option.some.inj h).symm⟩

theorem residual_of_start {r : Routine D Unit} (h : s.residual a = some r) :
    (s.start f).residual a = some r := by
  cases a with
  | worker => exact h
  | runner i => exact h
  | call i =>
    simp only [residual, start] at h ⊢
    cases hcall : s.calls[i]? with
    | none =>
      rw [hcall] at h
      cases h
    | some call =>
      rw [List.getElem?_append_left (List.getElem?_eq_some_iff.mp hcall).1]
      exact h

theorem residual_new : s.residual (.call s.calls.length) = none := by
  simp only [residual]
  rw [List.getElem?_eq_none (Nat.le_refl _)]
  rfl

end System

end Reveille
