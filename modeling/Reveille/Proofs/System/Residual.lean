import Reveille.Proofs.Program.Leads
import Reveille.Proofs.System.Step

/-!
# What is left of the routine of an actor

Calls, runners and the worker all go through routines, and much of what can be said about their
routines does not depend on the value at the end.  `System.residual` is what is left of the routine
of an actor, without that value.  Every step of an actor answers one request of its routine, or the
routine ends, or the worker takes a command; all other actors keep theirs (`Progress`).
-/

namespace Reveille

def Program.forget {S : Signature} {α : Type} (p : Program S α) : Program S Unit :=
  p.bind fun _ => .done ()

variable {D : Domain} {c : Cast D} {a b : Actor}

def RunnerTask.residual (t : RunnerTask D) : Option (Routine D Unit) := t.pending.map Program.forget

def WorkerTask.residual (t : WorkerTask D) : Option (Routine D Unit) := t.pending.map Program.forget

def CallTask.residual : CallTask D → Option (Routine D Unit)
  | .running r => some r.forget
  | .ended _ => none

namespace System

/-- What is left of the routine of an actor, if it is in one. -/
def residual (s : System D) : Actor → Option (Routine D Unit)
  | .worker => s.worker.residual
  | .runner i => s.runners[i]?.bind RunnerTask.residual
  | .call i => s.calls[i]?.bind CallTask.residual

def Fresh (c : Cast D) (s : System D) : Actor → Routine D Unit → Prop
  | .worker, r => s.worker.pending = none ∧
      ∃ r', s.workerSource c s.worker.machine.request = .routine r' ∧ r = r'.forget
  | .runner i, r => ∃ t r', s.runners[i]? = some t ∧ t.pending = none ∧
      s.runnerSource c i t t.machine.request = .routine r' ∧ r = r'.forget
  | .call _, _ => False

def Doing (c : Cast D) (s : System D) (a : Actor) (r : Routine D Unit) : Prop :=
  s.residual a = some r ∨ s.residual a = none ∧ Fresh c s a r

/-- One step of an actor, as far as routines and the channel go. -/
inductive Progress (c : Cast D) (s : System D) (a : Actor) (s' : System D) : Prop
  | asked {q : Request D} {rest : q.Reply → Routine D Unit} {reply : q.Reply} {s₁ : System D}
      (doing : Doing c s a (.ask q rest)) (answered : Answered c a s q reply s₁)
      (aside : Aside a s₁ s') (residual : s'.residual a = some (rest reply))
  | ended (before : ∀ r, s.residual a = some r → r = .done ()) (aside : Aside a s s')
      (residual : s'.residual a = none)
  | received {item : Bus.Command (Receiver D) D.Event}
      {channel : Bus.Channel Actor (Bus.Command (Receiver D) D.Event)} (worker : a = .worker)
      (before : s.residual a = none) (taken : s.channel.take = .item item channel)
      (aside : Aside a { s with channel } s') (residual : s'.residual a = none)

variable {s s' : System D} {i : Nat} {t : RunnerTask D}

theorem Aside.residual (h : Aside a s s') (hb : b ≠ a) : s'.residual b = s.residual b := by
  cases b with
  | worker => exact congrArg WorkerTask.residual (h.worker hb.symm)
  | runner i => simp only [System.residual, h.runners i hb.symm]
  | call i => simp only [System.residual, h.calls i hb.symm]

theorem Deed.runner_residual {q : Request D} {reply : q.Reply} (h : Deed c a s q reply s')
    (i : Nat) : s'.residual (.runner i) = s.residual (.runner i) := by
  simp only [residual]
  cases ht : s.runners[i]? with
  | some t =>
    obtain ⟨_, ht', more, launched, released, -, -, rfl⟩ := h.runner ht
    rw [ht']
    rfl
  | none =>
    have hlen := List.getElem?_eq_none_iff.mp ht
    have grown {t : RunnerTask D} (hidle : t.residual = none) :
        (s.runners ++ [t])[i]?.bind RunnerTask.residual = none := by
      rw [List.getElem?_append_right hlen]
      cases i - s.runners.length with
      | zero => exact hidle
      | succ n => rfl
    have modified {j : Nat} {f : RunnerTask D → RunnerTask D} :
        (s.runners.modify j f)[i]?.bind RunnerTask.residual = none := by
      rw [List.getElem?_eq_none (by rw [List.length_modify]; exact hlen)]
      rfl
    cases h with
    | push _ runners _ => rw [runners]; exact modified
    | launch _ runners _ => rw [runners]; exact modified
    | release _ _ _ runners _ => rw [runners]; exact modified
    | hire _ runners _ => rw [runners]; exact grown rfl
    | nothing _ _ runners _ => rw [runners, ht]
    | requestSlot _ runners _ => rw [runners, ht]
    | commit _ runners _ => rw [runners, ht]
    | trySend _ _ runners _ => rw [runners, ht]
    | call _ runners _ => rw [runners, ht]

/-- To answer a request touches the routine of nobody. -/
theorem Answered.residual {q : Request D} {reply : q.Reply} (h : Answered c a s q reply s')
    (b : Actor) : s'.residual b = s.residual b := by
  cases b with
  | worker => exact congrArg WorkerTask.residual h.worker
  | runner i => exact h.deed.runner_residual i
  | call i => simp only [System.residual, h.calls]

theorem Progress.others (h : Progress c s a s') (hb : b ≠ a) : s'.residual b = s.residual b := by
  cases h with
  | asked _ answered aside _ => rw [aside.residual hb, answered.residual]
  | ended _ aside _ => exact aside.residual hb
  | received _ _ _ aside _ =>
    rw [aside.residual hb]
    cases b <;> rfl

/-- Whoever is not the worker leaves the worker alone and at most adds to the queue. -/
theorem Progress.away (h : Progress c s a s') (ha : a ≠ .worker) :
    s'.worker = s.worker ∧ ∃ more, s'.channel.queue = s.channel.queue ++ more := by
  cases h with
  | asked _ answered aside _ =>
    rw [aside.worker ha, aside.channel]
    exact ⟨answered.worker, answered.deed.channel.1⟩
  | ended _ aside _ =>
    rw [aside.worker ha, aside.channel]
    exact ⟨rfl, [], (List.append_nil _).symm⟩
  | received worker _ _ _ _ => exact absurd worker ha

/-- A runner is left what it is by everybody else, up to its inbox and to how far it was started. -/
theorem Progress.runner (h : Progress c s a s') (ha : a ≠ .runner i) (ht : s.runners[i]? = some t) :
    ∃ t', s'.runners[i]? = some t' ∧ t.Nudged t' := by
  cases h with
  | asked _ answered aside _ =>
    rw [aside.runners i ha]
    exact answered.deed.runner ht
  | ended _ aside _ =>
    rw [aside.runners i ha]
    exact ⟨t, ht, .refl t⟩
  | received _ _ _ aside _ =>
    rw [aside.runners i ha]
    exact ⟨t, ht, .refl t⟩

/-- Time stands still while anybody makes a step, and the bus stays open. -/
theorem Progress.frame (h : Progress c s a s') :
    s'.time = s.time ∧ s'.clock = s.clock ∧ s'.channel.accepting = s.channel.accepting ∧
      s'.channel.listening = s.channel.listening := by
  cases h with
  | asked _ answered aside _ =>
    obtain ⟨-, haccepting, hlistening⟩ := answered.deed.channel
    rw [aside.time, aside.clock, aside.channel]
    exact ⟨answered.time, answered.clock, haccepting, hlistening⟩
  | ended _ aside _ =>
    rw [aside.time, aside.clock, aside.channel]
    exact ⟨rfl, rfl, rfl, rfl⟩
  | received _ _ taken aside _ =>
    obtain ⟨-, haccepting, hlistening⟩ := Bus.Channel.queue_of_take taken
    rw [aside.time, aside.clock, aside.channel]
    exact ⟨rfl, rfl, haccepting, hlistening⟩

theorem Progress.calls (h : Progress c s a s') (ha : a ≠ .call i) : s'.calls[i]? = s.calls[i]? := by
  cases h with
  | asked _ answered aside _ => rw [aside.calls i ha, answered.calls]
  | ended _ aside _ => exact aside.calls i ha
  | received _ _ _ aside _ => exact aside.calls i ha

theorem Progress.staff (h : Progress c s a s')
    (plain : ∀ q rest, Doing c s a (.ask q rest) → q.Plain) : s'.staff = s.staff := by
  cases h with
  | asked doing answered aside _ => exact aside.staff.trans (answered.deed.staff (plain _ _ doing))
  | ended _ aside _ => exact aside.staff
  | received _ _ _ aside _ => exact aside.staff

/-- A runner was there before, or was just hired. -/
theorem Deed.before {q : Request D} {reply : q.Reply} (h : Deed c a s q reply s')
    (ht : s'.runners[i]? = some t) : i < s.runners.length ∨
      t = { service := t.service, machine := .init (c.service t.service).jitter } := by
  have hlen := (List.getElem?_eq_some_iff.mp ht).1
  cases h with
  | hire _ runners _ =>
    rw [runners] at ht hlen
    by_cases hi : i < s.runners.length
    · exact Or.inl hi
    · right
      rw [List.length_append, List.length_singleton] at hlen
      have hlast : i = s.runners.length := by omega
      rw [hlast, List.getElem?_append_right (Nat.le_refl _), Nat.sub_self] at ht
      obtain rfl := Option.some.inj ht
      rfl
  | nothing _ _ runners _ => exact Or.inl (runners ▸ hlen)
  | requestSlot _ runners _ => exact Or.inl (runners ▸ hlen)
  | commit _ runners _ => exact Or.inl (runners ▸ hlen)
  | trySend _ _ runners _ => exact Or.inl (runners ▸ hlen)
  | call _ runners _ => exact Or.inl (runners ▸ hlen)
  | push _ runners _ => exact Or.inl (by rwa [runners, List.length_modify] at hlen)
  | launch _ runners _ => exact Or.inl (by rwa [runners, List.length_modify] at hlen)
  | release _ _ _ runners _ => exact Or.inl (by rwa [runners, List.length_modify] at hlen)

theorem Progress.before (h : Progress c s a s') (ha : a ≠ .runner i)
    (ht : s'.runners[i]? = some t) : i < s.runners.length ∨
      t = { service := t.service, machine := .init (c.service t.service).jitter } := by
  cases h with
  | asked _ answered aside _ =>
    rw [aside.runners i ha] at ht
    exact answered.deed.before ht
  | ended _ aside _ =>
    rw [aside.runners i ha] at ht
    exact Or.inl (List.getElem?_eq_some_iff.mp ht).1
  | received _ _ _ aside _ =>
    rw [aside.runners i ha] at ht
    exact Or.inl (List.getElem?_eq_some_iff.mp ht).1

/-! ### From steps to progress -/

theorem residual_runner (ht : s.runners[i]? = some t) :
    s.residual (.runner i) = t.pending.map Program.forget := by
  simp only [residual, ht]
  rfl

theorem doing_of_runnerIn (ht : s.runners[i]? = some t) {r : Routine D t.machine.request.Reply}
    (h : RunnerIn c s i t r) : Doing c s (.runner i) r.forget := by
  rcases h with hp | ⟨hp, hsrc⟩
  · left
    rw [residual_runner ht, hp]
    rfl
  · right
    rw [residual_runner ht, hp]
    exact ⟨rfl, t, r, ht, hp, hsrc, rfl⟩

theorem doing_of_workerIn {r : Routine D s.worker.machine.request.Reply} (h : WorkerIn c s r) :
    Doing c s .worker r.forget := by
  rcases h with hp | ⟨hp, hsrc⟩
  · left
    simp only [residual, WorkerTask.residual, hp]
    rfl
  · right
    refine ⟨?_, hp, r, hsrc, rfl⟩
    simp only [residual, WorkerTask.residual, hp]
    rfl

/-- A routine at its end has only one way to go on. -/
theorem eq_of_doing {r r' : Routine D Unit} (h : Doing c s a r) (hr : s.residual a = some r') :
    r' = r := by
  rcases h with h | ⟨h, -⟩
  · exact Option.some.inj (hr.symm.trans h)
  · rw [h] at hr
    cases hr

theorem progress_of_runnerStep (ht : s.runners[i]? = some t) (h : RunnerStep c s i t s') :
    Progress c s (.runner i) s' := by
  have idle (hp : t.pending = none) (r : Routine D Unit)
      (hr : s.residual (.runner i) = some r) : r = .done () := by
    rw [residual_runner ht, hp] at hr
    cases hr
  cases h with
  | asked routine answered aside nudged task =>
    exact .asked (doing_of_runnerIn ht routine) answered aside (residual_runner task)
  | returned routine aside task =>
    refine .ended ?_ aside (residual_runner task)
    exact fun r hr => eq_of_doing (doing_of_runnerIn ht routine) hr
  | served hp served aside task => exact .ended (idle hp) aside (residual_runner task)
  | timed hp unset request aside task =>
    refine .ended (idle hp) aside ?_
    rw [residual_runner task, hp]
    rfl

theorem progress_of_callStep (h : CallStep c s i s') : Progress c s (.call i) s' := by
  cases h with
  | @asked q rest reply s₁ routine answered aside task =>
    have doing : Doing c s (.call i) (.ask q fun reply => (rest reply).forget) := by
      left
      simp only [residual, routine]
      rfl
    refine .asked doing answered aside ?_
    simp only [residual, task]
    rfl
  | returned routine aside task =>
    refine .ended ?_ aside ?_
    · intro r hr
      simp only [residual, routine] at hr
      exact (Option.some.inj hr).symm
    · simp only [residual, task]
      rfl

theorem progress_of_workerStep (h : WorkerStep c s s')
    (alive : s'.worker.machine.phase.isOver = false) : Progress c s .worker s' := by
  cases h with
  | asked routine answered aside task =>
    exact .asked (doing_of_workerIn routine) answered aside (congrArg WorkerTask.residual task)
  | returned routine task aside =>
    refine .ended ?_ (aside alive) (congrArg WorkerTask.residual task)
    exact fun r hr => eq_of_doing (doing_of_workerIn routine) hr
  | received idle waiting taken task aside =>
    refine .received rfl ?_ taken (aside alive) (congrArg WorkerTask.residual task)
    simp only [residual, WorkerTask.residual, idle]
    rfl

end System

end Reveille
