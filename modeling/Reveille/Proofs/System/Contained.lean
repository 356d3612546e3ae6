import Reveille.Proofs.System.Placid
import Reveille.Proofs.System.Stride

/-!
# A receiver that panics does not affect the others

As long as no receiver panics when asked whether it is retired, a run goes just as the run in which those
that panic return instead: everybody is handed the same events and is told to stop at the same time, and
every call comes back with the same result.  Such a question is the one call to a receiver that nobody
guards.  A panic in it takes the worker down, and after that no receiver is called again and nothing gets
into the queue (`panics_contained`).
-/

namespace Reveille

open Bus Bus.Worker

variable {D : Domain}

namespace System

/-- Something may get into the queue: a sender was given a slot, or its event was taken at once. -/
def admits : Exchange D.requests → Bool
  | ⟨.awaitSlot, reply⟩ => reply
  | ⟨.trySend _, (reply : Except BusError Unit)⟩ => reply.toBool
  | _ => false

structure Dead (s : System D) : Prop where
  idle : s.worker.pending = none
  died : ∃ p, s.worker.machine.phase = .died p
  deaf : s.channel.listening = false

/-- What a run has in common with one in which the receivers of `who` return instead of panicking. -/
structure Undisturbed (c : Cast D) (who : Receiver D → Bool) (τ : List (Label D)) (s : System D)
    (τ' : List (Label D)) (s' : System D) : Prop where
  /-- The same actors made steps and were told the same, except where a receiver of `who` panicked. -/
  labels : List.Forall₂ (Like who) τ τ'
  /-- The receivers were called in the same order. -/
  calls : Worker.calls (worked τ') = Worker.calls (worked τ)
  /-- Everything is as it is, but for the log. -/
  system : s' = { s with log := s'.log }
  results (i : Nat) : s'.result? i = s.result? i
  /-- Whoever can go on can do so in both. -/
  ready (a : Actor) : (s'.placidStep c who a).isSome = (s.step c a).isSome

variable {c : Cast D} {s₀ s s' : System D} {a : Actor} {τ : List (Label D)}

/-! ### The end of the worker -/

theorem died_of_reply {w : Worker (Receiver D) D.Event} {reply : w.request.Reply}
    (h : isComposed ⟨w.phase, reply⟩ = false) : ∃ p, (w.resume reply).1.phase = .died p := by
  obtain ⟨receivers, registered, count, phase⟩ := w
  cases phase with
  | surveying e asked rest =>
    match reply with
    | .ok out => cases h
    | .error p => exact ⟨p, rfl⟩
  | sorting e retired live asked rest =>
    match reply with
    | .ok out => cases h
    | .error p => exact ⟨p, rfl⟩
  | _ => cases h

theorem dead_resumeWorker {w : WorkerTask D} {reply : w.machine.request.Reply}
    (h : isComposed ⟨w.machine.phase, reply⟩ = false) : Dead (s.resumeWorker c w reply) := by
  obtain ⟨p, hp⟩ := died_of_reply h
  refine ⟨rfl, ⟨p, hp⟩, ?_⟩
  show (if (w.machine.resume reply).1.phase.isOver then _ else _ : Queue D).listening = false
  rw [hp]
  rfl

/-- A receiver that panics when asked whether it is retired takes the worker down. -/
theorem dead_of_step (h : s.step c a = some s') {x : Exchange (Worker.requests (Receiver D) D.Event)}
    (hx : (s.label c a).worked? = some x) (rude : isComposed x = false) : Dead s' := by
  have turn := turn_of_step h
  generalize s.label c a = l at turn hx
  cases turn with
  | workerPanicked routine answer panic =>
    cases hx
    exact dead_resumeWorker rude
  | workerReturned routine =>
    cases hx
    exact dead_resumeWorker rude
  | workerServed idle source =>
    cases hx
    exact dead_resumeWorker rude
  | _ => cases hx

theorem Dead.not_worker (h : Dead s) : s.step c .worker = none := by
  obtain ⟨p, hp⟩ := h.died
  show s.stepWorker c = none
  obtain ⟨time, clock, hostTime, draws, momentum, channel, ⟨⟨receivers, registered, count, phase⟩, pending⟩,
    number, runners, calls, state, log⟩ := s
  obtain rfl : pending = none := h.idle
  obtain rfl : phase = .died p := hp
  rfl

theorem Dead.not_admits (h : Dead s) {x : Exchange D.requests} (hx : s.asked? c a = some x) :
    admits x = false := by
  obtain ⟨q, reply⟩ := x
  obtain ⟨s₁, answer⟩ := perform_of_asked hx
  cases performed_of_perform answer with
  | granted listening held => cases h.deaf.symm.trans listening
  | sent _ listening room e => cases h.deaf.symm.trans listening
  | _ => rfl

/-- Once the worker is dead, it stays so, and nothing gets into the queue. -/
theorem Dead.step (h : Dead s) (hs : s.step c a = some s') :
    Dead s' ∧ (s.label c a).worked? = none ∧ ∀ b, ∀ x ∈ (s.label c a).told? b, admits x = false := by
  have bystander : a ≠ .worker := by
    rintro rfl
    rw [h.not_worker] at hs
    cases hs
  have hlabel : s.label c a = .moved a (s.asked? c a) none := by
    cases a with
    | worker => exact absurd rfl bystander
    | runner i => rfl
    | call i => rfl
  have turn := turn_of_step hs
  rw [hlabel] at turn ⊢
  have worker := worker_of_turn turn bystander
  refine ⟨⟨worker ▸ h.idle, worker ▸ h.died, ?_⟩, rfl, fun b x hx => ?_⟩
  · have listening := (narrowed_of_step hs).listening
    rw [h.deaf] at listening
    simpa using listening
  · unfold Label.told? at hx
    dsimp only at hx
    split at hx
    · exact h.not_admits hx
    · cases hx

theorem Run.dead (h : Run c s₀ τ s) (dead : Dead s₀) :
    Dead s ∧ worked τ = [] ∧ ∀ a, ∀ x ∈ told a τ, admits x = false := by
  induction h with
  | refl => exact ⟨dead, rfl, fun a x hx => by cases hx⟩
  | step before hs ih =>
    obtain ⟨hdead, hworked, htold⟩ := ih
    obtain ⟨hdead', hquiet, hnow⟩ := hdead.step hs
    refine ⟨hdead', (worked_quiet hquiet).trans hworked, fun b x hx => ?_⟩
    rw [told_concat, List.mem_append] at hx
    rcases hx with hx | hx
    · exact htold b x hx
    · exact hnow b x (Option.mem_toList.mp hx)
  | call before f ih =>
    obtain ⟨hdead, hworked, htold⟩ := ih
    refine ⟨⟨hdead.idle, hdead.died, hdead.deaf⟩, (worked_quiet rfl).trans hworked, fun b x hx => ?_⟩
    rw [told_quiet rfl] at hx
    exact htold b x hx
  | outside before hs ih =>
    obtain ⟨hdead, hworked, htold⟩ := ih
    exact ⟨⟨hs.worker ▸ hdead.idle, hs.worker ▸ hdead.died, hs.channel ▸ hdead.deaf⟩, hworked, htold⟩

theorem Run.dead_of_rude (h : Run c s₀ τ s) (rude : (worked τ).all isComposed = false) : Dead s := by
  induction h with
  | refl => cases rude
  | @step τ s s' before a hs ih =>
    rw [← Bool.not_eq_true, composed_concat, not_and] at rude
    cases earlier : (worked τ).all isComposed with
    | false => exact ((ih earlier).step hs).1
    | true =>
      obtain ⟨x, hx, now⟩ : ∃ x, (s.label c a).worked? = some x ∧ isComposed x = false := by
        simpa [Label.Composed] using rude earlier
      exact dead_of_step hs hx now
  | call before f ih =>
    rw [worked_quiet rfl] at rude
    obtain ⟨idle, died, deaf⟩ := ih rude
    exact ⟨idle, died, deaf⟩
  | outside before hs ih =>
    obtain ⟨idle, died, deaf⟩ := ih rude
    exact ⟨hs.worker ▸ idle, hs.worker ▸ died, hs.channel ▸ deaf⟩

/-! ### The others -/

theorem undisturbed_of_like {who : Receiver D → Bool} {τ' : List (Label D)}
    (labels : List.Forall₂ (Like who) τ τ') (like : Alike s s') : Undisturbed c who τ s τ' s' := by
  refine ⟨labels, calls_like labels, ?_, fun i => ?_, isSome_placidStep like who⟩
  · obtain ⟨log, rfl⟩ := like
    rfl
  · simp only [result?, like.calls]

/-- As long as no receiver panics when asked whether it is retired, a run goes as one in which those of
`who` return where they panic; and every run of that kind is matched, to its end or until a receiver does
panic when asked so.  Then the worker dies, no receiver is called again, and nothing gets into the queue. -/
theorem panics_contained (c : Cast D) (who : Receiver D → Bool) (s₀ : System D) :
    (∀ τ s, Run c s₀ τ s → (worked τ).all isComposed = true →
      ∃ τ' s', PlacidRun c who s₀ τ' s' ∧ Undisturbed c who τ s τ' s') ∧
    (∀ τ' s', PlacidRun c who s₀ τ' s' → ∃ τ s, Run c s₀ τ s ∧ (Undisturbed c who τ s τ' s' ∨
      (worked τ).all isComposed = false ∧ ∃ σ, σ <+: τ' ∧ List.Forall₂ (Like who) τ σ)) ∧
    ∀ τ s, Run c s₀ τ s → (worked τ).all isComposed = false →
      (∃ p, s.worker.machine.phase = .died p) ∧
      ∀ τ₁ s₁, Run c s τ₁ s₁ → worked τ₁ = [] ∧ ∀ a, ∀ x ∈ told a τ₁, admits x = false := by
  refine ⟨fun τ s h composed => ?_, fun τ' s' h => ?_, fun τ s h rude => ?_⟩
  · obtain ⟨τ', s', run, labels, like⟩ := h.beside who composed
    exact ⟨τ', s', run, undisturbed_of_like labels like⟩
  · obtain ⟨τ, s, run, ⟨labels, like⟩ | ended⟩ := h.beside
    · exact ⟨τ, s, run, Or.inl (undisturbed_of_like labels like)⟩
    · exact ⟨τ, s, run, Or.inr ended⟩
  · have dead := h.dead_of_rude rude
    exact ⟨dead.died, fun τ₁ s₁ later => (later.dead dead).2⟩

/-! ### Two receivers that panic, each in its own way -/

/-- Receiver 0 panics when it is handed a 1 and when it is told to stop, receiver 2 when it is asked
whether it is retired. -/
def fussy : Cast parlour where
  service := nofun
  sink k :=
    { name := toString k
      onEvent := fun e => if k = 0 ∧ e = 1 then Activity.panic ⟨none⟩ else pure ()
      onStop := if k = 0 then Activity.panic ⟨none⟩ else pure ()
      isRetired := if k = 2 then Activity.panic ⟨none⟩ else pure false }
  nameId := nofun
  answer := nofun

def hall : System parlour :=
  { clock := { wall := .epoch }, hostTime := .epoch, channel := .empty 8, state := () }

/-- Receiver `k` and receiver 1 are registered, and an event is sent. -/
def reception (k : Nat) : List (Move parlour) :=
  [.begin (Activity.register k), .begin (Activity.register 1), .begin (Activity.send 1)] ++
  (List.range 3).flatMap (fun i => List.replicate 5 (.step (.call i))) ++
  List.replicate 12 (.step .worker)

def farewell : List (Move parlour) :=
  [.begin Activity.closeBus, .step (.call 3)] ++ List.replicate 8 (.step .worker) ++
  List.replicate 3 (.step (.call 3))

def encore : List (Move parlour) :=
  .begin (Activity.send 2) :: (List.replicate 5 (.step (.call 3)) ++ List.replicate 5 (.step .worker))

theorem panics_contained_fussy :
    (∃ τ' s', PlacidRun fussy (fun _ => true) hall τ' s' ∧
      Worker.calls (worked τ') = [.event ⟨0, .sink 0⟩ 1, .event ⟨1, .sink 1⟩ 1, .stop ⟨0, .sink 0⟩,
        .stop ⟨1, .sink 1⟩] ∧ s'.result? 3 = some (.ok (.ok ()))) ∧
    Worker.calls (worked (hall.play fussy (reception 2)).1) = [] ∧
    worked ((hall.play fussy (reception 2)).2.play fussy encore).1 = [] ∧
    ((hall.play fussy (reception 2)).2.play fussy encore).2.result? 3 =
      some (.ok (.error .closed)) := by
  have composed : (worked (hall.play fussy (reception 0 ++ farewell)).1).all isComposed = true := by
    decide +kernel
  have rude : (worked (hall.play fussy (reception 2)).1).all isComposed = false := by decide +kernel
  have result : (hall.play fussy (reception 0 ++ farewell)).2.result? 3 = some (.ok (.ok ())) := rfl
  obtain ⟨contained, -, uncontained⟩ := panics_contained fussy (fun _ => true) hall
  obtain ⟨τ', s', run, same⟩ := contained _ _ (Run.played (reception 0 ++ farewell)) composed
  obtain ⟨-, dead⟩ := uncontained _ _ (Run.played (reception 2)) rude
  refine ⟨⟨τ', s', run, ?_, ?_⟩, rfl, (dead _ _ (Run.played encore)).1, rfl⟩
  · rw [same.calls]
    rfl
  · rw [same.results, result]

end System

end Reveille
