import Reveille.Proofs.System.Detachment

/-!
# Stopping a runner

From the moment when a runner is asked to stop, it carries through what is under way and then leaves its loop;
it takes no event any more, and begins a pass only if it was already about to.  Nothing but a call of its service
holds it up.  Whoever waits for its end is told so when it has left, and not before.

From its end on the runner makes no steps, and its receiver is told to stop once, ahead of the next event or
when the bus closes.  The filter of its service does not begin to look at another event, but it may still be at
one that came before (`Observed.stops_cleanly`).
-/

namespace Reveille.System

open Bus Program

variable {D : Domain} {c : Cast D} {s s' s₀ s₁ : System D} {a : Actor} {i : Nat} {t t₁ : RunnerTask D}
  {τ τ₁ τ₂ : List (Label D)} {ρ₁ ρ₂ : List (Exchange (Duties D))}

/-! ### The way out -/

theorem Observed.heeding (new : s₀.IsNew) (before : Run c s₀ τ₁ s₁) (ht₁ : s₁.runners[i]? = some t₁)
    (asked : t₁.stopRequested = true) (after : Observed c s₁ i τ₂ ρ₂ s) :
    ∃ t, s.runners[i]? = some t ∧ t.stopRequested = true ∧
      Runner.Heeding t₁.machine.phase ρ₂ t.machine := by
  induction after with
  | refl => exact ⟨t₁, ht₁, asked, .init⟩
  | @step τ₂ ρ₂ s s' after a hs ih =>
    obtain ⟨t, ht, hasked, heeding⟩ := ih
    have career := (before.trans after.run).career new ht
    by_cases ha : a = .runner i
    · subst ha
      obtain ⟨t₀, t', ht₀, -, ht', goes⟩ := goes_of_step hs
      obtain rfl := Option.some.inj (ht.symm.trans ht₀)
      refine ⟨t', ht', ?_⟩
      generalize s.replied? c i (.runner i) = replied at goes ⊢
      generalize s.asked? c (.runner i) = answered at goes
      have told (y) (hy : replied = some y) := isStop_of_goes career.calling hasked (hy ▸ goes)
      cases goes with
      | asked routine => exact ⟨onward_upon.stopRequested hasked, by rwa [Option.toList_none, List.append_nil]⟩
      | panicked routine => exact ⟨hasked, by rwa [Option.toList_none, List.append_nil]⟩
      | returned routine => exact ⟨hasked, heeding.step _ (told _ rfl)⟩
      | served idle source left => exact ⟨hasked, heeding.step _ (told _ rfl)⟩
      | timed idle => exact ⟨hasked, by rwa [Option.toList_none, List.append_nil]⟩
      | cancelled aborted => exact ⟨hasked, by rwa [Option.toList_none, List.append_nil]⟩
    · rw [replied?_of_ne ha, Option.toList_none, List.append_nil]
      obtain ⟨asked, work, hlabel, -⟩ := stride_of_step hs
      rcases runner_of_turn (hlabel ▸ turn_of_step hs) ha ht with ⟨-, hsame⟩ | ⟨q, reply, -, hupon⟩
      · exact ⟨t, hsame, hasked, heeding⟩
      · exact ⟨_, hupon, onward_upon.stopRequested hasked, by rwa [machine_upon]⟩
  | call after f ih => exact ih
  | outside after h ih => exact h.runners ▸ ih

/-- Nothing but the end blocks the machine of a runner that was asked to stop. -/
theorem finished_of_blocked {q : Runner.Request D.Event D.Id (Items D)} (asked : t.stopRequested = true)
    (source : s.runnerSource c i t q = .blocked) : q = .finished := by
  cases q with
  | wait limit inboxOpen =>
    simp only [runnerSource, asked, if_true] at source
    cases source
  | finished => rfl
  | _ => cases source

theorem stopped_of_finished {p : Runner.Phase D.Event D.Id (Items D)} {inboxOpen : Bool}
    (h : p.request inboxOpen = .finished) : p = .stopped := by
  cases p with
  | stopped => rfl
  | _ => cases h

/-- A runner that makes no step although its machine is not blocked waits for an answer to its service. -/
theorem held_up_of_step (ht : s.runners[i]? = some t) (awake : t.mayRun = true)
    (busy : s.runnerSource c i t t.machine.request ≠ .blocked) (blocked : s.step c (.runner i) = none) :
    ∃ q rest, RunnerIn c s i t (.ask q rest) ∧ s.perform c (.runner i) q = none := by
  simp only [step, stepRunner, ht, awake, if_true] at blocked
  have waits {r : Routine D t.machine.request.Reply} (routine : RunnerIn c s i t r)
      (hr : s.runnerRoutine c i t r = none) :
      ∃ q rest, RunnerIn c s i t (.ask q rest) ∧ s.perform c (.runner i) q = none := by
    cases r with
    | done reply => cases hr
    | ask q rest =>
      refine ⟨q, rest, routine, ?_⟩
      simp only [runnerRoutine] at hr
      split at hr
      · assumption
      · cases hr
      · cases hr
  split at blocked
  · cases blocked
  unfold goOn at blocked
  split at blocked
  · next r hp => exact waits (Or.inl hp) blocked
  · next hp =>
    split at blocked
    · cases blocked
    · cases blocked
    · next r source => exact waits (Or.inr ⟨hp, source⟩) blocked
    · next source => exact absurd source busy

/-- The machine of a runner that was asked to stop is not blocked before the end. -/
theorem Career.busy (h : Career τ i t) (asked : t.stopRequested = true) (running : t.ending = none) :
    s.runnerSource c i t t.machine.request ≠ .blocked := by
  intro source
  have left := h.stopped.mp (stopped_of_finished (finished_of_blocked asked source))
  rw [running] at left
  cases left

/-! ### Whoever waits for the end -/

theorem Run.ended_of_told (h : Run c s₀ τ s) {reply : Option Ending}
    (hx : ⟨.awaitEnd i none, reply⟩ ∈ told a τ) : ∃ e, reply = some e ∧ s.ending? i = some e := by
  cases reply with
  | some e => exact ⟨e, rfl, h.ending_of_told hx⟩
  | none =>
    obtain ⟨xs, ys, htold⟩ := List.append_of_mem hx
    obtain ⟨σ, work, σ', s₁, s₂, s₃, -, -, -, -, -, answer, -⟩ := h.at_told htold
    obtain ⟨ms, hms, -⟩ := (ending_of_awaitEnd answer).2 rfl
    cases hms

/-- Whoever stops a runner is told how it ended, when it has ended. -/
theorem Run.stopRunner_of_told (h : Run c s₀ τ s) {name : String} {handle : Handle D.Service}
    {xs ys zs : List (Exchange D.requests)} {r : Except RuntimeError Unit}
    (htold : told a τ = xs ++ ys ++ zs)
    (path : Path (Activity.stopRunner name handle).routine ys (.done r)) :
    ∃ e, s.ending? handle.runner = some e ∧ r = Activity.verdict name e := by
  rcases path.of_ask with ⟨-, hdone⟩ | ⟨_, ys₁, rfl, waits⟩
  · cases hdone
  · rcases waits.of_ask with ⟨-, hdone⟩ | ⟨reply, ys₂, rfl, returns⟩
    · cases hdone
    · obtain ⟨e, rfl, he⟩ := h.ended_of_told (show ⟨.awaitEnd handle.runner none, reply⟩ ∈ told a τ by
        rw [htold]
        simp)
      exact ⟨e, he, Program.done.inj (Path.of_done returns).2⟩

/-! ### The departure -/

/-- What happens from the end of a runner on. -/
structure Silence (i : Nat) (t : RunnerTask D) (τ : List (Label D)) (s : System D) (τ' : List (Label D))
    (ρ' : List (Exchange (Duties D))) (s' : System D) : Prop where
  /-- The runner asks its service nothing any more, and does nothing else. -/
  idle : ρ' = [] ∧ ∀ l ∈ τ', l.actor? ≠ some (.runner i)
  /-- No visit finds the runner any more; only the one that is at hand may go on. -/
  lapse : Lapse i (visits i τ s) (visits i (τ ++ τ') s')
  /-- A visit that does not find the runner does not get to the filter. -/
  unfiltered : ∀ v ∈ visits i (τ ++ τ') s', v.consults i = false → v.asked <+: [⟨.isInboxOpen i, false⟩]
  unasked : consulted i (visits i (τ ++ τ') s') = consulted i (visits i τ s)
  /-- The receiver is told to stop once and leaves. -/
  detached : t.launched = true →
    s'.worker.machine.phase.isServing = true ∨ s'.worker.machine.phase = .exited →
    Detached i (Worker.chronicle (worked τ)).length (τ ++ τ') s'

/-- What becomes of a runner that was asked to stop: it was `t₁` then, and is `t` now. -/
structure Departure (c : Cast D) (i : Nat) (τ₁ : List (Label D)) (ρ₁ : List (Exchange (Duties D)))
    (t₁ : RunnerTask D) (τ₂ : List (Label D)) (ρ₂ : List (Exchange (Duties D))) (s : System D)
    (t : RunnerTask D) : Prop where
  /-- When it comes to the top of its loop, or waits, it leaves. -/
  leaves : ∀ σ x σ', ρ₂ = σ ++ x :: σ' → Runner.rests x = true → Runner.isStop x = true ∧ σ' = []
  takes_nothing : Runner.taken ρ₂ = []
  /-- It begins no pass and no event but the one that it was about to begin. -/
  begins : ρ₂.countP Runner.begins ≤ t₁.machine.phase.isPoised.toNat
  carried_through : t.ending = some .stopped → Runner.CarriedThrough (ρ₁ ++ ρ₂)
  /-- Only a request of its service, or to it, keeps it from leaving. -/
  held_up : t.mayRun = true → s.step c (.runner i) = none →
    ∃ q rest, RunnerIn c s i t (.ask q rest) ∧ s.perform c (.runner i) q = none
  /-- Whoever stops it comes back when it has ended, and with success just when it left. -/
  returned : ∀ a name handle xs ys zs r, handle.runner = i → told a (τ₁ ++ τ₂) = xs ++ ys ++ zs →
    Path (Activity.stopRunner name handle).routine ys (.done r) →
    t.ending ≠ none ∧ (r = .ok () ↔ t.ending = some .stopped)
  afterwards : t.ending ≠ none → ∀ τ₃ ρ₃ s₃, Observed c s i τ₃ ρ₃ s₃ →
    Silence i t (τ₁ ++ τ₂) s τ₃ ρ₃ s₃

theorem verdict_eq_ok {name : String} {e : Ending} : Activity.verdict name e = .ok () ↔ e = .stopped := by
  cases e with
  | stopped => exact ⟨fun _ => rfl, fun _ => rfl⟩
  | _ => exact ⟨nofun, nofun⟩

theorem Fallen.silence (h : Fallen s i) (new : s₀.IsNew) (before : Run c s₀ τ s)
    (ht : s.runners[i]? = some t) {τ' : List (Label D)} {ρ' : List (Exchange (Duties D))}
    (after : Observed c s i τ' ρ' s') : Silence i t τ s τ' ρ' s' := by
  obtain ⟨e, he⟩ := ending_of_fallen h
  have lapse := h.lapse (τ := τ) after.run
  refine ⟨⟨h.observed after, (after.run.ending he).2⟩, lapse, fun v => (before.trans after.run).unfiltered new,
    lapse.consulted_eq, fun launched calm => ?_⟩
  exact h.detached new before after.run ((before.enlisted new).launched i t ht launched) calm

/-- A runner that is asked to stop, at whatever moment, carries through what is under way, begins nothing else
and leaves.  Then it asks nothing of its service any more, and the bus asks no more than what it was about to. -/
theorem Observed.stops_cleanly (new : s₀.IsNew) (before : Observed c s₀ i τ₁ ρ₁ s₁)
    (ht₁ : s₁.runners[i]? = some t₁) (asked : t₁.stopRequested = true)
    (after : Observed c s₁ i τ₂ ρ₂ s) (ht : s.runners[i]? = some t) :
    Departure c i τ₁ ρ₁ t₁ τ₂ ρ₂ s t := by
  have whole := before.trans after
  have career := whole.run.career new ht
  obtain ⟨t', ht', hasked, heeding⟩ := after.heeding new before.run ht₁ asked
  obtain rfl := Option.some.inj (ht.symm.trans ht')
  refine ⟨fun σ x σ' => heeding.leaves, heeding.taken_nil, heeding.begun, fun stopped => ?_,
    fun awake blocked => held_up_of_step ht awake
      (career.busy hasked (RunnerTask.mayRun_iff.mp awake).2.2) blocked, ?_, fun ended τ₃ ρ₃ s₃ later => ?_⟩
  · exact ((whole.postbox new).1 t ht).run.carried_through (career.stopped.mpr stopped)
  · rintro a name handle xs ys zs r rfl htold path
    obtain ⟨e, he, rfl⟩ := whole.run.stopRunner_of_told htold path
    rw [ending?_eq ht] at he
    rw [he, verdict_eq_ok]
    exact ⟨Option.some_ne_none e, Option.some_inj.symm⟩
  · exact Fallen.silence ⟨t, ht, ended⟩ new whole.run ht later

/-! ### The clerk goes home -/

def dismissal : Activity office Unit := do
  let _ ← Activity.stopRunner "clerk" ⟨(), 0⟩

def lockUp : Activity office Unit := do
  let _ ← Activity.closeBus

/-- The clerk is at the 2, and the 4 is in its inbox, when it is asked to stop. -/
def noon : List (Move office) := List.flatten
  [[.begin engage], turns 6 (.call 0), turns 8 (.runner 0), turns 2 (.call 0), turns 1 .worker,
    [.begin (submit 2), .begin (submit 4)], turns 5 (.call 1), turns 5 (.call 2), turns 20 .worker,
    turns 4 (.runner 0), [.begin dismissal], turns 1 (.call 3)]

/-- It is done with the 2 and goes. -/
def evening : List (Move office) := turns 9 (.runner 0) ++ turns 3 (.call 3)

def night : List (Move office) := List.flatten
  [[.begin (submit 6)], turns 5 (.call 4), turns 20 .worker, [.begin lockUp], turns 3 (.call 5),
    turns 5 .worker]

def byNoon : List (Label office) × System office := monday.play clerks noon

def byEvening : List (Label office) × System office := byNoon.2.play clerks evening

def byNight : List (Label office) × System office := byEvening.2.play clerks night

theorem stops_cleanly_clerk :
    ∃ t, byEvening.2.runners[0]? = some t ∧ t.ending = some .stopped ∧ (t.inbox : List Nat) = [4] ∧
      Runner.CarriedThrough (monday.replies clerks 0 noon ++ byNoon.2.replies clerks 0 evening) ∧
      consulted 0 (visits 0 (byNoon.1 ++ byEvening.1 ++ byNight.1) byNight.2) =
        consulted 0 (visits 0 (byNoon.1 ++ byEvening.1) byEvening.2) ∧
      ∃ reg : Registration (Receiver office), reg.number = 0 ∧
        (Worker.calls (worked (byNoon.1 ++ byEvening.1 ++ byNight.1))).filter (·.isTo 0) =
          [.event reg (2 : Nat), .event reg (4 : Nat), .stop reg] := by
  have new : monday.IsNew := ⟨⟨8, rfl⟩, rfl, rfl, rfl⟩
  have before : Observed clerks monday 0 byNoon.1 (monday.replies clerks 0 noon) byNoon.2 :=
    Observed.played noon
  have after : Observed clerks byNoon.2 0 byEvening.1 (byNoon.2.replies clerks 0 evening) byEvening.2 :=
    Observed.played evening
  have later : Observed clerks byEvening.2 0 byNight.1 (byEvening.2.replies clerks 0 night) byNight.2 :=
    Observed.played night
  obtain ⟨t₁, ht₁⟩ : ∃ t₁, byNoon.2.runners[0]? = some t₁ :=
    Option.isSome_iff_exists.mp (by decide +kernel)
  obtain ⟨t, ht⟩ : ∃ t, byEvening.2.runners[0]? = some t :=
    Option.isSome_iff_exists.mp (by decide +kernel)
  have look {r : Option (RunnerTask office)} {t : RunnerTask office} {α : Type}
      {f : RunnerTask office → α} {x : α} (hr : r = some t) (h : r.map f = some x) : f t = x := by
    rw [hr] at h
    exact Option.some.inj h
  have asked : t₁.stopRequested = true := look ht₁ (by decide +kernel)
  have launched : t.launched = true := look ht (by decide +kernel)
  have stopped : t.ending = some .stopped := look ht (by decide +kernel)
  have inbox : (t.inbox : List Nat) = [4] := look ht (by decide +kernel)
  have departure := Observed.stops_cleanly new before ht₁ asked after ht
  have silence := departure.afterwards (by rw [stopped]; exact nofun) _ _ _ later
  have account := ((before.trans after).trans later).run.account new
  have exited : byNight.2.worker.machine.phase = .exited :=
    ((account.worker.faithful (by decide +kernel)).calls_over (by decide +kernel)).1
  obtain ⟨reg, hreg, -, hcalls⟩ := (silence.detached launched (Or.inr exited)).closed exited
  have number : reg.number = 0 := by
    have hmem := List.mem_map_of_mem (f := (·.number)) hreg
    rw [show (Chronicle.registered _).map (·.number) = [0] from by decide +kernel] at hmem
    exact List.mem_singleton.mp hmem
  have heard : (Chronicle.heard 0 ((Worker.chronicle (worked (byNoon.1 ++ byEvening.1 ++ byNight.1))).take
      (Worker.chronicle (worked (byNoon.1 ++ byEvening.1))).length) : List Nat) = [2, 4] := by
    decide +kernel
  refine ⟨t, ht, stopped, inbox, departure.carried_through stopped, silence.unasked, reg, number, ?_⟩
  rw [number, heard] at hcalls
  exact hcalls

/-! ### What had begun before -/

/-- A museum with one room; its state counts the visitors that were looked at. -/
abbrev museum : Domain where
  Event := Unit
  Id := Unit
  decEqId := inferInstance
  Service := Unit
  Sink := Empty
  Calls := ⟨Unit, fun _ => Unit⟩
  State := Nat
  Result := Except RuntimeError Unit

/-- A guard looks after the room, after which there is nothing to do, and at every visitor. -/
def guards : Cast museum where
  service _ :=
    { name := "guard"
      jitter := .none
      time := .clock
      processOne := fun _ => do
        let _ ← Activity.perform (.readTime .clock)
        return .ok (.advancedUntil .never)
      checkAll := pure (.item (.ok ((), .moment .epoch)) .stop)
      checkOne := fun _ => pure (.ok .never)
      checkInterval := pure (Duration.ofMillis 1000)
      filterEvent := fun _ => do
        let _ ← Activity.perform (.call ())
        return true
      receiveEvent := fun _ => pure [] }
  sink := nofun
  nameId := fun _ => "room"
  answer := fun _ visitors => some (.reply (), visitors + 1)

def museumAtNight : System museum :=
  { clock := { wall := .epoch }, hostTime := .epoch, channel := .empty 8, state := 0 }

def hireGuard : Activity museum (Except RuntimeError Unit) := do
  let _ ← Activity.startRunner ()
  return .ok ()

def letIn : Activity museum (Except RuntimeError Unit) := do
  let _ ← Activity.send ()
  return .ok ()

def relieve : Activity museum (Except RuntimeError Unit) := Activity.stopRunner "guard" ⟨(), 0⟩

def onDuty : List (Move museum) := List.flatten
  [[.begin hireGuard], turns 6 (.call 0), turns 8 (.runner 0), turns 2 (.call 0), turns 1 .worker]

/-- It is relieved while it looks after the room. -/
def patrol : List (Label museum) × System museum := museumAtNight.play guards <|
  onDuty ++ turns 9 (.runner 0) ++ [.begin relieve] ++ turns 1 (.call 1)

def homeward : List (Move museum) := turns 8 (.runner 0) ++ turns 2 (.call 1)

/-- It is relieved when a visitor has just come in, and is gone before it has looked up. -/
def vacated : List (Label museum) × System museum := museumAtNight.play guards <|
  onDuty ++ turns 20 (.runner 0) ++ [.begin letIn] ++ turns 6 (.call 1) ++ turns 4 .worker ++
    [.begin relieve] ++ turns 1 (.call 2) ++ turns 2 (.runner 0) ++ turns 2 (.call 2)

def looksAfter : Runner.Request Unit Unit (Items museum) → Bool
  | .processOne _ => true
  | _ => false

def looksUp : Runner.Request Unit Unit (Items museum) → Bool
  | .checkOne _ => true
  | _ => false

/-- An entity that was processed in the pass under way may not be looked up again, and the filter may be at an
event when the runner has been stopped, and go on with it. -/
theorem stops_inexactly :
    ((patrol.2.runners[0]?.any fun t => t.stopRequested && looksAfter t.machine.request) = true ∧
      (patrol.2.play guards homeward).2.result? 1 = some (.ok (.ok ())) ∧
      (patrol.2.replies guards 0 homeward).any (fun x => looksAfter x.request) = true ∧
      (patrol.2.replies guards 0 homeward).any (fun x => looksUp x.request) = false) ∧
    vacated.2.result? 2 = some (.ok (.ok ())) ∧
    ∃ s, vacated.2.step guards .worker = some s ∧ s.state = vacated.2.state + 1 := by
  have filters : (vacated.2.step guards .worker).map (·.state) = some (vacated.2.state + 1) := by
    decide +kernel
  exact ⟨⟨by decide +kernel, by decide +kernel, by decide +kernel, by decide +kernel⟩, by decide +kernel,
    Option.map_eq_some_iff.mp filters⟩

end Reveille.System
