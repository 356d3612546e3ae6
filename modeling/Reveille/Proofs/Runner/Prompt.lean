import Reveille.Proofs.Runner.Ledger

/-!
# Events and a wake that is due

`Clocked` follows a runner through the time of a clock that never goes back: between two steps any time may
pass, and whoever reads the clock is told the present time.  What else is replied, how long it takes and how
many events there are is free.

The runner waits for events only after it has read the clock and found neither the alarm nor the rescan
due.  An event can still come while the wake falls due, but then the runner reads the clock again, and
begins a pass before it looks at another event (`Clocked.prompt`).
-/

namespace Reveille.Runner

variable {E Id F : Type}

def ReadsAt (now : Instant) : Exchange (requests E Id F) → Prop
  | ⟨.readClock, (reading : Instant)⟩ => reading = now
  | _ => True

inductive Clocked [DecidableEq Id] (r : Runner E Id F) (now : Instant) :
    List (Exchange (requests E Id F)) → Runner E Id F → Instant → Prop
  | refl : Clocked r now [] r now
  | elapse {τ : List (Exchange (requests E Id F))} {r' : Runner E Id F} {time later : Instant}
      (before : Clocked r now τ r' time) (h : time ≤ later) : Clocked r now τ r' later
  | step {τ : List (Exchange (requests E Id F))} {r' : Runner E Id F} {time : Instant}
      (before : Clocked r now τ r' time) (reply : r'.request.Reply)
      (h : ReadsAt time ⟨r'.request, reply⟩) :
      Clocked r now (τ ++ [⟨r'.request, reply⟩]) (r'.resume reply).1 time

def taken? : Exchange (requests E Id F) → Option E
  | ⟨.wait _ _, (woken : Woken E)⟩ =>
    match woken with
    | .event e => some e
    | _ => none
  | _ => none

def taken (τ : List (Exchange (requests E Id F))) : List E := τ.filterMap taken?

theorem taken_concat {τ : List (Exchange (requests E Id F))} {x : Exchange (requests E Id F)} :
    taken (τ ++ [x]) = taken τ ++ (taken? x).toList := by
  rw [taken, List.filterMap_append, ← taken]
  cases h : taken? x <;> simp [h]

def startsPass (x : Exchange (requests E Id F)) : Bool :=
  match x.request with
  | .checkAll => true
  | _ => false

def Phase.inPass : Phase E Id F → Bool
  | .collecting _ _ _ _ | .arming _ _ | .processing _ _ _ | .rechecking _ _ _ | .judging _ _ _ _
  | .ending => true
  | _ => false

/-- How many events a runner still takes when its wake is due. -/
def Phase.room : Phase E Id F → Nat
  | .waiting _ => 1
  | _ => 0

variable {r r' : Runner E Id F} {now time later : Instant}
  {τ σ : List (Exchange (requests E Id F))} {jitter : Jitter}

/-- A runner that waits has just found that neither the alarm nor the rescan is due. -/
def Looked (τ : List (Exchange (requests E Id F))) (r : Runner E Id F) : Prop :=
  match r.phase with
  | .timing => ∃ τ₀, τ = τ₀ ++ [⟨.isStopRequested, false⟩]
  | .waiting _ => ∃ τ₀ t, τ = τ₀ ++ [⟨.isStopRequested, false⟩, ⟨.readClock, t⟩] ∧
      r.wakeDue.isDue t = false
  | _ => True

theorem looked_check {rest : List Id} : Looked τ (r.check rest).1 := by
  cases rest <;> exact trivial

theorem looked_process {next : Alarm Id} {rest : List Id} : Looked τ (r.process next rest).1 := by
  cases rest <;> exact trivial

/-- A wake that is due outside a pass. -/
structure Pressing (r : Runner E Id F) (now : Instant) : Prop where
  due : r.wakeDue.isDue now = true
  outside : r.phase.inPass = false

theorem pressing_check {rest : List Id} (h : r.wakeDue.isDue now = true) :
    Pressing (r.check rest).1 now ∧ (r.check rest).1.phase.room = 0 := by
  cases rest with
  | nil => exact ⟨⟨h, rfl⟩, rfl⟩
  | cons id rest => exact ⟨⟨h, rfl⟩, rfl⟩

theorem isDue_wakeDue :
    r.wakeDue.isDue now = true ↔ (r.alarm.due.isDue now || r.rescanAt.isDue now) = true := by
  rw [wakeDue, DueTime.isDue_min, Bool.or_eq_true]

theorem wakeDue_learn {id : Id} {due : DueTime} (h : r.wakeDue.isDue now = true) :
    (r.learn id due).1.wakeDue.isDue now = true := by
  show (min (r.alarm.offer due (some id)).due r.rescanAt).isDue now = true
  rw [Alarm.offer_due, min_assoc, DueTime.isDue_min]
  exact Or.inr h

section
variable [DecidableEq Id]

theorem Looked.step (h : Looked τ r) (reply : r.request.Reply) :
    Looked (τ ++ [⟨r.request, reply⟩]) (r.resume reply).1 := by
  have turned := turned_resume r reply
  generalize r.resume reply = turn at turned ⊢
  cases turned with
  | working => exact ⟨τ, rfl⟩
  | early r now notDue =>
    obtain ⟨τ₀, rfl⟩ := h
    exact ⟨τ₀, now, by rw [List.append_assoc]; rfl, notDue⟩
  | collected r pass =>
    cases pass with
    | seed => exact trivial
    | wake => exact looked_process
  | receiving | checked | checkFailed => exact looked_check
  | processFailed | recheckFailed | stillDue | dueLater => exact looked_process
  | _ => exact trivial

theorem Run.looked (h : Run jitter τ r) : Looked τ r := by
  induction h with
  | init => exact trivial
  | step before reply ih => exact ih.step reply

theorem Clocked.run (h : Clocked (.init jitter) now τ r later) : Run jitter τ r := by
  induction h with
  | refl => exact .init
  | elapse before hle ih => exact ih
  | step before reply hreads ih => exact ih.step reply

/-- As long as no pass begins a due wake stays due, and every event that is taken uses up some room. -/
theorem Pressing.step (h : Pressing r now) (reply : r.request.Reply)
    (reads : ReadsAt now ⟨r.request, reply⟩) (noPass : startsPass ⟨r.request, reply⟩ = false) :
    Pressing (r.resume reply).1 now ∧
      (taken? ⟨r.request, reply⟩).toList.length + (r.resume reply).1.phase.room ≤ r.phase.room := by
  obtain ⟨hdue, houtside⟩ := h
  have turned := turned_resume r reply
  generalize r.resume reply = turn at turned ⊢
  cases turned with
  | seeding | stopped | working | late | event | wakes => exact ⟨⟨hdue, rfl⟩, Nat.le_refl _⟩
  | stoppedWaiting | inboxEnded | elapsed => exact ⟨⟨hdue, rfl⟩, Nat.zero_le _⟩
  | scanning => cases noPass
  -- A clock that reads the present time finds the wake due.
  | early r t notDue =>
    obtain rfl : t = now := reads
    cases hdue.symm.trans notDue
  | earlyWake r t notDue =>
    obtain rfl : t = now := reads
    cases (isDue_wakeDue.mp hdue).symm.trans notDue
  | receiving | checkFailed =>
    obtain ⟨hpressing, hroom⟩ := pressing_check hdue
    exact ⟨hpressing, (Nat.zero_add _).trans_le hroom.le⟩
  | checked =>
    obtain ⟨hpressing, hroom⟩ := pressing_check (wakeDue_learn hdue)
    exact ⟨hpressing, (Nat.zero_add _).trans_le hroom.le⟩
  | _ => cases houtside

theorem Clocked.pressing (h : Clocked r now σ r' later) (pressing : Pressing r now)
    (noPass : ∀ x ∈ σ, startsPass x = false) :
    Pressing r' later ∧ (taken σ).length + r'.phase.room ≤ r.phase.room := by
  induction h with
  | refl => exact ⟨pressing, (Nat.zero_add _).le⟩
  | elapse before hle ih =>
    obtain ⟨⟨hdue, houtside⟩, hroom⟩ := ih noPass
    exact ⟨⟨DueTime.isDue_mono hle hdue, houtside⟩, hroom⟩
  | step before reply hreads ih =>
    obtain ⟨hpressing, hroom⟩ := ih fun x hx => noPass x (List.mem_append_left _ hx)
    obtain ⟨hpressing', hroom'⟩ := hpressing.step reply hreads
      (noPass _ (List.mem_append_right _ List.mem_cons_self))
    refine ⟨hpressing', ?_⟩
    rw [taken_concat, List.length_append]
    omega

/-- A runner waits for an event only when the reading that began this turn of its loop was before the alarm and
before the rescan, and never in a pass.  Once the earlier of the two is due it takes at most one event
before it begins a pass, whatever comes in and however long it takes. -/
theorem Clocked.prompt (h : Clocked (.init jitter) now τ r time) :
    (∀ limit inboxOpen, r.request = .wait limit inboxOpen → r.phase.inPass = false ∧
      ∃ τ₀ t, τ = τ₀ ++ [⟨.isStopRequested, false⟩, ⟨.readClock, t⟩] ∧
        .moment t < r.alarm.due ∧ .moment t < r.rescanAt) ∧
    (r.phase.inPass = false → (min r.alarm.due r.rescanAt).isDue time = true →
      ∀ σ r' later, Clocked r time σ r' later → (∀ x ∈ σ, startsPass x = false) →
        (taken σ).length ≤ 1) := by
  constructor
  · intro limit inboxOpen hwait
    have hlooked := h.run.looked
    unfold Looked at hlooked
    obtain ⟨jitter, alarm, rescanAt, shown, inboxOpen', phase⟩ := r
    cases phase with
    | waiting limit' =>
      obtain ⟨τ₀, t, hτ, hdue⟩ := hlooked
      have hlt : .moment t < min alarm.due rescanAt := by
        rw [← not_le, ← DueTime.isDue_iff_le]
        exact Bool.eq_false_iff.mp hdue
      exact ⟨rfl, τ₀, t, hτ, lt_min_iff.mp hlt⟩
    | _ => cases hwait
  · intro houtside hdue σ r' later hσ noPass
    have hroom := (hσ.pressing ⟨hdue, houtside⟩ noPass).2
    have : r.phase.room ≤ 1 := by
      unfold Phase.room
      split
      · exact Nat.le_refl _
      · exact Nat.zero_le _
    omega

/-! ### An event while the wake falls due -/

theorem Clocked.obey {answer : (q : Request E Id F) → Option q.Reply}
    (reads : ∀ q reply, answer q = some reply → ReadsAt time ⟨q, reply⟩) (n : Nat)
    (h : Clocked r now τ r' time) :
    Clocked r now (τ ++ (r'.obey answer n).1) (r'.obey answer n).2 time := by
  induction n generalizing τ r' with
  | zero =>
    rw [Runner.obey, List.append_nil]
    exact h
  | succ n ih =>
    unfold Runner.obey
    split
    · rw [List.append_nil]
      exact h
    · next reply hreply =>
      rw [List.append_cons]
      exact ih (h.step reply (reads _ reply hreply))

def busyAt (t : Instant) : (q : Request Unit Nat Nat) → Option q.Reply
  | .readClock => some t
  | q => busy q

theorem readsAt_busyAt {t : Instant} (q : Request Unit Nat Nat) (reply : q.Reply)
    (h : busyAt t q = some reply) : ReadsAt t ⟨q, reply⟩ := by
  cases q with
  | readClock => exact (Option.some.inj h).symm
  | _ => exact trivial

/-- The runner that waits at tick 4 for an entity that is due at tick 6. -/
def dozing : Runner Unit Nat Nat := (obey (busyAt (tick 4)) 7 (.init .none)).2

/-- An event that comes at tick 6 is still taken; then a pass begins, though there are more events. -/
theorem prompt_busy :
    taken (dozing.obey (busyAt (tick 6)) 7).1 = [()] ∧
    (dozing.obey (busyAt (tick 6)) 7).2.phase = .scanning .wake (tick 6) ∧
    (taken (dozing.obey (busyAt (tick 6)) 7).1).length ≤ 1 := by
  have asleep : Clocked (.init .none) (tick 4) (obey (busyAt (tick 4)) 7 (.init .none)).1 dozing
      (tick 4) := Clocked.refl.obey readsAt_busyAt 7
  have due : Clocked (.init .none) (tick 4) (obey (busyAt (tick 4)) 7 (.init .none)).1 dozing
      (tick 6) := asleep.elapse (by decide +kernel)
  refine ⟨by decide +kernel, rfl, ?_⟩
  exact (Clocked.prompt due).2 rfl (by decide +kernel) _ _ _ (Clocked.refl.obey readsAt_busyAt 7)
    (by decide +kernel)

end

end Reveille.Runner
