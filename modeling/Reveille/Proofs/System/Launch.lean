import Reveille.Proofs.System.Departure
import Reveille.Proofs.System.Enlisting
import Reveille.Proofs.System.Starting

/-!
# Starting a scheduler

A start engages its runners one after another, and whoever is engaged was registered before it does anything.
When the bus is closed in between, a registration is turned away, and the start waits for the end of the runners
engaged before.  So it comes back with all of its runners, or with none that does anything any more
(`Run.start_returned`).  Nothing but its runners keeps it from coming back (`Run.start_returns`).
-/

namespace Reveille.System

open Bus Bus.Worker Program Scheduler Routine

variable {D : Domain} {c : Cast D} {s s' s₀ s₁ m : System D} {a : Actor} {i k : Nat} {t : RunnerTask D}
  {q : Request D} {τ τ₁ τ₂ : List (Label D)} {name : D.Service → String} {grace : Duration}
  {services : List D.Service} {x : Handle D.Service} {xs ys zs : List (Exchange D.requests)}

/-! ### Runners that were hired -/

/-- Whoever hired a runner was told its number. -/
theorem Run.hired_of_told (h : Run c s₀ τ s) {service : D.Service}
    (hx : ⟨.hire service, i⟩ ∈ told a τ) : ∃ t, s.runners[i]? = some t ∧ t.service = service := by
  obtain ⟨xs, ys, htold⟩ := List.append_of_mem hx
  obtain ⟨σ, work, σ', s₁, s₂, s₃, -, -, -, hs, hlabel, -, rest⟩ := h.at_told htold
  have turn := turn_of_step hs
  rw [hlabel] at turn
  obtain ⟨hi, hservices⟩ := turn.hired
  have hmem : s₂.services[i]? = some service := by
    rw [hservices, hi, List.getElem?_concat_length]
  rw [System.services, List.getElem?_map, Option.map_eq_some_iff] at hmem
  obtain ⟨t, ht, hservice⟩ := hmem
  obtain ⟨t', ht', onward⟩ := rest.onward ht
  exact ⟨t', ht', onward.service.trans hservice⟩

theorem Run.upon_of_told (h : Run c s₀ τ s) {reply : q.Reply}
    (htold : told (.call k) τ = xs ++ ⟨q, reply⟩ :: ys) {service : D.Service}
    (hx : ⟨.hire service, i⟩ ∈ xs) :
    ∃ t t', s.runners[i]? = some t' ∧ (q.upon i reply t).Onward t' := by
  obtain ⟨σ, work, σ', s₁, s₂, s₃, -, rfl, before, hs, hlabel, -, rest⟩ := h.at_told htold
  obtain ⟨t, ht, -⟩ := before.hired_of_told hx
  have turn := turn_of_step hs
  rw [hlabel] at turn
  rcases runner_of_turn turn nofun ht with ⟨hnone, -⟩ | ⟨q', reply', hasked, hupon⟩
  · cases hnone
  · cases hasked
    obtain ⟨t', ht', onward⟩ := rest.onward hupon
    exact ⟨t, t', ht', onward⟩

/-- Whoever was engaged may go on, as far as its caller is concerned. -/
theorem Run.of_engaged (h : Run c s₀ τ s) (htold : told (.call k) τ = xs ++ (engaged x ++ ys)) :
    ∃ t, s.runners[x.runner]? = some t ∧ t.service = x.service ∧ t.launched = true ∧ t.released = true ∧
      (⟨.requestStop x.runner, ()⟩ ∈ ys → t.stopRequested = true) := by
  have hire : told (.call k) τ = xs ++ ⟨.hire x.service, x.runner⟩ ::
      (passed (.register (.inbox x.service x.runner)) ++
        ⟨.launch x.runner, ()⟩ :: ⟨.release x.runner, ()⟩ :: ys) := by
    rw [htold, Routine.engaged]
    simp only [List.cons_append, List.append_assoc, List.nil_append]
  have launch : told (.call k) τ = (xs ++ ⟨.hire x.service, x.runner⟩ ::
      passed (.register (.inbox x.service x.runner))) ++
        ⟨.launch x.runner, ()⟩ :: ⟨.release x.runner, ()⟩ :: ys := by
    rw [hire, List.append_assoc, List.cons_append]
  have release := launch
  rw [List.append_cons] at release
  obtain ⟨t, ht, hservice⟩ := h.hired_of_told (a := .call k) (hire ▸ List.mem_append_right _ List.mem_cons_self)
  have mem : (⟨.hire x.service, x.runner⟩ : Exchange D.requests) ∈ xs ++ ⟨.hire x.service, x.runner⟩ ::
      passed (.register (.inbox x.service x.runner)) := List.mem_append_right _ List.mem_cons_self
  refine ⟨t, ht, hservice, ?_, ?_, fun asked => ?_⟩
  · obtain ⟨t₀, t', ht', onward⟩ := h.upon_of_told launch mem
    obtain rfl := Option.some.inj (ht.symm.trans ht')
    exact onward.launched (by simp [Request.upon])
  · obtain ⟨t₀, t', ht', onward⟩ := h.upon_of_told release (List.mem_append_left _ mem)
    obtain rfl := Option.some.inj (ht.symm.trans ht')
    exact onward.released (by simp [Request.upon])
  · obtain ⟨vs, ws, rfl⟩ := List.append_of_mem asked
    have stop : told (.call k) τ = (xs ++ (engaged x ++ vs)) ++ ⟨.requestStop x.runner, ()⟩ :: ws := by
      rw [htold, List.append_assoc, List.append_assoc]
    obtain ⟨t₀, t', ht', onward⟩ := h.upon_of_told stop
      (List.mem_append_right _ (List.mem_append_left _ List.mem_cons_self))
    obtain rfl := Option.some.inj (ht.symm.trans ht')
    exact onward.stopRequested (by simp [Request.upon])

/-- A runner is not blocked in its seeding pass. -/
theorem busy_of_seeding (seeding : t.machine.phase.isSeeding = true) :
    s.runnerSource c i t t.machine.request ≠ .blocked := by
  rw [show t.machine.request = t.machine.phase.request t.machine.inboxOpen from rfl]
  cases hp : t.machine.phase with
  | seeding => exact nofun
  | scanning pass now => exact nofun
  | collecting pass now scan items => exact nofun
  | arming pass now => exact nofun
  | _ =>
    rw [hp] at seeding
    cases seeding

/-- Somebody asked for the end of a runner. -/
def Dismissed (i : Nat) (τ : List (Label D)) : Prop :=
  ∃ l ∈ τ, l.asked? = some ⟨.requestStop i, ()⟩ ∨ l.asked? = some ⟨.abort i, ()⟩

/-- A runner that was engaged runs, unless it panicked or somebody asked for its end. -/
theorem Career.runs (h : Career τ i t) (launched : t.launched = true) (released : t.released = true) :
    t.mayRun = true ∨ (∃ p, t.ending = some (.panicked p)) ∨ Dismissed i τ := by
  cases he : t.ending with
  | none => exact Or.inl (RunnerTask.mayRun_iff.mpr ⟨launched, Or.inl released, he⟩)
  | some e =>
    refine Or.inr ?_
    cases e with
    | panicked p => exact Or.inl ⟨p, rfl⟩
    | stopped =>
      obtain ⟨l, hl, hasked⟩ := h.requested (h.heeded (h.stopped.mpr he))
      exact Or.inr ⟨l, hl, Or.inl hasked⟩
    | aborted =>
      obtain ⟨l, hl, hasked⟩ := h.aborted (h.dropped he)
      exact Or.inr ⟨l, hl, Or.inr hasked⟩

/-- Before a runner does anything, its receiver is in the queue. -/
theorem Run.registered_first (new : s₀.IsNew) (h : Run c s₀ τ s) (ht : s.runners[i]? = some t)
    {σ σ' : List (Label D)} {l : Label D} (hτ : τ = σ ++ l :: σ') (hl : l.actor? = some (.runner i)) :
    .register (.inbox t.service i) ∈ commands σ := by
  obtain ⟨s₁, s₂, before, happens, rest⟩ := h.split hτ
  cases happens with
  | call f => cases hl
  | @step a _ hs =>
    obtain ⟨_, _, hlabel, -⟩ := stride_of_step hs
    rw [hlabel] at hl
    obtain rfl := Option.some.inj hl
    obtain ⟨t₁, ht₁, hrun, -⟩ := runnerTurn_of_step hs
    obtain ⟨service, enlisted⟩ :=
      (before.enlisted new).launched i t₁ ht₁ (RunnerTask.mayRun_iff.mp hrun).1
    obtain ⟨t₂, ht₂, hservice⟩ := (before.registry new).service enlisted
    obtain ⟨t₃, ht₃, onward⟩ := ((Run.refl.step hs).trans rest).onward ht₁
    obtain rfl := Option.some.inj (ht.symm.trans ht₃)
    obtain rfl := Option.some.inj (ht₁.symm.trans ht₂)
    rwa [onward.service, hservice]

/-! ### What a start has requested -/

def launched? : Exchange D.requests → Option Nat
  | ⟨.launch i, _⟩ => some i
  | _ => none

theorem launched_of_engaged {hs : List (Handle D.Service)} :
    (hs.flatMap engaged).filterMap launched? = hs.map (·.runner) := by
  induction hs with
  | nil => rfl
  | cons h hs ih =>
    rw [List.flatMap_cons, List.filterMap_append, ih]
    rfl

theorem committed_of_engaged {hs : List (Handle D.Service)} : (hs.flatMap engaged).filterMap committed? =
    hs.map fun h => .register (.inbox h.service h.runner) := by
  induction hs with
  | nil => rfl
  | cons h hs ih =>
    rw [List.flatMap_cons, List.filterMap_append, ih]
    rfl

theorem launched_of_turnedAway {item : Command (Receiver D) D.Event} (h : xs ∈ turnedAway item) :
    xs.filterMap launched? = [] := by
  simp only [turnedAway, List.mem_cons, List.not_mem_nil, or_false] at h
  rcases h with rfl | rfl | rfl <;> rfl

theorem launched_of_rollback {hs : List (Handle D.Service)} {r : Routine D Unit}
    (path : Path (rollback name hs).routine xs r) : xs.filterMap launched? = [] := by
  refine List.filterMap_eq_nil_iff.mpr fun x hx => ?_
  obtain ⟨q, reply⟩ := x
  rcases path.only rollback_only _ hx with ⟨line, hq⟩ | ⟨i, hq⟩ | ⟨i, until?, hq⟩ <;>
    · dsimp only at hq
      subst hq
      rfl

/-- When a runner is turned away, those that were launched are the ones before. -/
theorem launched_of_refusal {hs : List (Handle D.Service)} {h : Handle D.Service}
    {us vs : List (Exchange D.requests)} (turned : us ∈ turnedAway (.register (.inbox h.service h.runner)))
    {r : Routine D Unit} (undoes : Path (rollback name hs).routine vs r) :
    (hs.flatMap engaged ++ ⟨.hire h.service, h.runner⟩ :: (us ++ vs)).filterMap launched? =
      hs.map (·.runner) := by
  have rest : (⟨.hire h.service, h.runner⟩ :: (us ++ vs) : List (Exchange D.requests)).filterMap launched? =
      [] := by
    rw [List.filterMap_cons_none rfl, List.filterMap_append, launched_of_turnedAway turned,
      launched_of_rollback undoes, List.append_nil]
  rw [List.filterMap_append, launched_of_engaged, rest, List.append_nil]

theorem mem_engaged_split {hs : List (Handle D.Service)} (hx : x ∈ hs) :
    ∃ us vs, hs.flatMap engaged = us ++ (engaged x ++ vs) := by
  obtain ⟨before, after, rfl⟩ := List.append_of_mem hx
  exact ⟨before.flatMap engaged, after.flatMap engaged, by rw [List.flatMap_append, List.flatMap_cons]⟩

/-! ### What a start waits for -/

theorem ending_of_release {p : Panic} (answer : s.perform c a (.release i) = some (.panicked p, s')) :
    s.ending? i = some (.panicked p) := by
  cases performed_of_perform answer with
  | seedingPanicked runner _ ending => exact (ending?_eq runner).trans ending

/-- A runner goes no further: somebody aborted it, or its service waits for something else than the bus. -/
def HeldUp (c : Cast D) (s : System D) (i : Nat) : Prop :=
  s.ending? i = some .aborted ∨
    ∃ t q rest, s.runners[i]? = some t ∧ RunnerIn c s i t (.ask q rest) ∧
      s.perform c (.runner i) q = none ∧ q ≠ .awaitSlot

/-- Nobody can go on, and no receiver is at work. -/
structure AtRest (c : Cast D) (τ : List (Label D)) (s : System D) : Prop where
  settled : ∀ a, s.step c a = none
  between : s.worker.machine.phase.isCalling = false
  composed : (worked τ).all isComposed = true

theorem Run.held_up (new : s₀.IsNew) (h : Run c s₀ τ s) (rest : AtRest c τ s) (ht : s.runners[i]? = some t)
    (awake : t.mayRun = true) (busy : s.runnerSource c i t t.machine.request ≠ .blocked) : HeldUp c s i := by
  obtain ⟨q, onward, routine, blocked⟩ := held_up_of_step ht awake busy (rest.settled _)
  refine Or.inr ⟨t, q, onward, ht, routine, blocked, ?_⟩
  rintro rfl
  refine (h.crossing new).not_awaiting (h.account new) (h.gate new rest.composed) rest.settled rest.between
    (fun j hj => ?_) (doing_of_runnerIn ht routine)
  cases hj
  rw [isRunning_eq_isNone ht, (RunnerTask.mayRun_iff.mp awake).2.2, Option.isNone_none]

/-- When a start waits for a seeding pass, the runner is held up. -/
theorem Run.seeding_held_up (new : s₀.IsNew) (h : Run c s₀ τ s) (rest : AtRest c τ s)
    (ht : s.runners[i]? = some t) (launched : t.launched = true)
    (waits : s.perform c (.call k) (.release i) = none) : HeldUp c s i := by
  cases seeding : t.machine.phase.isSeeding with
  | false => cases waits.symm.trans (perform_of_performed (.released ht seeding))
  | true =>
    cases he : t.ending with
    | none =>
      exact h.held_up new rest ht (RunnerTask.mayRun_iff.mpr ⟨launched, Or.inr seeding, he⟩)
        (busy_of_seeding seeding)
    | some e =>
      cases e with
      | panicked p => cases waits.symm.trans (perform_of_performed (.seedingPanicked ht seeding he))
      | stopped =>
        rw [(h.career new ht).stopped.mpr he] at seeding
        cases seeding
      | aborted => exact Or.inl ((ending?_eq ht).trans he)

/-- When a start waits for the end of a runner that it stopped, the runner is held up. -/
theorem Run.end_held_up (new : s₀.IsNew) (h : Run c s₀ τ s) (rest : AtRest c τ s)
    (ht : s.runners[i]? = some t) (launched : t.launched = true) (released : t.released = true)
    (asked : t.stopRequested = true) (waits : s.perform c (.call k) (.awaitEnd i none) = none) :
    HeldUp c s i := by
  cases he : t.ending with
  | none =>
    exact h.held_up new rest ht (RunnerTask.mayRun_iff.mpr ⟨launched, Or.inl released, he⟩)
      ((h.career new ht).busy asked he)
  | some e => cases waits.symm.trans (perform_of_performed (.ended ((ending?_eq ht).trans he) none))

/-! ### The start -/

/-- What came of a start that was told `xs` and came back with a scheduler. -/
structure Started (grace : Duration) (services : List D.Service) (τ : List (Label D)) (s : System D)
    (xs : List (Exchange D.requests)) (sch : Scheduler D.Service) : Prop where
  grace : sch.grace = grace
  services : sch.handles.map (·.service) = services
  /-- It registered its runners in their order. -/
  registered : xs.filterMap committed? =
    sch.handles.map fun h => .register (.inbox h.service h.runner)
  running : ∀ h ∈ sch.handles, ∃ t, s.runners[h.runner]? = some t ∧ t.service = h.service ∧
    (t.mayRun = true ∨ (∃ p, t.ending = some (.panicked p)) ∨ Dismissed h.runner τ)
  /-- None of them did anything before it was registered. -/
  first : ∀ h ∈ sch.handles, ∀ σ l σ', τ = σ ++ l :: σ' → l.actor? = some (.runner h.runner) →
    .register (.inbox h.service h.runner) ∈ commands σ

/-- What came of a start that was told `xs` when one of its runners was turned away. -/
structure Refused (c : Cast D) (services : List D.Service) (τ : List (Label D)) (s : System D)
    (xs : List (Exchange D.requests)) : Prop where
  closed : (worked τ).all isComposed = true → s.isClosed = true
  /-- Some runner was not launched. -/
  short : (xs.filterMap launched?).length < services.length
  ended : ∀ i ∈ xs.filterMap launched?, ∃ e, s.ending? i = some e
  /-- Those that were launched do nothing any more. -/
  for_good : ∀ τ' s', Run c s τ' s' → ∀ i ∈ xs.filterMap launched?, ∀ l ∈ τ', l.actor? ≠ some (.runner i)

section
variable {g : Except RuntimeError (Scheduler D.Service) → Routine D D.Result}

theorem Run.started (new : s₀.IsNew) (before : Run c s₀ τ₁ s₁) (after : Run c s₁ τ₂ s)
    {hs : List (Handle D.Service)} {line : Log.Line}
    (htold : told (.call k) τ₂ = hs.flatMap engaged ++ [⟨.log line, ()⟩] ++ ys) :
    Started grace (hs.map (·.service)) (τ₁ ++ τ₂) s (hs.flatMap engaged ++ [⟨.log line, ()⟩]) ⟨hs, grace⟩ := by
  have whole := before.trans after
  have engages (h) (hh : h ∈ hs) : ∃ us vs, told (.call k) τ₂ = us ++ (engaged h ++ vs) := by
    obtain ⟨us, vs, hsplit⟩ := mem_engaged_split hh
    exact ⟨us, vs ++ ([⟨.log line, ()⟩] ++ ys), by rw [htold, hsplit]; simp only [List.append_assoc]⟩
  refine ⟨rfl, rfl, ?_, fun h hh => ?_, fun h hh σ l σ' hτ hl => ?_⟩
  · rw [List.filterMap_append, committed_of_engaged]
    exact List.append_nil _
  · obtain ⟨us, vs, hsplit⟩ := engages h hh
    obtain ⟨t, ht, hservice, launched, released, -⟩ := after.of_engaged hsplit
    exact ⟨t, ht, hservice, (whole.career new ht).runs launched released⟩
  · obtain ⟨us, vs, hsplit⟩ := engages h hh
    obtain ⟨t, ht, hservice, -⟩ := after.of_engaged hsplit
    exact hservice ▸ whole.registered_first new ht hτ hl

theorem Run.refused (new : s₀.IsNew) (before : Run c s₀ τ₁ s₁) (after : Run c s₁ τ₂ s)
    {hs : List (Handle D.Service)} {us vs : List (Exchange D.requests)}
    (within : (hs ++ [x]).map (·.service) <+: services)
    (htold : told (.call k) τ₂ = hs.flatMap engaged ++ ⟨.hire x.service, x.runner⟩ :: (us ++ vs) ++ ys)
    (turned : us ∈ turnedAway (.register (.inbox x.service x.runner)))
    (undoes : Path (rollback name hs).routine vs (.done ())) :
    Refused c services (τ₁ ++ τ₂) s (hs.flatMap engaged ++ ⟨.hire x.service, x.runner⟩ :: (us ++ vs)) := by
  have whole := before.trans after
  have launched := launched_of_refusal turned undoes
  have mem {y : Exchange D.requests} (hy : y ∈ us ++ vs) : y ∈ told (.call k) τ₂ := by
    rw [htold]
    exact List.mem_append_left _ (List.mem_append_right _ (List.mem_cons_of_mem _ hy))
  have ended : ∀ i ∈ hs.map (·.runner), ∃ e, s.ending? i = some e := by
    intro i hi
    obtain ⟨h, hh, rfl⟩ := List.mem_map.mp hi
    obtain ⟨reply, hreply⟩ := rollback_told undoes hh
    obtain ⟨e, -, he⟩ := after.ended_of_told (a := .call k) (mem (List.mem_append_right _ hreply))
    exact ⟨e, he⟩
  refine ⟨fun composed => ?_, ?_, launched ▸ ended, fun τ' s' later i hi => ?_⟩
  · obtain ⟨y, hy, late⟩ := late_of_turnedAway turned
    have gate := whole.gate new composed
    have known : y ∈ told (.call k) (τ₁ ++ τ₂) := by
      rw [told_append]
      exact List.mem_append_right _ (mem (List.mem_append_left _ hy))
    rw [isClosed, gate.accepting, System.closed_of_told gate.timely known late]
    rfl
  · have length := within.length_le
    rw [List.length_map, List.length_append, List.length_singleton] at length
    rw [launched, List.length_map]
    exact length
  · obtain ⟨e, he⟩ := ended i (launched ▸ hi)
    exact (later.ending he).2

/-- What a start requested last, nobody answers at rest, and so a runner is held up. -/
theorem Run.start_waits (new : s₀.IsNew) (before : Run c s₀ τ₁ s₁) (after : Run c s₁ τ₂ s)
    (atRest : AtRest c (τ₁ ++ τ₂) s) {rest : q.Reply → Routine D (Except RuntimeError (Scheduler D.Service))}
    (path : Path (Scheduler.start name grace services).routine (told (.call k) τ₂) (.ask q rest))
    (task : s.calls[k]? = some (.running ((Program.ask q rest).bind g))) :
    ∃ i ∈ (told (.call k) τ₂).filterMap launched?, HeldUp c s i := by
  have whole := before.trans after
  have waits : s.perform c (.call k) q = none := by
    rw [Option.eq_none_iff_forall_ne_some]
    rintro ⟨answer, s'⟩ hanswer
    exact step_of_answer task hanswer (atRest.settled _)
  rcases start_asks path with atOnce | rfl | ⟨service, i, us, vs, rfl, htold⟩ | ⟨h, us, vs, rfl, htold, asked⟩
  · obtain ⟨reply, s', answer⟩ := perform_of_atOnce (c := c) (s := s) (a := .call k) atOnce
    cases waits.symm.trans answer
  · exact absurd (doing_of_call task) ((whole.crossing new).not_awaiting (whole.account new)
      (whole.gate new atRest.composed) atRest.settled atRest.between nofun)
  · have launch : told (.call k) τ₂ = (us ++ ⟨.hire service, i⟩ :: vs) ++ ⟨.launch i, ()⟩ :: [] := by
      rw [htold, List.append_assoc, List.cons_append]
    obtain ⟨t₀, t, ht, onward⟩ := after.upon_of_told launch (List.mem_append_right _ List.mem_cons_self)
    refine ⟨i, ?_, whole.seeding_held_up new atRest ht (onward.launched (by simp [Request.upon])) waits⟩
    rw [launch, List.filterMap_append]
    exact List.mem_append_right _ (List.mem_singleton_self i)
  · obtain ⟨t, ht, -, launched, released, stopped⟩ := after.of_engaged htold
    refine ⟨h.runner, ?_, whole.end_held_up new atRest ht launched released (stopped asked) waits⟩
    rw [htold, List.filterMap_append, List.filterMap_append]
    exact List.mem_append_right _ (List.mem_append_left _ (List.mem_singleton_self _))

/-- A start panics with a runner in its seeding pass. -/
theorem Run.start_panics (after : Run c s₁ τ₂ s)
    (about : s₁.calls[k]? = some (.running ((Scheduler.start name grace services).routine.bind g)))
    {rest : q.Reply → Routine D (Except RuntimeError (Scheduler D.Service))}
    (path : Path (Scheduler.start name grace services).routine (told (.call k) τ₂) (.ask q rest)) {p : Panic}
    (ended : s.calls[k]? = some (.ended (.error p))) :
    ∃ i ∈ (told (.call k) τ₂).filterMap launched?, s.ending? i = some (.panicked p) := by
  obtain ⟨m, m', q', rest', amid, path', answer⟩ := after.panicked about ended
  cases (Path.bind (f := g) path).functional path'
  have panics := (channel_of_panicked answer).1
  rcases start_asks path with atOnce | rfl | ⟨service, i, us, vs, rfl, htold⟩ | ⟨h, us, vs, rfl, -, -⟩
  · exact absurd panics atOnce.not_panics
  · exact panics.elim
  · refine ⟨i, ?_, ?_⟩
    · rw [htold, List.filterMap_append, List.filterMap_cons_none rfl, List.filterMap_append]
      exact List.mem_append_right _ (List.mem_append_right _ (List.mem_singleton_self i))
    · obtain ⟨σ, σ', -, -, later⟩ := amid.cut
      exact (later.ending (ending_of_release answer)).1
  · exact panics.elim

/-- Whatever else happens, and whenever somebody closes the bus: a start comes back with a scheduler whose
runners were registered one after another before they did anything, or it comes back with the error that the bus
is closed and the runners that it had launched have ended. -/
theorem Run.start_returned (new : s₀.IsNew) (before : Run c s₀ τ₁ s₁) (after : Run c s₁ τ₂ s)
    {result : Except RuntimeError (Scheduler D.Service)} (htold : told (.call k) τ₂ = xs ++ ys)
    (path : Path (Scheduler.start name grace services).routine xs (.done result)) :
    (∃ sch, result = .ok sch ∧ Started grace services (τ₁ ++ τ₂) s xs sch) ∨
      result = .error (.bus .closed) ∧ Refused c services (τ₁ ++ τ₂) s xs := by
  rcases started_or_refused path with
    ⟨hs, line, rfl, rfl, rfl⟩ | ⟨hs, x, us, vs, rfl, hprefix, rfl, turned, undoes⟩
  · exact Or.inl ⟨_, rfl, before.started new after htold⟩
  · exact Or.inr ⟨rfl, before.refused new after hprefix htold turned undoes⟩

/-- A start has come back at rest, unless a runner panicked in its seeding pass, or one of its runners is held
up. -/
theorem Run.start_returns (new : s₀.IsNew) (before : Run c s₀ τ₁ s₁)
    (about : s₁.calls[k]? = some (.running ((Scheduler.start name grace services).routine.bind g)))
    (after : Run c s₁ τ₂ s) (atRest : AtRest c (τ₁ ++ τ₂) s) :
    (∃ xs ys result, told (.call k) τ₂ = xs ++ ys ∧
      Path (Scheduler.start name grace services).routine xs (.done result)) ∨
    ∃ i ∈ (told (.call k) τ₂).filterMap launched?,
      (∃ p, s.ending? i = some (.panicked p) ∧ s.result? k = some (.error p)) ∨ HeldUp c s i := by
  rcases after.underway about with done | ⟨q, rest, path, ⟨-, p, ended⟩ | task⟩
  · exact Or.inl done
  · obtain ⟨i, hi, he⟩ := after.start_panics about path ended
    exact Or.inr ⟨i, hi, Or.inl ⟨p, he, by rw [result?, ended]⟩⟩
  · obtain ⟨i, hi, held⟩ := before.start_waits new after atRest path task
    exact Or.inr ⟨i, hi, Or.inr held⟩

end

end Reveille.System
