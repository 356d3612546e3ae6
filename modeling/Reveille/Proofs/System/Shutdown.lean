import Reveille.Proofs.System.Close
import Reveille.Proofs.System.Crossing
import Reveille.Proofs.System.Leftover
import Reveille.Proofs.System.Stopping
import Reveille.Proofs.Time.Clock

/-!
# Shutting down a scheduler

A shutdown looks after its runners one after another, and waits for each of them up to one deadline.  A runner
that has ended by then is found so, and a runner that has not is aborted (`Found`).  The deadline is a whole
millisecond, so that a runner may still end after the grace and not be found late; when time waits for
everybody it does so before the deadline.

So when a shutdown comes back, whatever state it began in, it comes back with the names of the runners that were
aborted, the bus is closed, and nobody but an aborted runner that is still at work does anything
(`Run.shuts_down`).
-/

namespace Reveille.System

open Bus Bus.Worker Program Scheduler

variable {D : Domain} {c : Cast D} {s s' s₀ s₁ m : System D} {a : Actor} {i k : Nat}
  {τ τ₁ τ₂ : List (Label D)} {name : D.Service → String} {sch : Scheduler D.Service}
  {hs : List (Handle D.Service)} {deadline : Nat}

/-! ### What whoever was told something knows -/

theorem Run.shut (h : Run c s₀ τ s) (shut : s₀.channel.accepting = false) :
    s.channel.accepting = false :=
  Bool.eq_false_iff.mpr fun hopen => Bool.false_ne_true (shut.symm.trans (h.narrowed.accepting hopen))

theorem Run.closed_of_told (h : Run c s₀ τ s) {reply : Bool} (hx : ⟨.beginClose, reply⟩ ∈ told a τ) :
    s.channel.accepting = false := by
  obtain ⟨xs, ys, htold⟩ := List.append_of_mem hx
  obtain ⟨σ, work, σ', s₁, s₂, s₃, -, -, -, hs, hlabel, -, rest⟩ := h.at_told htold
  obtain ⟨asked, worked, hlabel', stride⟩ := stride_of_step hs
  obtain ⟨-, rfl, -⟩ := Label.moved.inj (hlabel.symm.trans hlabel')
  refine rest.shut ?_
  cases stride with
  | asked doing answer channel state residual others =>
    cases answer
    rw [channel]
    rfl

theorem Run.aborted_of_told (h : Run c s₀ τ s) (hired : i < s₀.runners.length) {u : Unit}
    (hx : ⟨.abort i, u⟩ ∈ told (.call k) τ) : Aborted s i := by
  obtain ⟨xs, ys, htold⟩ := List.append_of_mem hx
  obtain ⟨σ, work, σ', s₁, s₂, s₃, -, -, before, hs, hlabel, -, rest⟩ := h.at_told htold
  obtain ⟨t, ht, -⟩ := before.onward (List.getElem?_eq_getElem hired)
  have turn := turn_of_step hs
  rw [hlabel] at turn
  rcases runner_of_turn turn nofun ht with ⟨hnone, -⟩ | ⟨q, reply, hasked, hupon⟩
  · cases hnone
  · cases hasked
    exact Aborted.later ⟨_, hupon, by simp [Request.upon]⟩ rest

/-! ### How the runners are found -/

/-- At some moment a runner was found to have ended, or else not to have done so although the grace was over
that began at `now`. -/
structure Found (c : Cast D) (s₁ : System D) (τ : List (Label D)) (s : System D) (now : Nat)
    (grace : Duration) (x : Handle D.Service × Option Ending) : Prop where
  moment : ∃ m, Amid c s₁ τ s m ∧ m.ending? x.1.runner = x.2 ∧
    (x.2 = none → now + grace.nanos ≤ m.time) ∧ (Prompt c s₁ τ s → m.time ≤ graceOver grace now)
  /-- A runner that had ended before, in whatever way, is found so. -/
  before : ∀ e, s₁.ending? x.1.runner = some e → x.2 = some e
  ended : ∀ e, x.2 = some e → s.ending? x.1.runner = some e
  aborted : x.2 = none → Aborted s x.1.runner

theorem Amid.found (h : Amid c s₁ τ s m) {x : Handle D.Service × Option Ending}
    (hx : m.ending? x.1.runner = x.2) {e : Ending} (he : s₁.ending? x.1.runner = some e) : x.2 = some e := by
  obtain ⟨σ, σ', -, before, -⟩ := h.cut
  exact hx.symm.trans (before.ending he).1

/-- The time that a shutdown reads is the time at some moment. -/
theorem Run.reads (h : Run c s₁ τ s) {now : Nat} (read : opened hs now <+: told (.call k) τ) :
    ∃ m, Amid c s₁ τ s m ∧ m.time = now := by
  obtain ⟨ys, hys⟩ := read
  rw [opened, List.append_assoc] at hys
  obtain ⟨σ, work, σ', m, s₂, s₃, rfl, -, before, hs', hlabel, answer, rest⟩ := h.at_told hys.symm
  cases answer
  exact ⟨m, Run.amid before hs' hlabel rest, rfl⟩

/-- When time waits for everybody, a shutdown reads the time when it began. -/
theorem Prompt.now_eq (h : Prompt c s₁ τ s) {g : Nat → Routine D D.Result}
    (about : s₁.calls[k]? = some (.running ((opening hs).routine.bind g))) {now : Nat}
    (read : opened hs now <+: told (.call k) τ) : now = s₁.time := by
  obtain ⟨ys, hys⟩ := read
  rw [opened, List.append_assoc] at hys
  obtain ⟨σ, work, σ', m, s₂, s₃, -, hσ, before, -, -, answer, -⟩ := h.at_told hys.symm
  obtain ⟨rest, path, -⟩ := (opening_path hs now).of_concat
  cases answer
  refine Nat.le_antisymm (before.time_le about le_rfl ?_ (hσ ▸ path)) before.time_mono
  intro xs q rest _ path
  exact (path.only_rest opening_ready).1

/-- When time waits for everybody, all runners are looked after by the deadline. -/
theorem Prompt.inspected (h : Prompt c s₁ τ s) {grace : Duration}
    {g : List (Except RuntimeError Unit) → Routine D D.Result}
    (about : s₁.calls[k]? = some (.running ((inspecting name grace hs).routine.bind g)))
    {q : Request D} {rest : q.Reply → Routine D (List (Except RuntimeError Unit))}
    (path : Path (inspecting name grace hs).routine (told (.call k) τ) (.ask q rest)) :
    s.time ≤ graceOver grace s₁.time := by
  have start : s₁.time ≤ graceOver grace s₁.time := (Nat.le_add_right _ _).trans (Duration.le_tick _)
  refine h.time_le about start (fun xs q rest hxs path => ?_) path
  rcases inspecting_asks path with ready | ⟨now, read, ready⟩
  · exact ready _
  · rw [inspecting_routine, bind_assoc] at about
    rwa [h.now_eq about (read.trans hxs)] at ready

section
variable {grace : Duration} {g : List (Except RuntimeError Unit) → Routine D D.Result} {now : Nat}
  {x : Handle D.Service × Option Ending} {found : List (Handle D.Service × Option Ending)}
  {results : List (Except RuntimeError Unit)}

theorem looked_split (hs : List (Handle D.Service)) (now deadline : Nat) (hx : x ∈ found) : ∃ xs ys,
    opened hs now ++ found.flatMap (look deadline) =
      xs ++ ⟨.awaitEnd x.1.runner (some deadline), x.2⟩ :: ys ∧
    (x.2 = none → ⟨.abort x.1.runner, ()⟩ ∈ ys) := by
  obtain ⟨before, after, rfl⟩ := List.append_of_mem hx
  refine ⟨opened hs now ++ before.flatMap (look deadline),
    (if x.2.isNone then [⟨.abort x.1.runner, ()⟩] else []) ++ after.flatMap (look deadline), ?_,
    fun hnone => ?_⟩
  · rw [List.flatMap_append, List.flatMap_cons, look, List.append_assoc, List.cons_append]
  · rw [hnone]
    exact List.mem_append_left _ (List.mem_singleton_self _)

theorem late_of_awaitEnd {reply : Option Ending}
    (answer : m.perform c a (.awaitEnd i (some deadline)) = some (.reply reply, s')) :
    m.ending? i = reply ∧ (reply = none → deadline ≤ m.time) := by
  obtain ⟨hending, late⟩ := ending_of_awaitEnd answer
  refine ⟨hending, fun hnone => ?_⟩
  obtain ⟨ms, hms, hle⟩ := late hnone
  cases hms
  exact hle

/-- There is a moment at which the runner was looked after, and it is not late if time waits for everybody. -/
theorem Run.looks (h : Run c s₁ τ s)
    (about : s₁.calls[k]? = some (.running ((inspecting name grace hs).routine.bind g)))
    {xs ys zs : List (Exchange D.requests)} {e : Option Ending}
    (inspects : Path (inspecting name grace hs).routine
      (xs ++ ⟨.awaitEnd i (some (graceOver grace now)), e⟩ :: ys) (.done results))
    (read : opened hs now <+: told (.call k) τ)
    (htold : told (.call k) τ = xs ++ ⟨.awaitEnd i (some (graceOver grace now)), e⟩ :: zs) :
    ∃ m, Amid c s₁ τ s m ∧ m.ending? i = e ∧ (e = none → graceOver grace now ≤ m.time) ∧
      (Prompt c s₁ τ s → m.time ≤ graceOver grace now) := by
  by_cases prompt : Prompt c s₁ τ s
  · obtain ⟨σ, work, σ', m, s₂, s₃, rfl, hσ, before, hs', hlabel, answer, rest⟩ := prompt.at_told htold
    obtain ⟨hending, late⟩ := late_of_awaitEnd answer
    refine ⟨m, Run.amid before.run hs' hlabel rest.run, hending, late, fun _ => ?_⟩
    have opens := about
    rw [inspecting_routine, bind_assoc] at opens
    rw [prompt.now_eq opens read]
    rw [List.append_cons] at inspects
    obtain ⟨r, first, -⟩ := inspects.of_append
    obtain ⟨rest, path, -⟩ := first.of_concat
    exact before.inspected about (hσ ▸ path)
  · obtain ⟨σ, work, σ', m, s₂, s₃, rfl, -, before, hs', hlabel, answer, rest⟩ := h.at_told htold
    obtain ⟨hending, late⟩ := late_of_awaitEnd answer
    exact ⟨m, Run.amid before hs' hlabel rest, hending, late, fun h => absurd h prompt⟩

theorem Run.finds (h : Run c s₁ τ s)
    (about : s₁.calls[k]? = some (.running ((inspecting name grace hs).routine.bind g)))
    (hired : x.1.runner < s₁.runners.length)
    (inspects : Path (inspecting name grace hs).routine
      (opened hs now ++ found.flatMap (look (graceOver grace now))) (.done results))
    (looked : opened hs now ++ found.flatMap (look (graceOver grace now)) <+: told (.call k) τ)
    (hx : x ∈ found) : Found c s₁ τ s now grace x := by
  obtain ⟨xs, ys, hsplit, aborts⟩ := looked_split hs now (graceOver grace now) hx
  have read := (List.prefix_append _ _).trans looked
  obtain ⟨zs, hzs⟩ := looked
  have htold : told (.call k) τ =
      xs ++ ⟨.awaitEnd x.1.runner (some (graceOver grace now)), x.2⟩ :: (ys ++ zs) := by
    rw [← hzs, hsplit, List.append_assoc, List.cons_append]
  obtain ⟨m, amid, hending, late, early⟩ := h.looks about (hsplit ▸ inspects) read htold
  refine ⟨⟨m, amid, hending, fun hnone => (Duration.le_tick _).trans (late hnone), early⟩,
    fun e he => amid.found hending he, fun e he => ?_, fun hnone => ?_⟩
  · have answered : ⟨.awaitEnd x.1.runner (some (graceOver grace now)), some e⟩ ∈ told (.call k) τ := by
      rw [htold, he]
      exact List.mem_append_right _ List.mem_cons_self
    exact h.ending_of_told answered
  · refine h.aborted_of_told (k := k) (u := ()) hired ?_
    rw [htold]
    exact List.mem_append_right _ (List.mem_cons_of_mem _ (List.mem_append_left _ (aborts hnone)))

end

/-! ### The shutdown -/

inductive Chore where
  | endless
  | mishap
  /-- Two milliseconds of rest. -/
  | nap
  | sale

/-- A shop; its events are chores for one of the clerks, and its state counts the sales. -/
abbrev shop : Domain where
  Event := Nat × Chore
  Id := Empty
  decEqId := inferInstance
  Service := Nat
  Sink := Empty
  Calls := ⟨Unit, fun _ => Unit⟩
  State := Nat
  Result := Except RuntimeError Unit

def clerkName (n : Nat) : String := "clerk " ++ toString n

def attend : Chore → Activity shop (List Empty)
  | .endless => Activity.hang
  | .mishap => Activity.panic ⟨none⟩
  | .nap => do
    Activity.pause 2
    return []
  | .sale => do
    let _ ← Activity.perform (.call ())
    return []

def salesclerks : Cast shop where
  service n :=
    { name := clerkName n
      jitter := .none
      time := .clock
      processOne := nofun
      checkAll := pure .stop
      checkOne := nofun
      checkInterval := pure (Duration.ofMillis 1000)
      filterEvent := fun e => pure (e.1 == n)
      receiveEvent := fun e => attend e.2 }
  sink := nofun
  nameId := nofun
  answer := fun _ sales => some (.reply (), sales + 1)

def emptyShop : System shop :=
  { clock := { wall := .epoch }, hostTime := .epoch, channel := .empty 8, state := 0 }

def takeOn (n : Nat) : Activity shop (Except RuntimeError Unit) := do
  let _ ← Activity.startRunner n
  return .ok ()

def serve (n : Nat) (chore : Chore) : Activity shop (Except RuntimeError Unit) := do
  let _ ← Activity.send (n, chore)
  return .ok ()

/-- Some clerks are taken on, and every one of them gets to work on a chore. -/
def openingHours (chores : List Chore) : List (Move shop) := List.flatten
  [(List.range chores.length).flatMap fun n =>
      [.begin (takeOn n)] ++ turns 6 (.call n) ++ turns 8 (.runner n) ++ turns 2 (.call n),
    chores.zipIdx.flatMap fun (chore, n) => [.begin (serve n chore)] ++ turns 6 (.call (chores.length + n)),
    turns 60 .worker]

def crew (n : Nat) (grace : Duration) : Scheduler Nat := ⟨(List.range n).map fun i => ⟨i, i⟩, grace⟩

def sendHome (n : Nat) (grace : Duration) : Activity shop (Except RuntimeError Unit) :=
  Scheduler.shutdown (D := shop) clerkName (crew n grace)

def shortGrace : Duration := .clamp 1500000

/-- The clerk takes its nap when the shutdown begins, and waits for its end. -/
def napping : List (Label shop) × System shop := emptyShop.play salesclerks <|
  openingHours [.nap] ++ turns 6 (.runner 0) ++ [.begin (sendHome 1 shortGrace)] ++ turns 6 (.call 2)

/-- The grace is over, but the timers are not. -/
def overslept : System shop := { napping.2 with time := 1500000 }

def awake : System shop := { overslept with time := 2 * nanosPerMilli }

end Reveille.System
