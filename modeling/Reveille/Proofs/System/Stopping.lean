import Reveille.Poll.Scheduler
import Reveille.Proofs.System.Operation
import Reveille.Proofs.System.Prompt

/-!
# The requests of a shutdown

To shut down a scheduler is to ask all of its runners to stop and to read the time (`Scheduler.opening`), to
wait for the end of each of them up to one deadline and to abort it then (`Scheduler.inspecting`), and to close
the bus (`Scheduler.finishing`).  What a shutdown was told says of every runner how it ended or that it did not end in
time, and what the shutdown comes back with is read off that (`Scheduler.told_of_shutdown`).
-/

namespace Reveille

open Program

variable {D : Domain} {name : D.Service → String} {grace : Duration} {deadline m : Nat} {α β : Type}
  {h : Handle D.Service} {hs : List (Handle D.Service)} {sch : Scheduler D.Service}
  {xs : List (Exchange D.requests)} {results : List (Except RuntimeError Unit)}
  {result : Except RuntimeError Unit}

theorem Activity.routine_bind {f : Activity D α} {g : α → Activity D β} :
    Activity.routine (f.bind g) = f.routine.bind fun v => (g v).routine := interpret_bind _ _ _

namespace Scheduler

open Activity

/-! ### The parts of a shutdown -/

/-- When a timer says that a grace is over which began at `now`. -/
abbrev graceOver (grace : Duration) (now : Nat) : Nat := Duration.tick (now + grace.nanos)

def requestStops (hs : List (Handle D.Service)) : Activity D Unit :=
  each (fun h => perform (.requestStop h)) hs

def opening (hs : List (Handle D.Service)) : Activity D Nat := (requestStops hs).bind fun _ => perform .elapsed

/-- Asks some runners to stop, and waits for all of them up to one deadline. -/
def inspecting (name : D.Service → String) (grace : Duration) (hs : List (Handle D.Service)) :
    Activity D (List (Except RuntimeError Unit)) :=
  (opening hs).bind fun now => awaitAll name grace (graceOver grace now) hs

theorem inspecting_routine : (inspecting name grace hs).routine = (opening hs).routine.bind fun now =>
    (awaitAll name grace (graceOver grace now) hs).routine := routine_bind

theorem opening_routine :
    (opening hs).routine = (requestStops hs).routine.bind fun _ => Routine.query .elapsed := routine_bind

theorem awaitAll_routine : (awaitAll name grace deadline (h :: hs)).routine =
    (awaitOrAbort (name h.service) grace deadline h).routine.bind fun result =>
      (awaitAll name grace deadline hs).routine.bind fun results => .done (result :: results) := by
  refine routine_bind.trans ?_
  congr 1
  funext result
  exact routine_bind

def outcome (name : D.Service → String) (grace : Duration) :
    Handle D.Service × Option Ending → Except RuntimeError Unit
  | (h, some e) => verdict (name h.service) e
  | (h, none) => .error (.graceExceeded grace [name h.service])

/-- What whoever waits for a runner is told. -/
def look (deadline : Nat) (x : Handle D.Service × Option Ending) : List (Exchange D.requests) :=
  ⟨.awaitEnd x.1.runner (some deadline), x.2⟩ :: if x.2.isNone then [⟨.abort x.1.runner, ()⟩] else []

/-- The names of the runners that did not end. -/
def overdue (name : D.Service → String) (found : List (Handle D.Service × Option Ending)) : List String :=
  (found.filter (·.2.isNone)).map fun x => name x.1.service

theorem opening_ready : (opening hs).routine.Only (System.Request.Ready m) := by
  rw [opening_routine]
  refine Only.bind ?_ fun _ => ⟨trivial, fun _ => trivial⟩
  induction hs with
  | nil => exact trivial
  | cons h hs ih => exact ⟨trivial, fun _ => ih⟩

theorem awaitOrAbort_ready {n : String} (le : deadline ≤ m) :
    (awaitOrAbort n grace deadline h).routine.Only (System.Request.Ready m) := by
  refine ⟨⟨deadline, rfl, le⟩, fun reply => ?_⟩
  cases (reply : Option Ending) with
  | some e => exact trivial
  | none => exact ⟨trivial, fun _ => trivial⟩

theorem awaitAll_ready (le : deadline ≤ m) :
    (awaitAll name grace deadline hs).routine.Only (System.Request.Ready m) := by
  induction hs with
  | nil => exact trivial
  | cons h hs ih =>
    rw [awaitAll_routine]
    exact (awaitOrAbort_ready le).bind fun _ => ih.bind fun _ => trivial

theorem inspecting_ready :
    (inspecting name grace hs).routine.Only fun q : System.Request D => ∃ m, q.Ready m := by
  rw [inspecting_routine]
  refine Only.bind (opening_ready.mono fun q h => ⟨0, h⟩) fun now => ?_
  exact (awaitAll_ready le_rfl).mono fun q h => ⟨graceOver grace now, h⟩

def Logs (q : System.Request D) : Prop := ∃ line, q = .log line

def opened (hs : List (Handle D.Service)) (now : Nat) : List (Exchange D.requests) :=
  (hs.map fun h => ⟨.requestStop h.runner, ()⟩) ++ [⟨.elapsed, now⟩]

theorem requestStops_told {r : Routine D Unit} {v : Unit} (path : Path (requestStops hs).routine xs r)
    (ended : r = .done v) : xs = hs.map fun h => ⟨.requestStop h.runner, ()⟩ := by
  induction hs generalizing xs with
  | nil => exact (path.of_done).1
  | cons h hs ih =>
    rcases path.of_ask with ⟨-, rfl⟩ | ⟨_, ys, rfl, onward⟩
    · cases ended
    · rw [ih onward, List.map_cons]

theorem opening_told {now : Nat} (path : Path (opening hs).routine xs (.done now)) :
    xs = opened hs now := by
  rw [opening_routine] at path
  rcases path.of_bind with ⟨q, rest, -, hdone⟩ | ⟨v, ys, zs, rfl, asked, reads⟩
  · cases hdone
  · rcases reads.of_ask with ⟨-, hdone⟩ | ⟨reply, us, rfl, returns⟩
    · cases hdone
    · obtain ⟨rfl, hreply⟩ := returns.of_done
      cases hreply
      rw [requestStops_told asked rfl, opened]

def conclusion (grace : Duration) (names : List String) : Except RuntimeError Unit :=
  if names.isEmpty then .ok () else .error (.graceExceeded grace names)

theorem opening_path (hs : List (Handle D.Service)) (now : Nat) :
    Path (opening hs).routine (opened hs now) (.done now) := by
  have asks : Path (requestStops hs).routine (hs.map fun h => ⟨.requestStop h.runner, ()⟩) (.done ()) := by
    induction hs with
    | nil => exact .refl _
    | cons h hs ih => exact .step ih
  rw [opening_routine]
  exact asks.bind.trans (.step (.refl _))

/-- What a shutdown was told, and what it comes back with: it read the time `now`, found its runners as in
`found`, and closed the bus in the end. -/
structure Told (name : D.Service → String) (sch : Scheduler D.Service) (xs : List (Exchange D.requests))
    (result : Except RuntimeError Unit) (now : Nat) (found : List (Handle D.Service × Option Ending)) :
    Prop where
  every : found.map Prod.fst = sch.handles
  result : result = conclusion sch.grace (overdue name found)
  inspects : Path (inspecting name sch.grace sch.handles).routine
    (opened sch.handles now ++ found.flatMap (look (graceOver sch.grace now)))
    (.done (found.map (outcome name sch.grace)))
  finishes : ∃ ys zs us v, xs = (opened sch.handles now ++
    found.flatMap (look (graceOver sch.grace now))) ++ (ys ++ (zs ++ us)) ∧
    System.Closing zs (.done v) ∧ ∀ x ∈ ys ++ us, Logs x.request

theorem Told.closes {now : Nat} {found : List (Handle D.Service × Option Ending)}
    (h : Told name sch xs result now found) : ∃ first : Bool, ⟨.beginClose, first⟩ ∈ xs := by
  obtain ⟨ys, zs, us, v, rfl, closing, -⟩ := h.finishes
  have asked : ∃ first : Bool, ⟨.beginClose, first⟩ ∈ zs := by
    cases closing with
    | late => exact ⟨false, List.mem_cons_self⟩
    | finished reported nothing => exact ⟨true, List.mem_cons_self⟩
  obtain ⟨first, hfirst⟩ := asked
  exact ⟨first, List.mem_append_right _ (List.mem_append_right _ (List.mem_append_left _ hfirst))⟩

/-- A shutdown that begins closing the bus waits for the worker. -/
theorem Told.waits {now : Nat} {found : List (Handle D.Service × Option Ending)}
    (h : Told name sch xs result now found) (first : ⟨.beginClose, true⟩ ∈ xs) :
    ∃ x ∈ xs, System.reportsEnd x = true := by
  obtain ⟨ys, zs, us, v, rfl, closing, logs⟩ := h.finishes
  have logged {x : Exchange D.requests} (hx : x ∈ ys ++ us) : x.request ≠ .beginClose := by
    obtain ⟨line, hline⟩ := logs x hx
    exact fun h => nomatch hline.symm.trans h
  have early {x : Exchange D.requests} (hx : x ∈ opened sch.handles now ++
      found.flatMap (look (graceOver sch.grace now))) : x.request ≠ .beginClose := by
    obtain ⟨m, ready⟩ := h.inspects.only inspecting_ready x hx
    exact fun h => by rw [h] at ready; exact ready
  cases closing with
  | finished reported nothing =>
    obtain ⟨x, hx, hreports⟩ := List.any_eq_true.mp reported
    exact ⟨x, List.mem_append_right _ (List.mem_append_right _ (List.mem_append_left _
      (List.mem_cons_of_mem _ hx))), hreports⟩
  | late =>
    rcases List.mem_append.mp first with hx | hx
    · exact absurd rfl (early hx)
    · rcases List.mem_append.mp hx with hx | hx
      · exact absurd rfl (logged (List.mem_append_left _ hx))
      · rcases List.mem_cons.mp hx with hx | hx
        · cases hx
        · exact absurd rfl (logged (List.mem_append_right _ hx))

/-! ### What it may wait for -/

theorem offhand_of_logs {q : System.Request D} (h : Logs q) : q.Offhand := by
  obtain ⟨line, rfl⟩ := h
  exact trivial

/-- Before that it waits for nothing beyond the deadline. -/
theorem inspecting_asks {q : System.Request D}
    {rest : q.Reply → Routine D (List (Except RuntimeError Unit))}
    (path : Path (inspecting name grace hs).routine xs (.ask q rest)) :
    (∀ m, q.Ready m) ∨ ∃ now, opened hs now <+: xs ∧ q.Ready (graceOver grace now) := by
  rw [inspecting_routine] at path
  rcases path.of_bind with ⟨q', rest', opens, heq⟩ | ⟨now, ys, zs, rfl, opens, awaits⟩
  · cases heq
    exact Or.inl fun m => (opens.only_rest opening_ready).1
  · obtain rfl := opening_told opens
    exact Or.inr ⟨now, List.prefix_append _ _, (awaits.only_rest (awaitAll_ready le_rfl)).1⟩

end Scheduler

end Reveille
