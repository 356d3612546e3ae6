import Reveille.Proofs.Bus.Chronicle
import Reveille.Proofs.Program.Safe

/-!
# Every receiver is told to stop once

A `Worker.Run` is a run of the worker with the phase and the reply of every step; any reply is
possible at any time.  Its chronicle is read off the replies: a command begins an entry, and whoever
says it is retired when the worker tells the retired receivers from the live ones leaves ahead of the
event at hand (`note`).

As long as no receiver panics when asked whether it is retired, the worker does what the chronicle
says, call by call (`Run.faithful`).  So whoever was registered is told to stop once, after all of
their events, when the worker has exited (`Run.stopped_once`).
-/

namespace Reveille.Bus.Worker

open Chronicle

abbrev requests (R E : Type) : Signature := ⟨Phase R E, fun p => p.request.Reply⟩

variable {R E : Type}

def taken? : Exchange (requests R E) → Option (Command R E)
  | ⟨.waiting, (reply : Option (Command R E))⟩ => reply
  | _ => none

def call? : Exchange (requests R E) → Option (Call R E)
  | ⟨.delivering e target _, _⟩ => some (.event target e)
  | ⟨.dismissing _ leaving _, _⟩ => some (.stop leaving)
  | ⟨.stopping leaving _, _⟩ => some (.stop leaving)
  | _ => none

/-- A receiver did not panic when it was asked whether it is retired. -/
def isComposed : Exchange (requests R E) → Bool
  | ⟨.surveying _ _ _, (reply : Except Panic Bool)⟩ => reply.toBool
  | ⟨.sorting _ _ _ _ _, (reply : Except Panic Bool)⟩ => reply.toBool
  | _ => true

def taken (τ : List (Exchange (requests R E))) : List (Command R E) := τ.filterMap taken?

def calls (τ : List (Exchange (requests R E))) : List (Call R E) := τ.filterMap call?

def retire (reg : Registration R) : List (Entry R E) → List (Entry R E)
  | [] => []
  | [.event e retired] => [.event e (retired ++ [reg])]
  | x :: H => x :: retire reg H

def note (H : List (Entry R E)) : Exchange (requests R E) → List (Entry R E)
  | ⟨.waiting, (reply : Option (Command R E))⟩ =>
    match reply with
    | some (.register r) => H ++ [.registered ⟨(Chronicle.registered H).length, r⟩]
    | some (.event e) => H ++ [.event e []]
    | none => H
  | ⟨.sorting _ _ _ asked _, (reply : Except Panic Bool)⟩ =>
    match reply with
    | .ok true => retire asked H
    | _ => H
  | _ => H

/-- What became of the commands so far. -/
def chronicle (τ : List (Exchange (requests R E))) : List (Entry R E) := τ.foldl note []

/-- A run of a worker from its beginning, with the phase and the reply of every step. -/
inductive Run : List (Exchange (requests R E)) → Worker R E → Prop
  | init : Run [] .init
  | step {τ : List (Exchange (requests R E))} {w : Worker R E} (before : Run τ w)
      (reply : w.request.Reply) : Run (τ ++ [⟨w.phase, reply⟩]) (w.resume reply).1

/-- Where a worker stands in its chronicle `H`, after the calls `C`. -/
def Standing (H : List (Entry R E)) (C : List (Call R E)) (w : Worker R E) : Prop :=
  match w.phase with
  | .waiting => w.receivers = live H ∧ w.count = (live H).length ∧ C = Chronicle.calls H
  | .surveying e _ _ => ∃ P, H = P ++ [.event e []] ∧ w.receivers = live P ∧
      w.count = (live P).length ∧ C = Chronicle.calls P
  | .sorting e retired staying asked rest => ∃ P sorted, H = P ++ [.event e retired] ∧
      live P = sorted ++ asked :: rest ∧ retired.Sublist sorted ∧
      staying = (Entry.event e retired).after sorted ∧ C = Chronicle.calls P
  | .dismissing e leaving rest => ∃ P stopped, H = P ++ [.event e (stopped ++ leaving :: rest)] ∧
      w.receivers = live H ∧ C = Chronicle.calls P ++ stopped.map .stop
  | .delivering e target rest => ∃ P retired told, H = P ++ [.event e retired] ∧
      w.receivers = live H ∧ w.count = (live H).length ∧ live H = told ++ target :: rest ∧
      C = Chronicle.calls P ++ retired.map .stop ++ told.map (.event · e)
  | .stopping leaving rest => ∃ stopped, live H = stopped ++ leaving :: rest ∧
      C = Chronicle.calls H ++ stopped.map .stop
  | .exited => C = Chronicle.calls H ++ (live H).map .stop
  | .died _ => False

/-- The worker made the chronicle `H` of the commands `T`, and the calls `C` that belong to it. -/
structure Faithful (H : List (Entry R E)) (C : List (Call R E)) (T : List (Command R E))
    (w : Worker R E) : Prop where
  commands : H.map Entry.command = T
  valid : Valid H
  number : w.registered = (Chronicle.registered H).length
  standing : Standing H C w

variable {τ : List (Exchange (requests R E))} {w : Worker R E} {H P : List (Entry R E)}
  {C : List (Call R E)} {T : List (Command R E)} {e : E} {retired : List (Registration R)}

/-! ### Parts of the handling of an event -/

theorem standing_deliverTo (told : List (Registration R)) {l : List (Registration R)}
    (hH : H = P ++ [.event e retired])
    (receivers : w.receivers = live H) (count : w.count = (live H).length)
    (hlive : live H = told ++ l)
    (hC : C = Chronicle.calls P ++ retired.map .stop ++ told.map (.event · e)) :
    Standing H C (w.deliverTo e l) := by
  cases l with
  | nil =>
    refine ⟨receivers, count, ?_⟩
    rw [List.append_nil, hH, live_concat] at hlive
    rw [hC, hH, calls_concat, Entry.calls, hlive, List.append_assoc]
  | cons target rest => exact ⟨P, retired, told, hH, receivers, count, hlive, hC⟩

theorem standing_dismiss (stopped : List (Registration R)) {l : List (Registration R)}
    (hH : H = P ++ [.event e (stopped ++ l)]) (receivers : w.receivers = live H)
    (hC : C = Chronicle.calls P ++ stopped.map .stop) :
    Standing H C (w.dismiss e l).1 := by
  cases l with
  | nil =>
    rw [List.append_nil] at hH
    refine standing_deliverTo [] hH receivers (congrArg List.length receivers) ?_ ?_
    · exact receivers.symm
    · rw [hC, List.map_nil, List.append_nil]
  | cons leaving rest => exact ⟨P, stopped, hH, receivers, hC⟩

theorem standing_sort (sorted : List (Registration R)) {l staying : List (Registration R)}
    (hH : H = P ++ [.event e retired]) (hlive : live P = sorted ++ l)
    (leave : retired.Sublist sorted) (hstay : staying = (Entry.event e retired).after sorted)
    (hC : C = Chronicle.calls P) : Standing H C (w.sort e retired staying l).1 := by
  cases l with
  | nil =>
    rw [List.append_nil] at hlive
    refine standing_dismiss [] hH ?_ (hC.trans (List.append_nil _).symm)
    rw [hH, live_concat, hlive, ← hstay]
  | cons asked rest => exact ⟨P, sorted, hH, hlive, leave, hstay, hC⟩

theorem standing_survey {l : List (Registration R)} (hH : H = P ++ [.event e []])
    (receivers : w.receivers = live P) (count : w.count = (live P).length)
    (hC : C = Chronicle.calls P) : Standing H C (w.survey e l).1 := by
  have hlive : live H = live P := by rw [hH, live_concat, after_event_nil]
  cases l with
  | nil =>
    rw [← hlive] at receivers count
    refine standing_deliverTo [] hH receivers count receivers.symm ?_
    simp [hC]
  | cons asked rest => exact ⟨P, hH, receivers, count, hC⟩

theorem standing_stopAll (stopped : List (Registration R)) {l : List (Registration R)}
    (hlive : live H = stopped ++ l)
    (hC : C = Chronicle.calls H ++ stopped.map .stop) : Standing H C (w.stopAll l).1 := by
  cases l with
  | nil =>
    rw [List.append_nil] at hlive
    exact hC.trans (hlive ▸ rfl)
  | cons leaving rest => exact ⟨stopped, hlive, hC⟩

/-! ### Replies -/

theorem retire_concat (reg : Registration R) : retire reg (P ++ [.event e retired]) =
    P ++ [.event e (retired ++ [reg])] := by
  induction P with
  | nil => rfl
  | cons x P ih =>
    cases P with
    | nil => cases x <;> rfl
    | cons y P => cases x <;> exact congrArg (List.cons _) ih

@[simp] theorem registered_deliverTo {l : List (Registration R)} :
    (w.deliverTo e l).registered = w.registered := by
  cases l <;> rfl

@[simp] theorem registered_dismiss {l : List (Registration R)} :
    (w.dismiss e l).1.registered = w.registered := by
  cases l with
  | nil => exact registered_deliverTo
  | cons leaving rest => rfl

@[simp] theorem registered_sort {staying l : List (Registration R)} :
    (w.sort e retired staying l).1.registered = w.registered := by
  cases l with
  | nil => exact registered_dismiss
  | cons asked rest => rfl

@[simp] theorem registered_survey {l : List (Registration R)} :
    (w.survey e l).1.registered = w.registered := by
  cases l with
  | nil => exact registered_deliverTo
  | cons asked rest => rfl

@[simp] theorem registered_stopAll {l : List (Registration R)} :
    (w.stopAll l).1.registered = w.registered := by
  cases l <;> rfl

section
variable {asked : Registration R} {sorted rest : List (Registration R)}

/-- Nobody told apart before has the number of the receiver that is asked next. -/
theorem number_ne (hnodup : ((sorted ++ asked :: rest).map (·.number)).Nodup) {reg : Registration R}
    (hreg : reg ∈ sorted) : reg.number ≠ asked.number := by
  rw [List.map_append, List.nodup_append] at hnodup
  exact hnodup.2.2 _ (List.mem_map_of_mem hreg) _ (List.mem_map_of_mem List.mem_cons_self)

theorem after_retired (hnodup : ((sorted ++ asked :: rest).map (·.number)).Nodup) :
    (Entry.event e (retired ++ [asked])).after (sorted ++ [asked]) =
      (Entry.event e retired).after sorted := by
  have hsorted : sorted.filter (fun reg => !(retired ++ [asked]).any (·.number == reg.number)) =
      sorted.filter fun reg => !retired.any (·.number == reg.number) := by
    refine List.filter_congr fun reg hreg => ?_
    simp [(number_ne hnodup hreg).symm]
  rw [Entry.after, List.filter_append, hsorted]
  simp [Entry.after]

theorem after_staying (hnodup : ((sorted ++ asked :: rest).map (·.number)).Nodup)
    (leave : retired.Sublist sorted) : (Entry.event e retired).after (sorted ++ [asked]) =
      (Entry.event e retired).after sorted ++ [asked] := by
  have hasked : retired.any (·.number == asked.number) = false := by
    simpa using fun reg hreg => number_ne hnodup (leave.subset hreg)
  simp [Entry.after, hasked]

end

theorem taken_concat (x : Exchange (requests R E)) : taken (τ ++ [x]) = taken τ ++ (taken? x).toList := by
  rw [taken, List.filterMap_append]
  cases h : taken? x <;> simp [h, taken]

theorem calls_concat (x : Exchange (requests R E)) : calls (τ ++ [x]) = calls τ ++ (call? x).toList := by
  rw [calls, List.filterMap_append]
  cases h : call? x <;> simp [h, calls]

theorem chronicle_concat (x : Exchange (requests R E)) : chronicle (τ ++ [x]) = note (chronicle τ) x := by
  rw [chronicle, List.foldl_append]
  rfl

theorem Faithful.take (h : Faithful H C T w) (waiting : w.phase = .waiting)
    (reply : Option (Command R E)) :
    Faithful (note H ⟨.waiting, reply⟩) C (T ++ reply.toList) (w.next .waiting reply).1 := by
  obtain ⟨receivers, registered, count, phase⟩ := w
  obtain rfl : phase = .waiting := waiting
  obtain ⟨hcommands, hvalid, hnumber, hreceivers, hcount, rfl⟩ := h
  obtain rfl : receivers = live H := hreceivers
  obtain rfl : registered = (Chronicle.registered H).length := hnumber
  match reply with
  | none =>
    refine ⟨hcommands.trans (List.append_nil _).symm, hvalid, registered_stopAll, ?_⟩
    exact standing_stopAll [] rfl (List.append_nil _).symm
  | some (.register r) =>
    have hlive := live_concat (H := H) (x := .registered ⟨(Chronicle.registered H).length, r⟩)
    refine ⟨by rw [← hcommands]; exact List.map_append, hvalid.register r, ?_, hlive.symm,
      (congrArg List.length hlive).symm, ?_⟩
    · show _ = (Chronicle.registered (H ++ [_])).length
      rw [registered_concat, List.length_append]
      rfl
    · show _ = Chronicle.calls (H ++ [_])
      rw [Chronicle.calls_concat]
      exact (List.append_nil _).symm
  | some (.event e) =>
    refine ⟨by rw [← hcommands]; exact List.map_append, hvalid.fanOut e (List.nil_sublist _), ?_,
      standing_survey rfl rfl hcount rfl⟩
    show _ = (Chronicle.registered (H ++ [_])).length
    rw [registered_concat, Entry.registered?, Option.toList_none, List.append_nil]
    exact registered_survey

/-- Who says it is retired leaves ahead of the event; who does not stays. -/
theorem Faithful.sort {staying rest : List (Registration R)} {asked : Registration R}
    (h : Faithful H C T w) (sorting : w.phase = .sorting e retired staying asked rest) (out : Bool) :
    Faithful (note H ⟨.sorting e retired staying asked rest, .ok out⟩) C T
      (w.next (.sorting e retired staying asked rest) (.ok out)).1 := by
  obtain ⟨receivers, registered, count, phase⟩ := w
  obtain rfl : phase = _ := sorting
  obtain ⟨hcommands, hvalid, hnumber, P, sorted, rfl, hlive, leave, rfl, rfl⟩ := h
  have hP : Valid P := hvalid.init
  have hnodup := hP.nodup_live
  rw [hlive] at hnodup
  rw [List.append_cons] at hlive
  cases out with
  | true =>
    have leave' := leave.append (List.Sublist.refl [asked])
    show Faithful (retire asked (P ++ [.event e retired])) _ _ _
    rw [retire_concat]
    refine ⟨?_, hP.fanOut e ?_, ?_,
      standing_sort (sorted ++ [asked]) rfl hlive leave' (after_retired hnodup).symm rfl⟩
    · rw [← hcommands, List.map_append, List.map_append]
      rfl
    · rw [hlive]
      exact leave'.trans (List.sublist_append_left _ _)
    · rw [registered_concat] at hnumber ⊢
      exact registered_sort.trans hnumber
  | false =>
    exact ⟨hcommands, hvalid, registered_sort.trans hnumber, standing_sort (sorted ++ [asked]) rfl
      hlive (leave.trans (List.sublist_append_left _ _)) (after_staying hnodup leave).symm rfl⟩

theorem Faithful.step (h : Faithful H C T w) (reply : w.request.Reply)
    (composed : isComposed ⟨w.phase, reply⟩ = true) :
    Faithful (note H ⟨w.phase, reply⟩) (C ++ (call? ⟨w.phase, reply⟩).toList)
      (T ++ (taken? ⟨w.phase, reply⟩).toList) (w.resume reply).1 := by
  obtain ⟨receivers, registered, count, phase⟩ := w
  have silent {H' : List (Entry R E)} {w' : Worker R E} (h : Faithful H' C T w') :
      Faithful H' (C ++ []) (T ++ []) w' := by
    rw [List.append_nil, List.append_nil]
    exact h
  have called {call : Call R E} {w' : Worker R E} (number : w'.registered = registered)
      (standing : Standing H (C ++ [call]) w') : Faithful H (C ++ [call]) (T ++ []) w' :=
    ⟨h.commands.trans (List.append_nil _).symm, h.valid, number.trans h.number, standing⟩
  cases phase with
  | waiting =>
    have := h.take rfl reply
    rw [← List.append_nil C] at this
    exact this
  | surveying e asked rest =>
    obtain ⟨hcommands, hvalid, hnumber, P, rfl, hreceivers, hcount, rfl⟩ := h
    match reply with
    | .ok true =>
      exact silent ⟨hcommands, hvalid, registered_sort.trans hnumber,
        standing_sort [] rfl hreceivers.symm (List.Sublist.refl _) rfl rfl⟩
    | .ok false =>
      exact silent ⟨hcommands, hvalid, registered_survey.trans hnumber,
        standing_survey rfl hreceivers hcount rfl⟩
    | .error p => cases composed
  | sorting e retired staying asked rest =>
    match reply with
    | .ok out => exact silent (h.sort rfl out)
    | .error p => cases composed
  | dismissing e leaving rest =>
    obtain ⟨P, stopped, rfl, hreceivers, rfl⟩ := h.standing
    refine called registered_dismiss
      (standing_dismiss (P := P) (stopped ++ [leaving]) ?_ hreceivers ?_)
    · rw [List.append_cons stopped]
    · rw [List.map_append, ← List.append_assoc]
      rfl
  | delivering e target rest =>
    obtain ⟨P, retired, told, rfl, hreceivers, hcount, hlive, rfl⟩ := h.standing
    refine called registered_deliverTo
      (standing_deliverTo (told ++ [target]) rfl hreceivers hcount ?_ ?_)
    · exact hlive.trans (List.append_cons _ _ _)
    · rw [List.map_append, ← List.append_assoc]
      rfl
  | stopping leaving rest =>
    obtain ⟨stopped, hlive, rfl⟩ := h.standing
    refine called registered_stopAll (standing_stopAll (stopped ++ [leaving]) ?_ ?_)
    · exact hlive.trans (List.append_cons _ _ _)
    · rw [List.map_append, ← List.append_assoc]
      rfl
  | exited => cases reply
  | died p => cases reply

theorem Run.faithful (h : Run τ w) (composed : τ.all isComposed = true) :
    Faithful (chronicle τ) (calls τ) (taken τ) w := by
  induction h with
  | init => exact ⟨rfl, .nil, rfl, rfl, rfl, rfl⟩
  | step before reply ih =>
    rw [List.all_append, Bool.and_eq_true] at composed
    obtain ⟨hbefore, hnow⟩ := composed
    rw [List.all_cons, List.all_nil, Bool.and_true] at hnow
    rw [chronicle_concat, calls_concat, taken_concat]
    exact (ih hbefore).step reply hnow

/-- While an event is handed out, the calls before have come to their end, and those left follow in
the order of the list. -/
theorem Faithful.calls_delivering {target : Registration R} {rest : List (Registration R)}
    (h : Faithful H C T w) (delivering : w.phase = .delivering e target rest) :
    C ++ (target :: rest).map (.event · e) = Chronicle.calls H := by
  obtain ⟨receivers, registered, count, phase⟩ := w
  obtain rfl : phase = _ := delivering
  obtain ⟨P, retired, told, rfl, -, -, hlive, rfl⟩ := h.standing
  rw [live_concat] at hlive
  rw [Chronicle.calls_concat, Entry.calls, hlive, List.map_append, List.append_assoc,
    List.append_assoc]

theorem Faithful.calls_over (h : Faithful H C T w) (exited : w.phase.isOver = true) :
    w.phase = .exited ∧ C = Chronicle.calls H ++ (live H).map .stop := by
  obtain ⟨receivers, registered, count, phase⟩ := w
  have hstanding := h.standing
  cases phase with
  | exited => exact ⟨rfl, hstanding⟩
  | died p => exact False.elim hstanding
  | _ => cases exited

/-- The calls that came to their end are the first of those of the chronicle. -/
theorem Faithful.calls_prefix (h : Faithful H C T w) :
    C <+: Chronicle.calls H ++ (live H).map .stop := by
  obtain ⟨receivers, registered, count, phase⟩ := w
  have hstanding := h.standing
  cases phase with
  | waiting =>
    obtain ⟨-, -, rfl⟩ := hstanding
    exact List.prefix_append _ _
  | surveying e asked rest =>
    obtain ⟨P, rfl, -, -, rfl⟩ := hstanding
    rw [Chronicle.calls_concat, List.append_assoc]
    exact List.prefix_append _ _
  | sorting e retired staying asked rest =>
    obtain ⟨P, sorted, rfl, -, -, -, rfl⟩ := hstanding
    rw [Chronicle.calls_concat, List.append_assoc]
    exact List.prefix_append _ _
  | dismissing e leaving rest =>
    obtain ⟨P, stopped, rfl, -, rfl⟩ := hstanding
    rw [Chronicle.calls_concat, Entry.calls, List.map_append, List.append_assoc (List.map _ stopped),
      ← List.append_assoc (Chronicle.calls P), List.append_assoc]
    exact List.prefix_append _ _
  | delivering e target rest =>
    rw [← h.calls_delivering rfl, List.append_assoc]
    exact List.prefix_append _ _
  | stopping leaving rest =>
    obtain ⟨stopped, hlive, rfl⟩ := hstanding
    rw [hlive, List.map_append, ← List.append_assoc]
    exact List.prefix_append _ _
  | exited => exact hstanding ▸ List.prefix_rfl
  | died p => exact False.elim hstanding

/-- Between two commands everybody was handed the events that they were there for. -/
theorem Faithful.events_to {reg : Registration R} (h : Faithful H C T w)
    (between : w.phase = .waiting ∨ w.phase = .exited) (hreg : reg ∈ Chronicle.registered H) :
    C.filterMap (Call.eventTo? reg.number) = heard reg.number H := by
  obtain ⟨receivers, registered, count, phase⟩ := w
  have hstanding := h.standing
  rcases between with waiting | exited
  · obtain rfl : phase = .waiting := waiting
    obtain ⟨-, -, rfl⟩ := hstanding
    exact h.valid.events_to hreg
  · obtain rfl : phase = .exited := exited
    obtain rfl : C = _ := hstanding
    have hstops : ((live H).map Call.stop).filterMap (Call.eventTo? (E := E) reg.number) = [] :=
      List.filterMap_eq_nil_iff.mpr fun call hcall => by
        obtain ⟨_, -, rfl⟩ := List.mem_map.mp hcall
        rfl
    rw [List.filterMap_append, hstops, List.append_nil]
    exact h.valid.events_to hreg

def Phase.isServing : Phase R E → Bool
  | .waiting | .delivering _ _ _ => true
  | _ => false

/-- At every wait and every delivery the worker counts those who are registered and did not leave, and
keeps them in the order of registration.  Once it has exited, everybody who was registered was told to
stop once, after all of their events: those who left directly ahead of the event at hand, the others at
the end. -/
theorem Run.stopped_once (h : Run τ w) (composed : τ.all isComposed = true) :
    (w.phase.isServing = true → w.receivers = live (chronicle τ) ∧
      (live (chronicle τ)).Sublist (Chronicle.registered (chronicle τ)) ∧
      w.count = (live (chronicle τ)).length) ∧
    (w.phase = .exited → Valid (chronicle τ) ∧ (chronicle τ).map Entry.command = taken τ ∧
      calls τ = Chronicle.calls (chronicle τ) ++ (live (chronicle τ)).map .stop ∧
      ∀ reg ∈ Chronicle.registered (chronicle τ), (calls τ).filter (·.isTo reg.number) =
        (heard reg.number (chronicle τ)).map (.event reg) ++ [.stop reg]) := by
  obtain ⟨hcommands, hvalid, -, hstanding⟩ := h.faithful composed
  obtain ⟨receivers, registered, count, phase⟩ := w
  constructor
  · intro serving
    cases phase with
    | waiting => exact ⟨hstanding.1, hvalid.live_sublist, hstanding.2.1⟩
    | delivering e target rest =>
      obtain ⟨_, _, _, -, hreceivers, hcount, -⟩ := hstanding
      exact ⟨hreceivers, hvalid.live_sublist, hcount⟩
    | _ => cases serving
  · rintro rfl
    have hcalls : calls τ = _ := hstanding
    refine ⟨hvalid, hcommands, hcalls, fun reg hreg => ?_⟩
    rw [hcalls]
    exact hvalid.calls_at_end hreg

/-! ### A receiver that changes its mind -/

/-- What happens to a worker in `n` steps, when the reply to the step of a number is known. -/
def follow (answer : Nat → (p : Phase R E) → Option p.request.Reply) :
    Nat → List (Exchange (requests R E)) × Worker R E
  | 0 => ([], .init)
  | n + 1 =>
    let (τ, w) := follow answer n
    match answer n w.phase with
    | none => (τ, w)
    | some reply => (τ ++ [⟨w.phase, reply⟩], (w.resume reply).1)

theorem run_follow (answer : Nat → (p : Phase R E) → Option p.request.Reply) (n : Nat) :
    Run (follow answer n).1 (follow answer n).2 := by
  induction n with
  | zero => exact .init
  | succ n ih =>
    unfold follow
    dsimp only
    split
    · exact ih
    · next reply _ => exact ih.step reply

/-- Receiver 7 is registered twice. Ahead of event 1 its first registration says that it is retired,
but not when it is asked again; its second leaves then, and panics. -/
def moody : Nat → (p : Phase Nat Nat) → Option p.request.Reply
  | 0, .waiting | 1, .waiting => some (some (.register 7))
  | 2, .waiting => some (some (.register 8))
  | 3, .waiting => some (some (.event 1))
  | 11, .waiting => some (some (.event 2))
  | _, .waiting => some none
  | 4, .surveying _ _ _ => some (.ok true)
  | _, .surveying _ _ _ => some (.ok false)
  | _, .sorting _ _ _ asked _ => some (.ok (asked.number == 1))
  | _, .dismissing _ _ _ => some (.error ⟨some "no"⟩)
  | _, .delivering _ _ _ => some (.ok ())
  | _, .stopping _ _ => some (.ok ())
  | _, _ => none

theorem stopped_once_moody : (follow moody 19).2.phase = .exited ∧
    calls (follow moody 19).1 = [.stop ⟨1, 7⟩, .event ⟨0, 7⟩ 1, .event ⟨2, 8⟩ 1, .event ⟨0, 7⟩ 2,
      .event ⟨2, 8⟩ 2, .stop ⟨0, 7⟩, .stop ⟨2, 8⟩] ∧
    (calls (follow moody 19).1).filter (·.isTo 1) = [.stop ⟨1, 7⟩] := by
  have exited : (follow moody 19).2.phase = .exited := rfl
  have composed : (follow moody 19).1.all isComposed = true := by decide +kernel
  have registered : Chronicle.registered (chronicle (follow moody 19).1) = [⟨0, 7⟩, ⟨1, 7⟩, ⟨2, 8⟩] := by
    decide +kernel
  obtain ⟨-, -, hcalls, each⟩ := ((run_follow moody 19).stopped_once composed).2 exited
  refine ⟨exited, hcalls.trans (by decide +kernel), ?_⟩
  have heard : heard 1 (chronicle (follow moody 19).1) = [] := by decide +kernel
  exact (each ⟨1, 7⟩ (by rw [registered]; decide)).trans (by rw [heard]; rfl)

end Reveille.Bus.Worker
