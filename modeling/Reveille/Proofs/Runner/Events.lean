import Reveille.Proofs.Runner.Prompt

/-!
# Events and the service

What a runner takes from its inbox it gives to its service at once, event by event (`Run.given_eq`).  In its
seeding pass it takes nothing (`Run.taken_seeding`), and it waits for events until it is told that there
will be none (`Advance.inbox`).
-/

namespace Reveille.Runner

variable {E Id F : Type}

/-- The event that the service was given and is done with. -/
def received? : Exchange (requests E Id F) → Option E
  | ⟨.receiveEvent e, _⟩ => some e
  | _ => none

def Phase.event? : Phase E Id F → Option E
  | .receiving e => some e
  | _ => none

def given (τ : List (Exchange (requests E Id F))) (r : Runner E Id F) : List E :=
  τ.filterMap received? ++ r.phase.event?.toList

def isLast : Exchange (requests E Id F) → Bool
  | ⟨.wait _ _, (woken : Woken E)⟩ =>
    match woken with
    | .inboxEnded => true
    | _ => false
  | _ => false

/-- What a reply does to a runner, as far as events go. -/
structure Advance (r : Runner E Id F) (x : Exchange (requests E Id F)) (r' : Runner E Id F) : Prop where
  event : r'.phase.event? = taken? x
  seeding : r'.phase.isSeeding = true → r.phase.isSeeding = true
  inbox : r'.inboxOpen = r.inboxOpen ∨ isLast x = true

/-- The runner is past its seeding pass and has no event at hand. -/
structure Beyond (r r' : Runner E Id F) : Prop where
  event : r'.phase.event? = none
  seeding : r'.phase.isSeeding = false
  inbox : r'.inboxOpen = r.inboxOpen

variable {r r' : Runner E Id F} {τ : List (Exchange (requests E Id F))} {jitter : Jitter}

theorem Beyond.advance (h : Beyond r r') {x : Exchange (requests E Id F)} (hx : taken? x = none) :
    Advance r x r' := by
  refine ⟨h.event.trans hx.symm, fun seeding => ?_, Or.inl h.inbox⟩
  rw [h.seeding] at seeding
  cases seeding

theorem beyond_check {ids : List Id} : Beyond r (r.check ids).1 := by
  cases ids <;> exact ⟨rfl, rfl, rfl⟩

theorem beyond_process {next : Alarm Id} {ids : List Id} : Beyond r (r.process next ids).1 := by
  cases ids <;> exact ⟨rfl, rfl, rfl⟩

theorem Beyond.of_learn {id : Id} {due : DueTime} (h : Beyond (r.learn id due).1 r') : Beyond r r' :=
  ⟨h.event, h.seeding, h.inbox⟩

theorem received?_request (reply : r.request.Reply) :
    received? ⟨r.request, reply⟩ = r.phase.event? := by
  obtain ⟨jitter, alarm, rescanAt, shown, inboxOpen, phase⟩ := r
  cases phase <;> rfl

section
variable [DecidableEq Id]

/-- Only an event from the inbox brings the runner to its service with an event. -/
theorem advance_resume (reply : r.request.Reply) :
    Advance r ⟨r.request, reply⟩ (r.resume reply).1 := by
  have turned := turned_resume r reply
  generalize r.resume reply = turn at turned ⊢
  cases turned with
  | seeding => exact ⟨rfl, id, Or.inl rfl⟩
  | scanning r pass | item r pass | itemFailed r pass =>
    cases pass <;> exact ⟨rfl, id, Or.inl rfl⟩
  | collected r pass =>
    cases pass with
    | seed => exact ⟨rfl, fun _ => rfl, Or.inl rfl⟩
    | wake => exact beyond_process.advance rfl
  | inboxEnded => exact ⟨rfl, nofun, Or.inr rfl⟩
  | receiving | checkFailed => exact beyond_check.advance rfl
  | checked => exact beyond_check.of_learn.advance rfl
  | processFailed | recheckFailed | stillDue | dueLater => exact beyond_process.advance rfl
  | _ => exact ⟨rfl, nofun, Or.inl rfl⟩

theorem Run.given_eq (h : Run jitter τ r) : given τ r = taken τ := by
  induction h with
  | init => rfl
  | @step τ r before reply ih =>
    have hreceived := received?_request reply
    rw [taken_concat, ← ih, given, given, List.filterMap_append, (advance_resume reply).event]
    cases hevent : r.phase.event? <;> rw [hevent] at hreceived <;> simp [hreceived]

theorem Run.taken_seeding (h : Run jitter τ r) (seeding : r.phase.isSeeding = true) :
    taken τ = [] := by
  induction h with
  | init => rfl
  | @step τ r before reply ih =>
    have advance := advance_resume reply
    have hevent : (r.resume reply).1.phase.event? = none := by
      cases hp : (r.resume reply).1.phase <;> rw [hp] at seeding <;> first | rfl | cases seeding
    rw [taken_concat, ih (advance.seeding seeding), ← advance.event, hevent]
    rfl

end

end Reveille.Runner
