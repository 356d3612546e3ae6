import Mathlib.Data.List.Basic
import Mathlib.Data.List.Induction
import Reveille.Proofs.Runner.Ledger

/-!
# Handling an event

An event makes the service name some entities, and the runner asks for the due time of each of them before it
goes on.  `Handling` follows a runner through this, whatever is replied.

Every entity that was named is asked about once, in the order of the first naming (`mem_scheduled`,
`scheduled_pairwise`), and nothing else is asked.  The answers are folded into the alarm, the rescan is left
alone, and so the wake that the runner shows in the end is no later than the one before
(`Handling.brings_forward`).
-/

namespace Reveille

section
variable {Id : Type} [DecidableEq Id] {asked : List Id} {id : Id}

theorem scheduled_concat : scheduled (asked ++ [id]) =
    if id ∈ scheduled asked then scheduled asked else scheduled asked ++ [id] := by
  rw [scheduled, List.foldl_append]
  rfl

theorem mem_scheduled : id ∈ scheduled asked ↔ id ∈ asked := by
  induction asked using List.reverseRecOn with
  | nil => exact Iff.rfl
  | append_singleton asked other ih =>
    rw [scheduled_concat]
    by_cases h : other ∈ scheduled asked
    · rw [if_pos h, List.mem_append, List.mem_singleton, ih]
      constructor
      · exact Or.inl
      · rintro (hid | rfl)
        · exact hid
        · exact ih.mp h
    · rw [if_neg h, List.mem_append, List.mem_append, ih]

/-- Who was named first comes first. -/
theorem scheduled_pairwise :
    (scheduled asked).Pairwise fun a b => asked.idxOf a < asked.idxOf b := by
  induction asked using List.reverseRecOn with
  | nil => exact List.Pairwise.nil
  | append_singleton asked other ih =>
    have before : (scheduled asked).Pairwise fun a b =>
        (asked ++ [other]).idxOf a < (asked ++ [other]).idxOf b := by
      refine ih.imp_of_mem ?_
      intro a b ha hb hlt
      rwa [List.idxOf_append_of_mem (mem_scheduled.mp ha),
        List.idxOf_append_of_mem (mem_scheduled.mp hb)]
    rw [scheduled_concat]
    by_cases h : other ∈ scheduled asked
    · rwa [if_pos h]
    · rw [if_neg h, List.pairwise_append]
      refine ⟨before, List.pairwise_singleton _ _, ?_⟩
      intro a ha b hb
      obtain rfl := List.mem_singleton.mp hb
      have ha' : a ∈ asked := mem_scheduled.mp ha
      rw [List.idxOf_append_of_mem ha',
        List.idxOf_append_of_notMem fun hmem => h (mem_scheduled.mpr hmem)]
      exact (List.idxOf_lt_length_iff.mpr ha').trans_le (Nat.le_add_right _ _)

end

namespace Runner

variable {E Id F : Type}

/-- What happens to a runner until it is at the top of its loop again.  Any reply is possible. -/
inductive Handling [DecidableEq Id] (r : Runner E Id F) :
    List (Exchange (requests E Id F)) → Runner E Id F → Prop
  | start : Handling r [] r
  | step {τ : List (Exchange (requests E Id F))} {r' : Runner E Id F} (before : Handling r τ r')
      (underway : r'.phase ≠ .top) (reply : r'.request.Reply) :
      Handling r (τ ++ [⟨r'.request, reply⟩]) (r'.resume reply).1

def answered? : Exchange (requests E Id F) → Option (Id × DueTime)
  | ⟨.checkOne id, (reply : Except ServiceError DueTime)⟩ =>
    match reply with
    | .ok due => some (id, due)
    | .error _ => none
  | _ => none

def answered (τ : List (Exchange (requests E Id F))) : List (Id × DueTime) := τ.filterMap answered?

/-- What a runner `r` has become after the exchanges `ρ`, since an event made its service name the entities
`asked`. -/
structure Informed [DecidableEq Id] (r : Runner E Id F) (asked : List Id)
    (ρ : List (Exchange (requests E Id F))) (r' : Runner E Id F) : Prop where
  /-- Whoever was named is asked about once, in the order of the first naming.  There is no other request, and
  the runner is at the top of its loop when all of these have their reply. -/
  questions : ∃ ids : List Id, ids.Nodup ∧ (∀ id, id ∈ ids ↔ id ∈ asked) ∧
    ids.Pairwise (fun a b => asked.idxOf a < asked.idxOf b) ∧
    ρ.map (·.request) = (ids.take ρ.length).map .checkOne ∧
    (∀ id, ids[ρ.length]? = some id → r'.request = .checkOne id) ∧
    (r'.phase = .top ↔ ρ.length = ids.length)
  rescan : r'.rescanAt = r.rescanAt
  earliest : r'.alarm.due = min r.alarm.due (Alarm.earliestDue (answered ρ))
  kept : ¬ r'.alarm.due < r.alarm.due → r'.alarm = r.alarm
  /-- The alarm is set by the first answer that is as early as that. -/
  moved : r'.alarm.due < r.alarm.due → ∃ id, r'.alarm.id = some id ∧
    (answered ρ).find? (fun item => item.2 = r'.alarm.due) = some (id, r'.alarm.due)
  underway : r'.phase ≠ .top → r'.shown = r.shown
  published : r'.phase = .top → r'.shown = r'.wake ∧ r'.shown.due = min r'.alarm.due r'.rescanAt
  /-- A runner that has come from its beginning shows no later wake than before. -/
  forward : ∀ jitter σ, Run jitter σ r → r'.shown.due ≤ r.shown.due

variable {r r' : Runner E Id F} {e : E} {asked ids : List Id}
  {τ ρ : List (Exchange (requests E Id F))} {x : Exchange (requests E Id F)} {jitter : Jitter}

theorem answered_concat : answered (ρ ++ [x]) = answered ρ ++ (answered? x).toList := by
  rw [answered, List.filterMap_append, ← answered]
  cases h : answered? x <;> simp [h]

def informed (r : Runner E Id F) (ρ : List (Exchange (requests E Id F))) (rest : List Id) :
    Runner E Id F :=
  ({ r with alarm := r.alarm.offerAll (answered ρ) }.check rest).1

@[simp] theorem informed_alarm : (r.informed ρ ids).alarm = r.alarm.offerAll (answered ρ) := by
  cases ids <;> rfl

@[simp] theorem informed_rescanAt : (r.informed ρ ids).rescanAt = r.rescanAt := by
  cases ids <;> rfl

theorem phase_informed : (r.informed ρ ids).phase = .top ↔ ids = [] := by
  cases ids with
  | nil => exact ⟨fun _ => rfl, fun _ => rfl⟩
  | cons id ids => exact ⟨nofun, nofun⟩

section
variable [DecidableEq Id]

theorem resume_informed {id : Id} (reply : Except ServiceError DueTime) :
    ((r.informed ρ (id :: ids)).resume reply).1 =
      r.informed (ρ ++ [⟨.checkOne id, reply⟩]) ids := by
  have folded : r.alarm.offerAll (answered (ρ ++ [⟨.checkOne id, reply⟩])) =
      match reply with
      | .ok due => (r.alarm.offerAll (answered ρ)).offer due (some id)
      | .error _ => r.alarm.offerAll (answered ρ) := by
    rw [answered_concat]
    cases reply with
    | ok due => exact Alarm.offerAll_concat
    | error e => exact congrArg _ (List.append_nil _)
  unfold informed
  rw [folded]
  cases reply <;> cases ids <;> rfl

/-- At every moment some of the entities have been asked about, and the others are ahead. -/
theorem Handling.informed (h : Handling r τ r') (start : r.phase = .receiving e) :
    τ = [] ∧ r' = r ∨ ∃ (asked : List Id) (ρ : List (Exchange (requests E Id F))) (done rest : List Id),
      τ = ⟨.receiveEvent e, asked⟩ :: ρ ∧ scheduled asked = done ++ rest ∧
        ρ.map (·.request) = done.map .checkOne ∧ r' = r.informed ρ rest := by
  induction h with
  | start => exact Or.inl ⟨rfl, rfl⟩
  | @step τ r' before underway reply ih =>
    refine Or.inr ?_
    rcases ih with ⟨rfl, rfl⟩ | ⟨asked, ρ, done, rest, rfl, hasked, hdone, rfl⟩
    · obtain ⟨jitter, alarm, rescanAt, shown, inboxOpen, phase⟩ := r'
      obtain rfl : phase = .receiving e := start
      refine ⟨reply, [], [], scheduled reply, rfl, rfl, rfl, ?_⟩
      show (Runner.check _ (scheduled reply)).1 = _
      unfold Runner.informed
      cases scheduled (reply : List Id) <;> rfl
    · cases rest with
      | nil => exact absurd (phase_informed.mpr rfl) underway
      | cons id rest =>
        refine ⟨asked, ρ ++ [⟨.checkOne id, reply⟩], done ++ [id], rest, rfl, ?_, ?_,
          resume_informed reply⟩
        · rw [hasked, List.append_assoc, List.singleton_append]
        · rw [List.map_append, List.map_append, hdone]
          rfl

omit [DecidableEq Id] in
/-- What is learnt can only make the wake earlier. -/
theorem wakeDue_informed : (r.informed ρ ids).wakeDue ≤ r.wakeDue := by
  unfold wakeDue
  rw [informed_alarm, informed_rescanAt, Alarm.offerAll_due]
  exact min_le_min_right _ (min_le_left _ _)

/-- What a runner that has come from its beginning shows while it has an event at hand is up to date. -/
theorem Run.shown_receiving {σ : List (Exchange (requests E Id F))} (h : Run jitter σ r)
    (start : r.phase = .receiving e) : r.shown = r.wake := by
  have faithful := h.faithful
  unfold Faithful at faithful
  rw [start] at faithful
  exact faithful.2

/-- While a runner handles an event it asks its service about the event and then about the entities that the
service named, and nothing else.  All that changes is the alarm, which becomes the earliest of what it was and
of the answers, and in the end the wake that is shown: an event can only bring it forward. -/
theorem Handling.brings_forward (h : Handling r τ r') (start : r.phase = .receiving e) :
    τ = [] ∧ r' = r ∨ ∃ (asked : List Id) (ρ : List (Exchange (requests E Id F))),
      τ = ⟨.receiveEvent e, asked⟩ :: ρ ∧ Informed r asked ρ r' := by
  rcases h.informed start with hstart | ⟨asked, ρ, done, rest, rfl, hasked, hdone, rfl⟩
  · exact Or.inl hstart
  refine Or.inr ⟨asked, ρ, rfl, ?_⟩
  have hlength : ρ.length = done.length := by
    simpa using congrArg List.length hdone
  refine ⟨⟨scheduled asked, ?_, fun id => mem_scheduled, scheduled_pairwise, ?_, ?_, ?_⟩,
    informed_rescanAt, ?_, ?_, ?_, ?_, ?_, ?_⟩
  · refine scheduled_pairwise.imp ?_
    rintro a _ hlt rfl
    exact lt_irrefl _ hlt
  · rw [hasked, hlength, List.take_left, hdone]
  · intro id hid
    rw [hasked, hlength, List.getElem?_append_right (Nat.le_refl _), Nat.sub_self] at hid
    cases rest with
    | nil => cases hid
    | cons other rest =>
      obtain rfl := Option.some.inj hid
      rfl
  · rw [phase_informed, hasked, hlength, List.length_append, ← List.length_eq_zero_iff]
    omega
  · rw [informed_alarm]
    exact Alarm.offerAll_due
  · intro hlt
    rw [informed_alarm] at hlt ⊢
    rw [Alarm.offerAll_due, min_lt_iff, not_or] at hlt
    rw [Alarm.offerAll_eq, if_neg hlt.2]
  · intro hlt
    rw [informed_alarm] at hlt ⊢
    exact Alarm.find?_of_offerAll_lt hlt
  · intro underway
    cases rest with
    | nil => exact absurd (phase_informed.mpr rfl) underway
    | cons id rest => rfl
  · intro top
    obtain rfl := phase_informed.mp top
    exact ⟨rfl, wake_due⟩
  · intro jitter σ run
    cases rest with
    | nil =>
      rw [run.shown_receiving start]
      show (r.informed ρ []).wake.due ≤ r.wake.due
      rw [wake_due, wake_due]
      exact wakeDue_informed
    | cons id rest => exact le_refl _

/-! ### An event that names entities more than once -/

/-- The runner that waits for an entity that is due at tick 6, with an event at hand. -/
def nudged : Runner Unit Nat Nat := (obey busy 8 (.init .none)).2

/-- The second entity cannot be told; the third and the fourth are due at tick 5. -/
def gossip : (q : Request Unit Nat Nat) → Option q.Reply
  | .receiveEvent _ => some [2, 3, 2, 4, 3]
  | .checkOne 2 => some (.error (.store "gone"))
  | q => busy q

theorem handling_nudged :
    Handling nudged (nudged.obey gossip 4).1 (nudged.obey gossip 4).2 := by
  have named := (Handling.start (r := nudged)).step nofun ([2, 3, 2, 4, 3] : List Nat)
  have failed := named.step nofun (.error (.store "gone") : Except ServiceError DueTime)
  have moved := failed.step nofun (.ok (.moment (tick 5)) : Except ServiceError DueTime)
  exact moved.step nofun (.ok (.moment (tick 5)) : Except ServiceError DueTime)

/-- There are three questions; the alarm moves to tick 5 and belongs to the third entity. -/
theorem brings_forward_nudged :
    (nudged.obey gossip 4).1.map (·.request) =
      [.receiveEvent (), .checkOne 2, .checkOne 3, .checkOne 4] ∧
    (nudged.obey gossip 4).2.shown = ⟨.moment (tick 5), some 3⟩ ∧
    ∃ (asked : List Nat) (ρ : List (Exchange (requests Unit Nat Nat))),
      (nudged.obey gossip 4).1 = ⟨.receiveEvent (), asked⟩ :: ρ ∧
        Informed nudged asked ρ (nudged.obey gossip 4).2 := by
  refine ⟨rfl, by decide +kernel, ?_⟩
  refine (handling_nudged.brings_forward rfl).resolve_left ?_
  rintro ⟨hnil, -⟩
  cases hnil

end

end Runner

end Reveille
