import Reveille.Proofs.Poll.Settlement

/-!
# Scanning, checking and processing agree

A service applies the rule of its duty in three places, and each of them loads the polls on its own: in a scan
over the store, in the check of one poll, and before it processes one.  Run alone at one reading of the clock
they agree on the due times of the store (`Duty.dueTimes`): a scan gives them one by one (`alone_items`), a
check gives that of one poll and `never` for a poll that is not there (`alone_check`, `alone_check_missing`),
and a poll is processed if its due time has come, and left alone otherwise (`alone_process`,
`alone_process_missing`).  All of this together is `agrees_dueTimes`.
-/

namespace Reveille.Poll

open Program Procedure

variable {now : Instant} {s s' : Store} {τ : List (Exchange requests)} {id : Id} {p : Poll} {d : Duty}
  {m : Move} {due : DueTime}

def Duty.dueTimes (d : Duty) (now : Instant) (s : Store) : List (Id × DueTime) :=
  s.polls.map fun p => (p.id, d.due p now)

theorem mem_dueTimes : (id, due) ∈ d.dueTimes now s ↔ ∃ p, s.find? id = some p ∧ d.due p now = due := by
  simp only [Duty.dueTimes, List.mem_map, Prod.mk.injEq, Store.find?_eq_some_iff, and_assoc]

theorem alone_items {l : List (Reported Id)} (h : Alone now d.items.collect s τ l s') :
    l = (d.dueTimes now s).map .ok ∧ handedOver τ = [] ∧ s' = s := by
  obtain ⟨reading, s₁, τ₁, rfl, ⟨rfl, rfl⟩, read⟩ := Alone.of_ask h
  obtain ⟨reply, s₂, τ₂, rfl, hall, listed⟩ := Alone.of_ask read
  obtain ⟨rfl, rfl⟩ := Prod.mk.inj hall
  change Alone reading (Feed.collect (.ofList (s₁.polls.map fun p => .ok (p.id, d.due p reading)))) s₁ τ₂ l s'
    at listed
  rw [Feed.collect_ofList] at listed
  obtain ⟨rfl, rfl, rfl⟩ := Alone.of_done listed
  refine ⟨?_, rfl, rfl⟩
  rw [Duty.dueTimes, List.map_map]
  rfl

theorem alone_check {a : Except ServiceError DueTime} (stored : s.find? id = some p)
    (h : (d.check id).Alone now s τ a s') : a = .ok (d.due p now) ∧ handedOver τ = [] ∧ s' = s := by
  obtain ⟨reply, s₁, τ₁, rfl, hget, loaded⟩ := Alone.of_ask h
  obtain ⟨rfl, ⟨p', hp', rfl⟩ | ⟨hnone, -⟩⟩ := Store.answer_get hget
  · obtain rfl := Option.some.inj (hp'.symm.trans stored)
    obtain ⟨reading, s₂, τ₂, rfl, ⟨rfl, rfl⟩, read⟩ := Alone.of_ask loaded
    obtain ⟨rfl, rfl, rfl⟩ := Alone.of_done read
    exact ⟨rfl, rfl, rfl⟩
  · rw [stored] at hnone
    cases hnone

theorem alone_missing {α : Type} {f : Except StoreError Poll → Procedure α} {a v : α}
    (missing : s.find? id = none) (h : Alone now (.ask (.store (.get id)) f) s τ a s')
    (ends : f (.error (.notFound id)) = .done v) : a = v ∧ handedOver τ = [] ∧ s' = s := by
  obtain ⟨reply, s₁, τ₁, rfl, hget, loaded⟩ := Alone.of_ask h
  obtain ⟨rfl, ⟨p', hp', -⟩ | ⟨-, rfl⟩⟩ := Store.answer_get hget
  · rw [missing] at hp'
    cases hp'
  · rw [ends] at loaded
    obtain ⟨rfl, rfl, rfl⟩ := Alone.of_done loaded
    exact ⟨rfl, rfl, rfl⟩

theorem alone_check_missing {a : Except ServiceError DueTime} (missing : s.find? id = none)
    (h : (d.check id).Alone now s τ a s') : a = .ok .never ∧ handedOver τ = [] ∧ s' = s :=
  alone_missing missing h rfl

theorem alone_process_missing {a : Except ServiceError Processed} (missing : s.find? id = none)
    (h : (d.process id).Alone now s τ a s') : a = .ok .nothingToDoYet ∧ handedOver τ = [] ∧ s' = s :=
  alone_missing missing h rfl

/-- A move that is due leaves no store as it was. -/
theorem setState_ne (stored : s.find? id = some p) (isDue : (d.due p now).isDue now = true)
    (move : d.move? p now = some m) : s.setState id m.next ≠ s := by
  intro heq
  have hturned := find?_turned stored m.next
  rw [heq, stored, Option.some.injEq] at hturned
  have hlt := changesLeft_lt isDue move
  rw [hturned] at hlt
  exact Nat.lt_irrefl _ hlt

/-- The three ways in which a service applies its rule agree on the due times `due` of the polls of `s`. -/
structure Duty.Agrees (d : Duty) (now : Instant) (s : Store) (times : List (Id × DueTime)) : Prop where
  ascending : times.Pairwise fun x y => x.1.number < y.1.number
  complete : ∀ id, id ∈ times.map Prod.fst ↔ ∃ p, s.find? id = some p
  /-- A scan, a check and the processing of a poll come to an end. -/
  ends : (∃ τ l s', Alone now d.items.collect s τ l s') ∧
    ∀ id, (∃ τ a s', (d.check id).Alone now s τ a s') ∧ ∃ τ a s', (d.process id).Alone now s τ a s'
  scan : ∀ {τ l s'}, Alone now d.items.collect s τ l s' → l = times.map .ok ∧ handedOver τ = [] ∧ s' = s
  check : ∀ {id due τ a s'}, (id, due) ∈ times → (d.check id).Alone now s τ a s' →
    a = .ok due ∧ handedOver τ = [] ∧ s' = s
  unknown : ∀ {id τ a s'}, s.find? id = none → (d.check id).Alone now s τ a s' →
    a = .ok .never ∧ handedOver τ = [] ∧ s' = s
  /-- What is due is processed. -/
  apply : ∀ {id due τ a s'}, (id, due) ∈ times → due ≤ .moment now → (d.process id).Alone now s τ a s' →
    ∃ p m, s.find? id = some p ∧ d.move? p now = some m ∧ s' = s.setState id m.next ∧ s' ≠ s ∧
      handedOver τ = [m.event] ∧ a = .ok m.outcome ∧ m.outcome ≠ .nothingToDoYet
  /-- What is not due, or not there, is left alone. -/
  refuse : ∀ {id τ a s'}, (∀ due, (id, due) ∈ times → ¬due ≤ .moment now) →
    (d.process id).Alone now s τ a s' → a = .ok .nothingToDoYet ∧ handedOver τ = [] ∧ s' = s

theorem agrees_dueTimes (d : Duty) (now : Instant) (s : Store) : d.Agrees now s (d.dueTimes now s) := by
  have ends {α : Type} (P : Procedure α) : ∃ τ a s', P.Alone now s τ a s' :=
    ⟨_, _, _, alone_runAlone P now s⟩
  constructor
  · exact List.pairwise_map.mpr s.ascending
  · intro id
    rw [Duty.dueTimes, List.map_map, List.mem_map]
    simp only [Function.comp_apply, Store.find?_eq_some_iff]
  · exact ⟨ends _, fun id => ⟨ends _, ends _⟩⟩
  · exact alone_items
  · intro id due τ a s' hmem h
    obtain ⟨p, stored, rfl⟩ := mem_dueTimes.mp hmem
    exact alone_check stored h
  · exact alone_check_missing
  · intro id due τ a s' hmem hdue h
    obtain ⟨p, stored, rfl⟩ := mem_dueTimes.mp hmem
    rw [← DueTime.isDue_iff_le] at hdue
    rcases alone_process stored h with ⟨hnot, -⟩ | ⟨m, -, move, hevent, rfl, rfl⟩
    · exact absurd (hnot.symm.trans hdue) Bool.false_ne_true
    · exact ⟨p, m, stored, move, rfl, setState_ne stored hdue move, hevent, rfl, outcome_of_move move⟩
  · intro id τ a s' hnot h
    cases hfind : s.find? id with
    | none => exact alone_process_missing hfind h
    | some p =>
      have hlater := hnot (d.due p now) (mem_dueTimes.mpr ⟨p, hfind, rfl⟩)
      rw [← DueTime.isDue_iff_le] at hlater
      rcases alone_process hfind h with ⟨-, hquiet, rfl, rfl⟩ | ⟨m, hdue, -⟩
      · exact ⟨rfl, hquiet, rfl⟩
      · exact absurd hdue hlater

end Reveille.Poll
