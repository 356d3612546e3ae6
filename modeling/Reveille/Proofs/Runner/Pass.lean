import Reveille.Proofs.Alarm
import Reveille.Proofs.Program.Safe
import Reveille.Proofs.Runner.Turned

/-!
# What a wake pass processes

`WakePass` follows a runner from the beginning of a wake pass to its end, with the request and the reply
of every step.  When the stream of the pass hands out certain items, the runner processes exactly
those that are due at the time of the pass, each once and in the order of their due times, and its
alarm is then not later than any other item (`WakePass.over`).  Nothing that processing brings about
changes that.
-/

namespace Reveille

namespace Runner

variable {E Id F : Type}

abbrev requests (E Id F : Type) : Signature := ⟨Request E Id F, Request.Reply⟩

namespace Scan

variable {now : Instant} {s : Scan Id}

def addReported (now : Instant) (s : Scan Id) : Reported Id → Scan Id
  | .ok item => s.add now item
  | .error _ => s

def ofItems (now : Instant) (s : Scan Id) (items : List (Reported Id)) : Scan Id :=
  items.foldl (addReported now) s

theorem mem_due_ofItems {items : List (Reported Id)} {item : Id × DueTime} :
    item ∈ (s.ofItems now items).due ↔
      item ∈ s.due ∨ .ok item ∈ items ∧ item.2.isDue now = true := by
  induction items generalizing s with
  | nil => simp [ofItems]
  | cons x items ih =>
    rw [ofItems, List.foldl_cons, ← ofItems, ih]
    cases x with
    | error e => simp [addReported]
    | ok other =>
      by_cases hd : other.2.isDue now = true
      · simp only [addReported, add, if_pos hd, List.mem_append, List.mem_cons, List.not_mem_nil,
          or_false, Except.ok.injEq]
        constructor
        · rintro ((h | rfl) | h)
          · exact Or.inl h
          · exact Or.inr ⟨Or.inl rfl, hd⟩
          · exact Or.inr ⟨Or.inr h.1, h.2⟩
        · rintro (h | ⟨rfl | h, hdue⟩)
          · exact Or.inl (Or.inl h)
          · exact Or.inl (Or.inr rfl)
          · exact Or.inr ⟨h, hdue⟩
      · simp only [addReported, add, if_neg hd, List.mem_cons, Except.ok.injEq]
        constructor
        · rintro (h | h)
          · exact Or.inl h
          · exact Or.inr ⟨Or.inr h.1, h.2⟩
        · rintro (h | ⟨rfl | h, hdue⟩)
          · exact Or.inl h
          · exact absurd hdue hd
          · exact Or.inr ⟨h, hdue⟩

theorem next_ofItems_le_next {items : List (Reported Id)} :
    (s.ofItems now items).next.due ≤ s.next.due := by
  induction items generalizing s with
  | nil => exact le_refl _
  | cons x items ih =>
    refine le_trans (ih (s := addReported now s x)) ?_
    cases x with
    | error e => exact le_refl _
    | ok item =>
      show (s.add now item).next.due ≤ _
      unfold add
      split
      · exact le_refl _
      · rw [Alarm.offer_due]
        exact min_le_right _ _

theorem next_ofItems_le {items : List (Reported Id)} {item : Id × DueTime}
    (h : .ok item ∈ items) (hd : item.2.isDue now = false) :
    (s.ofItems now items).next.due ≤ item.2 := by
  induction items generalizing s with
  | nil => cases h
  | cons x items ih =>
    rcases List.mem_cons.mp h with rfl | h
    · refine le_trans (next_ofItems_le_next (s := addReported now s (.ok item))) ?_
      rw [addReported, add, if_neg (by simp [hd]), Alarm.offer_due]
      exact min_le_left _ _
    · exact ih h

theorem mem_inOrder {item : Id × DueTime} : item ∈ s.inOrder ↔ item ∈ s.due :=
  List.mem_mergeSort

end Scan

def processed (τ : List (Exchange (requests E Id F))) : List Id :=
  τ.filterMap fun x => match x.request with
    | .processOne id => some id
    | _ => none

/-- A wake pass at the time `now`, up to its end at the latest. -/
inductive WakePass [DecidableEq Id] (honest : Exchange (requests E Id F) → Prop) (now : Instant) :
    List (Exchange (requests E Id F)) → Runner E Id F → Prop
  | start {r : Runner E Id F} (h : r.phase = .scanning .wake now) : WakePass honest now [] r
  | step {τ : List (Exchange (requests E Id F))} {r : Runner E Id F} (before : WakePass honest now τ r)
      (inside : r.phase ≠ .ending) (reply : r.request.Reply)
      (h : honest ⟨r.request, reply⟩) :
      WakePass honest now (τ ++ [⟨r.request, reply⟩]) (r.resume reply).1

/-- The stream of a pass hands out the items of a list: `yields` says what a stream still has. -/
structure Yields (honest : Exchange (requests E Id F) → Prop) (items : List (Reported Id))
    (yields : F → List (Reported Id) → Prop) : Prop where
  all : ∀ {f}, honest ⟨.checkAll, f⟩ → yields f items
  none : ∀ {f rest}, honest ⟨.nextItem f, Option.none⟩ → yields f rest → rest = []
  some : ∀ {f f' x rest}, honest ⟨.nextItem f, Option.some (x, f')⟩ → yields f rest →
    ∃ rest', rest = x :: rest' ∧ yields f' rest'

def Underway (yields : F → List (Reported Id) → Prop) (items : List (Reported Id)) (now : Instant)
    (done : List Id) (r : Runner E Id F) : Prop :=
  let goal := ({} : Scan Id).ofItems now items
  match r.phase with
  | .scanning pass t => pass = .wake ∧ t = now ∧ done = []
  | .collecting pass t scan f => pass = .wake ∧ t = now ∧ done = [] ∧
      ∃ rest, yields f rest ∧ scan.ofItems now rest = goal
  | .processing id rest next => done ++ id :: rest = goal.inOrder.map (·.1) ∧
      next.due ≤ goal.next.due
  | .rechecking _ rest next => done ++ rest = goal.inOrder.map (·.1) ∧ next.due ≤ goal.next.due
  | .judging _ _ rest next => done ++ rest = goal.inOrder.map (·.1) ∧ next.due ≤ goal.next.due
  | .ending => done = goal.inOrder.map (·.1) ∧ r.alarm.due ≤ goal.next.due
  | _ => False

variable {honest : Exchange (requests E Id F) → Prop} {yields : F → List (Reported Id) → Prop}
  {items : List (Reported Id)} {now : Instant} {done : List Id} {r : Runner E Id F}
  {τ : List (Exchange (requests E Id F))}

theorem Underway.process {next : Alarm Id} {rest : List Id}
    (h : done ++ rest = (({} : Scan Id).ofItems now items).inOrder.map (·.1))
    (hnext : next.due ≤ (({} : Scan Id).ofItems now items).next.due) :
    Underway yields items now done (r.process next rest).1 := by
  cases rest with
  | nil => exact ⟨by rw [← h, List.append_nil], hnext⟩
  | cons id rest => exact ⟨h, hnext⟩

theorem processed_append {x : Exchange (requests E Id F)} :
    processed (τ ++ [x]) = processed τ ++ processed [x] := List.filterMap_append

section
variable [DecidableEq Id]

theorem Underway.step (hY : Yields honest items yields)
    (h : Underway yields items now (processed τ) r) (inside : r.phase ≠ .ending)
    (reply : r.request.Reply) (ok : honest ⟨r.request, reply⟩) :
    Underway yields items now (processed (τ ++ [⟨r.request, reply⟩])) (r.resume reply).1 := by
  have turned := turned_resume r reply
  rw [processed_append]
  have same {rest : List Id} (h : processed τ ++ rest =
      (({} : Scan Id).ofItems now items).inOrder.map (·.1)) : (processed τ ++ []) ++ rest =
        (({} : Scan Id).ofItems now items).inOrder.map (·.1) := by
    rw [← h, List.append_nil]
  have more {id : Id} {rest : List Id} (h : processed τ ++ id :: rest =
      (({} : Scan Id).ofItems now items).inOrder.map (·.1)) : (processed τ ++ [id]) ++ rest =
        (({} : Scan Id).ofItems now items).inOrder.map (·.1) := by
    rw [← h, List.append_assoc, List.singleton_append]
  generalize r.resume reply = turn at turned ⊢
  cases turned with
  | scanning r pass t stream =>
    obtain ⟨rfl, rfl, hdone⟩ := h
    exact ⟨rfl, rfl, by rw [hdone]; rfl, items, hY.all ok, rfl⟩
  | collected r pass t scan stream =>
    obtain ⟨rfl, rfl, hdone, rest, hf, hscan⟩ := h
    obtain rfl := hY.none ok hf
    obtain rfl : scan = _ := hscan
    rw [hdone]
    exact Underway.process rfl (le_refl _)
  | item | itemFailed =>
    obtain ⟨rfl, rfl, hdone, rest, hf, hscan⟩ := h
    obtain ⟨rest', rfl, hf'⟩ := hY.some ok hf
    exact ⟨rfl, rfl, by rw [hdone]; rfl, rest', hf', hscan⟩
  | advancedUntil | advanced | nothingToDo => exact ⟨more h.1, h.2⟩
  | processFailed => exact Underway.process (more h.1) h.2
  | rechecked => exact ⟨same h.1, h.2⟩
  | recheckFailed | stillDue => exact Underway.process (same h.1) h.2
  | dueLater =>
    exact Underway.process (same h.1) (Alarm.offer_due ▸ (min_le_right _ _).trans h.2)
  | ending => exact absurd rfl inside
  | _ => exact False.elim h

/-- A pass processes what is due in its items, and the alarm covers the rest. -/
theorem WakePass.over (hY : Yields honest items yields) (h : WakePass honest now τ r)
    (ended : r.phase = .ending) :
    processed τ = (({} : Scan Id).ofItems now items).inOrder.map (·.1) ∧
      r.alarm.due ≤ (({} : Scan Id).ofItems now items).next.due := by
  have inv : Underway yields items now (processed τ) r := by
    clear ended
    induction h with
    | start h =>
      unfold Underway
      rw [h]
      exact ⟨rfl, rfl, rfl⟩
    | step before inside reply ok ih => exact ih.step hY inside reply ok
  unfold Underway at inv
  rw [ended] at inv
  exact inv

end

end Runner

end Reveille
