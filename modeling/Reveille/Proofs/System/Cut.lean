import Reveille.Proofs.System.Closing
import Reveille.Proofs.System.Course

/-!
# Before and after closing begins

When all replies are timely, closing begins in one step of one actor (`closedBy?`), and the run falls
apart into what happened before it (`beforeClosing`) and after (`cut_of_timely`).  Everything that was
committed was committed before, and so is told whoever is not turned away.
-/

namespace Reveille

open Bus

variable {D : Domain}

def Label.closer? : Label D → Option Actor
  | .moved a asked _ => if asked.any System.closes then some a else none
  | .began _ => none

def closedBy? (τ : List (Label D)) : Option Actor := τ.findSome? Label.closer?

def beforeClosing (τ : List (Label D)) : List (Label D) := τ.takeWhile fun l => !l.closes

def committedBy (a : Actor) (τ : List (Label D)) : List (Command (Receiver D) D.Event) :=
  (committed τ).filterMap fun x => if x.1 = a then some x.2 else none

namespace System

variable {τ : List (Label D)} {l : Label D} {a b : Actor} {x : Exchange D.requests} {closing : Bool}

theorem mem_told : x ∈ told a τ ↔ ∃ l ∈ τ, l.told? a = some x := List.mem_filterMap

theorem told?_eq_some : l.told? a = some x ↔ ∃ worked, l = .moved a (some x) worked := by
  cases l with
  | began f => simp [Label.told?]
  | moved b asked worked =>
    by_cases hb : b = a <;> simp [Label.told?, hb]

theorem closer?_eq_some : l.closer? = some a ↔ ∃ x, l.told? a = some x ∧ closes x = true := by
  cases l with
  | began f => simp [Label.closer?, Label.told?]
  | moved b asked worked =>
    cases asked with
    | none => simp [Label.closer?, Label.told?]
    | some y =>
      by_cases hb : b = a <;> by_cases hy : closes y = true <;> simp [Label.closer?, Label.told?, hb, hy]

theorem closes_eq : l.closes = l.closer?.isSome := by
  cases l with
  | began f => rfl
  | moved b asked worked =>
    simp only [Label.closes, Label.closer?, Label.asked?]
    split <;> simp_all

theorem closed_eq : closed τ = (closedBy? τ).isSome := by
  rw [closed, closedBy?, List.isSome_findSome?]
  exact congrArg (τ.any ·) (funext fun _ => closes_eq)

theorem committedBy_eq : committedBy a τ = (told a τ).filterMap committed? := by
  rw [committedBy, committed, told, List.filterMap_filterMap, List.filterMap_filterMap]
  refine congrArg (List.filterMap · τ) (funext fun l => ?_)
  cases l with
  | began f => rfl
  | moved b asked worked =>
    simp only [Label.committed?, Label.told?]
    by_cases hb : b = a
    · rw [if_pos hb]
      show _ = asked.bind committed?
      cases asked.bind committed? <;> simp [hb]
    · cases asked.bind committed? <;> simp [hb]

/-! ### Timely replies -/

theorem timely_of_told (h : timelyFrom closing τ = true) (hx : x ∈ told a τ) :
    ∃ closing, timely closing x = true := by
  obtain ⟨l, hl, htold⟩ := mem_told.mp hx
  obtain ⟨worked, rfl⟩ := told?_eq_some.mp htold
  clear hx htold
  induction τ generalizing closing with
  | nil => cases hl
  | cons l τ ih =>
    simp only [timelyFrom, Bool.and_eq_true] at h
    rcases List.mem_cons.mp hl with rfl | hl
    · exact ⟨closing, h.1⟩
    · exact ih h.2 hl

/-- Before closing begins replies are those of an open bus; afterwards they are those of a closed
one. -/
theorem timely_of_steady (h : timelyFrom closing τ = true) (steady : closing = true ∨ closed τ = false)
    (hl : l ∈ τ) : l.timely closing = true := by
  induction τ with
  | nil => cases hl
  | cons l' τ ih =>
    simp only [timelyFrom, Bool.and_eq_true] at h
    have hnext : (closing || l'.closes) = closing ∧ (closing = true ∨ closed τ = false) := by
      rcases steady with rfl | hopen
      · exact ⟨rfl, Or.inl rfl⟩
      · simp only [closed, List.any_cons, Bool.or_eq_false_iff] at hopen
        rw [hopen.1, Bool.or_false]
        exact ⟨rfl, Or.inr hopen.2⟩
    rcases List.mem_cons.mp hl with rfl | hl
    · exact h.1
    · exact ih (hnext.1 ▸ h.2) hnext.2 hl

theorem closed_beforeClosing : closed (beforeClosing τ) = false := by
  rw [closed, List.any_eq_false]
  intro l hl
  simpa using List.mem_takeWhile_imp hl

/-- Either closing has not begun, or there is a step in which it began. -/
theorem cut_of_timely (h : timelyFrom false τ = true) : timelyFrom false (beforeClosing τ) = true ∧
    (closed τ = false ∧ beforeClosing τ = τ ∨ ∃ l τ', τ = beforeClosing τ ++ l :: τ' ∧
      l.closes = true ∧ timelyFrom true τ' = true) := by
  induction τ with
  | nil => exact ⟨rfl, Or.inl ⟨rfl, rfl⟩⟩
  | cons l τ ih =>
    simp only [timelyFrom, Bool.false_or, Bool.and_eq_true] at h
    obtain ⟨hl, hτ⟩ := h
    cases hcloses : l.closes with
    | true =>
      have hbefore : beforeClosing (l :: τ) = [] := by simp [beforeClosing, hcloses]
      rw [hbefore]
      exact ⟨rfl, Or.inr ⟨l, τ, rfl, hcloses, hcloses ▸ hτ⟩⟩
    | false =>
      have hbefore : beforeClosing (l :: τ) = l :: beforeClosing τ := by simp [beforeClosing, hcloses]
      rw [hcloses] at hτ
      obtain ⟨htimely, hcut⟩ := ih hτ
      rw [hbefore]
      refine ⟨by simp [timelyFrom, hl, hcloses, htimely], ?_⟩
      rcases hcut with ⟨hopen, hsame⟩ | ⟨l', τ', hsplit, hl', hτ'⟩
      · refine Or.inl ⟨?_, by rw [hsame]⟩
        rw [closed, List.any_cons, hcloses]
        exact hopen
      · exact Or.inr ⟨l', τ', by rw [List.cons_append, ← hsplit], hl', hτ'⟩

theorem committed_append {τ' : List (Label D)} : committed (τ ++ τ') = committed τ ++ committed τ' :=
  List.filterMap_append

theorem told_append {τ' : List (Label D)} : told a (τ ++ τ') = told a τ ++ told a τ' :=
  List.filterMap_append

theorem committed?_of_closes (h : l.closes = true) : l.committed? = none := by
  cases l with
  | began f => rfl
  | moved a asked worked =>
    cases asked with
    | none => rfl
    | some x =>
      obtain ⟨q, reply⟩ := x
      cases q with
      | commit item => cases h
      | trySend e => cases h
      | _ => rfl

/-- Everything was committed before closing began. -/
theorem committed_beforeClosing (h : timelyFrom false τ = true) :
    committed τ = committed (beforeClosing τ) := by
  obtain ⟨-, ⟨-, hsame⟩ | ⟨l, τ', hsplit, hl, hτ'⟩⟩ := cut_of_timely h
  · rw [hsame]
  · have hnothing : committed (l :: τ') = [] :=
      (List.filterMap_cons_none (committed?_of_closes hl)).trans (committed_of_timely hτ').1
    conv_lhs => rw [hsplit, committed_append, hnothing, List.append_nil]

/-- Nobody asked to close before closing began. -/
theorem first_of_timely (h : timelyFrom false τ = true) (hl : l ∈ beforeClosing τ) (reply : Bool) :
    l.asked? ≠ some ⟨.beginClose, reply⟩ := by
  intro hasked
  have htimely := timely_of_steady (cut_of_timely h).1 (Or.inr closed_beforeClosing) hl
  cases reply with
  | false =>
    rw [Label.timely, hasked] at htimely
    cases htimely
  | true =>
    have hcloses := List.any_eq_false.mp (closed_beforeClosing (τ := τ)) l hl
    exact hcloses (by rw [Label.closes, hasked]; rfl)

/-- What is not told after closing has begun was told before. -/
theorem told_beforeClosing (h : timelyFrom false τ = true) (hx : x ∈ told a τ)
    (early : timely true x = false) (other : closes x = false) : x ∈ told a (beforeClosing τ) := by
  obtain ⟨-, ⟨-, hsame⟩ | ⟨l, τ', hsplit, hl, hτ'⟩⟩ := cut_of_timely h
  · rwa [hsame]
  · rw [hsplit, told_append, List.mem_append] at hx
    refine hx.resolve_right fun hx => ?_
    obtain ⟨l', hmem, htold⟩ := mem_told.mp hx
    obtain ⟨worked, rfl⟩ := told?_eq_some.mp htold
    rcases List.mem_cons.mp hmem with rfl | hmem
    · exact absurd (other.symm.trans hl) nofun
    · exact absurd (early.symm.trans (timely_of_steady hτ' (Or.inl rfl) hmem)) nofun

/-- Whoever is told something that nobody is told before closing begins, is told so afterwards. -/
theorem closed_of_told (h : timelyFrom false τ = true) (hx : x ∈ told a τ)
    (late : timely false x = false) : closed τ = true := by
  obtain ⟨l, hl, htold⟩ := mem_told.mp hx
  obtain ⟨worked, rfl⟩ := told?_eq_some.mp htold
  rw [← Bool.not_eq_false]
  intro hopen
  exact absurd (late.symm.trans (timely_of_steady h (Or.inr hopen) hl)) nofun

/-- Whoever is told that it closes the bus is the one who began closing. -/
theorem closedBy?_of_told (h : timelyFrom false τ = true) (hx : x ∈ told a τ)
    (hcloses : closes x = true) : closedBy? τ = some a := by
  obtain ⟨l, hl, htold⟩ := mem_told.mp hx
  have hcloser : l.closer? = some a := closer?_eq_some.mpr ⟨x, htold, hcloses⟩
  clear hx htold
  induction τ with
  | nil => cases hl
  | cons l' τ ih =>
    simp only [timelyFrom, Bool.false_or, Bool.and_eq_true] at h
    rw [closedBy?, List.findSome?_cons]
    cases hl' : l'.closer? with
    | some b =>
      rcases List.mem_cons.mp hl with rfl | hl
      · exact hl'.symm.trans hcloser
      · rw [closes_eq, hl'] at h
        have hnone := List.any_eq_false.mp (committed_of_timely h.2).2 l hl
        rw [closes_eq, hcloser] at hnone
        exact absurd rfl hnone
    | none =>
      rcases List.mem_cons.mp hl with rfl | hl
      · rw [hcloser] at hl'
        cases hl'
      · rw [closes_eq, hl'] at h
        exact ih h.2 hl

theorem told_of_closedBy? (h : closedBy? τ = some a) : ∃ x ∈ told a τ, closes x = true := by
  obtain ⟨l, hl, hcloser⟩ := List.exists_of_findSome?_eq_some h
  obtain ⟨x, htold, hcloses⟩ := closer?_eq_some.mp hcloser
  exact ⟨x, mem_told.mpr ⟨l, hl, htold⟩, hcloses⟩

end System

end Reveille
