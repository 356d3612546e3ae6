import Reveille.Proofs.Poll.Due

/-!
# Who ends a round

An open poll can be due for its next round, or to close.  The two rules share all cases between them:
whenever the round is over or the closing time counts and has come, exactly one of the two duties is due
(`isDue_advance_or_close`, `not_isDue_advance_and_close`), and until then the earlier of the two due
times is that of the round or of the closing time, whichever comes first (`min_due_of_not_isDue`).  As
time goes on the one duty may give way to the other, but there is always one (`one_owner`).
-/

namespace Reveille.Poll

variable {p : Poll} {round : UInt32} {since now later : Instant} {votes : Voters} {d : Duty}

theorem isDue_advance_or_close (opened : p.state = .opened round since votes) :
    ((p.advanceDue now).isDue now = true ∨ (p.closeDue now).isDue now = true) ↔
      p.roundOver now = true ∨ p.closingReached round now = true := by
  rw [isDue_advanceDue opened, isDue_closeDue opened]
  constructor
  · rintro (⟨-, -, hover⟩ | hreached | ⟨-, hover⟩)
    · exact Or.inl hover
    · exact Or.inr hreached
    · exact Or.inl hover
  · intro h
    by_cases hreached : p.closingReached round now = true
    · exact Or.inr (Or.inl hreached)
    · have hover := h.resolve_right hreached
      by_cases hlast : p.maxRounds ≤ round
      · exact Or.inr (Or.inr ⟨hlast, hover⟩)
      · exact Or.inl ⟨UInt32.not_le.mp hlast, Bool.eq_false_iff.mpr hreached, hover⟩

theorem not_isDue_advance_and_close (opened : p.state = .opened round since votes) :
    ¬ ((p.advanceDue now).isDue now = true ∧ (p.closeDue now).isDue now = true) := by
  rw [isDue_advanceDue opened, isDue_closeDue opened]
  rintro ⟨⟨hmore, hreached, -⟩, hclosed | ⟨hlast, -⟩⟩
  · rw [hreached] at hclosed
    cases hclosed
  · exact UInt32.not_le.mpr hmore hlast

theorem startDue_opened (opened : p.state = .opened round since votes) : p.startDue = .never := by
  unfold startDue
  rw [opened]

/-- Before a round is over, it is the round or the closing time that comes first. -/
theorem min_due_of_not_isDue (opened : p.state = .opened round since votes)
    (running : p.roundOver now = false) (early : p.closingReached round now = false) :
    min (p.advanceDue now) (p.closeDue now) = min p.roundDeadline (p.closingDue round) := by
  have hquorum : p.hasQuorum = false := (Bool.or_eq_false_iff.mp running).1
  rw [advanceDue_opened opened, closeDue_opened opened, lastRoundDue, hquorum, early]
  by_cases hlast : p.maxRounds ≤ round
  · simp [hlast, min_comm]
  · simp [hlast]

theorem closingDue_eq : p.closingDue round =
    if p.minRounds ≤ round then p.closesAt.elim .never .moment else .never := by
  unfold closingDue
  cases p.closesAt <;> rfl

theorem closingDue_eq_never_iff :
    p.closingDue round = .never ↔ (p.minRounds ≤ round → p.closesAt = none) := by
  unfold closingDue
  by_cases hround : p.minRounds ≤ round
  · cases p.closesAt <;> simp [hround]
  · simp [hround]

/-- An open poll has no due time at all exactly if its votes and its times leave it none. -/
theorem min_due_eq_never_iff (opened : p.state = .opened round since votes) :
    min (p.advanceDue now) (p.closeDue now) = .never ↔
      p.hasQuorum = false ∧ p.roundDeadline = .never ∧ p.closingDue round = .never := by
  have hmin : p.roundOver now = false → p.closingReached round now = false →
      min (p.advanceDue now) (p.closeDue now) = min p.roundDeadline (p.closingDue round) :=
    min_due_of_not_isDue opened
  constructor
  · intro h
    have hnone : ¬ ((p.advanceDue now).isDue now = true ∨ (p.closeDue now).isDue now = true) := by
      rw [← DueTime.isDue_min, h, DueTime.isDue_never]
      exact Bool.false_ne_true
    rw [isDue_advance_or_close opened, not_or, Bool.not_eq_true, Bool.not_eq_true] at hnone
    have hnever := (hmin hnone.1 hnone.2).symm.trans h
    exact ⟨(Bool.or_eq_false_iff.mp hnone.1).1,
      DueTime.eq_of_le_of_le DueTime.le_never (hnever ▸ min_le_left _ _),
      DueTime.eq_of_le_of_le DueTime.le_never (hnever ▸ min_le_right _ _)⟩
  · rintro ⟨hquorum, hdeadline, hclosing⟩
    have hover : p.roundOver now = false := by rw [roundOver, hquorum, hdeadline]; rfl
    have hreached : p.closingReached round now = false := by
      rw [← Bool.not_eq_true, ← isDue_closingDue, hclosing, DueTime.isDue_never]
      exact Bool.false_ne_true
    rw [hmin hover hreached, hdeadline, hclosing, min_self]

/-- Time alone leaves an open poll due for something. -/
theorem isDue_advance_or_close_mono (opened : p.state = .opened round since votes)
    (h : (p.advanceDue now).isDue now = true ∨ (p.closeDue now).isDue now = true)
    (later_le : now ≤ later) :
    (p.advanceDue later).isDue later = true ∨ (p.closeDue later).isDue later = true := by
  rw [isDue_advance_or_close opened] at h ⊢
  rcases h with hover | hreached
  · refine Or.inl ?_
    rw [roundOver, Bool.or_eq_true] at hover ⊢
    exact hover.imp_right (DueTime.isDue_mono later_le)
  · exact Or.inr (closingReached_mono later_le hreached)

/-- A poll that is due either to advance or to close is due for that alone. -/
theorem existsUnique_isDue (opened : p.state = .opened round since votes)
    (h : (p.advanceDue now).isDue now = true ∨ (p.closeDue now).isDue now = true) :
    ∃! d : Duty, (d.due p now).isDue now = true := by
  have apart : ¬ ((p.advanceDue now).isDue now = true ∧ (p.closeDue now).isDue now = true) :=
    not_isDue_advance_and_close opened
  have hstart : ¬ (Duty.start.due p now).isDue now = true := by
    rw [show Duty.start.due p now = .never from startDue_opened opened, DueTime.isDue_never]
    exact Bool.false_ne_true
  rcases h with h | h
  · refine ⟨.advance, h, fun d hd => ?_⟩
    cases d with
    | start => exact absurd hd hstart
    | advance => rfl
    | close => exact absurd ⟨h, hd⟩ apart
  · refine ⟨.close, h, fun d hd => ?_⟩
    cases d with
    | start => exact absurd hd hstart
    | advance => exact absurd ⟨hd, h⟩ apart
    | close => rfl

/-- An open poll is due exactly when its quorum, its round or its closing time says so, and then for one
duty only.  Until then the earlier of the two due times is the end of the round or the closing time, and
it is no time at all only if the round ends beyond the last instant and no closing time counts.  Once it
is due it has one duty at every later time. -/
theorem one_owner (opened : p.state = .opened round since votes) :
    (((p.advanceDue now).isDue now = true ∨ (p.closeDue now).isDue now = true) ↔
      p.hasQuorum = true ∨ p.roundDeadline ≤ .moment now ∨
        p.minRounds ≤ round ∧ ∃ t, p.closesAt = some t ∧ t ≤ now) ∧
    ¬ ((p.advanceDue now).isDue now = true ∧ (p.closeDue now).isDue now = true) ∧
    p.startDue.isDue now = false ∧
    ((p.advanceDue now).isDue now = false → (p.closeDue now).isDue now = false →
      min (p.advanceDue now) (p.closeDue now) = min p.roundDeadline
        (if p.minRounds ≤ round then p.closesAt.elim .never .moment else .never)) ∧
    (min (p.advanceDue now) (p.closeDue now) = .never ↔
      p.hasQuorum = false ∧ Instant.last.nanos < since.nanos + p.roundDuration.nanos ∧
        (p.minRounds ≤ round → p.closesAt = none)) ∧
    ∀ d : Duty, (d.due p now).isDue now = true →
      ∀ later, now ≤ later → ∃! d' : Duty, (d'.due p later).isDue later = true := by
  have hstart : p.startDue.isDue now = false := by rw [startDue_opened opened]; rfl
  have hdue : ((p.advanceDue now).isDue now = true ∨ (p.closeDue now).isDue now = true) ↔ _ :=
    isDue_advance_or_close opened
  refine ⟨?_, not_isDue_advance_and_close opened, hstart, fun hadvance hclose => ?_, ?_,
    fun d hd later hlater => ?_⟩
  · rw [hdue, roundOver, Bool.or_eq_true, DueTime.isDue_iff_le, closingReached_iff, or_assoc]
  · rw [← closingDue_eq]
    have hnone : ¬ (p.roundOver now = true ∨ p.closingReached round now = true) := by
      rw [← hdue, hadvance, hclose]
      simp
    rw [not_or, Bool.not_eq_true, Bool.not_eq_true] at hnone
    exact min_due_of_not_isDue opened hnone.1 hnone.2
  · rw [min_due_eq_never_iff opened, roundDeadline_opened opened, DueTime.after_eq_never_iff,
      closingDue_eq_never_iff]
  · refine existsUnique_isDue opened (isDue_advance_or_close_mono opened ?_ hlater)
    cases d with
    | start => exact absurd (hstart.symm.trans hd) Bool.false_ne_true
    | advance => exact Or.inl hd
    | close => exact Or.inr hd

def minutes (n : Nat) : Instant := (Instant.ofNanos? (n * 60000000000)).getD .last

/-- The second of three rounds, begun at the epoch and a minute long; after another minute the poll may
close. -/
def debate : Poll :=
  { Poll.create ⟨1⟩ "debate" .epoch with
    roundDuration := .ofSeconds 60, maxRounds := 3
    closesAt := some (minutes 2)
    state := .opened 2 .epoch (.ofList ["ann"]) }

/-- The next round is due first, and the closing takes over from it. -/
theorem one_owner_debate :
    (debate.advanceDue (minutes 1)).isDue (minutes 1) = true ∧
    (debate.closeDue (minutes 2)).isDue (minutes 2) = true ∧
    ∃! d : Duty, (d.due debate (minutes 2)).isDue (minutes 2) = true := by
  have opened : debate.state = .opened 2 .epoch (.ofList ["ann"]) := rfl
  have due : (Duty.advance.due debate (minutes 1)).isDue (minutes 1) = true := by decide +kernel
  have later : minutes 1 ≤ minutes 2 := by decide +kernel
  exact ⟨due, by decide +kernel, (one_owner opened).2.2.2.2.2 .advance due (minutes 2) later⟩

end Reveille.Poll
