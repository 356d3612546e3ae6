import Reveille.Poll.Duty
import Reveille.Proofs.Time.Order

/-!
# What being due means

The due times of a poll, read as conditions on its state and on the present time.  An open poll is
due for its next round exactly when the present round is over, is not the last one and is not cut off
by the closing time (`isDue_advanceDue`); it is due to close exactly when the closing time has come or
its last round is over (`isDue_closeDue`).
-/

namespace Reveille.Poll

variable {p : Poll} {round : UInt32} {since now : Instant} {votes : Voters}

/-- The present round has its quorum or its full time. -/
def roundOver (p : Poll) (now : Instant) : Bool := p.hasQuorum || p.roundDeadline.isDue now

theorem isDue_startDue :
    p.startDue.isDue now = true ↔ p.state = .scheduled ∧ p.startsAt ≤ now := by
  unfold startDue
  split
  · next h => simp [h]
  · next h =>
    rw [DueTime.isDue_never]
    exact ⟨fun hf => absurd hf Bool.false_ne_true, fun hs => absurd hs.1 h⟩

theorem roundDeadline_opened (h : p.state = .opened round since votes) :
    p.roundDeadline = .after since p.roundDuration := by
  unfold roundDeadline
  rw [h]

theorem roundOver_iff (h : p.state = .opened round since votes) :
    p.roundOver now = true ↔
      p.hasQuorum = true ∨ since.nanos + p.roundDuration.nanos ≤ now.nanos := by
  rw [roundOver, Bool.or_eq_true, roundDeadline_opened h, DueTime.isDue_after]

theorem closingReached_iff :
    p.closingReached round now = true ↔
      p.minRounds ≤ round ∧ ∃ t, p.closesAt = some t ∧ t ≤ now := by
  cases hc : p.closesAt <;> simp [closingReached, hc]

theorem isDue_closingDue :
    (p.closingDue round).isDue now = true ↔ p.closingReached round now = true := by
  rw [closingReached_iff]
  unfold closingDue
  split
  · next hr =>
    split
    · next t ht => simp [hr, ht]
    · next ht => simp [ht]
  · next hr => simp [hr]

theorem advanceDue_opened (h : p.state = .opened round since votes) :
    p.advanceDue now = if p.maxRounds ≤ round || p.closingReached round now then .never
      else if p.hasQuorum then .moment now else p.roundDeadline := by
  unfold advanceDue
  rw [h]
  rfl

theorem closeDue_opened (h : p.state = .opened round since votes) :
    p.closeDue now = min (p.closingDue round) (p.lastRoundDue round now) := by
  unfold closeDue
  rw [h]
  rfl

theorem isDue_advanceDue (h : p.state = .opened round since votes) :
    (p.advanceDue now).isDue now = true ↔
      round < p.maxRounds ∧ p.closingReached round now = false ∧ p.roundOver now = true := by
  rw [advanceDue_opened h, ← UInt32.not_le]
  by_cases hr : p.maxRounds ≤ round
  · simp [hr]
  · cases hc : p.closingReached round now with
    | true => simp
    | false => cases hq : p.hasQuorum <;> simp [hr, hq, roundOver]

theorem isDue_lastRoundDue :
    (p.lastRoundDue round now).isDue now = true ↔
      p.maxRounds ≤ round ∧ p.roundOver now = true := by
  unfold lastRoundDue
  by_cases hr : p.maxRounds ≤ round
  · cases hq : p.hasQuorum <;> simp [hr, hq, roundOver]
  · simp [hr]

theorem isDue_closeDue (h : p.state = .opened round since votes) :
    (p.closeDue now).isDue now = true ↔
      p.closingReached round now = true ∨ p.maxRounds ≤ round ∧ p.roundOver now = true := by
  rw [closeDue_opened h, DueTime.isDue_min, isDue_closingDue, isDue_lastRoundDue]

def roundDuty (p : Poll) (round : UInt32) : Duty := if round < p.maxRounds then .advance else .close

/-- With a quorum the round is due to end at once, whatever that time is. -/
theorem due_of_quorum (h : p.state = .opened round since votes) (quorum : p.hasQuorum = true)
    (reached : p.closingReached round now = false) :
    (p.roundDuty round).due p now = .moment now := by
  unfold roundDuty
  split
  · next hmore =>
    show p.advanceDue now = _
    rw [advanceDue_opened h, reached, if_neg, if_pos quorum]
    simpa using hmore
  · next hlast =>
    show p.closeDue now = _
    have hclosing : .moment now ≤ p.closingDue round := by
      rw [← not_lt]
      intro hlt
      rw [isDue_closingDue.mp (DueTime.isDue_iff_le.mpr hlt.le)] at reached
      cases reached
    rw [closeDue_opened h, lastRoundDue, if_pos (UInt32.not_lt.mp hlast), if_pos quorum,
      min_eq_right hclosing]

/-- Only open polls are due for anything but their start. -/
theorem exists_opened_of_isDue {d : Duty} (hd : d ≠ .start)
    (h : (d.due p now).isDue now = true) :
    ∃ round since votes, p.state = .opened round since votes := by
  cases hs : p.state with
  | opened round since votes => exact ⟨round, since, votes, rfl⟩
  | scheduled => cases d <;> simp [Duty.due, advanceDue, closeDue, hs, State.round?] at h hd
  | closed time rounds => cases d <;> simp [Duty.due, advanceDue, closeDue, hs, State.round?] at h hd

theorem closingReached_mono {later : Instant} (h : now ≤ later)
    (hr : p.closingReached round now = true) : p.closingReached round later = true := by
  obtain ⟨hleast, t, ht, hle⟩ := closingReached_iff.mp hr
  exact closingReached_iff.mpr ⟨hleast, t, ht, hle.trans h⟩

/-- A due time that was told at one time misses no later one: when the poll is due later on, so is
what was told. -/
theorem isDue_of_later {d : Duty} {later : Instant} (h : now ≤ later)
    (hd : (d.due p later).isDue later = true) : (d.due p now).isDue later = true := by
  cases d with
  | start => exact hd
  | advance =>
    obtain ⟨round, since, votes, hst⟩ := exists_opened_of_isDue (by decide) hd
    obtain ⟨hmore, hreached, hover⟩ := (isDue_advanceDue hst).mp hd
    have hreached' : p.closingReached round now = false := by
      rw [← Bool.not_eq_true]
      intro hr
      rw [closingReached_mono h hr] at hreached
      cases hreached
    show (p.advanceDue now).isDue later = true
    rw [advanceDue_opened hst, hreached', if_neg (by simpa using hmore)]
    rw [roundOver, Bool.or_eq_true] at hover
    split
    · exact DueTime.isDue_moment.mpr h
    · next hq => exact hover.resolve_left hq
  | close =>
    obtain ⟨round, since, votes, hst⟩ := exists_opened_of_isDue (by decide) hd
    show (p.closeDue now).isDue later = true
    rw [closeDue_opened hst, DueTime.isDue_min, isDue_closingDue]
    rcases (isDue_closeDue hst).mp hd with hreached | ⟨hlast, hover⟩
    · exact Or.inl hreached
    · right
      rw [roundOver, Bool.or_eq_true] at hover
      rw [lastRoundDue, if_pos hlast]
      split
      · exact DueTime.isDue_moment.mpr h
      · next hq => exact hover.resolve_left hq

theorem roundOver_fresh (h : p.state = .fresh round now) (lasting : 0 < p.roundDuration.nanos) :
    p.roundOver now = false := by
  rw [← Bool.not_eq_true, roundOver_iff h]
  rintro (hq | hle)
  · have hvotes : 0 < p.quorum ∧ p.quorum ≤ 0 := by
      simpa [hasQuorum, h, State.fresh, Voters.size, Voters.empty] using hq
    omega
  · omega

theorem toNat_succ {r s : UInt32} (h : r < s) : (r + 1).toNat = r.toNat + 1 := by
  have := UInt32.lt_iff_toNat_lt.mp h
  have := s.toNat_lt
  rw [UInt32.toNat_add, UInt32.toNat_one]
  omega

/-- The moves of the three duties on a poll that is due. -/
theorem Duty.move_cases {d : Duty} {m : Move} (due : (d.due p now).isDue now = true)
    (move : d.move? p now = some m) :
    (p.state = .scheduled ∧ p.startsAt ≤ now ∧ m.next = .fresh 1 now) ∨
      ∃ round since votes, p.state = .opened round since votes ∧
        ((round < p.maxRounds ∧ p.roundOver now = true ∧ m.next = .fresh (round + 1) now) ∨
          ((p.closingReached round now = true ∨ p.maxRounds ≤ round ∧ p.roundOver now = true) ∧
            m.next = .closed now round)) := by
  cases d with
  | start =>
    obtain ⟨hst, hstart⟩ := isDue_startDue.mp due
    cases move
    exact Or.inl ⟨hst, hstart, rfl⟩
  | advance =>
    obtain ⟨round, since, votes, hst⟩ := exists_opened_of_isDue (by decide) due
    obtain ⟨hmore, -, hover⟩ := (isDue_advanceDue hst).mp due
    simp only [move?, hst, State.round?, Option.map_some, Option.some.injEq] at move
    subst move
    exact Or.inr ⟨round, since, votes, hst, Or.inl ⟨hmore, hover, rfl⟩⟩
  | close =>
    obtain ⟨round, since, votes, hst⟩ := exists_opened_of_isDue (by decide) due
    simp only [move?, hst, State.round?, Option.map_some, Option.some.injEq] at move
    subst move
    exact Or.inr ⟨round, since, votes, hst, Or.inr ⟨(isDue_closeDue hst).mp due, rfl⟩⟩

end Reveille.Poll
