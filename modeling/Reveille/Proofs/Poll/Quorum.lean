import Reveille.Proofs.Poll.Due
import Reveille.Proofs.Poll.Store
import Reveille.Proofs.Program.Feed
import Reveille.Proofs.Runner.Pass

/-!
# The pass that a quorum triggers

A round that has its quorum is due at whatever time the service reads (`due_of_quorum`).  The runner
compares that due time with the time at which its pass began.  So the pass processes the poll exactly
if the clock stood still between the two readings (`quorum_processed_iff`); if it moved, the poll is
left as one that is due later, at a time that has already come, and the next pass is the same again.
-/

namespace Reveille.Poll

/-- The replies of a store at a reading of the clock, where publishing works. -/
def fixedReply (s : Store) (now : Instant) : (q : Request) → q.Reply
  | .store q => (s.answer q).1
  | .readTime => now
  | .publish _ => .ok ()
  | .log _ => ()

abbrev PollItems := Feed requests (Reported Id)

def Duty.ItemsAt (d : Duty) (s : Store) (now : Instant) :
    Exchange (Runner.requests Event Id PollItems) → Prop
  | ⟨.checkAll, (f : PollItems)⟩ => f = d.items
  | ⟨.nextItem f, (reply : Option (Reported Id × PollItems))⟩ => reply = f.next.eval (fixedReply s now)
  | _ => True

theorem Duty.yields (d : Duty) (s : Store) (now : Instant) :
    Runner.Yields (d.ItemsAt s now) (s.polls.map fun p => .ok (p.id, d.due p now))
      fun f items => f.collect.eval (fixedReply s now) = items where
  all h := by
    rw [show _ = d.items from h]
    show (Feed.ofList _).collect.eval _ = _
    rw [Feed.collect_ofList]
    rfl
  none h hf := by
    rw [← hf, Feed.eval_next, ← show _ = _ from h]
  some h hf := by
    rw [Feed.eval_next, ← show _ = _ from h] at hf
    exact ⟨_, hf.symm, rfl⟩

variable {s : Store} {p : Poll} {round : UInt32} {since n₁ n₂ : Instant} {votes : Voters}
  {τ : List (Exchange (Runner.requests Event Id PollItems))} {r : Runner Event Id PollItems}

/-- In a pass that began at `n₁` and whose items were made at `n₂`, a poll with its quorum is
processed exactly if `n₂` is not later; otherwise the next alarm is no later than `n₂`. -/
theorem quorum_processed_iff (hp : p ∈ s.polls) (opened : p.state = .opened round since votes)
    (quorum : p.hasQuorum = true) (reached : p.closingReached round n₂ = false)
    (h : Runner.WakePass ((p.roundDuty round).ItemsAt s n₂) n₁ τ r) (ended : r.phase = .ending) :
    (p.id ∈ Runner.processed τ ↔ n₂ ≤ n₁) ∧ (n₁ < n₂ → r.alarm.due ≤ .moment n₂) := by
  obtain ⟨hprocessed, halarm⟩ := h.over ((p.roundDuty round).yields s n₂) ended
  have hdue := due_of_quorum opened quorum reached
  have hitem : .ok (p.id, .moment n₂) ∈
      s.polls.map fun q => (.ok (q.id, (p.roundDuty round).due q n₂) : Reported Id) :=
    List.mem_map.mpr ⟨p, hp, by rw [hdue]⟩
  constructor
  · rw [hprocessed, List.mem_map]
    constructor
    · rintro ⟨⟨id, due⟩, hmem, rfl⟩
      rw [Runner.Scan.mem_inOrder, Runner.Scan.mem_due_ofItems] at hmem
      rcases hmem with hmem | ⟨hmem, hnow⟩
      · cases hmem
      · obtain ⟨q, hq, he⟩ := List.mem_map.mp hmem
        obtain ⟨hid, rfl⟩ := Prod.mk.inj (Except.ok.inj he)
        obtain rfl : q = p := Option.some.inj
          ((Store.find?_of_mem hq).symm.trans (by rw [show q.id = p.id from hid]; exact Store.find?_of_mem hp))
        rw [hdue, DueTime.isDue_moment] at hnow
        exact hnow
    · intro hle
      refine ⟨(p.id, .moment n₂), ?_, rfl⟩
      rw [Runner.Scan.mem_inOrder, Runner.Scan.mem_due_ofItems]
      exact Or.inr ⟨hitem, DueTime.isDue_moment.mpr hle⟩
  · intro hlt
    refine halarm.trans (Runner.Scan.next_ofItems_le hitem ?_)
    rw [← Bool.not_eq_true, DueTime.isDue_moment, not_le]
    exact hlt

/-- A round of two with the one vote that it needs. -/
def decided : Poll :=
  { Poll.create ⟨1⟩ "lunch" .epoch with
    quorum := 1, maxRounds := 2
    state := .opened 1 .epoch (.ofList ["ann"]) }

/-- A nanosecond between the two readings is enough to leave the poll where it is. -/
theorem quorum_missed :
    ∃ (τ : List (Exchange (Runner.requests Event Id PollItems))) (r : Runner Event Id PollItems),
      Runner.WakePass
        (Duty.advance.ItemsAt ⟨[decided], List.pairwise_singleton _ _⟩ decided.startsAt.next)
        decided.startsAt τ r ∧
      r.phase = .ending ∧ decided.id ∉ Runner.processed τ ∧
      r.alarm.due ≤ .moment decided.startsAt.next := by
  have start : Runner.WakePass
      (Duty.advance.ItemsAt ⟨[decided], List.pairwise_singleton _ _⟩ decided.startsAt.next)
      decided.startsAt [] { jitter := .none, phase := .scanning .wake decided.startsAt } :=
    .start rfl
  obtain ⟨τ, r, pass, ended⟩ : ∃ τ r, Runner.WakePass _ _ τ r ∧ r.phase = .ending := by
    refine ⟨_, _, ((start.step nofun Duty.advance.items rfl).step nofun _ rfl).step nofun _ rfl, ?_⟩
    show (Runner.process _ _ (List.map _ (List.mergeSort [] _))).1.phase = _
    rw [List.mergeSort_nil]
    rfl
  have hiff := quorum_processed_iff (p := decided) (List.mem_singleton.mpr rfl) rfl rfl rfl pass ended
  exact ⟨τ, r, pass, ended, fun h => absurd (hiff.1.mp h) (by decide), hiff.2 (by decide)⟩

end Reveille.Poll
