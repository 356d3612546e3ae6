import Reveille.Proofs.Runner.Ledger

/-!
# The passes of a runner

A `PassBook` has the passes of a run, read off the requests and the replies alone (`passBook`): the kind
and the time of every pass, the items its stream handed out, and the entities that were processed before
the next rescan was set.

However the service replies, a wake pass processes the items that are due at its own time, in the stable
order of their due times, and nothing else.  A seeding pass processes nothing, and between passes nothing
is processed (`Run.processes_in_order`).
-/

namespace Reveille.Runner

variable {E Id F : Type}

/-- The same items by their due times; those with one due time stay in their order. -/
structure StableSort (items sorted : List (Id × DueTime)) : Prop where
  perm : sorted.Perm items
  ascending : sorted.Pairwise fun a b => a.2 ≤ b.2
  stable : ∀ due, (sorted.filter fun item => item.2 = due) = items.filter fun item => item.2 = due

theorem Scan.stableSort_inOrder {s : Scan Id} : StableSort s.due s.inOrder := by
  have trans : ∀ a b c : Id × DueTime, decide (a.2 ≤ b.2) = true → decide (b.2 ≤ c.2) = true →
      decide (a.2 ≤ c.2) = true := by
    intro a b c
    simpa only [decide_eq_true_eq] using le_trans
  have total : ∀ a b : Id × DueTime, (decide (a.2 ≤ b.2) || decide (b.2 ≤ a.2)) = true := by
    intro a b
    simpa only [Bool.or_eq_true, decide_eq_true_eq] using le_total a.2 b.2
  have perm : s.inOrder.Perm s.due := List.mergeSort_perm _ _
  refine ⟨perm, ?_, fun due => ?_⟩
  · exact (List.pairwise_mergeSort trans total s.due).imp decide_eq_true_eq.mp
  · have alike : (s.due.filter fun item => item.2 = due).Pairwise
        fun a b => decide (a.2 ≤ b.2) = true := by
      refine List.pairwise_of_forall_mem_list fun a ha b hb => ?_
      have ha := of_decide_eq_true (List.mem_filter.mp ha).2
      have hb := of_decide_eq_true (List.mem_filter.mp hb).2
      rw [ha, hb]
      exact decide_eq_true le_rfl
    have sub : (s.due.filter fun item => item.2 = due).Sublist s.inOrder :=
      List.sublist_mergeSort trans total alike List.filter_sublist
    have sub' := sub.filter fun item => decide (item.2 = due)
    rw [List.filter_filter] at sub'
    simp only [Bool.and_self] at sub'
    exact (sub'.eq_of_length (perm.filter _).length_eq.symm).symm

structure PassRecord (Id : Type) where
  pass : Pass
  /-- The reading of the clock before the pass asked for its items. -/
  time : Instant
  /-- The items, in the order of the stream. -/
  items : List (Id × DueTime) := []
  processed : List Id := []

def PassRecord.due (p : PassRecord Id) : List (Id × DueTime) :=
  p.items.filter fun item => item.2.isDue p.time

structure PassBook (Id : Type) where
  past : List (PassRecord Id) := []
  /-- The pass under way. -/
  present : Option (PassRecord Id) := none
  /-- What was processed while no pass was under way. -/
  stray : List Id := []
  /-- The last reading of the clock. -/
  reading : Instant := .epoch

namespace PassBook

def note (b : PassBook Id) : Exchange (requests E Id F) → PassBook Id
  | ⟨.readClock, (now : Instant)⟩ => { b with reading := now }
  | ⟨.checkAll, _⟩ =>
    let past := b.past ++ b.present.toList
    { b with past, present := some { pass := if past.isEmpty then .seed else .wake, time := b.reading } }
  | ⟨.nextItem _, (reply : Option (Reported Id × F))⟩ =>
    match reply with
    | some (.ok item, _) =>
      { b with present := b.present.map fun p => { p with items := p.items ++ [item] } }
    | _ => b
  | ⟨.processOne id, _⟩ =>
    match b.present with
    | some p => { b with present := some { p with processed := p.processed ++ [id] } }
    | none => { b with stray := b.stray ++ [id] }
  | ⟨.checkInterval, _⟩ => { b with past := b.past ++ b.present.toList, present := none }
  | _ => b

end PassBook

def passBook (τ : List (Exchange (requests E Id F))) : PassBook Id := τ.foldl PassBook.note {}

/-! ### The passes and the phases of a runner -/

namespace PassRecord

/-- A wake pass that has still to process the entities of a list, and nothing after them. -/
def Has (p : PassRecord Id) (rest : List Id) : Prop :=
  p.pass = .wake ∧ ∃ sorted, StableSort p.due sorted ∧ p.processed ++ rest = sorted.map (·.1)

def Over (p : PassRecord Id) : Prop :=
  match p.pass with
  | .seed => p.processed = []
  | .wake => p.Has []

variable {p : PassRecord Id}

theorem Has.over (h : p.Has []) : p.Over := by
  unfold Over
  rw [h.1]
  exact h

theorem Over.seed (h : p.Over) (hpass : p.pass = .seed) : p.processed = [] := by
  unfold Over at h
  rw [hpass] at h
  exact h

theorem Over.wake (h : p.Over) (hpass : p.pass = .wake) : p.Has [] := by
  unfold Over at h
  rw [hpass] at h
  exact h

/-- A pass under way is one that has processed the first of what it has to process. -/
def Underway (p : PassRecord Id) : Prop :=
  (p.pass = .seed → p.processed = []) ∧
  (p.pass = .wake → ∃ sorted, StableSort p.due sorted ∧ p.processed <+: sorted.map (·.1))

theorem Has.underway {rest : List Id} (h : p.Has rest) : p.Underway := by
  obtain ⟨hpass, sorted, hsorted, hall⟩ := h
  refine ⟨fun hseed => ?_, fun _ => ⟨sorted, hsorted, rest, hall⟩⟩
  rw [hseed] at hpass
  cases hpass

theorem Over.underway (h : p.Over) : p.Underway :=
  ⟨h.seed, fun hpass => (h.wake hpass).underway.2 hpass⟩

end PassRecord

def Phase.Books (b : PassBook Id) : Phase E Id F → Prop
  | .seeding => b.past = [] ∧ b.present = none
  | .scanning pass now => b.present = none ∧ b.reading = now ∧ (pass = .seed ↔ b.past = [])
  | .collecting pass now scan _ => ∃ p, b.present = some p ∧ p.pass = pass ∧ p.time = now ∧
      p.processed = [] ∧ p.due = scan.due
  | .processing id rest _ => ∃ p, b.present = some p ∧ p.Has (id :: rest)
  | .rechecking _ rest _ | .judging _ _ rest _ => ∃ p, b.present = some p ∧ p.Has rest
  | .ending => ∃ p, b.present = some p ∧ p.Has []
  | .arming _ _ => ∃ p, b.present = some p ∧ p.Over
  | _ => b.present = none ∧ b.past ≠ []

theorem Phase.Books.present {b : PassBook Id} {phase : Phase E Id F} (h : phase.Books b)
    {p : PassRecord Id} (hp : b.present = some p) : p.Underway := by
  have idle {Q : Prop} (hnone : b.present = none ∧ Q) : p.Underway := by
    rw [hnone.1] at hp
    cases hp
  have going (hq : ∃ q rest, b.present = some q ∧ q.Has rest) : p.Underway := by
    obtain ⟨q, rest, hq, hhas⟩ := hq
    exact Option.some.inj (hq.symm.trans hp) ▸ hhas.underway
  cases phase with
  | seeding => exact idle ⟨h.2, h.1⟩
  | collecting pass now scan f =>
    obtain ⟨q, hq, -, -, hprocessed, hdue⟩ := h
    obtain rfl : q = p := Option.some.inj (hq.symm.trans hp)
    refine ⟨fun _ => hprocessed, fun _ => ⟨scan.inOrder, ?_, ?_⟩⟩
    · rw [hdue]
      exact Scan.stableSort_inOrder
    · rw [hprocessed]
      exact List.nil_prefix
  | arming pass now =>
    obtain ⟨q, hq, hover⟩ := h
    exact Option.some.inj (hq.symm.trans hp) ▸ hover.underway
  | processing id rest next => exact going ⟨_, _, h.choose_spec⟩
  | rechecking id rest next => exact going ⟨_, _, h.choose_spec⟩
  | judging id due rest next => exact going ⟨_, _, h.choose_spec⟩
  | ending => exact going ⟨_, _, h.choose_spec⟩
  | _ => exact idle h

/-- A runner that is about to process an entity is in a wake pass, and the entity is its next one. -/
theorem Phase.Books.processing {b : PassBook Id} {phase : Phase E Id F} {inboxOpen : Bool} {id : Id}
    (h : phase.Books b) (hid : phase.request inboxOpen = .processOne id) :
    ∃ rest p, b.present = some p ∧ p.Has (id :: rest) := by
  cases phase with
  | processing id' rest next =>
    cases hid
    exact ⟨rest, h⟩
  | _ => cases hid

/-- The passes of a runner that was never wrong. -/
structure Orderly (b : PassBook Id) (r : Runner E Id F) : Prop where
  stray : b.stray = []
  past : ∀ p ∈ b.past, p.Over
  phase : r.phase.Books b

variable {b : PassBook Id} {r : Runner E Id F} {τ : List (Exchange (requests E Id F))}
  {jitter : Jitter}

theorem books_process {p : PassRecord Id} {next : Alarm Id} {rest : List Id}
    (present : b.present = some p) (h : p.Has rest) : (r.process next rest).1.phase.Books b := by
  cases rest with
  | nil => exact ⟨p, present, h⟩
  | cons id rest => exact ⟨p, present, h⟩

theorem books_check {rest : List Id} (h : b.present = none ∧ b.past ≠ []) :
    (r.check rest).1.phase.Books b := by
  cases rest with
  | nil => exact h
  | cons id rest => exact h

/-- At the end of its items a wake pass has all to process that is due, and a seeding pass nothing. -/
theorem books_finishScan {p : PassRecord Id} {now : Instant} {scan : Scan Id}
    (present : b.present = some p) (processed : p.processed = []) (due : p.due = scan.due) :
    (r.finishScan p.pass now scan).1.phase.Books b := by
  cases hpass : p.pass with
  | seed =>
    refine ⟨p, present, ?_⟩
    unfold PassRecord.Over
    rw [hpass]
    exact processed
  | wake =>
    refine books_process present ⟨hpass, scan.inOrder, ?_, ?_⟩
    · rw [due]
      exact Scan.stableSort_inOrder
    · rw [processed, List.nil_append]

theorem PassBook.note_checkAll {pass : Pass} {stream : F} (present : b.present = none)
    (first : pass = .seed ↔ b.past = []) :
    b.note (⟨.checkAll, stream⟩ : Exchange (requests E Id F)) =
      { b with present := some { pass, time := b.reading } } := by
  have : (if b.past.isEmpty then Pass.seed else .wake) = pass := by
    cases pass with
    | seed => rw [first.mp rfl]; rfl
    | wake =>
      rw [if_neg]
      rw [List.isEmpty_iff]
      exact fun hnil => nomatch first.mpr hnil
  simp only [PassBook.note, present, Option.toList_none, List.append_nil, this]

/-- The pass under way has processed its next entity, whatever came of it. -/
theorem PassBook.note_processOne {p : PassRecord Id} {id : Id} {rest : List Id}
    (present : b.present = some p) (h : p.Has (id :: rest)) (reply : Except ServiceError Processed) :
    ∃ p' : PassRecord Id, b.note (⟨.processOne id, reply⟩ : Exchange (requests E Id F)) =
      { b with present := some p' } ∧ p'.Has rest := by
  obtain ⟨hpass, sorted, hsorted, hrest⟩ := h
  refine ⟨{ p with processed := p.processed ++ [id] }, by simp only [PassBook.note, present],
    hpass, sorted, hsorted, ?_⟩
  rw [← hrest, List.append_assoc, List.singleton_append]

section
variable [DecidableEq Id]

theorem Orderly.step (h : Orderly b r) (reply : r.request.Reply) :
    Orderly (b.note ⟨r.request, reply⟩) (r.resume reply).1 := by
  obtain ⟨hstray, hpast, hphase⟩ := h
  have turned := turned_resume r reply
  generalize r.resume reply = turn at turned ⊢
  cases turned with
  | seeding =>
    obtain ⟨hpast', hpresent⟩ := hphase
    exact ⟨hstray, hpast, hpresent, rfl, fun _ => hpast', fun _ => rfl⟩
  | scanning r pass now stream =>
    obtain ⟨hpresent, rfl, hpass⟩ := hphase
    show Orderly (b.note ⟨.checkAll, stream⟩) _
    rw [PassBook.note_checkAll hpresent hpass]
    exact ⟨hstray, hpast, _, rfl, rfl, rfl, rfl, rfl⟩
  | collected =>
    obtain ⟨p, hpresent, rfl, rfl, hprocessed, hdue⟩ := hphase
    exact ⟨hstray, hpast, books_finishScan hpresent hprocessed hdue⟩
  | item r pass now scan stream item =>
    obtain ⟨p, hpresent, rfl, rfl, hprocessed, hdue⟩ := hphase
    refine ⟨hstray, hpast, { p with items := p.items ++ [item] }, ?_, rfl, rfl, hprocessed, ?_⟩
    · show b.present.map _ = _
      rw [hpresent]
      rfl
    · show (p.items ++ [item]).filter _ = (scan.add p.time item).due
      rw [List.filter_append, show p.items.filter _ = scan.due from hdue]
      cases hi : item.2.isDue p.time <;> simp [Scan.add, hi]
  | arming =>
    obtain ⟨p, hpresent, hover⟩ := hphase
    refine ⟨hstray, fun q hq => ?_, rfl, ?_⟩
    · rcases List.mem_append.mp hq with hq | hq
      · exact hpast q hq
      · rw [hpresent, Option.toList_some, List.mem_singleton] at hq
        exact hq ▸ hover
    · show b.past ++ b.present.toList ≠ []
      rw [hpresent]
      exact List.append_ne_nil_of_right_ne_nil _ (List.cons_ne_nil _ _)
  | wakes =>
    refine ⟨hstray, hpast, hphase.1, rfl, fun hseed => ?_, fun hnil => absurd hnil hphase.2⟩
    cases hseed
  | receiving | checked | checkFailed => exact ⟨hstray, hpast, books_check hphase⟩
  | advancedUntil | advanced | nothingToDo =>
    obtain ⟨p, hpresent, hhas⟩ := hphase
    obtain ⟨p', hnote, hhas'⟩ := PassBook.note_processOne (E := E) (F := F) hpresent hhas (.ok _)
    exact hnote ▸ ⟨hstray, hpast, p', rfl, hhas'⟩
  | processFailed r id rest next e =>
    obtain ⟨p, hpresent, hhas⟩ := hphase
    obtain ⟨p', hnote, hhas'⟩ := PassBook.note_processOne (E := E) (F := F) hpresent hhas (.error e)
    exact hnote ▸ ⟨hstray, hpast, books_process rfl hhas'⟩
  | recheckFailed | stillDue | dueLater =>
    obtain ⟨p, hpresent, hhas⟩ := hphase
    exact ⟨hstray, hpast, books_process hpresent hhas⟩
  | ending =>
    obtain ⟨p, hpresent, hhas⟩ := hphase
    exact ⟨hstray, hpast, p, hpresent, hhas.over⟩
  | _ => exact ⟨hstray, hpast, hphase⟩

theorem Run.orderly (h : Run jitter τ r) : Orderly (passBook τ) r := by
  induction h with
  | init => exact ⟨rfl, List.forall_mem_nil _, rfl, rfl⟩
  | step before reply ih =>
    rw [passBook, List.foldl_append]
    exact ih.step reply

/-- Nothing is processed but in a wake pass.  A wake pass that is over has processed the items of its
stream that were due at its time, once for every time they came, in the stable order of their due times; one
that is under way has processed the first of them, and asks for the next. -/
theorem Run.processes_in_order (h : Run jitter τ r) :
    (passBook τ).stray = [] ∧
    (∀ p ∈ (passBook τ).past, (p.pass = .seed → p.processed = []) ∧
      (p.pass = .wake → ∃ sorted, StableSort (p.items.filter fun item => item.2.isDue p.time) sorted ∧
        p.processed = sorted.map (·.1))) ∧
    (∀ p, (passBook τ).present = some p → (p.pass = .seed → p.processed = []) ∧
      (p.pass = .wake → ∃ sorted, StableSort (p.items.filter fun item => item.2.isDue p.time) sorted ∧
        p.processed <+: sorted.map (·.1))) ∧
    ∀ id, r.request = .processOne id → ∃ p, (passBook τ).present = some p ∧ p.pass = .wake ∧
      ∃ sorted, StableSort (p.items.filter fun item => item.2.isDue p.time) sorted ∧
        p.processed ++ [id] <+: sorted.map (·.1) := by
  obtain ⟨hstray, hpast, hphase⟩ := h.orderly
  refine ⟨hstray, fun p hp => ?_, fun p hp => ?_, fun id hid => ?_⟩
  · have hover := hpast p hp
    refine ⟨hover.seed, fun hpass => ?_⟩
    obtain ⟨-, sorted, hsorted, hall⟩ := hover.wake hpass
    exact ⟨sorted, hsorted, by rw [← hall, List.append_nil]⟩
  · exact hphase.present hp
  · obtain ⟨rest, p, hpresent, hpass, sorted, hsorted, hall⟩ := hphase.processing hid
    refine ⟨p, hpresent, hpass, sorted, hsorted, rest, ?_⟩
    rw [← hall, List.append_assoc, List.singleton_append]

/-- At tick 4 one entity is due, one will be later and one never; another fails to be reported.  What is
due is still due after it was processed. -/
def errands : (q : Request Unit Nat Nat) → Option q.Reply
  | .readClock => some (tick 4)
  | .isStopRequested => some false
  | .checkAll => some 0
  | .nextItem 0 => some (some (.ok (1, .moment (tick 5)), 1))
  | .nextItem 1 => some (some (.error (.failed "busy"), 2))
  | .nextItem 2 => some (some (.ok (2, .moment (tick 3)), 3))
  | .nextItem 3 => some (some (.ok (3, .never), 4))
  | .nextItem _ => some none
  | .checkInterval => some (.ofSeconds 60, 0)
  | .processOne _ => some (.ok .nothingToDoYet)
  | .checkOne _ => some (.ok (.moment (tick 3)))
  | _ => none

/-- The seeding pass is followed by a wake pass over the same items. -/
theorem processes_in_order_errands :
    (passBook (obey errands 30 (.init .none)).1).past.map (·.processed) = [[], [2]] ∧
    ∀ p ∈ (passBook (obey errands 30 (.init .none)).1).past, p.pass = .wake →
      ∃ sorted, StableSort (p.items.filter fun item => item.2.isDue p.time) sorted ∧
        p.processed = sorted.map (·.1) := by
  have run : Run .none (obey errands 30 (.init .none)).1 (obey errands 30 (.init .none)).2 := by
    simpa only [List.nil_append] using Run.init.obey errands 30
  exact ⟨by decide +kernel, fun p hp => ((Run.processes_in_order run).2.1 p hp).2⟩

end

end Reveille.Runner
