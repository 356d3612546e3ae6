import Reveille.Proofs.Bus.Slots
import Reveille.Proofs.System.Close

/-!
# Every slot of the queue is accounted for

The capacity that is asked for, or one, bounds what is in the queue together with what senders hold, whoever
sends, tries to send, registers and closes (`Slotted`).  A sender only waits while all slots are in use, and
whoever tries to send is told that the queue is full just then (`Slotted.impatient`).

A sender that commits too late gives its slot to the first who waits.  So when closing has begun the line
moves on without anything getting into the queue, and everybody in it comes back in the end
(`Run.keeps_slots`).  None of this needs the receivers to behave: the worker may die on the way.
-/

namespace Reveille.System

open Bus Bus.Worker
open Program (Path)

section
variable {D : Domain} {c : Cast D} {s s' s₀ : System D} {τ : List (Label D)} {l : Label D} {a : Actor}
  {q : Request D} {reply : q.Reply} {ch ch' : Queue D} {requested : Nat}
  {work : Option (Exchange (Bus.Worker.requests (Receiver D) D.Event))}

/-- The slots are as many as asked for, and no more are in use.  The queue takes senders and items as long as
closing has not begun, and has a worker as long as that is not over. -/
structure Slotted (requested : Nat) (τ : List (Label D)) (s : System D) : Prop where
  capacity : s.channel.capacity = max requested 1
  used : s.channel.used ≤ s.channel.capacity
  accepting : s.channel.accepting = !closed τ
  listening : s.channel.listening = !s.worker.machine.phase.isOver
  cut : committed τ = committed (beforeClosing τ)

/-! ### One step -/

/-- No answer takes a slot that is not there. -/
theorem Passage.slots (h : Passage a ch q reply ch') (used : ch.used ≤ ch.capacity)
    (held : ∀ item, q = .commit item → a ∈ ch.granted) :
    ch'.used ≤ ch.capacity ∧ ch'.capacity = ch.capacity := by
  cases h with
  | requestSlot => exact Channel.requestSlot_used used
  | sentAway gone => exact Channel.withdraw_used used
  | committed accepting item =>
    rw [Channel.commit_used (held item rfl)]
    exact ⟨used, rfl⟩
  | gaveUp closed item => exact Channel.withdraw_used used
  | sent accepting room e => exact ⟨Channel.addItem_used used room, rfl⟩
  | _ => exact ⟨used, rfl⟩

/-- Whoever commits holds a slot. -/
theorem Crossing.held (h : Crossing s) (able : ∀ i, a = .runner i → s.isRunning i = true)
    {item : Command (Receiver D) D.Event} {rest} (doing : Doing c s a (.ask (.commit item) rest)) :
    a ∈ s.channel.granted := by
  obtain ⟨p, hfits, tidy⟩ := h.doing able doing
  have hallows := tidy.1
  cases p with
  | granted => exact hfits.2
  | _ => exact hallows.elim

theorem machine_of_asked {x : Exchange D.requests} (h : Turn c s (.moved a (some x) work) s') :
    s'.worker.machine = s.worker.machine := by
  cases h with
  | callAsked task answer => exact congrArg WorkerTask.machine (perform_frame answer).1
  | workerAsked routine answer => rfl
  | runnerAsked hired answer aside =>
    exact congrArg WorkerTask.machine ((aside.worker nofun).trans (perform_frame answer).1)

theorem beforeClosing_append {τ' : List (Label D)} :
    beforeClosing (τ ++ τ') = if closed τ then beforeClosing τ else τ ++ beforeClosing τ' := by
  unfold beforeClosing closed
  induction τ with
  | nil => rfl
  | cons l τ ih =>
    cases h : l.closes with
    | true => simp [h]
    | false =>
      rw [List.cons_append, List.takeWhile_cons_of_pos (by simp [h]), ih]
      simp only [List.any_cons, h, Bool.false_or]
      split
      · rw [List.takeWhile_cons_of_pos (by simp [h])]
      · rfl

theorem Slotted.cut_concat (h : Slotted requested τ s)
    (quiet : s.channel.accepting = false → l.committed? = none) :
    committed (τ ++ [l]) = committed (beforeClosing (τ ++ [l])) := by
  rw [beforeClosing_append]
  cases hclosed : closed τ with
  | true =>
    have hshut : s.channel.accepting = false := by rw [h.accepting, hclosed]; rfl
    rw [if_pos rfl, committed_quiet (quiet hshut), h.cut]
  | false =>
    rw [if_neg Bool.false_ne_true]
    cases hl : l.closes with
    | false => simp [beforeClosing, hl]
    | true => simp [beforeClosing, hl, committed_quiet (committed?_of_closes hl)]

/-- A step in which no request is answered frees a slot at most. -/
theorem Slotted.quiet (h : Slotted requested τ s) (turn : Turn c s (.moved a none work) s') :
    Slotted requested (τ ++ [.moved a none work]) s' := by
  suffices hquiet : s'.channel.capacity = s.channel.capacity ∧ s'.channel.used ≤ s.channel.capacity ∧
      s'.channel.accepting = s.channel.accepting ∧
      s'.channel.listening = !s'.worker.machine.phase.isOver by
    obtain ⟨hcapacity, hused, haccepting, hlistening⟩ := hquiet
    refine ⟨hcapacity.trans h.capacity, hcapacity.symm ▸ hused, ?_, hlistening, h.cut_concat fun _ => rfl⟩
    rw [haccepting, h.accepting, closed_concat]
    exact congrArg _ (Bool.or_false _).symm
  rcases turn.quiet_channel with ⟨ch, hch, hs'⟩ | ⟨hwithdraws, hworker⟩
  · obtain ⟨hcapacity, hused, haccepting, hlistening⟩ : ch.capacity = s.channel.capacity ∧
        ch.used ≤ s.channel.capacity ∧ ch.accepting = s.channel.accepting ∧
        ch.listening = s.channel.listening := by
      rcases hch with rfl | ⟨item, htake⟩
      · exact ⟨rfl, h.used, rfl, rfl⟩
      · obtain ⟨hused, hcapacity⟩ := Channel.take_used h.used htake
        obtain ⟨-, haccepting, hlistening⟩ := Channel.queue_of_take htake
        exact ⟨hcapacity, hused, haccepting, hlistening⟩
    rcases hs' with ⟨rfl, hworker⟩ | ⟨hover, hleaves⟩
    · refine ⟨hcapacity, hused, haccepting, ?_⟩
      rw [hlistening, h.listening, hworker]
    · -- going away changes nothing but whether the worker is there
      rw [h.listening, hover] at hlistening
      rw [hleaves]
      cases s'.worker.machine.phase.isOver with
      | true => exact ⟨hcapacity, hused, haccepting, rfl⟩
      | false => exact ⟨hcapacity, hused, haccepting, hlistening⟩
  · obtain ⟨hcapacity, -, haccepting, hlistening⟩ := Channel.withdraw_same (c := s.channel) (t := a)
    rw [hwithdraws, hworker, hlistening, h.listening]
    exact ⟨hcapacity, (Channel.withdraw_used h.used).1, haccepting, rfl⟩

theorem Slotted.step (h : Slotted requested τ s) (crossing : Crossing s) (hs : s.step c a = some s') :
    Slotted requested (τ ++ [s.label c a]) s' := by
  have able := running_of_step hs
  have turn := turn_of_step hs
  obtain ⟨asked, work, hlabel, stride⟩ := stride_of_step hs
  rw [hlabel] at turn ⊢
  cases stride with
  | cancelled runner aborted => exact h.quiet turn
  | panicked doing answer narrowed state residual others => exact h.quiet turn
  | ended before narrowed state residual others => exact h.quiet turn
  | @asked q rest reply s₁ s' doing answer channel state residual others =>
    have passage := passage_of_perform answer
    have held (item) (hq : q = .commit item) : a ∈ s.channel.granted := by
      subst hq
      exact crossing.held able doing
    obtain ⟨hused, hcapacity⟩ := passage.slots h.used held
    refine ⟨?_, ?_, ?_, ?_, h.cut_concat fun hshut => ?_⟩
    · rw [channel, hcapacity, h.capacity]
    · rw [channel, hcapacity]
      exact hused
    · rw [channel, passage.accepting, h.accepting, closed_concat, Bool.not_or]
      rfl
    · rw [channel, passage.gates.1, h.listening, machine_of_asked turn]
    · have htimely := passage.timely fun _ => hshut
      rw [hshut] at htimely
      show (committed? ⟨q, reply⟩).map _ = none
      rw [(committed?_of_timely htimely).1]
      rfl

theorem Run.slotted (new : s₀.IsNew) (capacity : s₀.channel = .empty requested) (h : Run c s₀ τ s) :
    Slotted requested τ s := by
  induction h with
  | refl =>
    refine ⟨?_, ?_, ?_, ?_, rfl⟩
    · rw [capacity]
      rfl
    · rw [capacity]
      exact Nat.zero_le _
    · rw [capacity]
      rfl
    · rw [capacity, new.worker]
      rfl
  | step before h ih => exact ih.step (before.crossing new) h
  | call before f ih =>
    refine ⟨ih.capacity, ih.used, ?_, ih.listening, ih.cut_concat fun _ => rfl⟩
    rw [closed_concat]
    exact ih.accepting.trans (congrArg _ (Bool.or_false _).symm)
  | outside before h ih =>
    obtain ⟨hcapacity, hused, haccepting, hlistening, hcut⟩ := ih
    rw [← h.channel, ← h.worker] at *
    exact ⟨hcapacity, hused, haccepting, hlistening, hcut⟩

/-! ### What senders are told -/

/-- Whoever tries to send while the bus is open and its worker is there is let in just if there is a slot. -/
theorem Slotted.impatient (h : Slotted requested τ s) (opened : closed τ = false)
    (there : s.worker.machine.phase.isOver = false) {e : D.Event} {reply : Except BusError Unit}
    (hs : s.step c a = some s') (hlabel : s.label c a = .moved a (some ⟨.trySend e, reply⟩) work) :
    s.channel.used = max requested 1 ∧ reply = .error .full ∧ s'.channel = s.channel ∨
      s.channel.used < max requested 1 ∧ reply = .ok () ∧
        s'.channel = { s.channel with queue := s.channel.queue ++ [.event e] } := by
  obtain ⟨asked, work', hlabel', stride⟩ := stride_of_step hs
  obtain rfl : some ⟨.trySend e, reply⟩ = asked :=
    congrArg Label.asked? (hlabel.symm.trans hlabel')
  cases stride with
  | @asked q rest reply s₁ s' doing answer channel =>
    have accepting : s.channel.accepting = true := by rw [h.accepting, opened]; rfl
    have listening : s.channel.listening = true := by rw [h.listening, there]; rfl
    rw [channel, ← h.capacity]
    cases performed_of_perform answer with
    | sent _ _ room e =>
      exact Or.inr ⟨Nat.lt_of_le_of_ne h.used (mt (Channel.free_eq_zero h.used).mpr room), rfl, rfl⟩
    | full _ _ noRoom e => exact Or.inl ⟨(Channel.free_eq_zero h.used).mp noRoom, rfl, rfl⟩
    | refused closed e => simp [accepting, listening] at closed

/-- A sender is only told that it is too late after closing has begun, and its slot goes to the first who
waits. -/
theorem Slotted.gives_back (h : Slotted requested τ s) (crossing : Crossing s)
    {item : Command (Receiver D) D.Event} (hs : s.step c a = some s')
    (hlabel : s.label c a = .moved a (some ⟨.commit item, false⟩) work) :
    closed τ = true ∧ a ∈ s.channel.granted ∧ s'.channel.queue = s.channel.queue ∧
      s'.channel.waiting = s.channel.waiting.drop 1 ∧
      s'.channel.granted = s.channel.granted.erase a ++ s.channel.waiting.take 1 := by
  obtain ⟨asked, work', hlabel', stride⟩ := stride_of_step hs
  obtain rfl : some ⟨.commit item, false⟩ = asked :=
    congrArg Label.asked? (hlabel.symm.trans hlabel')
  cases stride with
  | @asked q rest reply s₁ s' doing answer channel =>
    have held := crossing.held (running_of_step hs) doing
    have passage := passage_of_perform answer
    rw [← channel] at passage
    generalize s'.channel = ch at passage ⊢
    cases passage with
    | gaveUp hclosed item =>
      rw [h.accepting, Bool.not_eq_false'] at hclosed
      exact ⟨hclosed, held, Channel.withdraw_of_granted crossing.lanes.fair h.used held⟩
    | apart apart => exact apart.elim

end

section
variable {E K X : Type} {Q : Signature} {ops : List (Operation E K)} {c : Cast (busDomain E K Q X)}
  {τ : List (Label (busDomain E K Q X))} {s₀ s : System (busDomain E K Q X)} {requested i : Nat}
  {op : Operation E K}

structure SlotsKept (requested : Nat) (ops : List (Operation E K)) (c : Cast (busDomain E K Q X))
    (τ : List (Label (busDomain E K Q X))) (s : System (busDomain E K Q X)) : Prop where
  /-- The queue holds what was committed and not taken yet. -/
  queue : (committed τ).map Prod.snd = taken (worked τ) ++ s.channel.queue
  /-- Nobody holds two slots, and nobody who does not want one. -/
  holders : s.channel.granted.Nodup ∧ ∀ a ∈ s.channel.granted,
    (∃ item rest, s.active a = some (.ask (.commit item) rest)) ∨
      ∃ rest, s.active a = some (.ask .awaitSlot rest)
  /-- Slots that hold items and slots that senders hold are not more than there are. -/
  used : s.channel.used ≤ max requested 1
  /-- Nobody is in the line while a slot is free. -/
  line : s.channel.waiting ≠ [] → s.channel.used = max requested 1
  /-- To send and to register wait for nothing but that. -/
  waits : ∀ i op, ops[i]? = some op → op.isPatient = true → s.result? i = none →
    s.step c (.call i) = none → .call i ∈ s.channel.waiting ∧ s.channel.used = max requested 1
  /-- To try to send never waits, and comes back with what it was told. -/
  tries : ∀ i e, ops[i]? = some (.trySend e) → (s.result? i = none → s.step c (.call i) ≠ none) ∧
    ∀ r, s.result? i = some r → ∃ reply, told (.call i) τ = [⟨.trySend e, reply⟩] ∧ r = .ok reply
  /-- On an open bus with a worker it is told that the queue is full just if no slot is free. -/
  tried : ∀ a e reply work s', closed τ = false → s.worker.machine.phase.isOver = false →
    s.step c a = some s' → s.label c a = .moved a (some ⟨.trySend e, reply⟩) work →
    s.channel.used = max requested 1 ∧ reply = .error .full ∧ s'.channel = s.channel ∨
      s.channel.used < max requested 1 ∧ reply = .ok () ∧
        s'.channel = { s.channel with queue := s.channel.queue ++ [.event e] }
  /-- Whoever gives up because closing has begun passes its slot on. -/
  gives_back : ∀ a item work s', s.step c a = some s' →
    s.label c a = .moved a (some ⟨.commit item, false⟩) work →
    closed τ = true ∧ a ∈ s.channel.granted ∧ s'.channel.queue = s.channel.queue ∧
      s'.channel.waiting = s.channel.waiting.drop 1 ∧
      s'.channel.granted = s.channel.granted.erase a ++ s.channel.waiting.take 1
  /-- Whoever is on the way when closing has begun is turned away in the end, whatever else begins. -/
  turned_away : closed τ = true → ∀ i op, ops[i]? = some op → op.isPatient = true →
    .call i ∈ s.channel.senders → ∀ (ops' : List (Operation E K)) τ' s', Run c s τ' s' →
    began τ' = ops'.map Operation.activity → s'.isSettled c = true →
    s'.worker.machine.phase.isCalling = false →
    s'.result? i = some (.ok (.error .closed)) ∧ committedBy (.call i) (τ ++ τ') = []
  /-- When nobody can go on and no receiver is at work, every operation has come back. -/
  returns : s.isSettled c = true → s.worker.machine.phase.isCalling = false →
    ∀ i < ops.length, s.result? i ≠ none
  /-- Once closing has begun nobody can go on for ever. -/
  ends : closed τ = true → Acc (Next c) s

theorem Operation.item_of_isPatient (h : op.isPatient = true) :
    ∃ item, op.item? (Q := Q) (X := X) = some item := by
  cases op with
  | send e => exact ⟨_, rfl⟩
  | register k => exact ⟨_, rfl⟩
  | _ => cases h

/-- Whoever is on the way has committed nothing yet. -/
theorem Followed.uncommitted (h : Followed τ s) (crossing : Crossing s)
    (began : began τ = ops.map Operation.activity) (hop : ops[i]? = some op)
    (patient : op.isPatient = true) (hon : .call i ∈ s.channel.senders) :
    committedBy (.call i) τ = [] := by
  obtain ⟨q, rest, hr⟩ := crossing.next_of_sender hon
  obtain ⟨item, hitem⟩ := Operation.item_of_isPatient (Q := Q) (X := X) patient
  obtain ⟨task, htask, hfollows⟩ := h.operation began hop
  have hactive : s.active (.call i) = task.residual := residual_call htask
  rw [hactive] at hr
  rw [committedBy_eq]
  generalize told (.call i) τ = xs at hfollows
  cases hfollows with
  | returned path => cases hr
  | panicked path panics => cases hr
  | running path =>
    cases Operation.sending path (by simp [patient]) hitem with
    | underway asks nothing => exact nothing
    | _ => cases hr

/-- Whoever has committed nothing and comes back is turned away. -/
theorem Followed.turned_away (h : Followed τ s) (began : began τ = ops.map Operation.activity)
    (hop : ops[i]? = some op) (patient : op.isPatient = true)
    (nothing : committedBy (.call i) τ = []) {r} (result : s.result? i = some r) :
    r = .ok (.error .closed) := by
  obtain ⟨item, hitem⟩ := Operation.item_of_isPatient (Q := Q) (X := X) patient
  obtain ⟨task, htask, hfollows⟩ := h.operation began hop
  cases htask.symm.trans (calls_of_result result)
  obtain ⟨v, rfl, hsending⟩ := Operation.sending_of_ended hfollows (by simp [patient]) hitem
  rw [committedBy_eq] at nothing
  generalize told (.call i) τ = xs at hsending nothing
  cases hsending with
  | sent once => cases nothing.symm.trans once
  | refused nothing late => rfl
  | full impatient =>
    subst impatient
    cases patient

theorem Followed.tries (h : Followed τ s) (began : began τ = ops.map Operation.activity) {e : E}
    (hop : ops[i]? = some (.trySend e)) {r} (result : s.result? i = some r) :
    ∃ reply, told (.call i) τ = [⟨.trySend e, reply⟩] ∧ r = .ok reply := by
  obtain ⟨task, htask, hfollows⟩ := h.operation began hop
  cases htask.symm.trans (calls_of_result result)
  generalize told (.call i) τ = xs at hfollows ⊢
  rw [Operation.routine_activity] at hfollows
  cases hfollows with
  | returned path =>
    obtain ⟨-, hask⟩ | ⟨reply, xs₁, rfl, h₁⟩ := Path.of_ask path
    · cases hask
    · obtain ⟨rfl, hv⟩ := Path.of_done h₁
      cases hv
      exact ⟨_, rfl, rfl⟩
  | panicked path panics =>
    obtain ⟨-, hask⟩ | ⟨reply, xs₁, -, h₁⟩ := Path.of_ask path
    · cases hask
      exact panics.elim
    · cases (Path.of_done h₁).2

/-- Slots are kept, whoever sends, tries to send, registers and closes, and in whatever order they go on. -/
theorem Run.keeps_slots (new : s₀.IsNew) (capacity : s₀.channel = .empty requested) (h : Run c s₀ τ s)
    (began : began τ = ops.map Operation.activity) : SlotsKept requested ops c τ s := by
  have followed := h.follows new
  have account := h.account new
  have crossing := h.crossing new
  have slotted := h.slotted new capacity
  have fair := crossing.lanes.fair
  have line (hne : s.channel.waiting ≠ []) : s.channel.used = max requested 1 := by
    rw [← slotted.capacity]
    exact (Channel.free_eq_zero slotted.used).mp (fair.full hne)
  refine ⟨account.queue, ⟨(List.nodup_append.mp fair.nodup).2.1, fun a => crossing.next_of_granted⟩,
    slotted.capacity ▸ slotted.used, line, ?_, ?_, ?_, ?_, ?_, ?_, ?_⟩
  · intro i op hop patient hnone hblocked
    have hne : op ≠ .close := by
      rintro rfl
      cases patient
    obtain ⟨-, rest, hr⟩ := followed.stuck crossing began hop hne hnone hblocked
    have hline := (crossing.blocked hr hblocked).1
    exact ⟨hline, line (List.ne_nil_of_mem hline)⟩
  · intro i e hop
    refine ⟨fun hnone hblocked => ?_, fun r => followed.tries began hop⟩
    cases (followed.stuck crossing began hop nofun hnone hblocked).1
  · exact fun a e reply work s' opened there => slotted.impatient opened there
  · exact fun a item work s' => slotted.gives_back crossing
  · intro hclosed i op hop patient hon ops' τ' s' h' began' settled between
    have whole := h.trans h'
    have wholly : Reveille.began (τ ++ τ') = (ops ++ ops').map Operation.activity := by
      rw [List.map_append, ← began, ← began']
      exact List.filterMap_append
    have hlen := (List.getElem?_eq_some_iff.mp hop).1
    have hop' : (ops ++ ops')[i]? = some op := by rwa [List.getElem?_append_left hlen]
    have nothing : committedBy (.call i) (τ ++ τ') = [] := by
      rw [committedBy, (whole.slotted new capacity).cut, beforeClosing_append, if_pos hclosed,
        ← slotted.cut]
      exact followed.uncommitted crossing began hop patient hon
    have slotted' := whole.slotted new capacity
    have came := (whole.follows new).comes_back (whole.crossing new) (whole.account new)
      (isSettled_iff.mp settled) between wholly slotted'.listening slotted'.accepting (i := i)
      (by rw [List.length_append]; omega)
    obtain ⟨r, hr⟩ := Option.ne_none_iff_exists'.mp came
    obtain rfl := (whole.follows new).turned_away wholly hop' patient nothing hr
    exact ⟨hr, nothing⟩
  · intro settled between i hi
    exact followed.comes_back crossing account (isSettled_iff.mp settled) between began
      slotted.listening slotted.accepting hi
  · intro hclosed
    refine Shut.settles ⟨crossing.unstaffed, ?_, account.calling⟩
    rw [slotted.accepting, hclosed]
    rfl

end

/-! ### A sender in the line when closing begins -/

/-- No slot was asked for, so there is one, and the event in it keeps the third call waiting while closing
begins. -/
theorem keeps_slots_crowd :
    (narrow.play touchy (rush.take 23)).2.channel.waiting = [.call 2] ∧
    (narrow.play touchy (rush.take 23)).2.channel.used = 1 ∧
    closed (narrow.play touchy (rush.take 23)).1 = true ∧
    ((narrow.play touchy (rush.take 23)).2.play touchy (rush.drop 23)).2.result? 2 =
      some (.ok (.error .closed)) := by
  have new : narrow.IsNew := ⟨⟨1, rfl⟩, rfl, rfl, rfl⟩
  have began : began (narrow.play touchy (rush.take 23)).1 = crowd.map Operation.activity :=
    began_play (rush.take 23)
  have kept := Run.keeps_slots new (rfl : narrow.channel = .empty 0) (Run.played (rush.take 23)) began
  have waiting : (narrow.play touchy (rush.take 23)).2.channel.waiting = [.call 2] := by
    decide +kernel
  have closed : closed (narrow.play touchy (rush.take 23)).1 = true := by decide +kernel
  refine ⟨waiting, kept.line (by rw [waiting]; exact List.cons_ne_nil _ _), closed, ?_⟩
  refine (kept.turned_away closed 2 (.send 2) rfl rfl ?_ [] _ _ (Run.played (rush.drop 23))
    (began_play (rush.drop 23)) ?_ ?_).1
  · rw [Channel.senders, waiting]
    exact List.mem_append_left _ (List.mem_append_right _ (List.mem_singleton.mpr rfl))
  · decide +kernel
  · decide +kernel

end Reveille.System
