import Reveille.Proofs.Poll.Watch

/-!
# What a runner knows about a poll

At each of its phases a runner either knows a due time that misses no time at which its duty will be due
on the poll, or it has still to ask about the poll in the present pass (`Watched`).  Replies that tell
the truth keep this (`Watched.resume`), and so do others that do not make the duty due on the poll
(`Watched.later`).  While the runner waits, its alarm is such a due time.
-/

namespace Reveille

namespace Runner.Scan

variable {Id : Type} {s : Scan Id}

theorem foldl_offer_le (items : List (Id × DueTime)) (a : Alarm Id) :
    (items.foldl (fun a item => a.offer item.2 (some item.1)) a).due ≤ a.due ∧
      ∀ item ∈ items,
        (items.foldl (fun a item => a.offer item.2 (some item.1)) a).due ≤ item.2 := by
  induction items generalizing a with
  | nil => exact ⟨le_refl _, fun _ h => absurd h List.not_mem_nil⟩
  | cons item items ih =>
    obtain ⟨hstart, hitems⟩ := ih (a.offer item.2 (some item.1))
    rw [Alarm.offer_due] at hstart
    refine ⟨hstart.trans (min_le_right _ _), fun other hother => ?_⟩
    rcases List.mem_cons.mp hother with rfl | hother
    · exact hstart.trans (min_le_left _ _)
    · exact hitems other hother

theorem earliest_le_next : s.earliest.due ≤ s.next.due := (foldl_offer_le s.due s.next).1

theorem earliest_le {item : Id × DueTime} (h : item ∈ s.due) : s.earliest.due ≤ item.2 :=
  (foldl_offer_le s.due s.next).2 item h

end Runner.Scan

namespace Poll

open Program Reveille.System

variable {Sink : Type} {X : Signature} {σ : Type} {d : Duty} {id : Id} {x y : Glance}
  {m : Machine Sink X σ}

/-- A pass has found a due time that misses nothing, be it due or not. -/
def Scanned (d : Duty) (id : Id) (scan : Runner.Scan Id) (x : Glance) : Prop :=
  Covers d id scan.next.due x ∨ ∃ due, (id, due) ∈ scan.due ∧ Covers d id due x

def Judged (d : Duty) (id : Id) (due : DueTime) (x : Glance) : Prop :=
  QuietAt d id x ∨ Covers d id due x ∧ due.isDue x.now = false

/-- The runner misses no time at which its duty will be due on the poll. -/
def Watched (d : Duty) (id : Id) (m : Machine Sink X σ) (x : Glance) : Prop :=
  match m.phase with
  | .seeding | .scanning _ _ | .stopped => True
  | .collecting _ now scan stream => stream = d.feed ∨
      ∃ items, stream = Feed.ofList items ∧ Scanned d id (scan.ofItems now items) x
  | .arming _ _ | .top | .timing | .waiting _ | .waking | .ending => Covers d id m.alarm.due x
  | .receiving e => e.poll = id ∨ Covers d id m.alarm.due x
  | .checking poll rest => id ∈ poll :: rest ∨ Covers d id m.alarm.due x
  | .processing poll rest next => id ∈ poll :: rest ∨ Covers d id next.due x
  | .rechecking poll rest next => poll = id ∧ NotDue d id x ∨ id ∈ rest ∨ Covers d id next.due x
  | .judging poll due rest next => poll = id ∧ Judged d id due x ∨ id ∈ rest ∨
      Covers d id next.due x

namespace Undisturbed

theorem scanned {scan : Runner.Scan Id} (h : Undisturbed d id x y) (hs : Scanned d id scan x) :
    Scanned d id scan y := by
  rcases hs with hc | ⟨due, hmem, hc⟩
  · exact Or.inl (h.covers hc)
  · exact Or.inr ⟨due, hmem, h.covers hc⟩

theorem judged {due : DueTime} (h : Undisturbed d id x y) (hj : Judged d id due x) :
    Judged d id due y := by
  rcases hj with hq | ⟨hc, hdue⟩
  · exact Or.inl (h.quietAt hq)
  · right
    rw [h.1]
    exact ⟨h.covers hc, hdue⟩

end Undisturbed

theorem Watched.later (h : Undisturbed d id x y) (hw : Watched d id m x) : Watched d id m y := by
  obtain ⟨jitter, alarm, rescanAt, shown, inboxOpen, phase⟩ := m
  cases phase with
  | seeding => exact trivial
  | scanning pass now => exact trivial
  | stopped => exact trivial
  | collecting pass now scan stream =>
    rcases hw with hfeed | ⟨items, hitems, hs⟩
    · exact Or.inl hfeed
    · exact Or.inr ⟨items, hitems, h.scanned hs⟩
  | arming pass now => exact h.covers hw
  | top => exact h.covers hw
  | timing => exact h.covers hw
  | waiting limit => exact h.covers hw
  | waking => exact h.covers hw
  | ending => exact h.covers hw
  | receiving e => exact hw.imp_right h.covers
  | checking poll rest => exact hw.imp_right h.covers
  | processing poll rest next => exact hw.imp_right h.covers
  | rechecking poll rest next =>
    exact hw.imp (fun hn => ⟨hn.1, h.notDue hn.2⟩) fun hrest => hrest.imp_right h.covers
  | judging poll due rest next =>
    exact hw.imp (fun hj => ⟨hj.1, h.judged hj.2⟩) fun hrest => hrest.imp_right h.covers

/-! ### Replies -/

theorem watched_check {rest : List Id} (h : id ∈ rest ∨ Covers d id m.alarm.due x) :
    Watched d id (m.check rest).1 x := by
  cases rest with
  | nil => exact h.resolve_left List.not_mem_nil
  | cons poll rest => exact h

theorem watched_process {rest : List Id} {next : Alarm Id} (h : id ∈ rest ∨ Covers d id next.due x) :
    Watched d id (m.process next rest).1 x := by
  cases rest with
  | nil => exact h.resolve_left List.not_mem_nil
  | cons poll rest => exact h

theorem Covers.offer {a : Alarm Id} {due : DueTime} {poll : Id}
    (h : Covers d id due x ∨ Covers d id a.due x) :
    Covers d id (a.offer due (some poll)).due x := by
  rcases h with hdue | ha
  · exact hdue.of_le (by rw [Alarm.offer_due]; exact min_le_left _ _)
  · exact ha.of_le (by rw [Alarm.offer_due]; exact min_le_right _ _)

theorem watched_finishScan {pass : Runner.Pass} {now : Instant} {scan : Runner.Scan Id}
    (h : Scanned d id scan x) : Watched d id (m.finishScan pass now scan).1 x := by
  cases pass with
  | seed =>
    show Covers d id scan.earliest.due x
    rcases h with hc | ⟨due, hmem, hc⟩
    · exact hc.of_le Runner.Scan.earliest_le_next
    · exact hc.of_le (Runner.Scan.earliest_le hmem)
  | wake =>
    refine watched_process ?_
    rcases h with hc | ⟨due, hmem, hc⟩
    · exact Or.inr hc
    · left
      exact List.mem_map.mpr ⟨(id, due), Runner.Scan.mem_inOrder.mpr hmem, rfl⟩

/-- The items that the store had make a pass complete. -/
theorem Lists.scanned {now : Instant} {scan : Runner.Scan Id} {items : List (Reported Id)}
    (h : Lists d id items x) : Scanned d id (scan.ofItems now items) x := by
  rcases h with hnever | ⟨due, hmem, hc⟩
  · exact Or.inl (hnever.of_le DueTime.le_never)
  · cases hdue : due.isDue now with
    | true => exact Or.inr ⟨due, Runner.Scan.mem_due_ofItems.mpr (Or.inr ⟨hmem, hdue⟩), hc⟩
    | false => exact Or.inl (hc.of_le (Runner.Scan.next_ofItems_le hmem hdue))

theorem watched_collect {pass : Runner.Pass} {now : Instant} {scan : Runner.Scan Id}
    {stream : Items (place Sink X σ)}
    {reply : Option (Reported Id × Items (place Sink X σ))} {items : List (Reported Id)}
    (hands : HandsOut items reply) (h : Scanned d id (scan.ofItems now items) x) :
    Watched d id (m.next (.collecting pass now scan stream) reply).1 x := by
  obtain ⟨hhead, htail⟩ := hands
  cases items with
  | nil =>
    obtain rfl : reply = none := Option.map_eq_none_iff.mp hhead
    exact watched_finishScan h
  | cons item items =>
    obtain ⟨⟨first, rest⟩, rfl, hfirst⟩ := Option.map_eq_some_iff.mp hhead
    obtain rfl : first = item := hfirst
    obtain rfl : rest = Feed.ofList items := htail _ _ rfl
    cases first with
    | ok item => exact Or.inr ⟨items, rfl, h⟩
    | error e => exact Or.inr ⟨items, rfl, h⟩

/-- So it does, be its stream still the duty's or a list of items. -/
theorem watched_collecting {pass : Runner.Pass} {now : Instant} {scan : Runner.Scan Id}
    {stream : Items (place Sink X σ)} (reply : Option (Reported Id × Items (place Sink X σ)))
    (h : Watched d id { m with phase := .collecting pass now scan stream } x)
    (finds : Finds d id (.nextItem stream) reply x) :
    Watched d id (m.next (.collecting pass now scan stream) reply).1 x := by
  rcases h with rfl | ⟨items, rfl, hs⟩
  · obtain ⟨items, hlists, hands⟩ := finds.2 rfl
    exact watched_collect hands hlists.scanned
  · exact watched_collect (finds.1 items rfl) hs

/-- While another poll is processed, nothing is missed of this one. -/
theorem watched_spared {poll : Id} {rest : List Id} {next : Alarm Id}
    (hphase : m.phase = .processing poll rest next) (hne : poll ≠ id)
    (h : m.request ≠ .processOne id → Watched d id m x) : id ∈ rest ∨ Covers d id next.due x := by
  obtain ⟨jitter, alarm, rescanAt, shown, inboxOpen, phase⟩ := m
  cases hphase
  have hw : id ∈ poll :: rest ∨ Covers d id next.due x := h fun he => hne (by cases he; rfl)
  exact hw.imp_left fun hmem => (List.mem_cons.mp hmem).resolve_left (Ne.symm hne)

theorem covers_learn {poll : Id} {rest : List Id} {due : DueTime}
    (h : id ∈ poll :: rest ∨ Covers d id m.alarm.due x) (tight : poll = id → Tight d id due x) :
    id ∈ rest ∨ Covers d id (m.learn poll due).1.alarm.due x := by
  rcases h with hmem | hc
  · rcases List.mem_cons.mp hmem with rfl | hrest
    · right
      refine Covers.offer (Or.inl ?_)
      rcases tight rfl with hq | ⟨hc, -⟩
      · exact hq.covers
      · exact hc
    · exact Or.inl hrest
  · exact Or.inr (Covers.offer (Or.inr hc))

/-- A poll that is still due when it was just processed needs no alarm: the duty is quiet on it. -/
theorem covers_stillDue {poll : Id} {due : DueTime} {rest : List Id} {next : Alarm Id}
    (h : poll = id ∧ Judged d id due x ∨ id ∈ rest ∨ Covers d id next.due x)
    (isDue : due.isDue x.now = true) : id ∈ rest ∨ Covers d id next.due x := by
  rcases h with ⟨-, hq | ⟨-, hnot⟩⟩ | ho
  · exact Or.inr hq.covers
  · rw [hnot] at isDue
    cases isDue
  · exact ho

/-- The next alarm takes up what was found out about the poll. -/
theorem covers_dueLater {poll : Id} {due : DueTime} {rest : List Id} {next : Alarm Id}
    (h : poll = id ∧ Judged d id due x ∨ id ∈ rest ∨ Covers d id next.due x) :
    id ∈ rest ∨ Covers d id (next.offer due (some poll)).due x := by
  rcases h with ⟨-, hq | ⟨hc, -⟩⟩ | hmem | hc
  · exact Or.inr hq.covers
  · exact Or.inr (Covers.offer (Or.inl hc))
  · exact Or.inl hmem
  · exact Or.inr (Covers.offer (Or.inr hc))

theorem Watched.resume (h : m.request ≠ .processOne id → Watched d id m x)
    (reply : m.request.Reply) (finds : Finds d id m.request reply x) :
    Watched d id (m.resume reply).1 x := by
  have turned := Runner.turned_resume m reply
  generalize m.resume reply = turn at turned ⊢
  cases turned with
  | seeding | stopped | stoppedWaiting | wakes => exact trivial
  | scanning => exact Or.inl finds
  | collected r pass now scan stream =>
    exact watched_collecting none (h (by intro he; cases he)) finds
  | item r pass now scan stream item rest =>
    exact watched_collecting (some (.ok item, rest)) (h (by intro he; cases he)) finds
  | itemFailed r pass now scan stream e rest =>
    exact watched_collecting (some (.error e, rest)) (h (by intro he; cases he)) finds
  | arming | working | late | early | inboxEnded | elapsed | earlyWake | ending =>
    exact h (by intro he; cases he)
  | event => exact Or.inr (h (by intro he; cases he))
  | receiving r e asked =>
    obtain rfl : asked = [e.poll] := finds
    refine watched_check ?_
    rcases h (by intro he; cases he) with rfl | hc
    · exact Or.inl (List.mem_singleton.mpr rfl)
    · exact Or.inr hc
  | checked r poll rest due =>
    obtain ⟨_, hdue, htight⟩ := finds
    cases hdue
    exact watched_check (m := (r.learn poll due).1) (covers_learn (h (by intro he; cases he)) htight)
  | advancedUntil r poll =>
    obtain ⟨_, ho, hsettled⟩ := finds
    cases ho
    by_cases hid : poll = id
    · exact Or.inl ⟨hid, Or.inl (hsettled hid)⟩
    · exact Or.inr (watched_spared rfl hid h)
  | advanced r poll | nothingToDo r poll =>
    obtain ⟨_, ho, hsettled⟩ := finds
    cases ho
    by_cases hid : poll = id
    · exact Or.inl ⟨hid, hsettled hid⟩
    · exact Or.inr (watched_spared rfl hid h)
  | checkFailed | processFailed | recheckFailed =>
    obtain ⟨_, hok, -⟩ := finds
    cases hok
  | rechecked r poll rest next due =>
    obtain ⟨_, hdue, htight⟩ := finds
    cases hdue
    rcases h (by intro he; cases he) with ⟨hid, hnot⟩ | ho
    · left
      refine ⟨hid, ?_⟩
      rcases htight hid with hq | ⟨hc, hdue⟩
      · exact Or.inl hq
      · exact Or.inr ⟨hc, hdue hnot⟩
    · exact Or.inr ho
  | stillDue r poll due rest next now isDue =>
    obtain rfl : now = x.now := finds
    exact watched_process (covers_stillDue (h (by intro he; cases he)) isDue)
  | dueLater => exact watched_process (covers_dueLater (h (by intro he; cases he)))

end Poll

end Reveille
