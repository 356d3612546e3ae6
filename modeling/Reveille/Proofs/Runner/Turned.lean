import Reveille.Runner.Machine

/-!
# How a runner goes on

`Turned` lists the ways in which a runner goes on with the reply to its request, one constructor for each:
the phase it is in, the reply, and the turn that it takes.  Every turn is one of them (`turned_resume`), and
whatever is to be shown of all turns is shown by cases on this list.
-/

namespace Reveille.Runner

variable {E Id F : Type} [DecidableEq Id]

inductive Turned : (r : Runner E Id F) → r.request.Reply → Turn E Id F → Prop
  | seeding (r : Runner E Id F) (now : Instant) :
      Turned { r with phase := .seeding } now (r.goTo (.scanning .seed now))
  | scanning (r : Runner E Id F) (pass : Pass) (now : Instant) (stream : F) :
      Turned { r with phase := .scanning pass now } stream (r.goTo (.collecting pass now {} stream))
  | collected (r : Runner E Id F) (pass : Pass) (now : Instant) (scan : Scan Id) (stream : F) :
      Turned { r with phase := .collecting pass now scan stream } none (r.finishScan pass now scan)
  | item (r : Runner E Id F) (pass : Pass) (now : Instant) (scan : Scan Id) (stream : F)
      (item : Id × DueTime) (rest : F) :
      Turned { r with phase := .collecting pass now scan stream } (some (.ok item, rest))
        (r.goTo (.collecting pass now (scan.add now item) rest))
  | itemFailed (r : Runner E Id F) (pass : Pass) (now : Instant) (scan : Scan Id) (stream : F)
      (e : ServiceError) (rest : F) :
      Turned { r with phase := .collecting pass now scan stream } (some (.error e, rest))
        (saying [.itemFailed e] (r.goTo (.collecting pass now scan rest)))
  | arming (r : Runner E Id F) (pass : Pass) (now : Instant) (interval : Duration) (draw : Nat) :
      Turned { r with phase := .arming pass now } (interval, draw)
        ((r.armRescan now interval draw).finishPass pass)
  | stopped (r : Runner E Id F) :
      Turned { r with phase := .top } true (saying [.stopped] (r.goTo .stopped))
  | working (r : Runner E Id F) : Turned { r with phase := .top } false (r.goTo .timing)
  | late (r : Runner E Id F) (now : Instant) (due : r.wakeDue.isDue now = true) :
      Turned { r with phase := .timing } now (r.goTo .waking)
  | early (r : Runner E Id F) (now : Instant) (notDue : r.wakeDue.isDue now = false) :
      Turned { r with phase := .timing } now (r.goTo (.waiting (r.wakeDue.remaining now)))
  | stoppedWaiting (r : Runner E Id F) (limit : Option Duration) :
      Turned { r with phase := .waiting limit } .stopRequested (saying [.stopped] (r.goTo .stopped))
  | event (r : Runner E Id F) (limit : Option Duration) (e : E) :
      Turned { r with phase := .waiting limit } (.event e) (r.goTo (.receiving e))
  | inboxEnded (r : Runner E Id F) (limit : Option Duration) :
      Turned { r with phase := .waiting limit } .inboxEnded ({ r with inboxOpen := false }.goTo .top)
  | elapsed (r : Runner E Id F) (limit : Option Duration) :
      Turned { r with phase := .waiting limit } .elapsed (r.goTo .waking)
  | wakes (r : Runner E Id F) (now : Instant)
      (due : (r.alarm.due.isDue now || r.rescanAt.isDue now) = true) :
      Turned { r with phase := .waking } now (r.goTo (.scanning .wake now))
  | earlyWake (r : Runner E Id F) (now : Instant)
      (notDue : (r.alarm.due.isDue now || r.rescanAt.isDue now) = false) :
      Turned { r with phase := .waking } now (saying [.earlyWake] (r.goTo .top))
  | receiving (r : Runner E Id F) (e : E) (asked : List Id) :
      Turned { r with phase := .receiving e } asked (r.check (scheduled asked))
  | checked (r : Runner E Id F) (id : Id) (rest : List Id) (due : DueTime) :
      Turned { r with phase := .checking id rest } (.ok due)
        (saying (r.learn id due).2 ((r.learn id due).1.check rest))
  | checkFailed (r : Runner E Id F) (id : Id) (rest : List Id) (e : ServiceError) :
      Turned { r with phase := .checking id rest } (.error e)
        (saying [.checkFailed id e] (r.check rest))
  | advancedUntil (r : Runner E Id F) (id : Id) (rest : List Id) (next : Alarm Id) (due : DueTime) :
      Turned { r with phase := .processing id rest next } (.ok (.advancedUntil due))
        (r.goTo (.judging id due rest next))
  | advanced (r : Runner E Id F) (id : Id) (rest : List Id) (next : Alarm Id) :
      Turned { r with phase := .processing id rest next } (.ok .advanced)
        (r.goTo (.rechecking id rest next))
  | nothingToDo (r : Runner E Id F) (id : Id) (rest : List Id) (next : Alarm Id) :
      Turned { r with phase := .processing id rest next } (.ok .nothingToDoYet)
        (saying [.nothingToDo id] (r.goTo (.rechecking id rest next)))
  | processFailed (r : Runner E Id F) (id : Id) (rest : List Id) (next : Alarm Id) (e : ServiceError) :
      Turned { r with phase := .processing id rest next } (.error e)
        (saying [.processFailed id e] (r.process next rest))
  | rechecked (r : Runner E Id F) (id : Id) (rest : List Id) (next : Alarm Id) (due : DueTime) :
      Turned { r with phase := .rechecking id rest next } (.ok due) (r.goTo (.judging id due rest next))
  | recheckFailed (r : Runner E Id F) (id : Id) (rest : List Id) (next : Alarm Id) (e : ServiceError) :
      Turned { r with phase := .rechecking id rest next } (.error e)
        (saying [.checkFailed id e] (r.process next rest))
  | stillDue (r : Runner E Id F) (id : Id) (due : DueTime) (rest : List Id) (next : Alarm Id)
      (now : Instant) (isDue : due.isDue now = true) :
      Turned { r with phase := .judging id due rest next } now
        (saying [.stillDue id due] (r.process next rest))
  | dueLater (r : Runner E Id F) (id : Id) (due : DueTime) (rest : List Id) (next : Alarm Id)
      (now : Instant) (notDue : due.isDue now = false) :
      Turned { r with phase := .judging id due rest next } now
        (r.process (next.offer due (some id)) rest)
  | ending (r : Runner E Id F) (now : Instant) :
      Turned { r with phase := .ending } now (r.goTo (.arming .wake now))

theorem turned_resume (r : Runner E Id F) (reply : r.request.Reply) :
    Turned r reply (r.resume reply) := by
  obtain ⟨jitter, alarm, rescanAt, shown, inboxOpen, phase⟩ := r
  let r : Runner E Id F := ⟨jitter, alarm, rescanAt, shown, inboxOpen, phase⟩
  cases phase with
  | seeding => exact .seeding r reply
  | scanning pass now => exact .scanning r pass now reply
  | collecting pass now scan stream =>
    match reply with
    | none => exact .collected r pass now scan stream
    | some (.ok item, rest) => exact .item r pass now scan stream item rest
    | some (.error e, rest) => exact .itemFailed r pass now scan stream e rest
  | arming pass now =>
    obtain ⟨interval, draw⟩ := reply
    exact .arming r pass now interval draw
  | top =>
    cases (reply : Bool) with
    | true => exact .stopped r
    | false => exact .working r
  | timing =>
    show Turned _ _ (if _ then _ else _)
    split
    · next due => exact .late r reply due
    · next notDue => exact .early r reply (Bool.eq_false_iff.mpr notDue)
  | waiting limit =>
    match reply with
    | .stopRequested => exact .stoppedWaiting r limit
    | .event e => exact .event r limit e
    | .inboxEnded => exact .inboxEnded r limit
    | .elapsed => exact .elapsed r limit
  | waking =>
    show Turned _ _ (if _ then _ else _)
    split
    · next due => exact .wakes r reply due
    · next notDue => exact .earlyWake r reply (Bool.eq_false_iff.mpr notDue)
  | receiving e => exact .receiving r e reply
  | checking id rest =>
    match reply with
    | .ok due => exact .checked r id rest due
    | .error e => exact .checkFailed r id rest e
  | processing id rest next =>
    match reply with
    | .ok (.advancedUntil due) => exact .advancedUntil r id rest next due
    | .ok .advanced => exact .advanced r id rest next
    | .ok .nothingToDoYet => exact .nothingToDo r id rest next
    | .error e => exact .processFailed r id rest next e
  | rechecking id rest next =>
    match reply with
    | .ok due => exact .rechecked r id rest next due
    | .error e => exact .recheckFailed r id rest next e
  | judging id due rest next =>
    show Turned _ _ (if _ then _ else _)
    split
    · next isDue => exact .stillDue r id due rest next reply isDue
    · next notDue => exact .dueLater r id due rest next reply (Bool.eq_false_iff.mpr notDue)
  | ending => exact .ending r reply
  | stopped => exact nomatch (reply : Empty)

end Reveille.Runner
