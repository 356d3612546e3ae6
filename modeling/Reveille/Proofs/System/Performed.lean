import Reveille.Proofs.Bus.Channel
import Reveille.System.Step

/-!
# How requests are answered

`Performed` lists the ways in which a request of a routine is answered, one constructor for each, with what
must be the case for it, the answer, and the system afterwards.  Every answer is one of them
(`performed_of_perform`), and whatever is to be shown of all requests is shown by cases on this list.
-/

namespace Reveille.System

variable {D : Domain}

inductive Performed (c : Cast D) (a : Actor) (s : System D) :
    (q : Request D) → Answer q.Reply → System D → Prop
  | readTime (source : TimeSource) :
      Performed c a s (.readTime source) (.reply (s.timeOn source)) (s.afterReading source)
  | elapsed : Performed c a s .elapsed (.reply s.time) s
  | slept {time : Nat} (due : time ≤ s.time) : Performed c a s (.sleepUntil time) (.reply ()) s
  | drawn : Performed c a s .draw (.reply (s.draws.headD mostDraw)) { s with draws := s.draws.tail }
  | panicked (p : Panic) : Performed c a s (.panic p) (.panicked p) s
  | logged (line : Log.Line) : Performed c a s (.log line) (.reply ()) (s.addLines [line])
  | entered (accepting : s.channel.accepting = true) : Performed c a s .enter (.reply true)
      { s with channel := { s.channel with entered := a :: s.channel.entered } }
  | shutOut (closed : s.channel.accepting = false) : Performed c a s .enter (.reply false) s
  | slotRequested : Performed c a s .requestSlot (.reply ())
      { s with channel := s.channel.requestSlot a }
  | granted (listening : s.channel.listening = true) (held : a ∈ s.channel.granted) :
      Performed c a s .awaitSlot (.reply true) s
  | sentAway (gone : s.channel.listening = false) : Performed c a s .awaitSlot (.reply false)
      { s with channel := s.channel.withdraw a }
  | committed (accepting : s.channel.accepting = true) (item : Bus.Command (Receiver D) D.Event) :
      Performed c a s (.commit item) (.reply true) { s with channel :=
        { s.channel with queue := s.channel.queue ++ [item], granted := s.channel.granted.erase a } }
  | gaveUp (closed : s.channel.accepting = false) (item : Bus.Command (Receiver D) D.Event) :
      Performed c a s (.commit item) (.reply false) { s with channel := s.channel.withdraw a }
  | sent (accepting : s.channel.accepting = true) (listening : s.channel.listening = true)
      (room : s.channel.free ≠ 0) (e : D.Event) : Performed c a s (.trySend e) (.reply (.ok ()))
      { s with channel := { s.channel with queue := s.channel.queue ++ [.event e] } }
  | full (accepting : s.channel.accepting = true) (listening : s.channel.listening = true)
      (noRoom : s.channel.free = 0) (e : D.Event) :
      Performed c a s (.trySend e) (.reply (.error .full)) s
  | refused (closed : s.channel.accepting = false ∨ s.channel.listening = false) (e : D.Event) :
      Performed c a s (.trySend e) (.reply (.error .closed)) s
  | beginClose : Performed c a s .beginClose (.reply s.channel.accepting)
      { s with channel := s.channel.close }
  | isClosed : Performed c a s .isClosed (.reply s.isClosed) s
  | workerOver {result : Except Panic Unit} (ending : s.worker.machine.ending? = some result) :
      Performed c a s .awaitWorker (.reply (s.workerNumber, result)) s
  | isInboxOpen (i : Nat) : Performed c a s (.isInboxOpen i) (.reply (s.isRunning i)) s
  | pushed {i : Nat} (running : s.isRunning i = true) (e : D.Event) :
      Performed c a s (.push i e) (.reply true)
        (s.modifyRunner i fun t => { t with inbox := t.inbox ++ [e] })
  | missed {i : Nat} (notRunning : s.isRunning i = false) (e : D.Event) :
      Performed c a s (.push i e) (.reply false) s
  | hired (service : D.Service) : Performed c a s (.hire service) (.reply s.runners.length)
      { s with runners := s.runners ++ [{ service, machine := .init (c.service service).jitter }] }
  | launched (i : Nat) : Performed c a s (.launch i) (.reply ())
      (s.modifyRunner i fun t => { t with launched := true })
  | released {i : Nat} {t : RunnerTask D} (runner : s.runners[i]? = some t)
      (seeded : t.machine.phase.isSeeding = false) : Performed c a s (.release i) (.reply ())
      (s.modifyRunner i fun t => { t with released := true })
  | seedingPanicked {i : Nat} {t : RunnerTask D} {p : Panic} (runner : s.runners[i]? = some t)
      (seeding : t.machine.phase.isSeeding = true) (ending : t.ending = some (.panicked p)) :
      Performed c a s (.release i) (.panicked p) s
  | stopRequested (i : Nat) : Performed c a s (.requestStop i) (.reply ())
      (s.modifyRunner i fun t => { t with stopRequested := true })
  | ended {i : Nat} {e : Ending} (ending : s.runners[i]?.bind (·.ending) = some e)
      (until? : Option Nat) : Performed c a s (.awaitEnd i until?) (.reply (some e)) s
  | timedOut {i time : Nat} (ending : s.runners[i]?.bind (·.ending) = none) (due : time ≤ s.time) :
      Performed c a s (.awaitEnd i (some time)) (.reply none) s
  | aborted (i : Nat) : Performed c a s (.abort i) (.reply ())
      (s.modifyRunner i fun t => { t with aborted := true })
  | called {q : D.Calls.Request} {answer : Answer (D.Calls.Reply q)} {state : D.State}
      (answered : c.answer q s.state = some (answer, state)) :
      Performed c a s (.call q) answer { s with state }

variable {c : Cast D} {a : Actor} {s s' : System D} {q : Request D} {answer : Answer q.Reply}

theorem performed_of_perform (h : s.perform c a q = some (answer, s')) :
    Performed c a s q answer s' := by
  cases q with
  | readTime source => cases h; exact .readTime source
  | elapsed => cases h; exact .elapsed
  | sleepUntil time =>
    simp only [perform] at h
    split at h <;> cases h
    next due => exact .slept due
  | draw => cases h; exact .drawn
  | panic p => cases h; exact .panicked p
  | hang => cases h
  | log line => cases h; exact .logged line
  | enter =>
    simp only [perform] at h
    split at h <;> cases h
    · next channel hch =>
      obtain ⟨accepting, rfl⟩ := Bus.Channel.enter_eq_some.mp hch
      exact .entered accepting
    · next hch => exact .shutOut (Bus.Channel.enter_eq_none.mp hch)
  | requestSlot => cases h; exact .slotRequested
  | awaitSlot =>
    simp only [perform] at h
    split at h <;> cases h
    · next hslot =>
      obtain ⟨listening, held⟩ := Bus.Channel.slot?_eq_true.mp hslot
      exact .granted listening held
    · next hslot => exact .sentAway (Bus.Channel.slot?_eq_false.mp hslot)
  | commit item =>
    simp only [perform] at h
    cases hacc : s.channel.accepting with
    | true =>
      rw [hacc, Bus.Channel.commit_of_accepting hacc] at h
      cases h
      exact .committed hacc item
    | false =>
      rw [hacc, Bus.Channel.commit_of_closed hacc] at h
      cases h
      exact .gaveUp hacc item
  | trySend e =>
    rw [perform] at h
    rcases s.channel.trySend_cases (.event e) with ⟨accepting, listening, room, hch⟩ |
      ⟨accepting, listening, noRoom, hch⟩ | ⟨closed, hch⟩ <;> rw [hch] at h <;> cases h
    · exact .sent accepting listening room e
    · exact .full accepting listening noRoom e
    · exact .refused closed e
  | beginClose => cases h; exact .beginClose
  | isClosed => cases h; exact .isClosed
  | awaitWorker =>
    simp only [perform, Option.map_eq_some_iff] at h
    obtain ⟨result, ending, h⟩ := h
    cases h
    exact .workerOver ending
  | isInboxOpen i => cases h; exact .isInboxOpen i
  | push i e =>
    simp only [perform] at h
    split at h <;> cases h
    · next running => exact .pushed running e
    · next notRunning => exact .missed (Bool.eq_false_iff.mpr notRunning) e
  | hire service => cases h; exact .hired service
  | launch i => cases h; exact .launched i
  | release i =>
    simp only [perform] at h
    split at h
    · cases h
    · next t runner =>
      split at h
      · next seeding =>
        split at h <;> cases h
        next ending => exact .seedingPanicked runner seeding ending
      · next seeded =>
        cases h
        exact .released runner (Bool.eq_false_iff.mpr seeded)
  | requestStop i => cases h; exact .stopRequested i
  | awaitEnd i until? =>
    simp only [perform] at h
    split at h
    · next ending =>
      cases h
      exact .ended ending until?
    · next ending =>
      split at h <;> cases h
      next due =>
        obtain ⟨time, rfl, due⟩ := (Option.any_eq_true _ _).mp due
        exact .timedOut ending (of_decide_eq_true due)
  | abort i => cases h; exact .aborted i
  | call q =>
    simp only [perform, Option.map_eq_some_iff] at h
    obtain ⟨⟨answer, state⟩, answered, h⟩ := h
    cases h
    exact .called answered

/-- Nothing else is needed for an answer than what the list says. -/
theorem perform_of_performed (h : Performed c a s q answer s') :
    s.perform c a q = some (answer, s') := by
  cases h with
  | slept due => exact if_pos due
  | entered accepting => simp [perform, Bus.Channel.enter_eq_some.mpr ⟨accepting, rfl⟩]
  | shutOut closed => simp [perform, Bus.Channel.enter_eq_none.mpr closed]
  | granted listening held => simp [perform, Bus.Channel.slot?_eq_true.mpr ⟨listening, held⟩]
  | sentAway gone => simp [perform, Bus.Channel.slot?_eq_false.mpr gone]
  | committed accepting item => simp [perform, accepting, Bus.Channel.commit_of_accepting accepting]
  | gaveUp closed item => simp [perform, closed, Bus.Channel.commit_of_closed closed]
  | sent accepting listening room e =>
    simp [perform, Bus.Channel.trySend, accepting, listening, room]
  | full accepting listening noRoom e =>
    simp [perform, Bus.Channel.trySend, accepting, listening, noRoom]
  | refused closed e => rcases closed with h | h <;> simp [perform, Bus.Channel.trySend, h]
  | workerOver ending => simp [perform, ending]
  | pushed running e => exact if_pos running
  | missed notRunning e => simp [perform, notRunning]
  | released runner seeded => simp [perform, runner, seeded]
  | seedingPanicked runner seeding ending => simp [perform, runner, seeding, ending]
  | ended ending until? => simp [perform, ending]
  | timedOut ending due => simp [perform, ending, due]
  | called answered => simp [perform, answered]
  | _ => rfl

end Reveille.System
