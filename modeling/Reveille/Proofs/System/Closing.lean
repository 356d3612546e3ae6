import Reveille.Proofs.Bus.Worker
import Reveille.Proofs.System.History

/-!
# When closing begins

Closing begins with the first request to close, which is the only one that is told so (`closes`).  From
then on whoever asks is turned away, and before it nobody is: what an actor is told about the queue is
timely (`Run.timely`).  So nothing is committed after closing has begun (`committed_of_timely`).

The worker goes on until the queue has ended; when it stops its receivers nobody is let in any more and
the queue is empty for good (`Gate`).
-/

namespace Reveille

open Bus Bus.Worker

variable {D : Domain}

namespace System

def closes : Exchange D.requests → Bool
  | ⟨.beginClose, (reply : Bool)⟩ => reply
  | _ => false

/-- The reply is one of an open bus, or of one whose closing has begun. -/
def timely (closed : Bool) : Exchange D.requests → Bool
  | ⟨.enter, (reply : Bool)⟩ => reply == !closed
  | ⟨.commit _, (reply : Bool)⟩ => reply == !closed
  | ⟨.beginClose, (reply : Bool)⟩ => reply == !closed
  | ⟨.awaitSlot, (reply : Bool)⟩ => reply || closed
  | ⟨.trySend _, (reply : Except BusError Unit)⟩ =>
    match reply with
    | .ok () => !closed
    | .error .full => !closed
    | .error .closed => closed
    | .error _ => false
  | _ => true

def reportsEnd : Exchange D.requests → Bool
  | ⟨.awaitWorker, _⟩ => true
  | _ => false

end System

namespace Label

def asked? : Label D → Option (Exchange D.requests)
  | .moved _ asked _ => asked
  | .began _ => none

def closes (l : Label D) : Bool := l.asked?.any System.closes

def timely (closed : Bool) (l : Label D) : Bool := l.asked?.all (System.timely closed)

end Label

def closed (τ : List (Label D)) : Bool := τ.any Label.closes

def timelyFrom : Bool → List (Label D) → Bool
  | _, [] => true
  | closed, l :: τ => l.timely closed && timelyFrom (closed || l.closes) τ

namespace System

variable {c : Cast D} {s₀ s s' : System D} {τ : List (Label D)} {l : Label D} {a : Actor}
  {q : Request D} {reply : q.Reply} {ch ch' : Queue D}

theorem closed_concat : closed (τ ++ [l]) = (closed τ || l.closes) := by
  simp [closed]

theorem timelyFrom_append {b : Bool} {τ' : List (Label D)} :
    timelyFrom b (τ ++ τ') = (timelyFrom b τ && timelyFrom (b || closed τ) τ') := by
  induction τ generalizing b with
  | nil => simp [timelyFrom, closed]
  | cons l τ ih => simp [timelyFrom, ih, closed, Bool.and_assoc, Bool.or_assoc]

theorem eq_of_closes {x : Exchange D.requests} (h : closes x = true) : x = ⟨.beginClose, true⟩ := by
  obtain ⟨q, reply⟩ := x
  cases q with
  | beginClose => exact congrArg (Exchange.mk (S := D.requests) .beginClose) h
  | _ => cases h

theorem request_of_closes {x : Exchange D.requests} (h : closes x = true) : x.request = .beginClose := by
  rw [eq_of_closes h]

def Request.LeavesOpen (q : Request D) : Prop := q ≠ .beginClose

inductive Request.Sends (item : Command (Receiver D) D.Event) : Request D → Prop
  | enter : Request.Sends item .enter
  | requestSlot : Request.Sends item .requestSlot
  | awaitSlot : Request.Sends item .awaitSlot
  | commit : Request.Sends item (.commit item)

theorem enqueue_sends (item : Command (Receiver D) D.Event) :
    (Routine.enqueue item).Only (Request.Sends item) := by
  refine ⟨.enter, fun letIn => ?_⟩
  cases (letIn : Bool) with
  | false => exact trivial
  | true =>
    refine ⟨.requestSlot, fun _ => ⟨.awaitSlot, fun held => ?_⟩⟩
    cases (held : Bool) with
    | false => exact trivial
    | true =>
      refine ⟨.commit, fun kept => ?_⟩
      cases (kept : Bool) <;> exact trivial

theorem enqueue_only (item : Command (Receiver D) D.Event) :
    (Routine.enqueue item).Only Request.LeavesOpen :=
  (enqueue_sends item).mono fun q h => by cases h <;> exact nofun

/-! ### Replies -/

theorem Passage.accepting (h : Passage a ch q reply ch') :
    ch'.accepting = (ch.accepting && !closes ⟨q, reply⟩) := by
  cases h with
  | closed accepting => exact (Bool.and_false _).symm
  | closedBefore closed => exact (Bool.and_true _).symm
  | requestSlot => exact Channel.promote_same.2.2.1.trans (Bool.and_true _).symm
  | sentAway _ => exact Channel.withdraw_same.2.2.1.trans (Bool.and_true _).symm
  | gaveUp _ item => exact Channel.withdraw_same.2.2.1.trans (Bool.and_true _).symm
  | apart hq =>
    cases q with
    | beginClose => exact False.elim hq
    | _ => exact (Bool.and_true _).symm
  | _ => exact (Bool.and_true _).symm

/-- While the worker is there, or nobody is let in any more, replies are timely. -/
theorem Passage.timely (h : Passage a ch q reply ch')
    (gone : ch.listening = false → ch.accepting = false) :
    System.timely (!ch.accepting) ⟨q, reply⟩ = true := by
  cases h with
  | entered h => simp [System.timely, h]
  | shutOut h => simp [System.timely, h]
  | granted _ _ => rfl
  | sentAway h => simp [System.timely, gone h]
  | committed h item => simp [System.timely, h]
  | gaveUp h item => simp [System.timely, h]
  | sent h _ e => simp [System.timely, h]
  | full h e => simp [System.timely, h]
  | refused h e => simp [System.timely, h.elim id gone]
  | closed h => simp [System.timely, h]
  | closedBefore h => simp [System.timely, h]
  | requestSlot => rfl
  | apart hq =>
    cases q with
    | enter => exact False.elim hq
    | awaitSlot => exact False.elim hq
    | commit item => exact False.elim hq
    | trySend e => exact False.elim hq
    | beginClose => exact False.elim hq
    | _ => rfl

theorem committed?_of_timely {x : Exchange D.requests} (h : System.timely true x = true) :
    committed? x = none ∧ closes x = false := by
  obtain ⟨q, reply⟩ := x
  cases q with
  | commit item =>
    cases (reply : Bool) with
    | false => exact ⟨rfl, rfl⟩
    | true => cases h
  | trySend e =>
    cases (reply : Except BusError Unit) with
    | ok u => cases h
    | error err => exact ⟨rfl, rfl⟩
  | beginClose =>
    cases (reply : Bool) with
    | false => exact ⟨rfl, rfl⟩
    | true => cases h
  | _ => exact ⟨rfl, rfl⟩

/-- Nothing is committed once closing has begun, and it does not begin again. -/
theorem committed_of_timely (h : timelyFrom true τ = true) : committed τ = [] ∧ closed τ = false := by
  induction τ with
  | nil => exact ⟨rfl, rfl⟩
  | cons l τ ih =>
    simp only [timelyFrom, Bool.true_or, Bool.and_eq_true] at h
    obtain ⟨hl, hτ⟩ := h
    obtain ⟨hcommitted, hclosed⟩ := ih hτ
    have hnone : l.committed? = none ∧ l.closes = false := by
      cases l with
      | began f => exact ⟨rfl, rfl⟩
      | moved a asked worked =>
        cases asked with
        | none => exact ⟨rfl, rfl⟩
        | some x =>
          obtain ⟨hx, hcloses⟩ := committed?_of_timely (x := x) hl
          refine ⟨?_, hcloses⟩
          show (committed? x).map _ = none
          rw [hx]
          rfl
    refine ⟨?_, ?_⟩
    · show (l :: τ).filterMap _ = []
      rw [List.filterMap_cons_none hnone.1]
      exact hcommitted
    · show (l :: τ).any _ = false
      rw [List.any_cons, hnone.2]
      exact hclosed

/-! ### The end of the worker -/

/-- How far the bus is on its way to its end. -/
structure Gate (τ : List (Label D)) (s : System D) : Prop where
  accepting : s.channel.accepting = !closed τ
  listening : s.channel.listening = !s.worker.machine.phase.isOver
  leaving : Working s.worker.machine ∨ s.channel.accepting = false ∧ s.channel.queue = []
  timely : timelyFrom false τ = true
  reported : (τ.any fun l => l.asked?.any reportsEnd) = true → s.worker.machine.phase.isOver = true

theorem not_working_of_isOver {w : Worker (Receiver D) D.Event} (h : w.phase.isOver = true) :
    ¬ Working w := by
  obtain ⟨receivers, registered, count, phase⟩ := w
  cases phase with
  | exited => exact id
  | died p => exact id
  | _ => cases h

theorem not_isOver_of_reply {w : Worker (Receiver D) D.Event} (reply : w.request.Reply) :
    w.phase.isOver = false := by
  obtain ⟨receivers, registered, count, phase⟩ := w
  cases phase with
  | exited => cases reply
  | died p => cases reply
  | _ => rfl

theorem lively_of_composed {w : Worker (Receiver D) D.Event} (reply : w.request.Reply)
    (calling : w.phase.isCalling = true) (composed : isComposed ⟨w.phase, reply⟩ = true) :
    Lively w.request reply := by
  obtain ⟨receivers, registered, count, phase⟩ := w
  cases phase with
  | waiting => cases calling
  | surveying e asked rest =>
    match reply with
    | .ok out => exact ⟨out, rfl⟩
    | .error p => cases composed
  | sorting e retired staying asked rest =>
    match reply with
    | .ok out => exact ⟨out, rfl⟩
    | .error p => cases composed
  | _ => exact trivial

theorem Gate.gone (h : Gate τ s) : s.channel.listening = false → s.channel.accepting = false := by
  intro hl
  rw [h.listening, Bool.not_eq_false'] at hl
  exact (h.leaving.resolve_left (not_working_of_isOver hl)).1

theorem Gate.asked (h : Gate τ s) (passage : Passage a s.channel q reply ch')
    (channel : s'.channel = ch') (machine : s'.worker.machine = s.worker.machine)
    (ended : reportsEnd ⟨q, reply⟩ = true → s.worker.machine.phase.isOver = true) :
    Gate (τ ++ [.moved a (some ⟨q, reply⟩) none]) s' := by
  subst channel
  have htimely := passage.timely h.gone
  refine ⟨?_, ?_, ?_, ?_, ?_⟩
  · rw [passage.accepting, h.accepting, closed_concat, Bool.not_or]
    rfl
  · rw [passage.gates.1, machine, h.listening]
  · rw [machine]
    refine h.leaving.imp_right fun ⟨hacc, hqueue⟩ => ?_
    rw [hacc] at htimely
    rw [passage.accepting, passage.queue, hacc, hqueue, (committed?_of_timely htimely).1]
    exact ⟨rfl, rfl⟩
  · rw [timelyFrom_append, h.timely]
    rw [h.accepting, Bool.not_not] at htimely
    simp [timelyFrom, Label.timely, Label.asked?, htimely]
  · rw [List.any_append, machine, Bool.or_eq_true]
    rintro (hbefore | hnow)
    · exact h.reported hbefore
    · exact ended (by simpa [Label.asked?] using hnow)

theorem Gate.quiet (h : Gate τ s) (asked : l.asked? = none)
    (accepting : s'.channel.accepting = s.channel.accepting)
    (listening : s'.channel.listening = !s'.worker.machine.phase.isOver)
    (leaving : Working s'.worker.machine ∨ s'.channel.accepting = false ∧ s'.channel.queue = [])
    (ended : s.worker.machine.phase.isOver = true → s'.worker.machine.phase.isOver = true) :
    Gate (τ ++ [l]) s' := by
  refine ⟨?_, listening, leaving, ?_, ?_⟩
  · rw [accepting, h.accepting, closed_concat, Label.closes, asked]
    simp
  · rw [timelyFrom_append, h.timely]
    simp [timelyFrom, Label.timely, asked]
  · rw [List.any_append, Bool.or_eq_true]
    rintro (hbefore | hnow)
    · exact ended (h.reported hbefore)
    · simp [asked] at hnow

theorem Gate.resumed (h : Gate τ s) {s₁ : System D} (reply : s.worker.machine.request.Reply)
    (accepting : s₁.channel.accepting = s.channel.accepting)
    (listening : s₁.channel.listening = s.channel.listening)
    (leaving : Working (s.worker.machine.resume reply).1 ∨
      s.channel.accepting = false ∧ s₁.channel.queue = []) :
    Gate (τ ++ [.moved .worker none (some ⟨s.worker.machine.phase, reply⟩)])
      (s₁.resumeWorker c s.worker reply) := by
  have hover := not_isOver_of_reply reply
  have hacc : (s₁.resumeWorker c s.worker reply).channel.accepting = s₁.channel.accepting := by
    unfold resumeWorker
    dsimp only [addLines]
    split <;> rfl
  refine h.quiet rfl (hacc.trans accepting) ?_ ?_ fun h => absurd (hover.symm.trans h) nofun
  · show (if (s.worker.machine.resume reply).1.phase.isOver then _ else _ : Queue D).listening =
      !(s.worker.machine.resume reply).1.phase.isOver
    split
    · next hafter =>
      rw [hafter]
      rfl
    · next hafter =>
      rw [Bool.not_eq_true] at hafter
      rw [hafter, ← hover, ← h.listening]
      exact listening
  · rw [hacc, accepting, queue_resumeWorker]
    exact leaving

theorem isOver_of_reportsEnd (answer : s.perform c a q = some (.reply reply, s'))
    (h : reportsEnd ⟨q, reply⟩ = true) : s.worker.machine.phase.isOver = true := by
  cases performed_of_perform answer with
  | workerOver ending => exact isOver_iff.mpr ⟨_, ending⟩
  | _ => cases h

theorem Gate.turn (h : Gate τ s) (account : Account τ s) (turn : Turn c s l s')
    (composed : ∀ x, l.worked? = some x → isComposed x = true) : Gate (τ ++ [l]) s' := by
  have kept {s₁ : System D} (hch : s₁.channel = s.channel) (hw : s₁.worker = s.worker) :
      s₁.channel.listening = (!s₁.worker.machine.phase.isOver) ∧
        (Working s₁.worker.machine ∨ s₁.channel.accepting = false ∧ s₁.channel.queue = []) := by
    rw [hch, hw]
    exact ⟨h.listening, h.leaving⟩
  have goesOn {reply : s.worker.machine.request.Reply} (hl : Lively s.worker.machine.request reply) :
      Working (s.worker.machine.resume reply).1 ∨
        s.channel.accepting = false ∧ s.channel.queue = [] :=
    h.leaving.imp_left fun working => working.resume reply hl
  cases turn with
  | callAsked task answer =>
    exact h.asked (passage_of_perform answer) rfl
      (congrArg WorkerTask.machine (perform_frame answer).1) (isOver_of_reportsEnd answer)
  | callPanicked task answer =>
    have hch := (channel_of_panicked answer).2
    have hw := (perform_frame answer).1
    obtain ⟨hlistening, hleaving⟩ := kept hch hw
    exact h.quiet rfl (congrArg Channel.accepting hch) hlistening hleaving fun ho => by rwa [hw]
  | callReturned task => exact h.quiet rfl rfl h.listening h.leaving id
  | workerAsked routine answer =>
    exact h.asked (passage_of_perform answer) rfl rfl (isOver_of_reportsEnd answer)
  | workerPanicked routine answer panic =>
    have hch := (channel_of_panicked answer).2
    refine h.resumed _ (congrArg Channel.accepting hch) (congrArg Channel.listening hch) ?_
    rw [hch]
    exact goesOn (lively_of_composed _ (isCalling_of_routine account.calling routine) (composed _ rfl))
  | workerReturned routine =>
    exact h.resumed _ rfl rfl
      (goesOn (lively_of_composed _ (isCalling_of_routine account.calling routine) (composed _ rfl)))
  | @workerServed reply s₁ idle source =>
    obtain ⟨waiting, ⟨item, channel, htake, rfl, hx⟩ | ⟨htake, rfl, hx⟩⟩ := served_cases source
    · obtain ⟨-, haccepting, hlistening⟩ := Channel.queue_of_take htake
      refine h.resumed _ haccepting hlistening (Or.inl ?_)
      have hnext : (s.worker.machine.resume reply).1 = (s.worker.machine.next .waiting (some item)).1 :=
        congrArg (fun x : Exchange (Worker.requests (Receiver D) D.Event) =>
          (s.worker.machine.next x.request x.reply).1) hx
      rw [hnext]
      exact Working.take
    · obtain ⟨hqueue, haccepting, -⟩ := Channel.take_eq_ended.mp htake
      exact h.resumed _ rfl rfl (Or.inr ⟨haccepting, hqueue⟩)
  | runnerAsked hired answer aside =>
    refine h.asked (passage_of_perform answer) aside.channel ?_ (isOver_of_reportsEnd answer)
    rw [aside.worker nofun, (perform_frame answer).1]
  | runnerPanicked hired answer aside =>
    have hch := aside.channel.trans (channel_of_panicked answer).2
    have hw := (aside.worker nofun).trans (perform_frame answer).1
    obtain ⟨hlistening, hleaving⟩ := kept hch hw
    exact h.quiet rfl (congrArg Channel.accepting hch) hlistening hleaving fun ho => by rwa [hw]
  | runnerAlone hired aside =>
    have hw := aside.worker nofun
    obtain ⟨hlistening, hleaving⟩ := kept aside.channel hw
    exact h.quiet rfl (congrArg Channel.accepting aside.channel) hlistening hleaving fun ho => by rwa [hw]
  | runnerCancelled runner aborted =>
    obtain ⟨hfree, hqueue, haccepting, hlistening⟩ := Channel.promote_same
    refine h.quiet rfl haccepting (hlistening.trans h.listening) ?_ id
    exact h.leaving.imp_right fun ⟨hacc, hempty⟩ => ⟨haccepting.trans hacc, hqueue.trans hempty⟩

theorem Run.gate (new : s₀.IsNew) (h : Run c s₀ τ s) (composed : (worked τ).all isComposed = true) :
    Gate τ s := by
  induction h with
  | refl =>
    obtain ⟨⟨capacity, hchannel⟩, hworker, -, -⟩ := new
    refine ⟨?_, ?_, ?_, rfl, nofun⟩
    · rw [hchannel]
      rfl
    · rw [hchannel, hworker]
      rfl
    · rw [hworker]
      exact Or.inl trivial
  | step before h ih =>
    rw [worked_concat, List.all_append, Bool.and_eq_true] at composed
    refine (ih composed.1).turn (before.account new) (turn_of_step h) fun x hx => ?_
    rw [hx] at composed
    simpa using composed.2
  | call before f ih =>
    rw [worked_quiet rfl] at composed
    have gate := ih composed
    exact gate.quiet rfl rfl gate.listening gate.leaving id
  | outside before h ih =>
    obtain ⟨haccepting, hlistening, hleaving, htimely, hreported⟩ := ih composed
    rw [← h.channel, ← h.worker] at *
    exact ⟨haccepting, hlistening, hleaving, htimely, hreported⟩

end System

end Reveille
