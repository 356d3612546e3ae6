import Reveille.Proofs.System.Turn

/-!
# Runs of a system and their histories

In a `System.Run` anybody who can make a step may make the next one, calls begin at any time, and the
world outside goes on as it likes.  Its labels tell what was committed to the queue (`committed`) and
what the worker did (`worked`).  What was committed is what the worker took and, after that, what is in
the queue; and what the worker did is a run of it (`Run.account`).

So every receiver is handed just those of the committed events that it is there for, in the order in
which they were committed, whoever sends, registers or closes, and whatever the receivers do
(`Run.delivers_exactly`).
-/

namespace Reveille

open Bus Bus.Worker

variable {D : Domain}

namespace Label

def began? : Label D → Option (Activity D D.Result)
  | .began f => some f
  | .moved _ _ _ => none

def committed? : Label D → Option (Actor × Command (Receiver D) D.Event)
  | .moved a asked _ => (asked.bind System.committed?).map fun item => (a, item)
  | .began _ => none

def worked? : Label D → Option (Exchange (Worker.requests (Receiver D) D.Event))
  | .moved _ _ worked => worked
  | .began _ => none

end Label

def began (τ : List (Label D)) : List (Activity D D.Result) := τ.filterMap Label.began?

def committed (τ : List (Label D)) : List (Actor × Command (Receiver D) D.Event) :=
  τ.filterMap Label.committed?

def worked (τ : List (Label D)) : List (Exchange (Worker.requests (Receiver D) D.Event)) :=
  τ.filterMap Label.worked?

namespace System

structure IsNew (s : System D) : Prop where
  channel : ∃ capacity, s.channel = .empty capacity
  worker : s.worker = {}
  runners : s.runners = []
  calls : s.calls = []

/-- The world outside goes on; it does not touch the bus, the runners and the calls. -/
structure Elsewhere (s s' : System D) : Prop where
  channel : s'.channel = s.channel
  worker : s'.worker = s.worker
  runners : s'.runners = s.runners
  calls : s'.calls = s.calls
  momentum : s'.momentum = s.momentum

/-- A run of a system from some state on, with the labels of its steps. -/
inductive Run (c : Cast D) (s₀ : System D) : List (Label D) → System D → Prop
  | refl : Run c s₀ [] s₀
  | step {τ : List (Label D)} {s s' : System D} (before : Run c s₀ τ s) {a : Actor}
      (h : s.step c a = some s') : Run c s₀ (τ ++ [s.label c a]) s'
  | call {τ : List (Label D)} {s : System D} (before : Run c s₀ τ s) (f : Activity D D.Result) :
      Run c s₀ (τ ++ [.began f]) (s.start f)
  | outside {τ : List (Label D)} {s s' : System D} (before : Run c s₀ τ s) (h : Elsewhere s s') :
      Run c s₀ τ s'

variable {c : Cast D} {s₀ s s' : System D} {τ : List (Label D)} {l : Label D}

theorem Run.trans {s₁ : System D} {τ' : List (Label D)} (h : Run c s₀ τ s₁) (h' : Run c s₁ τ' s) :
    Run c s₀ (τ ++ τ') s := by
  induction h' with
  | refl => rwa [List.append_nil]
  | step before h ih =>
    rw [← List.append_assoc]
    exact ih.step h
  | call before f ih =>
    rw [← List.append_assoc]
    exact ih.call f
  | outside before h ih => exact ih.outside h

theorem worked_concat : worked (τ ++ [l]) = worked τ ++ l.worked?.toList := by
  rw [worked, List.filterMap_append]
  cases h : l.worked? <;> simp [h, worked]

theorem committed_concat : committed (τ ++ [l]) = committed τ ++ l.committed?.toList := by
  rw [committed, List.filterMap_append]
  cases h : l.committed? <;> simp [h, committed]

theorem worked_quiet (h : l.worked? = none) : worked (τ ++ [l]) = worked τ := by
  rw [worked_concat, h, Option.toList_none, List.append_nil]

theorem committed_quiet (h : l.committed? = none) : committed (τ ++ [l]) = committed τ := by
  rw [committed_concat, h, Option.toList_none, List.append_nil]

end System

namespace Bus.Worker

def Phase.isCalling {R E : Type} : Phase R E → Bool
  | .waiting | .exited | .died _ => false
  | _ => true

theorem taken?_of_isCalling {R E : Type} {p : Phase R E} {reply : p.request.Reply}
    (h : p.isCalling = true) : taken? ⟨p, reply⟩ = none := by
  cases p with
  | waiting => cases h
  | _ => rfl

end Bus.Worker

namespace System

variable {c : Cast D} {s₀ s s' : System D} {τ : List (Label D)} {l : Label D}

theorem phase_of_not_isCalling {R T : Type} {p : Phase R T} (h : p.isCalling = false) :
    p = .waiting ∨ p.isOver = true := by
  cases p with
  | waiting => exact Or.inl rfl
  | exited => exact Or.inr rfl
  | died p => exact Or.inr rfl
  | _ => cases h

/-- The queue and the worker as their histories have them. -/
structure Account (τ : List (Label D)) (s : System D) : Prop where
  worker : Worker.Run (worked τ) s.worker.machine
  calling : s.worker.pending ≠ none → s.worker.machine.phase.isCalling = true
  queue : (committed τ).map Prod.snd = taken (worked τ) ++ s.channel.queue

theorem isCalling_of_source {r : Routine D s.worker.machine.request.Reply}
    (h : s.workerSource c s.worker.machine.request = .routine r) :
    s.worker.machine.phase.isCalling = true := by
  rcases s with ⟨time, clock, hostTime, draws, momentum, channel,
    ⟨⟨receivers, registered, count, phase⟩, pending⟩, number, runners, calls, state, log⟩
  cases phase with
  | waiting =>
    have hreceive : workerSource c _ .receive = .routine r := h
    exact absurd hreceive receive_ne_routine
  | exited => cases h
  | died p => cases h
  | _ => rfl

/-- The worker is in a routine only while it waits for a receiver. -/
theorem isCalling_of_routine {r : Routine D s.worker.machine.request.Reply}
    (calling : s.worker.pending ≠ none → s.worker.machine.phase.isCalling = true)
    (h : WorkerIn c s r) : s.worker.machine.phase.isCalling = true := by
  rcases h with h | ⟨-, h⟩
  · exact calling (by rw [h]; exact Option.some_ne_none _)
  · exact isCalling_of_source h

/-- Without a routine the worker is only answered when it takes from the queue. -/
theorem served_cases {reply : s.worker.machine.request.Reply} {s₁ : System D}
    (h : s.workerSource c s.worker.machine.request = .atOnce reply s₁) :
    s.worker.machine.phase = .waiting ∧
      ((∃ item channel, s.channel.take = .item item channel ∧ s₁ = { s with channel } ∧
          (⟨s.worker.machine.phase, reply⟩ : Exchange (Worker.requests (Receiver D) D.Event)) =
            ⟨.waiting, some item⟩) ∨
        s.channel.take = .ended ∧ s₁ = s ∧
          (⟨s.worker.machine.phase, reply⟩ : Exchange (Worker.requests (Receiver D) D.Event)) =
            ⟨.waiting, none⟩) := by
  rcases s with ⟨time, clock, hostTime, draws, momentum, channel,
    ⟨⟨receivers, registered, count, phase⟩, pending⟩, number, runners, calls, state, log⟩
  cases phase with
  | waiting =>
    have hreceive : workerSource c _ .receive = .atOnce reply s₁ := h
    simp only [workerSource] at hreceive
    split at hreceive
    · next item left htake =>
      cases hreceive
      exact ⟨rfl, Or.inl ⟨item, left, htake, rfl, rfl⟩⟩
    · next htake =>
      cases hreceive
      exact ⟨rfl, Or.inr ⟨htake, rfl, rfl⟩⟩
    · cases hreceive
  | _ => cases h

theorem queue_resumeWorker {t : WorkerTask D} (reply : t.machine.request.Reply) :
    (s.resumeWorker c t reply).channel.queue = s.channel.queue := by
  unfold resumeWorker
  dsimp only [addLines]
  split <;> rfl

theorem Account.asked (h : Account τ s) {a : Actor} {x : Exchange D.requests}
    (machine : s'.worker.machine = s.worker.machine)
    (calling : s'.worker.pending ≠ none → s'.worker.machine.phase.isCalling = true)
    (queue : s'.channel.queue = s.channel.queue ++ (System.committed? x).toList) :
    Account (τ ++ [.moved a (some x) none]) s' := by
  refine ⟨?_, calling, ?_⟩
  · rw [worked_quiet rfl, machine]
    exact h.worker
  · rw [worked_quiet rfl, committed_concat, Label.committed?, queue, ← List.append_assoc, ← h.queue,
      List.map_append]
    show _ ++ ((System.committed? x).map _).toList.map _ = _
    cases System.committed? x <;> rfl

theorem Account.alone (h : Account τ s) (quiet : l.worked? = none ∧ l.committed? = none)
    (worker : s'.worker = s.worker) (queue : s'.channel.queue = s.channel.queue) :
    Account (τ ++ [l]) s' := by
  refine ⟨?_, worker ▸ h.calling, ?_⟩
  · rw [worked_quiet quiet.1, worker]
    exact h.worker
  · rw [worked_quiet quiet.1, committed_quiet quiet.2, queue, h.queue]

theorem Account.resumed (h : Account τ s) {s₁ : System D} (reply : s.worker.machine.request.Reply)
    (queue : s.channel.queue = (taken? ⟨s.worker.machine.phase, reply⟩).toList ++ s₁.channel.queue) :
    Account (τ ++ [.moved .worker none (some ⟨s.worker.machine.phase, reply⟩)])
      (s₁.resumeWorker c s.worker reply) := by
  refine ⟨?_, fun hp => absurd rfl hp, ?_⟩
  · rw [worked_concat]
    exact h.worker.step reply
  · rw [committed_quiet rfl, worked_concat, Label.worked?, Option.toList_some, taken_concat,
      queue_resumeWorker, h.queue, queue, List.append_assoc]

theorem Account.turn (h : Account τ s) (turn : Turn c s l s') : Account (τ ++ [l]) s' := by
  have told {reply : s.worker.machine.request.Reply} {s₁ : System D}
      (calling : s.worker.machine.phase.isCalling = true)
      (queue : s₁.channel.queue = s.channel.queue) :
      s.channel.queue = (taken? ⟨s.worker.machine.phase, reply⟩).toList ++ s₁.channel.queue := by
    have hnone : taken? ⟨s.worker.machine.phase, reply⟩ = none := taken?_of_isCalling calling
    rw [hnone, queue]
    rfl
  cases turn with
  | callAsked task answer =>
    obtain ⟨hworker, -⟩ := perform_frame answer
    exact h.asked (congrArg WorkerTask.machine hworker) (by rw [hworker]; exact h.calling)
      (passage_of_perform answer).queue
  | callPanicked task answer =>
    exact h.alone ⟨rfl, rfl⟩ (perform_frame answer).1 (congrArg Channel.queue (channel_of_panicked answer).2)
  | callReturned task => exact h.alone ⟨rfl, rfl⟩ rfl rfl
  | workerAsked routine answer =>
    have calling := isCalling_of_routine h.calling routine
    exact h.asked rfl (fun _ => calling) (passage_of_perform answer).queue
  | workerPanicked routine answer panic =>
    exact h.resumed _ (told (isCalling_of_routine h.calling routine)
      (congrArg Channel.queue (channel_of_panicked answer).2))
  | workerReturned routine => exact h.resumed _ (told (isCalling_of_routine h.calling routine) rfl)
  | workerServed idle source =>
    obtain ⟨-, ⟨item, channel, htake, rfl, hx⟩ | ⟨htake, rfl, hx⟩⟩ := served_cases source
    · refine h.resumed _ ?_
      rw [hx]
      exact (Channel.queue_of_take htake).1
    · refine h.resumed _ ?_
      rw [hx]
      rfl
  | runnerAsked hired answer aside =>
    have hworker := (aside.worker nofun).trans (perform_frame answer).1
    refine h.asked (congrArg WorkerTask.machine hworker) (by rw [hworker]; exact h.calling) ?_
    rw [aside.channel]
    exact (passage_of_perform answer).queue
  | runnerPanicked hired answer aside =>
    refine h.alone ⟨rfl, rfl⟩ ((aside.worker nofun).trans (perform_frame answer).1) ?_
    rw [aside.channel, (channel_of_panicked answer).2]
  | runnerAlone hired aside =>
    exact h.alone ⟨rfl, rfl⟩ (aside.worker nofun) (congrArg Channel.queue aside.channel)
  | runnerCancelled runner aborted => exact h.alone ⟨rfl, rfl⟩ rfl Channel.withdraw_same.2.1

theorem Run.account (new : s₀.IsNew) (h : Run c s₀ τ s) : Account τ s := by
  induction h with
  | refl =>
    obtain ⟨⟨capacity, hchannel⟩, hworker, -, -⟩ := new
    refine ⟨?_, ?_, ?_⟩
    · rw [hworker]
      exact .init
    · rw [hworker]
      exact fun hp => absurd rfl hp
    · rw [hchannel]
      rfl
  | step before h ih => exact ih.turn (turn_of_step h)
  | call before f ih => exact ih.alone ⟨rfl, rfl⟩ rfl rfl
  | outside before h ih =>
    refine ⟨h.worker ▸ ih.worker, h.worker ▸ ih.calling, ?_⟩
    rw [ih.queue, h.channel]

/-- What was committed is what the worker took, followed by the queue.  The calls to the receivers are
made one by one in the order of the chronicle of what was taken, so whenever the worker waits, and after
it exited, everybody was handed the events that they were there for. -/
theorem Run.delivers_exactly (new : s₀.IsNew) (h : Run c s₀ τ s)
    (composed : (worked τ).all isComposed = true) :
    (committed τ).map Prod.snd = taken (worked τ) ++ s.channel.queue ∧
    (chronicle (worked τ)).map Entry.command = taken (worked τ) ∧
    Chronicle.Valid (chronicle (worked τ)) ∧
    (Chronicle.live (chronicle (worked τ))).Sublist (Chronicle.registered (chronicle (worked τ))) ∧
    Worker.calls (worked τ) <+: Chronicle.calls (chronicle (worked τ)) ++
      (Chronicle.live (chronicle (worked τ))).map .stop ∧
    (∀ e target rest, s.worker.machine.phase = .delivering e target rest →
      Worker.calls (worked τ) ++ (target :: rest).map (.event · e) =
        Chronicle.calls (chronicle (worked τ))) ∧
    (s.worker.machine.phase = .waiting ∨ s.worker.machine.phase = .exited →
      ∀ reg ∈ Chronicle.registered (chronicle (worked τ)),
        (Worker.calls (worked τ)).filterMap (Call.eventTo? reg.number) =
          Chronicle.heard reg.number (chronicle (worked τ))) := by
  have account := h.account new
  have faithful := account.worker.faithful composed
  exact ⟨account.queue, faithful.commands, faithful.valid, faithful.valid.live_sublist,
    faithful.calls_prefix,
    fun _ _ _ delivering => faithful.calls_delivering delivering,
    fun between _ hreg => faithful.events_to between hreg⟩

/-! ### Two senders and a receiver that panics -/

inductive Move (D : Domain) where
  | begin (f : Activity D D.Result)
  | step (a : Actor)

def turns (n : Nat) (a : Actor) : List (Move D) := List.replicate n (.step a)

def Move.began? : Move D → Option (Activity D D.Result)
  | .begin f => some f
  | .step _ => none

def play (c : Cast D) (s : System D) : List (Move D) → List (Label D) × System D
  | [] => ([], s)
  | .begin f :: moves =>
    let (τ, s') := play c (s.start f) moves
    (.began f :: τ, s')
  | .step a :: moves =>
    match s.step c a with
    | none => play c s moves
    | some s' =>
      let (τ, s'') := play c s' moves
      (s.label c a :: τ, s'')

/-- What every call that begins and every step keep is kept by all that is made to happen. -/
theorem play_induction {P : List (Label D) → System D → Prop} (moves : List (Move D))
    (call : ∀ f ∈ moves.filterMap Move.began?, ∀ {τ s}, P τ s → P (τ ++ [.began f]) (s.start f))
    (step : ∀ {τ s a s'}, P τ s → s.step c a = some s' → P (τ ++ [s.label c a]) s') (h : P τ s) :
    P (τ ++ (s.play c moves).1) (s.play c moves).2 := by
  induction moves generalizing s τ with
  | nil =>
    rw [System.play, List.append_nil]
    exact h
  | cons move moves ih =>
    cases move with
    | begin f =>
      rw [System.play, List.append_cons]
      exact ih (fun g hg => call g (List.mem_cons_of_mem f hg)) (call f List.mem_cons_self h)
    | step a =>
      unfold System.play
      split
      · exact ih call h
      · next s' hs =>
        rw [List.append_cons]
        exact ih call (step h hs)

theorem Run.play (h : Run c s₀ τ s) (moves : List (Move D)) :
    Run c s₀ (τ ++ (s.play c moves).1) (s.play c moves).2 :=
  play_induction moves (fun f _ _ _ run => run.call f) (fun run hs => run.step hs) h

theorem Run.played (moves : List (Move D)) : Run c s (s.play c moves).1 (s.play c moves).2 := by
  simpa only [List.nil_append] using Run.refl.play moves

theorem began_play (moves : List (Move D)) :
    began (s.play c moves).1 = moves.filterMap Move.began? := by
  induction moves generalizing s with
  | nil => rfl
  | cons move moves ih =>
    cases move with
    | begin f => exact congrArg (List.cons f) ih
    | step a =>
      unfold System.play
      split
      · exact ih
      · cases a <;> exact ih

end System

abbrev busDomain (Event Sink : Type) (Calls : Signature) (State : Type) : Domain :=
  { Event, Id := Empty, decEqId := inferInstance, Service := Empty, Sink, Calls, State
    Result := Except BusError Unit }

namespace System

abbrev parlour : Domain := busDomain Nat Nat ⟨Empty, nofun⟩ Unit

/-- Every receiver panics when it is handed a 1. -/
def touchy : Cast parlour where
  service := nofun
  sink k :=
    { name := toString k
      onEvent := fun e => if e = 1 then Activity.panic ⟨none⟩ else pure ()
      onStop := pure ()
      isRetired := pure false }
  nameId := nofun
  answer := nofun

def narrow : System parlour :=
  { clock := { wall := .epoch }, hostTime := .epoch, channel := .empty 1, state := () }

/-- A receiver is registered, and two events are sent while the queue is full: one of them waits for a
slot, the other does not. -/
def bustle : List (Move parlour) :=
  [.begin (Activity.register 0), .begin (Activity.send 1),
    .begin (Activity.perform (D := parlour) (.trySend 2))] ++
  List.replicate 5 (.step (.call 0)) ++ List.replicate 3 (.step (.call 1)) ++ [.step (.call 2)] ++
  [.step .worker] ++ List.replicate 3 (.step (.call 1)) ++ List.replicate 5 (.step .worker)

theorem delivers_exactly_touchy :
    [.register (.sink 0), .event 1] = taken (worked (narrow.play touchy bustle).1) ∧
    (committed (narrow.play touchy bustle).1).map Prod.snd = [.register (.sink 0), .event 1] ∧
    (Worker.calls (worked (narrow.play touchy bustle).1)).filterMap (Call.eventTo? 0) = [1] := by
  have new : narrow.IsNew := ⟨⟨1, rfl⟩, rfl, rfl, rfl⟩
  have composed : (worked (narrow.play touchy bustle).1).all isComposed = true := by decide +kernel
  have waiting : (narrow.play touchy bustle).2.worker.machine.phase = .waiting := rfl
  have registered : (⟨0, .sink 0⟩ : Registration (Receiver parlour)) ∈
      Chronicle.registered (chronicle (worked (narrow.play touchy bustle).1)) :=
    List.mem_singleton.mpr rfl
  have run : Run touchy narrow (narrow.play touchy bustle).1 (narrow.play touchy bustle).2 := by
    simpa only [List.nil_append] using Run.refl.play bustle
  obtain ⟨hcommitted, -, -, -, -, -, heard⟩ := Run.delivers_exactly new run composed
  exact ⟨rfl, hcommitted, heard (Or.inl waiting) ⟨0, .sink 0⟩ registered⟩

end System

end Reveille
