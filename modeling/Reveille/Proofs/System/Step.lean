import Reveille.Proofs.System.Deed

/-!
# What a step of a system can do

A step of the worker, of a runner or of a call is one answered request of its routine, or the end of
its routine, or for the two machines an answer without a routine.  `WorkerStep`, `RunnerStep` and
`CallStep` list these cases with all that changes; `Aside` says what does not.
-/

namespace Reveille

variable {D : Domain} {c : Cast D} {a : Actor}

def RunnerTask.resumed (t : RunnerTask D) (reply : t.machine.request.Reply) : RunnerTask D :=
  { t with
    machine := (t.machine.resume reply).1
    pending := none
    timer := none
    ending := match (t.machine.resume reply).1.phase with
      | .stopped => some .stopped
      | _ => none }

/-- A runner that went on has stopped just when it has left its loop. -/
theorem RunnerTask.ending_resumed (t : RunnerTask D) (reply : t.machine.request.Reply) :
    (t.machine.resume reply).1.phase = .stopped ∧ (t.resumed reply).ending = some .stopped ∨
      (t.machine.resume reply).1.phase ≠ .stopped ∧ (t.resumed reply).ending = none := by
  unfold RunnerTask.resumed
  dsimp only
  split
  · next hp => exact Or.inl ⟨hp, rfl⟩
  · next hp => exact Or.inr ⟨hp, rfl⟩

theorem RunnerTask.mayRun_iff {t : RunnerTask D} : t.mayRun = true ↔ t.launched = true ∧
    (t.released = true ∨ t.machine.phase.isSeeding = true) ∧ t.ending = none := by
  simp only [mayRun, Bool.and_eq_true, Bool.or_eq_true, Option.isNone_iff_eq_none, and_assoc]

namespace System

/-- Nothing changed but what belongs to one actor. -/
structure Aside (a : Actor) (s s' : System D) : Prop where
  channel : s'.channel = s.channel
  state : s'.state = s.state
  time : s'.time = s.time
  clock : s'.clock = s.clock
  staff : s'.staff = s.staff
  worker : a ≠ .worker → s'.worker = s.worker
  runners : ∀ i, a ≠ .runner i → s'.runners[i]? = s.runners[i]?
  calls : ∀ i, a ≠ .call i → s'.calls[i]? = s.calls[i]?

/-- The routine that a runner is in, or begins. -/
def RunnerIn (c : Cast D) (s : System D) (i : Nat) (t : RunnerTask D)
    (r : Routine D t.machine.request.Reply) : Prop :=
  t.pending = some r ∨ t.pending = none ∧ s.runnerSource c i t t.machine.request = .routine r

def WorkerIn (c : Cast D) (s : System D) (r : Routine D s.worker.machine.request.Reply) : Prop :=
  s.worker.pending = some r ∨
    s.worker.pending = none ∧ s.workerSource c s.worker.machine.request = .routine r

/-- What a runner is answered without a routine, and its inbox after that. -/
inductive Served (s : System D) (t : RunnerTask D) :
    (q : Runner.Request D.Event D.Id (Items D)) → q.Reply → List D.Event → Prop
  | isStopRequested : Served s t .isStopRequested t.stopRequested t.inbox
  | stopRequested {limit : Option Duration} {inboxOpen : Bool} (h : t.stopRequested = true) :
      Served s t (.wait limit inboxOpen) .stopRequested t.inbox
  | event {limit : Option Duration} {e : D.Event} {rest : List D.Event} (h : t.inbox = e :: rest) :
      Served s t (.wait limit true) (.event e) rest
  | inboxEnded {limit : Option Duration} (h : s.worker.machine.phase.isOver = true) :
      Served s t (.wait limit true) .inboxEnded t.inbox
  | elapsed {limit : Option Duration} {inboxOpen : Bool} {time : Nat} (set : t.timer = some time)
      (reached : time ≤ s.time) : Served s t (.wait limit inboxOpen) .elapsed t.inbox

inductive RunnerStep (c : Cast D) (s : System D) (i : Nat) (t : RunnerTask D) (s' : System D) : Prop
  | asked {q : Request D} {rest : q.Reply → Routine D t.machine.request.Reply} {reply : q.Reply}
      {s₁ : System D} {t₁ : RunnerTask D} (routine : RunnerIn c s i t (.ask q rest))
      (answered : Answered c (.runner i) s q reply s₁) (aside : Aside (.runner i) s₁ s')
      (nudged : t.Nudged t₁)
      (task : s'.runners[i]? = some { t₁ with machine := t.machine, pending := some (rest reply) })
  | returned {reply : t.machine.request.Reply} (routine : RunnerIn c s i t (.done reply))
      (aside : Aside (.runner i) s s') (task : s'.runners[i]? = some (t.resumed reply))
  | served {reply : t.machine.request.Reply} {inbox : List D.Event} (idle : t.pending = none)
      (served : Served s t t.machine.request reply inbox) (aside : Aside (.runner i) s s')
      (task : s'.runners[i]? = some ({ t with inbox }.resumed reply))
  | timed {d : Duration} {inboxOpen : Bool} (idle : t.pending = none) (unset : t.timer = none)
      (request : t.machine.request = .wait (some d) inboxOpen) (aside : Aside (.runner i) s s')
      (task : s'.runners[i]? = some { t with timer := some (Activity.wakeTime s.time d) })

inductive WorkerStep (c : Cast D) (s s' : System D) : Prop
  | asked {q : Request D} {rest : q.Reply → Routine D s.worker.machine.request.Reply}
      {reply : q.Reply} {s₁ : System D} (routine : WorkerIn c s (.ask q rest))
      (answered : Answered c .worker s q reply s₁) (aside : Aside .worker s₁ s')
      (task : s'.worker = { s.worker with pending := some (rest reply) })
  | returned {reply : s.worker.machine.request.Reply} (routine : WorkerIn c s (.done reply))
      (task : s'.worker = { machine := (s.worker.machine.resume reply).1 })
      (aside : s'.worker.machine.phase.isOver = false → Aside .worker s s')
  | received {item : Bus.Command (Receiver D) D.Event}
      {channel : Bus.Channel Actor (Bus.Command (Receiver D) D.Event)}
      (idle : s.worker.pending = none) (waiting : s.worker.machine.phase = .waiting)
      (taken : s.channel.take = .item item channel)
      (task : s'.worker = { machine := (s.worker.machine.next .waiting (some item)).1 })
      (aside : s'.worker.machine.phase.isOver = false → Aside .worker { s with channel } s')

inductive CallStep (c : Cast D) (s : System D) (i : Nat) (s' : System D) : Prop
  | asked {q : Request D} {rest : q.Reply → Routine D D.Result} {reply : q.Reply} {s₁ : System D}
      (routine : s.calls[i]? = some (.running (.ask q rest)))
      (answered : Answered c (.call i) s q reply s₁) (aside : Aside (.call i) s₁ s')
      (task : s'.calls[i]? = some (.running (rest reply)))
  | returned {result : D.Result} (routine : s.calls[i]? = some (.running (.done result)))
      (aside : Aside (.call i) s s') (task : s'.calls[i]? = some (.ended (.ok result)))

variable {s s' : System D} {i : Nat} {t : RunnerTask D}

/-! ### Runners -/

theorem aside_modifyRunner {f : RunnerTask D → RunnerTask D} (h : ∀ t, (f t).badge = t.badge) :
    Aside (.runner i) s (s.modifyRunner i f) := by
  have hstaff : (s.modifyRunner i f).staff = s.staff := by
    simp only [staff, modifyRunner]
    rw [badges_modify (g := id) h, List.modify_id]
  refine ⟨rfl, rfl, rfl, rfl, hstaff, fun _ => rfl, ?_, fun _ _ => rfl⟩
  intro j hj
  have hne : i ≠ j := fun h => hj (congrArg Actor.runner h)
  simp [modifyRunner, hne]

theorem Aside.trans {s'' : System D} (h : Aside a s s') (g : Aside a s' s'') : Aside a s s'' where
  channel := g.channel.trans h.channel
  state := g.state.trans h.state
  time := g.time.trans h.time
  clock := g.clock.trans h.clock
  staff := g.staff.trans h.staff
  worker ha := (g.worker ha).trans (h.worker ha)
  runners i hi := (g.runners i hi).trans (h.runners i hi)
  calls i hi := (g.calls i hi).trans (h.calls i hi)

theorem aside_momentum {momentum : Nat → Nat} : Aside a s { s with momentum } :=
  ⟨rfl, rfl, rfl, rfl, rfl, fun _ => rfl, fun _ _ => rfl, fun _ _ => rfl⟩

theorem aside_addLines {lines : List Log.Line} : Aside a s (s.addLines lines) :=
  ⟨rfl, rfl, rfl, rfl, rfl, fun _ => rfl, fun _ _ => rfl, fun _ _ => rfl⟩

theorem runners_modifyRunner {f : RunnerTask D → RunnerTask D} (h : s.runners[i]? = some t) :
    (s.modifyRunner i f).runners[i]? = some (f t) := by
  simp [modifyRunner, h]

theorem staff_cancel : (s.cancel i).staff = s.staff := by
  have aside : Aside (.runner i) s (s.modifyRunner i fun t => { t with ending := some .aborted }) :=
    aside_modifyRunner fun _ => rfl
  exact aside.staff

theorem runners_cancel (h : s.runners[i]? = some t) :
    (s.cancel i).runners[i]? = some { t with ending := some .aborted } := runners_modifyRunner h

theorem runners_cancel_ne {j : Nat} (h : i ≠ j) : (s.cancel i).runners[j]? = s.runners[j]? :=
  List.getElem?_modify_ne _ _ h

theorem resumeRunner_spec {now : RunnerTask D} (reply : t.machine.request.Reply)
    (h : s.runners[i]? = some now) : Aside (.runner i) s (s.resumeRunner c i t reply) ∧
      (s.resumeRunner c i t reply).runners[i]? =
        some { t.resumed reply with
          service := now.service
          launched := now.launched
          released := now.released
          stopRequested := now.stopRequested
          aborted := now.aborted
          inbox := now.inbox } := by
  refine ⟨Aside.trans (aside_modifyRunner ?_) aside_addLines, ?_⟩
  · exact fun _ => rfl
  unfold resumeRunner
  exact runners_modifyRunner h

theorem runnerSource_atOnce {q : Runner.Request D.Event D.Id (Items D)} {reply : q.Reply}
    {s₁ : System D} (ht : s.runners[i]? = some t) (h : s.runnerSource c i t q = .atOnce reply s₁) :
    ∃ inbox, Served s t q reply inbox ∧ Aside (.runner i) s s₁ ∧
      s₁.runners[i]? = some { t with inbox } := by
  have same : Aside (.runner i) s s :=
    ⟨rfl, rfl, rfl, rfl, rfl, fun _ => rfl, fun _ _ => rfl, fun _ _ => rfl⟩
  cases q with
  | isStopRequested =>
    cases h
    exact ⟨t.inbox, .isStopRequested, same, ht⟩
  | wait limit inboxOpen =>
    simp only [runnerSource] at h
    split at h
    · next hstop =>
      cases h
      exact ⟨t.inbox, .stopRequested hstop, same, ht⟩
    · split at h
      · next e rest hinbox =>
        cases h
        refine ⟨rest, .event hinbox, aside_modifyRunner ?_, runners_modifyRunner ht⟩
        exact fun _ => rfl
      · split at h
        · next hover =>
          simp only [Bool.and_eq_true] at hover
          obtain ⟨rfl, hover⟩ := hover
          cases h
          exact ⟨t.inbox, .inboxEnded hover, same, ht⟩
        · split at h
          · next ms hms =>
            split at h
            · next hle =>
              cases h
              exact ⟨t.inbox, .elapsed hms hle, same, ht⟩
            · cases h
          · cases h
          · cases h
  | _ => cases h

theorem runnerSource_later {q : Runner.Request D.Event D.Id (Items D)}
    (h : s.runnerSource c i t q = .later s') :
    ∃ d inboxOpen, q = .wait (some d) inboxOpen ∧ t.timer = none ∧
      s' = s.modifyRunner i fun t => { t with timer := some (Activity.wakeTime s.time d) } := by
  cases q with
  | wait limit inboxOpen =>
    simp only [runnerSource] at h
    split at h
    · cases h
    · split at h
      · cases h
      · split at h
        · cases h
        · split at h
          · split at h <;> cases h
          · next hnone =>
            cases h
            exact ⟨_, _, rfl, hnone, rfl⟩
          · cases h
  | _ => cases h

theorem momentum_of_source {q : Runner.Request D.Event D.Id (Items D)} {reply : q.Reply}
    {s₁ : System D} (h : s.runnerSource c i t q = .atOnce reply s₁) : s₁.momentum = s.momentum := by
  cases q with
  | isStopRequested =>
    cases h
    rfl
  | wait limit inboxOpen =>
    simp only [runnerSource] at h
    repeat' split at h
    all_goals cases h <;> rfl
  | _ => cases h

theorem wait_ne_routine {limit : Option Duration} {inboxOpen : Bool}
    {r : Routine D (Runner.Woken D.Event)} :
    s.runnerSource c i t (.wait limit inboxOpen) ≠ .routine r := by
  intro h
  simp only [runnerSource] at h
  repeat' split at h
  all_goals cases h

/-- A runner is only held up while it waits, with nothing in its inbox. -/
theorem runnerSource_blocked {q : Runner.Request D.Event D.Id (Items D)}
    (h : s.runnerSource c i t q = .blocked) : q = .finished ∨ ∃ limit inboxOpen,
      q = .wait limit inboxOpen ∧ (inboxOpen = true → t.inbox = []) ∧
        (t.timer = none ∧ limit = none ∨ ∃ ms, t.timer = some ms ∧ s.time < ms) := by
  cases q with
  | finished => exact Or.inl rfl
  | wait limit inboxOpen =>
    simp only [runnerSource] at h
    split at h
    · cases h
    · split at h
      · cases h
      · next hempty =>
        refine Or.inr ⟨_, _, rfl, ?_, ?_⟩
        · intro hopen
          cases hinbox : t.inbox with
          | nil => rfl
          | cons e rest => exact absurd hinbox (hempty e rest hopen)
        · split at h
          · cases h
          · split at h
            · next ms hms =>
              split at h
              · cases h
              · next hlater => exact Or.inr ⟨ms, hms, Nat.lt_of_not_le hlater⟩
            · cases h
            · next hnone => exact Or.inl ⟨hnone, rfl⟩
  | _ => cases h

/-- A runner that makes no step although it may was not aborted, and cannot go on. -/
theorem goOn_of_blocked (ht : s.runners[i]? = some t) (running : t.mayRun = true)
    (h : s.step c (.runner i) = none) : t.aborted = false ∧ s.goOn c i t = none := by
  simp only [step, stepRunner, ht, running, if_true] at h
  split at h
  · cases h
  · next kept => exact ⟨Bool.eq_false_iff.mpr kept, h⟩

theorem runnerStep_of_routine (hc : Gentle c) (hs : s.Open) (ht : s.runners[i]? = some t)
    (calm : ∀ q rest, RunnerIn c s i t (.ask q rest) → q.Calm)
    {r : Routine D t.machine.request.Reply} (routine : RunnerIn c s i t r)
    (h : s.runnerRoutine c i t r = some s') : RunnerStep c s i t s' := by
  cases r with
  | done reply =>
    cases h
    obtain ⟨haside, htask⟩ := resumeRunner_spec (c := c) (t := t) reply ht
    exact .returned routine haside htask
  | ask q rest =>
    simp only [runnerRoutine] at h
    split at h
    · cases h
    · next reply s₁ hp =>
      cases h
      obtain ⟨_, hr, hanswered⟩ := answered_of_perform hc hs (calm q rest routine) hp
      cases hr
      obtain ⟨t₁, ht₁, hnudged⟩ := hanswered.deed.runner ht
      refine .asked routine hanswered (aside_modifyRunner ?_) hnudged (runners_modifyRunner ht₁)
      exact fun _ => rfl
    · next p s₁ hp =>
      obtain ⟨_, hr, -⟩ := answered_of_perform hc hs (calm q rest routine) hp
      cases hr

theorem runnerStep_of_step (hc : Gentle c) (hs : s.Open)
    (calm : ∀ t, s.runners[i]? = some t → ∀ q rest, RunnerIn c s i t (.ask q rest) → q.Calm)
    (h : s.step c (.runner i) = some s') :
    ∃ t, s.runners[i]? = some t ∧ t.mayRun = true ∧ RunnerStep c s i t s' := by
  simp only [step, stepRunner] at h
  split at h
  · cases h
  · next t ht =>
    split at h
    · next hrun =>
      refine ⟨t, ht, hrun, ?_⟩
      have kept : ¬ t.aborted = true := by simp [(hs.running t (List.mem_of_getElem? ht)).2]
      rw [if_neg kept, goOn] at h
      split at h
      · next r hr => exact runnerStep_of_routine hc hs ht (calm t ht) (Or.inl hr) h
      · next hidle =>
        split at h
        · next reply s₁ hsrc =>
          cases h
          obtain ⟨inbox, hserved, haside, ht₁⟩ := runnerSource_atOnce ht hsrc
          obtain ⟨haside', htask⟩ := resumeRunner_spec (c := c) (t := t) reply ht₁
          exact .served hidle hserved (haside.trans haside') htask
        · next s₁ hsrc =>
          cases h
          obtain ⟨d, inboxOpen, hq, hunset, rfl⟩ := runnerSource_later hsrc
          refine .timed hidle hunset hq (aside_modifyRunner ?_) (runners_modifyRunner ht)
          exact fun _ => rfl
        · next r hsrc => exact runnerStep_of_routine hc hs ht (calm t ht) (Or.inr ⟨hidle, hsrc⟩) h
        · cases h
    · cases h

/-! ### Calls -/

theorem callStep_of_step (hc : Gentle c) (hs : s.Open)
    (calm : ∀ q rest, s.calls[i]? = some (.running (.ask q rest)) → q.Calm)
    (h : s.step c (.call i) = some s') : CallStep c s i s' := by
  have aside {s₁ : System D} {call : CallTask D} :
      Aside (.call i) s₁ { s₁ with calls := s₁.calls.set i call } := by
    refine ⟨rfl, rfl, rfl, rfl, rfl, fun _ => rfl, fun _ _ => rfl, ?_⟩
    intro j hj
    exact List.getElem?_set_ne fun h => hj (congrArg Actor.call h)
  simp only [step, stepCall] at h
  split at h
  · next result hi =>
    cases h
    have hlen := (List.getElem?_eq_some_iff.mp hi).1
    exact .returned hi aside (List.getElem?_set_self hlen)
  · next q rest hi =>
    have hlen := (List.getElem?_eq_some_iff.mp hi).1
    split at h
    · cases h
    · next reply s₁ hp =>
      cases h
      obtain ⟨_, hr, hanswered⟩ := answered_of_perform hc hs (calm q rest hi) hp
      cases hr
      refine .asked hi hanswered aside (List.getElem?_set_self ?_)
      rw [hanswered.calls]
      exact hlen
    · next p s₁ hp =>
      obtain ⟨_, hr, -⟩ := answered_of_perform hc hs (calm q rest hi) hp
      cases hr
  · cases h

/-! ### The worker -/

theorem resumeWorker_spec {w : WorkerTask D} (reply : w.machine.request.Reply) :
    (s.resumeWorker c w reply).worker = { machine := (w.machine.resume reply).1 } ∧
      ((s.resumeWorker c w reply).worker.machine.phase.isOver = false →
        Aside .worker s (s.resumeWorker c w reply)) := by
  refine ⟨rfl, ?_⟩
  intro alive
  have halive : (w.machine.resume reply).1.phase.isOver = false := alive
  refine ⟨?_, rfl, rfl, rfl, rfl, fun h => absurd rfl h, fun _ _ => rfl, fun _ _ => rfl⟩
  simp [resumeWorker, halive, addLines]

theorem workerStep_of_routine (hc : Gentle c) (hs : s.Open)
    (calm : ∀ q rest, WorkerIn c s (.ask q rest) → q.Calm)
    {r : Routine D s.worker.machine.request.Reply} (routine : WorkerIn c s r)
    (h : s.workerRoutine c s.worker r = some s') : WorkerStep c s s' := by
  cases r with
  | done reply =>
    cases h
    obtain ⟨htask, haside⟩ := resumeWorker_spec (c := c) (s := s) reply
    exact .returned routine htask haside
  | ask q rest =>
    simp only [workerRoutine] at h
    split at h
    · cases h
    · next reply s₁ hp =>
      cases h
      obtain ⟨_, hr, hanswered⟩ := answered_of_perform hc hs (calm q rest routine) hp
      cases hr
      refine .asked routine hanswered ?_ rfl
      exact ⟨rfl, rfl, rfl, rfl, rfl, fun h => absurd rfl h, fun _ _ => rfl, fun _ _ => rfl⟩
    · next p s₁ hp =>
      obtain ⟨_, hr, -⟩ := answered_of_perform hc hs (calm q rest routine) hp
      cases hr

theorem receive_ne_routine {r : Routine D (Option (Bus.Command (Receiver D) D.Event))} :
    s.workerSource c .receive ≠ .routine r := by
  intro h
  simp only [workerSource] at h
  split at h <;> cases h

theorem workerSource_ne_later {q : Bus.Worker.Request (Receiver D) D.Event} :
    s.workerSource c q ≠ .later s' := by
  intro h
  cases q with
  | receive =>
    simp only [workerSource] at h
    split at h <;> cases h
  | _ => cases h

/-- Without a routine the worker is only answered when it takes from the queue. -/
theorem workerStep_of_atOnce (hs : s.Open) (idle : s.worker.pending = none)
    {reply : s.worker.machine.request.Reply} {s₁ : System D}
    (h : s.workerSource c s.worker.machine.request = .atOnce reply s₁) :
    WorkerStep c s (s₁.resumeWorker c s.worker reply) := by
  rcases s with ⟨time, clock, hostTime, draws, momentum, channel,
    ⟨⟨receivers, registered, count, phase⟩, pending⟩, number, runners, calls, state, log⟩
  cases phase with
  | waiting =>
    have hreceive : workerSource c _ .receive = .atOnce reply s₁ := h
    simp only [workerSource] at hreceive
    split at hreceive
    · next item left htake =>
      cases hreceive
      exact .received idle rfl htake (resumeWorker_spec _).1 (resumeWorker_spec _).2
    · next htake => cases hs.accepting.symm.trans (Bus.Channel.take_eq_ended.mp htake).2.1
    · cases hreceive
  | _ => cases h

theorem workerStep_of_step (hc : Gentle c) (hs : s.Open)
    (calm : ∀ q rest, WorkerIn c s (.ask q rest) → q.Calm)
    (h : s.step c .worker = some s') : WorkerStep c s s' := by
  have h' : s.stepWorker c = some s' := h
  unfold stepWorker at h'
  dsimp only at h'
  split at h'
  · next r hr => exact workerStep_of_routine hc hs calm (Or.inl hr) h'
  · next hidle =>
    split at h'
    · next reply s₁ hsrc =>
      cases h'
      exact workerStep_of_atOnce hs hidle hsrc
    · next s₁ hsrc => exact absurd hsrc workerSource_ne_later
    · next r hsrc => exact workerStep_of_routine hc hs calm (Or.inr ⟨hidle, hsrc⟩) h'
    · cases h'

/-- A worker that waits for a command in vain finds nothing in the queue. -/
theorem take_of_blocked (idle : s.worker.pending = none) (waiting : s.worker.machine.phase = .waiting)
    (h : s.step c .worker = none) : s.channel.take = .nothingYet := by
  rcases s with ⟨time, clock, hostTime, draws, momentum, channel,
    ⟨⟨receivers, registered, count, phase⟩, pending⟩, number, runners, calls, state, log⟩
  obtain rfl : phase = .waiting := waiting
  obtain rfl : pending = none := idle
  cases htake : channel.take with
  | nothingYet => rfl
  | item item left =>
    simp only [step, stepWorker, Bus.Worker.request, Bus.Worker.Phase.request, workerSource, htake] at h
    cases h
  | ended =>
    simp only [step, stepWorker, Bus.Worker.request, Bus.Worker.Phase.request, workerSource, htake] at h
    cases h

end System

end Reveille
