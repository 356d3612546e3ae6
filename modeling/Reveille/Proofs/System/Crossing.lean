import Reveille.Proofs.System.Closing
import Reveille.Proofs.System.Habit
import Reveille.Proofs.System.Orders

/-!
# On the way to the queue, up to the end

An actor that sends enters the channel, asks for a slot, waits for it and commits; on the way it may be
turned away.  `Tidy` says of a routine at a place on this way that it goes through these places in
order, whatever it is told, and ends outside.  Everybody does so (`tidy_habit`).

Every actor is in the channel where its routine has it, and a runner that has ended is in it no more
(`Crossing`), also while the bus closes.  So in a settled system nobody is on the way while the worker
waits for a command (`Crossing.nobody`).
-/

namespace Reveille.System

open Bus Bus.Worker

variable {D : Domain} {c : Cast D} {s s' s₀ : System D} {a b : Actor} {q : Request D} {α β : Type}

/-- Where an actor is on its way to the queue. -/
inductive Place where
  | outside
  | entered
  | asked
  | granted

def Request.place : Request D → Place
  | .requestSlot => .entered
  | .awaitSlot => .asked
  | .commit _ => .granted
  | _ => .outside

namespace Place

def Allows : Place → Request D → Prop
  | .outside, .requestSlot | .outside, .awaitSlot | .outside, .commit _ => False
  | .outside, _ => True
  | .entered, .requestSlot => True
  | .asked, .awaitSlot => True
  | .granted, .commit _ => True
  | _, _ => False

def after : Place → (q : Request D) → q.Reply → Place
  | .outside, .enter, (letIn : Bool) => if letIn then .entered else .outside
  | .entered, .requestSlot, _ => .asked
  | .asked, .awaitSlot, (held : Bool) => if held then .granted else .outside
  | _, _, _ => .outside

def Fits (a : Actor) (ch : Queue D) : Place → Prop
  | .outside => a ∉ ch.entered ∧ ¬ ch.OnWay a
  | .entered => a ∈ ch.entered ∧ ¬ ch.OnWay a
  | .asked => a ∉ ch.entered ∧ ch.OnWay a
  | .granted => a ∉ ch.entered ∧ a ∈ ch.granted

theorem Fits.congr {ch ch' : Queue D} {p : Place} (h : p.Fits a ch)
    (entered : a ∈ ch'.entered ↔ a ∈ ch.entered) (way : ch'.OnWay a ↔ ch.OnWay a)
    (held : a ∈ ch.granted → a ∈ ch'.granted) : p.Fits a ch' := by
  cases p with
  | outside => exact ⟨mt entered.mp h.1, mt way.mp h.2⟩
  | entered => exact ⟨entered.mpr h.1, mt way.mp h.2⟩
  | asked => exact ⟨mt entered.mp h.1, way.mpr h.2⟩
  | granted => exact ⟨mt entered.mp h.1, held h.2⟩

theorem eq_of_allows {p : Place} (h : p.Allows q) : p = q.place := by
  cases p <;> cases q <;> first | rfl | exact False.elim h

theorem outside_of_apart {p : Place} (h : p.Allows q) (apart : q.Apart) : p = .outside := by
  rw [eq_of_allows h]
  cases q <;> first | rfl | exact False.elim apart

end Place

/-- Whatever it is told, the routine takes the places in order, from some place on, and ends outside. -/
def Tidy : Place → Routine D α → Prop
  | p, .done _ => p = .outside
  | p, .ask q rest => p.Allows q ∧ ∀ reply, Tidy (p.after q reply) (rest reply)

theorem Tidy.bind {p : Place} {r : Routine D α} {f : α → Routine D β} (h : Tidy p r)
    (hf : ∀ a, Tidy .outside (f a)) : Tidy p (r.bind f) := by
  induction r generalizing p with
  | done a =>
    obtain rfl : p = .outside := h
    exact hf a
  | ask q rest ih => exact ⟨h.1, fun reply => ih reply (h.2 reply)⟩

theorem Tidy.forget {p : Place} {r : Routine D α} (h : Tidy p r) : Tidy p r.forget :=
  h.bind fun _ => rfl

theorem tidy_query (h : Place.outside.Allows q) (hne : q ≠ .enter) :
    Tidy .outside (Routine.query q) := by
  refine ⟨h, fun reply => ?_⟩
  show Place.outside.after q reply = .outside
  cases q with
  | enter => exact absurd rfl hne
  | _ => rfl

theorem tidy_enqueue (item : Command (Receiver D) D.Event) : Tidy .outside (Routine.enqueue item) := by
  refine ⟨trivial, fun letIn => ?_⟩
  cases (letIn : Bool) with
  | false => exact rfl
  | true =>
    refine ⟨trivial, fun _ => ⟨trivial, fun held => ?_⟩⟩
    cases (held : Bool) with
    | false => exact rfl
    | true =>
      refine ⟨trivial, fun kept => ?_⟩
      cases (kept : Bool) <;> exact rfl

theorem tidy_close : Tidy .outside (Routine.close (D := D)) := by
  refine ⟨trivial, fun first => ?_⟩
  cases (first : Bool) with
  | false => exact rfl
  | true =>
    refine ⟨trivial, fun reply => ?_⟩
    match reply with
    | (_, .ok ()) => exact rfl
    | (task, .error p) => exact ⟨trivial, fun _ => rfl⟩

theorem tidy_startRunner (service : D.Service) : Tidy .outside (Routine.startRunner service) := by
  refine ⟨trivial, fun i => (tidy_enqueue _).bind fun registered => ?_⟩
  cases registered with
  | error e => exact rfl
  | ok u => exact ⟨trivial, fun _ => ⟨trivial, fun _ => rfl⟩⟩

theorem tidy_habit : Habit a (fun {_} r => Tidy (D := D) .outside r) where
  done _ := rfl
  bind := Tidy.bind
  single q hq := tidy_query (by cases q <;> trivial) (by rintro rfl; cases hq)
  send _ := tidy_enqueue _
  register _ := tidy_enqueue _
  close := tidy_close
  startRunner := tidy_startRunner
  push _ _ _ := tidy_query trivial nofun

/-! ### The channel -/

/-- Nobody is in a place twice. -/
structure Lanes (ch : Queue D) : Prop where
  fair : ch.Fair
  nodup : ch.entered.Nodup

/-- Whoever gives up is outside, and the others stay where they are. -/
theorem Lanes.withdraw {ch : Queue D} (lanes : Lanes ch) (a : Actor) :
    Lanes (ch.withdraw a) ∧ Place.outside.Fits a (ch.withdraw a) ∧
      ∀ b, b ≠ a → ∀ p : Place, p.Fits b ch → p.Fits b (ch.withdraw a) := by
  obtain ⟨hfair, hway, hheld⟩ := lanes.fair.withdraw a
  have hentered : ∀ b, b ∈ (ch.withdraw a).entered ↔ b ≠ a ∧ b ∈ ch.entered := by
    intro b
    rw [Channel.entered_withdraw, lanes.nodup.mem_erase_iff]
  refine ⟨⟨hfair, ?_⟩, ⟨fun h => ((hentered a).mp h).1 rfl, fun h => ((hway a).mp h).1 rfl⟩, ?_⟩
  · rw [Channel.entered_withdraw]
    exact lanes.nodup.erase a
  · intro b hb p h
    exact h.congr ⟨fun h => ((hentered b).mp h).2, fun h => (hentered b).mpr ⟨hb, h⟩⟩
      ⟨fun h => ((hway b).mp h).2, fun h => (hway b).mpr ⟨hb, h⟩⟩ (hheld b hb)

/-- What a request does to the actor who makes it, and to the others. -/
theorem Passage.fits {ch ch' : Queue D} {reply : q.Reply} (h : Passage a ch q reply ch')
    (lanes : Lanes ch) {p : Place} (hp : p.Fits a ch) (allows : p.Allows q) :
    Lanes ch' ∧ (p.after q reply).Fits a ch' ∧
      ∀ b, b ≠ a → ∀ p' : Place, p'.Fits b ch → p'.Fits b ch' := by
  have still {ch : Queue D} (lanes : Lanes ch) (hp : Place.outside.Fits a ch) :
      Lanes ch ∧ Place.outside.Fits a ch ∧
        ∀ b, b ≠ a → ∀ p' : Place, p'.Fits b ch → p'.Fits b ch :=
    ⟨lanes, hp, fun _ _ _ h => h⟩
  obtain rfl := Place.eq_of_allows allows
  cases h with
  | entered accepting =>
    refine ⟨⟨⟨lanes.fair.positive, lanes.fair.nodup, lanes.fair.full⟩,
      List.nodup_cons.mpr ⟨hp.1, lanes.nodup⟩⟩, ⟨List.mem_cons_self, hp.2⟩, fun b hb p' h => ?_⟩
    exact h.congr ⟨fun h => (List.mem_cons.mp h).resolve_left hb, List.mem_cons_of_mem a⟩ Iff.rfl id
  | shutOut | full | refused | closedBefore => exact still lanes hp
  | requestSlot =>
    obtain ⟨hfair, hway, hheld⟩ := lanes.fair.requestSlot hp.2
    have hentered : ∀ b, b ∈ (ch.requestSlot a).entered ↔ b ≠ a ∧ b ∈ ch.entered := by
      intro b
      rw [Channel.entered_requestSlot, lanes.nodup.mem_erase_iff]
    refine ⟨⟨hfair, ?_⟩, ⟨fun h => ((hentered a).mp h).1 rfl, (hway a).mpr (Or.inl rfl)⟩, ?_⟩
    · rw [Channel.entered_requestSlot]
      exact lanes.nodup.erase a
    · intro b hb p' h
      exact h.congr ⟨fun h => ((hentered b).mp h).2, fun h => (hentered b).mpr ⟨hb, h⟩⟩
        ⟨fun h => ((hway b).mp h).resolve_left hb, fun h => (hway b).mpr (Or.inr h)⟩ (hheld b)
  | granted listening held => exact ⟨lanes, ⟨hp.1, held⟩, fun _ _ _ h => h⟩
  | sentAway | gaveUp => exact lanes.withdraw a
  | committed accepting item =>
    obtain ⟨hfair, hway⟩ := lanes.fair.commit hp.2
    refine ⟨⟨hfair, lanes.nodup⟩, ⟨hp.1, fun h => ((hway a).mp h).1 rfl⟩, fun b hb p' h => ?_⟩
    exact h.congr Iff.rfl ⟨fun h => ((hway b).mp h).2, fun h => (hway b).mpr ⟨hb, h⟩⟩
      fun h => (List.mem_erase_of_ne hb).mpr h
  | sent accepting room e =>
    refine ⟨⟨lanes.fair.addItem, lanes.nodup⟩, hp.congr Iff.rfl Iff.rfl id, fun b _ p' h => ?_⟩
    exact h.congr Iff.rfl Iff.rfl id
  | closed accepting =>
    refine ⟨⟨⟨lanes.fair.positive, lanes.fair.nodup, lanes.fair.full⟩, lanes.nodup⟩,
      hp.congr Iff.rfl Iff.rfl id, fun b _ p' h => ?_⟩
    exact h.congr Iff.rfl Iff.rfl id
  | apart hq =>
    have hplace := Place.outside_of_apart allows hq
    rw [hplace] at hp ⊢
    have hafter : Place.outside.after q reply = .outside := by
      cases q with
      | enter => exact False.elim hq
      | _ => rfl
    rw [hafter]
    exact still lanes hp

/-! ### Actors -/

/-- What is left of the routine of an actor, unless it is a runner that has ended. -/
def active (s : System D) : Actor → Option (Routine D Unit)
  | .runner i => if s.isRunning i then s.residual (.runner i) else none
  | a => s.residual a

section
variable {i : Nat} {t : RunnerTask D} {r : Routine D Unit}
  {asked : Option (Exchange D.requests)}
  {work : Option (Exchange (Bus.Worker.requests (Receiver D) D.Event))}

theorem residual_of_active (h : s.active a = some r) : s.residual a = some r := by
  cases a with
  | runner i =>
    simp only [active] at h
    split at h
    · exact h
    · cases h
  | _ => exact h

theorem active_of_residual_none (h : s.residual a = none) : s.active a = none :=
  Option.eq_none_iff_forall_ne_some.mpr fun _ hr =>
    Option.some_ne_none _ ((residual_of_active hr).symm.trans h)

theorem active_of_running (h : ∀ i, a = .runner i → s.isRunning i = true) :
    s.active a = s.residual a := by
  cases a with
  | runner i => exact if_pos (h i rfl)
  | _ => rfl

theorem active_of_not_running (h : s.isRunning i = false) : s.active (.runner i) = none := by
  rw [active, h]
  rfl

theorem running_of_step (h : s.step c a = some s') : ∀ i, a = .runner i → s.isRunning i = true := by
  rintro i rfl
  obtain ⟨t, ht, hrun, -⟩ := runnerTurn_of_step h
  rw [isRunning_eq_isNone ht, (RunnerTask.mayRun_iff.mp hrun).2.2, Option.isNone_none]

theorem residual_of_step (h : s.step c a = some s') (hb : b ≠ a) : s'.residual b = s.residual b := by
  obtain ⟨_, _, -, stride⟩ := stride_of_step h
  cases stride with
  | asked _ _ _ _ _ others => exact others b hb
  | panicked _ _ _ _ _ others => exact others b hb
  | ended _ _ _ _ others => exact others b hb
  | cancelled _ _ _ => exact residual_cancel b

/-- Nobody is brought to an end in a step in which a request was answered. -/
theorem ending_of_asked {reply : q.Reply} (h : s.step c a = some s')
    (hlabel : s.label c a = .moved a (some ⟨q, reply⟩) work) (ht : s.runners[i]? = some t) :
    ∃ t', s'.runners[i]? = some t' ∧ t'.ending = t.ending := by
  by_cases ha : a = .runner i
  · subst ha
    obtain ⟨t₀, ht₀, -, move⟩ := runnerTurn_of_step h
    rw [ht] at ht₀
    cases ht₀
    have hasked : s.asked? c (.runner i) = some ⟨q, reply⟩ := congrArg Label.asked? hlabel
    rw [hasked] at move
    generalize s.replied? c i (.runner i) = replied at move
    cases move with
    | asked routine answer pace =>
      exact ⟨_, runners_modifyRunner (upon_of_perform answer ht), ending_upon⟩
  · rcases runner_of_turn (hlabel ▸ turn_of_step h) ha ht with ⟨hnone, -⟩ | ⟨q', reply', heq, ht'⟩
    · cases hnone
    · cases heq
      exact ⟨_, ht', ending_upon⟩

theorem active_of_unborn (h : s.runners[i]? = none) : s.active (.runner i) = none :=
  active_of_not_running (by rw [isRunning, h])

/-- Whoever makes no step keeps the routine. -/
theorem active_of_quiet (h : s.step c a = some s') (hlabel : s.label c a = .moved a none work)
    (hb : b ≠ a) : s'.active b = s.active b := by
  have hresidual := residual_of_step h hb
  cases b with
  | runner i =>
    have turn := turn_of_step h
    rw [hlabel] at turn
    rcases turn.elsewhere (Ne.symm hb) with ⟨_, _, _, hsome, -⟩ | ⟨-, hsame⟩
    · cases hsome
    · rw [active, active, hresidual, isRunning, isRunning, hsame]
  | _ => exact hresidual

/-- A request leaves everybody else the routine. -/
theorem active_of_asked {reply : q.Reply} (h : s.step c a = some s')
    (hlabel : s.label c a = .moved a (some ⟨q, reply⟩) work) :
    s'.active b = if b = a then s'.residual a else s.active b := by
  have hresidual (hne : b ≠ a) := residual_of_step h hne
  cases b with
  | runner i =>
    cases ht : s.runners[i]? with
    | none =>
      have hne : Actor.runner i ≠ a := by
        rintro rfl
        obtain ⟨t, ht', -⟩ := runnerTurn_of_step h
        rw [ht] at ht'
        cases ht'
      have hnone : s.residual (.runner i) = none := by simp only [residual, ht, Option.bind_none]
      rw [if_neg hne, active_of_unborn ht, active_of_residual_none ((hresidual hne).trans hnone)]
    | some t =>
      obtain ⟨t', ht', hending⟩ := ending_of_asked h hlabel ht
      have same : s'.isRunning i = s.isRunning i := by
        rw [isRunning_eq_isNone ht, isRunning_eq_isNone ht', hending]
      by_cases hne : Actor.runner i = a
      · subst hne
        rw [if_pos rfl, active, same, if_pos (running_of_step h i rfl)]
      · rw [if_neg hne, active, active, same, hresidual hne]
  | worker | call i =>
    split
    · next heq => exact heq ▸ rfl
    · next hne => exact hresidual hne

/-- A runner in a routine was launched, and may go on with it unless it has ended. -/
def Awake (t : RunnerTask D) : Prop :=
  t.pending ≠ none → t.launched = true ∧ (t.released = true ∨ t.machine.phase.isSeeding = true)

/-- Every actor is in the channel where its routine has it, and may go on. -/
structure Crossing (s : System D) : Prop where
  lanes : Lanes s.channel
  placed : ∀ a, ∃ p : Place, p.Fits a s.channel ∧ (s.active a = none → p = .outside) ∧
    ∀ r, s.active a = some r → Tidy p r
  awake : ∀ (i : Nat) (t : RunnerTask D), s.runners[i]? = some t → Awake t

/-- Without services there are no runners. -/
theorem unstaffed [IsEmpty D.Service] (s : System D) : s.runners = [] :=
  List.eq_nil_iff_forall_not_mem.mpr fun t _ => isEmptyElim t.service

theorem Crossing.unstaffed [IsEmpty D.Service] (_ : Crossing s) : s.runners = [] :=
  System.unstaffed s

theorem Crossing.doing (h : Crossing s) (able : ∀ i, a = .runner i → s.isRunning i = true)
    (doing : Doing c s a r) : ∃ p : Place, p.Fits a s.channel ∧ Tidy p r := by
  obtain ⟨p, hfits, hidle, htidy⟩ := h.placed a
  rw [active_of_running able] at hidle htidy
  rcases doing with hr | ⟨hnone, fresh⟩
  · exact ⟨p, hfits, htidy r hr⟩
  · obtain rfl := hidle hnone
    exact ⟨.outside, hfits, tidy_habit.fresh fresh⟩

/-- An actor in no routine is outside, and so is one at the end of its routine. -/
theorem Crossing.outside (h : Crossing s) (able : ∀ i, a = .runner i → s.isRunning i = true)
    (ended : ∀ r, s.residual a = some r → r = .done ()) : Place.outside.Fits a s.channel := by
  obtain ⟨p, hfits, hidle, htidy⟩ := h.placed a
  rw [active_of_running able] at hidle htidy
  cases hr : s.residual a with
  | none =>
    obtain rfl := hidle hr
    exact hfits
  | some r =>
    have tidy := htidy r hr
    rw [ended r hr] at tidy
    obtain rfl : p = .outside := tidy
    exact hfits

/-! ### One step -/

/-- What a step does to the channel when no request was answered in it: the worker may take a command, and it
may go away, and a runner that is dropped is in the channel no more. -/
theorem Turn.quiet_channel (h : Turn c s (.moved a none work) s') :
    (∃ ch : Queue D, (ch = s.channel ∨ ∃ item, s.channel.take = .item item ch) ∧
      (s'.channel = ch ∧ s'.worker = s.worker ∨ s.worker.machine.phase.isOver = false ∧
        s'.channel = if s'.worker.machine.phase.isOver then ch.hangUp else ch)) ∨
    s'.channel = s.channel.withdraw a ∧ s'.worker = s.worker := by
  cases h with
  | callPanicked task answer =>
    exact Or.inl ⟨_, Or.inl rfl, Or.inl ⟨(channel_of_panicked answer).2, (perform_frame answer).1⟩⟩
  | callReturned task => exact Or.inl ⟨_, Or.inl rfl, Or.inl ⟨rfl, rfl⟩⟩
  | @workerPanicked q rest p reply s₁ routine answer panic =>
    exact Or.inl ⟨_, Or.inl (channel_of_panicked answer).2, Or.inr ⟨not_isOver_of_reply reply, rfl⟩⟩
  | @workerReturned reply routine =>
    exact Or.inl ⟨_, Or.inl rfl, Or.inr ⟨not_isOver_of_reply reply, rfl⟩⟩
  | @workerServed reply s₁ idle source =>
    obtain ⟨-, ⟨item, channel, htake, rfl, -⟩ | ⟨-, rfl, -⟩⟩ := served_cases source
    · exact Or.inl ⟨_, Or.inr ⟨item, htake⟩, Or.inr ⟨not_isOver_of_reply reply, rfl⟩⟩
    · exact Or.inl ⟨_, Or.inl rfl, Or.inr ⟨not_isOver_of_reply reply, rfl⟩⟩
  | runnerPanicked hired answer aside =>
    exact Or.inl ⟨_, Or.inl rfl, Or.inl ⟨aside.channel.trans (channel_of_panicked answer).2,
      (aside.worker nofun).trans (perform_frame answer).1⟩⟩
  | runnerAlone hired aside =>
    exact Or.inl ⟨_, Or.inl rfl, Or.inl ⟨aside.channel, aside.worker nofun⟩⟩
  | runnerCancelled runner aborted => exact Or.inr ⟨rfl, rfl⟩

/-- Nobody else loses their place in such a step, and whoever is outside stays there. -/
theorem Turn.quiet_fits (h : Turn c s (.moved a none work) s') (lanes : Lanes s.channel) :
    Lanes s'.channel ∧ (Place.outside.Fits a s.channel → Place.outside.Fits a s'.channel) ∧
      ∀ b, b ≠ a → ∀ p : Place, p.Fits b s.channel → p.Fits b s'.channel := by
  rcases h.quiet_channel with ⟨ch, hch, hs'⟩ | ⟨hs', -⟩
  · have before : Lanes ch ∧ ∀ b, ∀ p : Place, p.Fits b s.channel → p.Fits b ch := by
      rcases hch with rfl | ⟨item, htake⟩
      · exact ⟨lanes, fun _ _ hp => hp⟩
      · obtain ⟨hfair, hway, hheld⟩ := lanes.fair.take htake
        have hentered := Channel.entered_take htake
        exact ⟨⟨hfair, hentered ▸ lanes.nodup⟩, fun b p hp =>
          hp.congr (iff_of_eq (congrArg (b ∈ ·) hentered)) (hway b) (hheld b)⟩
    have after : Lanes s'.channel ∧ ∀ b, ∀ p : Place, p.Fits b s.channel → p.Fits b s'.channel := by
      rcases hs' with ⟨hs', -⟩ | ⟨-, hs'⟩
      · rwa [hs']
      · rw [hs']
        split
        · obtain ⟨lanes₁, hfits⟩ := before
          exact ⟨⟨⟨lanes₁.fair.positive, lanes₁.fair.nodup, lanes₁.fair.full⟩, lanes₁.nodup⟩,
            fun b p hp => (hfits b p hp).congr Iff.rfl Iff.rfl id⟩
        · exact before
    exact ⟨after.1, after.2 a _, fun b _ => after.2 b⟩
  · rw [hs']
    obtain ⟨lanes', hout, hkeep⟩ := lanes.withdraw a
    exact ⟨lanes', fun _ => hout, hkeep⟩

/-- When no request was answered the routine of the actor is over. -/
theorem active_quiet (h : s.step c a = some s') (hlabel : s.label c a = .moved a none work) :
    s'.active a = none := by
  have turn := turn_of_step h
  rw [hlabel] at turn
  cases a with
  | worker =>
    cases turn with
    | workerPanicked routine answer panic => rfl
    | workerReturned routine => rfl
    | workerServed idle source => rfl
  | call i =>
    cases turn with
    | callPanicked task answer =>
      have hlen := (List.getElem?_eq_some_iff.mp task).1
      rw [← (perform_frame answer).2.1] at hlen
      exact residual_set_self hlen
    | callReturned task => exact residual_set_self (List.getElem?_eq_some_iff.mp task).1
  | runner i =>
    obtain ⟨t, ht, -, move⟩ := runnerTurn_of_step h
    have hasked : s.asked? c (.runner i) = none := congrArg Label.asked? hlabel
    rw [hasked] at move
    generalize s.replied? c i (.runner i) = replied at move
    have resumed {s₁ : System D} {now : RunnerTask D} (reply : t.machine.request.Reply)
        (h₁ : s₁.runners[i]? = some now) {momentum : Nat → Nat} :
        System.active { s₁.resumeRunner c i t reply with momentum } (.runner i) = none := by
      refine active_of_residual_none ?_
      rw [residual_momentum, residual_runner (resumeRunner_spec reply h₁).2]
      rfl
    cases move with
    | panicked routine answer pace =>
      refine active_of_not_running ?_
      rw [← runners_of_panicked answer] at ht
      exact isRunning_eq_isNone (runners_modifyRunner ht)
    | returned routine pace => exact resumed _ ht
    | served idle source pace =>
      obtain ⟨inbox, -, -, ht₁⟩ := runnerSource_atOnce ht source
      exact resumed _ ht₁
    | timed idle source pace =>
      obtain ⟨d, inboxOpen, -, -, rfl⟩ := runnerSource_later source
      refine active_of_residual_none ?_
      rw [residual_momentum, residual_runner (runners_modifyRunner ht)]
      simp only [idle, Option.map_none]
    | cancelled aborted =>
      exact active_of_not_running (isRunning_eq_isNone (runners_cancel ht))

theorem awake_of_step (awake : ∀ (i : Nat) (t : RunnerTask D), s.runners[i]? = some t → Awake t)
    (h : s.step c a = some s') {t' : RunnerTask D} (ht' : s'.runners[i]? = some t') : Awake t' := by
  have new (hnone : s.runners[i]? = none) (ha : a ≠ .runner i) : Awake t' := by
    obtain ⟨_, _, hlabel, -⟩ := stride_of_step h
    rw [new_of_step (t := t') (hlabel ▸ turn_of_step h) ha hnone ht']
    exact fun hne => absurd rfl hne
  by_cases ha : a = .runner i
  · subst ha
    obtain ⟨t, ht, hrun, move⟩ := runnerTurn_of_step h
    have resumed {s₁ : System D} {now : RunnerTask D} (reply : t.machine.request.Reply)
        (h₁ : s₁.runners[i]? = some now)
        (ht' : (s₁.resumeRunner c i t reply).runners[i]? = some t') : Awake t' := by
      rw [(resumeRunner_spec reply h₁).2] at ht'
      cases ht'
      exact fun hne => absurd rfl hne
    generalize s.asked? c (.runner i) = asked at move
    generalize s.replied? c i (.runner i) = replied at move
    cases move with
    | @asked q rest reply s₁ routine answer momentum pace =>
      obtain ⟨hlaunched, hgoes, -⟩ := RunnerTask.mayRun_iff.mp hrun
      rw [runners_modifyRunner (upon_of_perform answer ht)] at ht'
      cases ht'
      exact fun _ => ⟨onward_upon.launched hlaunched, hgoes.imp_left onward_upon.released⟩
    | panicked routine answer pace =>
      rw [← runners_of_panicked answer] at ht
      rw [runners_modifyRunner ht] at ht'
      cases ht'
      rw [runners_of_panicked answer] at ht
      exact awake i t ht
    | returned routine pace => exact resumed _ ht ht'
    | served idle source pace =>
      obtain ⟨inbox, -, -, ht₁⟩ := runnerSource_atOnce ht source
      exact resumed _ ht₁ ht'
    | timed idle source pace =>
      obtain ⟨d, inboxOpen, -, -, rfl⟩ := runnerSource_later source
      rw [runners_modifyRunner ht] at ht'
      cases ht'
      exact fun hne => absurd idle hne
    | cancelled aborted =>
      rw [runners_cancel ht] at ht'
      cases ht'
      exact awake i t ht
  · cases ht : s.runners[i]? with
    | none => exact new ht ha
    | some t =>
      obtain ⟨_, _, hlabel, -⟩ := stride_of_step h
      rcases runner_of_turn (hlabel ▸ turn_of_step h) ha ht with ⟨-, hsame⟩ | ⟨q, reply, -, hupon⟩
      · obtain rfl := Option.some.inj (hsame.symm.trans ht')
        exact awake i _ ht
      · rw [hupon] at ht'
        cases ht'
        intro busy
        obtain ⟨hlaunched, hgoes⟩ := awake i t ht (mt pending_upon.mpr busy)
        rw [machine_upon]
        exact ⟨onward_upon.launched hlaunched, hgoes.imp_left onward_upon.released⟩

theorem Crossing.step (h : Crossing s) (hs : s.step c a = some s') : Crossing s' := by
  have able := running_of_step hs
  obtain ⟨asked, work, hlabel, stride⟩ := stride_of_step hs
  have quiet (hasked : asked = none)
      (outside : (Place.outside.Fits a s.channel → Place.outside.Fits a s'.channel) →
        Place.outside.Fits a s'.channel) : Crossing s' := by
    subst hasked
    obtain ⟨lanes, hout, hkeep⟩ := (hlabel ▸ turn_of_step hs).quiet_fits h.lanes
    refine ⟨lanes, fun b => ?_, fun i t' ht' => awake_of_step h.awake hs ht'⟩
    by_cases hb : b = a
    · subst hb
      have hnone := active_quiet hs hlabel
      exact ⟨.outside, outside hout, fun _ => rfl, fun r hr => by cases hnone.symm.trans hr⟩
    · obtain ⟨p, hp, hidle, htidy⟩ := h.placed b
      rw [active_of_quiet hs hlabel hb]
      exact ⟨p, hkeep b hb p hp, hidle, htidy⟩
  cases stride with
  | panicked doing answer narrowed state residual others =>
    obtain ⟨p, hp, tidy⟩ := h.doing able doing
    obtain rfl := Place.outside_of_apart tidy.1 (channel_of_panicked answer).1.apart
    exact quiet rfl fun stays => stays hp
  | ended before narrowed state residual others => exact quiet rfl fun stays => stays (h.outside able before)
  | cancelled actor runner aborted =>
    subst actor
    exact quiet rfl fun _ => (h.lanes.withdraw _).2.1
  | @asked q rest reply s₁ s' doing answer channel state residual others =>
    obtain ⟨p, hp, tidy⟩ := h.doing able doing
    obtain ⟨lanes, hafter, hkeep⟩ := (passage_of_perform answer).fits h.lanes hp tidy.1
    refine ⟨channel ▸ lanes, fun b => ?_, fun i t' ht' => awake_of_step h.awake hs ht'⟩
    rw [active_of_asked hs hlabel, channel]
    split
    · next heq =>
      rw [residual, heq]
      exact ⟨p.after q reply, hafter, nofun, fun r hr => Option.some.inj hr ▸ tidy.2 reply⟩
    · next hne =>
      obtain ⟨p, hp, hidle, htidy⟩ := h.placed b
      exact ⟨p, hkeep b hne p hp, hidle, htidy⟩

end

theorem Run.crossing {τ : List (Label D)} (new : s₀.IsNew) (h : Run c s₀ τ s) : Crossing s := by
  induction h with
  | refl =>
    obtain ⟨capacity, hchannel⟩ := new.channel
    refine ⟨?_, fun a => ⟨.outside, ?_, fun _ => rfl, fun r hr => ?_⟩, fun i t ht => ?_⟩
    · rw [hchannel]
      exact ⟨Channel.fair_empty capacity, List.nodup_nil⟩
    · rw [hchannel]
      exact ⟨List.not_mem_nil, List.not_mem_nil⟩
    · cases (new.residual a).symm.trans (residual_of_active hr)
    · rw [new.runners, List.getElem?_nil] at ht
      cases ht
  | step before h ih => exact ih.step h
  | @call τ s before f ih =>
    refine ⟨ih.lanes, fun a => ?_, ih.awake⟩
    obtain ⟨p, hfits, hidle, htidy⟩ := ih.placed a
    by_cases ha : a = .call s.calls.length
    · subst ha
      obtain rfl := hidle residual_new
      refine ⟨.outside, hfits, fun _ => rfl, fun r hr => ?_⟩
      rcases residual_start (residual_of_active hr) with hold | ⟨-, rfl⟩
      · cases residual_new.symm.trans hold
      · exact Tidy.forget ((tidy_habit (a := .worker)).activity f)
    · have same : (s.start f).active a = s.active a := by
        cases a with
        | call i =>
          have hne : i ≠ s.calls.length := fun h => ha (congrArg Actor.call h)
          simp only [active, residual, start]
          by_cases hi : i < s.calls.length
          · rw [List.getElem?_append_left hi]
          · rw [List.getElem?_eq_none (by simp; omega), List.getElem?_eq_none (by omega)]
        | _ => rfl
      rw [same]
      exact ⟨p, hfits, hidle, htidy⟩
  | @outside τ s s' before h ih =>
    have same : ∀ a, s'.active a = s.active a := by
      intro a
      cases a with
      | runner i =>
        have running : s'.isRunning i = s.isRunning i := by simp only [isRunning, h.runners]
        rw [active, active, running, h.residual]
      | worker => exact h.residual .worker
      | call i => exact h.residual (.call i)
    refine ⟨h.channel ▸ ih.lanes, fun a => ?_, h.runners ▸ ih.awake⟩
    rw [h.channel, same]
    exact ih.placed a

/-! ### Settled systems -/

/-- Whoever can be answered can make a step. -/
theorem Crossing.step_of_reply (h : Crossing s) {rest : q.Reply → Routine D Unit} {reply : q.Reply}
    (hr : s.active a = some (.ask q rest)) (answer : s.perform c a q = some (.reply reply, s')) :
    s.step c a ≠ none := by
  have hres := residual_of_active hr
  cases a with
  | worker =>
    simp only [residual, WorkerTask.residual, Option.map_eq_some_iff] at hres
    obtain ⟨r, hp, hr⟩ := hres
    cases r with
    | done reply => cases hr
    | ask q' rest' =>
      cases hr
      simp [System.step, stepWorker, hp, workerRoutine, answer]
  | runner i =>
    simp only [residual, Option.bind_eq_some_iff, RunnerTask.residual, Option.map_eq_some_iff] at hres
    obtain ⟨t, ht, r, hp, hforget⟩ := hres
    have hrunning : s.isRunning i = true := by
      by_contra hne
      rw [active_of_not_running (Bool.eq_false_iff.mpr hne)] at hr
      cases hr
    rw [isRunning_eq_isNone ht, Option.isNone_iff_eq_none] at hrunning
    obtain ⟨hlaunched, hgoes⟩ := h.awake i t ht (by rw [hp]; exact Option.some_ne_none _)
    have hrun := RunnerTask.mayRun_iff.mpr ⟨hlaunched, hgoes, hrunning⟩
    cases r with
    | done reply => cases hforget
    | ask q' rest' =>
      cases hforget
      have goes : s.goOn c i t ≠ none := by simp [goOn, hp, runnerRoutine, answer]
      simp only [System.step, stepRunner, ht, hrun, if_true]
      split
      · exact Option.some_ne_none _
      · exact goes
  | call i =>
    simp only [residual, Option.bind_eq_some_iff] at hres
    obtain ⟨task, htask, hr⟩ := hres
    cases task with
    | ended result => cases hr
    | running r =>
      have hr : r.forget = .ask q rest := Option.some.inj hr
      cases r with
      | done result => cases hr
      | ask q' rest' =>
        cases hr
        simp [System.step, stepCall, htask, answer]

theorem Crossing.next_of_entered (h : Crossing s) (ha : a ∈ s.channel.entered) :
    ∃ rest, s.active a = some (.ask .requestSlot rest) := by
  obtain ⟨p, hfits, hidle, htidy⟩ := h.placed a
  obtain rfl : p = .entered := by
    cases p with
    | entered => rfl
    | _ => exact absurd ha hfits.1
  cases hr : s.active a with
  | none => cases hidle hr
  | some r =>
    have tidy := htidy r hr
    cases r with
    | done u => cases (show Place.entered = .outside from tidy)
    | ask q rest =>
      cases q with
      | requestSlot => exact ⟨rest, rfl⟩
      | _ => exact False.elim tidy.1

theorem Crossing.next_of_granted (h : Crossing s) (ha : a ∈ s.channel.granted) :
    (∃ item rest, s.active a = some (.ask (.commit item) rest)) ∨
      ∃ rest, s.active a = some (.ask .awaitSlot rest) := by
  have way : s.channel.OnWay a := List.mem_append_right _ ha
  obtain ⟨p, hfits, hidle, htidy⟩ := h.placed a
  cases hr : s.active a with
  | none =>
    rw [hidle hr] at hfits
    exact absurd way hfits.2
  | some r =>
    have tidy := htidy r hr
    cases p with
    | outside => exact absurd way hfits.2
    | entered => exact absurd way hfits.2
    | asked =>
      cases r with
      | done u => cases (show Place.asked = .outside from tidy)
      | ask q rest =>
        cases q with
        | awaitSlot => exact Or.inr ⟨rest, rfl⟩
        | _ => exact False.elim tidy.1
    | granted =>
      cases r with
      | done u => cases (show Place.granted = .outside from tidy)
      | ask q rest =>
        cases q with
        | commit item => exact Or.inl ⟨item, rest, rfl⟩
        | _ => exact False.elim tidy.1

/-- Whoever is on the way has something left to ask. -/
theorem Crossing.next_of_sender (h : Crossing s) (ha : a ∈ s.channel.senders) :
    ∃ q rest, s.active a = some (.ask q rest) := by
  obtain ⟨p, hfits, hidle, htidy⟩ := h.placed a
  have inside : p ≠ .outside := by
    rintro rfl
    rw [Channel.senders, List.append_assoc, List.mem_append] at ha
    exact ha.elim hfits.1 hfits.2
  cases hr : s.active a with
  | none => exact absurd (hidle hr) inside
  | some r =>
    cases r with
    | done u => exact absurd (htidy _ hr) inside
    | ask q rest => exact ⟨q, rest, rfl⟩

/-- Whoever is to be told about a slot and is not is in the line, and the worker is there. -/
theorem Crossing.blocked (h : Crossing s) {rest : Bool → Routine D Unit}
    (hr : s.active a = some (.ask .awaitSlot rest)) (blocked : s.step c a = none) :
    a ∈ s.channel.waiting ∧ s.channel.listening = true := by
  obtain ⟨p, hfits, -, htidy⟩ := h.placed a
  have hway : a ∈ s.channel.waiting ++ s.channel.granted := by
    have hallows := (htidy _ hr).1
    cases p with
    | asked => exact hfits.2
    | _ => exact hallows.elim
  -- With a slot, or without the worker, the request would be answered.
  have listening : s.channel.listening = true := by
    by_contra gone
    have sentAway := Performed.sentAway (c := c) (a := a) (Bool.eq_false_iff.mpr gone)
    exact h.step_of_reply hr (perform_of_performed sentAway) blocked
  have noSlot : a ∉ s.channel.granted := fun held =>
    h.step_of_reply hr (perform_of_performed (.granted listening held)) blocked
  exact ⟨(List.mem_append.mp hway).resolve_right noSlot, listening⟩

/-- In a settled system nobody is about to ask for a slot, and nobody holds one. -/
theorem Crossing.idle (h : Crossing s) (settled : ∀ a, s.step c a = none) :
    s.channel.entered = [] ∧ s.channel.granted = [] := by
  refine ⟨List.eq_nil_iff_forall_not_mem.mpr fun a ha => ?_,
    List.eq_nil_iff_forall_not_mem.mpr fun a ha => ?_⟩
  · obtain ⟨rest, hr⟩ := h.next_of_entered ha
    exact h.step_of_reply hr rfl (settled a)
  · rcases h.next_of_granted ha with ⟨item, rest, hr⟩ | ⟨rest, hr⟩
    · exact h.step_of_reply hr rfl (settled a)
    · have hline := (h.blocked hr (settled a)).1
      exact (List.nodup_append.mp h.lanes.fair.nodup).2.2 a hline a ha rfl

/-- A settled system whose worker waits for a command is open, and nobody is on the way. -/
theorem Crossing.nobody (h : Crossing s) (settled : ∀ a, s.step c a = none)
    (idle : s.worker.pending = none) (waiting : s.worker.machine.phase = .waiting) :
    s.channel.accepting = true ∧ s.channel.senders = [] := by
  obtain ⟨hentered, hgranted⟩ := h.idle settled
  have htake := take_of_blocked idle waiting (settled .worker)
  obtain ⟨hqueue, hopen⟩ := Channel.take_eq_nothingYet.mp htake
  have hwaiting : s.channel.waiting = [] := by
    by_contra hne
    have hfull := h.lanes.fair.full hne
    have hpositive := h.lanes.fair.positive
    simp only [Channel.free, hqueue, hgranted, List.length_nil] at hfull
    omega
  have hsenders : s.channel.senders = [] := by
    simp only [Channel.senders, hentered, hwaiting, hgranted, List.append_nil]
  exact ⟨hopen.resolve_right (not_not_intro hsenders), hsenders⟩

theorem Account.idle {τ : List (Label D)} (h : Account τ s)
    (between : s.worker.machine.phase.isCalling = false) : s.worker.pending = none := by
  by_contra hne
  exact absurd (between.symm.trans (h.calling hne)) nofun

section
variable {τ : List (Label D)} (crossing : Crossing s) (account : Account τ s)
  (settled : ∀ a, s.step c a = none) (between : s.worker.machine.phase.isCalling = false)
include crossing account settled between

/-- Nobody waits for a slot in a settled system, even if the worker has died. -/
theorem Crossing.no_waiting (listening : s.channel.listening = !s.worker.machine.phase.isOver)
    {rest : Bool → Routine D Unit} : s.active a ≠ some (.ask .awaitSlot rest) := by
  intro hr
  obtain ⟨hline, hlistening⟩ := crossing.blocked hr (settled a)
  rcases phase_of_not_isCalling between with hwaiting | hover
  · have hsenders := (crossing.nobody settled (account.idle between) hwaiting).2
    simp only [Channel.senders, List.append_eq_nil_iff] at hsenders
    rw [hsenders.1.2] at hline
    cases hline
  · rw [hlistening, hover] at listening
    cases listening

/-- Nor does anybody wait for the worker once senders are not let in any more. -/
theorem Crossing.no_closing (shut : s.channel.accepting = false) {rest} :
    s.active a ≠ some (.ask .awaitWorker rest) := by
  intro hr
  rcases phase_of_not_isCalling between with hwaiting | hover
  · have haccepting := (crossing.nobody settled (account.idle between) hwaiting).1
    rw [shut] at haccepting
    cases haccepting
  · obtain ⟨result, ending⟩ := isOver_iff.mp hover
    exact crossing.step_of_reply hr (perform_of_performed (.workerOver ending)) (settled a)

end

section
variable {τ : List (Label D)} (crossing : Crossing s) (account : Account τ s) (gate : Gate τ s)
  (settled : ∀ a, s.step c a = none) (between : s.worker.machine.phase.isCalling = false)
include crossing account gate settled between

/-- In a settled system nobody waits for a slot. -/
theorem Crossing.no_awaitSlot {rest : Bool → Routine D Unit} :
    s.active a ≠ some (.ask .awaitSlot rest) :=
  crossing.no_waiting account settled between gate.listening

/-- Nor is anybody about to. -/
theorem Crossing.not_awaiting {rest : Bool → Routine D Unit}
    (able : ∀ i, a = .runner i → s.isRunning i = true) : ¬ Doing c s a (.ask .awaitSlot rest) := by
  rintro (hr | ⟨-, fresh⟩)
  · exact crossing.no_awaitSlot account gate settled between ((active_of_running able).trans hr)
  · exact (tidy_habit.fresh fresh).1

end

end Reveille.System
