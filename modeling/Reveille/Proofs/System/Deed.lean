import Reveille.Proofs.System.Performed

/-!
# What the answer to a request does

While the bus is open and no runner has ended, a calm request either blocks or is answered, and then
it does one of a few things (`Deed`).  `Answered` says all that is known about an answered request:
the reply, what was done, and what no request touches (`answered_of_perform`).
-/

namespace Reveille

variable {D : Domain} {c : Cast D} {a : Actor}

/-- What was ordered of a runner. -/
structure Badge (S : Type) where
  service : S
  launched : Bool
  released : Bool
  stopRequested : Bool

def RunnerTask.badge (t : RunnerTask D) : Badge D.Service :=
  ⟨t.service, t.launched, t.released, t.stopRequested⟩

/-- The same runner, perhaps with more events in its inbox, or started a little further. -/
def RunnerTask.Nudged (t t' : RunnerTask D) : Prop :=
  ∃ more launched released, (t.launched = true → launched = true) ∧
    (t.released = true → released = true) ∧
    t' = { t with inbox := t.inbox ++ more, launched, released }

namespace RunnerTask.Nudged

variable {t t' : RunnerTask D}

theorem refl (t : RunnerTask D) : t.Nudged t :=
  ⟨[], t.launched, t.released, id, id, by rw [List.append_nil]⟩

theorem service (h : t.Nudged t') : t'.service = t.service := by
  obtain ⟨more, launched, released, -, -, rfl⟩ := h
  rfl

theorem ending (h : t.Nudged t') : t'.ending = t.ending ∧ t'.aborted = t.aborted := by
  obtain ⟨more, launched, released, -, -, rfl⟩ := h
  exact ⟨rfl, rfl⟩

theorem launched (h : t.Nudged t') (hl : t.launched = true) : t'.launched = true := by
  obtain ⟨more, launched, released, hlaunched, -, rfl⟩ := h
  exact hlaunched hl

theorem mem_inbox (h : t.Nudged t') {e : D.Event} (he : e ∈ t.inbox) : e ∈ t'.inbox := by
  obtain ⟨more, launched, released, -, -, rfl⟩ := h
  exact List.mem_append_left _ he

end RunnerTask.Nudged

namespace System

def staff (s : System D) : List (Badge D.Service) := s.runners.map (·.badge)

theorem badges_modify {runners : List (RunnerTask D)} {i : Nat} {f : RunnerTask D → RunnerTask D}
    {g : Badge D.Service → Badge D.Service} (h : ∀ t, (f t).badge = g t.badge) :
    (runners.modify i f).map (·.badge) = (runners.map (·.badge)).modify i g := by
  refine List.ext_getElem? fun j => ?_
  rw [List.getElem?_map, List.getElem?_modify, List.getElem?_modify, List.getElem?_map]
  cases runners[j]? with
  | none => rfl
  | some t =>
    by_cases hj : i = j
    · simp [hj, h]
    · simp [hj]

/-- Requests that neither end anything nor close the bus. -/
def Request.Calm : Request D → Prop
  | .panic _ | .beginClose | .requestStop _ | .abort _ => False
  | _ => True

/-- Requests that may leave the channel, the runners and the surrounding state as they are. -/
def Request.Light (s : System D) : Request D → Prop
  | .requestSlot | .commit _ | .hire _ | .launch _ | .release _ | .call _ => False
  | .push i _ => s.runners.length ≤ i
  | _ => True

structure Open (s : System D) : Prop where
  accepting : s.channel.accepting = true
  listening : s.channel.listening = true
  running : ∀ t ∈ s.runners, t.ending = none ∧ t.aborted = false

/-- What the answer to a request does to the channel, the runners and the surrounding state. -/
inductive Deed (c : Cast D) (a : Actor) (s : System D) :
    (q : Request D) → q.Reply → System D → Prop
  | nothing {q : Request D} {reply : q.Reply} {s' : System D} (light : q.Light s)
      (channel : s'.channel = { s.channel with entered := s'.channel.entered })
      (runners : s'.runners = s.runners) (state : s'.state = s.state) : Deed c a s q reply s'
  | requestSlot {s' : System D} (channel : s'.channel = s.channel.requestSlot a)
      (runners : s'.runners = s.runners) (state : s'.state = s.state) :
      Deed c a s .requestSlot () s'
  | commit {item : Bus.Command (Receiver D) D.Event} {s' : System D}
      (channel : s'.channel = { s.channel with
        queue := s.channel.queue ++ [item], granted := s.channel.granted.erase a })
      (runners : s'.runners = s.runners) (state : s'.state = s.state) :
      Deed c a s (.commit item) true s'
  | trySend {e : D.Event} {s' : System D} (room : s.channel.free ≠ 0)
      (channel : s'.channel = { s.channel with queue := s.channel.queue ++ [.event e] })
      (runners : s'.runners = s.runners) (state : s'.state = s.state) :
      Deed c a s (.trySend e) (.ok ()) s'
  | push {i : Nat} {e : D.Event} {s' : System D} (channel : s'.channel = s.channel)
      (runners : s'.runners = s.runners.modify i fun t => { t with inbox := t.inbox ++ [e] })
      (state : s'.state = s.state) : Deed c a s (.push i e) true s'
  | hire {service : D.Service} {s' : System D} (channel : s'.channel = s.channel)
      (runners : s'.runners =
        s.runners ++ [{ service, machine := .init (c.service service).jitter }])
      (state : s'.state = s.state) : Deed c a s (.hire service) s.runners.length s'
  | launch {i : Nat} {s' : System D} (channel : s'.channel = s.channel)
      (runners : s'.runners = s.runners.modify i fun t => { t with launched := true })
      (state : s'.state = s.state) : Deed c a s (.launch i) () s'
  | release {i : Nat} {t : RunnerTask D} {s' : System D} (runner : s.runners[i]? = some t)
      (seeded : t.machine.phase.isSeeding = false) (channel : s'.channel = s.channel)
      (runners : s'.runners = s.runners.modify i fun t => { t with released := true })
      (state : s'.state = s.state) : Deed c a s (.release i) () s'
  | call {q : D.Calls.Request} {reply : D.Calls.Reply q} {s' : System D}
      (channel : s'.channel = s.channel) (runners : s'.runners = s.runners)
      (state : c.answer q s.state = some (.reply reply, s'.state)) : Deed c a s (.call q) reply s'

def Replied (a : Actor) (s : System D) : (q : Request D) → q.Reply → Prop
  | .readTime source, (t : Instant) => t = s.timeOn source
  | .enter, (entered : Bool) => entered = true
  | .awaitSlot, (granted : Bool) => granted = true ∧ a ∈ s.channel.granted
  | .commit _, (committed : Bool) => committed = true
  | .isInboxOpen i, (isOpen : Bool) => isOpen = decide (i < s.runners.length)
  | .push i _, (pushed : Bool) => pushed = decide (i < s.runners.length)
  | _, _ => True

def Granted : (q : Request D) → q.Reply → Prop
  | .enter, (entered : Bool) => entered = true
  | .awaitSlot, (granted : Bool) => granted = true
  | .commit _, (committed : Bool) => committed = true
  | _, _ => True

/-- Whatever is answered outside is answered without a panic. -/
def Gentle (c : Cast D) : Prop :=
  ∀ q x answer x', c.answer q x = some (answer, x') → ∃ reply, answer = .reply reply

variable {s s' : System D} {q : Request D} {answer : Answer q.Reply}

theorem isRunning_eq (hs : s.Open) {i : Nat} : s.isRunning i = decide (i < s.runners.length) := by
  unfold isRunning
  split
  · next t ht =>
    obtain ⟨hi, rfl⟩ := List.getElem?_eq_some_iff.mp ht
    simp [hi, (hs.running _ (List.getElem_mem hi)).1]
  · next ht => simpa using ht

theorem deed_of_perform (hc : Gentle c) (hs : s.Open) (hq : q.Calm)
    (h : s.perform c a q = some (answer, s')) :
    ∃ reply, answer = .reply reply ∧ Replied a s q reply ∧ Deed c a s q reply s' := by
  have quiet {q : Request D} {reply : q.Reply} (light : q.Light s) (replied : Replied a s q reply) :
      ∃ reply', Answer.reply reply = .reply reply' ∧ Replied a s q reply' ∧ Deed c a s q reply' s :=
    ⟨reply, rfl, replied, .nothing light rfl rfl rfl⟩
  cases performed_of_perform h with
  | readTime source => cases source <;> exact ⟨_, rfl, rfl, .nothing trivial rfl rfl rfl⟩
  | elapsed | slept | full | refused | isClosed | workerOver | ended | timedOut =>
    exact quiet trivial trivial
  | drawn | logged => exact ⟨_, rfl, trivial, .nothing trivial rfl rfl rfl⟩
  | entered => exact ⟨_, rfl, rfl, .nothing trivial rfl rfl rfl⟩
  | slotRequested => exact ⟨_, rfl, trivial, .requestSlot rfl rfl rfl⟩
  | granted _ held => exact quiet trivial ⟨rfl, held⟩
  | committed => exact ⟨_, rfl, rfl, .commit rfl rfl rfl⟩
  | sent _ _ room => exact ⟨_, rfl, trivial, .trySend room rfl rfl rfl⟩
  | isInboxOpen i => exact quiet trivial (isRunning_eq hs)
  | pushed running e =>
    rw [isRunning_eq hs] at running
    exact ⟨_, rfl, running.symm, .push rfl rfl rfl⟩
  | missed notRunning e =>
    rw [isRunning_eq hs] at notRunning
    exact quiet (Nat.le_of_not_lt (of_decide_eq_false notRunning)) notRunning.symm
  | hired service => exact ⟨_, rfl, trivial, .hire rfl rfl rfl⟩
  | launched i => exact ⟨_, rfl, trivial, .launch rfl rfl rfl⟩
  | released runner seeded => exact ⟨_, rfl, trivial, .release runner seeded rfl rfl rfl⟩
  | called answered =>
    obtain ⟨reply, rfl⟩ := hc _ _ _ _ answered
    exact ⟨reply, rfl, trivial, .call rfl rfl answered⟩
  -- An open bus lets everybody in, and its worker is there.
  | shutOut closed => cases hs.accepting.symm.trans closed
  | gaveUp closed => cases hs.accepting.symm.trans closed
  | sentAway gone => cases hs.listening.symm.trans gone
  -- Nobody has ended.
  | seedingPanicked runner _ ending =>
    rw [(hs.running _ (List.mem_of_getElem? runner)).1] at ending
    cases ending
  | panicked | beginClose | stopRequested | aborted => exact False.elim hq

/-- A deed leaves a runner what it is, up to its inbox and to how far it was started. -/
theorem Deed.runner {q : Request D} {reply : q.Reply} (h : Deed c a s q reply s') {i : Nat}
    {t : RunnerTask D} (ht : s.runners[i]? = some t) :
    ∃ t', s'.runners[i]? = some t' ∧ t.Nudged t' := by
  have modified {j : Nat} {f : RunnerTask D → RunnerTask D} (hf : t.Nudged (f t)) :
      ∃ t', (s.runners.modify j f)[i]? = some t' ∧ t.Nudged t' := by
    rw [List.getElem?_modify, ht]
    split
    · exact ⟨f t, rfl, hf⟩
    · exact ⟨t, rfl, .refl t⟩
  cases h with
  | push _ runners _ => rw [runners]; exact modified ⟨_, _, _, id, id, rfl⟩
  | launch _ runners _ =>
    rw [runners]
    exact modified ⟨[], true, t.released, fun _ => rfl, id, by rw [List.append_nil]⟩
  | release _ _ _ runners _ =>
    rw [runners]
    exact modified ⟨[], t.launched, true, id, fun _ => rfl, by rw [List.append_nil]⟩
  | hire _ runners _ =>
    rw [runners, List.getElem?_append_left (List.getElem?_eq_some_iff.mp ht).1]
    exact ⟨t, ht, .refl t⟩
  | nothing _ _ runners _ => rw [runners]; exact ⟨t, ht, .refl t⟩
  | requestSlot _ runners _ => rw [runners]; exact ⟨t, ht, .refl t⟩
  | commit _ runners _ => rw [runners]; exact ⟨t, ht, .refl t⟩
  | trySend _ _ runners _ => rw [runners]; exact ⟨t, ht, .refl t⟩
  | call _ runners _ => rw [runners]; exact ⟨t, ht, .refl t⟩

/-- Requests that do nothing to runners but to push events to them. -/
def Request.Plain : Request D → Prop
  | .hire _ | .launch _ | .release _ | .panic _ | .beginClose | .requestStop _ | .abort _ => False
  | _ => True

theorem Deed.staff {q : Request D} {reply : q.Reply} (h : Deed c a s q reply s') (plain : q.Plain) :
    s'.staff = s.staff := by
  cases h with
  | push _ runners _ =>
    unfold System.staff
    rw [runners]
    refine Eq.trans (badges_modify (g := id) ?_) (List.modify_id _ _)
    exact fun _ => rfl
  | launch _ _ _ => exact False.elim plain
  | release _ _ _ _ _ => exact False.elim plain
  | hire _ _ _ => exact False.elim plain
  | nothing _ _ runners _ => exact congrArg (List.map RunnerTask.badge) runners
  | requestSlot _ runners _ => exact congrArg (List.map RunnerTask.badge) runners
  | commit _ runners _ => exact congrArg (List.map RunnerTask.badge) runners
  | trySend _ _ runners _ => exact congrArg (List.map RunnerTask.badge) runners
  | call _ runners _ => exact congrArg (List.map RunnerTask.badge) runners

/-- A deed only adds to the queue, and leaves the bus open. -/
theorem Deed.channel {q : Request D} {reply : q.Reply} (h : Deed c a s q reply s') :
    (∃ more, s'.channel.queue = s.channel.queue ++ more) ∧
      s'.channel.accepting = s.channel.accepting ∧ s'.channel.listening = s.channel.listening := by
  cases h with
  | nothing _ channel _ _ => rw [channel]; exact ⟨⟨[], (List.append_nil _).symm⟩, rfl, rfl⟩
  | commit channel _ _ => rw [channel]; exact ⟨⟨_, rfl⟩, rfl, rfl⟩
  | trySend _ channel _ _ => rw [channel]; exact ⟨⟨_, rfl⟩, rfl, rfl⟩
  | requestSlot channel _ _ =>
    obtain ⟨-, hqueue, haccepting, hlistening⟩ := Bus.Channel.promote_same (c := { s.channel with
      entered := s.channel.entered.erase a, waiting := s.channel.waiting ++ [a] })
    rw [channel]
    exact ⟨⟨[], by rw [List.append_nil]; exact hqueue⟩, haccepting, hlistening⟩
  | push channel _ _ => rw [channel]; exact ⟨⟨[], (List.append_nil _).symm⟩, rfl, rfl⟩
  | hire channel _ _ => rw [channel]; exact ⟨⟨[], (List.append_nil _).symm⟩, rfl, rfl⟩
  | launch channel _ _ => rw [channel]; exact ⟨⟨[], (List.append_nil _).symm⟩, rfl, rfl⟩
  | release _ _ channel _ _ => rw [channel]; exact ⟨⟨[], (List.append_nil _).symm⟩, rfl, rfl⟩
  | call channel _ _ => rw [channel]; exact ⟨⟨[], (List.append_nil _).symm⟩, rfl, rfl⟩

theorem perform_frame (h : s.perform c a q = some (answer, s')) :
    s'.worker = s.worker ∧ s'.calls = s.calls ∧ s'.time = s.time ∧ s'.clock = s.clock := by
  cases performed_of_perform h with
  | readTime source => cases source <;> exact ⟨rfl, rfl, rfl, rfl⟩
  | _ => exact ⟨rfl, rfl, rfl, rfl⟩

theorem momentum_of_perform (h : s.perform c a q = some (answer, s')) : s'.momentum = s.momentum := by
  cases performed_of_perform h with
  | readTime source => cases source <;> rfl
  | _ => rfl

structure Answered (c : Cast D) (a : Actor) (s : System D) (q : Request D) (reply : q.Reply)
    (s' : System D) : Prop where
  replied : Replied a s q reply
  deed : Deed c a s q reply s'
  worker : s'.worker = s.worker
  calls : s'.calls = s.calls
  time : s'.time = s.time
  clock : s'.clock = s.clock

theorem Answered.granted {reply : q.Reply} (h : Answered c a s q reply s') : Granted q reply := by
  have hreplied := h.replied
  cases q with
  | enter => exact hreplied
  | awaitSlot => exact hreplied.1
  | commit item => exact hreplied
  | _ => exact trivial

theorem answered_of_perform (hc : Gentle c) (hs : s.Open) (hq : q.Calm)
    (h : s.perform c a q = some (answer, s')) :
    ∃ reply, answer = .reply reply ∧ Answered c a s q reply s' := by
  obtain ⟨reply, hr, hreplied, hdeed⟩ := deed_of_perform hc hs hq h
  obtain ⟨hworker, hcalls, htime, hclock⟩ := perform_frame h
  exact ⟨reply, hr, hreplied, hdeed, hworker, hcalls, htime, hclock⟩

end System

end Reveille
