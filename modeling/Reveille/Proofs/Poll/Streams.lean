import Reveille.Proofs.Poll.Routines
import Reveille.Proofs.System.Stride

/-!
# The streams that runners look through

Whatever becomes of the bus and of the runners, the runner of a duty looks through nothing but items of
its duty (`Streaming`): the reply to `checkAll` is the stream of the duty, and what is left of it after
an item is a list.  Every step keeps this (`streaming_step`).
-/

namespace Reveille.Poll

open Program Reveille.System

variable {Sink : Type} {X : Signature} {σ : Type} {c : Cast (place Sink X σ)}
  {s s' s₁ : System (place Sink X σ)} {d : Duty} {i : Nat} {t : RunnerTask (place Sink X σ)} {a : Actor}

namespace Duty

def Reads (d : Duty) (m : Machine Sink X σ) : Prop :=
  match m.phase with
  | .collecting _ _ _ stream => d.Streams stream
  | _ => True

def Brings (d : Duty) : (q : MachineRequest Sink X σ) → q.Reply → Prop
  | .checkAll, (stream : Items (place Sink X σ)) => d.Streams stream
  | .nextItem _, (reply : Option (Reported Id × Items (place Sink X σ))) =>
    ∀ item rest, reply = some (item, rest) → d.Streams rest
  | _, _ => True

variable {m : Machine Sink X σ}

theorem Reads.asks (h : d.Reads m) : d.Asks m.request := by
  obtain ⟨jitter, alarm, rescanAt, shown, inboxOpen, phase⟩ := m
  rintro stream hq
  cases phase with
  | collecting pass now scan stream' =>
    cases hq
    exact h
  | _ => cases hq

theorem reads_check {ids : List Id} : d.Reads (m.check ids).1 := by
  cases ids <;> exact trivial

theorem reads_process {next : Alarm Id} {ids : List Id} : d.Reads (m.process next ids).1 := by
  cases ids <;> exact trivial

theorem reads_resume (reply : m.request.Reply) (hr : d.Brings m.request reply) :
    d.Reads (m.resume reply).1 := by
  have turned := Runner.turned_resume m reply
  generalize m.resume reply = turn at turned ⊢
  cases turned with
  | scanning => exact hr
  | collected r pass =>
    cases pass with
    | seed => exact trivial
    | wake => exact reads_process
  | item | itemFailed => exact hr _ _ rfl
  | receiving | checked | checkFailed => exact reads_check
  | processFailed | recheckFailed | stillDue | dueLater => exact reads_process
  | _ => exact trivial

end Duty

/-- On every path the routine ends with a reply that brings streams of the duty only. -/
def Duty.EndsWell (d : Duty) {q : MachineRequest Sink X σ} (r : Routine (place Sink X σ) q.Reply) : Prop :=
  r.Leads (fun _ _ => True) (fun _ => False) (d.Brings q)

theorem endsWell_of_source (onDuty : OnDuty c) {q : MachineRequest Sink X σ}
    {r : Routine (place Sink X σ) q.Reply} (h : s.runnerSource c i t q = .routine r)
    (asks : t.service.Asks q) : t.service.EndsWell r := by
  cases does_of_source onDuty h asks with
  | items => exact Or.inl rfl
  | first => exact Or.inr fun _ _ => Or.inr fun _ _ item rest h => Or.inr ⟨_, rest_of_handed h⟩
  | next items => exact fun item rest h => Or.inr ⟨_, rest_of_handed h⟩
  | _ => exact Leads.of_forall fun _ => trivial

/-- A runner looks through streams of its duty, and is in a routine that brings it such streams. -/
structure Streaming (t : RunnerTask (place Sink X σ)) : Prop where
  reads : t.service.Reads t.machine
  ends : ∀ r, t.pending = some r → t.service.EndsWell r

def AllStreaming (s : System (place Sink X σ)) : Prop :=
  ∀ (i : Nat) (t : RunnerTask (place Sink X σ)), s.runners[i]? = some t → Streaming t

theorem AllStreaming.treated (h : AllStreaming s) (treated : Treated c s s') :
    AllStreaming s' := by
  intro i t ht
  obtain ⟨t₀, _, _, _, _, _, ht₀, rfl⟩ | hnew := treated.before ht
  · exact ⟨(h i t₀ ht₀).reads, (h i t₀ ht₀).ends⟩
  · rw [hnew]
    exact ⟨trivial, nofun⟩

theorem AllStreaming.modify (h : AllStreaming s) {f : RunnerTask (place Sink X σ) → RunnerTask (place Sink X σ)}
    (hf : ∀ t, s.runners[i]? = some t → Streaming (f t)) : AllStreaming (s.modifyRunner i f) := by
  intro j t ht
  simp only [modifyRunner, List.getElem?_modify, Option.map_eq_map, Option.map_eq_some_iff] at ht
  obtain ⟨t₀, ht₀, rfl⟩ := ht
  split
  · next hij => exact hf t₀ (hij ▸ ht₀)
  · exact h j t₀ ht₀

theorem AllStreaming.resume (h : AllStreaming s) {now : RunnerTask (place Sink X σ)}
    (hnow : s.runners[i]? = some now) (service : now.service = t.service)
    (reply : t.machine.request.Reply) (brings : t.service.Brings t.machine.request reply) :
    AllStreaming (s.resumeRunner c i t reply) := by
  obtain ⟨aside, htask⟩ := resumeRunner_spec (c := c) (t := t) reply hnow
  intro j t' ht'
  by_cases hj : j = i
  · subst hj
    obtain rfl := Option.some.inj (htask.symm.trans ht')
    exact ⟨service ▸ Duty.reads_resume reply brings, nofun⟩
  · rw [aside.runners j fun h => hj (Actor.runner.inj h).symm] at ht'
    exact h j t' ht'

theorem Streaming.routine (h : Streaming t) (onDuty : OnDuty c)
    {r : Routine (place Sink X σ) t.machine.request.Reply} (routine : RunnerIn c s i t r) :
    t.service.EndsWell r := by
  rcases routine with hp | ⟨-, hsource⟩
  · exact h.ends r hp
  · exact endsWell_of_source onDuty hsource h.reads.asks

theorem brings_of_served {q : MachineRequest Sink X σ} {reply : q.Reply} {inbox : List Event}
    (h : Served s t q reply inbox) : d.Brings q reply := by
  cases q with
  | checkAll => nomatch h
  | nextItem stream => nomatch h
  | _ => exact trivial

theorem AllStreaming.runnerTurn (h : AllStreaming s) (onDuty : OnDuty c)
    {asked : Option (Exchange (place Sink X σ).requests)}
    {replied : Option (Exchange (Duties (place Sink X σ)))} (ht : s.runners[i]? = some t)
    (turn : RunnerTurn c s i t asked replied s') : AllStreaming s' := by
  cases turn with
  | @asked q rest reply s₁ routine answer momentum pace =>
    have treated := treated_of_perform answer
    obtain ⟨_, _, _, _, _, htask⟩ := treated.after ht
    refine (h.treated treated).modify fun now hnow => ?_
    obtain rfl := Option.some.inj (htask.symm.trans hnow)
    refine ⟨(h i t ht).reads, fun r hr => ?_⟩
    obtain rfl := Option.some.inj hr
    exact (((h i t ht).routine onDuty routine).step trivial).resolve_left nofun
  | panicked routine answer pace =>
    refine (h.treated (treated_of_perform answer)).modify fun now hnow => ?_
    have hstreaming := h.treated (treated_of_perform answer) i now hnow
    exact ⟨hstreaming.reads, hstreaming.ends⟩
  | returned routine pace => exact h.resume (c := c) ht rfl _ ((h i t ht).routine onDuty routine)
  | @served reply s₁ idle source momentum pace =>
    obtain ⟨inbox, served, aside, ht₁⟩ := runnerSource_atOnce ht source
    refine AllStreaming.resume (c := c) (fun j t' ht' => ?_) ht₁ rfl reply (brings_of_served served)
    by_cases hj : j = i
    · subst hj
      obtain rfl := Option.some.inj (ht₁.symm.trans ht')
      exact ⟨(h j t ht).reads, (h j t ht).ends⟩
    · rw [aside.runners j fun h => hj (Actor.runner.inj h).symm] at ht'
      exact h j t' ht'
  | timed idle source pace =>
    obtain ⟨_, _, -, -, rfl⟩ := runnerSource_later source
    refine h.modify fun now hnow => ?_
    exact ⟨(h i now hnow).reads, (h i now hnow).ends⟩
  | cancelled aborted =>
    refine h.modify fun now hnow => ?_
    exact ⟨(h i now hnow).reads, (h i now hnow).ends⟩

theorem streaming_step (h : AllStreaming s) (onDuty : OnDuty c) (step : s.step c a = some s') :
    AllStreaming s' := by
  have same {s₁ : System (place Sink X σ)} (hs : AllStreaming s₁) (runners : s'.runners = s₁.runners) :
      AllStreaming s' := fun i t ht => hs i t (runners ▸ ht)
  cases a with
  | runner i =>
    obtain ⟨t, ht, -, turn⟩ := runnerTurn_of_step step
    exact h.runnerTurn onDuty ht turn
  | call i =>
    have turn := turn_of_step step
    generalize hl : s.label c (.call i) = l at turn
    cases turn with
    | callAsked task answer => exact same (h.treated (treated_of_perform answer)) rfl
    | callPanicked task answer => exact same (h.treated (treated_of_perform answer)) rfl
    | callReturned task => exact same h rfl
    | _ => cases hl
  | worker =>
    have turn := turn_of_step step
    generalize hl : s.label c .worker = l at turn
    cases turn with
    | workerAsked routine answer => exact same (h.treated (treated_of_perform answer)) rfl
    | workerPanicked routine answer panic => exact same (h.treated (treated_of_perform answer)) rfl
    | workerReturned routine => exact same h rfl
    | workerServed idle source =>
      obtain ⟨-, ⟨item, channel, -, rfl, -⟩ | ⟨-, rfl, -⟩⟩ := served_cases source
      · exact same h rfl
      · exact same h rfl
    | _ => cases hl

end Reveille.Poll
