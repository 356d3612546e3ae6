import Reveille.Proofs.System.Residual

/-!
# Traffic on the way to the queue

An actor that sends goes through stages: it asks for a slot, holds it, and commits.  `Orderly` says
of a routine at a stage that it goes through them in this order, and does nothing else meanwhile.
When all routines are orderly, the stage of an actor is where the channel has it (`Traffic`, kept by
every step: `Traffic.progress`).  So in a settled system with an empty queue nobody is on the way
(`Traffic.not_onWay`).
-/

namespace Reveille

variable {D : Domain} {c : Cast D} {α β : Type}

namespace System

/-- How far an actor is on its way to the queue. -/
inductive Stage where
  | away
  | asked
  | granted

namespace Stage

def Allows : Stage → Request D → Prop
  | .away, .awaitSlot => False
  | .away, .commit _ => False
  | .away, q => q.Calm
  | .asked, .awaitSlot => True
  | .asked, _ => False
  | .granted, .commit _ => True
  | .granted, _ => False

def after : Stage → (q : Request D) → q.Reply → Stage
  | .away, .requestSlot, _ => .asked
  | .asked, .awaitSlot, (held : Bool) => if held then .granted else .away
  | _, _, _ => .away

def Fits {C : Type} (a : Actor) (channel : Bus.Channel Actor C) : Stage → Prop
  | .away => ¬ channel.OnWay a
  | .asked => channel.OnWay a
  | .granted => a ∈ channel.granted

theorem calm_of_allows {st : Stage} {q : Request D} (h : st.Allows q) : q.Calm := by
  cases st <;> cases q <;> first | exact h | exact trivial

end Stage

/-- While the bus is open, the routine takes the stages in order, from some stage on, and ends away
from the queue with a value in `Q`. -/
def Orderly (Q : α → Prop) : Stage → Routine D α → Prop
  | st, .done a => st = .away ∧ Q a
  | st, .ask q rest =>
    st.Allows q ∧ ∀ reply, Granted q reply → Orderly Q (st.after q reply) (rest reply)

namespace Orderly

variable {Q : α → Prop} {Q' : β → Prop}

theorem bind {p : Routine D α} {f : α → Routine D β} {st : Stage} (h : Orderly Q st p)
    (hf : ∀ a, Q a → Orderly Q' .away (f a)) : Orderly Q' st (p.bind f) := by
  induction p generalizing st with
  | done a =>
    obtain ⟨rfl, ha⟩ := h
    exact hf a ha
  | ask q rest ih => exact ⟨h.1, fun reply hreply => ih reply (h.2 reply hreply)⟩

theorem forget {p : Routine D α} {st : Stage} (h : Orderly Q st p) :
    Orderly (fun _ => True) st p.forget := h.bind fun _ _ => ⟨rfl, trivial⟩

/-- To send is orderly, and succeeds. -/
theorem enqueue (item : Bus.Command (Receiver D) D.Event) :
    Orderly (· = .ok ()) .away (Routine.enqueue item) := by
  refine ⟨trivial, ?_⟩
  rintro _ rfl
  refine ⟨trivial, fun _ _ => ⟨trivial, ?_⟩⟩
  rintro _ rfl
  refine ⟨trivial, ?_⟩
  rintro _ rfl
  exact ⟨rfl, rfl⟩

theorem query {q : Request D} {f : q.Reply → Routine D α} (hq : Stage.away.Allows q)
    (hne : q ≠ .requestSlot) (hf : ∀ reply, Orderly Q .away (f reply)) :
    Orderly Q .away (.ask q f) := by
  refine ⟨hq, fun reply _ => ?_⟩
  have : Stage.away.after q reply = .away := by
    cases q with
    | requestSlot => exact absurd rfl hne
    | _ => rfl
  rw [this]
  exact hf reply

end Orderly

structure Traffic (s : System D) : Prop where
  fair : s.channel.Fair
  staged : ∀ a, ∃ st : Stage, st.Fits a s.channel ∧ (s.residual a = none → st = .away) ∧
    ∀ r, s.residual a = some r → Orderly (fun _ => True) st r

variable {s s' : System D} {a : Actor}

theorem Traffic.doing (hT : Traffic s) (fresh : ∀ r, Fresh c s a r → Orderly (fun _ => True) .away r)
    {r : Routine D Unit} (h : Doing c s a r) :
    ∃ st : Stage, st.Fits a s.channel ∧ Orderly (fun _ => True) st r := by
  obtain ⟨st, hfits, hnone, hsome⟩ := hT.staged a
  rcases h with hr | ⟨hn, hr⟩
  · exact ⟨st, hfits, hsome r hr⟩
  · exact ⟨.away, hnone hn ▸ hfits, fresh r hr⟩

theorem Traffic.calm (hT : Traffic s) (fresh : ∀ r, Fresh c s a r → Orderly (fun _ => True) .away r)
    {q : Request D} {rest : q.Reply → Routine D Unit} (h : Doing c s a (.ask q rest)) : q.Calm := by
  obtain ⟨st, -, hr⟩ := hT.doing fresh h
  exact Stage.calm_of_allows hr.1

/-- Only someone who is away makes any other request than to wait for a slot or to commit. -/
theorem Stage.away_of_allows {st : Stage} {q : Request D} (h : st.Allows q) (hw : q ≠ .awaitSlot)
    (hc : ∀ item, q ≠ .commit item) : st = .away := by
  cases st with
  | away => rfl
  | asked =>
    cases q with
    | awaitSlot => exact absurd rfl hw
    | _ => exact False.elim h
  | granted =>
    cases q with
    | commit item => exact absurd rfl (hc item)
    | _ => exact False.elim h

theorem Stage.Fits.congr {C : Type} {st : Stage} {channel channel' : Bus.Channel Actor C}
    (h : st.Fits a channel) (hway : channel'.OnWay a ↔ channel.OnWay a)
    (hheld : a ∈ channel.granted → a ∈ channel'.granted) : st.Fits a channel' := by
  cases st with
  | away => exact fun hb => h (hway.mp hb)
  | asked => exact hway.mpr h
  | granted => exact hheld h

/-- What a deed of an actor at a stage does to the channel. -/
theorem Deed.fits {q : Request D} {reply : q.Reply} (h : Deed c a s q reply s')
    (hfair : s.channel.Fair) {st : Stage} (hst : st.Fits a s.channel) (hq : st.Allows q)
    (hr : Replied a s q reply) :
    s'.channel.Fair ∧ (st.after q reply).Fits a s'.channel ∧
      ∀ b, b ≠ a → ∀ st' : Stage, st'.Fits b s.channel → st'.Fits b s'.channel := by
  have same (hch : s'.channel = s.channel) (hafter : Stage.away.after q reply = .away)
      (hw : q ≠ .awaitSlot) (hc : ∀ item, q ≠ .commit item) :
      s'.channel.Fair ∧ (st.after q reply).Fits a s'.channel ∧
        ∀ b, b ≠ a → ∀ st' : Stage, st'.Fits b s.channel → st'.Fits b s'.channel := by
    obtain rfl := Stage.away_of_allows hq hw hc
    rw [hch, hafter]
    exact ⟨hfair, hst, fun _ _ _ h => h⟩
  cases h with
  | nothing light channel _ _ =>
    have hfair' : s'.channel.Fair := by
      rw [channel]
      exact ⟨hfair.positive, hfair.nodup, hfair.full⟩
    have hothers : ∀ b, b ≠ a → ∀ st' : Stage, st'.Fits b s.channel → st'.Fits b s'.channel := by
      intro b _ st' h
      rw [channel]
      exact h.congr Iff.rfl id
    refine ⟨hfair', ?_, hothers⟩
    rw [channel]
    cases st with
    | away =>
      have hafter : Stage.away.after q reply = .away := by
        cases q with
        | requestSlot => exact False.elim light
        | _ => rfl
      rw [hafter]
      exact hst.congr Iff.rfl id
    | asked =>
      cases q with
      | awaitSlot =>
        obtain ⟨rfl, hheld⟩ := hr
        exact hheld
      | _ => exact False.elim hq
    | granted =>
      cases q with
      | commit item => exact False.elim light
      | _ => exact False.elim hq
  | requestSlot channel _ _ =>
    obtain rfl := Stage.away_of_allows hq nofun nofun
    obtain ⟨hfair', hway, hheld⟩ := hfair.requestSlot hst
    rw [channel]
    refine ⟨hfair', (hway a).mpr (Or.inl rfl), fun b hb st' h => h.congr ?_ (hheld b)⟩
    exact ⟨fun h => ((hway b).mp h).resolve_left hb, fun h => (hway b).mpr (Or.inr h)⟩
  | @commit item _ channel _ _ =>
    have hheld : a ∈ s.channel.granted := by
      cases st with
      | granted => exact hst
      | away => exact False.elim hq
      | asked => exact False.elim hq
    have hafter : st.after (.commit item) true = .away := by cases st <;> rfl
    obtain ⟨hfair', hway⟩ := hfair.commit hheld
    rw [channel, hafter]
    refine ⟨hfair', fun h => ((hway a).mp h).1 rfl, fun b hb st' h => h.congr ?_ fun h => ?_⟩
    · exact ⟨fun h => ((hway b).mp h).2, fun h => (hway b).mpr ⟨hb, h⟩⟩
    · exact (List.mem_erase_of_ne hb).mpr h
  | trySend room channel _ _ =>
    obtain rfl := Stage.away_of_allows hq nofun nofun
    rw [channel]
    exact ⟨hfair.addItem, hst.congr Iff.rfl id, fun b _ _ h => h.congr Iff.rfl id⟩
  | push channel _ _ => exact same channel rfl nofun nofun
  | hire channel _ _ => exact same channel rfl nofun nofun
  | launch channel _ _ => exact same channel rfl nofun nofun
  | release _ _ channel _ _ => exact same channel rfl nofun nofun
  | call channel _ _ => exact same channel rfl nofun nofun

theorem Traffic.progress (hT : Traffic s) (fresh : ∀ r, Fresh c s a r → Orderly (fun _ => True) .away r)
    (h : Progress c s a s') : Traffic s' := by
  have others := fun b (hb : b ≠ a) => h.others hb
  cases h with
  | @asked q rest reply s₁ doing answered aside residual =>
    obtain ⟨st, hfits, hallows, hrest⟩ := hT.doing fresh doing
    obtain ⟨hfair, hafter, hothers⟩ := answered.deed.fits hT.fair hfits hallows answered.replied
    refine ⟨aside.channel ▸ hfair, ?_⟩
    intro b
    rw [aside.channel]
    by_cases hb : b = a
    · subst hb
      refine ⟨_, hafter, ?_, ?_⟩
      · intro hn
        rw [residual] at hn
        cases hn
      · intro r hr
        obtain rfl := Option.some.inj (residual.symm.trans hr)
        exact hrest reply answered.granted
    · obtain ⟨st', hst', hnone, hsome⟩ := hT.staged b
      rw [others b hb]
      exact ⟨st', hothers b hb st' hst', hnone, hsome⟩
  | ended before aside residual =>
    refine ⟨aside.channel ▸ hT.fair, ?_⟩
    intro b
    rw [aside.channel]
    obtain ⟨st, hst, hnone, hsome⟩ := hT.staged b
    by_cases hb : b = a
    · subst hb
      have haway : st = .away := by
        cases hr : s.residual b with
        | none => exact hnone hr
        | some r =>
          have := hsome r hr
          rw [before r hr] at this
          exact this.1
      refine ⟨st, hst, fun _ => haway, ?_⟩
      intro r hr
      rw [residual] at hr
      cases hr
    · rw [others b hb]
      exact ⟨st, hst, hnone, hsome⟩
  | @received item channel worker before taken aside residual =>
    obtain ⟨hfair, hway, hheld⟩ := hT.fair.take taken
    have hsame : ∀ b, s'.residual b = s.residual b := by
      intro b
      by_cases hb : b = a
      · rw [hb, residual, before]
      · exact others b hb
    have hchannel : s'.channel = channel := aside.channel
    refine ⟨hchannel ▸ hfair, ?_⟩
    intro b
    obtain ⟨st, hst, hrest⟩ := hT.staged b
    rw [hsame b, hchannel]
    exact ⟨st, hst.congr (hway b) (hheld b), hrest⟩

/-! ### Settled systems -/

theorem isSettled_iff : s.isSettled c = true ↔ ∀ a, s.step c a = none := by
  simp only [isSettled, actors, List.all_append, List.all_cons, Bool.and_eq_true, List.all_eq_true,
    List.mem_map, List.mem_range, Option.isNone_iff_eq_none]
  constructor
  · rintro ⟨⟨hworker, hrunners⟩, hcalls⟩ a
    cases a with
    | worker => exact hworker
    | runner i =>
      by_cases hi : i < s.runners.length
      · exact hrunners _ ⟨i, hi, rfl⟩
      · simp only [step, stepRunner, List.getElem?_eq_none (Nat.not_lt.mp hi)]
    | call i =>
      by_cases hi : i < s.calls.length
      · exact hcalls _ ⟨i, hi, rfl⟩
      · simp only [step, stepCall, List.getElem?_eq_none (Nat.not_lt.mp hi)]
  · exact fun h => ⟨⟨h .worker, fun a _ => h a⟩, fun a _ => h a⟩

/-- Whoever is in a routine and makes no step waits for an answer. -/
theorem blocked_of_step (hc : Gentle c) (hs : s.Open)
    (calm : ∀ q rest, Doing c s a (.ask q rest) → q.Calm)
    (awake : ∀ (i : Nat) (t : RunnerTask D), a = .runner i → s.runners[i]? = some t →
      t.mayRun = true)
    {r : Routine D Unit} (hr : s.residual a = some r) (h : s.step c a = none) :
    ∃ q rest, r = .ask q rest ∧ s.perform c a q = none := by
  cases a with
  | worker =>
    simp only [residual, WorkerTask.residual, Option.map_eq_some_iff] at hr
    obtain ⟨r', hp, rfl⟩ := hr
    simp only [step, stepWorker, hp] at h
    cases r' with
    | done reply => cases h
    | ask q rest =>
      refine ⟨q, _, rfl, ?_⟩
      simp only [workerRoutine] at h
      split at h
      · next hq => exact hq
      · cases h
      · next hq =>
        have doing := doing_of_workerIn (c := c) (s := s) (Or.inl hp)
        obtain ⟨_, hpanic, -⟩ := answered_of_perform hc hs (calm q _ doing) hq
        cases hpanic
  | runner i =>
    simp only [residual, Option.bind_eq_some_iff, RunnerTask.residual, Option.map_eq_some_iff] at hr
    obtain ⟨t, ht, r', hp, rfl⟩ := hr
    have h := (goOn_of_blocked ht (awake i t rfl ht) h).2
    simp only [goOn, hp] at h
    cases r' with
    | done reply => cases h
    | ask q rest =>
      refine ⟨q, _, rfl, ?_⟩
      simp only [runnerRoutine] at h
      split at h
      · next hq => exact hq
      · cases h
      · cases h
  | call i =>
    simp only [residual, Option.bind_eq_some_iff] at hr
    obtain ⟨call, hi, hr⟩ := hr
    cases call with
    | ended result => cases hr
    | running r' =>
      obtain rfl := Option.some.inj hr
      simp only [step, stepCall, hi] at h
      cases r' with
      | done result => cases h
      | ask q rest =>
        refine ⟨q, _, rfl, ?_⟩
        split at h
        · next h' => cases h'
        · next h' =>
          cases h'
          split at h
          · next hq => exact hq
          · cases h
          · cases h
        · next hne => exact absurd rfl (hne _ _)

/-- In a settled system whose queue is empty, nobody is on the way to the queue. -/
theorem Traffic.not_onWay (hT : Traffic s) (hc : Gentle c) (hs : s.Open)
    (fresh : ∀ a r, Fresh c s a r → Orderly (fun _ => True) .away r) (settled : ∀ a, s.step c a = none)
    (awake : ∀ (i : Nat) (t : RunnerTask D), s.runners[i]? = some t → t.pending ≠ none →
      t.mayRun = true)
    (empty : s.channel.queue = []) : ¬ s.channel.OnWay a := by
  -- somebody who holds a slot is not blocked
  have hnone : s.channel.granted = [] := by
    by_contra hne
    obtain ⟨b, hb⟩ := List.exists_mem_of_ne_nil _ hne
    have hway : s.channel.OnWay b := List.mem_append_right _ hb
    obtain ⟨st, hst, hidle, hdoing⟩ := hT.staged b
    cases hr : s.residual b with
    | none =>
      rw [hidle hr] at hst
      exact hst hway
    | some r =>
      have hcalm := fun q rest (h : Doing c s b (.ask q rest)) => hT.calm (fresh b) h
      have hawake : ∀ i t, b = .runner i → s.runners[i]? = some t → t.mayRun = true := by
        intro i t hbi ht
        refine awake i t ht ?_
        intro hp
        rw [hbi, residual_runner ht, hp] at hr
        cases hr
      obtain ⟨q, rest, rfl, hq⟩ := blocked_of_step hc hs hcalm hawake hr (settled b)
      have hallows := (hdoing _ hr).1
      cases st with
      | away => exact hst hway
      | asked =>
        cases q with
        | awaitSlot =>
          cases hq.symm.trans (perform_of_performed (.granted hs.listening hb))
        | _ => exact False.elim hallows
      | granted =>
        cases q with
        | commit item => cases hq
        | _ => exact False.elim hallows
  intro ha
  have hwaiting : s.channel.waiting ≠ [] := by
    intro hw
    simp only [Bus.Channel.OnWay, hw, hnone, List.append_nil] at ha
    cases ha
  have hfull := hT.fair.full hwaiting
  have hpositive := hT.fair.positive
  simp only [Bus.Channel.free, empty, hnone, List.length_nil] at hfull
  omega

end System

end Reveille
