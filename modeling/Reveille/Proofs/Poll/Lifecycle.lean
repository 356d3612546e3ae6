import Mathlib.Logic.Relation
import Reveille.Proofs.Poll.Due
import Reveille.Proofs.Poll.Effect

/-!
# The life of a poll

`Change` lists the changes that a poll may undergo: it starts, votes come in, one round gives way to
the next, and it closes.  Nothing changes a closed poll.  However many threads work on a store, and
in whatever order their requests are answered, every step leaves a poll as it is or changes it in one
of these ways, at a time that its thread has read on the clock before (`Effect.change`).  So a poll that
was built by the constructors follows a path of changes from its scheduled state (`lifecycle`).
-/

namespace Reveille.Poll

/-- One change of the state of a poll with the parameters of `p`, at a time for which `Read` holds. -/
inductive Change (p : Poll) (Read : Instant → Prop) : State → State → Prop
  | start {t : Instant} (read : Read t) (reached : p.startsAt ≤ t) :
      Change p Read .scheduled (.fresh 1 t)
  | vote {round : UInt32} {since : Instant} {votes : Voters} {voter : String}
      (new : voter ∉ votes) :
      Change p Read (.opened round since votes) (.opened round since (votes.insert voter))
  | advance {round next : UInt32} {since t : Instant} {votes : Voters} (read : Read t)
      (more : round < p.maxRounds) (succ : next.toNat = round.toNat + 1)
      (ended : { p with state := .opened round since votes }.hasQuorum = true ∨
        since.nanos + p.roundDuration.nanos ≤ t.nanos)
      (later : since ≤ t) :
      Change p Read (.opened round since votes) (.fresh next t)
  | close {round : UInt32} {since t : Instant} {votes : Voters} (read : Read t)
      (least : p.minRounds ≤ round) (most : round ≤ p.maxRounds)
      (early : round < p.maxRounds → ∃ closing, p.closesAt = some closing ∧ closing ≤ t)
      (later : since ≤ t) :
      Change p Read (.opened round since votes) (.closed t round)

/-- A poll made by the constructors. -/
inductive Built : Poll → Prop
  | create (id : Id) (title : String) (startsAt : Instant) : Built (.create id title startsAt)
  | roundDuration {p : Poll} (h : Built p) (d : Duration) : Built (p.withRoundDuration d)
  | quorum {p : Poll} (h : Built p) (n : Nat) : Built (p.withQuorum n)
  | rounds {p : Poll} (h : Built p) (least greatest : UInt32) : Built (p.withRounds least greatest)
  | closesAt {p : Poll} (h : Built p) (t : Instant) : Built (p.withClosesAt t)

structure Bounded (p : Poll) : Prop where
  one_le : 1 ≤ p.minRounds
  le : p.minRounds ≤ p.maxRounds
  round_le : ∀ round ∈ p.state.round?, round ≤ p.maxRounds

theorem right_le_max (a b : UInt32) : b ≤ max a b := by
  show b ≤ if a ≤ b then b else a
  split
  · exact UInt32.le_refl b
  · next h => exact UInt32.le_of_lt (UInt32.not_le.mp h)

namespace Built

variable {p : Poll}

theorem scheduled (h : Built p) : p.state = .scheduled := by
  induction h with
  | create => rfl
  | roundDuration _ _ ih => exact ih
  | quorum _ _ ih => exact ih
  | rounds _ _ _ ih => exact ih
  | closesAt _ _ ih => exact ih

theorem bounded (h : Built p) : Bounded p := by
  refine ⟨?_, ?_, fun round hr => by rw [h.scheduled] at hr; cases hr⟩
  · induction h with
    | create => exact UInt32.le_refl 1
    | roundDuration _ _ ih => exact ih
    | quorum _ _ ih => exact ih
    | rounds _ least greatest _ => exact right_le_max _ _
    | closesAt _ _ ih => exact ih
  · induction h with
    | create => exact UInt32.le_refl 1
    | roundDuration _ _ ih => exact ih
    | quorum _ _ ih => exact ih
    | rounds _ least greatest _ => exact right_le_max _ _
    | closesAt _ _ ih => exact ih

end Built

namespace Change

variable {p : Poll} {Read Read' : Instant → Prop} {s s' : State}

/-- Changes only depend on the parameters. -/
theorem with_state {st : State} (h : Change p Read s s') : Change { p with state := st } Read s s' := by
  cases h with
  | start read reached => exact .start read reached
  | vote new => exact .vote new
  | advance read more succ ended later => exact .advance read more succ ended later
  | close read least most early later => exact .close read least most early later

theorem mono (h : Change p Read s s') (imp : ∀ t, Read t → Read' t) : Change p Read' s s' := by
  cases h with
  | start read reached => exact .start (imp _ read) reached
  | vote new => exact .vote new
  | advance read more succ ended later => exact .advance (imp _ read) more succ ended later
  | close read least most early later => exact .close (imp _ read) least most early later

theorem not_closed {time : Instant} {rounds : UInt32} : ¬ Change p Read (.closed time rounds) s :=
  fun h => by cases h

theorem of_move {d : Duty} {t : Instant} {m : Move} (hb : Bounded p) (read : Read t)
    (due : (d.due p t).isDue t = true) (move : d.move? p t = some m)
    (timely : ∀ u ∈ p.state.time?, u ≤ t) : Change p Read p.state m.next := by
  rcases d.move_cases due move with ⟨hst, hstart, hnext⟩ | ⟨round, since, votes, hst, hcases⟩
  · rw [hst, hnext]
    exact .start read hstart
  · have hround : round ≤ p.maxRounds := hb.round_le round (by rw [hst]; rfl)
    have hsince : since ≤ t := timely since (by rw [hst]; rfl)
    rcases hcases with ⟨hmore, hover, hnext⟩ | ⟨hreached | ⟨hlast, -⟩, hnext⟩
    · rw [hst, hnext]
      refine .advance read hmore (toNat_succ hmore) ?_ hsince
      rw [← hst]
      exact (roundOver_iff hst).mp hover
    · obtain ⟨hleast, closing, hclosing⟩ := closingReached_iff.mp hreached
      rw [hst, hnext]
      exact .close read hleast hround (fun _ => ⟨closing, hclosing⟩) hsince
    · rw [hst, hnext]
      refine .close read (UInt32.le_trans hb.le hlast) hround (fun hlt => ?_) hsince
      exact absurd hlast (UInt32.not_le.mpr hlt)

theorem bounded (hb : Bounded p) (h : Change p Read p.state s) : Bounded { p with state := s } := by
  refine ⟨hb.one_le, hb.le, ?_⟩
  generalize hs : p.state = st at h
  cases h with
  | start read reached =>
    rintro _ ⟨⟩
    exact UInt32.le_trans hb.one_le hb.le
  | vote new =>
    rintro _ ⟨⟩
    exact hb.round_le _ (by rw [hs]; rfl)
  | advance read more succ ended later =>
    rintro _ ⟨⟩
    rw [UInt32.le_iff_toNat_le, succ]
    exact UInt32.lt_iff_toNat_lt.mp more
  | close read least most early later => rintro _ ⟨⟩

end Change

namespace Pool

variable {P₀ P Q : Pool} {τ : List Label} {a : Label} {id : Id} {p : Poll} {i : Nat} {t : Instant}

/-! ### Readings of the clock -/

def Label.thread? : Label → Option Nat
  | .asked i _ => some i
  | _ => none

/-- A thread read the time in a run, when the clock showed it. -/
def ReadBy (P₀ : Pool) (τ : List Label) (i : Nat) (t : Instant) : Prop :=
  ∃ σ σ' P₁, τ = σ ++ .asked i ⟨.readTime, t⟩ :: σ' ∧ Run P₀ σ P₁ ∧ P₁.now = t

def Shown (P₀ : Pool) (τ : List Label) (t : Instant) : Prop := ∃ i, ReadBy P₀ τ i t

theorem ReadBy.concat (h : ReadBy P₀ τ i t) (a : Label) : ReadBy P₀ (τ ++ [a]) i t := by
  obtain ⟨σ, σ', P₁, rfl, run, shows⟩ := h
  exact ⟨σ, σ' ++ [a], P₁, by rw [List.append_assoc, List.cons_append], run, shows⟩

/-- What a thread remembers it was told in the run. -/
theorem Run.readBy (h : Run P₀ τ P) (threads : P₀.threads = []) {th : Thread}
    (thread : P.threads[i]? = some th) (past : ⟨.readTime, t⟩ ∈ th.past) : ReadBy P₀ τ i t := by
  induction h generalizing th with
  | refl =>
    rw [threads] at thread
    cases thread
  | @step τ P Q a before hs ih =>
    cases hs with
    | begin op =>
      rcases Nat.lt_or_ge i P.threads.length with hold | hnew
      · rw [List.getElem?_append_left hold] at thread
        exact (ih thread past).concat _
      · rw [List.getElem?_append_right hnew] at thread
        rw [List.mem_singleton.mp (List.mem_of_getElem? thread)] at past
        cases past
    | pass hle => exact (ih thread past).concat _
    | @ask j op earlier q rest reply s asked answers =>
      by_cases hij : j = i
      · subst hij
        have hlt := (List.getElem?_eq_some_iff.mp asked).1
        rw [List.getElem?_set_self hlt] at thread
        cases thread
        rcases List.mem_append.mp past with hpast | hnow
        · exact (ih asked hpast).concat _
        · cases List.mem_singleton.mp hnow
          exact ⟨τ, [], P, rfl, before, answers.1.symm⟩
      · rw [List.getElem?_set_ne hij] at thread
        exact (ih thread past).concat _

/-! ### The life of a poll -/

/-- A step changes a poll in one of the ways of a poll, at a time that its thread has read, or not at all. -/
theorem Effect.change (h : Effect id P a (Q.store.find? id)) (run : Run P₀ τ P)
    (threads : P₀.threads = []) (hp : P.store.find? id = some p) (hb : Bounded p) :
    ∃ s, Q.store.find? id = some { p with state := s } ∧
      (s = p.state ∨ Change p (fun t => ∃ i, a.thread? = some i ∧ ReadBy P₀ τ i t) p.state s) := by
  generalize Q.store.find? id = o at h
  cases h with
  | unchanged _ => exact ⟨p.state, hp, Or.inl rfl⟩
  | inserted free _ => rw [hp] at free; cases free
  | voted stored opened new =>
    obtain rfl := Option.some.inj (hp.symm.trans stored)
    exact ⟨_, rfl, Or.inr (by rw [opened]; exact .vote new)⟩
  | @moved i th d p' q t m stored thread past due move timely read =>
    obtain rfl := Option.some.inj (hp.symm.trans stored)
    have reading : ReadBy P₀ τ i t := run.readBy threads thread (by rw [past]; simp)
    exact ⟨_, rfl, Or.inr (.of_move hb ⟨i, rfl, reading⟩ due move timely)⟩

/-- The invariant of runs: a poll has come to its state by changes. -/
theorem Run.path (h : Run P₀ τ P) (threads : P₀.threads = [])
    (enters : EntersOnly Built P₀ τ id) :
    ∀ p, P.store.find? id = some p →
      Bounded p ∧ Relation.ReflTransGen (Change p (Shown P₀ τ)) .scheduled p.state := by
  have start {τ : List Label} {p : Poll} (hp : Built p) :
      Bounded p ∧ Relation.ReflTransGen (Change p (Shown P₀ τ)) .scheduled p.state :=
    ⟨hp.bounded, hp.scheduled ▸ .refl⟩
  induction h with
  | refl => exact fun p hp => start (enters p (Or.inl hp))
  | @step τ P Q a before h ih =>
    have hS := before.sound threads (enters.before.mono fun _ => Built.scheduled)
    intro q hq
    have heff := hS.effect h
    cases hp : P.store.find? id with
    | some p =>
      obtain ⟨hb, hpath⟩ := ih enters.before p hp
      obtain ⟨s, hs, hchange⟩ := heff.change before threads hp hb
      obtain rfl := Option.some.inj (hq.symm.trans hs)
      have later (t) : Shown P₀ τ t → Shown P₀ (τ ++ [a]) t := fun ⟨i, read⟩ => ⟨i, read.concat a⟩
      have hpath' : Relation.ReflTransGen (Change { p with state := s } (Shown P₀ (τ ++ [a]))) .scheduled
          p.state :=
        Relation.ReflTransGen.mono (fun _ _ h => (h.mono later).with_state) _ _ hpath
      rcases hchange with rfl | hchange
      · exact ⟨hb, hpath'⟩
      · refine ⟨hchange.bounded hb, hpath'.tail (hchange.mono fun t => ?_).with_state⟩
        rintro ⟨i, -, read⟩
        exact ⟨i, read.concat a⟩
    | none =>
      rw [hq] at heff
      generalize ho : some q = o at heff
      cases heff with
      | unchanged _ => rw [hp] at ho; cases ho
      | inserted free number =>
        cases ho
        exact start (enters.last rfl number)
      | voted stored _ _ => rw [hp] at stored; cases stored
      | moved stored _ _ _ _ _ _ => rw [hp] at stored; cases stored

theorem Run.closed_final (h : Run P₀ τ P) (threads : P₀.threads = []) (hS : Sound id P) {τ' : List Label}
    (later : Run P τ' Q) (hp : P.store.find? id = some p) (hb : Bounded p) {time : Instant} {rounds : UInt32}
    (closed : p.state = .closed time rounds) : Q.store.find? id = some p := by
  induction later with
  | refl => exact hp
  | step before hs ih =>
    have hQ := (before.sound_of_stored hS hp).1
    obtain ⟨s, hs, rfl | hchange⟩ := (hQ.effect hs).change (h.trans before) threads ih hb
    · exact hs
    · rw [closed] at hchange
      exact absurd hchange Change.not_closed

/-- Polls live as they should: whatever the threads of a pool do and in whatever order they are
answered, a poll that was built by the constructors has come from its scheduled state by changes, at times
that were read on the clock.  The next step leaves it as it is or changes it once more, at a time that the
thread has read which makes the step.  And it closes within its numbers of rounds, before the last of them
only at its closing time, and for good. -/
theorem lifecycle (h : Run P₀ τ P) (threads : P₀.threads = []) (enters : EntersOnly Built P₀ τ id)
    (hp : P.store.find? id = some p) :
    Relation.ReflTransGen (Change p (Shown P₀ τ)) .scheduled p.state ∧
      (∀ {a : Label} {Q : Pool}, Step P a Q → ∃ s, Q.store.find? id = some { p with state := s } ∧
        (s = p.state ∨ Change p (fun t => ∃ i, a.thread? = some i ∧ ReadBy P₀ τ i t) p.state s)) ∧
      ∀ {time : Instant} {rounds : UInt32}, p.state = .closed time rounds →
        p.minRounds ≤ rounds ∧ rounds ≤ p.maxRounds ∧
          (rounds < p.maxRounds → ∃ closing, p.closesAt = some closing ∧ closing ≤ time) ∧
          ∀ {τ' : List Label} {Q : Pool}, Run P τ' Q → Q.store.find? id = some p := by
  obtain ⟨hb, hpath⟩ := h.path threads enters p hp
  have hS := h.sound threads (enters.mono fun _ => Built.scheduled)
  refine ⟨hpath, fun hstep => (hS.effect hstep).change h threads hp hb, fun hst => ?_⟩
  have final {τ' : List Label} {Q : Pool} (later : Run P τ' Q) := h.closed_final threads hS later hp hb hst
  rw [hst] at hpath
  rcases hpath.cases_tail with he | ⟨s, -, hlast⟩
  · cases he
  · cases hlast with
    | close read least most early later => exact ⟨least, most, early, final⟩

/-- `lunch` on its way to the second round. -/
theorem lifecycle_lunch :
    Relation.ReflTransGen (Change { lunch with state := .fresh 2 lunch.startsAt }
      (Shown morning (morning.play (firstRound ++ [.serve 2])).1)) .scheduled
      (.fresh 2 lunch.startsAt) := by
  have enters : EntersOnly Built morning (morning.play (firstRound ++ [.serve 2])).1 ⟨1⟩ := by
    rintro p (hp | ⟨hp, -⟩)
    · cases hp
      exact ((Built.create _ _ _).quorum 1).rounds 1 2
    · cases hp
  have hp : (morning.play (firstRound ++ [.serve 2])).2.store.find? ⟨1⟩ =
      some { lunch with state := .fresh 2 lunch.startsAt } := by rfl
  exact (lifecycle (run_play _ _) rfl enters hp).1

end Pool

end Reveille.Poll
