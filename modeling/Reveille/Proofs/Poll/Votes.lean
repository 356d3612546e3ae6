import Reveille.Proofs.Poll.Due
import Reveille.Proofs.Poll.Effect

/-!
# Votes are counted once

`accepted` lists the voters whose vote for a round was answered with that round.  While a round is
open its votes are the accepted ones (`Tally`, an invariant of runs), nothing is accepted for a round
before it opens, and nothing after it is over (`Run.accepted_eq_nil`).  So the state that a service
replaces, and on which it decided, has exactly the votes that were ever accepted for its round
(`votes_counted`).
-/

namespace Reveille.Poll

namespace Voters

@[simp] theorem not_mem_empty {name : String} : name ∉ empty := List.not_mem_nil

@[simp] theorem mem_insert {v : Voters} {name voter : String} :
    name ∈ v.insert voter ↔ name = voter ∨ name ∈ v := by
  by_cases h : voter ∈ v.names
  · rw [insert, dif_pos h]
    constructor
    · exact Or.inr
    · rintro (rfl | hn)
      · exact h
      · exact hn
  · rw [insert, dif_neg h]
    exact mem_insertOrdered

end Voters

namespace State

def IsBefore (round : UInt32) : State → Prop
  | .scheduled => True
  | .opened present _ _ => present < round
  | .closed _ _ => False

def IsAfter (round : UInt32) : State → Prop
  | .scheduled => False
  | .opened present _ _ => round < present
  | .closed _ _ => True

end State

section
variable {d : Duty} {p : Poll} {t : Instant} {m : Move} {round : UInt32}

theorem lt_succ {r s : UInt32} (h : r < s) : r < r + 1 := by
  rw [UInt32.lt_iff_toNat_lt, toNat_succ h]
  exact Nat.lt_succ_self _

/-- A move opens a round that had not opened before, and without votes. -/
theorem opens_of_move {since : Instant} {votes : Voters} (due : (d.due p t).isDue t = true)
    (move : d.move? p t = some m) (hnext : m.next = .opened round since votes) :
    votes = .empty ∧ p.state.IsBefore round := by
  rcases d.move_cases due move with ⟨hst, -, hm⟩ | ⟨r, s, v, hst, ⟨hmore, -, hm⟩ | ⟨-, hm⟩⟩
  · cases hm.symm.trans hnext
    exact ⟨rfl, hst ▸ trivial⟩
  · cases hm.symm.trans hnext
    exact ⟨rfl, hst ▸ lt_succ hmore⟩
  · cases hm.symm.trans hnext

theorem isBefore_of_move (due : (d.due p t).isDue t = true) (move : d.move? p t = some m)
    (h : m.next.IsBefore round) : p.state.IsBefore round := by
  rcases d.move_cases due move with ⟨hst, -, -⟩ | ⟨r, s, v, hst, ⟨hmore, -, hm⟩ | ⟨-, hm⟩⟩
  · exact hst ▸ trivial
  · rw [hm] at h
    exact hst ▸ UInt32.lt_trans (lt_succ hmore) h
  · rw [hm] at h
    exact False.elim h

/-- A move ends the present round, and no round that was over opens again. -/
theorem isAfter_of_move (due : (d.due p t).isDue t = true) (move : d.move? p t = some m)
    (h : round ∈ p.state.round? ∨ p.state.IsAfter round) : m.next.IsAfter round := by
  rcases d.move_cases due move with ⟨hst, -, -⟩ | ⟨r, s, v, hst, ⟨hmore, -, hm⟩ | ⟨-, hm⟩⟩
  · rw [hst] at h
    rcases h with ⟨⟨⟩⟩ | h
    exact False.elim h
  · rw [hst] at h
    rw [hm]
    rcases h with ⟨⟨⟩⟩ | h
    · exact lt_succ hmore
    · exact UInt32.lt_trans h (lt_succ hmore)
  · exact hm ▸ trivial

end

namespace Pool

def Label.accepted? (id : Id) (round : UInt32) : Label → Option String
  | .asked _ ⟨.store (.recordVote poll voter), (.ok r : Except _ _)⟩ =>
    if poll = id ∧ r = round then some voter else none
  | _ => none

/-- The voters whose votes were accepted for a round, in the order of the answers. -/
def accepted (id : Id) (round : UInt32) (τ : List Label) : List String :=
  τ.filterMap (·.accepted? id round)

variable {id : Id} {round : UInt32} {P₀ P Q : Pool} {a : Label} {τ : List Label}

theorem accepted_append {τ' : List Label} :
    accepted id round (τ ++ τ') = accepted id round τ ++ accepted id round τ' :=
  List.filterMap_append

theorem accepted_singleton : accepted id round [a] = (a.accepted? id round).toList := by
  unfold accepted
  cases h : a.accepted? id round <;> simp [h]

theorem accepted_quiet (h : a.accepted? id round = none) :
    accepted id round (τ ++ [a]) = accepted id round τ := by
  rw [accepted_append, accepted_singleton, h, Option.toList_none, List.append_nil]

theorem Label.accepted?_eq_none (h : a.changed? ≠ some id) : a.accepted? id round = none := by
  unfold accepted?
  split
  · next poll voter r =>
    rw [if_neg]
    rintro ⟨rfl, -⟩
    exact h rfl
  · rfl

structure Tally (id : Id) (τ : List Label) (o : Option Poll) : Prop where
  nodup : ∀ round, (accepted id round τ).Nodup
  votes : ∀ p ∈ o, ∀ {round : UInt32} {since : Instant} {votes : Voters},
    p.state = .opened round since votes → ∀ name, name ∈ votes ↔ name ∈ accepted id round τ
  before : ∀ round, (∀ p ∈ o, p.state.IsBefore round) → accepted id round τ = []

theorem Label.accepted?_voted {i : Nat} {voter : String} {r : UInt32} :
    (asked i ⟨.store (.recordVote id voter), .ok r⟩).accepted? id round =
      if r = round then some voter else none := by simp [accepted?]

namespace Tally

variable {o : Option Poll} {p : Poll}

theorem quiet (hT : Tally id τ o) (h : ∀ round, a.accepted? id round = none) :
    Tally id (τ ++ [a]) o := by
  have hacc (round : UInt32) : accepted id round (τ ++ [a]) = accepted id round τ :=
    accepted_quiet (h round)
  constructor
  · exact fun r => hacc r ▸ hT.nodup r
  · exact fun p hp _ _ _ hst name => hacc _ ▸ hT.votes p hp hst name
  · exact fun r hr => (hacc r).trans (hT.before r hr)

theorem inserted (hT : Tally id τ none) (hp : p.state = .scheduled) : Tally id τ (some p) where
  nodup := hT.nodup
  votes := by
    rintro _ ⟨⟩ _ _ _ hst
    rw [hp] at hst
    cases hst
  before r _ := hT.before r fun _ hq => by cases hq

/-- A new state without votes, in a round that had not opened before. -/
theorem moved (hT : Tally id τ (some p)) {s : State}
    (opens : ∀ {round : UInt32} {since : Instant} {votes : Voters},
      s = .opened round since votes → votes = .empty ∧ p.state.IsBefore round)
    (before : ∀ round, s.IsBefore round → p.state.IsBefore round) :
    Tally id τ (some { p with state := s }) where
  nodup := hT.nodup
  votes := by
    rintro _ ⟨⟩ round since votes hst name
    obtain ⟨rfl, hbefore⟩ := opens hst
    rw [hT.before round (by rintro _ ⟨⟩; exact hbefore)]
    simp
  before r hr := hT.before r (by rintro _ ⟨⟩; exact before r (hr _ rfl))

theorem voted {i : Nat} {since : Instant} {votes : Voters} {voter : String}
    (hT : Tally id τ (some p)) (opened : p.state = .opened round since votes)
    (new : voter ∉ votes) :
    Tally id (τ ++ [.asked i ⟨.store (.recordVote id voter), .ok round⟩])
      (some { p with state := .opened round since (votes.insert voter) }) := by
  have hacc (r : UInt32) :
      accepted id r (τ ++ [.asked i ⟨.store (.recordVote id voter), .ok round⟩]) =
        accepted id r τ ++ if round = r then [voter] else [] := by
    rw [accepted_append, accepted_singleton, Label.accepted?_voted]
    split <;> rfl
  have hvotes := hT.votes p rfl opened
  constructor
  · intro r
    rw [hacc]
    split
    · next hr =>
      subst hr
      refine List.nodup_append.mpr ⟨hT.nodup round, List.pairwise_singleton _ _, ?_⟩
      rintro name hname _ hv rfl
      rw [List.mem_singleton.mp hv] at hname
      exact new ((hvotes voter).mpr hname)
    · rw [List.append_nil]
      exact hT.nodup r
  · rintro _ ⟨⟩ r s v hst name
    cases hst
    rw [hacc, if_pos rfl, Voters.mem_insert, List.mem_append, List.mem_singleton, hvotes, or_comm]
  · intro r hr
    have hlt : round < r := hr _ rfl
    rw [hacc, if_neg (UInt32.ne_of_lt hlt), List.append_nil]
    refine hT.before r ?_
    rintro _ ⟨⟩
    rw [opened]
    exact hlt

theorem step (hT : Tally id τ (P.store.find? id)) (h : Effect id P a o)
    (enters : ∀ p, a.inserted? = some p → p.id = id → p.state = .scheduled) :
    Tally id (τ ++ [a]) o := by
  cases h with
  | unchanged hc => exact hT.quiet fun _ => Label.accepted?_eq_none hc
  | inserted free number =>
    rw [free] at hT
    exact (hT.quiet fun _ => rfl).inserted (enters _ rfl number)
  | voted stored opened new =>
    rw [stored] at hT
    exact hT.voted opened new
  | @moved i th d p q t m stored thread past due move timely read =>
    rw [stored] at hT
    exact (hT.quiet fun _ => rfl).moved (fun hnext => opens_of_move due move hnext)
      fun _ => isBefore_of_move due move

end Tally

theorem Run.tally (h : Run P₀ τ P) (threads : P₀.threads = [])
    (enters : EntersOnly (·.state = .scheduled) P₀ τ id) : Tally id τ (P.store.find? id) := by
  induction h with
  | refl =>
    refine ⟨fun _ => List.Pairwise.nil, fun p hp _ _ _ hst => ?_, fun _ _ => rfl⟩
    rw [enters p (Or.inl hp)] at hst
    cases hst
  | step before h ih =>
    exact (ih enters.before).step ((before.sound threads enters.before).effect h) fun _ =>
      enters.last

/-- No vote is accepted for a round that is over. -/
theorem Run.accepted_eq_nil {p : Poll} (h : Run P τ Q) (hS : Sound id P)
    (hp : P.store.find? id = some p) (hafter : p.state.IsAfter round) :
    accepted id round τ = [] ∧ ∃ q, Q.store.find? id = some q ∧ q.state.IsAfter round := by
  induction h with
  | refl => exact ⟨rfl, p, hp, hafter⟩
  | @step τ R Q a before h ih =>
    obtain ⟨hnil, q, hq, hqafter⟩ := ih
    have heff := (before.sound_of_stored hS hp).1.effect h
    generalize Q.store.find? id = o at heff
    rw [accepted_append, hnil, accepted_singleton, List.nil_append]
    cases heff with
    | unchanged hc => exact ⟨by rw [Label.accepted?_eq_none hc]; rfl, q, hq, hqafter⟩
    | inserted free _ => rw [hq] at free; cases free
    | voted stored opened new =>
      obtain rfl := Option.some.inj (hq.symm.trans stored)
      rw [opened] at hqafter
      have hlt : round < _ := hqafter
      refine ⟨?_, _, rfl, hqafter⟩
      rw [Label.accepted?_voted, if_neg (Ne.symm (UInt32.ne_of_lt hlt))]
      rfl
    | moved stored thread past due move timely read =>
      obtain rfl := Option.some.inj (hq.symm.trans stored)
      exact ⟨rfl, _, rfl, isAfter_of_move due move (Or.inr hqafter)⟩

/-- No vote is lost, counted twice, or counted in the wrong round.  Every voter is accepted at most
once in a round, and the votes of an open round are the accepted ones.  When a thread replaces the
state of a poll, it had loaded the poll in that very state and found it due; a round that it opens
has no votes; and the votes of the round that it ends are all that were ever accepted for it, also
by the end of any longer run. -/
theorem votes_counted (h : Run P₀ τ P) (threads : P₀.threads = [])
    (enters : EntersOnly (·.state = .scheduled) P₀ τ id) :
    (∀ round, (accepted id round τ).Nodup) ∧
      (∀ {p : Poll} {round : UInt32} {since : Instant} {votes : Voters},
        P.store.find? id = some p → p.state = .opened round since votes →
          ∀ name, name ∈ votes ↔ name ∈ accepted id round τ) ∧
      ∀ {i : Nat} {expected next : State} {q : Poll} {Q : Pool},
        Step P (.asked i ⟨.store (.update id expected next), .ok q⟩) Q →
          (∃ (th : Thread) (d : Duty) (p : Poll) (t : Instant) (m : Move), P.threads[i]? = some th ∧
            th.past = [⟨.store (.get id), .ok p⟩, ⟨.readTime, t⟩] ∧
            P.store.find? id = some p ∧ p.state = expected ∧
            (d.due p t).isDue t = true ∧ d.move? p t = some m ∧ m.next = next) ∧
          (∀ {round : UInt32} {since : Instant} {votes : Voters},
            next = .opened round since votes → votes = .empty) ∧
          ∀ {round : UInt32} {since : Instant} {votes : Voters} {τ' : List Label} {R : Pool},
            expected = .opened round since votes → Run Q τ' R → ∀ name, name ∈ votes ↔
              name ∈ accepted id round
                (τ ++ .asked i ⟨.store (.update id expected next), .ok q⟩ :: τ') := by
  have hS := h.sound threads enters
  have hT := h.tally threads enters
  refine ⟨hT.nodup, fun hp hst => hT.votes _ hp hst, fun {i expected next q Q} hstep => ?_⟩
  have heff := hS.effect hstep
  have hQ (hp : (P.store.find? id).isSome) : Sound id Q := hS.step hstep fun hnone => by
    rw [hnone] at hp
    cases hp
  generalize ho : Q.store.find? id = o at heff
  cases heff with
  | unchanged hc => exact absurd rfl hc
  | @moved _ th d p _ t m stored thread past due move timely read =>
    refine ⟨⟨th, d, p, t, m, thread, past, stored, rfl, due, move, rfl⟩,
      fun hnext => (opens_of_move due move hnext).1, fun {round since votes τ' R} hst hrun name => ?_⟩
    have hround : round ∈ p.state.round? := by rw [hst]; rfl
    have hafter := isAfter_of_move due move (Or.inl hround)
    have hnil := (hrun.accepted_eq_nil (hQ (by rw [stored]; rfl)) ho hafter).1
    rw [hT.votes p stored hst, List.append_cons, accepted_append, accepted_quiet rfl, hnil,
      List.append_nil]

/-- The vote of the first round of `lunch`, when the round gives way to the second. -/
theorem votes_counted_lunch :
    accepted ⟨1⟩ 1 (morning.play firstRound).1 = ["ann"] ∧
      ∃ a Q, Step (morning.play firstRound).2 a Q ∧ ∀ name, name ∈ Voters.ofList ["ann"] ↔
        name ∈ accepted ⟨1⟩ 1 ((morning.play firstRound).1 ++ [a]) := by
  have enters : EntersOnly (·.state = .scheduled) morning (morning.play firstRound).1 ⟨1⟩ := by
    rintro p (hp | ⟨hp, -⟩)
    · cases hp
      rfl
    · cases hp
  have hstep : Step (morning.play firstRound).2
      (.asked 2 ⟨.store (.update ⟨1⟩ (.opened 1 lunch.startsAt (.ofList ["ann"]))
        (.fresh 2 lunch.startsAt)), .ok { lunch with state := .fresh 2 lunch.startsAt }⟩)
      _ := .ask rfl rfl
  exact ⟨rfl, _, _, hstep,
    ((votes_counted (run_play _ _) rfl enters).2.2 hstep).2.2 rfl .refl⟩

end Pool

end Reveille.Poll
