import Reveille.Poll.Duty
import Reveille.Proofs.Poll.Store
import Reveille.Proofs.Program.Feed

/-!
# Threads over one store

Any number of threads work on one store: passes of the three services and callers that create polls
and cast votes.  Each request to the store is a step of its own, and between two requests of one
thread the others take as many steps as they like.  The clock that all of them read never goes back.
What becomes of an event that a thread publishes is left open.

`Step` is one step of the pool and says in its label what was asked and answered, and `Run` is any
number of steps.  `play` computes the run of a list of turns in which every event is published.
-/

namespace Reveille.Poll

inductive Operation where
  | scan (d : Duty)
  | check (d : Duty) (id : Id)
  | process (d : Duty) (id : Id)
  | create (p : Poll)
  | castVote (id : Id) (voter : String)
  /-- A vote that is not announced. -/
  | recordVote (id : Id) (voter : String)

namespace Operation

abbrev Result : Operation → Type
  | .scan _ => List (Reported Id)
  | .check _ _ => Except ServiceError DueTime
  | .process _ _ => Except ServiceError Processed
  | .create _ => Except PollError Unit
  | .castVote _ _ => Except PollError UInt32
  | .recordVote _ _ => Except StoreError UInt32

def procedure : (op : Operation) → Procedure op.Result
  | .scan d => d.items.collect
  | .check d id => d.check id
  | .process d id => d.process id
  | .create p => createPoll p
  | .castVote id voter => Poll.castVote id voter
  | .recordVote id voter => Procedure.fromStore (.recordVote id voter)

end Operation

structure Thread where
  op : Operation
  past : List (Exchange requests)
  rest : Procedure op.Result

namespace Thread

def start (op : Operation) : Thread := ⟨op, [], op.procedure⟩

end Thread

structure Pool where
  store : Store
  now : Instant
  threads : List Thread

/-- How a request is answered at a reading of the clock. -/
def Answers (now : Instant) : (q : Request) → Store → q.Reply → Store → Prop
  | .store q, s, reply, s' => s.answer q = (reply, s')
  | .readTime, s, (reply : Instant), s' => reply = now ∧ s' = s
  | .publish _, s, _, s' => s' = s
  | .log _, s, _, s' => s' = s

namespace Pool

inductive Label where
  | began (op : Operation)
  /-- The clock moved on. -/
  | passed (t : Instant)
  /-- A thread was answered. -/
  | asked (thread : Nat) (x : Exchange requests)

inductive Step : Pool → Label → Pool → Prop
  | begin {P : Pool} (op : Operation) :
      Step P (.began op) { P with threads := P.threads ++ [.start op] }
  | pass {P : Pool} {t : Instant} (h : P.now ≤ t) : Step P (.passed t) { P with now := t }
  | ask {P : Pool} {i : Nat} {op : Operation} {past : List (Exchange requests)} {q : Request}
      {rest : q.Reply → Procedure op.Result} {reply : q.Reply} {s : Store}
      (thread : P.threads[i]? = some ⟨op, past, .ask q rest⟩)
      (answers : Answers P.now q P.store reply s) :
      Step P (.asked i ⟨q, reply⟩)
        { P with store := s, threads := P.threads.set i ⟨op, past ++ [⟨q, reply⟩], rest reply⟩ }

/-- Steps one after another; the labels stand in the order of the steps. -/
inductive Run (start : Pool) : List Label → Pool → Prop
  | refl : Run start [] start
  | step {τ : List Label} {P Q : Pool} {a : Label} (before : Run start τ P) (h : Step P a Q) :
      Run start (τ ++ [a]) Q

theorem Run.trans {P₀ P Q : Pool} {τ τ' : List Label} (h : Run P₀ τ P) (h' : Run P τ' Q) :
    Run P₀ (τ ++ τ') Q := by
  induction h' with
  | refl => rwa [List.append_nil]
  | step before hs ih =>
    rw [← List.append_assoc]
    exact ih.step hs

def Label.inserted? : Label → Option Poll
  | .asked _ ⟨.store (.insert p), (.ok () : Except _ _)⟩ => some p
  | _ => none

/-- Every poll that is stored under a number at the start, or inserted under it later, is good. -/
def EntersOnly (good : Poll → Prop) (start : Pool) (τ : List Label) (id : Id) : Prop :=
  ∀ p, start.store.find? id = some p ∨ p ∈ τ.filterMap Label.inserted? ∧ p.id = id → good p

namespace EntersOnly

variable {good : Poll → Prop} {start : Pool} {τ : List Label} {a : Label} {id : Id}

theorem before (h : EntersOnly good start (τ ++ [a]) id) : EntersOnly good start τ id := by
  rintro p (hp | ⟨hp, hid⟩)
  · exact h p (Or.inl hp)
  · exact h p (Or.inr ⟨List.filterMap_append ▸ List.mem_append_left _ hp, hid⟩)

theorem last (h : EntersOnly good start (τ ++ [a]) id) {p : Poll} (ha : a.inserted? = some p)
    (hid : p.id = id) : good p :=
  h p (Or.inr ⟨List.mem_filterMap.mpr ⟨a, by simp, ha⟩, hid⟩)

theorem mono {better : Poll → Prop} (h : EntersOnly good start τ id)
    (imp : ∀ p, good p → better p) : EntersOnly better start τ id := fun p hp => imp p (h p hp)

end EntersOnly

/-! ### Computed runs -/

/-- The answer to a request, where publishing works. -/
def reply (P : Pool) : (q : Request) → q.Reply × Store
  | .store q => P.store.answer q
  | .readTime => (P.now, P.store)
  | .publish _ => (.ok (), P.store)
  | .log _ => ((), P.store)

theorem answers_reply (P : Pool) (q : Request) :
    Answers P.now q P.store (P.reply q).1 (P.reply q).2 := by
  cases q with
  | store q => rfl
  | readTime => exact ⟨rfl, rfl⟩
  | publish e => rfl
  | log line => rfl

inductive Turn where
  | begin (op : Operation)
  | serve (i : Nat)

/-- Takes turns; the turn of a thread that is over is left out. -/
def play (P : Pool) : List Turn → List Label × Pool
  | [] => ([], P)
  | .begin op :: turns =>
    let next := play { P with threads := P.threads ++ [.start op] } turns
    (.began op :: next.1, next.2)
  | .serve i :: turns =>
    match P.threads[i]? with
    | some ⟨op, past, .ask q rest⟩ =>
      let x := P.reply q
      let next := play { P with
        store := x.2
        threads := P.threads.set i ⟨op, past ++ [⟨q, x.1⟩], rest x.1⟩ } turns
      (.asked i ⟨q, x.1⟩ :: next.1, next.2)
    | _ => play P turns

theorem Run.play {start P : Pool} {τ : List Label} (h : Run start τ P) (turns : List Turn) :
    Run start (τ ++ (P.play turns).1) (P.play turns).2 := by
  induction turns generalizing τ P with
  | nil =>
    rw [Pool.play, List.append_nil]
    exact h
  | cons turn turns ih =>
    cases turn with
    | begin op =>
      rw [Pool.play, List.append_cons]
      exact ih (h.step (.begin op))
    | serve i =>
      unfold Pool.play
      split
      · next op past q rest thread =>
        rw [List.append_cons]
        exact ih (h.step (.ask thread (P.answers_reply q)))
      · exact ih h

theorem run_play (P : Pool) (turns : List Turn) : Run P (P.play turns).1 (P.play turns).2 :=
  Run.refl.play turns

/-- A poll of two rounds that one vote brings to an end, and that starts at once. -/
def lunch : Poll :=
  ((Poll.create ⟨1⟩ "lunch" .epoch).withQuorum 1).withRounds 1 2

def morning : Pool := ⟨⟨[lunch], List.pairwise_singleton _ _⟩, lunch.startsAt, []⟩

def firstRound : List Turn :=
  [.begin (.process .start ⟨1⟩), .serve 0, .serve 0, .serve 0, .begin (.castVote ⟨1⟩ "ann"),
    .serve 1, .begin (.process .advance ⟨1⟩), .serve 2, .serve 2]

end Pool

end Reveille.Poll
