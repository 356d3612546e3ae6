import Reveille.Proofs.Program.Leads
import Reveille.Proofs.System.Closing
import Reveille.Proofs.System.Course

/-!
# The operations of a bus

What a send, an attempt to send, a registration and a close are told, and what they come back with
(`Sending`, `Closing`).  An operation that comes back with success has committed its item, once; one
that is turned away has committed nothing and was told something that nobody is told before closing
has begun.
-/

namespace Reveille

open Bus
open Program (Path)

variable {E K X : Type} {Q : Signature}

inductive Operation (E K : Type) where
  | send (e : E)
  | trySend (e : E)
  | register (k : K)
  | close
  deriving DecidableEq

namespace Operation

def activity : Operation E K → Activity (busDomain E K Q X) (Except BusError Unit)
  | .send e => Activity.send e
  | .trySend e => Activity.perform (D := busDomain E K Q X) (.trySend e)
  | .register k => Activity.register k
  | .close => Activity.closeBus

def routine : Operation E K → Routine (busDomain E K Q X) (Except BusError Unit)
  | .send e => Routine.enqueue (.event e)
  | .trySend e => Routine.query (D := busDomain E K Q X) (.trySend e)
  | .register k => Routine.enqueue (.register (.sink k))
  | .close => Routine.close

theorem routine_activity (op : Operation E K) : (op.activity (Q := Q) (X := X)).routine = op.routine := by
  have hperform (e : Effect (busDomain E K Q X)) : (Activity.perform e).routine = e.routine :=
    Program.interpret_request (S := (busDomain E K Q X).effects) Effect.routine e
  cases op with
  | send e => exact hperform (.send e)
  | trySend e => exact hperform (.trySend e)
  | register k => exact hperform (.register k)
  | close => exact hperform .closeBus

def item? : Operation E K → Option (Command (Receiver (busDomain E K Q X)) E)
  | .send e | .trySend e => some (.event e)
  | .register k => some (.register (.sink k))
  | .close => none

def isPatient : Operation E K → Bool
  | .send _ | .register _ => true
  | .trySend _ | .close => false

end Operation

namespace System

variable {D : Domain}

def Request.Offhand : Request D → Prop
  | .enter | .requestSlot | .commit _ | .trySend _ | .beginClose | .log _ => True
  | _ => False

theorem perform_of_offhand {c : Cast D} {s : System D} {a : Actor} {q : Request D} (h : q.Offhand) :
    ∃ reply s', s.perform c a q = some (.reply reply, s') := by
  cases q with
  | enter =>
    simp only [perform]
    split <;> exact ⟨_, _, rfl⟩
  | trySend e =>
    simp only [perform]
    split <;> exact ⟨_, _, rfl⟩
  | requestSlot => exact ⟨_, _, rfl⟩
  | commit item => exact ⟨_, _, rfl⟩
  | beginClose => exact ⟨_, _, rfl⟩
  | log line => exact ⟨_, _, rfl⟩
  | _ => exact False.elim h

theorem Request.Offhand.not_panics {q : Request D} (h : q.Offhand) : ¬ q.Panics := by
  cases q <;> first | exact id | exact False.elim h

/-- What an operation with an item was told, and what is left of it. -/
inductive Sending (op : Operation D.Event D.Sink) (item : Command (Receiver D) D.Event) :
    List (Exchange D.requests) → Routine D (Except BusError Unit) → Prop
  | underway {xs : List (Exchange D.requests)} {q : Request D}
      {rest : q.Reply → Routine D (Except BusError Unit)} (asks : q.Offhand ∨ q = .awaitSlot)
      (nothing : xs.filterMap committed? = []) : Sending op item xs (.ask q rest)
  | sent {xs : List (Exchange D.requests)} (once : xs.filterMap committed? = [item]) :
      Sending op item xs (.done (.ok ()))
  | refused {xs : List (Exchange D.requests)} (nothing : xs.filterMap committed? = [])
      (late : ∃ x ∈ xs, timely false x = false) : Sending op item xs (.done (.error .closed))
  | full {e : D.Event} (impatient : op = .trySend e) :
      Sending op item [⟨.trySend e, .error .full⟩] (.done (.error .full))

/-- What a close was told, and what is left of it. -/
inductive Closing : List (Exchange D.requests) → Routine D (Except BusError Unit) → Prop
  | asking {rest : Bool → Routine D (Except BusError Unit)} : Closing [] (.ask .beginClose rest)
  | late : Closing [⟨.beginClose, false⟩] (.done (.error .alreadyClosed))
  | waiting {xs : List (Exchange D.requests)} {q : Request D}
      {rest : q.Reply → Routine D (Except BusError Unit)}
      (asks : (∃ line, q = .log line) ∨ q = .awaitWorker) (nothing : xs.filterMap committed? = []) :
      Closing (⟨.beginClose, true⟩ :: xs) (.ask q rest)
  | finished {xs : List (Exchange D.requests)} (reported : xs.any reportsEnd = true)
      (nothing : xs.filterMap committed? = []) : Closing (⟨.beginClose, true⟩ :: xs) (.done (.ok ()))

variable {D : Domain} {op : Operation D.Event D.Sink} {item : Command (Receiver D) D.Event}
  {xs : List (Exchange D.requests)} {r : Routine D (Except BusError Unit)}

theorem sending_enqueue (h : Path (Routine.enqueue item) xs r) : Sending op item xs r := by
  obtain ⟨rfl, rfl⟩ | ⟨letIn, xs₁, rfl, h₁⟩ := Path.of_ask h
  · exact .underway (Or.inl trivial) rfl
  cases (letIn : Bool) with
  | false =>
    obtain ⟨rfl, rfl⟩ := Path.of_done h₁
    exact .refused rfl ⟨_, List.mem_cons_self, rfl⟩
  | true =>
    obtain ⟨rfl, rfl⟩ | ⟨_, xs₂, rfl, h₂⟩ := Path.of_ask h₁
    · exact .underway (Or.inl trivial) rfl
    obtain ⟨rfl, rfl⟩ | ⟨held, xs₃, rfl, h₃⟩ := Path.of_ask h₂
    · exact .underway (Or.inr rfl) rfl
    cases (held : Bool) with
    | false =>
      obtain ⟨rfl, rfl⟩ := Path.of_done h₃
      exact .refused rfl ⟨⟨.awaitSlot, false⟩, by simp, rfl⟩
    | true =>
      obtain ⟨rfl, rfl⟩ | ⟨kept, xs₄, rfl, h₄⟩ := Path.of_ask h₃
      · exact .underway (Or.inl trivial) rfl
      cases (kept : Bool) with
      | false =>
        obtain ⟨rfl, rfl⟩ := Path.of_done h₄
        exact .refused rfl ⟨⟨.commit item, false⟩, by simp, rfl⟩
      | true =>
        obtain ⟨rfl, rfl⟩ := Path.of_done h₄
        exact .sent rfl

theorem sending_trySend {e : D.Event} (h : Path (Routine.query (.trySend e)) xs r)
    (known : ∀ x ∈ xs, ∃ closed, timely closed x = true) : Sending (.trySend e) (.event e) xs r := by
  obtain ⟨rfl, rfl⟩ | ⟨reply, xs₁, rfl, h₁⟩ := Path.of_ask h
  · exact .underway (Or.inl trivial) rfl
  obtain ⟨rfl, rfl⟩ := Path.of_done h₁
  obtain ⟨closed, hknown⟩ := known _ List.mem_cons_self
  match (reply : Except BusError Unit) with
  | .ok () => exact .sent rfl
  | .error .full => exact .full rfl
  | .error .closed => exact .refused rfl ⟨_, List.mem_cons_self, rfl⟩
  | .error .alreadyClosed => cases hknown
  | .error .notInitialized => cases hknown

theorem closing_close (h : Path (Routine.close (D := D)) xs r) : Closing xs r := by
  obtain ⟨rfl, rfl⟩ | ⟨first, xs₁, rfl, h₁⟩ := Path.of_ask h
  · exact .asking
  cases (first : Bool) with
  | false =>
    obtain ⟨rfl, rfl⟩ := Path.of_done h₁
    exact .late
  | true =>
    obtain ⟨rfl, rfl⟩ | ⟨reply, xs₂, rfl, h₂⟩ := Path.of_ask h₁
    · exact .waiting (Or.inr rfl) rfl
    match reply with
    | (_, .ok ()) =>
      obtain ⟨rfl, rfl⟩ := Path.of_done h₂
      exact .finished rfl rfl
    | (task, .error p) =>
      obtain ⟨rfl, rfl⟩ | ⟨_, xs₃, rfl, h₃⟩ := Path.of_ask h₂
      · exact .waiting (Or.inl ⟨_, rfl⟩) rfl
      obtain ⟨rfl, rfl⟩ := Path.of_done h₃
      exact .finished rfl rfl

/-! ### Operations of a system of nothing but a bus -/

variable {E K X : Type} {Q : Signature} {op : Operation E K}
  {xs : List (Exchange (busDomain E K Q X).requests)}
  {r : Routine (busDomain E K Q X) (Except BusError Unit)}

theorem Operation.sending {item : Command (Receiver (busDomain E K Q X)) E}
    (h : Path op.activity.routine xs r)
    (known : op.isPatient = false → ∀ x ∈ xs, ∃ closed, timely closed x = true)
    (hitem : op.item? = some item) : Sending op item xs r := by
  rw [Operation.routine_activity] at h
  cases op with
  | send e =>
    cases hitem
    exact sending_enqueue h
  | trySend e =>
    cases hitem
    exact sending_trySend h (known rfl)
  | register k =>
    cases hitem
    exact sending_enqueue h
  | close => cases hitem

theorem Operation.closing (h : Path (Operation.close (E := E) (K := K)).activity.routine xs r) :
    Closing xs r := by
  rw [Operation.routine_activity] at h
  exact closing_close h

/-- Nobody but a close waits for anything but a slot, and whoever only tries to send does not wait. -/
theorem Operation.onward (h : Path (op.activity (Q := Q) (X := X)).routine xs r) (hop : op ≠ .close) :
    (∃ v, r = .done v) ∨
      ∃ q rest, r = .ask q rest ∧ (q.Offhand ∨ q = .awaitSlot ∧ op.isPatient = true) := by
  have enqueued (patient : op.isPatient = true) {item : Command (Receiver (busDomain E K Q X)) E}
      (h : Path (Routine.enqueue item) xs r) : (∃ v, r = .done v) ∨
        ∃ q rest, r = .ask q rest ∧ (q.Offhand ∨ q = .awaitSlot ∧ op.isPatient = true) := by
    have sending : Sending op item xs r := sending_enqueue h
    cases sending with
    | underway asks nothing => exact Or.inr ⟨_, _, rfl, asks.imp_right fun hq => ⟨hq, patient⟩⟩
    | _ => exact Or.inl ⟨_, rfl⟩
  rw [Operation.routine_activity] at h
  cases op with
  | send e => exact enqueued rfl h
  | register k => exact enqueued rfl h
  | trySend e =>
    obtain ⟨rfl, rfl⟩ | ⟨reply, xs₁, rfl, h₁⟩ := Path.of_ask h
    · exact Or.inr ⟨_, _, rfl, Or.inl trivial⟩
    · exact Or.inl ⟨_, (Path.of_done h₁).2⟩
  | close => exact absurd rfl hop

/-- Only to close closes the bus. -/
theorem Operation.only (h : op ≠ .close) :
    (op.activity (Q := Q) (X := X)).routine.Only Request.LeavesOpen := by
  rw [Operation.routine_activity]
  cases op with
  | send e => exact enqueue_only _
  | trySend e => exact ⟨nofun, fun _ => trivial⟩
  | register k => exact enqueue_only _
  | close => exact absurd rfl h

variable {result : Except Panic (Except BusError Unit)}

theorem Operation.sending_of_ended {item : Command (Receiver (busDomain E K Q X)) E}
    (h : Follows op.activity.routine xs (.ended result))
    (known : op.isPatient = false → ∀ x ∈ xs, ∃ closed, timely closed x = true)
    (hitem : op.item? = some item) : ∃ v, result = .ok v ∧ Sending op item xs (.done v) := by
  cases h with
  | returned path => exact ⟨_, rfl, Operation.sending path known hitem⟩
  | panicked path panics =>
    cases Operation.sending path known hitem with
    | underway asks nothing =>
      rcases asks with offhand | rfl
      · exact absurd panics offhand.not_panics
      · exact panics.elim

theorem Operation.closing_of_ended
    (h : Follows (Operation.close (E := E) (K := K)).activity.routine xs (.ended result)) :
    ∃ v, result = .ok v ∧ Closing xs (.done v) := by
  cases h with
  | returned path => exact ⟨_, rfl, Operation.closing path⟩
  | panicked path panics =>
    cases Operation.closing path with
    | asking => exact panics.elim
    | waiting asks nothing =>
      obtain ⟨line, rfl⟩ | rfl := asks <;> exact panics.elim

end System

end Reveille
