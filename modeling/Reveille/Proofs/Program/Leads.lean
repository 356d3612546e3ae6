import Reveille.Proofs.Program.Safe

/-!
# Where a program leads

`Program.Leads` says that on every path along which the replies are as expected, a program makes a
request of some kind, or ends with a value of some kind.  One step along such a path keeps it, unless
the step is the awaited request (`Leads.step`).

The laws of `Program.interpret` are at the end: answering the requests of a program by programs
respects running one program after another, and can be done in two stages.
-/

namespace Reveille.Program

variable {S T U : Signature} {α β : Type}

/-- With expected replies the program makes a request in `P`, or ends with a value in `Q`. -/
def Leads (expected : (q : S.Request) → S.Reply q → Prop) (P : S.Request → Prop) (Q : α → Prop) :
    Program S α → Prop
  | .done a => Q a
  | .ask q rest => P q ∨ ∀ reply, expected q reply → (rest reply).Leads expected P Q

namespace Leads

variable {expected : (q : S.Request) → S.Reply q → Prop} {P : S.Request → Prop} {Q R : α → Prop}

theorem step {q : S.Request} {rest : S.Reply q → Program S α} {reply : S.Reply q}
    (h : (ask q rest).Leads expected P Q) (hr : expected q reply) :
    P q ∨ (rest reply).Leads expected P Q := h.imp_right fun h => h reply hr

theorem bind {p : Program S α} {f : α → Program S β} {Q' : β → Prop} (h : p.Leads expected P Q)
    (hf : ∀ a, Q a → (f a).Leads expected P Q') : (p.bind f).Leads expected P Q' := by
  induction p with
  | done a => exact hf a h
  | ask q rest ih => exact h.imp_right fun h reply hr => ih reply (h reply hr)

theorem of_forall {p : Program S α} (h : ∀ a, Q a) : p.Leads expected P Q := by
  induction p with
  | done a => exact h a
  | ask q rest ih => exact Or.inr fun reply _ => ih reply

theorem mono {p : Program S α} (h : p.Leads expected P Q) (hQ : ∀ a, Q a → R a) :
    p.Leads expected P R := by
  induction p with
  | done a => exact hQ a h
  | ask q rest ih => exact h.imp_right fun h reply hr => ih reply (h reply hr)

/-- What always happens on the way does not depend on the end. -/
theorem bind_of_request {p : Program S α} {f : α → Program S β} {Q' : β → Prop}
    (h : p.Leads expected P fun _ => False) : (p.bind f).Leads expected P Q' :=
  h.bind fun _ h => False.elim h

end Leads

/-! ### Laws of interpretation -/

theorem bind_assoc {γ : Type} (p : Program S α) (f : α → Program S β) (g : β → Program S γ) :
    (p.bind f).bind g = p.bind fun a => (f a).bind g := by
  induction p with
  | done a => rfl
  | ask q rest ih => exact congrArg (ask q) (funext ih)

theorem interpret_bind (h : (q : S.Request) → Program T (S.Reply q)) (p : Program S α)
    (f : α → Program S β) :
    (p.bind f).interpret h = (p.interpret h).bind fun a => (f a).interpret h := by
  induction p with
  | done a => rfl
  | ask q rest ih =>
    show (h q).bind (fun reply => ((rest reply).bind f).interpret h) = _
    rw [funext ih, ← bind_assoc]
    rfl

theorem bind_done (p : Program S α) : p.bind done = p := by
  induction p with
  | done a => rfl
  | ask q rest ih => exact congrArg (ask q) (funext ih)

theorem interpret_request (h : (q : S.Request) → Program T (S.Reply q)) (q : S.Request) :
    (request q).interpret h = h q := bind_done (h q)

theorem interpret_interpret (h : (q : S.Request) → Program T (S.Reply q))
    (g : (q : T.Request) → Program U (T.Reply q)) (p : Program S α) :
    (p.interpret h).interpret g = p.interpret fun q => (h q).interpret g := by
  induction p with
  | done a => rfl
  | ask q rest ih =>
    show ((h q).bind fun reply => (rest reply).interpret h).interpret g = _
    rw [interpret_bind, funext ih]
    rfl

end Reveille.Program
