import Reveille.Program

/-!
# Programs among others

A program that shares a state with others sees that state only at its own requests; in between the
others do with it what they like within the *rely* of a `Sharing`.  `Program.Safe` says of a program
at a state that, whatever the others do within the rely and whatever the replies are, each of its
requests keeps the *guarantee* and its value satisfies a postcondition.

Safety is not lost by what the others do (`Safe.later`), what is left of a safe program after one of
its requests is safe again (`Safe.step`), and safe programs run one after another are safe
(`Safe.bind`).  Programs of harmless requests (`Only`) are safe anywhere.
-/

namespace Reveille

structure Exchange (S : Signature) where
  request : S.Request
  reply : S.Reply request

namespace Program

variable {S : Signature} {σ α β : Type}

@[simp] theorem done_bind (a : α) (f : α → Program S β) : (done a).bind f = f a := rfl

@[simp] theorem ask_bind (q : S.Request) (rest : S.Reply q → Program S α) (f : α → Program S β) :
    (ask q rest).bind f = ask q fun reply => (rest reply).bind f := rfl

theorem bind_eq (p : Program S α) (f : α → Program S β) : (p >>= f) = p.bind f := rfl

structure Sharing (S : Signature) (σ : Type) where
  /-- The states before and after a request, and the reply to it. -/
  answers : (q : S.Request) → σ → S.Reply q → σ → Prop
  /-- What the others may do between two requests. -/
  rely : σ → σ → Prop
  /-- What holds at every request. -/
  inv : σ → Prop
  /-- What an answered request keeps. -/
  guar : (q : S.Request) → σ → S.Reply q → σ → Prop
  refl : ∀ x, rely x x
  trans : ∀ {x y z}, rely x y → rely y z → rely x z

/-- Whatever the others do, every request of the program keeps the guarantee, and its value
satisfies the postcondition. -/
def Safe (W : Sharing S σ) (post : α → σ → Prop) : Program S α → σ → Prop
  | .done a, x => ∀ y, W.rely x y → W.inv y → post a y
  | .ask q rest, x => ∀ y, W.rely x y → W.inv y → ∀ reply z, W.answers q y reply z →
      W.guar q y reply z ∧ (rest reply).Safe W post z

def Only (P : S.Request → Prop) : Program S α → Prop
  | .done _ => True
  | .ask q rest => P q ∧ ∀ reply, (rest reply).Only P

theorem Only.bind {P : S.Request → Prop} {p : Program S α} {f : α → Program S β} (h : p.Only P)
    (hf : ∀ a, (f a).Only P) : (p.bind f).Only P := by
  induction p with
  | done a => exact hf a
  | ask q rest ih => exact ⟨h.1, fun reply => ih reply (h.2 reply)⟩

theorem Only.mono {P Q : S.Request → Prop} {p : Program S α} (h : p.Only P)
    (hPQ : ∀ q, P q → Q q) : p.Only Q := by
  induction p with
  | done a => exact trivial
  | ask q rest ih => exact ⟨hPQ q h.1, fun reply => ih reply (h.2 reply)⟩

theorem safe_ask {W : Sharing S σ} {post : α → σ → Prop} {q : S.Request}
    {rest : S.Reply q → Program S α} {x : σ} :
    (ask q rest).Safe W post x ↔ ∀ y, W.rely x y → W.inv y → ∀ reply z, W.answers q y reply z →
      W.guar q y reply z ∧ (rest reply).Safe W post z := Iff.rfl

theorem safe_done {W : Sharing S σ} {post : α → σ → Prop} {a : α} {x : σ} :
    (done a : Program S α).Safe W post x ↔ ∀ y, W.rely x y → W.inv y → post a y := Iff.rfl

namespace Safe

variable {W : Sharing S σ} {post mid : α → σ → Prop} {after : β → σ → Prop}

theorem of_only {P : S.Request → Prop} {p : Program S α} (h : p.Only P)
    (keep : ∀ q, P q → ∀ x reply z, W.guar q x reply z) (x : σ) :
    p.Safe W (fun _ _ => True) x := by
  induction p generalizing x with
  | done a => exact fun _ _ _ => trivial
  | ask q rest ih =>
    intro y _ _ reply z _
    exact ⟨keep q h.1 y reply z, ih reply (h.2 reply) z⟩

theorem later {p : Program S α} {x y : σ} (h : p.Safe W post x) (hxy : W.rely x y) :
    p.Safe W post y := by
  cases p with
  | done a => exact fun z hz => h z (W.trans hxy hz)
  | ask q rest => exact fun z hz => h z (W.trans hxy hz)

theorem of_later {p : Program S α} {x : σ}
    (h : ∀ y, W.rely x y → W.inv y → p.Safe W post y) : p.Safe W post x := by
  cases p with
  | done a => exact fun y hy iy => h y hy iy y (W.refl y) iy
  | ask q rest => exact fun y hy iy => h y hy iy y (W.refl y) iy

theorem step {q : S.Request} {rest : S.Reply q → Program S α} {x z : σ} {reply : S.Reply q}
    (h : (ask q rest).Safe W post x) (ix : W.inv x) (ha : W.answers q x reply z) :
    W.guar q x reply z ∧ (rest reply).Safe W post z := h x (W.refl x) ix reply z ha

theorem imp {p : Program S α} {x : σ} (h : p.Safe W mid x) (hm : ∀ a y, mid a y → post a y) :
    p.Safe W post x := by
  induction p generalizing x with
  | done a => exact fun y hy iy => hm a y (h y hy iy)
  | ask q rest ih =>
    intro y hy iy reply z ha
    exact ⟨(h y hy iy reply z ha).1, ih reply (h y hy iy reply z ha).2⟩

theorem bind {p : Program S α} {f : α → Program S β} {x : σ} (h : p.Safe W mid x)
    (hf : ∀ a y, mid a y → (f a).Safe W after y) : (p.bind f).Safe W after x := by
  induction p generalizing x with
  | done a => exact of_later fun y hy iy => hf a y (h y hy iy)
  | ask q rest ih =>
    intro y hy iy reply z ha
    exact ⟨(h y hy iy reply z ha).1, ih reply (h y hy iy reply z ha).2⟩

end Safe

end Program

end Reveille
