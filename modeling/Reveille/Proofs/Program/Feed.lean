import Reveille.Proofs.Program.Safe

/-!
# All items of a feed

`Feed.collect` takes a feed to its end and gives its items as a list.  When every request has one
reply (`Program.eval`), that list is what `Feed.next` hands out item by item (`eval_next`).
-/

namespace Reveille

variable {S : Signature} {α : Type}

/-- The value of a program whose requests have fixed replies. -/
def Program.eval (reply : (q : S.Request) → S.Reply q) : Program S α → α
  | .done a => a
  | .ask q rest => (rest (reply q)).eval reply

theorem Program.eval_bind {β : Type} {reply : (q : S.Request) → S.Reply q} {p : Program S α}
    {f : α → Program S β} : (p.bind f).eval reply = (f (p.eval reply)).eval reply := by
  induction p with
  | done a => rfl
  | ask q rest ih => exact ih (reply q)

namespace Feed

def collect : Feed S α → Program S (List α)
  | .stop => .done []
  | .item a rest => rest.collect.bind fun items => .done (a :: items)
  | .ask q rest => .ask q fun reply => (rest reply).collect

@[simp] theorem collect_ofList (items : List α) :
    (ofList items : Feed S α).collect = .done items := by
  induction items with
  | nil => rfl
  | cons a items ih => rw [ofList, collect, ih, Program.done_bind]

theorem interpret_ofList {T : Signature} {h : (q : S.Request) → Program T (S.Reply q)}
    (items : List α) : (ofList items).interpret h = ofList items := by
  induction items with
  | nil => rfl
  | cons a items ih => exact congrArg (Feed.item a) ih

theorem ofList_injective {items items' : List α} (h : (ofList items : Feed S α) = ofList items') :
    items = items' := by
  induction items generalizing items' with
  | nil =>
    cases items' with
    | nil => rfl
    | cons a' rest' => cases h
  | cons a rest ih =>
    cases items' with
    | nil => cases h
    | cons a' rest' =>
      obtain ⟨rfl, hrest⟩ := Feed.item.inj h
      rw [ih hrest]

theorem eval_next {reply : (q : S.Request) → S.Reply q} (f : Feed S α) :
    f.collect.eval reply = match f.next.eval reply with
      | none => []
      | some (a, rest) => a :: rest.collect.eval reply := by
  induction f with
  | stop => rfl
  | item a rest _ => exact Program.eval_bind
  | ask q rest ih => exact ih (reply q)

end Feed

end Reveille
