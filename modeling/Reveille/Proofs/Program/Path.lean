import Reveille.Proofs.Program.Leads

/-!
# Ways through a program

A `Path` leads from a program to what is left of it after some replies.  A path goes on with one more
reply (`Path.concat`), and the first request of a program is the first one on all of its paths
(`Path.of_ask`).  A path through two programs, one after another, ends in the first of them, or passes
through its end (`Path.of_bind`).
-/

namespace Reveille.Program

variable {S : Signature} {α β : Type} {p r : Program S α} {xs : List (Exchange S)}

/-- What a program comes to when its requests are answered as listed. -/
inductive Path : Program S α → List (Exchange S) → Program S α → Prop
  | refl (p : Program S α) : Path p [] p
  | step {q : S.Request} {rest : S.Reply q → Program S α} {reply : S.Reply q}
      {xs : List (Exchange S)} {p : Program S α} (h : Path (rest reply) xs p) :
      Path (.ask q rest) (⟨q, reply⟩ :: xs) p

namespace Path

theorem concat {q : S.Request} {rest : S.Reply q → Program S α} (h : Path p xs (.ask q rest))
    (reply : S.Reply q) : Path p (xs ++ [⟨q, reply⟩]) (rest reply) := by
  generalize hr : Program.ask q rest = r at h
  induction h with
  | refl p => exact hr ▸ .step (.refl _)
  | step h ih => exact .step (ih hr)

theorem trans {r' : Program S α} {ys : List (Exchange S)} (h : Path p xs r) (h' : Path r ys r') :
    Path p (xs ++ ys) r' := by
  induction h with
  | refl p => exact h'
  | step h ih => exact .step (ih h')

theorem bind {f : α → Program S β} (h : Path p xs r) : Path (p.bind f) xs (r.bind f) := by
  induction h with
  | refl p => exact .refl _
  | step h ih => exact .step ih

theorem of_nil (h : Path p [] r) : r = p := by
  generalize hxs : ([] : List (Exchange S)) = xs at h
  cases h with
  | refl => rfl
  | step h => cases hxs

theorem functional {r' : Program S α} (h : Path p xs r) (h' : Path p xs r') : r = r' := by
  induction h with
  | refl p => exact h'.of_nil.symm
  | step h ih => cases h' with | step h' => exact ih h'

/-- The last of some replies was the reply to what was left before it. -/
theorem of_concat {x : Exchange S} (h : Path p (xs ++ [x]) r) :
    ∃ rest, Path p xs (.ask x.request rest) ∧ r = rest x.reply := by
  induction xs generalizing p with
  | nil =>
    cases h with
    | step h => exact ⟨_, .refl _, h.of_nil⟩
  | cons y ys ih =>
    cases h with
    | step h =>
      obtain ⟨rest, before, hr⟩ := ih h
      exact ⟨rest, .step before, hr⟩

theorem only {P : S.Request → Prop} (h : Path p xs r) (hp : p.Only P) : ∀ x ∈ xs, P x.request := by
  induction h with
  | refl p => exact nofun
  | @step q rest reply xs r h ih =>
    rintro x (_ | ⟨_, hx⟩)
    · exact hp.1
    · exact ih (hp.2 reply) x hx

theorem of_done {v : α} (h : Path (.done v) xs r) : xs = [] ∧ r = .done v := by
  cases h
  exact ⟨rfl, rfl⟩

theorem of_ask {q : S.Request} {rest : S.Reply q → Program S α} (h : Path (.ask q rest) xs r) :
    xs = [] ∧ r = .ask q rest ∨
      ∃ reply ys, xs = ⟨q, reply⟩ :: ys ∧ Path (rest reply) ys r := by
  cases h with
  | refl => exact Or.inl ⟨rfl, rfl⟩
  | step h => exact Or.inr ⟨_, _, rfl, h⟩

theorem of_bind {f : α → Program S β} {r : Program S β} (h : Path (p.bind f) xs r) :
    (∃ q rest, Path p xs (.ask q rest) ∧ r = (ask q rest).bind f) ∨
      ∃ a ys zs, xs = ys ++ zs ∧ Path p ys (.done a) ∧ Path (f a) zs r := by
  induction p generalizing xs with
  | done a => exact Or.inr ⟨a, [], xs, rfl, .refl _, h⟩
  | ask q rest ih =>
    rcases of_ask h with ⟨rfl, rfl⟩ | ⟨reply, ys, rfl, hrest⟩
    · exact Or.inl ⟨q, rest, .refl _, rfl⟩
    · rcases ih reply hrest with ⟨q', rest', hpath, rfl⟩ | ⟨a, ys, zs, rfl, hpath, hf⟩
      · exact Or.inl ⟨q', rest', .step hpath, rfl⟩
      · exact Or.inr ⟨a, _, zs, rfl, .step hpath, hf⟩

/-- Behind the end of a program there is nothing. -/
theorem of_ended {v : α} {ys : List (Exchange S)} (h : Path p xs (.done v)) (hr : Path p (xs ++ ys) r) :
    ys = [] ∧ r = .done v := by
  generalize hv : Program.done v = m at h
  induction h with
  | refl p =>
    subst hv
    exact of_done hr
  | step h ih =>
    cases hr with
    | step hr => exact ih hr hv

/-- A path is one after another at each of its replies. -/
theorem of_append {ys : List (Exchange S)} (h : Path p (xs ++ ys) r) :
    ∃ r', Path p xs r' ∧ Path r' ys r := by
  induction xs generalizing p with
  | nil => exact ⟨p, .refl p, h⟩
  | cons x xs ih =>
    cases h with
    | step h =>
      obtain ⟨r', before, after⟩ := ih h
      exact ⟨r', .step before, after⟩

/-- What is left of a program of certain requests is one as well. -/
theorem only_rest {P : S.Request → Prop} (h : Path p xs r) (hp : p.Only P) : r.Only P := by
  induction h with
  | refl p => exact hp
  | step h ih => exact ih (hp.2 _)

theorem leads {Q : α → Prop} (h : Path p xs r) (hp : p.Leads (fun _ _ => True) (fun _ => False) Q) :
    r.Leads (fun _ _ => True) (fun _ => False) Q := by
  induction h with
  | refl p => exact hp
  | step h ih => exact ih ((hp.step trivial).resolve_left id)

end Path

end Reveille.Program
