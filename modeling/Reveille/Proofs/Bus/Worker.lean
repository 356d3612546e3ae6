import Reveille.Bus.Worker

/-!
# Whom the worker hands an event to

A receiver that is registered and never says that it is retired stays in the list of the worker
(`Keeps`), and every event that the worker takes from then on is handed to it before the worker takes
the next command (`Hands`).  Both are kept by every reply of a bus that is open and whose receivers do
not panic when asked whether they are retired (`Lively`).
-/

namespace Reveille.Bus.Worker

variable {R E : Type} {r : R} {e : E} {w : Worker R E}

def Listed (r : R) (l : List (Registration R)) : Prop := ∃ reg ∈ l, reg.receiver = r

def Working (w : Worker R E) : Prop :=
  match w.phase with
  | .stopping _ _ | .exited | .died _ => False
  | _ => True

def Keeps (r : R) (w : Worker R E) : Prop :=
  match w.phase with
  | .sorting _ _ live asked rest => Listed r (live ++ asked :: rest)
  | .stopping _ _ | .exited | .died _ => False
  | _ => Listed r w.receivers

def Hands (r : R) (e : E) (w : Worker R E) : Prop :=
  match w.phase with
  | .surveying e' _ _ => e' = e ∧ Listed r w.receivers
  | .sorting e' _ live asked rest => e' = e ∧ Listed r (live ++ asked :: rest)
  | .dismissing e' _ _ => e' = e ∧ Listed r w.receivers
  | .delivering e' target rest => e' = e ∧ Listed r (target :: rest)
  | _ => False

/-- Replies of an open bus whose receivers do not panic when asked whether they are retired. -/
def Lively : (q : Request R E) → q.Reply → Prop
  | .receive, (reply : Option (Command R E)) => ∃ item, reply = some item
  | .isRetired _, (reply : Except Panic Bool) => ∃ retired, reply = .ok retired
  | _, _ => True

def Stays (r : R) : (q : Request R E) → q.Reply → Prop
  | .isRetired asked, (reply : Except Panic Bool) => asked = r → reply = .ok false
  | _, _ => True

theorem isOver_iff : w.phase.isOver = true ↔ ∃ result, w.ending? = some result := by
  unfold ending?
  cases w.phase <;> simp [Phase.isOver]

theorem Listed.of_append_cons {asked : Registration R} {live rest : List (Registration R)}
    (h : Listed r (live ++ asked :: rest)) : Listed r (live ++ [asked] ++ rest) := by
  rw [List.append_assoc, List.singleton_append]
  exact h

theorem Listed.without {asked : Registration R} {live rest : List (Registration R)}
    (h : Listed r (live ++ asked :: rest)) (hne : asked.receiver ≠ r) : Listed r (live ++ rest) := by
  obtain ⟨reg, hreg, hr⟩ := h
  refine ⟨reg, ?_, hr⟩
  rcases List.mem_append.mp hreg with hmem | hmem
  · exact List.mem_append_left _ hmem
  · rcases List.mem_cons.mp hmem with rfl | hmem
    · exact absurd hr hne
    · exact List.mem_append_right _ hmem

/-! ### Parts of the handling of an event -/

theorem working_deliverTo {l : List (Registration R)} : Working (w.deliverTo e l) := by
  cases l <;> exact trivial

theorem keeps_deliverTo {l : List (Registration R)} (h : Listed r w.receivers) :
    Keeps r (w.deliverTo e l) := by
  cases l <;> exact h

theorem hands_deliverTo {l : List (Registration R)} (h : Listed r l) :
    Hands r e (w.deliverTo e l) := by
  cases l with
  | nil =>
    obtain ⟨reg, hreg, -⟩ := h
    cases hreg
  | cons target rest => exact ⟨rfl, h⟩

theorem working_dismiss {l : List (Registration R)} : Working (w.dismiss e l).1 := by
  cases l with
  | nil => exact working_deliverTo
  | cons leaving rest => exact trivial

theorem serves_dismiss {l : List (Registration R)} (h : Listed r w.receivers) :
    Keeps r (w.dismiss e l).1 ∧ Hands r e (w.dismiss e l).1 := by
  cases l with
  | nil => exact ⟨keeps_deliverTo h, hands_deliverTo h⟩
  | cons leaving rest => exact ⟨h, rfl, h⟩

theorem working_sort {retired live l : List (Registration R)} :
    Working (w.sort e retired live l).1 := by
  cases l with
  | nil => exact working_dismiss
  | cons asked rest => exact trivial

theorem serves_sort {retired live l : List (Registration R)} (h : Listed r (live ++ l)) :
    Keeps r (w.sort e retired live l).1 ∧ Hands r e (w.sort e retired live l).1 := by
  cases l with
  | nil =>
    rw [List.append_nil] at h
    exact serves_dismiss h
  | cons asked rest => exact ⟨h, rfl, h⟩

theorem working_survey {l : List (Registration R)} : Working (w.survey e l).1 := by
  cases l with
  | nil => exact working_deliverTo
  | cons asked rest => exact trivial

theorem serves_survey {l : List (Registration R)} (h : Listed r w.receivers) :
    Keeps r (w.survey e l).1 ∧ Hands r e (w.survey e l).1 := by
  cases l with
  | nil => exact ⟨keeps_deliverTo h, hands_deliverTo h⟩
  | cons asked rest => exact ⟨h, rfl, h⟩

/-! ### Replies -/

theorem Working.resume (h : Working w) (reply : w.request.Reply) (lively : Lively w.request reply) :
    Working (w.resume reply).1 := by
  obtain ⟨receivers, registered, count, phase⟩ := w
  cases phase with
  | waiting =>
    obtain ⟨item, rfl⟩ := lively
    cases item with
    | register r => exact trivial
    | event e => exact working_survey
  | surveying e asked rest =>
    obtain ⟨retired, rfl⟩ := lively
    cases retired with
    | false => exact working_survey
    | true => exact working_sort
  | sorting e retired live asked rest =>
    obtain ⟨out, rfl⟩ := lively
    cases out with
    | false => exact working_sort
    | true => exact working_sort
  | dismissing e leaving rest => exact working_dismiss
  | delivering e target rest => exact working_deliverTo
  | stopping leaving rest => exact False.elim h
  | exited => exact False.elim h
  | died p => exact False.elim h

theorem Keeps.resume (h : Keeps r w) (reply : w.request.Reply) (lively : Lively w.request reply)
    (stays : Stays r w.request reply) : Keeps r (w.resume reply).1 := by
  obtain ⟨receivers, registered, count, phase⟩ := w
  cases phase with
  | waiting =>
    obtain ⟨item, rfl⟩ := lively
    cases item with
    | register r' =>
      obtain ⟨reg, hreg, hr⟩ := h
      exact ⟨reg, List.mem_append_left _ hreg, hr⟩
    | event e => exact (serves_survey h).1
  | surveying e asked rest =>
    obtain ⟨retired, rfl⟩ := lively
    cases retired with
    | false => exact (serves_survey h).1
    | true =>
      refine (serves_sort ?_).1
      exact h
  | sorting e retired live asked rest =>
    obtain ⟨out, rfl⟩ := lively
    cases out with
    | false => exact (serves_sort (Listed.of_append_cons h)).1
    | true =>
      have hne : asked.receiver ≠ r := fun hr => by cases stays hr
      exact (serves_sort (Listed.without h hne)).1
  | dismissing e leaving rest => exact (serves_dismiss h).1
  | delivering e target rest => exact keeps_deliverTo h
  | stopping leaving rest => exact False.elim h
  | exited => exact False.elim h
  | died p => exact False.elim h

theorem Hands.resume (h : Hands r e w) (reply : w.request.Reply) (lively : Lively w.request reply)
    (stays : Stays r w.request reply) (elsewhere : w.request ≠ .deliver r e) :
    Hands r e (w.resume reply).1 := by
  obtain ⟨receivers, registered, count, phase⟩ := w
  cases phase with
  | surveying e' asked rest =>
    obtain ⟨rfl, h⟩ := h
    obtain ⟨retired, rfl⟩ := lively
    cases retired with
    | false => exact (serves_survey h).2
    | true =>
      refine (serves_sort ?_).2
      exact h
  | sorting e' retired live asked rest =>
    obtain ⟨rfl, h⟩ := h
    obtain ⟨out, rfl⟩ := lively
    cases out with
    | false => exact (serves_sort h.of_append_cons).2
    | true =>
      have hne : asked.receiver ≠ r := fun hr => by cases stays hr
      exact (serves_sort (h.without hne)).2
  | dismissing e' leaving rest =>
    obtain ⟨rfl, h⟩ := h
    exact (serves_dismiss h).2
  | delivering e' target rest =>
    obtain ⟨rfl, reg, hreg, hr⟩ := h
    rcases List.mem_cons.mp hreg with rfl | hreg
    · subst hr
      exact absurd rfl elsewhere
    · exact hands_deliverTo ⟨reg, hreg, hr⟩
  | waiting => exact False.elim h
  | stopping leaving rest => exact False.elim h
  | exited => exact False.elim h
  | died p => exact False.elim h

theorem Working.take {item : Command R E} : Working (w.next .waiting (some item)).1 := by
  cases item with
  | register r => exact trivial
  | event e => exact working_survey

theorem Keeps.take {item : Command R E} (h : Keeps r w) (waiting : w.phase = .waiting) :
    Keeps r (w.next .waiting (some item)).1 := by
  simp only [Keeps, waiting] at h
  cases item with
  | register r' =>
    obtain ⟨reg, hreg, hr⟩ := h
    exact ⟨reg, List.mem_append_left _ hreg, hr⟩
  | event e => exact (serves_survey h).1

/-- An event that is taken is handed to every receiver. -/
theorem Keeps.take_event (h : Keeps r w) (waiting : w.phase = .waiting) :
    Hands r e (w.next .waiting (some (.event e))).1 := by
  simp only [Keeps, waiting] at h
  exact (serves_survey h).2

theorem keeps_of_register (r : R) : Keeps r (w.next .waiting (some (.register r))).1 := by
  refine ⟨⟨w.registered, r⟩, ?_, rfl⟩
  exact List.mem_append_right _ (List.mem_singleton.mpr rfl)

end Reveille.Bus.Worker
