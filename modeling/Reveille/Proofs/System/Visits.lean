import Reveille.Proofs.System.Rounds

/-!
# Visits to the receiver of a runner

Every event that the worker hands to the receiver of a runner is a `Visit`: the receiver sees whether the
runner is there, asks the filter of the service, and puts the event into the inbox if the filter says so
(`Forwarding`).  Whether the filter was asked, and what it said, is read off what was answered in the round
(`Visit.Answers`).

What a round puts into the inbox is what the filter accepted, and nothing is missing at the end of the round
unless the runner was not there (`mail_of_path`, `mail_of_closed`).  A finished visit has an answer of the
filter (`answered_of_returned`), and a receiver that leaves was told that the runner is not there
(`turned_away_of_leaves`).
-/

namespace Reveille

open Bus Program

variable {D : Domain} {c : Cast D} {a : Actor}

/-- An event at the receiver of a runner, with what was answered there, and how it ended if it is over. -/
structure Visit (D : Domain) where
  service : D.Service
  event : D.Event
  asked : List (Exchange D.requests)
  result : Option (Except Panic Unit)

namespace Visit

/-- The receiver found the runner there, and the filter of the service gave an answer. -/
def Answers (c : Cast D) (i : Nat) (v : Visit D) (relevant : Bool) : Prop :=
  ∃ before behind, v.asked = ⟨.isInboxOpen i, true⟩ :: (before ++ behind) ∧
    Path ((c.service v.service).filterEvent v.event).routine before (.done relevant)

open Classical in
noncomputable def accepted (c : Cast D) (i : Nat) (v : Visit D) : List D.Event :=
  if v.Answers c i true then [v.event] else []

end Visit

noncomputable def accepted (c : Cast D) (i : Nat) (V : List (Visit D)) : List D.Event :=
  V.flatMap (Visit.accepted c i)

def visit? (i : Nat) (asked : List (Exchange D.requests)) :
    (p : Worker.Phase (Receiver D) D.Event) → Option p.request.Reply → Option (Visit D)
  | .delivering e target _, (result : Option (Except Panic Unit)) =>
    match target.receiver with
    | .inbox service j => if j = i then some ⟨service, e, asked, result⟩ else none
    | .sink _ => none
  | _, _ => none

def Round.visit? (i : Nat) (x : Round D) : Option (Visit D) :=
  Reveille.visit? i x.asked x.reply.request (some x.reply.reply)

namespace System

variable {s s' s₀ s₁ : System D} {i : Nat} {q : Request D} {τ : List (Label D)} {l : Label D}
  {xs ys : List (Exchange D.requests)} {e : D.Event} {service : D.Service} {α : Type}

/-- The visits to the receiver of a runner in a run, with the one that is going on. -/
def visits (i : Nat) (τ : List (Label D)) (s : System D) : List (Visit D) :=
  (rounds τ).past.filterMap (Round.visit? i) ++
    (visit? i (rounds τ).present s.worker.machine.phase none).toList

def turnsAway (i : Nat) : Exchange D.requests → Bool
  | ⟨.isInboxOpen j, (isOpen : Bool)⟩ => !isOpen && j == i
  | ⟨.push j _, (pushed : Bool)⟩ => !pushed && j == i
  | _ => false

theorem not_running_of_turnsAway {reply : q.Reply}
    (h : s.perform c a q = some (.reply reply, s')) (hx : turnsAway i ⟨q, reply⟩ = true) :
    s.isRunning i = false := by
  cases performed_of_perform h with
  | isInboxOpen j =>
    simp only [turnsAway, Bool.and_eq_true, beq_iff_eq, Bool.not_eq_true'] at hx
    rw [← hx.2]
    exact hx.1
  | missed notRunning e =>
    simp only [turnsAway, Bool.and_eq_true, beq_iff_eq] at hx
    rw [← hx.2]
    exact notRunning
  | _ => cases hx

/-! ### The inversion of a visit -/

inductive Visiting (i : Nat) (asked : List (Exchange D.requests)) :
    (p : Worker.Phase (Receiver D) D.Event) → Option p.request.Reply → Visit D → Prop
  | mk {n : Nat} {service : D.Service} {e : D.Event} {rest : List (Registration (Receiver D))}
      {result : Option (Except Panic Unit)} :
      Visiting i asked (.delivering e ⟨n, .inbox service i⟩ rest) result ⟨service, e, asked, result⟩

theorem visiting_of_visit? {p : Worker.Phase (Receiver D) D.Event} {result : Option p.request.Reply}
    {v : Visit D} (h : visit? i xs p result = some v) : Visiting i xs p result v := by
  cases p with
  | delivering e target rest =>
    obtain ⟨n, receiver⟩ := target
    cases receiver with
    | sink k => cases h
    | inbox service j =>
      simp only [visit?, Option.ite_none_right_eq_some] at h
      obtain ⟨rfl, h⟩ := h
      cases h
      exact .mk
  | _ => cases h

/-! ### Routines that put nothing into an inbox -/

def Request.Spares (i : Nat) (q : Request D) : Prop := ∀ e, q ≠ .push i e

theorem mail?_of_spares {x : Exchange D.requests} (h : Request.Spares i x.request) :
    mail? i x = none := by
  obtain ⟨q, reply⟩ := x
  cases q with
  | push j e =>
    have hne : j ≠ i := by
      rintro rfl
      exact h e rfl
    simp [mail?, hne]
  | _ => rfl

theorem mail_of_only {p r : Routine D α} (path : Path p xs r) (h : p.Only (Request.Spares i)) :
    xs.filterMap (mail? i) = [] := by
  rw [List.filterMap_eq_nil_iff]
  exact fun x hx => mail?_of_spares (path.only h x hx)

theorem only_of_licensed {own : Recruit D} {r : Routine D α} (h : Licensed (.call 0) own r) :
    r.Only (Request.Spares i) := by
  induction r generalizing own with
  | done v => exact trivial
  | ask q rest ih =>
    refine ⟨?_, fun reply => ih reply (h.2 reply)⟩
    rintro e rfl
    exact absurd h.1 nofun

theorem only_activity (f : Activity D α) : f.routine.Only (Request.Spares i) :=
  only_of_licensed (licensed_habit.activity f)

theorem only_forward {service : Service D} {j : Nat} (hj : j ≠ i) :
    (Cast.forward service j e).Only (Request.Spares i) := by
  refine ⟨nofun, fun isOpen => ?_⟩
  cases (isOpen : Bool) with
  | false => exact trivial
  | true =>
    refine (only_activity (service.filterEvent e)).bind fun relevant => ?_
    cases relevant with
    | false => exact trivial
    | true =>
      refine ⟨fun e' he => hj (Request.push.inj he).1, fun pushed => ?_⟩
      cases (pushed : Bool) with
      | false => exact ⟨nofun, fun _ => trivial⟩
      | true => exact trivial

theorem only_detach {service : Service D} {j : Nat} :
    (Cast.detach service j).Only (Request.Spares i) := by
  refine ⟨nofun, fun isOpen => ?_⟩
  cases (isOpen : Bool) <;> exact ⟨nofun, fun _ => trivial⟩

/-- Whoever is called, nothing is put into the inbox of a runner unless its receiver is visited. -/
theorem only_errand {p : Worker.Phase (Receiver D) D.Event} {result : Option p.request.Reply}
    {r₀ : Routine D p.request.Reply} (begun : errand c p.request = some r₀)
    (h : visit? i xs p result = none) : r₀.Only (Request.Spares i) := by
  have retired {k : Receiver D} : (c.isRetired k).Only (Request.Spares i) := by
    cases k with
    | sink k => exact only_activity _
    | inbox service j => exact ⟨nofun, fun _ => trivial⟩
  have stopped {k : Receiver D} : (c.onStop k).Only (Request.Spares i) := by
    cases k with
    | sink k => exact only_activity _
    | inbox service j => exact only_detach
  cases p with
  | waiting => cases begun
  | surveying e asked rest =>
    cases begun
    exact retired.bind fun _ => trivial
  | sorting e out live asked rest =>
    cases begun
    exact retired.bind fun _ => trivial
  | dismissing e leaving rest =>
    cases begun
    exact stopped.bind fun _ => trivial
  | delivering e target rest =>
    obtain ⟨n, receiver⟩ := target
    cases begun
    refine Only.bind ?_ fun _ => trivial
    cases receiver with
    | sink k => exact only_activity _
    | inbox service j =>
      refine only_forward fun hj => ?_
      simp [visit?, hj] at h
  | stopping leaving rest =>
    cases begun
    exact stopped.bind fun _ => trivial
  | exited => cases begun
  | died p => cases begun

/-! ### What the receiver of a runner does with an event -/

/-- How far the receiver of a runner is with an event. -/
inductive Forwarding (service : Service D) (i : Nat) (e : D.Event) :
    List (Exchange D.requests) → Routine D (Except Panic Unit) → Prop
  | begun {rest : Bool → Routine D (Except Panic Unit)} :
      Forwarding service i e [] (.ask (.isInboxOpen i) rest)
  | shut : Forwarding service i e [⟨.isInboxOpen i, false⟩] (.done (.ok ()))
  | filtering {xs : List (Exchange D.requests)} {q : Request D} {rest : q.Reply → Routine D Bool}
      {rest' : q.Reply → Routine D (Except Panic Unit)}
      (path : Path (service.filterEvent e).routine xs (.ask q rest)) :
      Forwarding service i e (⟨.isInboxOpen i, true⟩ :: xs) (.ask q rest')
  | irrelevant {xs : List (Exchange D.requests)}
      (path : Path (service.filterEvent e).routine xs (.done false)) :
      Forwarding service i e (⟨.isInboxOpen i, true⟩ :: xs) (.done (.ok ()))
  | relevant {xs : List (Exchange D.requests)} {rest : Bool → Routine D (Except Panic Unit)}
      (path : Path (service.filterEvent e).routine xs (.done true)) :
      Forwarding service i e (⟨.isInboxOpen i, true⟩ :: xs) (.ask (.push i e) rest)
  | pushed {xs : List (Exchange D.requests)}
      (path : Path (service.filterEvent e).routine xs (.done true)) :
      Forwarding service i e (⟨.isInboxOpen i, true⟩ :: (xs ++ [⟨.push i e, true⟩])) (.done (.ok ()))
  | refused {xs behind : List (Exchange D.requests)} {r : Routine D (Except Panic Unit)}
      (path : Path (service.filterEvent e).routine xs (.done true))
      (quiet : behind.filterMap (mail? i) = []) :
      Forwarding service i e (⟨.isInboxOpen i, true⟩ :: (xs ++ ⟨.push i e, false⟩ :: behind)) r

theorem forwarding_of_path {service : Service D} {r : Routine D (Except Panic Unit)}
    (h : Path ((Cast.forward service i e).bind fun _ => .done (.ok ())) xs r) :
    Forwarding service i e xs r := by
  rcases h.of_ask with ⟨rfl, rfl⟩ | ⟨isOpen, ys, rfl, hopen⟩
  · exact .begun
  cases (isOpen : Bool) with
  | false =>
    obtain ⟨rfl, rfl⟩ := hopen.of_done
    exact .shut
  | true =>
    have hfilter : Path (((service.filterEvent e).routine.bind _).bind _) ys r := hopen
    rw [bind_assoc] at hfilter
    rcases hfilter.of_bind with ⟨q, rest, path, rfl⟩ | ⟨relevant, before, behind, rfl, path, hbehind⟩
    · exact .filtering path
    cases relevant with
    | false =>
      obtain ⟨rfl, rfl⟩ := hbehind.of_done
      rw [List.append_nil]
      exact .irrelevant path
    | true =>
      rcases hbehind.of_ask with ⟨rfl, rfl⟩ | ⟨pushed, behind, rfl, hpushed⟩
      · rw [List.append_nil]
        exact .relevant path
      cases (pushed : Bool) with
      | false =>
        refine .refused path ?_
        rcases hpushed.of_ask with ⟨rfl, rfl⟩ | ⟨noted, behind, rfl, hnoted⟩
        · rfl
        · obtain ⟨rfl, rfl⟩ := hnoted.of_done
          rfl
      | true =>
        obtain ⟨rfl, rfl⟩ := hpushed.of_done
        exact .pushed path

/-! ### What a visit puts into the inbox -/

section
variable {r : Routine D (Except Panic Unit)} {result : Option (Except Panic Unit)} {v : Visit D}

theorem mail_of_filter {service : Service D} {r : Routine D Bool}
    (path : Path (service.filterEvent e).routine xs r) : xs.filterMap (mail? i) = [] :=
  mail_of_only path (only_activity _)

theorem mail_of_filtering {service : Service D} {r : Routine D Bool}
    (path : Path (service.filterEvent e).routine xs r) :
    (⟨.isInboxOpen i, true⟩ :: xs).filterMap (mail? i) = [] :=
  (List.filterMap_cons_none rfl).trans (mail_of_filter path)

theorem accepted_of_answers (h : v.Answers c i true) : v.accepted c i = [v.event] := if_pos h

theorem accepted_of_not_answers (h : ¬ v.Answers c i true) : v.accepted c i = [] := if_neg h

/-- The filter has only one answer. -/
theorem accepted_of_path {r : Routine D Bool}
    (path : Path ((c.service service).filterEvent e).routine xs r) (hr : r ≠ .done true) :
    Visit.accepted c i ⟨service, e, ⟨.isInboxOpen i, true⟩ :: xs, result⟩ = [] := by
  refine accepted_of_not_answers ?_
  rintro ⟨before, behind, heq, answered⟩
  obtain rfl := (List.cons.inj heq).2
  exact hr (answered.of_ended path).2

theorem accepted_of_pushed (path : Path ((c.service service).filterEvent e).routine xs (.done true)) :
    (⟨.isInboxOpen i, true⟩ :: (xs ++ [⟨.push i e, true⟩])).filterMap (mail? i) =
      Visit.accepted c i ⟨service, e, ⟨.isInboxOpen i, true⟩ :: (xs ++ [⟨.push i e, true⟩]), result⟩ := by
  rw [accepted_of_answers ⟨xs, _, rfl, path⟩, List.filterMap_cons_none rfl, List.filterMap_append,
    mail_of_filter path]
  simp [mail?]

/-- Nothing is put into the inbox but what the filter accepted. -/
theorem Forwarding.mail_accepted (h : Forwarding (c.service service) i e xs r) :
    xs.filterMap (mail? i) <+: Visit.accepted c i ⟨service, e, xs, result⟩ := by
  cases h with
  | begun => exact List.nil_prefix
  | shut => exact List.nil_prefix
  | filtering path => exact mail_of_filtering path ▸ List.nil_prefix
  | irrelevant path => exact mail_of_filtering path ▸ List.nil_prefix
  | relevant path => exact mail_of_filtering path ▸ List.nil_prefix
  | pushed path => exact accepted_of_pushed path ▸ List.prefix_rfl
  | refused path quiet =>
    rw [List.filterMap_cons_none rfl, List.filterMap_append, mail_of_filter path,
      List.filterMap_cons_none rfl, quiet]
    exact List.nil_prefix

/-- When the visit is over, what the filter accepted is in the inbox, if the runner was there. -/
theorem Forwarding.mail_eq (h : Forwarding (c.service service) i e xs r)
    (ended : (∃ u, r = .done u) ∨ ∃ q rest, r = .ask q rest ∧ q.Panics)
    (welcome : ∀ x ∈ xs, turnsAway i x = false) :
    xs.filterMap (mail? i) = Visit.accepted c i ⟨service, e, xs, result⟩ := by
  cases h with
  | begun =>
    rcases ended with ⟨u, hu⟩ | ⟨q, rest, hq, panics⟩
    · cases hu
    · cases hq
      exact panics.elim
  | shut => simp [turnsAway] at welcome
  | filtering path =>
    rw [accepted_of_path path nofun]
    exact mail_of_filtering path
  | irrelevant path =>
    rw [accepted_of_path path nofun]
    exact mail_of_filtering path
  | relevant path =>
    rcases ended with ⟨u, hu⟩ | ⟨q, rest, hq, panics⟩
    · cases hu
    · cases hq
      exact panics.elim
  | pushed path => exact accepted_of_pushed path
  | refused path quiet =>
    have hpushed := welcome ⟨.push i e, false⟩ (by simp)
    simp [turnsAway] at hpushed

/-- When the receiver is done with the event, the filter was asked, if the runner was there. -/
theorem Forwarding.answers {u : Except Panic Unit}
    (h : Forwarding (c.service service) i e xs (.done u))
    (welcome : ∀ x ∈ xs, turnsAway i x = false) :
    ∃ relevant, Visit.Answers c i ⟨service, e, xs, result⟩ relevant := by
  cases h with
  | shut => simp [turnsAway] at welcome
  | @irrelevant xs path => exact ⟨false, xs, [], by rw [List.append_nil], path⟩
  | pushed path => exact ⟨true, _, _, rfl, path⟩
  | refused path quiet =>
    have hpushed := welcome ⟨.push i e, false⟩ (by simp)
    simp [turnsAway] at hpushed

end

/-! ### Rounds -/

@[simp] theorem accepted_singleton {v : Visit D} : accepted c i [v] = v.accepted c i :=
  List.append_nil _

theorem accepted_append {V V' : List (Visit D)} :
    accepted c i (V ++ V') = accepted c i V ++ accepted c i V' := List.flatMap_append

theorem accepted_length {v : Visit D} : (v.accepted c i).length ≤ 1 := by
  unfold Visit.accepted
  split
  · exact Nat.le_refl 1
  · exact Nat.zero_le 1

section
variable {p : Worker.Phase (Receiver D) D.Event} {result : Option p.request.Reply}
  {x : Round D} {v : Visit D}

theorem accepted_mono {result' : Option p.request.Reply} :
    accepted c i (visit? i xs p result).toList <+:
      accepted c i (visit? i (xs ++ ys) p result').toList := by
  cases hv : visit? i xs p result with
  | none => exact List.nil_prefix
  | some v =>
    have visiting := visiting_of_visit? hv
    clear hv
    cases visiting with
    | @mk n service e rest result =>
      have hlater : visit? i (xs ++ ys) (.delivering e ⟨n, .inbox service i⟩ rest) result' =
          some ⟨service, e, xs ++ ys, result'⟩ := if_pos rfl
      rw [hlater, Option.toList_some, Option.toList_some, accepted_singleton, accepted_singleton]
      by_cases h : Visit.Answers c i ⟨service, e, xs, result⟩ true
      · have hbefore := accepted_of_answers h
        obtain ⟨before, behind, heq, path⟩ := h
        obtain rfl : xs = _ := heq
        have hafter : Visit.Answers c i
            ⟨service, e, ⟨.isInboxOpen i, true⟩ :: (before ++ behind) ++ ys, result'⟩ true :=
          ⟨before, behind ++ ys, by rw [List.cons_append, List.append_assoc], path⟩
        exact (hbefore.trans (accepted_of_answers hafter).symm) ▸ List.prefix_rfl
      · rw [accepted_of_not_answers h]
        exact List.nil_prefix

theorem mail_of_path {r₀ r : Routine D p.request.Reply} (begun : errand c p.request = some r₀)
    (path : Path r₀ xs r) :
    xs.filterMap (mail? i) <+: accepted c i (visit? i xs p result).toList := by
  cases hv : visit? i xs p result with
  | none =>
    rw [mail_of_only path (only_errand begun hv)]
    exact List.nil_prefix
  | some v =>
    cases visiting_of_visit? hv
    cases begun
    rw [Option.toList_some, accepted_singleton]
    exact (forwarding_of_path path).mail_accepted

theorem mail_of_closed (closed : Closed c x)
    (welcome : x.visit? i ≠ none → ∀ y ∈ x.asked, turnsAway i y = false) :
    x.asked.filterMap (mail? i) = accepted c i (x.visit? i).toList := by
  have full {p : Worker.Phase (Receiver D) D.Event} {r₀ r : Routine D p.request.Reply}
      {xs : List (Exchange D.requests)} {reply : p.request.Reply} (begun : errand c p.request = some r₀)
      (path : Path r₀ xs r) (ended : (∃ u, r = .done u) ∨ ∃ q rest, r = .ask q rest ∧ q.Panics)
      (welcome : visit? i xs p (some reply) ≠ none → ∀ y ∈ xs, turnsAway i y = false) :
      xs.filterMap (mail? i) = accepted c i (visit? i xs p (some reply)).toList := by
    cases hv : visit? i xs p (some reply) with
    | none => exact mail_of_only path (only_errand begun hv)
    | some v =>
      have hwelcome := welcome (hv ▸ Option.some_ne_none v)
      generalize some reply = result at hv
      cases visiting_of_visit? hv
      cases begun
      rw [Option.toList_some, accepted_singleton]
      exact (forwarding_of_path path).mail_eq ended hwelcome
  cases closed with
  | @served p reply idle =>
    cases p with
    | delivering e target rest => cases idle
    | _ => rfl
  | returned begun path => exact full begun path (Or.inl ⟨_, rfl⟩) welcome
  | panicked begun path panics told => exact full begun path (Or.inr ⟨_, _, rfl, panics⟩) welcome

/-- A visit that is over and in which nothing panicked has an answer of the filter. -/
theorem answered_of_returned (closed : Closed c x) (hv : x.visit? i = some v)
    (returned : v.result = some (.ok ())) (welcome : ∀ y ∈ x.asked, turnsAway i y = false) :
    ∃ relevant, v.Answers c i relevant := by
  cases closed with
  | @served p reply idle =>
    cases p with
    | delivering e target rest => cases idle
    | _ => cases hv
  | @returned p r₀ xs reply begun path =>
    replace hv : visit? i xs p (some reply) = some v := hv
    generalize some reply = result at hv
    cases visiting_of_visit? hv
    cases begun
    exact (forwarding_of_path path).answers welcome
  | @panicked p r₀ xs q rest panic reply begun path panics told =>
    replace hv : visit? i xs p (some reply) = some v := hv
    generalize hr : some reply = result at hv
    cases visiting_of_visit? hv
    cases hr.symm.trans told.symm
    cases returned

/-- The receiver that is asked whether it is retired, or handed an event. -/
def party? : Worker.Phase (Receiver D) D.Event → Option (Receiver D)
  | .sorting _ _ _ asked _ => some asked.receiver
  | .delivering _ target _ => some target.receiver
  | _ => none

/-- A receiver leaves when it is told that its runner is not there. -/
theorem turned_away_of_leaves (closed : Closed c x)
    (h : Worker.leaves (Receiver.isInbox i) x.reply = true) :
    (∃ service, party? x.reply.request = some (.inbox service i)) ∧
      ∃ y ∈ x.asked, turnsAway i y = true := by
  cases closed with
  | @served p reply idle =>
    cases p with
    | sorting e out live asked rest => cases idle
    | _ => cases h
  | @returned p r₀ xs reply begun path =>
    cases p with
    | sorting e out live asked rest =>
      obtain ⟨n, receiver⟩ := asked
      cases receiver with
      | sink k => cases h
      | inbox service j =>
        cases begun
        simp only [Worker.leaves, Receiver.isInbox, Bool.and_eq_true, beq_iff_eq] at h
        obtain ⟨rfl, hretired⟩ := h
        rcases path.of_ask with ⟨-, hdone⟩ | ⟨isOpen, ys, rfl, hanswered⟩
        · cases hdone
        obtain ⟨-, hreply⟩ := hanswered.of_done
        cases hreply
        refine ⟨⟨service, rfl⟩, ⟨.isInboxOpen j, isOpen⟩, List.mem_cons_self, ?_⟩
        exact Bool.and_eq_true_iff.mpr ⟨hretired, beq_self_eq_true j⟩
    | _ => cases h
  | @panicked p r₀ xs q rest panic reply begun path panics told =>
    cases p with
    | sorting e out live asked rest =>
      cases told
      simp [Worker.leaves] at h
    | _ => cases h

end

end System

end Reveille
