import Reveille.Proofs.Bus.Handover
import Reveille.Proofs.System.Habit
import Reveille.Proofs.System.Stride

/-!
# Runners are registered once

The receiver of a runner is only registered by the actor who hired the runner, and only once.  Every
routine keeps to that (`Licensed`): a runner it has hired it may register, and then no more.  As every
hired runner has a number of its own, no two actors have the same one to register.  So in every run the
receiver of a runner is committed at most once, and with the service of the runner (`Run.registry`).

Besides, nobody but the worker puts anything into an inbox.
-/

namespace Reveille

open Bus Program

variable {D : Domain} {c : Cast D} {a b : Actor} {α β : Type}

def Receiver.isInbox (i : Nat) : Receiver D → Bool
  | .sink _ => false
  | .inbox _ j => j == i

/-- Nobody but the worker puts anything into an inbox. -/
def Label.Outward : Label D → Prop
  | .moved a (some ⟨.push _ _, _⟩) _ => a = .worker
  | _ => True

namespace System

/-- A runner that was hired and not registered, with its service. -/
abbrev Recruit (D : Domain) := Option (D.Service × Nat)

/-- What an actor may request.  Only its recruit may be registered. -/
def Request.Permitted (a : Actor) (own : Recruit D) : Request D → Prop
  | .commit (.register (.inbox service i)) => own = some (service, i)
  | .push _ _ => a = .worker
  | _ => True

def Request.recruit (own : Recruit D) : (q : Request D) → q.Reply → Recruit D
  | .hire service, (i : Nat) => some (service, i)
  | .commit (.register (.inbox _ _)), _ => none
  | _, _ => own

/-- Whatever it is told, the routine registers a runner only after it has hired it, and only once. -/
def Licensed (a : Actor) : Recruit D → Routine D α → Prop
  | _, .done _ => True
  | own, .ask q rest => q.Permitted a own ∧ ∀ reply, Licensed a (q.recruit own reply) (rest reply)

variable {own : Recruit D} {q : Request D} {s s' s₁ : System D} {i : Nat}

/-! ### Routines -/

/-- Nobody has to register a recruit. -/
theorem Licensed.with_recruit {r : Routine D α} (h : Licensed a none r) (own : Recruit D) :
    Licensed a own r := by
  induction r generalizing own with
  | done v => exact trivial
  | ask q rest ih =>
    obtain ⟨hq, hrest⟩ := h
    cases q with
    | hire service => exact ⟨trivial, hrest⟩
    | commit item =>
      cases item with
      | event e => exact ⟨trivial, fun reply => ih reply (hrest reply) own⟩
      | register k =>
        cases k with
        | sink k => exact ⟨trivial, fun reply => ih reply (hrest reply) own⟩
        | inbox service i => cases hq
    | _ => exact ⟨hq, fun reply => ih reply (hrest reply) own⟩

theorem Licensed.bind {r : Routine D α} {f : α → Routine D β} (h : Licensed a own r)
    (hf : ∀ v, Licensed a none (f v)) : Licensed a own (r.bind f) := by
  induction r generalizing own with
  | done v => exact (hf v).with_recruit own
  | ask q rest ih => exact ⟨h.1, fun reply => ih reply (h.2 reply)⟩

theorem Licensed.forget {r : Routine D α} (h : Licensed a own r) : Licensed a own r.forget :=
  h.bind fun _ => trivial

theorem licensed_query (h : q.Permitted a none) : Licensed a none (Routine.query q) :=
  ⟨h, fun _ => trivial⟩

theorem licensed_enqueue {item : Command (Receiver D) D.Event}
    (h : (Request.commit item).Permitted a own) : Licensed a own (Routine.enqueue item) := by
  refine ⟨trivial, fun letIn => ?_⟩
  cases (letIn : Bool) with
  | false => exact trivial
  | true =>
    refine ⟨trivial, fun _ => ⟨trivial, fun held => ?_⟩⟩
    cases (held : Bool) with
    | false => exact trivial
    | true =>
      refine ⟨h, fun kept => ?_⟩
      cases (kept : Bool) <;> exact trivial

theorem licensed_close : Licensed a none (Routine.close (D := D)) := by
  refine ⟨trivial, fun first => ?_⟩
  cases (first : Bool) with
  | false => exact trivial
  | true =>
    refine ⟨trivial, fun reply => ?_⟩
    match reply with
    | (_, .ok ()) => exact trivial
    | (task, .error p) => exact ⟨trivial, fun _ => trivial⟩

theorem licensed_startRunner (service : D.Service) :
    Licensed a none (Routine.startRunner service) := by
  refine ⟨trivial, fun (i : Nat) => ?_⟩
  have registers : (Request.commit (.register (.inbox service i)) : Request D).Permitted a
      (some (service, i)) := rfl
  refine (licensed_enqueue registers).bind fun sent => ?_
  cases sent with
  | error e => exact trivial
  | ok u => exact ⟨trivial, fun _ => ⟨trivial, fun _ => trivial⟩⟩

theorem licensed_habit : Habit a (fun {_} r => Licensed (D := D) a none r) where
  done _ := trivial
  bind := Licensed.bind
  single q hq := licensed_query (by cases q <;> trivial)
  send _ := licensed_enqueue trivial
  register _ := licensed_enqueue trivial
  close := licensed_close
  startRunner := licensed_startRunner
  push ha _ _ := licensed_query ha

/-! ### The services of the runners -/

def services (s : System D) : List D.Service := s.runners.map (·.service)

theorem services_eq (h : s'.staff = s.staff) : s'.services = s.services := by
  have hstaff (s : System D) : s.staff.map Badge.service = s.services := List.map_map
  rw [← hstaff, ← hstaff, h]

theorem Treated.services (h : Treated c s s') : s.services <+: s'.services := by
  cases h with
  | same h => simp only [System.services, h, List.prefix_rfl]
  | @modified j f h treats =>
    have hsame : (s.runners.modify j f).map (·.service) = s.runners.map (·.service) := by
      refine List.ext_getElem? fun n => ?_
      rw [List.getElem?_map, List.getElem?_map, List.getElem?_modify]
      cases s.runners[n]? with
      | none => rfl
      | some t =>
        obtain ⟨_, _, _, _, _, hf⟩ := treats t
        by_cases hj : j = n
        · simp [hj, hf]
        · simp [hj]
    have same : s'.services = s.services := by
      rw [System.services, h, hsame]
      rfl
    exact same ▸ List.prefix_rfl
  | hired h =>
    rw [System.services, System.services, h, List.map_append]
    exact List.prefix_append _ _

theorem Turn.services {l : Label D} (h : Turn c s l s') : s.services <+: s'.services := by
  cases h with
  | callAsked task answer => exact (treated_of_perform answer).services
  | callPanicked task answer => exact (treated_of_perform answer).services
  | callReturned task => exact List.prefix_rfl
  | workerAsked routine answer => exact (treated_of_perform answer).services
  | workerPanicked routine answer panic => exact (treated_of_perform answer).services
  | workerReturned routine => exact List.prefix_rfl
  | workerServed idle source =>
    obtain ⟨-, ⟨item, channel, -, rfl, -⟩ | ⟨-, rfl, -⟩⟩ := served_cases source <;>
      exact List.prefix_rfl
  | runnerAsked hired answer aside =>
    rw [services_eq aside.staff]
    exact (treated_of_perform answer).services
  | runnerPanicked hired answer aside =>
    rw [services_eq aside.staff]
    exact (treated_of_perform answer).services
  | runnerAlone hired aside => exact services_eq aside.staff ▸ List.prefix_rfl
  | @runnerCancelled i t runner aborted => exact services_eq (staff_cancel (i := i)) ▸ List.prefix_rfl

/-- Who is hired comes last, and the reply is the number. -/
theorem Turn.hired {service : D.Service} {n : Nat}
    {worked : Option (Exchange (Bus.Worker.requests (Receiver D) D.Event))}
    (h : Turn c s (.moved a (some ⟨.hire service, n⟩) worked) s') :
    n = s.services.length ∧ s'.services = s.services ++ [service] := by
  have answered {s₁ : System D} (answer : s.perform c a (.hire service) = some (.reply n, s₁)) :
      n = s.services.length ∧ s₁.services = s.services ++ [service] := by
    cases answer
    exact ⟨(List.length_map _).symm, List.map_append⟩
  cases h with
  | callAsked task answer =>
    obtain ⟨hn, hservices⟩ := answered answer
    exact ⟨hn, hservices⟩
  | workerAsked routine answer =>
    obtain ⟨hn, hservices⟩ := answered answer
    exact ⟨hn, hservices⟩
  | runnerAsked hired answer aside =>
    rw [services_eq aside.staff]
    exact answered answer

/-! ### Recruits and registrations -/

variable {own : Actor → Recruit D} {C : List (Command (Receiver D) D.Event)} {V : List D.Service}

/-- Every runner is registered once at most, with its service, and no two actors may register the same
one. -/
structure Roster (own : Actor → Recruit D) (C : List (Command (Receiver D) D.Event))
    (V : List D.Service) : Prop where
  recruited : ∀ a service i, own a = some (service, i) →
    V[i]? = some service ∧ C.countP (Command.registers (Receiver.isInbox i)) = 0
  apart : ∀ a b service service' i, own a = some (service, i) → own b = some (service', i) → a = b
  enrolled : ∀ service i, .register (.inbox service i) ∈ C → V[i]? = some service
  once : ∀ i, C.countP (Command.registers (Receiver.isInbox i)) ≤ 1

namespace Roster

theorem mono {V' : List D.Service} (h : Roster own C V) (hV : V <+: V') : Roster own C V' := by
  obtain ⟨more, rfl⟩ := hV
  have found {i : Nat} {service : D.Service} (hi : V[i]? = some service) :
      (V ++ more)[i]? = some service := by
    rw [List.getElem?_append_left (List.getElem?_eq_some_iff.mp hi).1, hi]
  exact ⟨fun a service i ha => ⟨found (h.recruited a service i ha).1, (h.recruited a service i ha).2⟩,
    h.apart, fun service i hmem => found (h.enrolled service i hmem), h.once⟩

theorem other (h : Roster own C V) {x : Command (Receiver D) D.Event}
    (hx : ∀ i, x.registers (Receiver.isInbox i) = false) : Roster own (C ++ [x]) V := by
  have hcount (i : Nat) : (C ++ [x]).countP (Command.registers (Receiver.isInbox i)) =
      C.countP (Command.registers (Receiver.isInbox i)) := by
    rw [List.countP_append, List.countP_singleton, hx, if_neg Bool.false_ne_true, Nat.add_zero]
  refine ⟨?_, h.apart, ?_, ?_⟩
  · intro a service i ha
    rw [hcount]
    exact h.recruited a service i ha
  · intro service i hmem
    rcases List.mem_append.mp hmem with hmem | hmem
    · exact h.enrolled service i hmem
    · have hregisters := hx i
      rw [← List.mem_singleton.mp hmem, Command.registers, Receiver.isInbox, beq_self_eq_true]
        at hregisters
      cases hregisters
  · intro i
    rw [hcount]
    exact h.once i

theorem update_none (h : Roster own C V) (a : Actor) : Roster (Function.update own a none) C V := by
  have held {b : Actor} {service : D.Service} {i : Nat}
      (hb : Function.update own a none b = some (service, i)) : own b = some (service, i) := by
    by_cases hba : b = a
    · rw [hba, Function.update_self] at hb
      cases hb
    · rwa [Function.update_of_ne hba] at hb
  exact ⟨fun b service i hb => h.recruited b service i (held hb),
    fun b b' service service' i hb hb' => h.apart b b' service service' i (held hb) (held hb'),
    h.enrolled, h.once⟩

/-- The new runner has a number that nobody has had before. -/
theorem hire (h : Roster own C V) (a : Actor) (service : D.Service) :
    Roster (Function.update own a (some (service, V.length))) C (V ++ [service]) := by
  have below {i : Nat} {service' : D.Service} (hi : V[i]? = some service') : i < V.length :=
    (List.getElem?_eq_some_iff.mp hi).1
  have held {b : Actor} {service' : D.Service} {i : Nat} (hb : Function.update own a
      (some (service, V.length)) b = some (service', i)) :
      b = a ∧ service' = service ∧ i = V.length ∨ own b = some (service', i) ∧ i < V.length := by
    by_cases hba : b = a
    · rw [hba, Function.update_self] at hb
      cases hb
      exact Or.inl ⟨hba, rfl, rfl⟩
    · rw [Function.update_of_ne hba] at hb
      exact Or.inr ⟨hb, below (h.recruited b service' i hb).1⟩
  have unknown : C.countP (Command.registers (Receiver.isInbox V.length)) = 0 := by
    rw [List.countP_eq_zero]
    intro x hx
    match x with
    | .event e => exact Bool.false_ne_true
    | .register (.sink k) => exact Bool.false_ne_true
    | .register (.inbox service' i) =>
      intro hi
      have hlt := below (h.enrolled service' i hx)
      rw [eq_of_beq hi] at hlt
      exact Nat.lt_irrefl _ hlt
  have grown := h.mono (List.prefix_append V [service])
  refine ⟨?_, ?_, grown.enrolled, h.once⟩
  · intro b service' i hb
    rcases held hb with ⟨-, rfl, rfl⟩ | ⟨hb, -⟩
    · exact ⟨List.getElem?_concat_length, unknown⟩
    · exact grown.recruited b service' i hb
  · intro b b' v v' i hb hb'
    rcases held hb with ⟨rfl, -, rfl⟩ | ⟨hb, hi⟩
    · rcases held hb' with ⟨rfl, -, -⟩ | ⟨-, hi⟩
      · rfl
      · exact absurd hi (Nat.lt_irrefl _)
    · rcases held hb' with ⟨-, -, rfl⟩ | ⟨hb', -⟩
      · exact absurd hi (Nat.lt_irrefl _)
      · exact h.apart b b' v v' i hb hb'

/-- The recruit of an actor is registered. -/
theorem register (h : Roster own C V) {service : D.Service} (ha : own a = some (service, i)) :
    Roster (Function.update own a none) (C ++ [.register (.inbox service i)]) V := by
  obtain ⟨hservice, hnone⟩ := h.recruited a service i ha
  have hcount (j : Nat) : (C ++ [Command.register (Receiver.inbox service i)]).countP
      (Command.registers (Receiver.isInbox j)) =
        C.countP (Command.registers (Receiver.isInbox j)) + if i = j then 1 else 0 := by
    rw [List.countP_append, List.countP_singleton]
    simp only [Command.registers, Receiver.isInbox, beq_iff_eq]
  have kept := h.update_none a
  refine ⟨?_, kept.apart, ?_, ?_⟩
  · intro b service' j hb
    have hne : i ≠ j := by
      rintro rfl
      by_cases hba : b = a
      · rw [hba, Function.update_self] at hb
        cases hb
      · rw [Function.update_of_ne hba] at hb
        exact hba (h.apart b a service' service i hb ha)
    rw [hcount, if_neg hne]
    exact kept.recruited b service' j hb
  · intro service' j hmem
    rcases List.mem_append.mp hmem with hmem | hmem
    · exact h.enrolled service' j hmem
    · cases List.mem_singleton.mp hmem
      exact hservice
  · intro j
    rw [hcount]
    by_cases hj : i = j
    · rw [if_pos hj, ← hj, hnone]
    · rw [if_neg hj]
      exact h.once j

end Roster

/-! ### Runs -/

def commands (τ : List (Label D)) : List (Command (Receiver D) D.Event) := (committed τ).map Prod.snd

/-- Every actor keeps to its licence. -/
structure Registry (τ : List (Label D)) (s : System D) : Prop where
  roster : ∃ own, Roster own (commands τ) s.services ∧
    ∀ a r, s.residual a = some r → Licensed a (own a) r
  outward : ∀ l ∈ τ, Label.Outward l

variable {s₀ : System D} {τ : List (Label D)} {l : Label D}

theorem commands_asked {x : Exchange D.requests}
    {worked : Option (Exchange (Bus.Worker.requests (Receiver D) D.Event))} :
    commands (τ ++ [.moved a (some x) worked]) = commands τ ++ (committed? x).toList := by
  rw [commands, committed_concat, List.map_append]
  show _ ++ ((committed? x).map _).toList.map _ = _
  cases committed? x <;> rfl

theorem Roster.asked {reply : q.Reply} (h : Roster own C s.services)
    (permitted : q.Permitted a (own a))
    (hired : ∀ service n, (⟨q, reply⟩ : Exchange D.requests) = ⟨.hire service, n⟩ →
      n = s.services.length ∧ s'.services = s.services ++ [service])
    (services : s.services <+: s'.services) :
    Roster (Function.update own a (q.recruit (own a) reply)) (C ++ (committed? ⟨q, reply⟩).toList)
      s'.services := by
  have kept : Roster (Function.update own a (own a)) C s'.services := by
    rw [Function.update_eq_self]
    exact h.mono services
  have quiet : Roster (Function.update own a (own a)) (C ++ []) s'.services := by
    rw [List.append_nil]
    exact kept
  cases q with
  | hire service =>
    obtain ⟨hn, hservices⟩ := hired service reply rfl
    show Roster (Function.update own a (some (service, reply))) (C ++ []) s'.services
    rw [hservices, hn, List.append_nil]
    exact h.hire a service
  | commit item =>
    cases item with
    | event e =>
      cases (reply : Bool) with
      | true => exact kept.other fun _ => rfl
      | false => exact quiet
    | register k =>
      cases k with
      | sink k =>
        cases (reply : Bool) with
        | true => exact kept.other fun _ => rfl
        | false => exact quiet
      | inbox service i =>
        cases (reply : Bool) with
        | true => exact (h.mono services).register permitted
        | false =>
          show Roster (Function.update own a none) (C ++ []) s'.services
          rw [List.append_nil]
          exact (h.mono services).update_none a
  | trySend e =>
    cases (reply : Except BusError Unit) with
    | ok u => exact kept.other fun _ => rfl
    | error err => exact quiet
  | _ => exact quiet

theorem Registry.along (h : Registry τ s) (committed : l.committed? = none) (outward : l.Outward)
    (services : s.services <+: s'.services)
    (residual : ∀ b r, s'.residual b = some r → s.residual b = some r ∨ Licensed b none r) :
    Registry (τ ++ [l]) s' := by
  obtain ⟨⟨own, roster, licensed⟩, before⟩ := h
  refine ⟨⟨own, ?_, fun b r hr => ?_⟩, fun l' hl => ?_⟩
  · rw [commands, committed_quiet committed]
    exact roster.mono services
  · rcases residual b r hr with h | h
    · exact licensed b r h
    · exact h.with_recruit _
  · rcases List.mem_append.mp hl with hl | hl
    · exact before l' hl
    · exact List.mem_singleton.mp hl ▸ outward

theorem Registry.step {asked : Option (Exchange D.requests)}
    {work : Option (Exchange (Bus.Worker.requests (Receiver D) D.Event))} (h : Registry τ s)
    (turn : Turn c s (.moved a asked work) s') (stride : Stride c s a asked s') :
    Registry (τ ++ [.moved a asked work]) s' := by
  obtain ⟨⟨own, roster, licensed⟩, outward⟩ := h
  have services := turn.services
  cases stride with
  | @asked q rest reply s₁ s' doing answer channel state residual others =>
    have hdoing : Licensed a (own a) (.ask q rest) := by
      rcases doing with h | ⟨-, h⟩
      · exact licensed a _ h
      · exact Licensed.with_recruit (licensed_habit.fresh h) _
    refine ⟨⟨Function.update own a (q.recruit (own a) reply), ?_, fun b r hr => ?_⟩, ?_⟩
    · rw [commands_asked]
      refine roster.asked hdoing.1 (fun service n hx => ?_) services
      rw [hx] at turn
      exact turn.hired
    · by_cases hba : b = a
      · subst hba
        rw [residual] at hr
        cases hr
        rw [Function.update_self]
        exact hdoing.2 reply
      · rw [others b hba] at hr
        rw [Function.update_of_ne hba]
        exact licensed b r hr
    · intro l hl
      rcases List.mem_append.mp hl with hl | hl
      · exact outward l hl
      · obtain rfl := List.mem_singleton.mp hl
        cases q with
        | push i e => exact hdoing.1
        | _ => exact trivial
  | panicked doing answer narrowed state residual others =>
    refine Registry.along ⟨⟨own, roster, licensed⟩, outward⟩ rfl trivial services fun b r hr => ?_
    by_cases hba : b = a
    · subst hba
      rcases residual with h | h
      · rw [h] at hr
        cases hr
      · exact Or.inl (h ▸ hr)
    · exact Or.inl (others b hba ▸ hr)
  | ended before narrowed state residual others =>
    refine Registry.along ⟨⟨own, roster, licensed⟩, outward⟩ rfl trivial services fun b r hr => ?_
    by_cases hba : b = a
    · subst hba
      rw [residual] at hr
      cases hr
    · exact Or.inl (others b hba ▸ hr)
  | cancelled actor runner aborted =>
    exact Registry.along ⟨⟨own, roster, licensed⟩, outward⟩ rfl trivial services fun b r hr =>
      Or.inl ((residual_cancel b).symm.trans hr)

theorem Run.registry (new : s₀.IsNew) (h : Run c s₀ τ s) : Registry τ s := by
  induction h with
  | refl =>
    have nobody : Roster (fun _ => none) (commands (D := D) []) s₀.services := by
      refine ⟨?_, ?_, ?_, fun _ => Nat.zero_le _⟩
      · intro a service i h
        cases h
      · intro a b service service' i h
        cases h
      · exact fun service i hmem => absurd hmem List.not_mem_nil
    refine ⟨⟨fun _ => none, nobody, ?_⟩, fun _ hl => absurd hl List.not_mem_nil⟩
    intro a r hr
    cases (new.residual a).symm.trans hr
  | step before h ih =>
    have turn := turn_of_step h
    obtain ⟨asked, work, hlabel, stride⟩ := stride_of_step h
    rw [hlabel] at turn ⊢
    exact ih.step turn stride
  | call before f ih =>
    refine ih.along rfl trivial List.prefix_rfl fun b r hr => ?_
    rcases residual_start hr with h | ⟨-, rfl⟩
    · exact Or.inl h
    · exact Or.inr (Licensed.forget (licensed_habit.activity f))
  | outside before h ih =>
    obtain ⟨⟨own, roster, licensed⟩, outward⟩ := ih
    refine ⟨⟨own, ?_, fun b r hr => licensed b r (h.residual b ▸ hr)⟩, outward⟩
    rw [services, h.runners]
    exact roster

/-- The receiver of a runner is registered once at most. -/
theorem Registry.once (h : Registry τ s) (i : Nat) :
    (commands τ).countP (Command.registers (Receiver.isInbox i)) ≤ 1 := by
  obtain ⟨own, roster, -⟩ := h.roster
  exact roster.once i

/-- The receiver of a runner is registered with the service of the runner. -/
theorem Registry.service (h : Registry τ s) {service : D.Service}
    (hmem : .register (.inbox service i) ∈ commands τ) :
    ∃ t, s.runners[i]? = some t ∧ t.service = service := by
  obtain ⟨own, roster, -⟩ := h.roster
  have hservice := roster.enrolled service i hmem
  rw [services, List.getElem?_map, Option.map_eq_some_iff] at hservice
  exact hservice

end System

end Reveille
