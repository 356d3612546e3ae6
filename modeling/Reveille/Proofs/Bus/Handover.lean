import Reveille.Proofs.Bus.Stop

/-!
# What one receiver is handed

A receiver is registered once.  The events behind its registration (`eventsAfter`) are handed to it one by
one, in the order in which the worker takes them: it was handed those before (`handed`), and will be handed
the event that the worker is at, unless that was done (`coming`).

Nothing is left out on the way, but the receiver may leave or the worker may die before it gets everything.
As long as it does not leave (`leaves`), nothing is missing, up to the event over which the worker died
(`Run.hands_over`).
-/

namespace Reveille.Bus

variable {R E : Type}

namespace Command

def event? : Command R E → Option E
  | .event e => some e
  | .register _ => none

def registers (mine : R → Bool) : Command R E → Bool
  | .event _ => false
  | .register r => mine r

end Command

def events (T : List (Command R E)) : List E := T.filterMap Command.event?

def eventsAfter (mine : R → Bool) (T : List (Command R E)) : List E :=
  events (T.dropWhile fun x => !x.registers mine)

section
variable {mine : R → Bool} {T T' : List (Command R E)} {x : Command R E}

theorem events_append : events (T ++ T') = events T ++ events T' := List.filterMap_append

theorem eventsAfter_of_none (h : T.any (Command.registers mine) = false) : eventsAfter mine T = [] := by
  have hdrop : (T.dropWhile fun x => !x.registers mine) = [] := by
    rw [List.dropWhile_eq_nil_iff]
    rw [List.any_eq_false] at h
    simpa using h
  rw [eventsAfter, hdrop]
  rfl

theorem eventsAfter_append_of_some (h : T.any (Command.registers mine) = true) :
    eventsAfter mine (T ++ T') = eventsAfter mine T ++ events T' := by
  have hdrop : (T.dropWhile fun x => !x.registers mine).isEmpty = false := by
    rw [List.isEmpty_eq_false_iff, ne_eq, List.dropWhile_eq_nil_iff]
    simpa using h
  rw [eventsAfter, List.dropWhile_append, hdrop, if_neg Bool.false_ne_true, events_append]
  rfl

theorem eventsAfter_append_of_none (h : T.any (Command.registers mine) = false) :
    eventsAfter mine (T ++ T') = eventsAfter mine T' := by
  have hdrop : (T.dropWhile fun x => !x.registers mine).isEmpty = true := by
    rw [List.isEmpty_iff, List.dropWhile_eq_nil_iff]
    rw [List.any_eq_false] at h
    simpa using h
  rw [eventsAfter, List.dropWhile_append, hdrop, if_pos rfl]
  rfl

theorem eventsAfter_event {e : E} : eventsAfter mine (T ++ [.event e]) =
    eventsAfter mine T ++ if T.any (Command.registers mine) then [e] else [] := by
  cases h : T.any (Command.registers mine) with
  | true => exact eventsAfter_append_of_some h
  | false => rw [eventsAfter_append_of_none h, eventsAfter_of_none h]; rfl

theorem eventsAfter_register {r : R} :
    eventsAfter mine (T ++ [.register r]) = eventsAfter mine T := by
  cases h : T.any (Command.registers mine) with
  | true => rw [eventsAfter_append_of_some h]; exact List.append_nil _
  | false =>
    rw [eventsAfter_append_of_none h, eventsAfter_of_none h, eventsAfter]
    cases hr : mine r <;> simp [List.dropWhile, Command.registers, hr, events, Command.event?]

/-- What follows adds some of its last events. -/
theorem eventsAfter_append : ∃ more, eventsAfter mine (T ++ T') = eventsAfter mine T ++ more ∧
    more <:+ events T' := by
  cases h : T.any (Command.registers mine) with
  | true => exact ⟨events T', eventsAfter_append_of_some h, List.suffix_rfl⟩
  | false =>
    refine ⟨eventsAfter mine T', ?_, (List.dropWhile_suffix _).filterMap _⟩
    rw [eventsAfter_append_of_none h, eventsAfter_of_none h, List.nil_append]

end

namespace Worker

def lists (mine : R → Bool) (l : List (Registration R)) : Bool := l.any fun reg => mine reg.receiver

/-- An event, if a receiver that is meant is in the list. -/
def portion (mine : R → Bool) (e : E) (l : List (Registration R)) : List E :=
  if lists mine l then [e] else []

def staying (w : Worker R E) : List (Registration R) :=
  match w.phase with
  | .sorting _ _ live asked rest => live ++ asked :: rest
  | .died _ => []
  | _ => w.receivers

/-- The event that a receiver has still to be handed. -/
def coming (mine : R → Bool) (w : Worker R E) : List E :=
  match w.phase with
  | .surveying e _ _ | .sorting e _ _ _ _ | .dismissing e _ _ => portion mine e w.staying
  | .delivering e target rest => portion mine e (target :: rest)
  | _ => []

def handed? (mine : R → Bool) : Exchange (requests R E) → Option E
  | ⟨.delivering e target _, _⟩ => if mine target.receiver then some e else none
  | _ => none

def handed (mine : R → Bool) (τ : List (Exchange (requests R E))) : List E := τ.filterMap (handed? mine)

def leaves (mine : R → Bool) : Exchange (requests R E) → Bool
  | ⟨.sorting _ _ _ asked _, (reply : Except Panic Bool)⟩ =>
    mine asked.receiver && match reply with
      | .ok retired => retired
      | .error _ => false
  | _ => false

def Phase.isDead : Phase R E → Bool
  | .died _ => true
  | _ => false

variable {mine : R → Bool} {τ : List (Exchange (requests R E))} {w : Worker R E} {e : E}
  {l live retired rest : List (Registration R)} {asked : Registration R}

theorem handed_concat {x : Exchange (requests R E)} :
    handed mine (τ ++ [x]) = handed mine τ ++ (handed? mine x).toList := by
  rw [handed, List.filterMap_append]
  cases h : handed? mine x <;> simp [h, handed]

/-! ### Parts of the handling of an event -/

theorem lists_append : lists mine (l ++ rest) = (lists mine l || lists mine rest) := List.any_append

theorem lists_cons : lists mine (asked :: rest) = (mine asked.receiver || lists mine rest) :=
  List.any_cons

theorem portion_length : (portion mine e l).length ≤ 1 := by
  unfold portion
  split
  · exact Nat.le_refl 1
  · exact Nat.zero_le 1

theorem coming_length : (coming mine w).length ≤ 1 := by
  unfold coming
  split <;> first | exact portion_length | exact Nat.zero_le 1

@[simp] theorem staying_deliverTo : (w.deliverTo e l).staying = w.receivers := by
  cases l <;> rfl

@[simp] theorem coming_deliverTo : (w.deliverTo e l).coming mine = portion mine e l := by
  cases l <;> rfl

@[simp] theorem staying_dismiss : (w.dismiss e l).1.staying = w.receivers := by
  cases l with
  | nil => exact staying_deliverTo
  | cons leaving rest => rfl

@[simp] theorem coming_dismiss : (w.dismiss e l).1.coming mine = portion mine e w.receivers := by
  cases l with
  | nil => exact coming_deliverTo
  | cons leaving rest => rfl

@[simp] theorem staying_sort : (w.sort e retired live l).1.staying = live ++ l := by
  cases l with
  | nil => exact staying_dismiss.trans (List.append_nil live).symm
  | cons asked rest => rfl

@[simp] theorem coming_sort : (w.sort e retired live l).1.coming mine = portion mine e (live ++ l) := by
  cases l with
  | nil =>
    rw [List.append_nil]
    exact coming_dismiss
  | cons asked rest => rfl

@[simp] theorem staying_survey : (w.survey e l).1.staying = w.receivers := by
  cases l with
  | nil => exact staying_deliverTo
  | cons asked rest => rfl

@[simp] theorem coming_survey : (w.survey e l).1.coming mine = portion mine e w.receivers := by
  cases l with
  | nil => exact coming_deliverTo
  | cons asked rest => rfl

@[simp] theorem staying_stopAll : (w.stopAll l).1.staying = w.receivers := by
  cases l <;> rfl

@[simp] theorem coming_stopAll : (w.stopAll l).1.coming mine = [] := by
  cases l <;> rfl

/-! ### Runs -/

/-- The worker still has a receiver, or let it go. -/
structure Tended (mine : R → Bool) (τ : List (Exchange (requests R E))) (w : Worker R E) : Prop where
  known : ∀ reg ∈ w.staying, Command.register reg.receiver ∈ taken τ
  single : w.staying.countP (fun reg => mine reg.receiver) ≤ (taken τ).countP (Command.registers mine)
  targets : ∀ e target rest, w.phase = .delivering e target rest → (target :: rest).Sublist w.staying
  ahead : handed mine τ ++ coming mine w <+: eventsAfter mine (taken τ)
  complete : lists mine w.staying = true →
    handed mine τ ++ coming mine w = eventsAfter mine (taken τ)
  faithful : τ.any (leaves mine) = false → (taken τ).any (Command.registers mine) = true →
    lists mine w.staying = true ∨ w.phase.isDead = true ∧
      (eventsAfter mine (taken τ)).length ≤ (handed mine τ).length + 1

theorem taken_quiet {x : Exchange (requests R E)} (h : taken? x = none) : taken (τ ++ [x]) = taken τ := by
  rw [taken_concat, h, Option.toList_none, List.append_nil]

theorem any_leaves_concat {x : Exchange (requests R E)} (h : (τ ++ [x]).any (leaves mine) = false) :
    τ.any (leaves mine) = false ∧ leaves mine x = false := by
  rw [List.any_append, Bool.or_eq_false_iff] at h
  exact ⟨h.1, by simpa using h.2⟩

/-- A step in which no command is taken and the receiver does not leave. -/
theorem Tended.onward (h : Tended mine τ w) {x : Exchange (requests R E)} {w' : Worker R E}
    (taken : taken? x = none) (alive : w.phase.isDead = false)
    (staying : w'.staying.Sublist w.staying)
    (same : lists mine w'.staying = lists mine w.staying)
    (targets : ∀ e target rest, w'.phase = .delivering e target rest →
      (target :: rest).Sublist w'.staying)
    (handed : (handed? mine x).toList ++ coming mine w' = coming mine w) :
    Tended mine (τ ++ [x]) w' := by
  have hhanded : Worker.handed mine (τ ++ [x]) ++ coming mine w' =
      Worker.handed mine τ ++ coming mine w := by
    rw [handed_concat, List.append_assoc, handed]
  refine ⟨?_, ?_, targets, ?_, ?_, ?_⟩
  · rw [taken_quiet taken]
    exact fun reg hreg => h.known reg (staying.subset hreg)
  · rw [taken_quiet taken]
    exact (staying.countP_le).trans h.single
  · rw [taken_quiet taken, hhanded]
    exact h.ahead
  · rw [taken_quiet taken, hhanded, same]
    exact h.complete
  · rw [taken_quiet taken, same]
    intro hspared hregistered
    refine Or.inl ((h.faithful (any_leaves_concat hspared).1 hregistered).resolve_right ?_)
    rintro ⟨hdead, -⟩
    rw [alive] at hdead
    cases hdead

theorem Tended.along (h : Tended mine τ w) {x : Exchange (requests R E)} {w' : Worker R E}
    (taken : taken? x = none) (alive : w.phase.isDead = false) (staying : w'.staying = w.staying)
    (targets : ∀ e target rest, w'.phase = .delivering e target rest →
      (target :: rest).Sublist w'.staying)
    (handed : (handed? mine x).toList ++ coming mine w' = coming mine w) :
    Tended mine (τ ++ [x]) w' :=
  h.onward taken alive (staying ▸ List.Sublist.refl _) (congrArg _ staying) targets handed

theorem deliverTo_targets (h : l.Sublist w.receivers) {e' : E} {target : Registration R}
    (hp : (w.deliverTo e l).phase = .delivering e' target rest) :
    (target :: rest).Sublist (w.deliverTo e l).staying := by
  cases l with
  | nil => cases hp
  | cons target' rest' =>
    cases hp
    exact h

theorem dismiss_targets {e' : E} {target : Registration R}
    (hp : (w.dismiss e l).1.phase = .delivering e' target rest) :
    (target :: rest).Sublist (w.dismiss e l).1.staying := by
  cases l with
  | nil => exact deliverTo_targets (w := { w with count := _ }) (List.Sublist.refl _) hp
  | cons leaving rest' => cases hp

theorem sort_targets {e' : E} {target : Registration R}
    (hp : (w.sort e retired live l).1.phase = .delivering e' target rest) :
    (target :: rest).Sublist (w.sort e retired live l).1.staying := by
  cases l with
  | nil => exact dismiss_targets hp
  | cons asked rest' => cases hp

theorem survey_targets {e' : E} {target : Registration R}
    (hp : (w.survey e l).1.phase = .delivering e' target rest) :
    (target :: rest).Sublist (w.survey e l).1.staying := by
  cases l with
  | nil => exact deliverTo_targets (List.Sublist.refl _) hp
  | cons asked rest' => cases hp

theorem not_stopAll_delivering {e' : E} {target : Registration R}
    (hp : (w.stopAll l).1.phase = .delivering e' target rest) : False := by
  cases l <;> cases hp

/-- Of several receivers that are meant there would be several registrations. -/
theorem not_lists_rest (h : (live ++ asked :: rest).countP (fun reg => mine reg.receiver) ≤ 1)
    (hmine : mine asked.receiver = true) : lists mine (live ++ rest) = false := by
  have hasked : (asked :: rest).countP (fun reg => mine reg.receiver) =
      rest.countP (fun reg => mine reg.receiver) + 1 := List.countP_cons_of_pos hmine
  rw [List.countP_append, hasked] at h
  have hnone : (live ++ rest).countP (fun reg => mine reg.receiver) = 0 := by
    rw [List.countP_append]
    omega
  rw [lists, List.any_eq_false]
  rw [List.countP_eq_zero] at hnone
  exact hnone

theorem lists_eq_false_of_none (h : ∀ reg ∈ l, Command.register (E := E) reg.receiver ∈ taken τ)
    (hnone : (taken τ).any (Command.registers mine) = false) : lists mine l = false := by
  rw [List.any_eq_false] at hnone
  rw [lists, List.any_eq_false]
  exact fun reg hreg => hnone _ (h reg hreg)

theorem any_registers_concat {x : Exchange (requests R E)} :
    (taken (τ ++ [x])).any (Command.registers mine) =
      ((taken τ).any (Command.registers mine) || (taken? x).any (Command.registers mine)) := by
  rw [taken_concat, List.any_append]
  cases taken? x <;> simp

theorem Tended.take_event (h : Tended mine τ w) (waiting : w.phase = .waiting) (e : E) :
    Tended mine (τ ++ [⟨.waiting, some (.event e)⟩]) (w.survey e w.receivers).1 := by
  obtain ⟨receivers, registered, count, phase⟩ := w
  obtain rfl : phase = .waiting := waiting
  obtain ⟨hknown, hsingle, -, hahead, hcomplete, hfaithful⟩ := h
  have htaken : taken (τ ++ [⟨.waiting, some (.event e)⟩]) = taken τ ++ [.event e] := taken_concat _
  have hhanded : handed mine (τ ++ [⟨.waiting, some (.event e)⟩]) = handed mine τ :=
    handed_concat.trans (List.append_nil _)
  have hcoming : coming mine (⟨receivers, registered, count, .waiting⟩ : Worker R E) = [] := rfl
  rw [hcoming, List.append_nil] at hahead hcomplete
  have full (hlists : lists mine receivers = true) :
      handed mine τ ++ portion mine e receivers = eventsAfter mine (taken τ ++ [.event e]) := by
    have hregistered : (taken τ).any (Command.registers mine) = true := by
      rw [← Bool.not_eq_false]
      intro hnone
      have hout : lists mine receivers = false := lists_eq_false_of_none hknown hnone
      rw [hout] at hlists
      cases hlists
    rw [eventsAfter_event, if_pos hregistered, hcomplete hlists, portion, if_pos hlists]
  refine ⟨?_, ?_, fun _ _ _ hp => survey_targets hp, ?_, ?_, ?_⟩
  · rw [htaken, staying_survey]
    exact fun reg hreg => List.mem_append_left _ (hknown reg hreg)
  · rw [htaken, staying_survey, List.countP_append]
    exact hsingle
  · rw [htaken, hhanded, coming_survey]
    cases hlists : lists mine receivers with
    | true => exact full hlists ▸ List.prefix_rfl
    | false =>
      rw [portion, hlists, if_neg Bool.false_ne_true, List.append_nil, eventsAfter_event]
      exact hahead.trans (List.prefix_append _ _)
  · rw [htaken, hhanded, coming_survey, staying_survey]
    exact full
  · rw [any_registers_concat, staying_survey]
    intro hspared hregistered
    refine Or.inl ((hfaithful (any_leaves_concat hspared).1 ?_).resolve_right nofun)
    simpa [taken?, Command.registers] using hregistered

theorem Tended.take_register (h : Tended mine τ w) (waiting : w.phase = .waiting) (r : R)
    (once : (taken τ ++ [Command.register r]).countP (Command.registers mine) ≤ 1) :
    Tended mine (τ ++ [⟨.waiting, some (.register r)⟩]) (w.register r).1 := by
  obtain ⟨receivers, registered, count, phase⟩ := w
  obtain rfl : phase = .waiting := waiting
  obtain ⟨hknown, hsingle, -, hahead, hcomplete, hfaithful⟩ := h
  have htaken : taken (τ ++ [⟨.waiting, some (.register r)⟩]) = taken τ ++ [.register r] :=
    taken_concat _
  have hhanded : handed mine (τ ++ [⟨.waiting, some (.register r)⟩]) = handed mine τ :=
    handed_concat.trans (List.append_nil _)
  have hlisted : lists mine (receivers ++ [Registration.mk registered r]) =
      (lists mine receivers || mine r) := by
    rw [lists_append, lists_cons]
    exact congrArg _ (Bool.or_false _)
  refine ⟨?_, ?_, nofun, ?_, ?_, ?_⟩
  · rw [htaken]
    intro reg hreg
    rcases List.mem_append.mp hreg with hreg | hreg
    · exact List.mem_append_left _ (hknown reg hreg)
    · obtain rfl := List.mem_singleton.mp hreg
      exact List.mem_append_right _ List.mem_cons_self
  · rw [htaken, List.countP_append]
    show (receivers ++ [Registration.mk registered r]).countP _ ≤ _
    rw [List.countP_append]
    refine Nat.add_le_add hsingle (Nat.le_of_eq ?_)
    cases hr : mine r <;> simp [Command.registers, hr]
  · rw [htaken, hhanded, eventsAfter_register]
    exact hahead
  · rw [htaken, hhanded, eventsAfter_register]
    intro hlists
    replace hlists : lists mine (receivers ++ [Registration.mk registered r]) = true := hlists
    cases hr : mine r with
    | false =>
      rw [hlisted, hr, Bool.or_false] at hlists
      exact hcomplete hlists
    | true =>
      -- It was not registered before, so that there was nothing for it.
      rw [List.countP_append, List.countP_singleton, Command.registers, hr, if_pos rfl] at once
      have hnone : (taken τ).any (Command.registers mine) = false := by
        have hzero : (taken τ).countP (Command.registers mine) = 0 := by omega
        rw [List.any_eq_false]
        exact List.countP_eq_zero.mp hzero
      have hempty := eventsAfter_of_none hnone
      rw [hempty, List.prefix_nil] at hahead
      rw [hempty]
      exact hahead
  · intro hspared hregistered
    left
    show lists mine (receivers ++ [Registration.mk registered r]) = true
    rw [hlisted]
    cases hr : mine r with
    | true => exact Bool.or_true _
    | false =>
      rw [Bool.or_false]
      refine (hfaithful (any_leaves_concat hspared).1 ?_).resolve_right nofun
      simpa [any_registers_concat, taken?, Command.registers, hr] using hregistered

theorem Tended.die (h : Tended mine τ w) {x : Exchange (requests R E)} {p : Panic}
    (taken : taken? x = none) (handed : handed? mine x = none) (alive : w.phase.isDead = false) :
    Tended mine (τ ++ [x]) (w.die p).1 := by
  have hhanded : Worker.handed mine (τ ++ [x]) = Worker.handed mine τ := by
    rw [handed_concat, handed, Option.toList_none, List.append_nil]
  have hahead : Worker.handed mine τ <+: eventsAfter mine (Worker.taken τ) :=
    (List.prefix_append _ _).trans h.ahead
  refine ⟨nofun, Nat.zero_le _, nofun, ?_, nofun, ?_⟩
  · rw [hhanded, taken_quiet taken]
    exact (List.append_nil _).symm ▸ hahead
  · rw [hhanded, taken_quiet taken]
    intro hspared hregistered
    refine Or.inr ⟨rfl, ?_⟩
    rcases h.faithful (any_leaves_concat hspared).1 hregistered with hlists | ⟨hdead, -⟩
    · rw [← h.complete hlists, List.length_append]
      exact Nat.add_le_add_left coming_length _
    · rw [alive] at hdead
      cases hdead

theorem Tended.leave (h : Tended mine τ w) {staying rest : List (Registration R)}
    (sorting : w.phase = .sorting e retired staying asked rest)
    (once : (taken τ).countP (Command.registers mine) ≤ 1) :
    Tended mine (τ ++ [⟨.sorting e retired staying asked rest, .ok true⟩])
      (w.sort e (retired ++ [asked]) staying rest).1 := by
  obtain ⟨receivers, registered, count, phase⟩ := w
  obtain rfl : phase = _ := sorting
  have hsub : (staying ++ rest).Sublist (staying ++ asked :: rest) :=
    (List.Sublist.refl staying).append (List.sublist_cons_self asked rest)
  cases hmine : mine asked.receiver with
  | true =>
    have hout : lists mine (staying ++ rest) = false := not_lists_rest (h.single.trans once) hmine
    have hleaves : leaves mine ⟨.sorting e retired staying asked rest, .ok true⟩ = true := by
      rw [leaves, hmine]
      rfl
    refine ⟨?_, ?_, fun _ _ _ hp => sort_targets hp, ?_, ?_, ?_⟩
    · rw [staying_sort, taken_quiet rfl]
      exact fun reg hreg => h.known reg (hsub.subset hreg)
    · rw [staying_sort, taken_quiet rfl]
      exact hsub.countP_le.trans h.single
    · rw [taken_quiet rfl, handed_concat, coming_sort, portion, hout]
      exact (List.prefix_append _ _).trans (by simpa [handed?] using h.ahead)
    · rw [staying_sort, hout]
      exact nofun
    · intro hspared
      rw [(any_leaves_concat hspared).2] at hleaves
      cases hleaves
  | false =>
    have hsame : lists mine (staying ++ rest) = lists mine (staying ++ asked :: rest) := by
      rw [lists_append, lists_append, lists_cons, hmine, Bool.false_or]
    refine h.onward rfl rfl ?_ ?_ (fun _ _ _ hp => sort_targets hp) ?_
    · rw [staying_sort]
      exact hsub
    · rw [staying_sort]
      exact hsame
    · rw [coming_sort, portion, hsame]
      rfl

/-- A receiver that is meant is handed an event, and no other one is left. -/
theorem portion_deliver (h : (asked :: rest).countP (fun reg => mine reg.receiver) ≤ 1) :
    (if mine asked.receiver then some e else none).toList ++ portion mine e rest =
      portion mine e (asked :: rest) := by
  cases hmine : mine asked.receiver with
  | true =>
    have hout : lists mine ([] ++ rest) = false := not_lists_rest h hmine
    rw [List.nil_append] at hout
    rw [portion, portion, lists_cons, hmine, hout]
    rfl
  | false =>
    rw [portion, portion, lists_cons, hmine, Bool.false_or]
    rfl

theorem Tended.step (h : Tended mine τ w) (reply : w.request.Reply)
    (once : (taken (τ ++ [⟨w.phase, reply⟩])).countP (Command.registers mine) ≤ 1) :
    Tended mine (τ ++ [⟨w.phase, reply⟩]) (w.resume reply).1 := by
  obtain ⟨receivers, registered, count, phase⟩ := w
  cases phase with
  | waiting =>
    match reply with
    | none =>
      exact h.along rfl rfl staying_stopAll (fun _ _ _ hp => (not_stopAll_delivering hp).elim)
        coming_stopAll
    | some (.event e) => exact h.take_event rfl e
    | some (.register r) =>
      rw [taken_concat] at once
      exact h.take_register rfl r once
  | surveying e asked rest =>
    match reply with
    | .ok true => exact h.along rfl rfl staying_sort (fun _ _ _ hp => sort_targets hp) coming_sort
    | .ok false => exact h.along rfl rfl staying_survey (fun _ _ _ hp => survey_targets hp) coming_survey
    | .error p => exact h.die rfl rfl rfl
  | sorting e retired live asked rest =>
    rw [taken_quiet rfl] at once
    match reply with
    | .ok true => exact h.leave rfl once
    | .ok false =>
      have hsame : (live ++ [asked]) ++ rest = live ++ asked :: rest := (List.append_cons _ _ _).symm
      exact h.along rfl rfl (staying_sort.trans hsame) (fun _ _ _ hp => sort_targets hp)
        (coming_sort.trans (congrArg _ hsame))
    | .error p => exact h.die rfl rfl rfl
  | dismissing e leaving rest =>
    exact h.along rfl rfl staying_dismiss (fun _ _ _ hp => dismiss_targets hp) coming_dismiss
  | delivering e target rest =>
    rw [taken_quiet rfl] at once
    have hsub : (target :: rest).Sublist receivers := h.targets e target rest rfl
    have hsingle : (target :: rest).countP (fun reg => mine reg.receiver) ≤ 1 :=
      hsub.countP_le.trans (h.single.trans once)
    refine h.along rfl rfl staying_deliverTo ?_ ?_
    · exact fun _ _ _ hp => deliverTo_targets ((List.sublist_cons_self target rest).trans hsub) hp
    · exact (congrArg _ coming_deliverTo).trans (portion_deliver hsingle)
  | stopping leaving rest =>
    exact h.along rfl rfl staying_stopAll (fun _ _ _ hp => (not_stopAll_delivering hp).elim)
      coming_stopAll
  | exited => cases reply
  | died p => cases reply

theorem Run.tended (h : Run τ w) (once : (taken τ).countP (Command.registers mine) ≤ 1) :
    Tended mine τ w := by
  induction h with
  | init => exact ⟨nofun, Nat.zero_le _, nofun, List.prefix_rfl, nofun, nofun⟩
  | @step τ w before reply ih =>
    refine (ih ?_).step reply once
    rw [taken_concat, List.countP_append] at once
    omega

/-- Whoever panics when it is asked whether it is retired takes the worker down. -/
theorem Run.composed (h : Run τ w) (alive : w.phase.isDead = false) : τ.all isComposed = true := by
  induction h with
  | init => rfl
  | @step τ w before reply ih =>
    obtain ⟨receivers, registered, count, phase⟩ := w
    rw [List.all_append, Bool.and_eq_true]
    cases phase with
    | surveying e asked rest =>
      match reply with
      | .ok retired => exact ⟨ih rfl, rfl⟩
      | .error p => cases alive
    | sorting e out live asked rest =>
      match reply with
      | .ok retired => exact ⟨ih rfl, rfl⟩
      | .error p => cases alive
    | exited => cases reply
    | died p => cases reply
    | _ => exact ⟨ih rfl, rfl⟩

/-- A receiver that is registered once is handed the events behind its registration, in order.  If it does
not leave, nothing is missing but the event that the worker is at, or that it died over. -/
theorem Run.hands_over (h : Run τ w) (once : (taken τ).countP (Command.registers mine) ≤ 1) :
    handed mine τ ++ coming mine w <+: eventsAfter mine (taken τ) ∧
    (τ.any (leaves mine) = false → ∃ lost,
      eventsAfter mine (taken τ) = handed mine τ ++ (coming mine w ++ lost) ∧
        (lost = [] ∨ w.phase.isDead = true ∧ lost.length ≤ 1)) := by
  have tended := h.tended once
  refine ⟨tended.ahead, fun spared => ?_⟩
  cases hregistered : (taken τ).any (Command.registers mine) with
  | false =>
    have hahead := tended.ahead
    rw [eventsAfter_of_none hregistered, List.prefix_nil] at hahead
    refine ⟨[], ?_, Or.inl rfl⟩
    rw [eventsAfter_of_none hregistered, List.append_nil, hahead]
  | true =>
    rcases tended.faithful spared hregistered with hlists | ⟨hdead, hlength⟩
    · exact ⟨[], by rw [List.append_nil, tended.complete hlists], Or.inl rfl⟩
    · obtain ⟨lost, hlost⟩ := tended.ahead
      refine ⟨lost, by rw [← hlost, List.append_assoc], Or.inr ⟨hdead, ?_⟩⟩
      rw [← hlost, List.length_append, List.length_append] at hlength
      omega

end Worker

end Reveille.Bus
