import Reveille.Proofs.Bus.Dismissal
import Reveille.Proofs.System.Career
import Reveille.Proofs.System.Enlisting
import Reveille.Proofs.System.Reception

/-!
# The receiver of a runner that has ended

Nobody finds a runner there that has ended (`Fallen.not_found`).  So the filter of its service is not asked
about another event (`Fallen.lapse`, `Run.unfiltered`), and its receiver says that it is retired whenever it is
asked ahead of a later event (`Run.detaching`).  It is told to stop once, ahead of the next event or at the end,
and then is not on the list of the worker any more (`Detaching.detached`).
-/

namespace Reveille

open Bus Program

variable {D : Domain} {c : Cast D} {a : Actor}

/-- The runner was found there. -/
def finds (i : Nat) : Exchange D.requests → Bool
  | ⟨.isInboxOpen j, (isOpen : Bool)⟩ => isOpen && j == i
  | _ => false

/-- The receiver went on to ask the filter of the service. -/
def Visit.consults (i : Nat) (v : Visit D) : Bool := v.asked.any (finds i)

def consulted (i : Nat) (V : List (Visit D)) : List D.Event :=
  (V.filter (Visit.consults i)).map Visit.event

/-- A visit that was not over went on, and the runner was not found there in the meantime. -/
structure Visit.Continues (i : Nat) (v v' : Visit D) : Prop where
  service : v'.service = v.service
  event : v'.event = v.event
  asked : v.asked <+: v'.asked
  atHand : v.result = none
  consults : v'.consults i = v.consults i

/-- What becomes of visits when the runner is not found any more: the last of them may go on, and there may be
others. -/
inductive Lapse (i : Nat) : List (Visit D) → List (Visit D) → Prop
  | past {V later : List (Visit D)} (unfound : ∀ v ∈ later, v.consults i = false) : Lapse i V (V ++ later)
  | hand {V later : List (Visit D)} {v v' : Visit D} (continues : v.Continues i v')
      (unfound : ∀ v ∈ later, v.consults i = false) : Lapse i (V ++ [v]) (V ++ [v'] ++ later)

/-! ### Visits to a runner that is not found -/

section
variable {i : Nat}

theorem consulted_append {V V' : List (Visit D)} :
    consulted i (V ++ V') = consulted i V ++ consulted i V' := by
  rw [consulted, List.filter_append, List.map_append]
  rfl

theorem consulted_singleton {v : Visit D} :
    consulted i [v] = bif v.consults i then [v.event] else [] := by
  cases hv : v.consults i <;> simp [consulted, hv]

theorem consulted_of_unfound {V : List (Visit D)} (h : ∀ v ∈ V, v.consults i = false) :
    consulted i V = [] := by
  rw [consulted, List.filter_eq_nil_iff.mpr, List.map_nil]
  exact fun v hv => Bool.eq_false_iff.mp (h v hv)

theorem Visit.Continues.trans {v v' v'' : Visit D} (h : v.Continues i v') (h' : v'.Continues i v'') :
    v.Continues i v'' :=
  ⟨h'.service.trans h.service, h'.event.trans h.event, h.asked.trans h'.asked, h.atHand,
    h'.consults.trans h.consults⟩

theorem Lapse.refl (V : List (Visit D)) : Lapse i V V := by
  have h : Lapse i V (V ++ []) := .past (List.forall_mem_nil _)
  rwa [List.append_nil] at h

theorem unfound_append {V V' : List (Visit D)} (h : ∀ v ∈ V, v.consults i = false)
    (h' : ∀ v ∈ V', v.consults i = false) : ∀ v ∈ V ++ V', v.consults i = false :=
  fun v hv => (List.mem_append.mp hv).elim (h v) (h' v)

/-- Visits in which the runner was not found lapse into visits in which it was not. -/
theorem Lapse.unfound {V V' : List (Visit D)} (h : Lapse i V V') (unfound : ∀ v ∈ V, v.consults i = false) :
    ∀ v ∈ V', v.consults i = false := by
  cases h with
  | past later => exact unfound_append unfound later
  | hand continues later =>
    refine unfound_append (unfound_append (fun v hv => unfound v (List.mem_append_left _ hv)) ?_) later
    intro v hv
    rw [List.mem_singleton.mp hv, continues.consults]
    exact unfound _ (List.mem_append_right _ (List.mem_singleton_self _))

theorem Lapse.append {V V' : List (Visit D)} (h : Lapse i V V') (P : List (Visit D)) :
    Lapse i (P ++ V) (P ++ V') := by
  cases h with
  | past later =>
    rw [← List.append_assoc]
    exact .past later
  | hand continues later =>
    rw [← List.append_assoc, ← List.append_assoc, ← List.append_assoc]
    exact .hand continues later

/-- The visits behind some others go on by themselves. -/
theorem Lapse.of_append {P V W : List (Visit D)} (h : Lapse i (P ++ V) W) (hV : V ≠ []) :
    ∃ V', W = P ++ V' ∧ Lapse i V V' := by
  obtain ⟨V, v, rfl⟩ : ∃ U v, V = U ++ [v] := by
    simpa only [List.concat_eq_append] using (List.eq_nil_or_concat V).resolve_left hV
  generalize hU : P ++ (V ++ [v]) = U at h
  cases h with
  | @past _ later unfound =>
    subst hU
    exact ⟨V ++ [v] ++ later, by simp only [List.append_assoc], .past unfound⟩
  | @hand U later u u' continues unfound =>
    obtain ⟨rfl, hu⟩ := List.append_inj' ((List.append_assoc ..).trans hU) rfl
    cases hu
    exact ⟨V ++ [u'] ++ later, by simp only [List.append_assoc], .hand continues unfound⟩

theorem Lapse.trans {V V' V'' : List (Visit D)} (h : Lapse i V V') (h' : Lapse i V' V'') :
    Lapse i V V'' := by
  cases h with
  | @past V later unfound =>
    by_cases hlater : later = []
    · rwa [hlater, List.append_nil] at h'
    · obtain ⟨W, rfl, lapse⟩ := h'.of_append hlater
      exact .past (lapse.unfound unfound)
  | @hand V later v v' continues unfound =>
    by_cases hlater : later = []
    · rw [hlater, List.append_nil] at h'
      obtain ⟨W, rfl, lapse⟩ := h'.of_append (List.cons_ne_nil _ _)
      generalize hU : [v'] = U at lapse
      cases lapse with
      | past unfound' =>
        subst hU
        rw [← List.append_assoc]
        exact .hand continues unfound'
      | @hand U _ u u' continues' unfound' =>
        have hU : [] ++ [v'] = U ++ [u] := hU
        obtain ⟨rfl, hu⟩ := List.append_inj' hU rfl
        cases hu
        rw [List.nil_append, ← List.append_assoc]
        exact .hand (continues.trans continues') unfound'
    · obtain ⟨W, rfl, lapse⟩ := h'.of_append hlater
      exact .hand continues (lapse.unfound unfound)

theorem Lapse.consulted_eq {V V' : List (Visit D)} (h : Lapse i V V') : consulted i V' = consulted i V := by
  cases h with
  | past unfound => rw [consulted_append, consulted_of_unfound unfound, List.append_nil]
  | hand continues unfound =>
    rw [consulted_append, consulted_append, consulted_append, consulted_of_unfound unfound,
      List.append_nil, consulted_singleton, consulted_singleton, continues.consults, continues.event]

end

namespace System

variable {s s' s₀ s₁ : System D} {i n : Nat} {q : Request D} {τ τ' : List (Label D)} {l : Label D}
  {p : Worker.Phase (Receiver D) D.Event} {xs : List (Exchange D.requests)}

/-! ### Nobody is found -/

theorem Fallen.finds_eq (h : Fallen s i) {reply : q.Reply}
    (answer : s.perform c a q = some (.reply reply, s')) : finds i ⟨q, reply⟩ = false := by
  cases q with
  | isInboxOpen j =>
    cases answer
    by_cases hj : j = i
    · subst hj
      simp only [finds, not_running_of_fallen h, Bool.false_and]
    · simp only [finds, beq_eq_false_iff_ne.mpr hj, Bool.and_false]
  | _ => rfl

theorem Fallen.later (h : Fallen s i) (run : Run c s τ s') : Fallen s' i := by
  obtain ⟨e, he⟩ := ending_of_fallen h
  exact fallen_of_ending (run.ending he).1

theorem Fallen.not_found (h : Fallen s i) (run : Run c s τ s') :
    ∀ l ∈ τ, l.asked?.any (finds i) = false := by
  intro l hl
  obtain ⟨σ, σ', hτ⟩ := List.append_of_mem hl
  obtain ⟨s₁, s₂, before, happens, -⟩ := run.split hτ
  match l with
  | .began f => rfl
  | .moved a none work => rfl
  | .moved a (some ⟨q, reply⟩) work =>
    obtain ⟨s₃, answer⟩ := happens.answered
    exact (h.later before).finds_eq answer

/-! ### The filter -/

theorem lapse_hand {ys : List (Exchange D.requests)} {result : Option p.request.Reply}
    (unseen : ys.any (finds i) = false) :
    Lapse i (visit? i xs p none).toList (visit? i (xs ++ ys) p result).toList := by
  cases p with
  | delivering e target rest =>
    obtain ⟨n, receiver⟩ := target
    cases receiver with
    | sink k => exact .refl _
    | inbox service j =>
      by_cases hj : j = i
      · have continues : Visit.Continues i ⟨service, e, xs, none⟩ ⟨service, e, xs ++ ys, result⟩ := by
          refine ⟨rfl, rfl, List.prefix_append _ _, rfl, ?_⟩
          rw [Visit.consults, List.any_append, unseen, Bool.or_false]
          rfl
        simp only [visit?, hj, if_true]
        have h : Lapse i ([] ++ [_]) ([] ++ [_] ++ []) := .hand continues (List.forall_mem_nil _)
        exact h
      · simp only [visit?, hj, if_false]
        exact .refl _
  | _ => exact .refl _

theorem unfound_begun {result : Option p.request.Reply} :
    ∀ v ∈ (visit? i [] p result).toList, v.consults i = false := by
  intro v hv
  have visiting := visiting_of_visit? (Option.mem_toList.mp hv)
  cases visiting
  rfl

theorem lapse_shift (shift : Shift c s l s') (unseen : l.asked?.any (finds i) = false) :
    Lapse i (visits i τ s) (visits i (τ ++ [l]) s') := by
  have resumed {reply : s.worker.machine.phase.request.Reply} {s' : System D} : Lapse i (visits i τ s)
      (visits i (τ ++ [.moved .worker none (some ⟨s.worker.machine.phase, reply⟩)]) s') := by
    rw [visits, visits, rounds_worked, List.filterMap_append, List.append_assoc]
    refine Lapse.append (Lapse.trans ?_ (.past unfound_begun)) _
    have hround : ([⟨(rounds τ).present, ⟨s.worker.machine.phase, reply⟩⟩] : List (Round D)).filterMap
        (Round.visit? i) =
          (visit? i ((rounds τ).present ++ []) s.worker.machine.phase (some reply)).toList := by
      rw [List.append_nil, List.filterMap_cons, List.filterMap_nil]
      show _ = (Round.visit? i ⟨(rounds τ).present, ⟨s.worker.machine.phase, reply⟩⟩).toList
      cases Round.visit? i ⟨(rounds τ).present, ⟨s.worker.machine.phase, reply⟩⟩ <;> rfl
    rw [hround]
    exact lapse_hand rfl
  cases shift with
  | asked routine answer =>
    rw [visits, visits, rounds_asked]
    refine Lapse.append (lapse_hand ?_) _
    rw [List.any_cons, List.any_nil, Bool.or_false]
    exact unseen
  | served idle waiting => exact resumed
  | returned routine => exact resumed
  | panicked routine panics told => exact resumed
  | aside ha worker =>
    rw [visits, visits, rounds_aside ha, worker]
    exact .refl _

theorem visits_began {f : Activity D D.Result} : visits i (τ ++ [.began f]) (s.start f) = visits i τ s := by
  rw [visits, rounds_began]
  rfl

theorem Elsewhere.visits_eq (h : Elsewhere s s') : visits i τ s' = visits i τ s := by
  rw [visits, h.worker]
  rfl

/-- Once a runner has ended it is found in no visit, but the one at hand may go on. -/
theorem Fallen.lapse (h : Fallen s i) (run : Run c s τ' s') :
    Lapse i (visits i τ s) (visits i (τ ++ τ') s') := by
  have unseen := h.not_found run
  induction run with
  | refl =>
    rw [List.append_nil]
    exact .refl _
  | step before hs ih =>
    rw [← List.append_assoc]
    exact (ih fun l hl => unseen l (List.mem_append_left _ hl)).trans (lapse_shift (shift_of_step hs)
      (unseen _ (List.mem_append_right _ (List.mem_singleton_self _))))
  | call before f ih =>
    rw [← List.append_assoc, visits_began]
    exact ih fun l hl => unseen l (List.mem_append_left _ hl)
  | outside before hout ih =>
    rw [hout.visits_eq]
    exact ih unseen

theorem asked_of_visit? {result : Option p.request.Reply} {v : Visit D} (h : visit? i xs p result = some v) :
    v.asked = xs := by
  cases visiting_of_visit? h
  rfl

/-- Where the runner is not found the filter does not begin. -/
theorem Forwarding.unfiltered {service : Service D} {e : D.Event} {r : Routine D (Except Panic Unit)}
    (h : Forwarding service i e xs r) (unfound : xs.any (finds i) = false) :
    xs <+: [⟨.isInboxOpen i, false⟩] := by
  cases h with
  | begun => exact List.nil_prefix
  | shut => exact List.prefix_rfl
  | _ => simp [finds] at unfound

theorem unfiltered_of_path {r₀ r : Routine D p.request.Reply} {result : Option p.request.Reply} {v : Visit D}
    (begun : errand c p.request = some r₀) (path : Path r₀ xs r) (hv : visit? i xs p result = some v)
    (unfound : v.consults i = false) : v.asked <+: [⟨.isInboxOpen i, false⟩] := by
  cases visiting_of_visit? hv
  cases begun
  exact (forwarding_of_path path).unfiltered unfound

theorem unfiltered_of_closed {x : Round D} {v : Visit D} (h : Closed c x) (hv : x.visit? i = some v)
    (unfound : v.consults i = false) : v.asked <+: [⟨.isInboxOpen i, false⟩] := by
  cases h with
  | @served p reply idle =>
    cases p with
    | delivering e target rest => cases idle
    | _ => cases hv
  | returned begun path => exact unfiltered_of_path begun path hv unfound
  | panicked begun path panics told => exact unfiltered_of_path begun path hv unfound

theorem Run.unfiltered (new : s₀.IsNew) (h : Run c s₀ τ s) {v : Visit D} (hv : v ∈ visits i τ s)
    (unfound : v.consults i = false) : v.asked <+: [⟨.isInboxOpen i, false⟩] := by
  have rounded := h.rounded new
  rcases mem_visits hv with ⟨x, hx, hv⟩ | hv
  · exact unfiltered_of_closed (rounded.past x hx) hv unfound
  · cases hp : s.worker.pending with
    | none =>
      rw [rounded.idle hp] at hv
      rw [asked_of_visit? hv]
      exact List.nil_prefix
    | some r =>
      obtain ⟨r₀, begun, path⟩ := rounded.way r hp
      exact unfiltered_of_path begun path hv unfound

/-! ### The worker -/

/-- A receiver that does not find its runner says that it is retired. -/
theorem retired_of_path {k : Receiver D} {reply : Except Panic Bool}
    (path : Path ((c.isRetired k).bind fun b => .done (.ok b)) xs (.done reply))
    (unseen : ∀ x ∈ xs, finds i x = false) (hk : k.isInbox i = true) : reply = .ok true := by
  cases k with
  | sink k => cases hk
  | inbox service j =>
    obtain rfl := beq_iff_eq.mp hk
    rcases path.of_ask with ⟨-, hdone⟩ | ⟨isOpen, ys, rfl, onward⟩
    · cases hdone
    · have hshut : (isOpen && j == j) = false := unseen _ List.mem_cons_self
      rw [beq_self_eq_true, Bool.and_true] at hshut
      obtain ⟨-, hreply⟩ := Path.of_done (v := Except.ok !isOpen) onward
      rw [hshut] at hreply
      exact Program.done.inj hreply

theorem confesses_of_closed {x : Round D} (h : Closed c x) (unseen : ∀ y ∈ x.asked, finds i y = false) :
    Worker.confesses (Receiver.isInbox i) x.reply = true := by
  cases h with
  | @served p reply idle => cases p <;> first | rfl | cases idle
  | @returned p r₀ xs reply begun path =>
    cases p with
    | surveying e asked rest =>
      cases begun
      by_cases hk : asked.receiver.isInbox i = true
      · simp [Worker.confesses, retired_of_path path unseen hk]
      · simp [Worker.confesses, hk]
    | sorting e retired staying asked rest =>
      cases begun
      by_cases hk : asked.receiver.isInbox i = true
      · simp [Worker.confesses, retired_of_path path unseen hk]
      · simp [Worker.confesses, hk]
    | _ => rfl
  | @panicked p r₀ xs q rest panic reply begun path panics told =>
    cases p with
    | surveying e asked rest =>
      cases told
      simp [Worker.confesses]
    | sorting e retired staying asked rest =>
      cases told
      simp [Worker.confesses]
    | _ => rfl

theorem not_isDead_of_reply {w : Worker (Receiver D) D.Event} (reply : w.request.Reply) :
    w.phase.isDead = false := by
  have hover := not_isOver_of_reply reply
  cases hp : w.phase with
  | died panic =>
    rw [hp] at hover
    cases hover
  | _ => rfl

/-- How the worker treats the receiver of a runner that had ended when the chronicle had `n` entries. -/
structure Detaching (i n : Nat) (τ : List (Label D)) (s : System D) : Prop where
  unseen : n < (Worker.chronicle (worked τ)).length → ∀ x ∈ (rounds τ).present, finds i x = false
  dismissing : Worker.Dismissing (Receiver.isInbox i) n (Worker.chronicle (worked τ))
    s.worker.machine.phase

theorem Detaching.shift (h : Detaching i n τ s) (account : Account τ s)
    (after : Rounded c (τ ++ [l]) s') (shift : Shift c s l s')
    (unseen : l.asked?.any (finds i) = false) : Detaching i n (τ ++ [l]) s' := by
  have resumed {reply : s.worker.machine.request.Reply} {s₁ : System D}
      (after : Rounded c (τ ++ [.moved .worker none (some ⟨s.worker.machine.phase, reply⟩)])
        (s₁.resumeWorker c s.worker reply)) :
      Detaching i n (τ ++ [.moved .worker none (some ⟨s.worker.machine.phase, reply⟩)])
        (s₁.resumeWorker c s.worker reply) := by
    have alive : s.worker.machine.phase.isDead = false := not_isDead_of_reply reply
    have closed : Closed c ⟨(rounds τ).present, ⟨s.worker.machine.phase, reply⟩⟩ := by
      refine after.past _ ?_
      rw [rounds_worked]
      exact List.mem_append_right _ (List.mem_singleton_self _)
    refine ⟨fun _ x hx => ?_, ?_⟩
    · rw [rounds_worked] at hx
      cases hx
    · rw [worked_concat]
      show Worker.Dismissing _ n (Worker.chronicle (worked τ ++ [_])) _
      rw [Worker.chronicle_concat]
      exact h.dismissing.step (account.worker.faithful (account.worker.composed alive)) reply
        fun hn => confesses_of_closed closed (h.unseen hn)
  cases shift with
  | asked routine answer =>
    refine ⟨fun hn x hx => ?_, ?_⟩
    · rw [worked_quiet rfl] at hn
      rw [rounds_asked] at hx
      rcases List.mem_append.mp hx with hx | hx
      · exact h.unseen hn x hx
      · exact List.mem_singleton.mp hx ▸ unseen
    · rw [worked_quiet rfl]
      exact h.dismissing
  | served idle waiting => exact resumed after
  | returned routine => exact resumed after
  | panicked routine panics told => exact resumed after
  | aside ha worker =>
    refine ⟨?_, ?_⟩
    · rw [worked_quiet rfl, rounds_aside ha]
      exact h.unseen
    · rw [worked_quiet rfl, worker]
      exact h.dismissing

/-- From the end of a runner on its receiver is dismissed. -/
theorem Run.detaching (new : s₀.IsNew) (before : Run c s₀ τ s) (h : Fallen s i) (run : Run c s τ' s') :
    Detaching i (Worker.chronicle (worked τ)).length (τ ++ τ') s' := by
  have unseen := h.not_found run
  induction run with
  | refl =>
    rw [List.append_nil]
    exact ⟨fun hn => absurd hn (Nat.lt_irrefl _), .init⟩
  | step after hs ih =>
    have whole := before.trans after
    rw [← List.append_assoc]
    exact (ih fun l hl => unseen l (List.mem_append_left _ hl)).shift (whole.account new)
      ((whole.step hs).rounded new) (shift_of_step hs)
      (unseen _ (List.mem_append_right _ (List.mem_singleton_self _)))
  | call after f ih =>
    obtain ⟨shut, dismissing⟩ := ih fun l hl => unseen l (List.mem_append_left _ hl)
    rw [← List.append_assoc]
    refine ⟨?_, ?_⟩
    · rw [worked_quiet rfl, rounds_began]
      exact shut
    · rw [worked_quiet rfl]
      exact dismissing
  | outside after hout ih =>
    obtain ⟨shut, dismissing⟩ := ih unseen
    exact ⟨shut, hout.worker ▸ dismissing⟩

/-- What the bus does about the receiver of a runner that had ended when the chronicle had `n` entries, as seen
while the worker waits or hands out an event, and when it has exited. -/
structure Detached (i n : Nat) (τ : List (Label D)) (s : System D) : Prop where
  /-- There is one registration at most. -/
  once : (Chronicle.registered (Worker.chronicle (worked τ))).countP
    (fun reg => Receiver.isInbox i reg.receiver) ≤ 1
  /-- The receiver leaves ahead of every event that was taken since. -/
  leaves : ∀ Q e retired Q', n ≤ Q.length → Worker.chronicle (worked τ) = Q ++ .event e retired :: Q' →
    ∀ reg ∈ Chronicle.live Q, Receiver.isInbox i reg.receiver = true → reg ∈ retired
  /-- Ahead of the first of these events it is told to stop, once, and leaves the list. -/
  stopped : s.worker.machine.phase.isServing = true →
    ∀ Q e retired Q', n ≤ Q.length → Worker.chronicle (worked τ) = Q ++ .event e retired :: Q' →
      ∀ reg ∈ Chronicle.registered Q, Receiver.isInbox i reg.receiver = true →
        reg ∉ s.worker.machine.receivers ∧
        (Worker.calls (worked τ)).filter (·.isTo reg.number) =
          (Chronicle.heard reg.number ((Worker.chronicle (worked τ)).take n)).map (.event reg) ++
            [.stop reg]
  /-- When the worker has exited it was told so once. -/
  closed : s.worker.machine.phase = .exited →
    ∃ reg ∈ Chronicle.registered (Worker.chronicle (worked τ)), Receiver.isInbox i reg.receiver = true ∧
      (Worker.calls (worked τ)).filter (·.isTo reg.number) =
        (Chronicle.heard reg.number ((Worker.chronicle (worked τ)).take n)).map (.event reg) ++ [.stop reg]

theorem registered_of_taken {H : List (Entry (Receiver D) D.Event)} {k : Receiver D}
    (h : .register k ∈ H.map Entry.command) : ∃ reg ∈ Chronicle.registered H, reg.receiver = k := by
  obtain ⟨x, hx, hcommand⟩ := List.mem_map.mp h
  cases x with
  | event e retired => cases hcommand
  | registered reg =>
    exact ⟨reg, List.mem_filterMap.mpr ⟨_, hx, rfl⟩, Command.register.inj hcommand⟩

theorem Gate.taken_all (h : Gate τ s) (account : Account τ s) (exited : s.worker.machine.phase = .exited) :
    commands τ = Worker.taken (worked τ) := by
  rcases h.leaving with working | ⟨-, empty⟩
  · exact absurd working (not_working_of_isOver (by rw [exited]; rfl))
  · rw [commands, account.queue, empty, List.append_nil]

theorem Detaching.detached (h : Detaching i n τ s) (new : s₀.IsNew) (run : Run c s₀ τ s)
    (enlisted : Enlisted i (commands τ)) (hn : n ≤ (Worker.chronicle (worked τ)).length)
    (calm : s.worker.machine.phase.isServing = true ∨ s.worker.machine.phase = .exited) :
    Detached i n τ s := by
  have account := run.account new
  have told (reg : Registration (Receiver D)) (retired : List (Registration (Receiver D)))
      (drops : s.worker.machine.phase.Drops reg retired) : reg ∈ retired := by
    rcases calm with serving | exited
    · cases hp : s.worker.machine.phase <;> rw [hp] at serving drops <;> first | exact drops | cases serving
    · rw [exited] at drops
      exact drops
  have composed : (worked τ).all Worker.isComposed = true := by
    refine account.worker.composed ?_
    rcases calm with serving | exited
    · cases hp : s.worker.machine.phase <;> rw [hp] at serving <;> first | rfl | cases serving
    · rw [exited]
      rfl
  have faithful := account.worker.faithful composed
  have heard (reg) (hreg : reg ∈ Chronicle.registered (Worker.chronicle (worked τ)))
      (hmine : Receiver.isInbox i reg.receiver = true) :=
    h.dismissing.heard_eq told faithful.valid hn fun reg' hreg' hnumber =>
      faithful.valid.eq_of_number hreg' hreg hnumber ▸ hmine
  refine ⟨?_, fun Q e retired Q' hQ hH reg hlive hmine => h.dismissing.leaves told hQ hH hlive hmine,
    fun serving Q e retired Q' hQ hH reg hreg hmine => ?_, fun exited => ?_⟩
  · rw [Worker.countP_registered, faithful.commands]
    exact (run.registry new).taken_once account i
  · have gone := h.dismissing.not_live told faithful.valid hQ hH hreg hmine
    have hreg : reg ∈ Chronicle.registered (Worker.chronicle (worked τ)) := by
      rw [hH, Chronicle.registered, List.filterMap_append]
      exact List.mem_append_left _ hreg
    rw [← heard reg hreg hmine, ((account.worker.stopped_once composed).1 serving).1]
    exact ⟨gone, faithful.calls_to_gone hreg gone serving⟩
  · obtain ⟨service, enlisted⟩ := enlisted
    rw [(run.gate new composed).taken_all account exited, ← faithful.commands] at enlisted
    obtain ⟨reg, hreg, hreceiver⟩ := registered_of_taken enlisted
    have hmine : Receiver.isInbox i reg.receiver = true := by
      rw [hreceiver]
      exact beq_self_eq_true i
    refine ⟨reg, hreg, hmine, ?_⟩
    rw [← heard reg hreg hmine]
    exact ((account.worker.stopped_once composed).2 exited).2.2.2 reg hreg

/-- The receiver of a runner that has ended is told to stop once and leaves. -/
theorem Fallen.detached (h : Fallen s i) (new : s₀.IsNew) (before : Run c s₀ τ s) (run : Run c s τ' s')
    (enlisted : Enlisted i (commands τ))
    (calm : s'.worker.machine.phase.isServing = true ∨ s'.worker.machine.phase = .exited) :
    Detached i (Worker.chronicle (worked τ)).length (τ ++ τ') s' := by
  refine (before.detaching new h run).detached new (before.trans run) (enlisted.mono commands_subset) ?_ calm
  rw [worked, worked, List.filterMap_append]
  exact Worker.length_chronicle

end System

end Reveille
