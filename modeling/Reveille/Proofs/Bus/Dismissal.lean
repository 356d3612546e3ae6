import Mathlib.Data.List.Induction
import Reveille.Proofs.Bus.Handover

/-!
# Dismissing a receiver that is gone

A receiver that from some command on always says that it is retired, and never does so in vain: ahead of every
later event for which it is still on the list it leaves (`Dismissing`).  While the worker is at this event, the
receiver has left, or has still to be asked.
-/

namespace Reveille.Bus.Worker

open Chronicle

variable {R E : Type} {mine : R → Bool} {n : Nat} {H P : List (Entry R E)} {C : List (Call R E)}
  {T : List (Command R E)} {w : Worker R E} {e : E} {reg asked : Registration R}
  {retired staying l rest : List (Registration R)}

/-- The receiver left ahead of the event that the worker is at, or will be asked again whether it is
retired. -/
def Phase.Drops (reg : Registration R) (retired : List (Registration R)) : Phase R E → Prop
  | .surveying _ asked rest => reg ∈ asked :: rest
  | .sorting _ _ _ asked rest => reg ∈ retired ∨ reg ∈ asked :: rest
  | .died _ => True
  | _ => reg ∈ retired

/-- A receiver that is meant does not say that it is there. -/
def confesses (mine : R → Bool) : Exchange (requests R E) → Bool
  | ⟨.surveying _ asked _, (reply : Except Panic Bool)⟩
  | ⟨.sorting _ _ _ asked _, (reply : Except Panic Bool)⟩ =>
    !mine asked.receiver || match reply with
      | .ok isRetired => isRetired
      | .error _ => true
  | _ => true

/-- The receivers that are meant leave ahead of every event from the entry of number `n` on. -/
structure Dismissing (mine : R → Bool) (n : Nat) (H : List (Entry R E)) (p : Phase R E) : Prop where
  past : ∀ k e retired, n ≤ k → k + 1 < H.length → H[k]? = some (.event e retired) →
    ∀ reg ∈ live (H.take k), mine reg.receiver = true → reg ∈ retired
  last : ∀ P e retired, n ≤ P.length → H = P ++ [.event e retired] →
    ∀ reg ∈ live P, mine reg.receiver = true → p.Drops reg retired

theorem Dismissing.init {p : Phase R E} : Dismissing mine H.length H p := by
  refine ⟨fun k e retired hn hk => absurd hk (by omega), fun P e retired hn hH => ?_⟩
  have hlen := congrArg List.length hH
  simp at hlen
  omega

/-- The worker is at the same event, or done with it. -/
theorem Dismissing.same {p p' : Phase R E} (h : Dismissing mine n H p)
    (last : ∀ P e retired, n ≤ P.length → H = P ++ [.event e retired] →
      ∀ reg ∈ live P, mine reg.receiver = true → p.Drops reg retired → p'.Drops reg retired) :
    Dismissing mine n H p' :=
  ⟨h.past, fun P e retired hn hH reg hreg hmine =>
    last P e retired hn hH reg hreg hmine (h.last P e retired hn hH reg hreg hmine)⟩

theorem Dismissing.take {p : Phase R E} {x : Entry R E} (h : Dismissing mine n H .waiting)
    (last : ∀ e retired, n ≤ H.length → x = .event e retired →
      ∀ reg ∈ live H, mine reg.receiver = true → p.Drops reg retired) :
    Dismissing mine n (H ++ [x]) p := by
  refine ⟨fun k e retired hn hk hentry reg hreg hmine => ?_, fun P e retired hn hH reg hreg hmine => ?_⟩
  · rw [List.length_append, List.length_singleton, Nat.add_lt_add_iff_right] at hk
    rw [List.getElem?_append_left hk] at hentry
    rw [List.take_append_of_le_length hk.le] at hreg
    rcases Nat.lt_or_ge (k + 1) H.length with hlt | hge
    · exact h.past k e retired hn hlt hentry reg hreg hmine
    · obtain ⟨hk', hget⟩ := List.getElem?_eq_some_iff.mp hentry
      have hlast : H = H.take k ++ [.event e retired] := by
        rw [← hget, List.take_append_getElem, List.take_of_length_le hge]
      exact h.last (H.take k) e retired (by rwa [List.length_take_of_le hk'.le]) hlast reg hreg hmine
  · obtain ⟨rfl, hx⟩ := List.append_inj' hH rfl
    exact last e retired hn (List.singleton_inj.mp hx) reg hreg hmine

theorem Dismissing.retire {p p' : Phase R E} (h : Dismissing mine n (P ++ [.event e retired]) p)
    (last : ∀ reg ∈ live P, mine reg.receiver = true → p.Drops reg retired →
      p'.Drops reg (retired ++ [asked])) :
    Dismissing mine n (P ++ [.event e (retired ++ [asked])]) p' := by
  refine ⟨fun k e' retired' hn hk hentry reg hreg hmine => ?_, fun P' e' retired' hn hH reg hreg hmine => ?_⟩
  · rw [List.length_append, List.length_singleton, Nat.add_lt_add_iff_right] at hk
    rw [List.getElem?_append_left hk] at hentry
    rw [List.take_append_of_le_length hk.le] at hreg
    refine h.past k e' retired' hn ?_ ?_ reg ?_ hmine
    · rwa [List.length_append, List.length_singleton, Nat.add_lt_add_iff_right]
    · rwa [List.getElem?_append_left hk]
    · rwa [List.take_append_of_le_length hk.le]
  · obtain ⟨rfl, hx⟩ := List.append_inj' hH rfl
    cases hx
    exact last reg hreg hmine (h.last P e retired hn rfl reg hreg hmine)

/-! ### Parts of the handling of an event -/

theorem drops_deliverTo (h : reg ∈ retired) : (w.deliverTo e l).phase.Drops reg retired := by
  cases l <;> exact h

theorem drops_dismiss (h : reg ∈ retired) : (w.dismiss e l).1.phase.Drops reg retired := by
  cases l with
  | nil => exact drops_deliverTo h
  | cons leaving rest => exact h

theorem drops_sort {sorted : List (Registration R)} (h : reg ∈ retired ∨ reg ∈ l) :
    (w.sort e sorted staying l).1.phase.Drops reg retired := by
  cases l with
  | nil => exact drops_dismiss (h.resolve_right List.not_mem_nil)
  | cons asked rest => exact h

theorem drops_survey (h : reg ∈ l) : (w.survey e l).1.phase.Drops reg retired := by
  cases l with
  | nil => cases h
  | cons asked rest => exact h

theorem drops_stopAll (h : reg ∈ retired) : (w.stopAll l).1.phase.Drops reg retired := by
  cases l <;> exact h

/-! ### Replies -/

/-- Whoever is asked and stays is another receiver. -/
theorem mem_rest (h : reg ∈ asked :: rest) (hmine : mine reg.receiver = true)
    (stays : mine asked.receiver = false) : reg ∈ rest := by
  refine (List.mem_cons.mp h).resolve_left ?_
  rintro rfl
  rw [hmine] at stays
  cases stays

/-- Every reply of receivers that are gone keeps them leaving. -/
theorem Dismissing.step (h : Dismissing mine n H w.phase) (faithful : Faithful H C T w)
    (reply : w.request.Reply) (gone : n < H.length → confesses mine ⟨w.phase, reply⟩ = true) :
    Dismissing mine n (note H ⟨w.phase, reply⟩) (w.resume reply).1.phase := by
  obtain ⟨receivers, registered, count, phase⟩ := w
  obtain ⟨hcommands, hvalid, hnumber, hstanding⟩ := faithful
  cases phase with
  | waiting =>
    obtain ⟨hreceivers, -, -⟩ := hstanding
    obtain rfl : receivers = live H := hreceivers
    match reply with
    | none => exact h.same fun P e retired _ _ reg _ _ hdrops => drops_stopAll hdrops
    | some (.register r) => exact h.take fun e retired _ hx => by cases hx
    | some (.event e) =>
      refine h.take fun e' retired _ hx reg hreg _ => ?_
      cases hx
      exact drops_survey hreg
  | surveying e asked rest =>
    obtain ⟨P, rfl, hreceivers, -, -⟩ := hstanding
    have late {P' : List (Entry R E)} {e' : E} {retired : List (Registration R)} (hn : n ≤ P'.length)
        (hH : P ++ [.event e []] = P' ++ [.event e' retired]) :
        P' = P ∧ n < (P ++ [Entry.event e []] : List (Entry R E)).length := by
      obtain ⟨rfl, -⟩ := List.append_inj' hH rfl
      exact ⟨rfl, by rw [List.length_append, List.length_singleton]; omega⟩
    match reply with
    | .error p => exact h.same fun _ _ _ _ _ _ _ _ _ => trivial
    | .ok true =>
      refine h.same fun P' e' retired hn hH reg hreg _ _ => drops_sort (Or.inr ?_)
      obtain ⟨rfl, -⟩ := late hn hH
      exact hreceivers ▸ hreg
    | .ok false =>
      refine h.same fun P' e' retired hn hH reg hreg hmine hdrops => drops_survey ?_
      have stays : (!mine asked.receiver || false) = true := gone (late hn hH).2
      exact mem_rest hdrops hmine (by simpa using stays)
  | sorting e retired staying asked rest =>
    obtain ⟨P, sorted, rfl, -, -, -, -⟩ := hstanding
    match reply with
    | .error p => exact h.same fun _ _ _ _ _ _ _ _ _ => trivial
    | .ok true =>
      show Dismissing mine n (Worker.retire asked (P ++ [.event e retired])) _
      rw [retire_concat]
      refine h.retire fun reg _ _ hdrops => drops_sort ?_
      rcases hdrops with hold | hnew
      · exact Or.inl (List.mem_append_left _ hold)
      · rcases List.mem_cons.mp hnew with rfl | hrest
        · exact Or.inl (List.mem_append_right _ List.mem_cons_self)
        · exact Or.inr hrest
    | .ok false =>
      refine h.same fun P' e' retired' hn hH reg _ hmine hdrops => drops_sort ?_
      have hlt : n < (P ++ [Entry.event e retired] : List (Entry R E)).length := by
        rw [hH, List.length_append, List.length_singleton]
        omega
      have stays : (!mine asked.receiver || false) = true := gone hlt
      exact hdrops.imp_right fun hmem => mem_rest hmem hmine (by simpa using stays)
  | dismissing e leaving rest => exact h.same fun _ _ _ _ _ _ _ _ hdrops => drops_dismiss hdrops
  | delivering e target rest => exact h.same fun _ _ _ _ _ _ _ _ hdrops => drops_deliverTo hdrops
  | stopping leaving rest => exact h.same fun _ _ _ _ _ _ _ _ hdrops => drops_stopAll hdrops
  | exited => exact nomatch (reply : Empty)
  | died p => exact nomatch (reply : Empty)

/-! ### Receivers that have left -/

theorem countP_registered : (Chronicle.registered H).countP (fun reg => mine reg.receiver) =
    (H.map Entry.command).countP (Command.registers mine) := by
  rw [Chronicle.registered, List.countP_filterMap, List.countP_map]
  exact List.countP_congr fun x _ => by cases x <;> simp [Entry.registered?, Entry.command, Command.registers]

theorem length_retire : (retire reg H).length = H.length := by
  induction H with
  | nil => rfl
  | cons x H ih =>
    cases H with
    | nil => cases x <;> rfl
    | cons y H => cases x <;> exact congrArg Nat.succ ih

theorem length_note (x : Exchange (requests R E)) : H.length ≤ (note H x).length := by
  obtain ⟨phase, reply⟩ := x
  cases phase with
  | waiting =>
    match (reply : Option (Command R E)) with
    | none => exact Nat.le_refl _
    | some (.register r) => simp [note]
    | some (.event e) => simp [note]
  | sorting e retired staying asked rest =>
    match (reply : Except Panic Bool) with
    | .ok true => exact length_retire.ge
    | .ok false => exact Nat.le_refl _
    | .error p => exact Nat.le_refl _
  | _ => exact Nat.le_refl _

theorem length_chronicle {τ τ' : List (Exchange (requests R E))} :
    (chronicle τ).length ≤ (chronicle (τ ++ τ')).length := by
  induction τ' using List.reverseRecOn with
  | nil => rw [List.append_nil]
  | append_singleton τ' x ih =>
    rw [← List.append_assoc, chronicle_concat]
    exact ih.trans (length_note x)

/-- Nobody comes back to the list. -/
theorem live_before {Q : List (Entry R E)} (h : Valid (P ++ Q)) (hreg : reg ∈ Chronicle.registered P)
    (hlive : reg ∈ live (P ++ Q)) : reg ∈ live P := by
  induction Q using List.reverseRecOn with
  | nil => rwa [List.append_nil] at hlive
  | append_singleton Q x ih =>
    rw [← List.append_assoc] at h hlive
    refine ih h.init ?_
    rw [live_concat] at hlive
    cases x with
    | event e retired => exact after_event_sublist.subset hlive
    | registered new =>
      refine (List.mem_append.mp hlive).resolve_right fun hnew => ?_
      obtain rfl := List.mem_singleton.mp hnew
      have hnodup := h.nodup_registered
      have hmem : reg ∈ Chronicle.registered (P ++ Q) := by
        rw [Chronicle.registered, List.filterMap_append]
        exact List.mem_append_left _ hreg
      rw [registered_concat, List.map_append] at hnodup
      exact List.disjoint_of_nodup_append hnodup (List.mem_map_of_mem hmem)
        (List.mem_singleton_self _)

theorem valid_of_append {Q : List (Entry R E)} (h : Valid (P ++ Q)) : Valid P := by
  induction Q using List.reverseRecOn with
  | nil => rwa [List.append_nil] at h
  | append_singleton Q x ih =>
    rw [← List.append_assoc] at h
    exact ih h.init

section
variable {p : Phase R E} {Q Q' : List (Entry R E)} (h : Dismissing mine n H p)
  (told : ∀ reg retired, p.Drops reg retired → reg ∈ retired)
include h told

/-- Once the worker has told the retired receivers apart, everybody who is meant left ahead of the event. -/
theorem Dismissing.leaves (hn : n ≤ Q.length) (hH : H = Q ++ .event e retired :: Q')
    (hlive : reg ∈ live Q) (hmine : mine reg.receiver = true) : reg ∈ retired := by
  subst hH
  cases Q' with
  | nil => exact told reg retired (h.last Q e retired hn rfl reg hlive hmine)
  | cons x Q' =>
    refine h.past Q.length e retired hn ?_ ?_ reg ?_ hmine
    · simp
    · simp
    · rwa [List.take_left]

/-- Whoever was on the list before an event is not on it any more. -/
theorem Dismissing.not_live (valid : Valid H) (hn : n ≤ Q.length) (hH : H = Q ++ .event e retired :: Q')
    (hreg : reg ∈ Chronicle.registered Q) (hmine : mine reg.receiver = true) : reg ∉ live H := by
  intro hlive
  have hsplit : H = Q ++ [.event e retired] ++ Q' := by simpa using hH
  have hafter : reg ∈ live (Q ++ [.event e retired]) := by
    refine live_before (hsplit ▸ valid) ?_ (hsplit ▸ hlive)
    rw [Chronicle.registered, List.filterMap_append]
    exact List.mem_append_left _ hreg
  rw [live_concat] at hafter
  obtain ⟨hbefore, hstays⟩ := List.mem_filter.mp hafter
  have hleft : retired.any (·.number == reg.number) = true :=
    List.any_eq_true.mpr ⟨reg, h.leaves told hn hH hbefore hmine, beq_iff_eq.mpr rfl⟩
  rw [hleft] at hstays
  cases hstays

/-- Nothing is heard that was taken since. -/
theorem Dismissing.heard_eq (valid : Valid H) (hn : n ≤ H.length) {k : Nat}
    (hmine : ∀ reg ∈ Chronicle.registered H, reg.number = k → mine reg.receiver = true) :
    heard k H = heard k (H.take n) := by
  -- The entries since then are added one by one.
  suffices key : ∀ Q Q', H = H.take n ++ Q ++ Q' → heard k (H.take n ++ Q) = heard k (H.take n) by
    have hall := key (H.drop n) [] (by simp)
    rwa [List.take_append_drop] at hall
  intro Q
  induction Q using List.reverseRecOn with
  | nil => exact fun _ _ => by rw [List.append_nil]
  | append_singleton Q x ih =>
    intro Q' hH
    have hH' : H = (H.take n ++ Q) ++ x :: Q' := by simpa using hH
    have hvalid : Valid (H.take n ++ Q ++ [x]) := by
      refine valid_of_append (Q := Q') ?_
      rw [hH'] at valid
      simpa using valid
    rw [← List.append_assoc, hvalid.init.heard_concat, ih (x :: Q') hH']
    cases x with
    | registered reg => simp [Entry.event?]
    | event e retired =>
      rw [if_neg, List.append_nil]
      intro hk
      obtain ⟨reg, hafter, hnumber⟩ := List.mem_map.mp hk
      obtain ⟨hbefore, hstays⟩ := List.mem_filter.mp hafter
      have hreg : reg ∈ Chronicle.registered H := by
        rw [hH', Chronicle.registered, List.filterMap_append]
        exact List.mem_append_left _ (hvalid.init.live_sublist.subset hbefore)
      have hleft : retired.any (·.number == reg.number) = true :=
        List.any_eq_true.mpr ⟨reg, h.leaves told ?_ hH' hbefore (hmine reg hreg hnumber),
          beq_iff_eq.mpr rfl⟩
      · rw [hleft] at hstays
        cases hstays
      · rw [List.length_append, List.length_take_of_le hn]
        exact Nat.le_add_right n _

end

/-- Whoever left was told to stop once, after all of the events that it was there for. -/
theorem Faithful.calls_to_gone (h : Faithful H C T w) (hreg : reg ∈ Chronicle.registered H)
    (gone : reg ∉ live H) (serving : w.phase.isServing = true) :
    C.filter (·.isTo reg.number) = (heard reg.number H).map (.event reg) ++ [.stop reg] := by
  have hnumber : reg.number ∉ (live H).map (·.number) := by
    intro hmem
    obtain ⟨reg', hlive, heq⟩ := List.mem_map.mp hmem
    rw [h.valid.eq_of_number (h.valid.live_sublist.subset hlive) hreg heq] at hlive
    exact gone hlive
  have hcalls := h.valid.calls_to hreg
  rw [if_neg hnumber] at hcalls
  obtain ⟨receivers, registered, count, phase⟩ := w
  cases phase with
  | waiting =>
    obtain ⟨-, -, rfl⟩ := h.standing
    exact hcalls
  | delivering e target rest =>
    have hdelivering := h.calls_delivering (show _ = Worker.Phase.delivering e target rest from rfl)
    obtain ⟨-, -, -, P, retired, told, -, -, -, hlive, -⟩ := h
    have hothers : ((target :: rest).map (Call.event · e)).filter (·.isTo reg.number) = [] := by
      refine List.filter_eq_nil_iff.mpr fun call hcall heq => hnumber ?_
      obtain ⟨other, hother, rfl⟩ := List.mem_map.mp hcall
      rw [← beq_iff_eq.mp heq, hlive]
      exact List.mem_map_of_mem (List.mem_append_right _ hother)
    rw [← hcalls, ← hdelivering, List.filter_append, hothers, List.append_nil]
  | _ => cases serving

end Reveille.Bus.Worker
