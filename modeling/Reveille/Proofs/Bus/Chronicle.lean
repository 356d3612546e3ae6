import Mathlib.Data.List.Nodup
import Mathlib.Data.List.TakeWhile
import Reveille.Bus.Worker

/-!
# What becomes of the commands of a bus

A chronicle lists what a worker made of its commands, oldest first: a receiver got its number, or
some receivers left and the others were handed an event (`Entry`).  It tells who is on the list
(`live`), which calls the receivers got, in order (`calls`), and which events one of them was there
for: those after its registration and before the first event ahead of which it left (`heard`).

In a valid chronicle the receivers are numbered one after another, and those who leave are on the
list (`Valid`).  Then the list is in the order of registration (`Valid.live_sublist`), a receiver is
handed just what it is there for (`Valid.events_to`), and it is told to stop once, after all of
that, if it left (`Valid.calls_to`).
-/

namespace Reveille.Bus

inductive Entry (R E : Type) where
  | registered (reg : Registration R)
  /-- These left, and everybody else was handed the event. -/
  | event (e : E) (retired : List (Registration R))

inductive Call (R E : Type) where
  | event (target : Registration R) (e : E)
  | stop (target : Registration R)
  deriving DecidableEq

variable {R E : Type}

def Call.isTo (k : Nat) : Call R E → Bool
  | .event target _ | .stop target => target.number == k

def Call.eventTo? (k : Nat) : Call R E → Option E
  | .event target e => if target.number = k then some e else none
  | .stop _ => none

namespace Entry

def command : Entry R E → Command R E
  | .registered reg => .register reg.receiver
  | .event e _ => .event e

def registered? : Entry R E → Option (Registration R)
  | .registered reg => some reg
  | .event _ _ => none

def event? : Entry R E → Option E
  | .registered _ => none
  | .event e _ => some e

def registers (k : Nat) : Entry R E → Bool
  | .registered reg => reg.number == k
  | .event _ _ => false

def drops (k : Nat) : Entry R E → Bool
  | .registered _ => false
  | .event _ retired => retired.any (·.number == k)

/-- Who of a list is on it afterwards. -/
def after (before : List (Registration R)) : Entry R E → List (Registration R)
  | .registered reg => before ++ [reg]
  | .event _ retired => before.filter fun reg => !retired.any (·.number == reg.number)

def calls (before : List (Registration R)) : Entry R E → List (Call R E)
  | .registered _ => []
  | .event e retired => retired.map .stop ++ ((event e retired).after before).map (.event · e)

end Entry

namespace Chronicle

def registered (H : List (Entry R E)) : List (Registration R) := H.filterMap Entry.registered?

/-- Who is on the list at the end. -/
def live (H : List (Entry R E)) : List (Registration R) := H.foldl Entry.after []

def callsFrom (before : List (Registration R)) : List (Entry R E) → List (Call R E)
  | [] => []
  | x :: H => x.calls before ++ callsFrom (x.after before) H

def calls (H : List (Entry R E)) : List (Call R E) := callsFrom [] H

def since (k : Nat) (H : List (Entry R E)) : List (Entry R E) := H.dropWhile fun x => !x.registers k

/-- The events after the registration of a number and before the first ahead of which it left. -/
def heard (k : Nat) (H : List (Entry R E)) : List E :=
  ((since k H).takeWhile fun x => !x.drops k).filterMap Entry.event?

/-- Numbers are given one after another, and only who is on the list leaves it. -/
inductive Valid : List (Entry R E) → Prop
  | nil : Valid []
  | register {H : List (Entry R E)} (h : Valid H) (r : R) :
      Valid (H ++ [.registered ⟨(registered H).length, r⟩])
  | fanOut {H : List (Entry R E)} (h : Valid H) (e : E) {retired : List (Registration R)}
      (leave : retired.Sublist (live H)) : Valid (H ++ [.event e retired])

variable {H : List (Entry R E)} {x : Entry R E} {reg : Registration R} {k : Nat}

theorem live_concat : live (H ++ [x]) = x.after (live H) := by
  rw [live, List.foldl_append]
  rfl

theorem callsFrom_append (before : List (Registration R)) (H' : List (Entry R E)) :
    callsFrom before (H ++ H') = callsFrom before H ++ callsFrom (H.foldl Entry.after before) H' := by
  induction H generalizing before with
  | nil => rfl
  | cons y H ih => rw [List.cons_append, callsFrom, ih, ← List.append_assoc]; rfl

theorem calls_concat : calls (H ++ [x]) = calls H ++ x.calls (live H) := by
  rw [calls, callsFrom_append, callsFrom, callsFrom, List.append_nil]
  rfl

theorem registered_concat : registered (H ++ [x]) = registered H ++ x.registered?.toList := by
  rw [registered, List.filterMap_append]
  cases x <;> rfl

/-! ### Numbers -/

theorem after_event_sublist {before retired : List (Registration R)} {e : E} :
    ((Entry.event e retired).after before).Sublist before := List.filter_sublist

/-- When nobody leaves, the list stays as it is. -/
theorem after_event_nil {before : List (Registration R)} {e : E} :
    (Entry.event e []).after before = before := List.filter_eq_self.mpr fun _ _ => rfl

theorem Valid.init (h : Valid (H ++ [x])) : Valid H := by
  generalize hH : H ++ [x] = H' at h
  cases h with
  | nil => simp at hH
  | register h r => exact (List.append_inj_left' hH rfl) ▸ h
  | fanOut h e leave => exact (List.append_inj_left' hH rfl) ▸ h

theorem Valid.numbers_registered (h : Valid H) :
    (registered H).map (·.number) = List.range (registered H).length := by
  induction h with
  | nil => rfl
  | register h r ih =>
    rw [registered_concat]
    simp [Entry.registered?, ih, List.range_succ]
  | fanOut h e leave ih =>
    rw [registered_concat]
    simpa [Entry.registered?] using ih

theorem Valid.number_lt (h : Valid H) (hreg : reg ∈ registered H) :
    reg.number < (registered H).length := by
  have := List.mem_map_of_mem (f := (·.number)) hreg
  rw [h.numbers_registered] at this
  exact List.mem_range.mp this

theorem Valid.live_sublist (h : Valid H) : (live H).Sublist (registered H) := by
  induction h with
  | nil => exact List.Sublist.refl _
  | register h r ih =>
    rw [live_concat, registered_concat]
    exact ih.append (List.Sublist.refl _)
  | fanOut h e leave ih =>
    rw [live_concat, registered_concat, Entry.registered?, Option.toList_none, List.append_nil]
    exact after_event_sublist.trans ih

theorem Valid.nodup_registered (h : Valid H) : ((registered H).map (·.number)).Nodup := by
  rw [h.numbers_registered]
  exact List.nodup_range

theorem Valid.nodup_live (h : Valid H) : ((live H).map (·.number)).Nodup :=
  (h.live_sublist.map _).nodup h.nodup_registered

/-- A number belongs to one registration. -/
theorem Valid.eq_of_number (h : Valid H) {reg' : Registration R} (hreg : reg ∈ registered H)
    (hreg' : reg' ∈ registered H) (hn : reg.number = reg'.number) : reg = reg' :=
  List.inj_on_of_nodup_map h.nodup_registered hreg hreg' hn

/-! ### From the registration on -/

theorem since_concat_of_nil (h : since k H = []) : since k (H ++ [x]) = since k [x] := by
  simp only [since] at h ⊢
  rw [List.dropWhile_append, h]
  rfl

theorem since_concat_of_ne (h : since k H ≠ []) : since k (H ++ [x]) = since k H ++ [x] := by
  simp only [since] at h ⊢
  rw [List.dropWhile_append, if_neg]
  simpa using h

theorem Valid.since_ne_nil_iff (h : Valid H) : since k H ≠ [] ↔ k < (registered H).length := by
  rw [← List.mem_range, ← h.numbers_registered, since, Ne, List.dropWhile_eq_nil_iff]
  simp only [registered, List.mem_map, List.mem_filterMap, not_forall, Bool.not_eq_true',
    Bool.not_eq_false]
  constructor
  · rintro ⟨x, hx, hk⟩
    cases x with
    | registered reg => exact ⟨reg, ⟨_, hx, rfl⟩, by simpa [Entry.registers] using hk⟩
    | event e retired => cases hk
  · rintro ⟨reg, ⟨x, hx, hreg⟩, rfl⟩
    cases x with
    | registered reg' =>
      obtain rfl := Option.some.inj hreg
      exact ⟨_, hx, by simp [Entry.registers]⟩
    | event e retired => cases hreg

theorem since_registered : since k [(.registered reg : Entry R E)] =
    if reg.number = k then [.registered reg] else [] := by
  simp only [since, List.dropWhile_cons, Entry.registers, List.dropWhile_nil]
  split <;> split <;> simp_all

theorem since_event (e : E) (retired : List (Registration R)) : since k [.event e retired] = [] := rfl

theorem mem_after_event {l retired : List (Registration R)} {e : E} :
    k ∈ ((Entry.event e retired).after l).map (·.number) ↔
      k ∈ l.map (·.number) ∧ (Entry.event e retired).drops k = false := by
  simp only [Entry.after, Entry.drops, List.mem_map, List.mem_filter, Bool.not_eq_true']
  constructor
  · rintro ⟨reg, ⟨hreg, hstays⟩, rfl⟩
    exact ⟨⟨reg, hreg, rfl⟩, hstays⟩
  · rintro ⟨⟨reg, hreg, rfl⟩, hstays⟩
    exact ⟨reg, ⟨hreg, hstays⟩, rfl⟩

/-- Whoever registered is on the list as long as no event dropped them. -/
theorem Valid.mem_live_iff (h : Valid H) : k ∈ (live H).map (·.number) ↔
    since k H ≠ [] ∧ ∀ x ∈ since k H, x.drops k = false := by
  induction h with
  | nil => simp [live, since]
  | @register H h r ih =>
    have hlive : k ∈ (live (H ++ [.registered ⟨(registered H).length, r⟩])).map (·.number) ↔
        k ∈ (live H).map (·.number) ∨ k = (registered H).length := by
      rw [live_concat, Entry.after]
      simp
    rw [hlive, ih]
    by_cases hs : since k H = []
    · rw [since_concat_of_nil hs, since_registered]
      by_cases hk : k = (registered H).length
      · simp [hk, Entry.drops]
      · simp [hs, hk, Ne.symm hk]
    · have hne := Nat.ne_of_lt (h.since_ne_nil_iff.mp hs)
      rw [since_concat_of_ne hs]
      simp [hs, hne, or_imp, forall_and, Entry.drops]
  | @fanOut H h e retired leave ih =>
    rw [live_concat, mem_after_event, ih]
    by_cases hs : since k H = []
    · simp [since_concat_of_nil hs, since_event, hs]
    · rw [since_concat_of_ne hs]
      simp [hs, or_imp, forall_and]

/-- An event is heard by those who registered, and whom no event up to it dropped. -/
theorem heard_concat : heard k (H ++ [x]) = heard k H ++
    if since k H ≠ [] ∧ ∀ y ∈ since k H, y.drops k = false then
      (if x.drops k then [] else x.event?.toList) else [] := by
  by_cases hs : since k H = []
  · have hx : ((since k [x]).takeWhile fun y => !y.drops k).filterMap Entry.event? = [] := by
      cases x with
      | registered reg =>
        rw [since_registered]
        split <;> simp [Entry.drops, Entry.event?]
      | event e retired => rfl
    rw [if_neg (fun h => h.1 hs), heard, heard, since_concat_of_nil hs, hx, hs]
    rfl
  · rw [heard, heard, since_concat_of_ne hs, List.takeWhile_append]
    by_cases hall : ∀ y ∈ since k H, y.drops k = false
    · have hself : (since k H).takeWhile (fun y => !y.drops k) = since k H := by
        simpa [List.takeWhile_eq_self_iff] using hall
      rw [hself, if_pos rfl, if_pos ⟨hs, hall⟩, List.filterMap_append]
      congr 1
      cases hx : x.drops k
      · cases he : x.event? <;> simp [hx, he]
      · simp [hx]
    · rw [if_neg, if_neg (fun h => hall h.2), List.append_nil]
      intro hlen
      have hself := (List.takeWhile_prefix (l := since k H) (fun y => !y.drops k)).eq_of_length hlen
      simp only [List.takeWhile_eq_self_iff, Bool.not_eq_true'] at hself
      exact hall hself

theorem Valid.heard_concat (h : Valid H) : heard k (H ++ [x]) = heard k H ++
    if k ∈ (x.after (live H)).map (·.number) then x.event?.toList else [] := by
  rw [Chronicle.heard_concat]
  simp only [← h.mem_live_iff]
  cases x with
  | registered reg => simp [Entry.event?]
  | event e retired =>
    simp only [mem_after_event]
    by_cases hk : k ∈ (live H).map (·.number)
    · cases hd : (Entry.event e retired).drops k <;> simp [hk]
    · simp [hk]

/-! ### The calls to one receiver -/

theorem filter_number_nil {l : List (Registration R)} (h : k ∉ l.map (·.number)) :
    l.filter (·.number == k) = [] := by
  rw [List.filter_eq_nil_iff]
  intro b hb hk
  exact h (List.mem_map.mpr ⟨b, hb, beq_iff_eq.mp hk⟩)

theorem filter_number {l : List (Registration R)} (h : (l.map (·.number)).Nodup) (hreg : reg ∈ l) :
    l.filter (·.number == reg.number) = [reg] := by
  induction l with
  | nil => cases hreg
  | cons a l ih =>
    obtain ⟨ha, hl⟩ := List.nodup_cons.mp h
    rcases List.mem_cons.mp hreg with rfl | hreg
    · rw [List.filter_cons_of_pos (by simp), filter_number_nil ha]
    · rw [List.filter_cons_of_neg, ih hl hreg]
      intro hk
      exact ha (List.mem_map.mpr ⟨reg, hreg, (beq_iff_eq.mp hk).symm⟩)

theorem Valid.filter_number (h : Valid H) {l : List (Registration R)} (hl : l.Sublist (live H))
    (hreg : reg ∈ registered H) : l.filter (·.number == reg.number) =
      if reg.number ∈ l.map (·.number) then [reg] else [] := by
  split
  · next hm =>
    obtain ⟨reg', hreg', hn⟩ := List.mem_map.mp hm
    obtain rfl := h.eq_of_number hreg ((hl.trans h.live_sublist).subset hreg') hn.symm
    exact Chronicle.filter_number ((hl.map _).nodup h.nodup_live) hreg'
  · next hm => exact filter_number_nil hm

theorem filter_calls (e : E) (before retired : List (Registration R)) :
    ((Entry.event e retired).calls before).filter (·.isTo k) =
      (retired.filter (·.number == k)).map .stop ++
        (((Entry.event e retired).after before).filter (·.number == k)).map (.event · e) := by
  rw [Entry.calls, List.filter_append, List.filter_map, List.filter_map]
  rfl

theorem Valid.not_isTo (h : Valid H) (hk : (registered H).length ≤ k) :
    (calls H).filter (·.isTo k) = [] := by
  induction h with
  | nil => rfl
  | register h r ih =>
    rw [registered_concat, List.length_append] at hk
    rw [calls_concat, List.filter_append, ih (Nat.le_trans (Nat.le_add_right _ _) hk)]
    rfl
  | @fanOut H h e retired leave ih =>
    rw [registered_concat, Entry.registered?, Option.toList_none, List.append_nil] at hk
    have hnot {l : List (Registration R)} (hl : l.Sublist (live H)) :
        l.filter (·.number == k) = [] := by
      apply filter_number_nil
      simp only [List.mem_map, not_exists, not_and]
      intro reg hreg hn
      have := h.number_lt ((hl.trans h.live_sublist).subset hreg)
      omega
    rw [calls_concat, List.filter_append, ih hk, filter_calls, hnot leave, hnot after_event_sublist]
    rfl

/-- Everybody who was registered is handed the events they were there for, and is then told to stop
if they left. -/
theorem Valid.calls_to (h : Valid H) (hreg : reg ∈ registered H) :
    (calls H).filter (·.isTo reg.number) = (heard reg.number H).map (.event reg) ++
      if reg.number ∈ (live H).map (·.number) then [] else [.stop reg] := by
  induction h with
  | nil => cases hreg
  | @register H h r ih =>
    rw [calls_concat, List.filter_append, live_concat, h.heard_concat]
    simp only [Entry.calls, List.filter_nil, List.append_nil, Entry.event?, Option.toList_none,
      ite_self]
    rw [registered_concat] at hreg
    rcases List.mem_append.mp hreg with hreg | hreg
    · have hne := Nat.ne_of_lt (h.number_lt hreg)
      rw [ih hreg]
      simp [Entry.after, hne]
    · obtain rfl : reg = ⟨(registered H).length, r⟩ := List.mem_singleton.mp hreg
      have hs : since (registered H).length H = [] := by
        by_contra hs
        exact absurd (h.since_ne_nil_iff.mp hs) (Nat.lt_irrefl _)
      rw [h.not_isTo (Nat.le_refl _), heard, hs]
      simp [Entry.after]
  | @fanOut H h e retired leave ih =>
    rw [registered_concat, Entry.registered?, Option.toList_none, List.append_nil] at hreg
    rw [calls_concat, List.filter_append, live_concat, h.heard_concat, ih hreg, filter_calls,
      h.filter_number leave hreg, h.filter_number after_event_sublist hreg]
    have hdrops : (Entry.event e retired).drops reg.number = true ↔
        reg.number ∈ retired.map (·.number) := by
      simp [Entry.drops]
    have hleave : reg.number ∈ retired.map (·.number) → reg.number ∈ (live H).map (·.number) :=
      fun hm => (leave.map _).subset hm
    simp only [mem_after_event, Bool.eq_false_iff, ne_eq, hdrops]
    by_cases hlive : reg.number ∈ (live H).map (·.number)
    · by_cases hret : reg.number ∈ retired.map (·.number)
      · simp [hlive, hret]
      · simp [hlive, hret, Entry.event?]
    · simp [hlive, mt hleave hlive]

/-- When all who are left are told to stop at the end, everybody was told so once. -/
theorem Valid.calls_at_end (h : Valid H) (hreg : reg ∈ registered H) :
    (calls H ++ (live H).map Call.stop).filter (Call.isTo reg.number) =
      (heard reg.number H).map (.event reg) ++ [.stop reg] := by
  have hstops : ((live H).map (Call.stop (E := E))).filter (·.isTo reg.number) =
      if reg.number ∈ (live H).map (·.number) then [.stop reg] else [] := by
    have hlive := h.filter_number (List.Sublist.refl _) hreg
    rw [List.filter_map]
    refine (congrArg (List.map _) hlive).trans ?_
    split <;> rfl
  rw [List.filter_append, h.calls_to hreg, hstops, List.append_assoc]
  split <;> rfl

theorem filterMap_eventTo (l : List (Call R E)) :
    l.filterMap (Call.eventTo? k) = (l.filter (·.isTo k)).filterMap (Call.eventTo? k) := by
  rw [List.filterMap_filter]
  refine List.filterMap_congr fun x _ => ?_
  cases x with
  | event target e => by_cases hk : target.number = k <;> simp [Call.eventTo?, Call.isTo, hk]
  | stop target => simp [Call.eventTo?]

/-- Everybody who was registered is handed the events they were there for. -/
theorem Valid.events_to (h : Valid H) (hreg : reg ∈ registered H) :
    (calls H).filterMap (Call.eventTo? reg.number) = heard reg.number H := by
  rw [filterMap_eventTo, h.calls_to hreg, List.filterMap_append, List.filterMap_map]
  have hstop : (if reg.number ∈ (live H).map (·.number) then [] else [.stop reg]).filterMap
      (Call.eventTo? (E := E) reg.number) = [] := by
    split <;> rfl
  have hevent : Call.eventTo? reg.number ∘ Call.event reg = (some : E → Option E) :=
    funext fun e => if_pos rfl
  rw [hstop, List.append_nil, hevent, List.filterMap_some]

end Chronicle

end Reveille.Bus
