import Reveille.Proofs.System.Closer
import Reveille.Proofs.System.Operation
import Reveille.Proofs.System.Settling
import Reveille.Proofs.System.Traffic

/-!
# Closing is a clean cut

Whatever is sent, registered and closed, by however many callers and in whatever order they go on: an
operation succeeds just if its item was committed before closing began, and then the worker has handled
the item when the close comes back; all other operations are turned away, and nobody ever sees their
items; and of all requests to close the first one succeeds and the others do nothing
(`Run.cuts_cleanly`).
-/

namespace Reveille.System

open Bus Bus.Worker
open Program (Path)

section
variable {D : Domain}

/-- Everything that was committed was handled, and all receivers have stopped. -/
structure Handled (τ : List (Label D)) (s : System D) : Prop where
  exited : s.worker.machine.phase = .exited
  commands : (chronicle (worked τ)).map Entry.command = (committed τ).map Prod.snd
  valid : Chronicle.Valid (chronicle (worked τ))
  calls : Worker.calls (worked τ) = Chronicle.calls (chronicle (worked τ)) ++
    (Chronicle.live (chronicle (worked τ))).map .stop
  each : ∀ reg ∈ Chronicle.registered (chronicle (worked τ)),
    (Worker.calls (worked τ)).filter (·.isTo reg.number) =
      (Chronicle.heard reg.number (chronicle (worked τ))).map (.event reg) ++ [.stop reg]

theorem Account.handled {τ : List (Label D)} {s : System D} (account : Account τ s) (gate : Gate τ s)
    (composed : (worked τ).all isComposed = true) (ended : s.worker.machine.phase.isOver = true) :
    Handled τ s := by
  have faithful := account.worker.faithful composed
  have hqueue := (gate.leaving.resolve_left (not_working_of_isOver ended)).2
  obtain ⟨hexited, hcalls⟩ := faithful.calls_over ended
  refine ⟨hexited, ?_, faithful.valid, hcalls, fun reg hreg => ?_⟩
  · rw [faithful.commands, account.queue, hqueue, List.append_nil]
  · rw [hcalls]
    exact faithful.valid.calls_at_end hreg

/-- Whoever was told that the worker has ended was told the truth. -/
theorem Gate.over_of_told {τ : List (Label D)} {s : System D} (gate : Gate τ s) {a : Actor}
    {x : Exchange D.requests} (hx : x ∈ told a τ) (reports : reportsEnd x = true) :
    s.worker.machine.phase.isOver = true := by
  obtain ⟨l, hl, htold⟩ := mem_told.mp hx
  obtain ⟨work, rfl⟩ := told?_eq_some.mp htold
  exact gate.reported (List.any_eq_true.mpr ⟨_, hl, reports⟩)

end

variable {E K X : Type} {Q : Signature} {ops : List (Operation E K)} {c : Cast (busDomain E K Q X)}
  {τ : List (Label (busDomain E K Q X))} {s₀ s s' : System (busDomain E K Q X)}

structure CleanCut (ops : List (Operation E K)) (c : Cast (busDomain E K Q X))
    (τ : List (Label (busDomain E K Q X))) (s : System (busDomain E K Q X)) : Prop where
  /-- Closing begins with the first request to close. -/
  first : ∀ l ∈ beforeClosing τ, ∀ reply : Bool, l.asked? ≠ some ⟨.beginClose, reply⟩
  /-- It is a close that requests it, or else a receiver that waits for itself from then on. -/
  closer : ∀ a, closedBy? τ = some a → (∃ i, a = .call i ∧ ops[i]? = some .close) ∨
    a = .worker ∧ s.worker.machine.phase.isCalling = true
  cut : committed τ = committed (beforeClosing τ)
  /-- An operation succeeds just if its item was committed before closing began. -/
  sending : ∀ i op item r, ops[i]? = some op → op.item? = some item → s.result? i = some r →
    r = .ok (.ok ()) ∧ committedBy (.call i) (beforeClosing τ) = [item] ∨
    r = .ok (.error .closed) ∧ committedBy (.call i) τ = [] ∧ closedBy? τ ≠ none ∨
    r = .ok (.error .full) ∧ committedBy (.call i) τ = [] ∧
      ∃ e, op = .trySend e ∧ ⟨.trySend e, .error .full⟩ ∈ told (.call i) (beforeClosing τ)
  /-- The call that began closing succeeds once everything is handled. -/
  closing : ∀ i r, ops[i]? = some .close → s.result? i = some r →
    r = .ok (.ok ()) ∧ closedBy? τ = some (.call i) ∧ Handled τ s ∨
    r = .ok (.error .alreadyClosed) ∧ ∃ a, closedBy? τ = some a ∧ a ≠ .call i
  /-- Receivers are handed nothing but what was committed. -/
  seen : (chronicle (worked τ)).map Entry.command <+: (committed τ).map Prod.snd ∧
    Worker.calls (worked τ) <+: Chronicle.calls (chronicle (worked τ)) ++
      (Chronicle.live (chronicle (worked τ))).map .stop
  /-- A close that is not the first does nothing. -/
  still : ∀ i s', ops[i]? = some .close → closedBy? τ ≠ none → s.step c (.call i) = some s' →
    s'.channel = s.channel ∧ s'.worker = s.worker
  /-- When nobody can go on and no receiver is at work, every operation has come back. -/
  returns : s.isSettled c = true → s.worker.machine.phase.isCalling = false →
    ∀ i < ops.length, s.result? i ≠ none
  /-- Exactly one close succeeds then. -/
  one : s.isSettled c = true → s.worker.machine.phase.isCalling = false → .close ∈ ops →
    ∃! i, ops[i]? = some .close ∧ s.result? i = some (.ok (.ok ()))
  /-- Once closing has begun nobody can go on for ever. -/
  ends : closedBy? τ ≠ none → Acc (Next c) s

/-! ### Operations -/

theorem Followed.operation (h : Followed τ s) (began : began τ = ops.map Operation.activity) {i : Nat}
    {op : Operation E K} (hop : ops[i]? = some op) :
    ∃ task, s.calls[i]? = some task ∧ Follows op.activity.routine (told (.call i) τ) task := by
  refine h.follows i op.activity ?_
  rw [began, List.getElem?_map, hop]
  rfl

theorem Followed.sending (h : Followed τ s) (began : began τ = ops.map Operation.activity)
    (timely : timelyFrom false τ = true) {i : Nat} {op : Operation E K}
    {item : Command (Receiver (busDomain E K Q X)) E} {r} (hop : ops[i]? = some op)
    (hitem : op.item? = some item) (result : s.result? i = some r) :
    r = .ok (.ok ()) ∧ committedBy (.call i) (beforeClosing τ) = [item] ∨
    r = .ok (.error .closed) ∧ committedBy (.call i) τ = [] ∧ closedBy? τ ≠ none ∨
    r = .ok (.error .full) ∧ committedBy (.call i) τ = [] ∧
      ∃ e, op = .trySend e ∧ ⟨.trySend e, .error .full⟩ ∈ told (.call i) (beforeClosing τ) := by
  obtain ⟨task, htask, hfollows⟩ := h.operation began hop
  cases htask.symm.trans (calls_of_result result)
  obtain ⟨v, rfl, hsending⟩ := Operation.sending_of_ended hfollows
    (fun _ x hx => timely_of_told timely hx) hitem
  have hbefore : committedBy (.call i) (beforeClosing τ) = (told (.call i) τ).filterMap committed? := by
    rw [committedBy, ← committed_beforeClosing timely]
    exact committedBy_eq
  rw [hbefore, committedBy_eq]
  generalize hxs : told (.call i) τ = xs at hsending ⊢
  cases hsending with
  | sent once => exact Or.inl ⟨rfl, once⟩
  | refused nothing late =>
    obtain ⟨x, hx, hlate⟩ := late
    have hclosed := closed_of_told timely (hxs ▸ hx) hlate
    rw [closed_eq, Option.isSome_iff_ne_none] at hclosed
    exact Or.inr (Or.inl ⟨rfl, nothing, hclosed⟩)
  | full impatient =>
    refine Or.inr (Or.inr ⟨rfl, rfl, _, impatient, told_beforeClosing timely ?_ rfl rfl⟩)
    rw [hxs]
    exact List.mem_singleton.mpr rfl

theorem Followed.closing (h : Followed τ s) (began : began τ = ops.map Operation.activity)
    (gate : Gate τ s) (account : Account τ s) (composed : (worked τ).all isComposed = true) {i : Nat} {r}
    (hop : ops[i]? = some .close) (result : s.result? i = some r) :
    r = .ok (.ok ()) ∧ closedBy? τ = some (.call i) ∧ Handled τ s ∨
    r = .ok (.error .alreadyClosed) ∧ ∃ a, closedBy? τ = some a ∧ a ≠ .call i := by
  obtain ⟨task, htask, hfollows⟩ := h.operation began hop
  cases htask.symm.trans (calls_of_result result)
  obtain ⟨v, rfl, hclosing⟩ := Operation.closing_of_ended hfollows
  generalize hxs : told (.call i) τ = xs at hclosing
  cases hclosing with
  | late =>
    have hmem : ⟨.beginClose, false⟩ ∈ told (.call i) τ := hxs ▸ List.mem_singleton.mpr rfl
    have hclosed := closed_of_told gate.timely hmem rfl
    rw [closed_eq, Option.isSome_iff_exists] at hclosed
    obtain ⟨a, ha⟩ := hclosed
    refine Or.inr ⟨rfl, a, ha, ?_⟩
    rintro rfl
    obtain ⟨x, hx, hcloses⟩ := told_of_closedBy? ha
    rw [hxs, List.mem_singleton] at hx
    subst hx
    cases hcloses
  | @finished ys reported nothing =>
    have hmem : ⟨.beginClose, true⟩ ∈ told (.call i) τ := hxs ▸ List.mem_cons_self
    obtain ⟨y, hy, reports⟩ := List.any_eq_true.mp reported
    have ended := gate.over_of_told (hxs ▸ List.mem_cons_of_mem _ hy : y ∈ told (.call i) τ) reports
    exact Or.inl ⟨rfl, closedBy?_of_told gate.timely hmem rfl, account.handled gate composed ended⟩

theorem Followed.closer (h : Followed τ s) (began : began τ = ops.map Operation.activity) {i : Nat}
    (closer : closedBy? τ = some (.call i)) : ops[i]? = some .close := by
  obtain ⟨x, hx, hcloses⟩ := told_of_closedBy? closer
  have hlen : i < ops.length := by
    by_contra hi
    rw [h.unborn i (by rw [h.length, began, List.length_map]; omega)] at hx
    cases hx
  obtain ⟨op, hop⟩ : ∃ op, ops[i]? = some op := ⟨_, List.getElem?_eq_getElem hlen⟩
  obtain ⟨task, -, hfollows⟩ := h.operation began hop
  obtain ⟨r, path⟩ := hfollows.path
  by_contra hne
  have hop' : op ≠ .close := fun h => hne (h ▸ hop)
  exact path.only (Operation.only hop') x hx (request_of_closes hcloses)

/-! ### A close that is late -/

theorem Followed.still (h : Followed τ s) (began : began τ = ops.map Operation.activity)
    (closed : s.channel.accepting = false) {i : Nat} (hop : ops[i]? = some .close)
    (hs : s.step c (.call i) = some s') : s'.channel = s.channel ∧ s'.worker = s.worker := by
  obtain ⟨task, htask, hfollows⟩ := h.operation began hop
  simp only [step, stepCall, htask] at hs
  generalize told (.call i) τ = xs at hfollows
  cases hfollows with
  | returned path => cases hs
  | panicked path panics => cases hs
  | @running r path =>
    cases Operation.closing path with
    | asking =>
      cases hs
      exact ⟨Channel.close_of_closed closed, rfl⟩
    | late =>
      cases hs
      exact ⟨rfl, rfl⟩
    | finished reported nothing =>
      cases hs
      exact ⟨rfl, rfl⟩
    | waiting asks nothing =>
      obtain ⟨line, rfl⟩ | rfl := asks
      · cases hs
        exact ⟨rfl, rfl⟩
      · simp only [perform] at hs
        cases hending : s.worker.machine.ending? with
        | none =>
          rw [hending] at hs
          cases hs
        | some e =>
          rw [hending] at hs
          cases hs
          exact ⟨rfl, rfl⟩

/-! ### Settled systems -/

theorem no_offhand (crossing : Crossing s) (settled : ∀ a, s.step c a = none) {a : Actor}
    {q : Request (busDomain E K Q X)} {rest} (offhand : q.Offhand) :
    s.active a ≠ some (.ask q rest) := by
  intro hr
  obtain ⟨reply, s', answer⟩ := perform_of_offhand (c := c) (s := s) (a := a) offhand
  exact crossing.step_of_reply hr answer (settled a)

theorem closed_of_closes {a : Actor} {x : Exchange (busDomain E K Q X).requests} (hx : x ∈ told a τ)
    (h : closes x = true) : closed τ = true := by
  obtain ⟨l, hl, htold⟩ := mem_told.mp hx
  obtain ⟨work, rfl⟩ := told?_eq_some.mp htold
  exact List.any_eq_true.mpr ⟨_, hl, h⟩

/-- An operation that is not over and cannot go on waits for a slot, unless it is to close. -/
theorem Followed.stuck (h : Followed τ s) (crossing : Crossing s)
    (began : began τ = ops.map Operation.activity) {i : Nat} {op : Operation E K}
    (hop : ops[i]? = some op) (hne : op ≠ .close) (hnone : s.result? i = none)
    (blocked : s.step c (.call i) = none) :
    op.isPatient = true ∧ ∃ rest, s.active (.call i) = some (.ask .awaitSlot rest) := by
  obtain ⟨task, htask, hfollows⟩ := h.operation began hop
  have hactive : s.active (.call i) = task.residual := residual_call htask
  cases hfollows with
  | returned path => simp [result?, htask] at hnone
  | panicked path panics => simp [result?, htask] at hnone
  | running path =>
    obtain ⟨v, rfl⟩ | ⟨q, rest, rfl, offhand | ⟨rfl, patient⟩⟩ := Operation.onward path hne
    · simp [step, stepCall, htask] at blocked
    · obtain ⟨reply, s', answer⟩ := perform_of_offhand (c := c) (s := s) (a := .call i) offhand
      exact absurd blocked (crossing.step_of_reply hactive answer)
    · exact ⟨patient, _, hactive⟩

section
variable (crossing : Crossing s) (account : Account τ s) (settled : ∀ a, s.step c a = none)
  (between : s.worker.machine.phase.isCalling = false)
include crossing account settled between

/-- Everybody has come back, whether the worker has ended, has died or waits for a command. -/
theorem Followed.comes_back (h : Followed τ s) (began : began τ = ops.map Operation.activity)
    (listening : s.channel.listening = !s.worker.machine.phase.isOver)
    (accepting : s.channel.accepting = !closed τ) {i : Nat} (hi : i < ops.length) :
    s.result? i ≠ none := by
  intro hnone
  obtain ⟨op, hop⟩ : ∃ op, ops[i]? = some op := ⟨_, List.getElem?_eq_getElem hi⟩
  by_cases hclose : op = .close
  · subst hclose
    obtain ⟨task, htask, hfollows⟩ := h.operation began hop
    have hactive : s.active (.call i) = task.residual := residual_call htask
    have hdone {v : Except BusError Unit} : task ≠ .running (.done v) := by
      rintro rfl
      have hstep := settled (.call i)
      simp [step, stepCall, htask] at hstep
    generalize hxs : told (.call i) τ = xs at hfollows
    cases hfollows with
    | returned path => simp [result?, htask] at hnone
    | panicked path panics => simp [result?, htask] at hnone
    | running path =>
      cases Operation.closing path with
      | asking => exact no_offhand (q := .beginClose) crossing settled trivial hactive
      | waiting asks nothing =>
        obtain ⟨line, rfl⟩ | rfl := asks
        · exact no_offhand (q := .log line) crossing settled trivial hactive
        · have hmem : ⟨.beginClose, true⟩ ∈ told (.call i) τ := hxs ▸ List.mem_cons_self
          rw [closed_of_closes hmem rfl] at accepting
          exact crossing.no_closing account settled between accepting hactive
      | _ => exact hdone rfl
  · obtain ⟨-, rest, hr⟩ := h.stuck crossing began hop hclose hnone (settled _)
    exact crossing.no_waiting account settled between listening hr

end

theorem Followed.returns (crossing : Crossing s) (account : Account τ s) (gate : Gate τ s)
    (settled : ∀ a, s.step c a = none) (between : s.worker.machine.phase.isCalling = false)
    (h : Followed τ s) (began : began τ = ops.map Operation.activity) {i : Nat}
    (hi : i < ops.length) : s.result? i ≠ none :=
  h.comes_back crossing account settled between began gate.listening gate.accepting hi

/-- Closing is a clean cut, whoever sends, registers and closes, and in whatever order they go on. -/
theorem Run.cuts_cleanly (new : s₀.IsNew) (h : Run c s₀ τ s)
    (began : began τ = ops.map Operation.activity)
    (composed : (worked τ).all isComposed = true) : CleanCut ops c τ s := by
  have followed := h.follows new
  have account := h.account new
  have gate := h.gate new composed
  have crossing := h.crossing new
  have held := h.held new
  have faithful := account.worker.faithful composed
  have accepting (hclosed : closedBy? τ ≠ none) : s.channel.accepting = false := by
    rw [gate.accepting, closed_eq, Option.isSome_iff_ne_none.mpr hclosed]
    rfl
  have closing := fun i r => followed.closing (i := i) (r := r) began gate account composed
  have returns (hsettled : s.isSettled c = true) (between) (i) (hi : i < ops.length) :=
    followed.returns crossing account gate (isSettled_iff.mp hsettled) between began hi
  refine ⟨fun l hl => first_of_timely gate.timely hl, ?_, committed_beforeClosing gate.timely, ?_,
    closing, ⟨?_, faithful.calls_prefix⟩, ?_, returns, ?_, ?_⟩
  · intro a ha
    rcases held.held a ha with ⟨i, rfl⟩ | ⟨rfl, rest, hpending⟩
    · exact Or.inl ⟨i, rfl, followed.closer began ha⟩
    · exact Or.inr ⟨rfl, account.calling (by rw [hpending]; exact Option.some_ne_none _)⟩
  · exact fun i op item r hop hitem result => followed.sending began gate.timely hop hitem result
  · rw [faithful.commands, account.queue]
    exact List.prefix_append _ _
  · exact fun i s' hop hclosed hs => followed.still began (accepting hclosed) hop hs
  · intro hsettled between hclose
    have come (i) (hi : ops[i]? = some .close) : ∃ r, s.result? i = some r :=
      Option.ne_none_iff_exists'.mp (returns hsettled between i (List.getElem?_eq_some_iff.mp hi).1)
    obtain ⟨j, hj⟩ : ∃ j, closedBy? τ = some (.call j) := by
      obtain ⟨i, hi⟩ := List.mem_iff_getElem?.mp hclose
      obtain ⟨r, hr⟩ := come i hi
      rcases closing i r hi hr with ⟨-, hcloser, -⟩ | ⟨-, a, hcloser, -⟩
      · exact ⟨i, hcloser⟩
      · obtain ⟨j, rfl⟩ := held.closer (account.idle between) hcloser
        exact ⟨j, hcloser⟩
    have hop := followed.closer began hj
    obtain ⟨r, hr⟩ := come j hop
    refine ⟨j, ⟨hop, ?_⟩, fun i hi => ?_⟩
    · rcases closing j r hop hr with ⟨rfl, -, -⟩ | ⟨-, a, hcloser, hne⟩
      · exact hr
      · exact absurd (Option.some.inj (hcloser.symm.trans hj)) hne
    · rcases closing i _ hi.1 hi.2 with ⟨-, hcloser, -⟩ | ⟨hr, -⟩
      · exact Actor.call.inj (Option.some.inj (hcloser.symm.trans hj))
      · cases hr
  · intro hclosed
    exact Shut.settles ⟨crossing.unstaffed, accepting hclosed, account.calling⟩

/-! ### Two closes, while a sender waits for a slot -/

/-- A receiver is registered, an event is sent, and another is sent that waits for a slot. -/
def crowd : List (Operation Nat Nat) :=
  [.register 0, .send 1, .send 2, .trySend 3, .close, .close, .trySend 4]

/-- How many steps everybody makes, one after another.  Closing begins while the third call waits for a
slot, which it gets afterwards in vain. -/
def shifts : List (Nat × Actor) :=
  [(5, .call 0), (1, .worker), (5, .call 1), (2, .call 2), (2, .call 3), (1, .call 4), (2, .call 5),
    (2, .call 6), (4, .worker), (3, .call 2), (4, .worker), (2, .call 4)]

def rush : List (Move parlour) :=
  crowd.map (fun op => .begin op.activity) ++ shifts.flatMap fun (n, a) => turns n a

theorem cuts_cleanly_crowd :
    committedBy (.call 2) (narrow.play touchy rush).1 = [] ∧
    Handled (narrow.play touchy rush).1 (narrow.play touchy rush).2 ∧
    (∃! i, crowd[i]? = some .close ∧ (narrow.play touchy rush).2.result? i = some (.ok (.ok ()))) := by
  have new : narrow.IsNew := ⟨⟨1, rfl⟩, rfl, rfl, rfl⟩
  have composed : (worked (narrow.play touchy rush).1).all isComposed = true := by decide +kernel
  have began : began (narrow.play touchy rush).1 = crowd.map Operation.activity := began_play rush
  have settled : (narrow.play touchy rush).2.isSettled touchy = true := by decide +kernel
  have refused : (narrow.play touchy rush).2.result? 2 = some (.ok (.error .closed)) := by
    decide +kernel
  have closed : (narrow.play touchy rush).2.result? 4 = some (.ok (.ok ())) := by decide +kernel
  have run : Run touchy narrow (narrow.play touchy rush).1 (narrow.play touchy rush).2 := by
    simpa only [List.nil_append] using Run.refl.play rush
  have cut := Run.cuts_cleanly new run began composed
  refine ⟨?_, ?_, cut.one settled (by decide +kernel) (by decide)⟩
  · rcases cut.sending 2 (.send 2) (.event 2) _ rfl rfl refused with ⟨h, -⟩ | ⟨-, h, -⟩ | ⟨h, -⟩
    · cases h
    · exact h
    · cases h
  · rcases cut.closing 4 _ rfl closed with ⟨-, -, h⟩ | ⟨h, -⟩
    · exact h
    · cases h

end Reveille.System
