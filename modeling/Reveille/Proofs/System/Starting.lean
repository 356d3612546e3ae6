import Reveille.Proofs.System.Stopping

/-!
# The requests of a start

To start a scheduler is to engage one runner after another: each is hired, registered, launched and released
(`engaged`).  When a registration is turned away, those engaged before are stopped, one after another.  So what a
start was told says whom it has engaged, and how it came back (`Scheduler.started_or_refused`).
-/

namespace Reveille

open Bus Program

variable {D : Domain} {name : D.Service → String} {service : D.Service} {services : List D.Service}
  {h : Handle D.Service} {hs started : List (Handle D.Service)} {item : Command (Receiver D) D.Event}
  {xs : List (Exchange D.requests)} {grace : Duration}

/-! ### Registering -/

namespace Routine

def passed (item : Command (Receiver D) D.Event) : List (Exchange D.requests) :=
  [⟨.enter, true⟩, ⟨.requestSlot, ()⟩, ⟨.awaitSlot, true⟩, ⟨.commit item, true⟩]

def turnedAway (item : Command (Receiver D) D.Event) : List (List (Exchange D.requests)) :=
  [[⟨.enter, false⟩], [⟨.enter, true⟩, ⟨.requestSlot, ()⟩, ⟨.awaitSlot, false⟩],
    [⟨.enter, true⟩, ⟨.requestSlot, ()⟩, ⟨.awaitSlot, true⟩, ⟨.commit item, false⟩]]

theorem enqueue_told {v : Except BusError Unit} (path : Path (enqueue item) xs (.done v)) :
    v = .ok () ∧ xs = passed item ∨ v = .error .closed ∧ xs ∈ turnedAway item := by
  rcases path.of_ask with ⟨-, h⟩ | ⟨letIn, xs₁, rfl, path₁⟩
  · cases h
  cases (letIn : Bool) with
  | false =>
    obtain ⟨rfl, h⟩ := path₁.of_done
    cases h
    exact Or.inr ⟨rfl, .head _⟩
  | true =>
    rcases path₁.of_ask with ⟨-, h⟩ | ⟨_, xs₂, rfl, path₂⟩
    · cases h
    rcases path₂.of_ask with ⟨-, h⟩ | ⟨held, xs₃, rfl, path₃⟩
    · cases h
    cases (held : Bool) with
    | false =>
      obtain ⟨rfl, h⟩ := path₃.of_done
      cases h
      exact Or.inr ⟨rfl, .tail _ (.head _)⟩
    | true =>
      rcases path₃.of_ask with ⟨-, h⟩ | ⟨kept, xs₄, rfl, path₄⟩
      · cases h
      cases (kept : Bool) with
      | false =>
        obtain ⟨rfl, h⟩ := path₄.of_done
        cases h
        exact Or.inr ⟨rfl, .tail _ (.tail _ (.head _))⟩
      | true =>
        obtain ⟨rfl, h⟩ := path₄.of_done
        cases h
        exact Or.inl ⟨rfl, rfl⟩

/-- Nobody knows that the bus takes nothing any more unless it does not. -/
theorem late_of_turnedAway (h : xs ∈ turnedAway item) : ∃ x ∈ xs, System.timely false x = false := by
  simp only [turnedAway, List.mem_cons, List.not_mem_nil, or_false] at h
  rcases h with rfl | rfl | rfl
  · exact ⟨⟨.enter, false⟩, .head _, rfl⟩
  · exact ⟨⟨.awaitSlot, false⟩, by simp, rfl⟩
  · exact ⟨⟨.commit item, false⟩, by simp, rfl⟩

/-! ### Engaging a runner -/

def engaged (h : Handle D.Service) : List (Exchange D.requests) :=
  ⟨.hire h.service, h.runner⟩ :: (passed (.register (.inbox h.service h.runner)) ++
    [⟨.launch h.runner, ()⟩, ⟨.release h.runner, ()⟩])

theorem startRunner_told {v : Except RuntimeError (Handle D.Service)}
    (path : Path (startRunner service) xs (.done v)) : ∃ h : Handle D.Service, h.service = service ∧
      (v = .ok h ∧ xs = engaged h ∨ v = .error (.bus .closed) ∧
        ∃ ys ∈ turnedAway (.register (.inbox service h.runner)), xs = ⟨.hire service, h.runner⟩ :: ys) := by
  rcases path.of_ask with ⟨-, h⟩ | ⟨i, xs₁, rfl, registers⟩
  · cases h
  refine ⟨⟨service, i⟩, rfl, ?_⟩
  have registers : Path ((enqueue (.register (.inbox service i))).bind _) xs₁ (.done v) := registers
  rcases registers.of_bind with ⟨q, rest, -, h⟩ | ⟨r, ys, zs, rfl, enqueues, onward⟩
  · cases h
  rcases enqueue_told enqueues with ⟨rfl, rfl⟩ | ⟨rfl, hys⟩
  · rcases onward.of_ask with ⟨-, h⟩ | ⟨_, us, rfl, releases⟩
    · cases h
    rcases releases.of_ask with ⟨-, h⟩ | ⟨_, vs, rfl, returns⟩
    · cases h
    obtain ⟨rfl, h⟩ := returns.of_done
    cases h
    exact Or.inl ⟨rfl, rfl⟩
  · obtain ⟨rfl, h⟩ := onward.of_done
    cases h
    exact Or.inr ⟨rfl, ys, hys, by rw [List.append_nil]⟩

end Routine

def System.Request.AtOnce : System.Request D → Prop
  | .hire _ | .launch _ | .requestStop _ => True
  | q => q.Offhand

theorem System.Request.Offhand.atOnce {q : System.Request D} (h : q.Offhand) : q.AtOnce := by
  cases q <;> first | exact h | exact h.elim

theorem System.perform_of_atOnce {c : Cast D} {s : System D} {a : Actor} {q : System.Request D}
    (h : q.AtOnce) : ∃ reply s', s.perform c a q = some (.reply reply, s') := by
  cases q with
  | hire service => exact ⟨_, _, rfl⟩
  | launch i => exact ⟨_, _, rfl⟩
  | requestStop i => exact ⟨_, _, rfl⟩
  | _ => exact System.perform_of_offhand h

theorem System.Request.AtOnce.not_panics {q : System.Request D} (h : q.AtOnce) : ¬ q.Panics := by
  cases q <;> first | exact id | exact h.elim

open Routine

theorem startRunner_asks {q : System.Request D}
    {rest : q.Reply → Routine D (Except RuntimeError (Handle D.Service))}
    (path : Path (startRunner service) xs (.ask q rest)) : q.AtOnce ∨ q = .awaitSlot ∨
      ∃ i ys, q = .release i ∧ xs = ⟨.hire service, i⟩ :: (ys ++ [⟨.launch i, ()⟩]) := by
  rcases path.of_ask with ⟨-, h⟩ | ⟨i, xs₁, rfl, registers⟩
  · cases h
    exact Or.inl trivial
  have registers : Path ((enqueue (.register (.inbox service i))).bind _) xs₁ (.ask q rest) := registers
  rcases registers.of_bind with ⟨q', rest', enqueues, h⟩ | ⟨r, ys, zs, rfl, enqueues, onward⟩
  · cases h
    cases (System.sending_enqueue enqueues : System.Sending .close _ _ _) with
    | underway asks nothing => exact asks.imp System.Request.Offhand.atOnce Or.inl
  rcases enqueue_told enqueues with ⟨rfl, rfl⟩ | ⟨rfl, hys⟩
  · rcases onward.of_ask with ⟨rfl, h⟩ | ⟨_, us, rfl, releases⟩
    · cases h
      exact Or.inl trivial
    rcases releases.of_ask with ⟨rfl, h⟩ | ⟨_, vs, rfl, returns⟩
    · cases h
      exact Or.inr (Or.inr ⟨i, _, rfl, rfl⟩)
    · cases returns.of_done.2
  · cases onward.of_done.2

namespace Scheduler

open Activity

/-! ### Stopping those engaged before -/

def regret (name : String) : Option Ending → Activity D Unit
  | some (.panicked _) | some .aborted => log (line .warn "rollback stop failed"
      [("runner", name), ("label", (RuntimeError.runnerPanicked name).label),
        ("error", (RuntimeError.runnerPanicked name).message)])
  | _ => pure ()

theorem rollback_routine : (rollback name (h :: hs)).routine =
    Program.ask (S := D.requests) (.requestStop h.runner) fun _ =>
      .ask (.awaitEnd h.runner none) fun reply =>
        (regret (name h.service) reply).routine.bind fun _ => (rollback name hs).routine := by
  refine congrArg (Program.ask _) (funext fun _ => congrArg (Program.ask _) (funext fun reply => ?_))
  rcases (reply : Option Ending) with _ | _ | _ | _ <;> rfl

theorem regret_logs {n : String} (reply : Option Ending) :
    (regret n reply : Activity D Unit).routine.Only Logs := by
  unfold regret
  split
  · exact ⟨⟨_, rfl⟩, fun _ => trivial⟩
  · exact ⟨⟨_, rfl⟩, fun _ => trivial⟩
  · exact trivial

def Undoes (q : System.Request D) : Prop :=
  Logs q ∨ (∃ i, q = .requestStop i) ∨ ∃ i until?, q = .awaitEnd i until?

theorem rollback_only : (rollback name hs).routine.Only Undoes := by
  induction hs with
  | nil => exact trivial
  | cons h hs ih =>
    rw [rollback_routine]
    refine ⟨Or.inr (Or.inl ⟨_, rfl⟩), fun _ => ⟨Or.inr (Or.inr ⟨_, _, rfl⟩), fun reply => ?_⟩⟩
    exact ((regret_logs reply).mono fun _ => Or.inl).bind fun _ => ih

theorem rollback_told {v : Unit} (path : Path (rollback name hs).routine xs (.done v)) (hh : h ∈ hs) :
    ∃ reply, ⟨.awaitEnd h.runner none, reply⟩ ∈ xs := by
  induction hs generalizing xs with
  | nil => cases hh
  | cons h' hs ih =>
    rw [rollback_routine] at path
    rcases path.of_ask with ⟨-, hdone⟩ | ⟨_, ys, rfl, waits⟩
    · cases hdone
    rcases waits.of_ask with ⟨-, hdone⟩ | ⟨reply, zs, rfl, onward⟩
    · cases hdone
    rcases List.mem_cons.mp hh with rfl | hh
    · exact ⟨reply, .tail _ (.head _)⟩
    · rcases onward.of_bind with ⟨q, rest, -, hdone⟩ | ⟨_, us, vs, rfl, -, others⟩
      · cases hdone
      · obtain ⟨reply', hreply⟩ := ih others hh
        exact ⟨reply', .tail _ (.tail _ (List.mem_append_right _ hreply))⟩

theorem rollback_asks {q : System.Request D} {rest : q.Reply → Routine D Unit}
    (path : Path (rollback name hs).routine xs (.ask q rest)) : q.AtOnce ∨
      ∃ h ∈ hs, q = .awaitEnd h.runner none ∧ ⟨.requestStop h.runner, ()⟩ ∈ xs := by
  induction hs generalizing xs with
  | nil => cases path.of_done.2
  | cons h' hs ih =>
    rw [rollback_routine] at path
    rcases path.of_ask with ⟨-, hask⟩ | ⟨_, ys, rfl, waits⟩
    · cases hask
      exact Or.inl trivial
    rcases waits.of_ask with ⟨rfl, hask⟩ | ⟨reply, zs, rfl, onward⟩
    · cases hask
      exact Or.inr ⟨h', .head _, rfl, .head _⟩
    rcases onward.of_bind with ⟨q', rest', logs, hask⟩ | ⟨_, us, vs, rfl, -, others⟩
    · cases hask
      exact Or.inl (offhand_of_logs (logs.only_rest (regret_logs reply)).1).atOnce
    · refine (ih others).imp_right fun ⟨h, hh, hq, asked⟩ => ⟨h, .tail _ hh, hq, ?_⟩
      exact .tail _ (.tail _ (List.mem_append_right _ asked))

/-! ### Engaging one after another -/

variable {result : Except RuntimeError (List (Handle D.Service))}

theorem startRest_nil :
    (startRest name started []).routine = Program.done (S := D.requests) (.ok started) := rfl

theorem startRest_routine : (startRest name started (service :: services)).routine =
    (Routine.startRunner service).bind fun
      | .ok h => (startRest name (started ++ [h]) services).routine
      | .error e => (rollback name started).routine.bind fun _ => .done (.error e) := by
  refine routine_bind.trans ?_
  rw [Activity.startRunner, perform, routine, interpret_request]
  congr 1
  funext r
  cases r with
  | ok h => rfl
  | error e => exact routine_bind

/-- Whoever starts some runners engages all of them, or some before one is turned away. -/
theorem startRest_told (path : Path (startRest name started services).routine xs (.done result)) :
    (∃ hs, result = .ok (started ++ hs) ∧ hs.map (·.service) = services ∧ xs = hs.flatMap engaged) ∨
    ∃ hs h ys zs, result = .error (.bus .closed) ∧ (hs ++ [h]).map (·.service) <+: services ∧
      xs = hs.flatMap engaged ++ ⟨.hire h.service, h.runner⟩ :: (ys ++ zs) ∧
      ys ∈ turnedAway (.register (.inbox h.service h.runner)) ∧
      Path (rollback name (started ++ hs)).routine zs (.done ()) := by
  induction services generalizing started xs with
  | nil =>
    rw [startRest_nil] at path
    obtain ⟨rfl, hdone⟩ := path.of_done
    cases hdone
    exact Or.inl ⟨[], by rw [List.append_nil], rfl, rfl⟩
  | cons service services ih =>
    rw [startRest_routine] at path
    rcases path.of_bind with ⟨q, rest, -, hdone⟩ | ⟨r, ys, zs, rfl, engages, onward⟩
    · cases hdone
    obtain ⟨h, rfl, ⟨rfl, rfl⟩ | ⟨rfl, us, hus, rfl⟩⟩ := startRunner_told engages
    · rcases ih onward with ⟨hs, hresult, hservices, rfl⟩ | ⟨hs, h', us, vs, hresult, hprefix, rfl, hus, undoes⟩
      · refine Or.inl ⟨h :: hs, by rw [hresult, List.append_assoc, List.singleton_append], ?_, rfl⟩
        rw [List.map_cons, hservices]
      · rw [List.append_assoc, List.singleton_append] at undoes
        refine Or.inr ⟨h :: hs, h', us, vs, hresult, ?_, ?_, hus, undoes⟩
        · exact List.prefix_cons_inj _ |>.mpr hprefix
        · rw [List.flatMap_cons, List.append_assoc]
    · rcases onward.of_bind with ⟨q, rest, -, hdone⟩ | ⟨_, vs, ws, rfl, undoes, returns⟩
      · cases hdone
      obtain ⟨rfl, hdone⟩ := returns.of_done
      cases hdone
      refine Or.inr ⟨[], h, us, vs, rfl, ?_, ?_, hus, by rwa [List.append_nil]⟩
      · exact (List.prefix_append [h.service] services)
      · rw [List.append_nil]
        rfl

/-- Whoever starts some runners waits for a slot, for a seeding pass, or for the end of a runner that it has
engaged and asked to stop. -/
theorem startRest_asks {q : System.Request D}
    {rest : q.Reply → Routine D (Except RuntimeError (List (Handle D.Service)))}
    (path : Path (startRest name started services).routine xs (.ask q rest)) :
    q.AtOnce ∨ q = .awaitSlot ∨
    (∃ service i ys zs, q = .release i ∧ xs = ys ++ ⟨.hire service, i⟩ :: (zs ++ [⟨.launch i, ()⟩])) ∨
    ∃ h : Handle D.Service, q = .awaitEnd h.runner none ∧
      (h ∈ started ∧ ⟨.requestStop h.runner, ()⟩ ∈ xs ∨
        ∃ ys zs, xs = ys ++ (engaged h ++ zs) ∧ ⟨.requestStop h.runner, ()⟩ ∈ zs) := by
  induction services generalizing started xs with
  | nil =>
    rw [startRest_nil] at path
    cases path.of_done.2
  | cons service services ih =>
    rw [startRest_routine] at path
    rcases path.of_bind with ⟨q', rest', engages, hask⟩ | ⟨r, ys, zs, rfl, engages, onward⟩
    · cases hask
      rcases startRunner_asks engages with atOnce | hslot | ⟨i, ys, hq, rfl⟩
      · exact Or.inl atOnce
      · exact Or.inr (Or.inl hslot)
      · exact Or.inr (Or.inr (Or.inl ⟨service, i, [], ys, hq, rfl⟩))
    obtain ⟨h, rfl, ⟨rfl, rfl⟩ | ⟨rfl, us, hus, rfl⟩⟩ := startRunner_told engages
    · rcases ih onward with atOnce | hslot | ⟨service, i, us, vs, hq, rfl⟩ | ⟨h', hq, held⟩
      · exact Or.inl atOnce
      · exact Or.inr (Or.inl hslot)
      · exact Or.inr (Or.inr (Or.inl ⟨service, i, engaged h ++ us, vs, hq, (List.append_assoc _ _ _).symm⟩))
      · refine Or.inr (Or.inr (Or.inr ⟨h', hq, ?_⟩))
        rcases held with ⟨hmem, asked⟩ | ⟨us, vs, rfl, asked⟩
        · rcases List.mem_append.mp hmem with hmem | hmem
          · exact Or.inl ⟨hmem, List.mem_append_right _ asked⟩
          · obtain rfl := List.mem_singleton.mp hmem
            exact Or.inr ⟨[], zs, rfl, asked⟩
        · exact Or.inr ⟨engaged h ++ us, vs, (List.append_assoc _ _ _).symm, asked⟩
    · rcases onward.of_bind with ⟨q', rest', undoes, hask⟩ | ⟨_, vs, ws, rfl, -, returns⟩
      · cases hask
        rcases rollback_asks undoes with atOnce | ⟨h', hh', hq, asked⟩
        · exact Or.inl atOnce
        · exact Or.inr (Or.inr (Or.inr ⟨h', hq, Or.inl ⟨hh', List.mem_append_right _ asked⟩⟩))
      · cases returns.of_done.2

/-! ### The whole start -/

def announcing (grace : Duration) :
    Except RuntimeError (List (Handle D.Service)) → Activity D (Except RuntimeError (Scheduler D.Service))
  | .ok handles => do
    log (line .info "poll scheduler started" [("runners", toString handles.length)])
    return .ok ⟨handles, grace⟩
  | .error e => return .error e

theorem start_routine : (start name grace services).routine =
    (startRest name [] services).routine.bind fun r => (announcing grace r).routine := routine_bind

/-- A start comes back with a scheduler, and has engaged all of its runners one after another; or it comes back
with an error when one of them was turned away, and has waited for the end of those engaged before. -/
theorem started_or_refused {result : Except RuntimeError (Scheduler D.Service)}
    (path : Path (start name grace services).routine xs (.done result)) :
    (∃ hs line, result = .ok ⟨hs, grace⟩ ∧ hs.map (·.service) = services ∧
      xs = hs.flatMap engaged ++ [⟨.log line, ()⟩]) ∨
    ∃ hs h ys zs, result = .error (.bus .closed) ∧ (hs ++ [h]).map (·.service) <+: services ∧
      xs = hs.flatMap engaged ++ ⟨.hire h.service, h.runner⟩ :: (ys ++ zs) ∧
      ys ∈ turnedAway (.register (.inbox h.service h.runner)) ∧
      Path (rollback name hs).routine zs (.done ()) := by
  rw [start_routine] at path
  rcases path.of_bind with ⟨q, rest, -, hdone⟩ | ⟨r, us, vs, rfl, starts, onward⟩
  · cases hdone
  rcases startRest_told starts with ⟨hs, rfl, hservices, rfl⟩ | ⟨hs, h, ys, zs, rfl, hprefix, rfl, hys, undoes⟩
  · rcases onward.of_ask with ⟨-, hdone⟩ | ⟨_, ws, rfl, returns⟩
    · cases hdone
    obtain ⟨rfl, hdone⟩ := returns.of_done
    cases hdone
    exact Or.inl ⟨hs, _, rfl, hservices, rfl⟩
  · obtain ⟨rfl, hdone⟩ := onward.of_done
    cases hdone
    exact Or.inr ⟨hs, h, ys, zs, rfl, hprefix, List.append_nil _, hys, undoes⟩

theorem start_asks {q : System.Request D}
    {rest : q.Reply → Routine D (Except RuntimeError (Scheduler D.Service))}
    (path : Path (start name grace services).routine xs (.ask q rest)) :
    q.AtOnce ∨ q = .awaitSlot ∨
    (∃ service i ys zs, q = .release i ∧ xs = ys ++ ⟨.hire service, i⟩ :: (zs ++ [⟨.launch i, ()⟩])) ∨
    ∃ (h : Handle D.Service) (ys zs : List (Exchange D.requests)), q = .awaitEnd h.runner none ∧
      xs = ys ++ (engaged h ++ zs) ∧ ⟨.requestStop h.runner, ()⟩ ∈ zs := by
  rw [start_routine] at path
  rcases path.of_bind with ⟨q', rest', starts, hask⟩ | ⟨r, us, vs, rfl, -, onward⟩
  · cases hask
    rcases startRest_asks starts with atOnce | hslot | release | ⟨h, hq, ⟨hmem, -⟩ | ⟨ys, zs, rfl, asked⟩⟩
    · exact Or.inl atOnce
    · exact Or.inr (Or.inl hslot)
    · exact Or.inr (Or.inr (Or.inl release))
    · cases hmem
    · exact Or.inr (Or.inr (Or.inr ⟨h, ys, zs, hq, rfl, asked⟩))
  · cases r with
    | ok handles =>
      rcases onward.of_ask with ⟨-, hask⟩ | ⟨_, ws, -, returns⟩
      · cases hask
        exact Or.inl trivial
      · cases returns.of_done.2
    | error e => cases onward.of_done.2

end Scheduler

end Reveille
