import Reveille.Proofs.Runner.Events
import Reveille.Proofs.System.Closer
import Reveille.Proofs.System.Hiring
import Reveille.Proofs.System.Orders

/-!
# Inboxes

The replies to one runner are noted along a run of the system (`Observed`); they make a run of the machine of
this runner.  What was put into its inbox (`mail`) is what the runner took from it and, after that, what is
in it.  When the runner no longer waits for events, the inbox is empty and the worker is over, so that
nothing will come (`Observed.postbox`).

A runner that has ended stays so (`Fallen.step`).
-/

namespace Reveille

open Bus Program

variable {D : Domain} {c : Cast D} {a b : Actor}

def mail? (i : Nat) : Exchange D.requests → Option D.Event
  | ⟨.push j e, (pushed : Bool)⟩ => if pushed && j == i then some e else none
  | _ => none

def Label.mail? (i : Nat) : Label D → Option D.Event
  | .moved _ asked _ => asked.bind (Reveille.mail? i)
  | .began _ => none

def mail (i : Nat) (τ : List (Label D)) : List D.Event := τ.filterMap (Label.mail? i)

namespace System

variable {s s' s₀ s₁ : System D} {i : Nat} {t : RunnerTask D} {q : Request D} {τ : List (Label D)}
  {l : Label D}

theorem mail_concat : mail i (τ ++ [l]) = mail i τ ++ (l.mail? i).toList := by
  rw [mail, List.filterMap_append]
  cases h : l.mail? i <;> simp [h, mail]

/-! ### What others do to a runner -/

/-- A runner with more events in its inbox, perhaps further on, and perhaps to be dropped. -/
def RunnerTask.Visited (t : RunnerTask D) (more : List D.Event) (t' : RunnerTask D) : Prop :=
  ∃ launched released stopRequested aborted,
    t' = { t with inbox := t.inbox ++ more, launched, released, stopRequested, aborted }

theorem visited_mk {launched released stopRequested aborted : Bool} :
    RunnerTask.Visited t [] { t with launched, released, stopRequested, aborted } :=
  ⟨launched, released, stopRequested, aborted, by rw [List.append_nil]⟩

theorem visited_refl (t : RunnerTask D) : RunnerTask.Visited t [] t := visited_mk

/-- What a request does to a runner is to put what it says into the inbox, and no more than a visit. -/
theorem visited_upon (q : Request D) (i : Nat) (reply : q.Reply) (t : RunnerTask D) :
    RunnerTask.Visited t (mail? i ⟨q, reply⟩).toList (q.upon i reply t) := by
  cases q with
  | push j e =>
    simp only [Request.upon, mail?]
    split
    · exact ⟨_, _, _, _, rfl⟩
    · exact visited_refl t
  | launch j | release j | requestStop j | abort j =>
    simp only [Request.upon]
    split
    · exact visited_mk
    · exact visited_refl t
  | _ => exact visited_refl t

/-- An answered request puts what it says into the inbox of a runner. -/
theorem visited_of_perform {reply : q.Reply} (h : s.perform c a q = some (.reply reply, s'))
    (ht : s.runners[i]? = some t) :
    ∃ t', s'.runners[i]? = some t' ∧ RunnerTask.Visited t (mail? i ⟨q, reply⟩).toList t' :=
  ⟨_, upon_of_perform h ht, visited_upon q i reply t⟩

/-- Nothing is put into the inbox of a runner that is not there, or is over. -/
theorem mail?_of_not_running {reply : q.Reply} (h : s.perform c a q = some (.reply reply, s'))
    (hi : s.isRunning i = false) : mail? i ⟨q, reply⟩ = none := by
  cases performed_of_perform h with
  | @pushed j running e =>
    have hne : j ≠ i := by
      rintro rfl
      rw [hi] at running
      cases running
    simp [mail?, hne]
  | _ => rfl

theorem visited_of_turn {asked : Option (Exchange D.requests)}
    {work : Option (Exchange (Worker.requests (Receiver D) D.Event))}
    (h : Turn c s (.moved a asked work) s') (ha : a ≠ .runner i) (ht : s.runners[i]? = some t) :
    ∃ t', s'.runners[i]? = some t' ∧
      RunnerTask.Visited t (asked.bind (mail? i)).toList t' := by
  rcases h.elsewhere ha with ⟨q, reply, s₁, rfl, answer, hsame⟩ | ⟨rfl, hsame⟩
  · rw [hsame]
    exact visited_of_perform answer ht
  · exact ⟨t, hsame.trans ht, visited_refl t⟩

/-- Who is there after a step was there before, or is new. -/
theorem new_of_turn {asked : Option (Exchange D.requests)}
    {work : Option (Exchange (Worker.requests (Receiver D) D.Event))}
    (h : Turn c s (.moved a asked work) s') (ha : a ≠ .runner i) (unborn : s.runners[i]? = none) :
    asked.bind (mail? i) = none ∧ ∀ t, s'.runners[i]? = some t →
      t = { service := t.service, machine := .init (c.service t.service).jitter } := by
  refine ⟨?_, fun t ht => new_of_step h ha unborn ht⟩
  rcases h.elsewhere ha with ⟨q, reply, s₁, rfl, answer, -⟩ | ⟨rfl, -⟩
  · exact mail?_of_not_running answer (by simp only [isRunning, unborn])
  · rfl

/-! ### What a runner does itself -/

inductive Goes (c : Cast D) (s : System D) (i : Nat) (t : RunnerTask D) :
    Option (Exchange D.requests) → Option (Exchange (Duties D)) → RunnerTask D → Prop
  | asked {q : Request D} {rest : q.Reply → Routine D t.machine.request.Reply} {reply : q.Reply}
      (routine : RunnerIn c s i t (.ask q rest)) :
      Goes c s i t (some ⟨q, reply⟩) none
        { q.upon i reply t with machine := t.machine, pending := some (rest reply) }
  | panicked {q : Request D} {rest : q.Reply → Routine D t.machine.request.Reply} {p : Panic}
      (routine : RunnerIn c s i t (.ask q rest)) :
      Goes c s i t none none { t with ending := some (.panicked p) }
  | returned {reply : t.machine.request.Reply} (routine : RunnerIn c s i t (.done reply)) :
      Goes c s i t none (some ⟨t.machine.request, reply⟩) (t.resumed reply)
  | served {reply : t.machine.request.Reply} {s₁ : System D} {inbox : List D.Event}
      (idle : t.pending = none)
      (source : s.runnerSource c i t t.machine.request = .atOnce reply s₁)
      (left : s₁.runners[i]? = some { t with inbox }) :
      Goes c s i t none (some ⟨t.machine.request, reply⟩) ({ t with inbox }.resumed reply)
  | timed {time : Option Nat} (idle : t.pending = none) :
      Goes c s i t none none { t with timer := time }
  | cancelled (aborted : t.aborted = true) :
      Goes c s i t none none { t with ending := some .aborted }

theorem goes_of_step (h : s.step c (.runner i) = some s') :
    ∃ t t', s.runners[i]? = some t ∧ t.mayRun = true ∧ s'.runners[i]? = some t' ∧
      Goes c s i t (s.asked? c (.runner i)) (s.replied? c i (.runner i)) t' := by
  obtain ⟨t, ht, hrun, turn⟩ := runnerTurn_of_step h
  generalize s.asked? c (.runner i) = asked at turn ⊢
  generalize s.replied? c i (.runner i) = replied at turn ⊢
  cases turn with
  | asked routine answer pace =>
    exact ⟨t, _, ht, hrun, runners_modifyRunner (upon_of_perform answer ht), .asked routine⟩
  | panicked routine answer pace =>
    have still := (congrArg (·[i]?) (runners_of_panicked answer)).trans ht
    exact ⟨t, _, ht, hrun, runners_modifyRunner still, .panicked routine⟩
  | @returned reply routine momentum pace =>
    exact ⟨t, _, ht, hrun, (resumeRunner_spec (c := c) (t := t) reply ht).2, .returned routine⟩
  | @served reply s₁ idle source momentum pace =>
    obtain ⟨inbox, -, -, ht₁⟩ := runnerSource_atOnce ht source
    exact ⟨t, _, ht, hrun, (resumeRunner_spec (c := c) (t := t) reply ht₁).2, .served idle source ht₁⟩
  | timed idle source pace =>
    obtain ⟨d, inboxOpen, -, -, rfl⟩ := runnerSource_later source
    exact ⟨t, _, ht, hrun, runners_modifyRunner ht, .timed idle⟩
  | cancelled aborted => exact ⟨t, _, ht, hrun, runners_cancel ht, .cancelled aborted⟩

/-- What a runner takes is the first event in its inbox, and it is told that there will be none only when
the inbox is empty and the worker is over. -/
theorem inbox_of_source {q : Runner.Request D.Event D.Id (Items D)} {reply : q.Reply}
    {inbox : List D.Event} (ht : s.runners[i]? = some t)
    (source : s.runnerSource c i t q = .atOnce reply s₁)
    (left : s₁.runners[i]? = some { t with inbox }) :
    t.inbox = (Runner.taken? ⟨q, reply⟩).toList ++ inbox ∧
      (Runner.isLast ⟨q, reply⟩ = true → t.inbox = [] ∧ s.worker.machine.phase.isOver = true) := by
  have same (h : some t = some { t with inbox }) : t.inbox = [] ++ inbox :=
    congrArg RunnerTask.inbox (Option.some.inj h)
  cases q with
  | isStopRequested =>
    cases source
    exact ⟨same (ht.symm.trans left), fun h => absurd h Bool.false_ne_true⟩
  | wait limit inboxOpen =>
    simp only [runnerSource] at source
    split at source
    · cases source
      exact ⟨same (ht.symm.trans left), fun h => absurd h Bool.false_ne_true⟩
    · split at source
      · next e rest hinbox =>
        cases source
        have hrest := (runners_modifyRunner ht).symm.trans left
        have hinbox' : rest = inbox := congrArg RunnerTask.inbox (Option.some.inj hrest)
        exact ⟨by rw [hinbox, hinbox']; rfl, fun h => absurd h Bool.false_ne_true⟩
      · next hempty =>
        split at source
        · next hover =>
          rw [Bool.and_eq_true] at hover
          obtain ⟨rfl, hover⟩ := hover
          cases source
          refine ⟨same (ht.symm.trans left), fun _ => ⟨?_, hover⟩⟩
          cases hinbox : t.inbox with
          | nil => rfl
          | cons e rest => exact absurd hinbox (hempty e rest rfl)
        · split at source
          · split at source
            · cases source
              exact ⟨same (ht.symm.trans left), fun h => absurd h Bool.false_ne_true⟩
            · cases source
          · cases source
          · cases source
  | _ => cases source

/-! ### Observed runs -/

/-- A run of a system, with the replies to runner `i`. -/
inductive Observed (c : Cast D) (s₀ : System D) (i : Nat) :
    List (Label D) → List (Exchange (Duties D)) → System D → Prop
  | refl : Observed c s₀ i [] [] s₀
  | step {τ : List (Label D)} {ρ : List (Exchange (Duties D))} {s s' : System D}
      (before : Observed c s₀ i τ ρ s) {a : Actor} (h : s.step c a = some s') :
      Observed c s₀ i (τ ++ [s.label c a]) (ρ ++ (s.replied? c i a).toList) s'
  | call {τ : List (Label D)} {ρ : List (Exchange (Duties D))} {s : System D}
      (before : Observed c s₀ i τ ρ s) (f : Activity D D.Result) :
      Observed c s₀ i (τ ++ [.began f]) ρ (s.start f)
  | outside {τ : List (Label D)} {ρ : List (Exchange (Duties D))} {s s' : System D}
      (before : Observed c s₀ i τ ρ s) (h : Elsewhere s s') : Observed c s₀ i τ ρ s'

variable {ρ : List (Exchange (Duties D))}

theorem Observed.run (h : Observed c s₀ i τ ρ s) : Run c s₀ τ s := by
  induction h with
  | refl => exact .refl
  | step before h ih => exact ih.step h
  | call before f ih => exact ih.call f
  | outside before h ih => exact ih.outside h

theorem Run.observed (h : Run c s₀ τ s) (i : Nat) : ∃ ρ, Observed c s₀ i τ ρ s := by
  induction h with
  | refl => exact ⟨[], .refl⟩
  | step before h ih =>
    obtain ⟨ρ, observed⟩ := ih
    exact ⟨_, observed.step h⟩
  | call before f ih =>
    obtain ⟨ρ, observed⟩ := ih
    exact ⟨ρ, observed.call f⟩
  | outside before h ih =>
    obtain ⟨ρ, observed⟩ := ih
    exact ⟨ρ, observed.outside h⟩

structure Postbox (c : Cast D) (τ : List (Label D)) (ρ : List (Exchange (Duties D))) (s : System D)
    (i : Nat) (t : RunnerTask D) : Prop where
  run : Runner.Run (c.service t.service).jitter ρ t.machine
  contents : mail i τ = Runner.taken ρ ++ t.inbox
  calling : t.pending ≠ none → ∀ limit inboxOpen, t.machine.request ≠ .wait limit inboxOpen
  shut : t.machine.inboxOpen = false → t.inbox = [] ∧ s.worker.machine.phase.isOver = true

theorem not_wait_of_source {q : Runner.Request D.Event D.Id (Items D)} {r : Routine D q.Reply}
    (h : s.runnerSource c i t q = .routine r) (limit : Option Duration) (inboxOpen : Bool) :
    q ≠ .wait limit inboxOpen := by
  rintro rfl
  exact wait_ne_routine h

/-- The machine waits without a routine. -/
theorem not_wait_of_routine (calling : t.pending ≠ none →
      ∀ limit inboxOpen, t.machine.request ≠ .wait limit inboxOpen)
    {r : Routine D t.machine.request.Reply} (routine : RunnerIn c s i t r) :
    ∀ limit inboxOpen, t.machine.request ≠ .wait limit inboxOpen := by
  rcases routine with hp | ⟨-, hsource⟩
  · exact calling (hp ▸ Option.some_ne_none r)
  · exact not_wait_of_source hsource

theorem not_taken_of_not_wait {q : Runner.Request D.Event D.Id (Items D)} (reply : q.Reply)
    (h : ∀ limit inboxOpen, q ≠ .wait limit inboxOpen) :
    Runner.taken? ⟨q, reply⟩ = none ∧ Runner.isLast ⟨q, reply⟩ = false := by
  cases q with
  | wait limit inboxOpen => exact absurd rfl (h limit inboxOpen)
  | _ => exact ⟨rfl, rfl⟩

theorem worker_of_turn {asked : Option (Exchange D.requests)}
    {work : Option (Exchange (Worker.requests (Receiver D) D.Event))}
    (h : Turn c s (.moved a asked work) s') (ha : a ≠ .worker) : s'.worker = s.worker := by
  cases h with
  | callAsked task answer => exact (perform_frame answer).1
  | callPanicked task answer => exact (perform_frame answer).1
  | callReturned task => rfl
  | runnerAsked hired answer aside => exact (aside.worker nofun).trans (perform_frame answer).1
  | runnerPanicked hired answer aside => exact (aside.worker nofun).trans (perform_frame answer).1
  | runnerAlone hired aside => exact aside.worker nofun
  | runnerCancelled runner aborted => rfl
  | _ => exact absurd rfl ha

theorem not_worker_of_over {asked : Option (Exchange D.requests)}
    {work : Option (Exchange (Worker.requests (Receiver D) D.Event))} (account : Account τ s)
    (h : Turn c s (.moved a asked work) s') (hover : s.worker.machine.phase.isOver = true) :
    a ≠ .worker := by
  rintro rfl
  have alive : s.worker.machine.phase.isOver = false := by
    cases h with
    | workerAsked routine answer =>
      exact not_isOver_of_isCalling (isCalling_of_routine account.calling routine)
    | @workerPanicked q rest p reply s₁ routine answer panic => exact not_isOver_of_reply reply
    | @workerReturned reply routine => exact not_isOver_of_reply reply
    | @workerServed reply s₁ idle source => exact not_isOver_of_reply reply
  rw [hover] at alive
  cases alive

theorem no_mail_of_over {asked : Option (Exchange D.requests)}
    {work : Option (Exchange (Worker.requests (Receiver D) D.Event))} (account : Account τ s)
    (h : Turn c s (.moved a asked work) s') (outward : (Label.moved a asked work).Outward)
    (hover : s.worker.machine.phase.isOver = true) : asked.bind (mail? i) = none := by
  cases asked with
  | none => rfl
  | some x =>
    obtain ⟨q, reply⟩ := x
    cases q with
    | push j e => exact absurd outward (not_worker_of_over account h hover)
    | _ => rfl

theorem Postbox.visited (h : Postbox c τ ρ s i t) {t' : RunnerTask D}
    {asked : Option (Exchange D.requests)}
    {work : Option (Exchange (Worker.requests (Receiver D) D.Event))} (account : Account τ s)
    (turn : Turn c s (.moved a asked work) s') (outward : (Label.moved a asked work).Outward)
    (visited : RunnerTask.Visited t (asked.bind (mail? i)).toList t') :
    Postbox c (τ ++ [.moved a asked work]) ρ s' i t' := by
  obtain ⟨launched, released, stopRequested, aborted, rfl⟩ := visited
  refine ⟨h.run, ?_, h.calling, fun hshut => ?_⟩
  · rw [mail_concat, h.contents, List.append_assoc]
    rfl
  · obtain ⟨hempty, hover⟩ := h.shut hshut
    rw [worker_of_turn turn (not_worker_of_over account turn hover)]
    refine ⟨?_, hover⟩
    rw [no_mail_of_over account turn outward hover]
    exact (List.append_nil t.inbox).trans hempty

theorem Postbox.resumed (h : Postbox c τ ρ s i t) (hl : l.mail? i = none) {inbox : List D.Event}
    (reply : t.machine.request.Reply) (worker : s'.worker = s.worker)
    (hinbox : t.inbox = (Runner.taken? ⟨t.machine.request, reply⟩).toList ++ inbox)
    (last : Runner.isLast ⟨t.machine.request, reply⟩ = true →
      t.inbox = [] ∧ s.worker.machine.phase.isOver = true) :
    Postbox c (τ ++ [l]) (ρ ++ [⟨t.machine.request, reply⟩]) s' i
      (RunnerTask.resumed { t with inbox } reply) := by
  refine ⟨h.run.step reply, ?_, fun hp => absurd rfl hp, fun hshut => ?_⟩
  · rw [mail_concat, hl, h.contents, hinbox, Runner.taken_concat, Option.toList_none, List.append_nil,
      ← List.append_assoc]
    rfl
  · have hover : t.inbox = [] ∧ s.worker.machine.phase.isOver = true := by
      rcases (Runner.advance_resume reply).inbox with hsame | hlast
      · exact h.shut (hsame ▸ hshut)
      · exact last hlast
    rw [hover.1] at hinbox
    rw [worker]
    exact ⟨(List.append_eq_nil_iff.mp hinbox.symm).2, hover.2⟩

theorem Postbox.goes (h : Postbox c τ ρ s i t) (ht : s.runners[i]? = some t) {t' : RunnerTask D}
    {asked : Option (Exchange D.requests)} {replied : Option (Exchange (Duties D))}
    (turn : Turn c s (.moved (.runner i) asked none) s')
    (outward : (Label.moved (.runner i) asked none : Label D).Outward)
    (goes : Goes c s i t asked replied t') :
    Postbox c (τ ++ [.moved (.runner i) asked none]) (ρ ++ replied.toList) s' i t' := by
  have hworker := worker_of_turn turn nofun
  have silent {l : Label D} (hl : l.mail? i = none) :
      mail i (τ ++ [l]) = Runner.taken (ρ ++ []) ++ t.inbox := by
    rw [mail_concat, hl, h.contents, List.append_nil]
    exact List.append_nil _
  cases goes with
  | @asked q rest reply routine =>
    have hnone : mail? i ⟨q, reply⟩ = none := by
      cases q with
      | push j e => cases outward
      | _ => rfl
    obtain ⟨launched, released, stopRequested, aborted, hupon⟩ := visited_upon q i reply t
    rw [hnone, Option.toList_none, List.append_nil] at hupon
    rw [hupon]
    have calling := not_wait_of_routine h.calling routine
    exact ⟨(List.append_nil ρ).symm ▸ h.run, silent hnone, fun _ => calling, hworker ▸ h.shut⟩
  | panicked routine =>
    exact ⟨(List.append_nil ρ).symm ▸ h.run, silent rfl, h.calling, hworker ▸ h.shut⟩
  | @returned reply routine =>
    obtain ⟨htaken, hlast⟩ := not_taken_of_not_wait reply (not_wait_of_routine h.calling routine)
    refine h.resumed rfl reply hworker ?_ fun h => ?_
    · rw [htaken]
      rfl
    · rw [hlast] at h
      cases h
  | served idle source left =>
    obtain ⟨hinbox, hlast⟩ := inbox_of_source ht source left
    exact h.resumed rfl _ hworker hinbox hlast
  | timed idle =>
    exact ⟨(List.append_nil ρ).symm ▸ h.run, silent rfl, h.calling, hworker ▸ h.shut⟩
  | cancelled aborted =>
    exact ⟨(List.append_nil ρ).symm ▸ h.run, silent rfl, h.calling, hworker ▸ h.shut⟩

theorem replied?_of_ne (ha : a ≠ .runner i) : s.replied? c i a = none := by
  cases a with
  | runner j => exact if_neg fun hj => ha (congrArg Actor.runner hj)
  | _ => rfl

theorem Postbox.new (hmail : mail i τ = [])
    (hnew : t = { service := t.service, machine := .init (c.service t.service).jitter }) :
    Postbox c τ [] s i t := by
  rw [hnew]
  exact ⟨.init, hmail, fun hp => absurd rfl hp, nofun⟩

theorem Observed.postbox (new : s₀.IsNew) (h : Observed c s₀ i τ ρ s) :
    (∀ t, s.runners[i]? = some t → Postbox c τ ρ s i t) ∧
      (s.runners[i]? = none → mail i τ = [] ∧ ρ = []) := by
  induction h with
  | refl =>
    rw [new.runners, List.getElem?_nil]
    exact ⟨fun t ht => absurd ht.symm (Option.some_ne_none t), fun _ => ⟨rfl, rfl⟩⟩
  | @step τ ρ s s' before a h ih =>
    have account := before.run.account new
    have registry := (before.run.step h).registry new
    have outward := registry.outward _ (List.mem_append_right τ (List.mem_singleton_self _))
    have turn := turn_of_step h
    by_cases ha : a = .runner i
    · subst ha
      obtain ⟨t, t', ht, -, ht', goes⟩ := goes_of_step h
      rw [ht']
      refine ⟨fun _ heq => ?_, nofun⟩
      cases heq
      exact (ih.1 t ht).goes ht turn outward goes
    · obtain ⟨asked, work, hlabel, -⟩ := stride_of_step h
      rw [hlabel] at turn outward ⊢
      rw [replied?_of_ne ha, Option.toList_none, List.append_nil]
      cases ht : s.runners[i]? with
      | some t =>
        obtain ⟨t', ht', visited⟩ := visited_of_turn turn ha ht
        rw [ht']
        refine ⟨fun _ heq => ?_, nofun⟩
        cases heq
        exact (ih.1 t ht).visited account turn outward visited
      | none =>
        obtain ⟨hmail, hnew⟩ := new_of_turn turn ha ht
        obtain ⟨hbefore, hρ⟩ := ih.2 ht
        have hafter : mail i (τ ++ [.moved a asked work]) = [] := by
          rw [mail_concat, Label.mail?, hmail, hbefore]
          rfl
        rw [hρ]
        exact ⟨fun t ht' => .new hafter (hnew t ht'), fun _ => ⟨hafter, rfl⟩⟩
  | @call τ ρ s before f ih =>
    have hmail : mail i (τ ++ [.began f]) = mail i τ := by
      rw [mail_concat]
      exact List.append_nil _
    refine ⟨fun t ht => ?_, fun hnone => hmail ▸ ih.2 hnone⟩
    obtain ⟨hrun, hcontents, hcalling, hshut⟩ := ih.1 t ht
    exact ⟨hrun, hmail.trans hcontents, hcalling, hshut⟩
  | outside before h ih =>
    rw [h.runners]
    refine ⟨fun t ht => ?_, ih.2⟩
    obtain ⟨hrun, hcontents, hcalling, hshut⟩ := ih.1 t ht
    exact ⟨hrun, hcontents, hcalling, h.worker ▸ hshut⟩

/-! ### The end of a runner -/

/-- The runner was hired and has ended. -/
def Fallen (s : System D) (i : Nat) : Prop := ∃ t, s.runners[i]? = some t ∧ t.ending ≠ none

theorem fallen_of_not_running (ht : s.runners[i]? = some t) (h : s.isRunning i = false) :
    Fallen s i := by
  refine ⟨t, ht, fun hnone => ?_⟩
  simp [isRunning, ht, hnone] at h

theorem not_running_of_fallen (h : Fallen s i) : s.isRunning i = false := by
  obtain ⟨t, ht, hover⟩ := h
  rw [isRunning, ht]
  exact Bool.eq_false_iff.mpr fun hnone => hover (Option.isNone_iff_eq_none.mp hnone)

theorem Fallen.step (h : Fallen s i) (hs : s.step c a = some s') : Fallen s' i := by
  obtain ⟨t, ht, hover⟩ := h
  by_cases ha : a = .runner i
  · subst ha
    obtain ⟨t₀, -, ht₀, hrun, -⟩ := goes_of_step hs
    rw [ht] at ht₀
    cases ht₀
    exact absurd (RunnerTask.mayRun_iff.mp hrun).2.2 hover
  · obtain ⟨asked, work, hlabel, -⟩ := stride_of_step hs
    have turn := turn_of_step hs
    rw [hlabel] at turn
    obtain ⟨t', ht', _, _, _, _, rfl⟩ := visited_of_turn turn ha ht
    exact ⟨_, ht', hover⟩

end System

end Reveille
