import Reveille.Proofs.System.Closing
import Reveille.Proofs.System.Visits

/-!
# What a runner receives

A receiver that is told that its runner is not there belongs to a runner that has ended (`Run.attended`).  So
as long as a runner has not ended, all that the filter of its service accepted is in its inbox or was taken
out of it, but for the event that is just being put there; and after its end nothing is put there any more
(`Run.mail_accepted`).

So every runner is given the relevant ones of the events that were committed after its registration, in
order, without loss or repetition (`Observed.receives_in_order`), in every run, as every run can be observed
(`Run.observed`).
-/

namespace Reveille.System

open Bus Program

variable {D : Domain} {c : Cast D} {s s' s₀ s₁ : System D} {i : Nat} {τ : List (Label D)} {l : Label D}
  {a : Actor} {p : Worker.Phase (Receiver D) D.Event} {xs : List (Exchange D.requests)}

/-! ### Receivers and their runners -/

/-- If the receiver of a runner is called, the runner was hired with the service of the receiver, and if it
was not there it has ended. -/
def Meets (i : Nat) (s : System D) (p : Worker.Phase (Receiver D) D.Event)
    (asked : List (Exchange D.requests)) : Prop :=
  ∀ service, party? p = some (.inbox service i) →
    s.services[i]? = some service ∧ ((∃ x ∈ asked, turnsAway i x = true) → Fallen s i)

theorem found_of_grown {V V' : List D.Service} {service : D.Service} (hV : V <+: V')
    (h : V[i]? = some service) : V'[i]? = some service := by
  obtain ⟨more, rfl⟩ := hV
  rw [List.getElem?_append_left (List.getElem?_eq_some_iff.mp h).1, h]

theorem Meets.mono (h : Meets i s p xs) (services : s.services <+: s'.services)
    (fallen : Fallen s i → Fallen s' i) : Meets i s' p xs := fun service hp =>
  ⟨found_of_grown services (h service hp).1, fun hturned => fallen ((h service hp).2 hturned)⟩

theorem staying_of_party {w : Worker (Receiver D) D.Event} {k : Receiver D} {mine : Receiver D → Bool}
    {ω : List (Exchange (Worker.requests (Receiver D) D.Event))} (tended : Worker.Tended mine ω w)
    (h : party? w.phase = some k) : ∃ reg ∈ w.staying, reg.receiver = k := by
  obtain ⟨receivers, registered, count, phase⟩ := w
  cases phase with
  | sorting e out live asked rest =>
    cases h
    exact ⟨asked, List.mem_append_right _ List.mem_cons_self, rfl⟩
  | delivering e target rest =>
    cases h
    exact ⟨target, (tended.targets e target rest rfl).subset List.mem_cons_self, rfl⟩
  | _ => cases h

theorem mem_commands (account : Account τ s) {item : Command (Receiver D) D.Event}
    (h : item ∈ Worker.taken (worked τ)) : item ∈ commands τ := by
  rw [commands, account.queue]
  exact List.mem_append_left _ h

theorem Registry.taken_once (h : Registry τ s) (account : Account τ s) (i : Nat) :
    (Worker.taken (worked τ)).countP (Command.registers (Receiver.isInbox i)) ≤ 1 := by
  have once := h.once i
  rw [commands, account.queue, List.countP_append] at once
  omega

/-- Whoever is called was registered, and so was hired. -/
theorem Run.meets (new : s₀.IsNew) (h : Run c s₀ τ s) : Meets i s s.worker.machine.phase [] := by
  have account := h.account new
  have registry := h.registry new
  have tended := account.worker.tended (registry.taken_once account i)
  refine fun service hp => ⟨?_, fun ⟨_, hx, _⟩ => absurd hx List.not_mem_nil⟩
  obtain ⟨reg, hreg, hreceiver⟩ := staying_of_party tended hp
  have hknown := tended.known reg hreg
  rw [hreceiver] at hknown
  obtain ⟨t, ht, rfl⟩ := registry.service (mem_commands account hknown)
  rw [services, List.getElem?_map, ht]
  rfl

/-- All calls of receivers met their runners, or these have ended. -/
structure Attended (i : Nat) (τ : List (Label D)) (s : System D) : Prop where
  past : ∀ x ∈ (rounds τ).past, Meets i s x.reply.request x.asked
  present : Meets i s s.worker.machine.phase (rounds τ).present

theorem Attended.mono (h : Attended i τ s) (services : s.services <+: s'.services)
    (fallen : Fallen s i → Fallen s' i) (worker : s'.worker = s.worker) : Attended i τ s' :=
  ⟨fun x hx => (h.past x hx).mono services fallen, worker ▸ h.present.mono services fallen⟩

theorem Attended.shift (h : Attended i τ s) (shift : Shift c s l s')
    (after : Meets i s' s'.worker.machine.phase []) (services : s.services <+: s'.services)
    (fallen : Fallen s i → Fallen s' i) : Attended i (τ ++ [l]) s' := by
  have resumed {reply : s.worker.machine.request.Reply} :
      Attended i (τ ++ [.moved .worker none (some ⟨s.worker.machine.phase, reply⟩)]) s' := by
    refine ⟨fun x hx => ?_, ?_⟩
    · rw [rounds_worked] at hx
      rcases List.mem_append.mp hx with hx | hx
      · exact (h.past x hx).mono services fallen
      · rw [List.mem_singleton.mp hx]
        exact h.present.mono services fallen
    · rw [rounds_worked]
      exact after
  cases shift with
  | @asked q rest reply s₁ routine answer =>
    refine ⟨fun x hx => ?_, fun service hp => ?_⟩
    · rw [rounds_asked] at hx
      exact (h.past x hx).mono services fallen
    · obtain ⟨hservice, hfallen⟩ := h.present service hp
      refine ⟨found_of_grown services hservice, ?_⟩
      rw [rounds_asked]
      rintro ⟨x, hx, hturned⟩
      rcases List.mem_append.mp hx with hx | hx
      · exact fallen (hfallen ⟨x, hx, hturned⟩)
      · rw [List.mem_singleton.mp hx] at hturned
        rw [System.services, List.getElem?_map, Option.map_eq_some_iff] at hservice
        obtain ⟨t, ht, -⟩ := hservice
        exact fallen (fallen_of_not_running ht (not_running_of_turnsAway answer hturned))
  | served idle waiting => exact resumed
  | returned routine => exact resumed
  | panicked routine panics told => exact resumed
  | aside ha worker =>
    have same := h.mono services fallen worker
    refine ⟨?_, ?_⟩
    · rw [rounds_aside ha]
      exact same.past
    · rw [rounds_aside ha]
      exact same.present

theorem Run.attended (new : s₀.IsNew) (h : Run c s₀ τ s) : Attended i τ s := by
  induction h with
  | refl =>
    refine ⟨nofun, ?_⟩
    rw [new.worker]
    exact nofun
  | step before h ih =>
    exact ih.shift (shift_of_step h) ((before.step h).meets new) (turn_of_step h).services
      fun fallen => fallen.step h
  | @call τ s before f ih =>
    have same : Attended i τ (s.start f) := ih.mono List.prefix_rfl id rfl
    refine ⟨?_, ?_⟩
    · rw [rounds_began]
      exact same.past
    · rw [rounds_began]
      exact same.present
  | @outside τ s s' before h ih =>
    refine ih.mono ?_ ?_ h.worker
    · have same : s'.services = s.services := by
        rw [services, h.runners]
        rfl
      exact same ▸ List.prefix_rfl
    · rw [Fallen, Fallen, h.runners]
      exact id

/-! ### What the filter accepted, and the inbox -/

theorem party_of_visit? {result : Option p.request.Reply} {v : Visit D}
    (h : visit? i xs p result = some v) : party? p = some (.inbox v.service i) := by
  cases visiting_of_visit? h
  rfl

theorem result_of_visit? {v : Visit D} (h : visit? i xs p none = some v) : v.result = none := by
  generalize hresult : (none : Option p.request.Reply) = result at h
  cases visiting_of_visit? h
  exact hresult.symm

/-- Whoever visits a runner that has not ended finds it there. -/
theorem Meets.welcome (h : Meets i s p xs) (alive : ¬ Fallen s i) {result : Option p.request.Reply}
    (hv : visit? i xs p result ≠ none) : ∀ x ∈ xs, turnsAway i x = false := by
  obtain ⟨v, hv⟩ := Option.ne_none_iff_exists'.mp hv
  intro x hx
  rw [← Bool.not_eq_true]
  exact fun hturned => alive ((h v.service (party_of_visit? hv)).2 ⟨x, hx, hturned⟩)

theorem accepted_visits {R : List (Round D)} : accepted c i (R.filterMap (Round.visit? i)) =
    R.flatMap fun x => accepted c i (x.visit? i).toList := by
  induction R with
  | nil => rfl
  | cons x R ih =>
    rw [List.flatMap_cons, ← ih, ← accepted_append]
    cases hv : x.visit? i <;> simp [hv]

/-- As long as the runner has not ended, what was accepted in the past rounds is in the inbox. -/
theorem mail_of_alive (rounded : Rounded c τ s) (attended : Attended i τ s) (alive : ¬ Fallen s i) :
    (rounds τ).past.flatMap (fun x => x.asked.filterMap (mail? i)) =
      accepted c i ((rounds τ).past.filterMap (Round.visit? i)) := by
  rw [accepted_visits]
  refine List.flatMap_congr fun x hx => ?_
  exact mail_of_closed (rounded.past x hx) fun hv => (attended.past x hx).welcome alive hv

/-- What the present round puts into the inbox the filter accepted. -/
theorem Rounded.present_mail (h : Rounded c τ s) : (rounds τ).present.filterMap (mail? i) <+:
    accepted c i (visit? i (rounds τ).present s.worker.machine.phase none).toList := by
  cases hp : s.worker.pending with
  | none =>
    rw [h.idle hp]
    exact List.nil_prefix
  | some r =>
    obtain ⟨r₀, begun, path⟩ := h.way r hp
    exact mail_of_path begun path

theorem accepted_visits_append : accepted c i (visits i τ s) =
    accepted c i ((rounds τ).past.filterMap (Round.visit? i)) ++
      accepted c i (visit? i (rounds τ).present s.worker.machine.phase none).toList := accepted_append

theorem accepted_worked {reply : s.worker.machine.phase.request.Reply} :
    accepted c i (visits i τ s) <+: accepted c i
      (visits i (τ ++ [.moved .worker none (some ⟨s.worker.machine.phase, reply⟩)]) s') := by
  have hover : accepted c i (visit? i (rounds τ).present s.worker.machine.phase none).toList <+:
      accepted c i (visit? i ((rounds τ).present ++ []) s.worker.machine.phase (some reply)).toList :=
    accepted_mono
  rw [List.append_nil] at hover
  rw [accepted_visits_append, accepted_visits_append, rounds_worked, List.filterMap_append,
    accepted_append, List.append_assoc, List.prefix_append_right_inj]
  refine List.IsPrefix.trans ?_ (List.prefix_append _ _)
  rw [accepted_visits, List.flatMap_singleton]
  exact hover

/-- What is answered in a visit makes it longer. -/
theorem accepted_asked {x : Exchange D.requests} (machine : s'.worker.machine = s.worker.machine) :
    accepted c i (visits i τ s) <+:
      accepted c i (visits i (τ ++ [.moved .worker (some x) none]) s') := by
  rw [accepted_visits_append, accepted_visits_append, rounds_asked, machine, List.prefix_append_right_inj]
  exact accepted_mono

/-- What was put into the inbox are the first of the events that the filter accepted. -/
theorem Run.mail_accepted (new : s₀.IsNew) (h : Run c s₀ τ s) :
    mail i τ <+: accepted c i (visits i τ s) := by
  induction h with
  | refl => exact List.nil_prefix
  | @step τ s s' before a h ih =>
    have run := before.step h
    have shift := shift_of_step h
    generalize s.label c a = l at run shift
    rw [before.mail_eq new] at ih
    rw [run.mail_eq new]
    have resumed {reply : s.worker.machine.phase.request.Reply} {s' : System D} :
        (rounds (τ ++ [.moved .worker none (some ⟨s.worker.machine.phase, reply⟩)])).mail i <+: accepted c i
          (visits i (τ ++ [.moved .worker none (some ⟨s.worker.machine.phase, reply⟩)]) s') := by
      refine List.IsPrefix.trans ?_ accepted_worked
      rw [rounds_worked]
      simpa [Rounds.mail] using ih
    cases shift with
    | @asked q rest reply s₁ routine answer =>
      by_cases fallen : Fallen s i
      · have hnone := mail?_of_not_running answer (not_running_of_fallen fallen)
        have hsame : (rounds (τ ++ [.moved .worker (some ⟨q, reply⟩) none])).mail i =
            (rounds τ).mail i := by
          rw [rounds_asked]
          simp [Rounds.mail, hnone]
        rw [hsame]
        exact ih.trans (accepted_asked rfl)
      · have hpresent := (run.rounded new).present_mail (i := i)
        rw [accepted_visits_append, Rounds.mail]
        rw [rounds_asked] at hpresent ⊢
        rw [mail_of_alive (before.rounded new) (before.attended new) fallen, List.prefix_append_right_inj]
        exact hpresent
    | served idle waiting => exact resumed
    | returned routine => exact resumed
    | panicked routine panics told => exact resumed
    | aside ha worker =>
      rw [visits, rounds_aside ha, worker]
      exact ih
  | call before f ih =>
    rw [before.mail_eq new] at ih
    rw [(before.call f).mail_eq new, visits, rounds_began]
    exact ih
  | outside before h ih =>
    rw [visits, h.worker]
    exact ih

/-! ### Visits and deliveries -/

theorem handed?_eq {x : Exchange (Worker.requests (Receiver D) D.Event)} :
    Worker.handed? (Receiver.isInbox i) x =
      (visit? i xs x.request (some x.reply)).map Visit.event := by
  obtain ⟨phase, reply⟩ := x
  cases phase with
  | delivering e target rest =>
    obtain ⟨n, receiver⟩ := target
    cases receiver with
    | sink k => rfl
    | inbox service j => by_cases hj : j = i <;> simp [Worker.handed?, Receiver.isInbox, visit?, hj]
  | _ => rfl

theorem handed_eq : Worker.handed (Receiver.isInbox i) (worked τ) =
    ((rounds τ).past.filterMap (Round.visit? i)).map Visit.event := by
  rw [worked_eq, Worker.handed, List.filterMap_map, List.map_filterMap]
  exact List.filterMap_congr fun x _ => handed?_eq

/-- The event of a visit is what the worker has still to be done with. -/
theorem coming_of_visit {w : Worker (Receiver D) D.Event} {v : Visit D}
    (h : visit? i xs w.phase none = some v) :
    w.coming (Receiver.isInbox i) = [v.event] ∧ w.phase.isDead = false := by
  obtain ⟨receivers, registered, count, phase⟩ := w
  have visiting := visiting_of_visit? h
  clear h
  generalize (none : Option phase.request.Reply) = result at visiting
  cases visiting
  refine ⟨?_, rfl⟩
  show Worker.portion _ _ (_ :: _) = _
  simp [Worker.portion, Worker.lists, Receiver.isInbox]

/-- The receiver of a runner that has not ended does not leave. -/
theorem stays_of_alive (rounded : Rounded c τ s) (attended : Attended i τ s) (alive : ¬ Fallen s i) :
    (worked τ).any (Worker.leaves (Receiver.isInbox i)) = false := by
  rw [worked_eq, List.any_map, List.any_eq_false]
  intro x hx hleaves
  obtain ⟨⟨service, hparty⟩, hturned⟩ := turned_away_of_leaves (rounded.past x hx) hleaves
  exact alive ((attended.past x hx service hparty).2 hturned)

/-! ### The reception of events -/

/-- The events that a runner was given and will be given. -/
structure Reception (c : Cast D) (i : Nat) (τ : List (Label D)) (ρ : List (Exchange (Duties D)))
    (s : System D) (t : RunnerTask D) : Prop where
  /-- What the service was given, followed by the inbox, are the first of the events that the filter of the
  service accepted. -/
  received : Runner.given ρ t.machine ++ t.inbox <+: accepted c i (visits i τ s)
  /-- The filter is asked about the events behind the registration, as they were committed. -/
  order : (visits i τ s).map Visit.event <+: eventsAfter (Receiver.isInbox i) (commands τ)
  service : ∀ v ∈ visits i τ s, v.service = t.service
  once : (commands τ).countP (Command.registers (Receiver.isInbox i)) ≤ 1
  seeding : t.machine.phase.isSeeding = true → Runner.given ρ t.machine = []
  /-- The runner waits for events until there can be no more of them. -/
  shut : t.machine.inboxOpen = false → t.inbox = [] ∧ s.worker.machine.phase.isOver = true
  /-- The worker takes everything out of the queue before it exits. -/
  exited : s.worker.machine.phase = .exited → s.channel.queue = []
  /-- As long as the runner has not ended, nothing is missing but what is in the queue, and the event that
  the worker is at, or that it died over. -/
  complete : t.ending = none → ∃ pushing ahead queued,
    accepted c i (visits i τ s) = Runner.given ρ t.machine ++ t.inbox ++ pushing ∧
    eventsAfter (Receiver.isInbox i) (commands τ) =
      (visits i τ s).map Visit.event ++ (ahead ++ queued) ∧
    queued <:+ events s.channel.queue ∧ (pushing ++ ahead).length ≤ 1 ∧
    (s.worker.machine.phase = .waiting ∨ s.worker.machine.phase = .exited →
      pushing = [] ∧ ahead = [])
  /-- And unless it panicked, the filter was asked about every event. -/
  answered : t.ending = none → ∀ v ∈ visits i τ s, v.result = some (.ok ()) →
    ∃ relevant, v.Answers c i relevant

variable {t : RunnerTask D} {ρ : List (Exchange (Duties D))}

theorem alive_of_ending (ht : s.runners[i]? = some t) (h : t.ending = none) : ¬ Fallen s i := by
  rintro ⟨t', ht', hover⟩
  rw [ht] at ht'
  cases ht'
  exact hover h

theorem mem_visits {v : Visit D} (h : v ∈ visits i τ s) :
    (∃ x ∈ (rounds τ).past, x.visit? i = some v) ∨
      visit? i (rounds τ).present s.worker.machine.phase none = some v := by
  rcases List.mem_append.mp h with h | h
  · exact Or.inl (List.mem_filterMap.mp h)
  · exact Or.inr (Option.mem_toList.mp h)

theorem Attended.service (h : Attended i τ s) (ht : s.runners[i]? = some t) {v : Visit D}
    (hv : v ∈ visits i τ s) : v.service = t.service := by
  have hfound : s.services[i]? = some v.service := by
    rcases mem_visits hv with ⟨x, hx, hv⟩ | hv
    · exact (h.past x hx v.service (party_of_visit? hv)).1
    · exact (h.present v.service (party_of_visit? hv)).1
  rw [services, List.getElem?_map, ht] at hfound
  exact (Option.some.inj hfound).symm

theorem Attended.answered (h : Attended i τ s) (rounded : Rounded c τ s) (alive : ¬ Fallen s i)
    {v : Visit D} (hv : v ∈ visits i τ s) (returned : v.result = some (.ok ())) :
    ∃ relevant, v.Answers c i relevant := by
  rcases mem_visits hv with ⟨x, hx, hv⟩ | hv
  · exact answered_of_returned (rounded.past x hx) hv returned
      ((h.past x hx).welcome alive (hv ▸ Option.some_ne_none v))
  · rw [result_of_visit? hv] at returned
    cases returned

theorem events_of_visits : (visits i τ s).map Visit.event =
    Worker.handed (Receiver.isInbox i) (worked τ) ++
      (visit? i (rounds τ).present s.worker.machine.phase none).toList.map Visit.event := by
  rw [visits, List.map_append, handed_eq]

/-- As long as the runner has not ended, what the filter accepted was put into the inbox, up to the event that
the worker is at. -/
theorem Run.all_pushed (new : s₀.IsNew) (h : Run c s₀ τ s) (alive : ¬ Fallen s i) : ∃ pushing,
    accepted c i (visits i τ s) = mail i τ ++ pushing ∧ pushing.length ≤ 1 ∧
    (visit? i (rounds τ).present s.worker.machine.phase none = none → pushing = []) := by
  have rounded := h.rounded new
  obtain ⟨pushing, hpushing⟩ := rounded.present_mail (i := i)
  refine ⟨pushing, ?_, ?_, fun hnone => ?_⟩
  · rw [h.mail_eq new, Rounds.mail, mail_of_alive rounded (h.attended new) alive, accepted_visits_append,
      ← hpushing, List.append_assoc]
  · have hlength := congrArg List.length hpushing
    rw [List.length_append] at hlength
    have hmost : (accepted c i
        (visit? i (rounds τ).present s.worker.machine.phase none).toList).length ≤ 1 := by
      cases visit? i (rounds τ).present s.worker.machine.phase none with
      | none => exact Nat.zero_le 1
      | some v =>
        rw [Option.toList_some, accepted_singleton]
        exact accepted_length
    omega
  · rw [hnone] at hpushing
    exact (List.append_eq_nil_iff.mp hpushing).2

/-- The events behind the registration of a runner were taken by the worker, or are in the queue. -/
theorem Account.events_after (h : Account τ s) (i : Nat) : ∃ queued,
    eventsAfter (Receiver.isInbox i) (commands τ) =
      eventsAfter (Receiver.isInbox i) (Worker.taken (worked τ)) ++ queued ∧
    queued <:+ events s.channel.queue := by
  rw [commands, h.queue]
  exact eventsAfter_append

theorem coming_of_dead {w : Worker (Receiver D) D.Event} {mine : Receiver D → Bool}
    (h : w.phase.isDead = true) : w.coming mine = [] := by
  obtain ⟨receivers, registered, count, phase⟩ := w
  cases phase with
  | died p => rfl
  | _ => cases h

/-- The receiver is visited with the events behind its registration, in the order in which they were
committed. -/
theorem Run.visits_in_order (new : s₀.IsNew) (h : Run c s₀ τ s) :
    (visits i τ s).map Visit.event <+: eventsAfter (Receiver.isInbox i) (commands τ) := by
  have account := h.account new
  have hahead := (account.worker.hands_over ((h.registry new).taken_once account i)).1
  obtain ⟨queued, hqueued, -⟩ := account.events_after i
  rw [events_of_visits, hqueued]
  refine List.IsPrefix.trans ?_ (hahead.trans (List.prefix_append _ _))
  rw [List.prefix_append_right_inj]
  cases hopen : visit? i (rounds τ).present s.worker.machine.phase none with
  | none => exact List.nil_prefix
  | some v =>
    exact (coming_of_visit hopen).1 ▸ List.prefix_rfl

/-- As long as the runner has not ended, its receiver was handed what was committed after its registration, up
to the event that the worker is at or died over, and to the queue. -/
theorem Run.all_handed (new : s₀.IsNew) (h : Run c s₀ τ s) (alive : ¬ Fallen s i) : ∃ ahead queued,
    eventsAfter (Receiver.isInbox i) (commands τ) =
      (visits i τ s).map Visit.event ++ (ahead ++ queued) ∧
    queued <:+ events s.channel.queue ∧ ahead.length ≤ 1 ∧
    (visit? i (rounds τ).present s.worker.machine.phase none ≠ none → ahead = []) ∧
    (s.worker.machine.phase = .waiting ∨ s.worker.machine.phase = .exited → ahead = []) := by
  have account := h.account new
  have once := (h.registry new).taken_once account i
  obtain ⟨lost, hlost, hdead⟩ := (account.worker.hands_over once).2
    (stays_of_alive (h.rounded new) (h.attended new) alive)
  obtain ⟨queued, hqueued, hsuffix⟩ := account.events_after i
  rw [hlost, List.append_assoc] at hqueued
  rw [events_of_visits, hqueued]
  cases hopen : visit? i (rounds τ).present s.worker.machine.phase none with
  | some v =>
    obtain ⟨hcoming, halive⟩ := coming_of_visit hopen
    obtain rfl : lost = [] := by
      refine hdead.resolve_right ?_
      rintro ⟨dead, -⟩
      rw [halive] at dead
      cases dead
    refine ⟨[], queued, ?_, hsuffix, Nat.zero_le 1, fun _ => rfl, fun _ => rfl⟩
    rw [hcoming]
    simp
  | none =>
    refine ⟨s.worker.machine.coming (Receiver.isInbox i) ++ lost, queued, ?_, hsuffix, ?_,
      fun hsome => absurd rfl hsome, fun between => ?_⟩
    · simp
    · rcases hdead with rfl | ⟨dead, hlost⟩
      · rw [List.append_nil]
        exact Worker.coming_length
      · rwa [coming_of_dead dead]
    · have hcoming : s.worker.machine.coming (Receiver.isInbox i) = [] := by
        unfold Worker.coming
        rcases between with hp | hp <;> rw [hp]
      obtain rfl : lost = [] := by
        refine hdead.resolve_right ?_
        rintro ⟨dead, -⟩
        rcases between with hp | hp <;> rw [hp] at dead <;> cases dead
      rw [hcoming, List.append_nil]

/-- A runner is given the events that the filter of its service accepts among those that were committed after
its registration, in order, without loss or repetition. -/
theorem Observed.receives_in_order (new : s₀.IsNew) (h : Observed c s₀ i τ ρ s)
    (ht : s.runners[i]? = some t) : Reception c i τ ρ s t := by
  have run := h.run
  have account := run.account new
  have registry := run.registry new
  have attended := run.attended (i := i) new
  have postbox := (h.postbox new).1 t ht
  have hgiven : mail i τ = Runner.given ρ t.machine ++ t.inbox := by
    rw [postbox.contents, postbox.run.given_eq]
  refine ⟨?_, ?_, fun v hv => attended.service ht hv, registry.once i, fun seeding => ?_, postbox.shut,
    fun exited => ?_, fun working => ?_, fun working v hv returned => ?_⟩
  · rw [← hgiven]
    exact run.mail_accepted new
  · exact run.visits_in_order new
  · rw [postbox.run.given_eq, postbox.run.taken_seeding seeding]
  · have gate := run.gate new (account.worker.composed (by rw [exited]; rfl))
    exact (gate.leaving.resolve_left (not_working_of_isOver (by rw [exited]; rfl))).2
  · have alive := alive_of_ending ht working
    obtain ⟨pushing, hpushing, hpushed, hidle⟩ := run.all_pushed new alive
    obtain ⟨ahead, queued, hahead, hsuffix, hhanded, hopen, hbetween⟩ := run.all_handed new alive
    refine ⟨pushing, ahead, queued, hgiven ▸ hpushing, hahead, hsuffix, ?_, fun between =>
      ⟨hidle ?_, hbetween between⟩⟩
    · by_cases hnone : visit? i (rounds τ).present s.worker.machine.phase none = none
      · rw [hidle hnone]
        exact hhanded
      · rw [hopen hnone, List.append_nil]
        exact hpushed
    · rcases between with hp | hp <;> rw [hp] <;> rfl
  · exact attended.answered (run.rounded new) (alive_of_ending ht working) hv returned

/-! ### The morning of a clerk -/

def replies (c : Cast D) (i : Nat) (s : System D) : List (Move D) → List (Exchange (Duties D))
  | [] => []
  | .begin f :: moves => replies c i (s.start f) moves
  | .step a :: moves =>
    match s.step c a with
    | none => replies c i s moves
    | some s' => (s.replied? c i a).toList ++ replies c i s' moves

theorem Observed.play (h : Observed c s₀ i τ ρ s) (moves : List (Move D)) :
    Observed c s₀ i (τ ++ (s.play c moves).1) (ρ ++ s.replies c i moves) (s.play c moves).2 := by
  induction moves generalizing s τ ρ with
  | nil =>
    rw [System.play, replies, List.append_nil, List.append_nil]
    exact h
  | cons move moves ih =>
    cases move with
    | begin f =>
      rw [System.play, replies, List.append_cons]
      exact ih (h.call f)
    | step a =>
      cases hs : s.step c a with
      | none =>
        simp only [System.play, replies, hs]
        exact ih h
      | some s' =>
        simp only [System.play, replies, hs]
        rw [List.append_cons, ← List.append_assoc]
        exact ih (h.step hs)

theorem Observed.played (moves : List (Move D)) :
    Observed c s i (s.play c moves).1 (s.replies c i moves) (s.play c moves).2 := by
  simpa only [List.nil_append] using Observed.refl.play moves

abbrev office : Domain where
  Event := Nat
  Id := Empty
  decEqId := inferInstance
  Service := Unit
  Sink := Empty
  Calls := ⟨Empty, nofun⟩
  State := Unit
  Result := Unit

/-- A clerk is about the even numbers. -/
def clerks : Cast office where
  service _ :=
    { name := "clerk"
      jitter := .none
      time := .clock
      processOne := nofun
      checkAll := pure .stop
      checkOne := nofun
      checkInterval := pure (Duration.ofMillis 1000)
      filterEvent := fun e => pure (e % 2 == 0)
      receiveEvent := fun _ => pure [] }
  sink := nofun
  nameId := nofun
  answer := nofun

def monday : System office :=
  { clock := { wall := .epoch }, hostTime := .epoch, channel := .empty 8, state := () }

def submit (e : Nat) : Activity office Unit := do
  let _ ← Activity.send e

def engage : Activity office Unit := do
  let _ ← Activity.startRunner ()

/-- The 8 is there before the clerk.  The 1 and the 2 come in its seeding pass, and the 4 when it is done with
the 2. -/
def morning : List (Move office) := List.flatten
  [[.begin (submit 8), .begin engage], turns 5 (.call 0), turns 6 (.call 1),
    [.begin (submit 1), .begin (submit 2)], turns 3 (.runner 0), turns 5 (.call 2), turns 5 (.call 3),
    turns 15 .worker, turns 5 (.runner 0), turns 1 (.call 1), turns 5 (.runner 0), [.begin (submit 4)],
    turns 5 (.call 4), turns 6 .worker]

theorem receives_in_order_clerk :
    ∃ t, (monday.play clerks morning).2.runners[0]? = some t ∧
      Runner.given (monday.replies clerks 0 morning) t.machine = [2] ∧ t.inbox = [4] ∧
      eventsAfter (Receiver.isInbox 0) (commands (monday.play clerks morning).1) = [1, 2, 4] ∧
      accepted clerks 0 (visits 0 (monday.play clerks morning).1 (monday.play clerks morning).2) =
        [2, 4] := by
  have new : monday.IsNew := ⟨⟨8, rfl⟩, rfl, rfl, rfl⟩
  have observed : Observed clerks monday 0 (monday.play clerks morning).1
      (monday.replies clerks 0 morning) (monday.play clerks morning).2 := Observed.played morning
  have waiting : (monday.play clerks morning).2.worker.machine.phase = .waiting :=
    (phase_of_not_isCalling (by decide +kernel)).resolve_right (by decide +kernel)
  obtain ⟨t, ht⟩ : ∃ t, (monday.play clerks morning).2.runners[0]? = some t :=
    Option.isSome_iff_exists.mp (by decide +kernel)
  have look {α : Type} {f : RunnerTask office → α} {x : α}
      (h : (monday.play clerks morning).2.runners[0]?.map f = some x) : f t = x := by
    rw [ht] at h
    exact Option.some.inj h
  have working : t.ending = none := look (by decide +kernel)
  have inbox : (t.inbox : List Nat) = [4] := look (by decide +kernel)
  have given : (Runner.given (monday.replies clerks 0 morning) t.machine : List Nat) = [2] :=
    look (f := fun t => Runner.given (monday.replies clerks 0 morning) t.machine) (by decide +kernel)
  obtain ⟨pushing, ahead, queued, hpushing, -, -, -, between⟩ :=
    (Observed.receives_in_order new observed ht).complete working
  refine ⟨t, ht, given, inbox, by decide +kernel, ?_⟩
  rw [hpushing, (between (Or.inl waiting)).1, given, inbox]
  rfl

end Reveille.System
