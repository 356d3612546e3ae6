import Reveille.Proofs.Poll.Attention

/-!
# A system that cares for its polls

`Cared` is the invariant of a system with a scheduler, as far as runners and polls go: the bus is
open, the runners go on and are known to the worker once they were launched, and every runner handles
every poll.  A step keeps it (`Cared.step`) if what it does to the store and to the staff is in order
(`Tidy`).  Steps of mannerly routines are (`tidy_of_mannerly`), and so are those of the call that
starts the runners (`tidy_of_hiring`).
-/

namespace Reveille.Poll

open Program Reveille.System

variable {Sink : Type} {X : Signature} {σ : Type} {W : World Sink X σ}
  {s s' : System (place Sink X σ)} {d : Duty} {id : Id} {a : Actor} {i j : Nat}
  {t t' u : RunnerTask (place Sink X σ)}

def duty? (s : System (place Sink X σ)) : Actor → Option Duty
  | .runner i => s.runners[i]?.map (·.service)
  | _ => none

theorem duty?_runner : duty? s (.runner i) = s.runners[i]?.map (·.service) := rfl

structure Cared (s : System (place Sink X σ)) : Prop where
  isOpen : s.Open
  unmoved : s.clock.skew = 0
  serving : Serving s
  distinct : (s.staff.map Badge.service).Nodup
  lasting : s.state.1.Lasts
  steady : ∀ (i : Nat) t, s.runners[i]? = some t → Steady s t
  enrolled : ∀ (i : Nat) t, s.runners[i]? = some t → t.launched = true → Enrolled s t.service i
  handled : ∀ (i : Nat) t, s.runners[i]? = some t → ∀ id, Handled s i t id

/-- What a step does to the store and to the staff is in order. -/
structure Tidy (s : System (place Sink X σ)) (a : Actor) (s' : System (place Sink X σ)) : Prop where
  alone : ∀ i, a = .runner i → s'.staff = s.staff
  distinct : (s'.staff.map Badge.service).Nodup
  lasting : s'.state.1.Lasts
  launching : ∀ (i : Nat) t t', s.runners[i]? = some t →
    s'.runners[i]? = some t' → t.launched = false → t'.launched = true → Enrolled s t.service i
  seen : ∀ d id, duty? s a ≠ some d → Undisturbed d id (glance s) (glance s') ∨ Owed s' d id

/-! ### Where the runners of a step come from -/

/-- A runner after a step made it itself, was there before, or was just hired. -/
inductive Came (W : World Sink X σ) (s : System (place Sink X σ)) (a : Actor)
    (s' : System (place Sink X σ)) (i : Nat) (t' : RunnerTask (place Sink X σ)) : Prop
  | self {t : RunnerTask (place Sink X σ)} (actor : a = .runner i) (before : s.runners[i]? = some t)
      (running : t.mayRun = true) (step : RunnerStep W.cast s i t s')
  | stayed {t : RunnerTask (place Sink X σ)} (other : a ≠ .runner i)
      (before : s.runners[i]? = some t) (nudged : t.Nudged t')
  | hired (task : t' = { service := t'.service, machine := .init (W.cast.service t'.service).jitter })

theorem came_of_moves (hm : Moves W.cast s a s')
    (self : ∀ i, a = .runner i → ∃ t, s.runners[i]? = some t ∧ t.mayRun = true ∧
      RunnerStep W.cast s i t s') (ht' : s'.runners[i]? = some t') : Came W s a s' i t' := by
  by_cases ha : a = .runner i
  · obtain ⟨t, ht, running, step⟩ := self i ha
    exact .self ha ht running step
  · rcases hm.progress.before ha ht' with hi | htask
    · obtain ⟨t'', ht'', hn⟩ := hm.progress.runner ha (List.getElem?_eq_getElem hi)
      obtain rfl := Option.some.inj (ht'.symm.trans ht'')
      exact .stayed ha (List.getElem?_eq_getElem hi) hn
    · exact .hired htask

theorem badge_of_runner (h : s.runners[i]? = some t) : s.staff[i]? = some t.badge := by
  rw [staff, List.getElem?_map, h]
  rfl

theorem badge_of_staff (h : s'.staff = s.staff) (ht : s.runners[i]? = some t)
    (ht' : s'.runners[i]? = some t') : t'.badge = t.badge := by
  have hbadge := badge_of_runner ht'
  rw [h, badge_of_runner ht] at hbadge
  exact (Option.some.inj hbadge).symm

/-- Two runners of one duty are the same. -/
theorem eq_of_service (distinct : (s.staff.map Badge.service).Nodup) (ht : s.runners[i]? = some t)
    (hu : s.runners[j]? = some u) (h : t.service = u.service) : i = j := by
  have hi : (s.staff.map Badge.service)[i]? = some t.service := by
    rw [List.getElem?_map, badge_of_runner ht]
    rfl
  have hj : (s.staff.map Badge.service)[j]? = some u.service := by
    rw [List.getElem?_map, badge_of_runner hu]
    rfl
  have hlen : i < (s.staff.map Badge.service).length := (List.getElem?_eq_some_iff.mp hi).1
  exact (List.getElem?_inj hlen distinct).mp (hi.trans (h ▸ hj.symm))

theorem steady_of_hired
    (h : t = { service := t.service, machine := .init (W.cast.service t.service).jitter }) :
    Steady s t := by
  rw [h]
  refine ⟨rfl, fun _ => ⟨rfl, rfl⟩, Or.inr (Or.inl rfl), ⟨rfl, trivial⟩, fun r hr => ?_,
    fun limit hphase => ?_⟩
  · cases hr
  · cases hphase

/-! ### Steps -/

theorem Cared.step (h : Cared s) (hm : Moves W.cast s a s')
    (self : ∀ i, a = .runner i → ∃ t, s.runners[i]? = some t ∧ t.mayRun = true ∧
      RunnerStep W.cast s i t s') (tidy : Tidy s a s') : Cared s' := by
  obtain ⟨htime, hclock, haccepting, hlistening⟩ := hm.progress.frame
  have hserving : Serving s' := by
    by_cases ha : a = .worker
    · exact h.serving.step (hm.worker ha)
    · obtain ⟨hworker, -⟩ := hm.progress.away ha
      obtain ⟨hworking, hattends⟩ := h.serving
      refine ⟨?_, ?_⟩
      · rw [hworker]
        exact hworking
      · rw [hworker]
        exact hattends
  have hsteady : ∀ (i : Nat) t', s'.runners[i]? = some t' →
      (t'.ending = none ∧ t'.aborted = false) ∧ Steady s' t' := by
    intro i t' ht'
    cases came_of_moves hm self ht' with
    | self actor before running step =>
      have kept := (h.isOpen.running _ (List.mem_of_getElem? before)).2
      obtain ⟨t'', ht'', hending, hs'⟩ :=
        (h.steady i _ before).step running kept h.serving.alive h.unmoved step
      obtain rfl := Option.some.inj (ht'.symm.trans ht'')
      exact ⟨hending, hs'⟩
    | stayed other before nudged =>
      refine ⟨?_, (h.steady i _ before).nudged nudged htime hclock⟩
      rw [nudged.ending.1, nudged.ending.2]
      exact h.isOpen.running _ (List.mem_of_getElem? before)
    | hired task => exact ⟨by rw [task]; exact ⟨rfl, rfl⟩, steady_of_hired task⟩
  have henrolled : ∀ (i : Nat) t', s'.runners[i]? = some t' → t'.launched = true →
      Enrolled s' t'.service i := by
    intro i t' ht' hl'
    have before {t : RunnerTask (place Sink X σ)} (ht : s.runners[i]? = some t)
        (hservice : t'.service = t.service) : Enrolled s' t'.service i := by
      rw [hservice]
      refine hm.enrolled (List.getElem?_eq_some_iff.mp ht).1 ?_
      cases hl : t.launched with
      | true => exact h.enrolled i t ht hl
      | false => exact tidy.launching i t t' ht ht' hl hl'
    cases came_of_moves hm self ht' with
    | self actor ht running step =>
      exact before ht (congrArg Badge.service (badge_of_staff (tidy.alone i actor) ht ht'))
    | stayed other ht nudged => exact before ht nudged.service
    | hired task =>
      rw [task] at hl'
      cases hl'
  refine ⟨⟨haccepting.trans h.isOpen.accepting, hlistening.trans h.isOpen.listening, ?_⟩,
    by rw [hclock]; exact h.unmoved, hserving, tidy.distinct, tidy.lasting,
    fun i t' ht' => (hsteady i t' ht').2, henrolled, ?_⟩
  · intro t' ht'
    obtain ⟨i, hi⟩ := List.getElem?_of_mem ht'
    exact (hsteady i t' hi).1
  · intro i t' ht' id
    cases came_of_moves hm self ht' with
    | @self t actor ht running step =>
      subst actor
      exact (h.handled i t ht id).step ht (h.steady i t ht).runs h.lasting step ht'
        (badge_of_staff (tidy.alone i rfl) ht ht') hm (h.enrolled i t ht)
    | @stayed t other ht nudged =>
      refine (h.handled i t ht id).others other ht nudged (hsteady i t' ht').2 hm
        (h.enrolled i t ht) (tidy.seen t.service id ?_)
      intro hduty
      cases a with
      | worker => cases hduty
      | call j => cases hduty
      | runner j =>
        obtain ⟨u, hu, hservice⟩ := Option.map_eq_some_iff.mp hduty
        exact other (congrArg Actor.runner (eq_of_service h.distinct hu ht hservice))
    | hired task =>
      refine Or.inl (attentive_of_dormant (hsteady i t' ht').2 ?_)
      rw [task]

theorem not_launched (h : s'.staff = s.staff) (ht : s.runners[i]? = some t)
    (ht' : s'.runners[i]? = some t') (hl : t.launched = false) : t'.launched = false :=
  (congrArg Badge.launched (badge_of_staff h ht ht')).trans hl

theorem tidy_of_staff (h : Cared s) (hstaff : s'.staff = s.staff) (lasting : s'.state.1.Lasts)
    (seen : ∀ d id, duty? s a ≠ some d → Undisturbed d id (glance s) (glance s') ∨ Owed s' d id) :
    Tidy s a s' := by
  refine ⟨fun _ _ => hstaff, ?_, lasting, ?_, seen⟩
  · rw [hstaff]
    exact h.distinct
  · intro i t t' ht ht' hl hl'
    rw [not_launched hstaff ht ht' hl] at hl'
    cases hl'

theorem Cared.lasts (h : Cared s) (hg : glance s' = glance s) : s'.state.1.Lasts := by
  rw [show s'.state.1 = s.state.1 from congrArg Glance.store hg]
  exact h.lasting

/-- The routines of clients, of services and of receivers keep store and staff in order. -/
theorem tidy_of_mannerly (h : Cared s) (hp : Progress W.cast s a s')
    (mannerly : ∀ r, Doing W.cast s a r → ∃ st, Mannerly (duty? s a) st r) : Tidy s a s' := by
  refine tidy_of_staff h ?_ ?_ fun d id hown => disturbed hp mannerly hown
  · refine hp.staff fun q rest doing => ?_
    obtain ⟨st, -, may, -⟩ := mannerly _ doing
    exact may.plain
  · cases hp with
    | @asked q rest reply s₁ doing answered aside residual =>
      obtain ⟨st, -, may, -⟩ := mannerly _ doing
      have hsees := sees_of_answered answered
      rw [← glance_of_aside aside] at hsees
      by_cases hq : ∃ r, q = .call (.inl r)
      · obtain ⟨r, rfl⟩ := hq
        exact h.lasting.answer may.lasting hsees.1
      · exact h.lasts (hsees.same (not_exists.mp hq))
    | ended _ aside _ => exact h.lasts (glance_of_aside aside)
    | received _ _ _ aside _ => exact h.lasts ((glance_of_aside aside).trans rfl)

theorem tidy_of_aside (h : Cared s) (aside : Aside a s s') : Tidy s a s' := by
  have hglance := glance_of_aside aside
  refine tidy_of_staff h aside.staff (h.lasts hglance) fun d id _ => Or.inl ?_
  rw [hglance]
  exact .refl _

/-! ### The call that starts the scheduler -/

section
variable {k : Nat} {q : System.Request (place Sink X σ)} {reply : q.Reply}

theorem services_modify {S : Type} {g : Badge S → Badge S} (h : ∀ b, (g b).service = b.service)
    (l : List (Badge S)) (i : Nat) : (l.modify i g).map Badge.service = l.map Badge.service := by
  refine List.ext_getElem? fun j => ?_
  rw [List.getElem?_map, List.getElem?_map, List.getElem?_modify]
  cases l[j]? with
  | none => rfl
  | some b =>
    by_cases hj : i = j
    · simp [hj, h]
    · simp [hj]

/-- One who starts runners leaves the polls alone, and launches nobody who is not enrolled. -/
theorem hiring_keeps (h : Cared s) (calm : q.Calm) (answered : Answered W.cast a s q reply s')
    (guar : (hiring W.cast a).guar q s reply s') : (s'.staff.map Badge.service).Nodup ∧
      glance s' = glance s ∧
      ∀ (i : Nat) t t', s.runners[i]? = some t → s'.runners[i]? = some t' → t.launched = false →
        t'.launched = true → Enrolled s t.service i := by
  have hglance : glance s' = glance s := by
    have hsees := sees_of_answered answered
    cases q with
    | call q => exact False.elim guar
    | readTime source =>
      cases source with
      | clock => exact hsees.2
      | host => exact hsees
    | _ => exact hsees
  have same {i : Nat} {t t' : RunnerTask (place Sink X σ)} (hlaunched : t'.launched = t.launched)
      (hl : t.launched = false) (hl' : t'.launched = true) : Enrolled s t.service i := by
    rw [hl', hl] at hlaunched
    cases hlaunched
  have plain (hq : q.Plain) : (s'.staff.map Badge.service).Nodup ∧ glance s' = glance s ∧
      ∀ (i : Nat) t t', s.runners[i]? = some t → s'.runners[i]? = some t' → t.launched = false →
        t'.launched = true → Enrolled s t.service i := by
    have hstaff := answered.deed.staff hq
    refine ⟨by rw [hstaff]; exact h.distinct, hglance, fun i t t' ht ht' => same ?_⟩
    exact congrArg Badge.launched (badge_of_staff hstaff ht ht')
  cases q with
  | hire service =>
    cases answered.deed with
    | nothing light _ _ _ => exact False.elim light
    | hire _ runners _ =>
      refine ⟨?_, hglance, fun i t t' ht ht' => same ?_⟩
      · rw [System.staff, runners, List.map_append, ← System.staff, List.map_append]
        refine List.nodup_append.mpr ⟨h.distinct, List.nodup_singleton _, ?_⟩
        intro x hx y hy
        obtain ⟨b, hb, rfl⟩ := List.mem_map.mp hx
        rw [List.mem_singleton.mp hy]
        exact guar b hb
      · rw [runners, List.getElem?_append_left (List.getElem?_eq_some_iff.mp ht).1, ht] at ht'
        exact congrArg RunnerTask.launched (Option.some.inj ht').symm
  | launch j =>
    cases answered.deed with
    | nothing light _ _ _ => exact False.elim light
    | launch _ runners _ =>
      refine ⟨?_, hglance, fun i t t' ht ht' hl hl' => ?_⟩
      · rw [System.staff, runners, badges_modify (g := fun b => { b with launched := true }),
          services_modify]
        · exact h.distinct
        · exact fun _ => rfl
        · exact fun _ => rfl
      · rw [runners, List.getElem?_modify, ht] at ht'
        split at ht'
        · next hj =>
          subst hj
          exact guar t.badge (badge_of_runner ht)
        · exact same (congrArg RunnerTask.launched (Option.some.inj ht').symm) hl hl'
  | release j =>
    cases answered.deed with
    | nothing light _ _ _ => exact False.elim light
    | release _ _ _ runners _ =>
      refine ⟨?_, hglance, fun i t t' ht ht' => same ?_⟩
      · rw [System.staff, runners, badges_modify (g := fun b => { b with released := true }),
          services_modify]
        · exact h.distinct
        · exact fun _ => rfl
        · exact fun _ => rfl
      · rw [runners, List.getElem?_modify, ht] at ht'
        split at ht'
        · rw [← Option.some.inj ht']
        · rw [← Option.some.inj ht']
  | panic p => exact False.elim calm
  | beginClose => exact False.elim calm
  | requestStop j => exact False.elim calm
  | abort j => exact False.elim calm
  | _ => exact plain trivial

theorem tidy_of_hiring {s₁ : System (place Sink X σ)} (h : Cared s) (calm : q.Calm)
    (answered : Answered W.cast (.call k) s q reply s₁)
    (guar : (hiring W.cast (.call k)).guar q s reply s₁) (aside : Aside (.call k) s₁ s') :
    Tidy s (.call k) s' := by
  obtain ⟨hdistinct, hglance, hlaunching⟩ := hiring_keeps h calm answered guar
  rw [← glance_of_aside aside] at hglance
  refine ⟨nofun, by rw [aside.staff]; exact hdistinct, ?_, ?_, fun d id _ => ?_⟩
  · rw [show s'.state.1 = s.state.1 from congrArg Glance.store hglance]
    exact h.lasting
  · intro i t t' ht ht'
    rw [aside.runners i nofun] at ht'
    exact hlaunching i t t' ht ht'
  · left
    rw [hglance]
    exact .refl _

end

end Reveille.Poll
