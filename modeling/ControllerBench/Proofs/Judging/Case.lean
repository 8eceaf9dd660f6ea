import ControllerBench.Proofs.Delivery.Ledger
import ControllerBench.Proofs.Judging.Report
import ControllerBench.Proofs.Judging.Work

namespace ControllerBench

/-- Events one after the other, each from where the one before it ended. -/
def Courses (fuel : Nat) (root : Reporter) (config : Config) :
    List Course → Schedule → Schedule → Prop
  | [], t, t' => t' = t
  | x :: rest, t, t' => ∃ u, x.Follows fuel root config t u ∧ Courses fuel root config rest u t'

variable {fuel : Nat} {root : Reporter} {config : Config} {t t' : Schedule}

theorem Courses.failures {xs : List Course} (h : Courses fuel root config xs t t') :
    t'.bench.failures.toList =
      t.bench.failures.toList ++ xs.flatMap (·.failures root config) := by
  induction xs generalizing t with
  | nil =>
    obtain rfl : t' = t := h
    simp
  | cons x rest ih =>
    obtain ⟨u, hx, hrest⟩ := h
    rw [ih hrest, hx.failures, List.flatMap_cons, List.append_assoc]

namespace Course

variable {x : Course}

structure Passes (root : Reporter) (x : Course) : Prop where
  checks : x.event.checks (x.reporter root) (x.seen 0) = []
  trigger : x.outcome.error? = none
  verifier : ∀ v, x.event.verifier = some v →
    ((v.inject (x.reporter root)).observe (x.seen 0)).fired = true
  assertions : ∀ w ∈ x.event.judged x.seen, w.Met

theorem ending_eq_nil {r : Reporter} {timeout : Duration} {as : List Action} :
    x.event.ending r timeout x.outcome as = [] ↔ x.outcome.error? = none ∧
      ∀ v, x.event.verifier = some v → ((v.inject r).observe as).fired = true := by
  unfold TestEvent.ending
  split
  next error _ herror => simp [herror]
  next v hnone hv => simp [hnone, hv]
  next hnone hv => simp [hnone, hv]

theorem failures_eq_nil : x.failures root config = [] ↔ x.Passes root := by
  rw [failures, List.append_eq_nil_iff, List.append_eq_nil_iff, ending_eq_nil,
    List.flatMap_eq_nil_iff]
  simp only [Assertion.verdict_eq_nil]
  constructor
  · rintro ⟨⟨hchecks, htrigger, hverifier⟩, hassertions⟩
    exact ⟨hchecks, htrigger, hverifier, hassertions⟩
  · rintro ⟨hchecks, htrigger, hverifier, hassertions⟩
    exact ⟨⟨hchecks, htrigger, hverifier⟩, hassertions⟩

theorem scope_of_mem_checks {e : TestEvent} (he : e.Discreet) {r : Reporter} {as : List Action}
    {f : Failure} (hf : f ∈ e.checks r as) : f.scope = r.scope := by
  unfold TestEvent.checks at hf
  cases hv : e.verifier with
  | none =>
    rw [hv] at hf
    cases hf
  | some v =>
    rw [hv] at hf
    obtain ⟨r', hr, hscope⟩ := ((he.verifier v hv).inject r).scoped_complaints as f hf
    cases hr
    exact hscope

theorem scope_of_mem_ending {e : TestEvent} {r : Reporter} {timeout : Duration} {outcome : Outcome}
    {as : List Action} {f : Failure} (hf : f ∈ e.ending r timeout outcome as) : f.scope = r.scope := by
  unfold TestEvent.ending at hf
  split at hf
  · obtain rfl := List.mem_singleton.1 hf
    rfl
  · simp only at hf
    split at hf
    · cases hf
    · obtain rfl := List.mem_singleton.1 hf
      rfl
  · cases hf

theorem scope_of_mem (hx : x.event.Discreet) {f : Failure} (hf : f ∈ x.failures root config) :
    f.scope = (x.reporter root).scope := by
  rw [failures, List.mem_append, List.mem_append] at hf
  rcases hf with (hf | hf) | hf
  · exact scope_of_mem_checks hx hf
  · exact scope_of_mem_ending hf
  · obtain ⟨w, -, hf⟩ := List.mem_flatMap.1 hf
    obtain ⟨message, -, rfl⟩ := Option.map_eq_some_iff.1 (Option.mem_toList.1 hf)
    rfl

end Course

def Registration.isController : Registration → Bool
  | controller .. => true
  | start | refuse _ => false

namespace TestCase

theorem exists_courses {es : List TestEvent} (ht : t.Discreet) (he : ∀ e ∈ es, e.Discreet)
    (h : runEvents fuel root config es t = .ok t') :
    ∃ xs, xs.map (·.event) = es ∧ Courses fuel root config xs t t' ∧ t'.Discreet := by
  induction es generalizing t with
  | nil =>
    cases h
    exact ⟨[], rfl, rfl, ht⟩
  | cons e rest ih =>
    obtain ⟨hfirst, hlater⟩ := List.forall_mem_cons.1 he
    simp only [runEvents] at h
    split at h
    · cases h
    next u hu =>
      obtain ⟨x, rfl, hx, hdiscreet⟩ := TestEvent.exists_course ht hfirst hu
      obtain ⟨xs, rfl, hxs, hend⟩ := ih hdiscreet hlater h
      exact ⟨x :: xs, rfl, ⟨u, hx, hxs⟩, hend⟩

def unseeded (root : Reporter) (resources : List (Resource × Object)) : List Failure :=
  resources.flatMap fun p =>
    match p.2.metadata with
    | some _ => []
    | none =>
      [root.failure
        s!"failed to seed {p.1.text}: {(Error.missingMetadata p.2.kind.typeName).message}" .harness]

theorem unseeded_eq_nil {resources : List (Resource × Object)} :
    unseeded root resources = [] ↔ ∀ p ∈ resources, p.2.metadata.isSome = true := by
  rw [unseeded, List.flatMap_eq_nil_iff]
  refine forall₂_congr fun p _ => ?_
  cases p.2.metadata <;> simp

theorem seed_failures (b : Bench) (resource : Resource) (o : Object) :
    (seed root b resource o).failures.toList =
      b.failures.toList ++ unseeded root [(resource, o)] := by
  cases hm : o.metadata with
  | some m => simp [seed, Tracker.add, Object.accessor, unseeded, hm]
  | none => simp [seed, Tracker.add, Object.accessor, unseeded, hm, Bench.reportError, Bench.report]

theorem seed_frame (root : Reporter) (b : Bench) (resource : Resource) (o : Object) :
    (seed root b resource o).reactors = b.reactors ∧
      (seed root b resource o).chain = b.chain ∧ (seed root b resource o).labels = b.labels := by
  unfold seed
  split <;> exact ⟨rfl, rfl, rfl⟩

theorem foldl_seed (root : Reporter) (resources : List (Resource × Object)) (b : Bench) :
    let c := resources.foldl (fun b p => seed root b p.1 p.2) b
    c.failures.toList = b.failures.toList ++ unseeded root resources ∧ c.reactors = b.reactors ∧
      c.chain = b.chain ∧ c.labels = b.labels := by
  induction resources generalizing b with
  | nil => exact ⟨(List.append_nil _).symm, rfl, rfl, rfl⟩
  | cons p rest ih =>
    obtain ⟨hfailures, hreactors, hchain, hlabels⟩ := ih (seed root b p.1 p.2)
    obtain ⟨hr, hc, hl⟩ := seed_frame root b p.1 p.2
    refine ⟨?_, hreactors.trans hr, hchain.trans hc, hlabels.trans hl⟩
    rw [List.foldl_cons, hfailures, seed_failures, List.append_assoc]
    simp [unseeded]

/-- Nothing in the case reports but the verifiers of its events, each while its event runs. -/
structure Discreet (c : TestCase) : Prop where
  events : ∀ e ∈ c.events, e.Discreet
  controllers : ∀ name watches reconciler, .controller name watches reconciler ∈ c.registrations →
    ∀ passes r, (reconciler.reconcile passes r).Abides .unreported

theorem discreet_setUp (c : TestCase) : c.setUp.Discreet := by
  obtain ⟨-, hreactors, hchain, hlabels⟩ :=
    foldl_seed c.reporter c.resources (Schedule.ofReporter c.reporter).bench
  have hempty : c.setUp.bench.reactors = #[] := hreactors
  have hnone : c.setUp.bench.chain = [] := hchain
  have hno : c.setUp.bench.labels = [] := hlabels
  exact ⟨⟨⟨by simp [hnone], by simp [hno], by simp [hno]⟩, by simp [hnone], by simp [hno]⟩,
    fun x hx => absurd (hempty ▸ hx) (Array.not_mem_empty x), List.forall_mem_nil _⟩

theorem addController_sim {name : String} {watches : List Resource} {reconciler : Reconciler}
    (h : t.addController name watches reconciler = .ok (.ok (), t')) :
    t'.sim =
      { t.sim with controllers := t.sim.controllers ++ [{ name, watches, reconciler }] } := by
  obtain ⟨-, rfl⟩ | ⟨⟨e, he⟩, -⟩ := Schedule.addController_cases h
  · rfl
  · cases he

theorem register_ok {registrations : List Registration}
    (h : register registrations t = .ok (none, t'))
    (hall : ∀ r ∈ registrations, r.isController = true) :
    t'.bench = t.bench ∧ t'.sim.started = t.sim.started ∧
      ∀ P : Terms, t.sim.Abides P →
        (∀ name watches reconciler, .controller name watches reconciler ∈ registrations →
          ∀ passes r, (reconciler.reconcile passes r).Abides P) → t'.sim.Abides P := by
  induction registrations generalizing t with
  | nil =>
    cases h
    exact ⟨rfl, rfl, fun _ ht _ => ht⟩
  | cons registration rest ih =>
    simp only [register] at h
    split at h
    · cases h
    · cases h
    next u hu =>
      obtain ⟨hfirst, hrest⟩ := List.forall_mem_cons.1 hall
      obtain ⟨hbench, hstarted, habides⟩ := ih h hrest
      cases registration with
      | start | refuse => cases hfirst
      | controller name watches reconciler =>
        have hsim := addController_sim hu
        refine ⟨hbench.trans ?_, hstarted.trans ?_, fun P ht hall => ?_⟩
        · rw [Schedule.bench, hsim]
          rfl
        · rw [hsim]
        · refine habides P ?_ fun name watches reconciler hm => hall _ _ _ (List.mem_cons_of_mem _ hm)
          intro x hx
          rw [hsim] at hx
          rcases List.mem_append.1 hx with hx | hx
          · exact ht x hx
          · obtain rfl := List.mem_singleton.1 hx
            exact hall name watches reconciler List.mem_cons_self

theorem start_of_waiting (h : t.sim.started = false) (ht : t.Discreet) :
    t.start.1 = .ok () ∧ t.start.2.Discreet ∧
      t.start.2.bench.failures = t.bench.failures := by
  simp only [Schedule.start, Simulation.start, h]
  exact ⟨rfl, ⟨ht.rested, ht.reactors, ht.controllers⟩, rfl⟩

def mishap (root : Reporter) : Except Error Unit → List Failure
  | .ok () => []
  | .error e => [root.failure s!"controller manager failed: {e.message}" .harness]

theorem composed_idle {b : Bench} (h : b.Rested) : b.Composed [] 0 (fun _ => []) b where
  observing :=
    { orderly := h.orderly
      count := Nat.le_refl _
      observers := fun k x hx => by cases hx
      slots := fun p hp => .inl (h.orderly.slots p hp)
      ids := fun p hp id hi => .inl (h.orderly.ids p hp id hi)
      chain := fun x hx hlow _ => absurd (h.orderly.chain x hx) (Nat.not_lt.2 hlow)
      size := Nat.le_refl _
      issued := Nat.le_refl _ }
  log := List.prefix_refl _
  heard _ := List.nil_subset _
  failures := (List.append_nil _).symm
  hushed _ hl := .inl hl
  chain := h.chain
  labels := h.labels

theorem stop_failures {result : Except Error Unit} (ht : t.Discreet)
    (h : t.stop fuel = .ok (result, t')) : t'.bench.failures = t.bench.failures := by
  have hlone : Bench.Lone [] := fun k v waited hk => by cases hk
  have hupheld : t.Upheld .unreported (Bench.Composing t.bench [] 0) :=
    ⟨⟨_, composed_idle ht.rested⟩, ht.reactors, ht.controllers⟩
  obtain ⟨seen, hcomposed⟩ :=
    (hupheld.stop (Bench.sustained_composing hlone) h).bench
  exact Array.toList_inj.1 (hcomposed.failures.trans (List.append_nil _))

theorem shutDown_cases (h : shutDown fuel root t = .ok t') :
    t.stop fuel = .ok (.ok (), t') ∨
      ∃ e u, t.stop fuel = .ok (.error e, u) ∧ t' = blame root "controller manager failed" e u := by
  unfold shutDown at h
  split at h
  · cases h
  next u hu =>
    cases h
    exact .inl hu
  next e u hu =>
    cases h
    exact .inr ⟨e, u, hu, rfl⟩

theorem shutDown_ok (h : shutDown fuel root t = .ok t') :
    ∃ result u, t.stop fuel = .ok (result, u) ∧
      t'.bench.failures.toList = u.bench.failures.toList ++ mishap root result := by
  rcases shutDown_cases h with hu | ⟨e, u, hu, rfl⟩
  · exact ⟨_, _, hu, (List.append_nil _).symm⟩
  · exact ⟨_, _, hu, Array.toList_append⟩

/-- A case ends when a registration is refused, when the manager cannot be started, or with the manager's stop. -/
theorem run_cases {c : TestCase} (h : c.run fuel = .ok t) :
    ∃ refusal u, register c.registrations c.setUp = .ok (refusal, u) ∧
      ((∃ e, refusal = some e ∧ t = blame c.reporter "failed to add controller" e u) ∨
        refusal = none ∧
          ((∃ e, u.start.1 = .error e ∧ t = blame c.reporter "failed to start the manager" e u.start.2) ∨
            u.start.1 = .ok () ∧
              ∃ w, runEvents fuel c.reporter c.config c.events u.start.2 = .ok w ∧
                shutDown fuel c.reporter w = .ok t)) := by
  unfold run at h
  split at h
  · cases h
  next e u hu =>
    cases h
    exact ⟨_, _, hu, .inl ⟨e, rfl, rfl⟩⟩
  next u hu =>
    refine ⟨_, _, hu, .inr ⟨rfl, ?_⟩⟩
    split at h
    next e v hv =>
      cases h
      rw [hv]
      exact .inl ⟨e, rfl, rfl⟩
    next v hv =>
      split at h
      · cases h
      next w hw =>
        rw [hv]
        exact .inr ⟨rfl, w, hw, h⟩

theorem run_ok {c : TestCase} {t₀ : Schedule}
    (hregister : register c.registrations c.setUp = .ok (none, t₀)) (hstart : t₀.start.1 = .ok ())
    (h : c.run fuel = .ok t) :
    ∃ u, runEvents fuel c.reporter c.config c.events t₀.start.2 = .ok u ∧
      shutDown fuel c.reporter u = .ok t := by
  obtain ⟨refusal, u, hu, hend⟩ := run_cases h
  obtain ⟨rfl, rfl⟩ := Prod.mk.inj (Except.ok.inj (hregister.symm.trans hu))
  rcases hend with ⟨e, he, -⟩ | ⟨-, ⟨e, he, -⟩ | ⟨-, hw⟩⟩
  · cases he
  · cases hstart.symm.trans he
  · exact hw

theorem within_scope (root : Reporter) (name : String) :
    (root.within name).scope = root.scope ++ "/" ++ name := rfl

theorem within_scope_inj {name other : String} :
    (root.within name).scope = (root.within other).scope ↔ name = other := by
  simp [within_scope, String.ext_iff]

theorem within_scope_ne {name : String} : (root.within name).scope ≠ root.scope := by
  intro h
  have hlength := congrArg String.length h
  have hslash : "/".length = 1 := rfl
  simp only [within_scope, String.length_append] at hlength
  omega

theorem scope_of_mem_unseeded {resources : List (Resource × Object)} {f : Failure}
    (hf : f ∈ unseeded root resources) : f.scope = root.scope := by
  obtain ⟨p, -, hp⟩ := List.mem_flatMap.1 hf
  split at hp
  · cases hp
  · obtain rfl := List.mem_singleton.1 hp
    rfl

theorem scope_of_mem_mishap {result : Except Error Unit} {f : Failure}
    (hf : f ∈ mishap root result) : f.scope = root.scope := by
  unfold mishap at hf
  split at hf
  · cases hf
  · obtain rfl := List.mem_singleton.1 hf
    rfl

theorem mishap_eq_nil {result : Except Error Unit} : mishap root result = [] ↔ result = .ok () := by
  unfold mishap
  split <;> simp

theorem later_scope {xs : List Course} (hxs : ∀ x ∈ xs, x.event.Discreet) {result : Except Error Unit}
    {name : String} {f : Failure}
    (hf : f ∈ xs.flatMap (·.failures root config) ++ mishap root result)
    (hscope : f.scope = (root.within name).scope) : ∃ y ∈ xs, y.event.name = name := by
  rcases List.mem_append.1 hf with hf | hf
  · obtain ⟨y, hy, hf⟩ := List.mem_flatMap.1 hf
    have hyscope : f.scope = (root.within y.event.name).scope := Course.scope_of_mem (hxs y hy) hf
    exact ⟨y, hy, within_scope_inj.1 (hyscope.symm.trans hscope)⟩
  · exact absurd (hscope.symm.trans (scope_of_mem_mishap hf)) within_scope_ne

/--
The events come in the order in which they are declared, each with what was reported of it, between the
objects that could not be seeded and what stopping the manager comes to.
-/
theorem reports_event_by_event {c : TestCase} {t₀ : Schedule} (hc : c.Discreet)
    (hregister : register c.registrations c.setUp = .ok (none, t₀))
    (hcontrollers : ∀ r ∈ c.registrations, r.isController = true) (h : c.run fuel = .ok t) :
    ∃ (xs : List Course) (u after : Schedule) (result : Except Error Unit),
      xs.map (·.event) = c.events ∧ Courses fuel c.reporter c.config xs t₀.start.2 u ∧
      u.stop fuel = .ok (result, after) ∧
      (c.report t).failures = unseeded c.reporter c.resources ++
        xs.flatMap (·.failures c.reporter c.config) ++ mishap c.reporter result ∧
      (∀ f ∈ unseeded c.reporter c.resources ++ mishap c.reporter result, f.scope = c.name) ∧
      (∀ x ∈ xs, ∀ f ∈ x.failures c.reporter c.config,
        f.scope = (c.reporter.within x.event.name).scope) ∧
      (∀ earlier x later, xs = earlier ++ x :: later →
        ∀ f ∈ later.flatMap (·.failures c.reporter c.config) ++ mishap c.reporter result,
          f.scope = (c.reporter.within x.event.name).scope →
            ∃ y ∈ later, y.event.name = x.event.name) ∧
      ((c.report t).passed = true ↔ (∀ p ∈ c.resources, p.2.metadata.isSome = true) ∧
        (∀ x ∈ xs, x.Passes c.reporter) ∧ result = .ok ()) := by
  -- seeding, registering and starting leave a bench on which nobody can report
  obtain ⟨hbench, hstarted, habides⟩ := register_ok hregister hcontrollers
  have hsetup := discreet_setUp c
  have ht₀ : t₀.Discreet :=
    ⟨hbench ▸ hsetup.rested, hbench ▸ hsetup.reactors, habides _ hsetup.controllers hc.controllers⟩
  obtain ⟨hok, ht₁, hfailures⟩ := start_of_waiting (hstarted.trans rfl) ht₀
  obtain ⟨u, hevents, hshut⟩ := run_ok hregister hok h
  obtain ⟨xs, hmap, hcourses, hu⟩ := exists_courses ht₁ hc.events hevents
  obtain ⟨result, after, hstop, hlast⟩ := shutDown_ok hshut
  have hseeded : t₀.start.2.bench.failures.toList = unseeded c.reporter c.resources := by
    rw [hfailures, hbench]
    exact (foldl_seed c.reporter c.resources (Schedule.ofReporter c.reporter).bench).1
  have hreport : (c.report t).failures = unseeded c.reporter c.resources ++
      xs.flatMap (·.failures c.reporter c.config) ++ mishap c.reporter result := by
    rw [← hseeded, ← hcourses.failures, ← stop_failures hu hstop]
    exact hlast
  have hdiscreet : ∀ x ∈ xs, x.event.Discreet := fun x hx =>
    hc.events _ (hmap ▸ List.mem_map_of_mem hx)
  refine ⟨xs, u, after, result, hmap, hcourses, hstop, hreport, ?_, ?_, ?_, ?_⟩
  · exact List.forall_mem_append.2
      ⟨fun f hf => scope_of_mem_unseeded hf, fun f hf => scope_of_mem_mishap hf⟩
  · exact fun x hx f hf => Course.scope_of_mem (hdiscreet x hx) hf
  · rintro earlier x later rfl f hf hscope
    have hlater : ∀ y ∈ later, y.event.Discreet := fun y hy => hdiscreet y (by simp [hy])
    exact later_scope hlater hf hscope
  · rw [Report.passed, hreport, List.isEmpty_iff, List.append_eq_nil_iff, List.append_eq_nil_iff,
      unseeded_eq_nil, List.flatMap_eq_nil_iff, mishap_eq_nil, and_assoc]
    simp only [Course.failures_eq_nil]

def awaited : TestEvent where
  name := "awaited"
  trigger := .done .pass
  verifier := some (.seen (.ofVerb "create"))

def refused : TestEvent where
  name := "refused"
  trigger := .invoke (Bench.deletion "a") fun _ => .done (.fail .queueClosed)
  verifier := some (.passes (.ofVerb "delete") (Check.failing "unexpected"))
  assertions := [.expect (.ofVerb "create") .seen, .expect (.ofVerb "delete") .seen]

def lapses : TestCase where
  name := "lapses"
  resources := [(Bench.jobs, Bench.job "b"), (Bench.jobs, ⟨⟨"raw", "Raw"⟩, none, .text ""⟩)]
  registrations := [.controller "jobs" [Bench.jobs] ⟨fun _ _ => .done .pass, fun _ _ => .ignore⟩]
  events := [awaited, refused]

theorem discreet_lapses : lapses.Discreet where
  events := by
    refine List.forall_mem_cons.2 ⟨?_, List.forall_mem_singleton.2 ?_⟩
    · exact ⟨⟨.done, List.forall_mem_nil _⟩, fun v hv => Option.some.inj hv ▸ .leaf rfl, nofun⟩
    · exact ⟨⟨.invoke fun _ => .done, List.forall_mem_nil _⟩,
        fun v hv => Option.some.inj hv ▸ .leaf rfl, nofun⟩
  controllers name watches reconciler h := by
    cases List.mem_singleton.1 h
    exact fun _ _ => .done

theorem lapses_are_all_reported :
    ∃ t, lapses.run 20 = .ok t ∧ (lapses.report t).passed = false ∧
      (lapses.report t).failures.length = 5 := by
  obtain ⟨t, hrun, hlength⟩ := ok_of_any (by decide +kernel :
    (lapses.run 20).toOption.any (fun t => (lapses.report t).failures.length == 5) = true)
  obtain ⟨⟨refusal, t₀⟩, hregister, hnone⟩ := ok_of_any (by decide +kernel :
    (register lapses.registrations lapses.setUp).toOption.any (fun r => r.1.isNone) = true)
  obtain rfl := Option.isNone_iff_eq_none.1 hnone
  obtain ⟨xs, u, after, result, -, -, -, -, -, -, -, hpassed⟩ :=
    reports_event_by_event discreet_lapses hregister (by decide) hrun
  refine ⟨t, hrun, Bool.eq_false_iff.2 fun hp => ?_, eq_of_beq hlength⟩
  cases (hpassed.1 hp).1 (Bench.jobs, ⟨⟨"raw", "Raw"⟩, none, .text ""⟩) (by simp [lapses])

end TestCase

end ControllerBench
