import ControllerBench.Proofs.Delivery.Halting
import ControllerBench.Proofs.Judging.Case
import ControllerBench.Proofs.Judging.Sessions

namespace ControllerBench

namespace Simulation

theorem Reached.leads {s s' : Simulation} (h : s.Reached) (hl : s.Leads s') : s'.Reached :=
  hl.keeps (fun _ _ hw hr => hw.step.elim fun _ hm => hr.step hm) h

end Simulation

def Registration.Lone (name : String) : Registration → Prop
  | controller n watches reconciler => Controller.Steadfast name { name := n, watches, reconciler }
  | start | refuse _ => True

namespace Session

def Step.Lone (name : String) : Step → Prop
  | register registration => registration.Lone name
  | _ => True

structure Visit where
  before : Schedule
  step : Step
  answer : Answer
  after : Schedule

def course (fuel : Nat) : List Step → Schedule → Except Fault (List Visit)
  | [], _ => .ok []
  | s :: rest, t =>
    match step fuel t s with
    | .error fault => .error fault
    | .ok (answer, u) => (course fuel rest u).map (⟨t, s, answer, u⟩ :: ·)

theorem run_eq_course (fuel : Nat) (steps : List Step) (t : Schedule) :
    run fuel steps t = (course fuel steps t).map (·.map fun v => observe v.answer v.after) := by
  induction steps generalizing t with
  | nil => rfl
  | cons s rest ih =>
    simp only [run, course]
    cases step fuel t s with
    | error fault => rfl
    | ok x =>
      simp only [ih]
      cases course fuel rest x.2 <;> rfl

/-- A stop that does not wait and leaves the router with more than there is room for. -/
def Visit.Overruns (v : Visit) : Prop :=
  match v.step with
  | .stop => v.before.Overrun
  | _ => False

/-- The same to all who look on; the answer too, but for a queue size it echoes and a stop that overruns. -/
structure Visit.Same (q : Nat) (v w : Visit) : Prop where
  bench : w.after.bench = v.after.bench
  logs : w.after.logs = v.after.logs
  answer : w.answer = v.answer.resize q ↔ (v.Overruns ↔ w.Overruns)

end Session

namespace Schedule

open Session

variable {name : String} {t t' u u' : Schedule} {fuel fuel' q q' : Nat} {a a' : Answer}

theorem Twins.inStep (name : String) : InStep (Twins name) where
  bench h := h.alike.bench
  controllers h := h.alike.controllers
  worked h hb hb' :=
    h.setBench (h.left.smooth.lone.reached.leads hb) (h.right.smooth.lone.reached.leads hb')
  settles := Twins.settles

theorem Twins.register (h : t.Twins name t') {r : Registration} (hr : r.Lone name)
    {b b' : Except Error Unit} (hu : r.run t = .ok (b, u)) (hu' : r.run t' = .ok (b', u')) :
    b' = b ∧ u.Twins name u' := by
  cases r with
  | controller n watches reconciler =>
    obtain rfl : n = name := hr.named
    obtain ⟨b, v, v', hv, hv', hvv⟩ := h.addController hr
    obtain ⟨rfl, rfl⟩ := Prod.mk.inj (Except.ok.inj (hv.symm.trans hu))
    obtain ⟨rfl, rfl⟩ := Prod.mk.inj (Except.ok.inj (hv'.symm.trans hu'))
    exact ⟨rfl, hvv⟩
  | start =>
    obtain ⟨hb, hstart⟩ := h.start
    rw [Except.ok.inj hu, Except.ok.inj hu'] at hb hstart
    exact ⟨hb.symm, hstart⟩
  | refuse =>
    cases hu
    cases hu'
    exact ⟨rfl, h⟩

theorem answer_of_not_cut (h : ¬ t.Cut) : t.answer = .ok () := by
  rw [Schedule.answer, if_neg fun ho => h ho.2.1]

theorem answer_eq_iff : t.answer = t'.answer ↔ (t.Overrun ↔ t'.Overrun) := by
  unfold Schedule.answer
  by_cases h : t.Overrun <;> by_cases h' : t'.Overrun <;> simp [h, h']

theorem Twins.same (h : u.Twins name u') {v w : Visit} (hv : v.after = u) (hw : w.after = u')
    (ha : w.answer = v.answer.resize q ↔ (v.Overruns ↔ w.Overruns)) : v.Same q w where
  bench := by
    rw [hv, hw]
    exact h.alike.bench.symm
  logs := by
    rw [hv, hw]
    exact (Twins.inStep name).logs h
  answer := ha

theorem Twins.step (h : t.Twins name t') (hq : 1 ≤ q) (hq' : 1 ≤ q') {s : Step} (hs : s.Lone name)
    (hx : Session.step fuel t (s.resize q) = .ok (a, u))
    (hx' : Session.step fuel' t' (s.resize q') = .ok (a', u')) :
    u.Twins name u' ∧ Visit.Same q' ⟨t, s.resize q, a, u⟩ ⟨t', s.resize q', a', u'⟩ := by
  cases s with
  | manage config =>
    obtain ⟨hr, hu⟩ := h.manage { config with queueSize := q } { config with queueSize := q' } hq hq' rfl
    simp only [Session.step, Step.resize, Except.ok.injEq, Prod.mk.injEq] at hx hx'
    obtain ⟨rfl, rfl⟩ := hx
    obtain ⟨rfl, rfl⟩ := hx'
    refine ⟨hu, hu.same rfl rfl (iff_of_true ?_ Iff.rfl)⟩
    rw [← hr]
    cases (t.manage { config with queueSize := q }).1 <;> rfl
  | register registration =>
    obtain ⟨⟨r, v⟩, hv, hr⟩ := Tracker.map_eq_ok hx
    obtain ⟨⟨r', v'⟩, hv', hr'⟩ := Tracker.map_eq_ok hx'
    cases hr
    cases hr'
    obtain ⟨rfl, hvv⟩ := h.register hs hv hv'
    exact ⟨hvv, hvv.same rfl rfl (iff_of_true rfl Iff.rfl)⟩
  | start =>
    obtain ⟨hr, hu⟩ := h.start
    simp only [Session.step, Step.resize, Except.ok.injEq, Prod.mk.injEq] at hx hx'
    obtain ⟨rfl, rfl⟩ := hx
    obtain ⟨rfl, rfl⟩ := hx'
    exact ⟨hu, hu.same rfl rfl (iff_of_true (congrArg Answer.status hr.symm) Iff.rfl)⟩
  | stop =>
    obtain ⟨⟨r, v⟩, hv, hr⟩ := Tracker.map_eq_ok hx
    obtain ⟨⟨r', v'⟩, hv', hr'⟩ := Tracker.map_eq_ok hx'
    cases hr
    cases hr'
    obtain ⟨hvv, rfl, rfl⟩ := h.stop hv hv'
    refine ⟨hvv, hvv.same rfl rfl ?_⟩
    change Answer.status t'.answer = .status t.answer ↔ (t.Overrun ↔ t'.Overrun)
    rw [Answer.status.injEq, eq_comm, answer_eq_iff]
  | _ =>
    obtain ⟨ha, hu⟩ := (Twins.inStep name).step h rfl hx hx'
    exact ⟨hu, hu.same rfl rfl (iff_of_true ha Iff.rfl)⟩

theorem Twins.course (h : t.Twins name t') (hq : 1 ≤ q) (hq' : 1 ≤ q') {steps : List Step}
    (hs : ∀ s ∈ steps, s.Lone name) {vs vs' : List Visit}
    (hx : Session.course fuel (steps.map (·.resize q)) t = .ok vs)
    (hx' : Session.course fuel' (steps.map (·.resize q')) t' = .ok vs') :
    List.Forall₂ (Visit.Same q') vs vs' := by
  induction steps generalizing t t' vs vs' with
  | nil =>
    cases hx
    cases hx'
    exact .nil
  | cons s rest ih =>
    simp only [List.map_cons, Session.course] at hx hx'
    split at hx
    · cases hx
    next a u hu =>
      split at hx'
      · cases hx'
      next a' u' hu' =>
        obtain ⟨ws, hws, rfl⟩ := Tracker.map_eq_ok hx
        obtain ⟨ws', hws', rfl⟩ := Tracker.map_eq_ok hx'
        obtain ⟨huu, hsame⟩ := h.step hq hq' (hs s List.mem_cons_self) hu hu'
        exact .cons hsame (ih huu (fun s hm => hs s (List.mem_cons_of_mem _ hm)) hws hws')

theorem poised_init (name : String) (b : Bench) : Poised name { sim := { bench := b } } := by
  have hl : Simulation.Lone name { bench := b } :=
    ⟨⟨[], .init b⟩, Nat.zero_le 1, nofun, (by decide : 1 ≤ ({} : Config).queueSize),
      fun _ => ⟨rfl, nofun⟩⟩
  refine ⟨⟨hl, fun k hk hc => ?_, nofun, nofun⟩, nofun, nofun, fun _ => List.not_mem_nil⟩
  obtain rfl : k = .router := by simpa [Simulation.tasks] using hk
  cases hc

theorem twins_init (name : String) (b : Bench) :
    Twins name { sim := { bench := b } } { sim := { bench := b } } :=
  ⟨poised_init name b, poised_init name b, rfl, rfl⟩

theorem Twins.inStep_uncut (name : String) : InStep fun t t' => t.Twins name t' ∧ ¬ t.Cut where
  bench h := h.1.alike.bench
  controllers h := h.1.alike.controllers
  worked h hb hb' :=
    ⟨(Twins.inStep name).worked h.1 hb hb', fun hcut => h.2 (h.1.left.cut_of_setBench hcut)⟩
  settles h hu hu' := ⟨h.1.settles hu hu', hu.not_cut⟩

theorem Lined.run (h : t.Lined) {r : Registration} {b : Except Error Unit} (hu : r.run t = .ok (b, u)) :
    u.Lined := by
  cases r with
  | controller n watches reconciler =>
    obtain ⟨-, rfl⟩ | ⟨-, rfl⟩ := Schedule.addController_cases hu
    · intro i hi
      change i < (t.sim.controllers ++ [_]).length at hi
      rw [List.length_append, List.length_singleton, Nat.lt_succ_iff_lt_or_eq] at hi
      rcases hi with hi | rfl
      · exact List.mem_append_left _ (h i hi)
      · simp
    · exact h
  | start =>
    obtain rfl : t.start.2 = u := congrArg (·.2) (Except.ok.inj hu)
    obtain ⟨-, -, he⟩ | ⟨-, he⟩ := Schedule.start_cases t
    · rw [he]
      exact fun i hi => List.mem_append_left _ (List.mem_append_left _ (h i hi))
    · rwa [he]
  | refuse =>
    cases hu
    exact h

end Schedule

namespace TestCase

open Schedule

def resize (q : Nat) (c : TestCase) : TestCase := { c with config := { c.config with queueSize := q } }

theorem resize_timeout (c : TestCase) (q q' : Nat) :
    (c.resize q').config.defaultTimeout = (c.resize q).config.defaultTimeout := rfl

variable {name : String} {t t' u u' : Schedule} {fuel fuel' q q' : Nat}

theorem register_twins (h : t.Twins name t') {rs : List Registration} (hr : ∀ r ∈ rs, r.Lone name)
    {e e' : Option Error} (hu : register rs t = .ok (e, u)) (hu' : register rs t' = .ok (e', u')) :
    e' = e ∧ u.Twins name u' := by
  induction rs generalizing t t' with
  | nil =>
    cases hu
    cases hu'
    exact ⟨rfl, h⟩
  | cons r rest ih =>
    simp only [register] at hu hu'
    cases hv : r.run t with
    | error fault =>
      rw [hv] at hu
      cases hu
    | ok x =>
      cases hv' : r.run t' with
      | error fault =>
        rw [hv'] at hu'
        cases hu'
      | ok x' =>
        obtain ⟨hb, hvv⟩ := h.register (hr r List.mem_cons_self) hv hv'
        rw [hv] at hu
        rw [hv'] at hu'
        obtain ⟨b, v⟩ := x
        obtain ⟨b', v'⟩ := x'
        obtain rfl : b' = b := hb
        cases b' with
        | error e =>
          cases hu
          cases hu'
          exact ⟨rfl, hvv⟩
        | ok => exact ih hvv (fun r hm => hr r (List.mem_cons_of_mem _ hm)) hu hu'

theorem register_lined (h : t.Lined) {rs : List Registration} {e : Option Error}
    (hu : register rs t = .ok (e, u)) : u.Lined := by
  induction rs generalizing t with
  | nil =>
    cases hu
    exact h
  | cons r rest ih =>
    simp only [register] at hu
    split at hu
    · cases hu
    next hv =>
      cases hu
      exact h.run hv
    next hv => exact ih (h.run hv) hu

theorem setUp_twins (name : String) (c : TestCase) (hq : 1 ≤ q) (hq' : 1 ≤ q') :
    (c.resize q).setUp.Twins name (c.resize q').setUp := by
  have h := twins_init name ((c.resize q).setUp.bench)
  exact (h.manage (c.resize q).config (c.resize q').config hq hq' rfl).2

theorem shutDown_twins (h : t.Twins name t') (hn : ¬ t.Cut) {r : Reporter}
    (hu : shutDown fuel r t = .ok u) (hu' : shutDown fuel' r t' = .ok u') : u.Twins name u' := by
  have hn' : ¬ t'.Cut := mt h.cut_iff.2 hn
  rcases shutDown_cases hu with hs | ⟨e, v, hs, -⟩
  · rcases shutDown_cases hu' with hs' | ⟨e', v', hs', -⟩
    · exact (h.stop hs hs').1
    · cases (h.stop hs hs').2.2.trans (answer_of_not_cut hn')
  · rcases shutDown_cases hu' with hs' | ⟨e', v', hs', -⟩ <;>
      cases (h.stop hs hs').2.1.trans (answer_of_not_cut hn)

theorem blame_twins (h : t.Twins name t') (r : Reporter) (what : String) (e : Error) :
    (blame r what e t).Twins name (blame r what e t') := by
  rw [blame, blame, ← h.alike.bench]
  exact (Twins.inStep name).setBench h rfl

theorem run_twins {c : TestCase} (hr : ∀ r ∈ c.registrations, r.Lone name) (hq : 1 ≤ q) (hq' : 1 ≤ q')
    (hu : (c.resize q).run fuel = .ok u) (hu' : (c.resize q').run fuel' = .ok u') :
    u.Twins name u' := by
  obtain ⟨refusal, v, hv, hend⟩ := run_cases hu
  obtain ⟨refusal', v', hv', hend'⟩ := run_cases hu'
  obtain ⟨rfl, hvv⟩ := register_twins (setUp_twins name c hq hq') hr hv hv'
  rcases hend with ⟨e, rfl, rfl⟩ | ⟨rfl, hend⟩
  · rcases hend' with ⟨e', he, rfl⟩ | ⟨hnone, -⟩
    · obtain rfl := Option.some.inj he
      exact blame_twins hvv ..
    · cases hnone
  rcases hend' with ⟨e', he, -⟩ | ⟨-, hend'⟩
  · cases he
  obtain ⟨hb, hww⟩ := hvv.start
  rcases hend with ⟨e, he, rfl⟩ | ⟨hok, w, hw, hdown⟩
  · rcases hend' with ⟨e', he', rfl⟩ | ⟨hok', -⟩
    · obtain rfl := Except.error.inj (he.symm.trans (hb.trans he'))
      exact blame_twins hww ..
    · cases he.symm.trans (hb.trans hok')
  rcases hend' with ⟨e', he', -⟩ | ⟨-, w', hw', hdown'⟩
  · cases hok.symm.trans (hb.trans he')
  -- just started, the controller stands in line before the router; after an event nobody does
  have hcut : ¬ v.start.2.Cut :=
    hvv.left.start_not_cut (register_lined (t := (c.resize q).setUp) nofun hv) hok
  obtain ⟨hrun, hn⟩ :=
    (Twins.inStep_uncut name).runEvents ⟨hww, hcut⟩ (c.resize_timeout q q') hw hw'
  exact shutDown_twins hrun hn hdown hdown'

/-- A test case gets as far as having run these events. -/
def Reaches (fuel : Nat) (c : TestCase) (es : List TestEvent) (t : Schedule) : Prop :=
  ∃ u, register c.registrations c.setUp = .ok (none, u) ∧ u.start.1 = .ok () ∧
    runEvents fuel c.reporter c.config es u.start.2 = .ok t

theorem Reaches.twins {c : TestCase} (hr : ∀ r ∈ c.registrations, r.Lone name) (hq : 1 ≤ q) (hq' : 1 ≤ q')
    {es : List TestEvent} (hu : (c.resize q).Reaches fuel es u)
    (hu' : (c.resize q').Reaches fuel' es u') : u.Twins name u' := by
  obtain ⟨v, hv, -, hes⟩ := hu
  obtain ⟨v', hv', -, hes'⟩ := hu'
  have hstart := (register_twins (setUp_twins name c hq hq') hr hv hv').2.start.2
  exact (Twins.inStep name).runEvents hstart (c.resize_timeout q q') hes hes'

end TestCase

namespace Session

/--
For a lone controller: the answers of a session differ where a stop overruns with one queue size and not with
the other, and nowhere else; a test case goes the same up to every point of every event, and it ends the same.
-/
theorem queue_size_shows_only_in_overrun {name : String} {q₁ q₂ : Nat} (hq₁ : 1 ≤ q₁) (hq₂ : 1 ≤ q₂) :
    (∀ (bench : Bench) (steps : List Step) (fuel₁ fuel₂ : Nat) (vs ws : List Visit),
      (∀ s ∈ steps, s.Lone name) →
      course fuel₁ (steps.map (·.resize q₁)) { sim := { bench } } = .ok vs →
      course fuel₂ (steps.map (·.resize q₂)) { sim := { bench } } = .ok ws →
        List.Forall₂ (Visit.Same q₂) vs ws) ∧
    (∀ (c : TestCase) (es : List TestEvent) (e : TestEvent) (script : Script) (fuel₁ fuel₂ : Nat)
        (t₁ t₂ u₁ u₂ : Schedule) (outcome₁ outcome₂ : Outcome),
      (∀ r ∈ c.registrations, r.Lone name) →
      (c.resize q₁).Reaches fuel₁ es t₁ → (c.resize q₂).Reaches fuel₂ es t₂ →
      (e.install (c.reporter.within e.name) t₁).drive fuel₁ script = .ok (outcome₁, u₁) →
      (e.install (c.reporter.within e.name) t₂).drive fuel₂ script = .ok (outcome₂, u₂) →
        outcome₂ = outcome₁ ∧ u₂.bench = u₁.bench ∧ u₂.logs = u₁.logs) ∧
    (∀ (c : TestCase) (fuel₁ fuel₂ : Nat) (t₁ t₂ : Schedule),
      (∀ r ∈ c.registrations, r.Lone name) →
      (c.resize q₁).run fuel₁ = .ok t₁ → (c.resize q₂).run fuel₂ = .ok t₂ →
        t₂.bench = t₁.bench ∧ t₂.logs = t₁.logs ∧ c.report t₂ = c.report t₁) := by
  have hR := Schedule.Twins.inStep name
  refine ⟨?_, ?_, ?_⟩
  · intro bench steps fuel₁ fuel₂ vs ws hlone hvs hws
    exact (Schedule.twins_init name bench).course hq₁ hq₂ hlone hvs hws
  · intro c es e script fuel₁ fuel₂ t₁ t₂ u₁ u₂ outcome₁ outcome₂ hlone ht₁ ht₂ hu₁ hu₂
    have hinstall := hR.install (ht₁.twins hlone hq₁ hq₂ ht₂) e (c.reporter.within e.name)
    obtain ⟨houtcome, hu⟩ := hR.drive hinstall hu₁ hu₂
    exact ⟨houtcome.symm, (hR.bench hu).symm, hR.logs hu⟩
  · intro c fuel₁ fuel₂ t₁ t₂ hlone h₁ h₂
    have h := TestCase.run_twins hlone hq₁ hq₂ h₁ h₂
    have hb : t₂.bench = t₁.bench := (hR.bench h).symm
    refine ⟨hb, hR.logs h, ?_⟩
    rw [TestCase.report, TestCase.report, hb]

def breeder : Reconciler where
  reconcile passes _ :=
    if passes = 0 then
      (Call.create Bench.jobs (Bench.job "x")).script fun _ =>
        (Call.create Bench.jobs (Bench.job "y")).script fun _ => .done .pass
    else .done .pass
  onError _ _ := .note

def breeding : Registration := .controller "breeder" [Bench.jobs] breeder

def shelter (wait : Duration) : List Step :=
  [.manage { sleepOnShutdown := wait }, .register breeding, .settle, .seed Bench.jobs (Bench.job "a"),
    .seed Bench.jobs (Bench.job "b"), .start, .stop]

def pup : TestEvent where
  name := "more"
  trigger := (Call.create Bench.jobs (Bench.job "c")).script fun _ => .pause (.done .pass)

def litter : TestCase where
  name := "litter"
  resources := [(Bench.jobs, Bench.job "a"), (Bench.jobs, Bench.job "b")]
  registrations := [breeding]
  events := [pup]

def vacant : Bench where
  reporter := ⟨"shelter"⟩

theorem breeding_lone : breeding.Lone "breeder" := ⟨rfl, ⟨Bench.jobs, rfl⟩, nofun⟩

theorem litter_reaches {q : Nat}
    (h : (TestCase.register (litter.resize q).registrations (litter.resize q).setUp).toOption.any
      (fun r => r.1.isNone && r.2.start.1.toOption.isSome &&
        ((pup.install (litter.reporter.within "more") r.2.start.2).drive 60 pup.trigger).toOption.isSome) =
          true) :
    ∃ t outcome u, (litter.resize q).Reaches 60 [] t ∧
      (pup.install (litter.reporter.within "more") t).drive 60 pup.trigger = .ok (outcome, u) := by
  obtain ⟨⟨e, v⟩, hregister, hp⟩ := ok_of_any h
  simp only [Bool.and_eq_true, Option.isNone_iff_eq_none] at hp
  obtain ⟨⟨rfl, hstart⟩, hdrive⟩ := hp
  obtain ⟨⟨⟩, hstart⟩ := exists_ok hstart
  obtain ⟨⟨outcome, u⟩, hdrive⟩ := exists_ok hdrive
  exact ⟨_, _, _, ⟨v, hregister, hstart, rfl⟩, hdrive⟩

theorem patient_stop_hides_queue_size :
    (∃ vs ws, course 60 ((shelter (.millis 10)).map (·.resize 1)) { sim := { bench := vacant } } = .ok vs ∧
      course 60 ((shelter (.millis 10)).map (·.resize 2)) { sim := { bench := vacant } } = .ok ws ∧
      List.Forall₂ (Visit.Same 2) vs ws) ∧
    (∃ t₁ t₂ u₁ u₂ outcome₁ outcome₂,
      (litter.resize 1).Reaches 60 [] t₁ ∧ (litter.resize 2).Reaches 60 [] t₂ ∧
      (pup.install (litter.reporter.within "more") t₁).drive 60 pup.trigger = .ok (outcome₁, u₁) ∧
      (pup.install (litter.reporter.within "more") t₂).drive 60 pup.trigger = .ok (outcome₂, u₂) ∧
      outcome₂ = outcome₁ ∧ u₂.bench = u₁.bench ∧ u₂.logs = u₁.logs) ∧
    (∃ t₁ t₂, (litter.resize 1).run 60 = .ok t₁ ∧ (litter.resize 2).run 60 = .ok t₂ ∧
      t₁.logs = [("breeder", ⟨["a", "b", "c", "c", "x", "y"].map (⟨"ns", ·⟩), []⟩)] ∧
      t₂.bench = t₁.bench ∧ t₂.logs = t₁.logs ∧ litter.report t₂ = litter.report t₁) := by
  have hlone : ∀ r ∈ litter.registrations, r.Lone "breeder" := by simpa [litter] using breeding_lone
  obtain ⟨hsession, hevent, hcase⟩ :=
    @queue_size_shows_only_in_overrun "breeder" 1 2 (by decide) (by decide)
  refine ⟨?_, ?_, ?_⟩
  · obtain ⟨vs, hvs⟩ := exists_ok (by decide +kernel :
      (course 60 ((shelter (.millis 10)).map (·.resize 1))
        { sim := { bench := vacant } }).toOption.isSome = true)
    obtain ⟨ws, hws⟩ := exists_ok (by decide +kernel :
      (course 60 ((shelter (.millis 10)).map (·.resize 2))
        { sim := { bench := vacant } }).toOption.isSome = true)
    refine ⟨vs, ws, hvs, hws, hsession _ _ _ _ _ _ ?_ hvs hws⟩
    simpa [shelter, Step.Lone] using breeding_lone
  · obtain ⟨t₁, outcome₁, u₁, ht₁, hu₁⟩ := litter_reaches (q := 1) (by decide +kernel)
    obtain ⟨t₂, outcome₂, u₂, ht₂, hu₂⟩ := litter_reaches (q := 2) (by decide +kernel)
    exact ⟨t₁, t₂, u₁, u₂, outcome₁, outcome₂, ht₁, ht₂, hu₁, hu₂,
      hevent _ _ pup _ _ _ _ _ _ _ _ _ hlone ht₁ ht₂ hu₁ hu₂⟩
  · obtain ⟨t₁, ht₁, hlogs⟩ := ok_of_any (by decide +kernel : ((litter.resize 1).run 60).toOption.any
      (fun t => t.logs == [("breeder", ⟨["a", "b", "c", "c", "x", "y"].map (⟨"ns", ·⟩), []⟩)]) = true)
    obtain ⟨t₂, ht₂⟩ := exists_ok (by decide +kernel : ((litter.resize 2).run 60).toOption.isSome = true)
    exact ⟨t₁, t₂, ht₁, ht₂, eq_of_beq hlogs, hcase _ _ _ _ _ hlone ht₁ ht₂⟩

def Answer.refusal? : Answer → Option (Option Error)
  | status (.ok ()) => some none
  | status (.error e) => some (some e)
  | _ => none

def refusal? (os : List Observation) : Option (Option Error) := os.getLast?.bind (·.answer.refusal?)

theorem hasty_stop_shows_queue_size :
    ∃ os₁ os₂, run 60 ((shelter (.millis 0)).map (·.resize 1)) { sim := { bench := vacant } } = .ok os₁ ∧
      run 60 ((shelter (.millis 0)).map (·.resize 2)) { sim := { bench := vacant } } = .ok os₂ ∧
      refusal? os₁ = some (some .queueClosed) ∧ refusal? os₂ = some none := by
  obtain ⟨os₁, hos₁, h₁⟩ := ok_of_any (by decide +kernel :
    (run 60 ((shelter (.millis 0)).map (·.resize 1)) { sim := { bench := vacant } }).toOption.any
      (fun os => refusal? os == some (some .queueClosed)) = true)
  obtain ⟨os₂, hos₂, h₂⟩ := ok_of_any (by decide +kernel :
    (run 60 ((shelter (.millis 0)).map (·.resize 2)) { sim := { bench := vacant } }).toOption.any
      (fun os => refusal? os == some none) = true)
  exact ⟨os₁, os₂, hos₁, hos₂, eq_of_beq h₁, eq_of_beq h₂⟩

end Session

end ControllerBench
