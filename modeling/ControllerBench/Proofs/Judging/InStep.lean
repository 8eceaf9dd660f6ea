import ControllerBench.Proofs.Delivery.Settling

namespace ControllerBench

namespace Schedule

/--
Holds of two schedules only if their benches and their controllers are the same, and goes on to hold whatever
both go through.
-/
structure InStep (R : Schedule → Schedule → Prop) : Prop where
  bench {t t'} : R t t' → t.bench = t'.bench
  controllers {t t'} : R t t' → t.sim.controllers = t'.sim.controllers
  worked {t t' b} :
    R t t' → t.sim.Leads { t.sim with bench := b } → t'.sim.Leads { t'.sim with bench := b } →
      R (t.setBench b) (t'.setBench b)
  settles {t t' u u'} : R t t' → t.Settles u → t'.Settles u' → R u u'

namespace InStep

variable {R : Schedule → Schedule → Prop} (hR : InStep R) {t t' u u' : Schedule} {fuel fuel' : Nat}

include hR

theorem setBench (h : R t t') {b : Bench} (hb : b.events = t.bench.events) :
    R (t.setBench b) (t'.setBench b) :=
  hR.worked h (Simulation.leads_arrange hb)
    (Simulation.leads_arrange (hb.trans (congrArg Bench.events (hR.bench h))))

theorem settle (h : R t t') (hu : t.settle fuel = .ok u) (hu' : t'.settle fuel' = .ok u') : R u u' :=
  hR.settles h (settle_ok hu) (settle_ok hu')

theorem sleep (h : R t t') {length : Duration} (hu : t.sleep fuel length = .ok u)
    (hu' : t'.sleep fuel' length = .ok u') : R u u' := by
  by_cases hn : length.nanos = 0
  · simp only [Schedule.sleep, hn, if_true] at hu hu'
    cases hu
    cases hu'
    exact h
  · simp only [Schedule.sleep, hn, if_false] at hu hu'
    exact hR.settle h hu hu'

theorem invoke (h : R t t') {a : Action} {result result' : Except Error Response}
    (hu : t.invoke fuel a = .ok (result, u)) (hu' : t'.invoke fuel' a = .ok (result', u')) :
    result = result' ∧ R u u' := by
  have hbench := hR.bench h
  simp only [Schedule.invoke] at hu hu'
  split at hu
  next r b hb =>
    split at hu'
    next r' b' hb' =>
      cases hu
      cases hu'
      obtain ⟨rfl, rfl⟩ := Prod.mk.inj (Bench.invoke_agree (hbench ▸ hb) hb')
      exact ⟨rfl, hR.worked h (Simulation.leads_invoke hb) (Simulation.leads_invoke hb')⟩
    · cases hu'
  · cases hu

theorem drive (h : R t t') {script : Script} {outcome outcome' : Outcome}
    (hu : t.drive fuel script = .ok (outcome, u)) (hu' : t'.drive fuel' script = .ok (outcome', u')) :
    outcome = outcome' ∧ R u u' := by
  fun_induction Schedule.drive fuel script t generalizing t' with
  | case1 =>
    cases hu
    cases hu'
    exact ⟨rfl, h⟩
  | case2 t action next result v hv ih =>
    simp only [Schedule.drive] at hu'
    split at hu'
    next result' v' hv' =>
      obtain ⟨rfl, hvv⟩ := hR.invoke h hv hv'
      exact ih hvv hu hu'
    · cases hu'
  | case3 => cases hu
  | case4 t label reactor placement next ih =>
    simp only [Schedule.drive] at hu'
    rw [← hR.bench h] at hu'
    exact ih (hR.setBench h (Bench.rewires_install ..).events) hu hu'
  | case5 t label next ih =>
    simp only [Schedule.drive] at hu'
    rw [← hR.bench h] at hu'
    exact ih (hR.setBench h (Bench.rewires_remove ..).events) hu hu'
  | case6 t next v hv ih =>
    simp only [Schedule.drive] at hu'
    split at hu'
    next v' hv' => exact ih (hR.settle h hv hv') hu hu'
    · cases hu'
  | case7 => cases hu

theorem wait (h : R t t') {slot : Nat} {timeout : Duration} {late late' : Bool}
    (hu : t.wait fuel slot timeout = .ok (late, u)) (hu' : t'.wait fuel' slot timeout = .ok (late', u')) :
    late = late' ∧ R u u' := by
  have hbench := hR.bench h
  simp only [Schedule.wait, ← hbench] at hu hu'
  split at hu
  next v waited hv =>
    simp only [hv] at hu'
    have hmark : R (t.setBench (t.bench.setReactor slot (.verifier v true)))
        (t'.setBench (t.bench.setReactor slot (.verifier v true))) := hR.setBench h rfl
    by_cases hdone : (waited || v.fired) = true
    · simp only [hdone, if_true] at hu hu'
      cases hu
      cases hu'
      exact ⟨rfl, hmark⟩
    · rw [if_neg hdone] at hu hu'
      split at hu
      · cases hu
      next w hw =>
        split at hu'
        · cases hu'
        next w' hw' =>
          have hww := hR.sleep hmark hw hw'
          simp only [← hR.bench hww] at hu'
          split at hu
          next hslot =>
            simp only [hslot] at hu'
            cases hu
            cases hu'
            exact ⟨rfl, hww⟩
          next hslot =>
            cases hu
            split at hu'
            next hv => exact absurd hv (hslot _ _)
            · cases hu'
              exact ⟨rfl, hww⟩
  next hslot =>
    cases hu
    split at hu'
    next hv => exact absurd hv (hslot _ _)
    · cases hu'
      exact ⟨rfl, h⟩

theorem awaitVerifier (h : R t t') {timeout : Duration} {r : Reporter} {slot : Nat}
    (hu : TestEvent.awaitVerifier fuel timeout r slot t = .ok u)
    (hu' : TestEvent.awaitVerifier fuel' timeout r slot t' = .ok u') : R u u' := by
  unfold TestEvent.awaitVerifier at hu hu'
  split at hu
  · cases hu
  next v hv =>
    cases hu
    split at hu'
    · cases hu'
    next v' hv' =>
      cases hu'
      exact (hR.wait h hv hv').2
    next v' hv' => exact absurd (hR.wait h hv hv').1 nofun
  next v hv =>
    split at hu'
    · cases hu'
    next v' hv' => exact absurd (hR.wait h hv hv').1 nofun
    next v' hv' =>
      have hvv := (hR.wait h hv hv').2
      simp only [← hR.bench hvv] at hu'
      split at hu
      next hslot =>
        simp only [hslot] at hu'
        cases hu
        cases hu'
        exact hR.setBench hvv rfl
      next hslot =>
        cases hu
        split at hu'
        next hx => exact absurd hx (hslot _ _)
        · cases hu'
          exact hvv

theorem follow (h : R t t') {e : TestEvent} {timeout : Duration} {r : Reporter} {slot : Nat}
    {outcome : Outcome} (hu : e.follow fuel timeout r slot outcome t = .ok u)
    (hu' : e.follow fuel' timeout r slot outcome t' = .ok u') : R u u' := by
  unfold TestEvent.follow at hu hu'
  cases he : outcome.error? with
  | some error =>
    simp only [he, ← hR.bench h] at hu hu'
    cases hu
    cases hu'
    exact hR.setBench h rfl
  | none =>
    cases hv : e.verifier with
    | some v =>
      simp only [he, hv] at hu hu'
      exact hR.awaitVerifier h hu hu'
    | none =>
      simp only [he, hv] at hu hu'
      cases hu
      cases hu'
      exact h

theorem install (h : R t t') (e : TestEvent) (r : Reporter) : R (e.install r t) (e.install r t') := by
  rw [TestEvent.install, TestEvent.install, ← hR.bench h]
  exact hR.setBench h (Bench.foldl_employ_events ..)

theorem runEvent (h : R t t') {e : TestEvent} {r : Reporter} {config config' : Config}
    (hc : config'.defaultTimeout = config.defaultTimeout) (hu : e.run fuel r config t = .ok u)
    (hu' : e.run fuel' r config' t' = .ok u') : R u u' := by
  have hbench := hR.bench h
  obtain ⟨v, hv, rfl⟩ := TestEvent.run_ok hu
  obtain ⟨v', hv', rfl⟩ := TestEvent.run_ok hu'
  obtain ⟨outcome, w, hw, hfollow⟩ := TestEvent.play_ok hv
  obtain ⟨outcome', w', hw', hfollow'⟩ := TestEvent.play_ok hv'
  obtain ⟨rfl, hww⟩ := hR.drive (hR.install h e (r.within e.name)) hw hw'
  rw [hc, ← hbench] at hfollow'
  have hvv := hR.follow hww hfollow hfollow'
  rw [← hbench, ← hR.bench hvv]
  refine hR.setBench hvv ?_
  rw [TestEvent.uninstall, Bench.foldl_detach, TestEvent.judge, Bench.foldl_judge]
  rfl

theorem runEvents (h : R t t') {es : List TestEvent} {r : Reporter} {config config' : Config}
    (hc : config'.defaultTimeout = config.defaultTimeout)
    (hu : TestCase.runEvents fuel r config es t = .ok u)
    (hu' : TestCase.runEvents fuel' r config' es t' = .ok u') : R u u' := by
  induction es generalizing t t' with
  | nil =>
    cases hu
    cases hu'
    exact h
  | cons e rest ih =>
    simp only [TestCase.runEvents] at hu hu'
    split at hu
    · cases hu
    next v hv =>
      split at hu'
      · cases hu'
      next v' hv' => exact ih (hR.runEvent h hc hv hv') hu hu'

end InStep

end Schedule

end ControllerBench
