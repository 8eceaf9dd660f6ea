import ControllerBench.Proofs.Delivery.Moves
import ControllerBench.Proofs.Dispatch.Conduct
import ControllerBench.Schedule

namespace ControllerBench

theorem ok_of_any {ε α : Type} {x : Except ε α} {p : α → Bool} (h : x.toOption.any p = true) :
    ∃ y, x = .ok y ∧ p y = true := by
  cases x with
  | error e => cases h
  | ok y => exact ⟨y, rfl, h⟩

theorem exists_ok {ε α : Type} {x : Except ε α} (h : x.toOption.isSome = true) : ∃ y, x = .ok y := by
  cases x with
  | error => cases h
  | ok y => exact ⟨y, rfl⟩

namespace Simulation

variable {P : Terms} {I : Bench → Prop}

def Abides (P : Terms) (s : Simulation) : Prop :=
  ∀ c ∈ s.controllers, ∀ passes r, (c.reconciler.reconcile passes r).Abides P

/-- The bench is as it should be, and so is everything that may still be run on it. -/
structure Upheld (P : Terms) (I : Bench → Prop) (s : Simulation) : Prop where
  bench : I s.bench
  reactors : s.bench.Abides P
  controllers : s.Abides P

theorem Abides.setController {s : Simulation} {c : Controller} (h : s.Abides P) (i : Nat)
    (hc : ∀ passes r, (c.reconciler.reconcile passes r).Abides P) : (s.setController i c).Abides P := by
  intro x hx
  rcases List.mem_or_eq_of_mem_set hx with hx | rfl
  · exact h x hx
  · exact hc

theorem Upheld.routerStep {s : Simulation} (h : s.Upheld P I) : (s.routerStep.getD s).Upheld P I := by
  cases hs : s.routerStep with
  | none => exact h
  | some s' =>
    cases routerStep_cases hs with
    | send _ _ hc _ _ =>
      have hall := h.controllers _ (List.mem_of_getElem? hc)
      exact ⟨h.bench, h.reactors, h.controllers.setController _ hall⟩
    | finish | pass | fail | block | found | list | leave | event =>
      exact ⟨h.bench, h.reactors, h.controllers⟩

theorem conclude_reconciler (c : Controller) (r : Request) (outcome : Outcome) :
    (c.conclude r outcome).reconciler = c.reconciler := by
  unfold Controller.conclude
  split
  · rfl
  · split <;> rfl

theorem Upheld.reconcile {o : Bench} {S : Nat → Prop} (kept : Sustained o P S I)
    {depth i : Nat} {s s' : Simulation} {c : Controller} {r : Request} {queue : List Request}
    (hc : s.controllers[i]? = some c) (hs : s.reconcile depth i c r queue = some s')
    (h : s.Upheld P I) : s'.Upheld P I := by
  have hall := h.controllers c (List.mem_of_getElem? hc)
  unfold Simulation.reconcile at hs
  split at hs
  · cases hs
  next outcome bench hrun =>
    obtain ⟨hbench, hreactors⟩ := kept.run (kept.invoke depth) (hall ..) hrun ⟨h.bench, h.reactors⟩
    have hset (c' : Controller) (hc' : c'.reconciler = c.reconciler) :
        (s.setController i c').Abides P := by
      refine h.controllers.setController i ?_
      rw [hc']
      exact hall
    have hcontrollers := hset _ (conclude_reconciler { c with queue, taken := c.taken.push r } r outcome)
    simp only at hs
    split at hs
    · cases hs
      exact ⟨hbench, hreactors, hcontrollers⟩
    · cases hs
      exact ⟨hbench, hreactors, hcontrollers⟩

theorem Upheld.step {o : Bench} {S : Nat → Prop} (kept : Sustained o P S I) {depth : Nat}
    {s s' : Simulation} {k : Task} (hs : s.step depth k = some s') (h : s.Upheld P I) :
    s'.Upheld P I := by
  cases k with
  | router =>
    cases hs
    exact h.routerStep
  | controller i =>
    simp only [Simulation.step] at hs
    split at hs
    · cases hs
      exact h
    next c hc =>
      have hall := h.controllers c (List.mem_of_getElem? hc)
      have hset (c' : Controller) (hc' : c'.reconciler = c.reconciler) :
          (s.setController i c').Abides P := by
        refine h.controllers.setController i ?_
        rw [hc']
        exact hall
      unfold controllerStep at hs
      split at hs
      · cases hs
        exact h
      · split at hs <;> cases hs <;> exact ⟨h.bench, h.reactors, hset _ rfl⟩
      · split at hs
        · cases hs
          exact ⟨h.bench, h.reactors, hset _ rfl⟩
        · split at hs
          · cases hs
            exact h
          · exact h.reconcile kept hc hs

end Simulation

namespace Schedule

variable {o : Bench} {P : Terms} {S : Nat → Prop} {I : Bench → Prop}

abbrev Upheld (P : Terms) (I : Bench → Prop) (t : Schedule) : Prop := t.sim.Upheld P I

theorem Upheld.setBench {t : Schedule} (h : t.Upheld P I) {b : Bench} (hb : I b)
    (hr : b.Abides P) : (t.setBench b).Upheld P I :=
  ⟨hb, hr, h.controllers⟩

theorem Upheld.settleWithin (kept : Sustained o P S I) {depth fuel : Nat} {t t' : Schedule}
    (ht : t.settleWithin depth fuel = some t') (h : t.Upheld P I) : t'.Upheld P I := by
  fun_induction Schedule.settleWithin depth fuel t with
  | case1 => cases ht
  | case2 =>
    cases ht
    exact h
  | case3 => cases ht
  | case4 fuel t task rest _ _ s hs ih => exact ih ht (Simulation.Upheld.step kept hs h)
  | case5 fuel t task rest _ _ ih => exact ih ht h

theorem Upheld.settle (kept : Sustained o P S I) {fuel : Nat} {t t' : Schedule}
    (ht : t.settle fuel = .ok t') (h : t.Upheld P I) : t'.Upheld P I := by
  unfold Schedule.settle at ht
  split at ht
  next hs =>
    cases ht
    exact h.settleWithin kept hs
  · cases ht

theorem Upheld.sleep (kept : Sustained o P S I) {fuel : Nat} {length : Duration} {t t' : Schedule}
    (ht : t.sleep fuel length = .ok t') (h : t.Upheld P I) : t'.Upheld P I := by
  unfold Schedule.sleep at ht
  split at ht
  · cases ht
    exact h
  · exact h.settle kept ht

theorem Upheld.drive (kept : Sustained o P S I) {fuel : Nat} {s : Script} {t t' : Schedule}
    {outcome : Outcome} (hs : s.Abides P) (ht : t.drive fuel s = .ok (outcome, t'))
    (h : t.Upheld P I) : t'.Upheld P I := by
  induction hs generalizing t with
  | done =>
    cases ht
    exact h
  | @invoke action _ _ ih =>
    cases hr : t.bench.invoke fuel action with
    | none =>
      simp only [Schedule.drive, Schedule.invoke, hr] at ht
      cases ht
    | some r =>
      simp only [Schedule.drive, Schedule.invoke, hr] at ht
      obtain ⟨hb, habides⟩ := kept.invoke fuel _ _ _ _ hr ⟨h.bench, h.reactors⟩
      exact ih _ ht (h.setBench hb habides)
  | install hp hr _ _ ih =>
    exact ih ht (h.setBench (kept.install _ hp h.bench) (h.reactors.install _ _ hr))
  | remove _ ih =>
    exact ih _ ht (h.setBench (kept.remove _ h.bench) (h.reactors.remove _))
  | pause _ ih =>
    simp only [Schedule.drive] at ht
    split at ht
    next u hu => exact ih ht (h.settle kept hu)
    · cases ht

theorem Upheld.wait (kept : Sustained o P S I) {fuel slot : Nat} {timeout : Duration} {t t' : Schedule}
    {late : Bool} (ht : t.wait fuel slot timeout = .ok (late, t')) (h : t.Upheld P I) :
    t'.Upheld P I ∧
      ∀ v waited, t'.bench.reactors[slot]? = some (.verifier v waited) → late = !v.fired := by
  unfold Schedule.wait at ht
  split at ht
  next v waited hv =>
    have hmark : (t.setBench (t.bench.setReactor slot (.verifier v true))).Upheld P I :=
      h.setBench (kept.wait hv h.bench) (h.reactors.setReactor slot trivial)
    split at ht
    · cases ht
      refine ⟨hmark, fun v' waited' hv' => ?_⟩
      have hslot : slot < t.bench.reactors.size := (Array.getElem?_eq_some_iff.1 hv).1
      have hset : (t.bench.reactors.setIfInBounds slot (.verifier v true))[slot]? =
          some (.verifier v true) := by simp [hslot]
      cases hset.symm.trans hv'
      rfl
    · split at ht
      · cases ht
      next u hu =>
        have hend := hmark.sleep kept hu
        split at ht
        next w waited' hw =>
          cases ht
          refine ⟨hend, fun v' waited' hv' => ?_⟩
          cases hw.symm.trans hv'
          rfl
        next hn =>
          cases ht
          exact ⟨hend, fun v' waited' hv' => absurd hv' (hn v' waited')⟩
  next hn =>
    cases ht
    exact ⟨h, fun v' waited' hv' => absurd hv' (hn v' waited')⟩

theorem Upheld.stop (kept : Sustained o P S I) {fuel : Nat} {t t' : Schedule} {result : Except Error Unit}
    (ht : t.stop fuel = .ok (result, t')) (h : t.Upheld P I) : t'.Upheld P I := by
  unfold Schedule.stop at ht
  split at ht
  · cases ht
  next u hu =>
    have hquiet := h.sleep kept hu
    have hjoin : (wake { u with sim := u.sim.cancel }).sim.join.2.Upheld P I :=
      ⟨hquiet.bench, hquiet.reactors, hquiet.controllers⟩
    simp only at ht
    split at ht
    next hj =>
      cases ht
      rwa [hj] at hjoin
    next hj =>
      rw [hj] at hjoin
      split at ht
      · cases ht
      next w hw =>
        cases ht
        have hend := Upheld.settle kept hw hjoin
        exact ⟨hend.bench, hend.reactors, hend.controllers⟩

end Schedule

end ControllerBench
