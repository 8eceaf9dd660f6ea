import ControllerBench.Proofs.Delivery.InOrder
import ControllerBench.Proofs.Dispatch.Depth
import ControllerBench.Proofs.Judging.Work

namespace ControllerBench

theorem eq_of_both_final {α : Type} {r : α → α → Prop} (hr : Relator.RightUnique r) {x y z : α}
    (hxy : Relation.ReflTransGen r x y) (hxz : Relation.ReflTransGen r x z) (hy : ∀ w, ¬ r y w)
    (hz : ∀ w, ¬ r z w) : y = z := by
  have hend {v w : α} (hv : ∀ w, ¬ r v w) (hvw : Relation.ReflTransGen r v w) : v = w := by
    rcases Relation.ReflTransGen.cases_head hvw with he | ⟨u, hu, -⟩
    · exact he
    · exact absurd hu (hv u)
  rcases Relation.ReflTransGen.total_of_right_unique hr hxy hxz with hyz | hzy
  · exact hend hy hyz
  · exact (hend hz hzy).symm

namespace Simulation

theorem reconcile_agree {depth depth' i : Nat} {s x y : Simulation} {c : Controller} {r : Request}
    {queue : List Request} (hx : s.reconcile depth i c r queue = some x)
    (hy : s.reconcile depth' i c r queue = some y) : x = y := by
  obtain ⟨outcome, bench, hrun, rfl⟩ := reconcile_ok hx
  obtain ⟨outcome', bench', hrun', rfl⟩ := reconcile_ok hy
  obtain ⟨rfl, rfl⟩ := Prod.mk.inj (Bench.run_agree hrun hrun')
  rfl

theorem controllerStep_agree {depth depth' i : Nat} {s x y : Simulation} {c : Controller}
    (hx : s.controllerStep depth i c = some x) (hy : s.controllerStep depth' i c = some y) : x = y := by
  unfold controllerStep at hx hy
  cases hp : c.phase with
  | ended | waiting =>
    simp only [hp] at hx hy
    exact Option.some.inj (hx.symm.trans hy)
  | running =>
    simp only [hp] at hx hy
    by_cases hc : s.cancelled = true
    · rw [if_pos hc] at hx hy
      exact Option.some.inj (hx.symm.trans hy)
    · rw [if_neg hc] at hx hy
      cases hq : c.queue with
      | nil =>
        rw [hq] at hx hy
        exact Option.some.inj (hx.symm.trans hy)
      | cons r rest =>
        rw [hq] at hx hy
        exact reconcile_agree hx hy

theorem step_agree {depth depth' : Nat} {s x y : Simulation} {k : Task}
    (hx : s.step depth k = some x) (hy : s.step depth' k = some y) : x = y := by
  cases k with
  | router => exact Option.some.inj (hx.symm.trans hy)
  | controller i =>
    simp only [step] at hx hy
    cases hc : s.controllers[i]? with
    | none =>
      rw [hc] at hx hy
      exact Option.some.inj (hx.symm.trans hy)
    | some c =>
      simp only [hc] at hx hy
      exact controllerStep_agree hx hy

end Simulation

namespace Schedule

/-- What settling does about the first task in line. -/
inductive Tick (t : Schedule) : Schedule → Prop
  | step {depth task rest sim} :
      t.ready = task :: rest → t.sim.canRun task = true → t.sim.step depth task = some sim →
      Tick t (wake { t with sim })
  | drop {task rest} :
      t.ready = task :: rest → t.sim.canRun task = false → Tick t { t with ready := rest }

variable {t u u' : Schedule}

theorem Tick.unique (h : t.Tick u) (h' : t.Tick u') : u = u' := by
  cases h with
  | step hr hc hs =>
    cases h' with
    | step hr' hc' hs' =>
      obtain ⟨rfl, rfl⟩ := List.cons.inj (hr.symm.trans hr')
      rw [Simulation.step_agree hs hs']
    | drop hr' hc' =>
      obtain ⟨rfl, rfl⟩ := List.cons.inj (hr.symm.trans hr')
      rw [hc] at hc'
      cases hc'
  | drop hr hc =>
    cases h' with
    | step hr' hc' _ =>
      obtain ⟨rfl, rfl⟩ := List.cons.inj (hr.symm.trans hr')
      rw [hc] at hc'
      cases hc'
    | drop hr' _ =>
      obtain ⟨rfl, rfl⟩ := List.cons.inj (hr.symm.trans hr')
      rfl

structure Settles (t u : Schedule) : Prop where
  ticks : Relation.ReflTransGen Tick t u
  empty : u.ready = []

theorem Settles.keeps {P : Schedule → Prop} (hP : ∀ {v w : Schedule}, v.Tick w → P v → P w)
    (h : t.Settles u) (ht : P t) : P u := by
  obtain ⟨hticks, -⟩ := h
  induction hticks with
  | refl => exact ht
  | tail _ hstep ih => exact hP hstep ih

theorem settles_of_settleWithin {depth fuel : Nat} (h : t.settleWithin depth fuel = some u) :
    t.Settles u := by
  fun_induction settleWithin depth fuel t with
  | case1 => cases h
  | case2 fuel t hr =>
    cases h
    exact ⟨.refl, hr⟩
  | case3 => cases h
  | case4 fuel t task rest hr hc s hs ih => exact ⟨.head (.step hr hc hs) (ih h).ticks, (ih h).empty⟩
  | case5 fuel t task rest hr hc ih =>
    exact ⟨.head (.drop hr (Bool.eq_false_iff.2 hc)) (ih h).ticks, (ih h).empty⟩

theorem settle_ok {fuel : Nat} (h : t.settle fuel = .ok u) : t.Settles u := by
  unfold settle at h
  split at h
  next hs =>
    cases h
    exact settles_of_settleWithin hs
  · cases h

theorem Tick.ne_nil (h : t.Tick u) : t.ready ≠ [] := by
  cases h with
  | step hr | drop hr => exact fun hn => List.cons_ne_nil _ _ (hr.symm.trans hn)

theorem Settles.unique (h : t.Settles u) (h' : t.Settles u') : u = u' :=
  eq_of_both_final (fun _ _ _ hx hy => hx.unique hy) h.ticks h'.ticks
    (fun _ hw => hw.ne_nil h.empty) (fun _ hw => hw.ne_nil h'.empty)

/-- Whoever can run stands in line. -/
def Alert (t : Schedule) : Prop := ∀ k ∈ t.sim.tasks, t.sim.canRun k = true → k ∈ t.ready

theorem alert_wake (t : Schedule) : (wake t).Alert := by
  intro k hk hc
  by_cases hr : k ∈ t.ready
  · exact List.mem_append_left _ hr
  · refine List.mem_append_right _ (List.mem_filter.2 ⟨hk, ?_⟩)
    have hc' : t.sim.canRun k = true := hc
    simp [hc', hr]

theorem Tick.alert (h : t.Tick u) (ht : t.Alert) : u.Alert := by
  cases h with
  | step => exact alert_wake _
  | drop hr hc =>
    intro k hk hk'
    have hmem := ht k hk hk'
    rw [hr] at hmem
    rcases List.mem_cons.1 hmem with rfl | hmem
    · have hk' : t.sim.canRun k = true := hk'
      rw [hc] at hk'
      cases hk'
    · exact hmem

theorem Settles.quiet (h : t.Settles u) (ht : t.Alert) : u.sim.Quiet := by
  have hu : u.Alert := h.keeps Tick.alert ht
  intro k hk
  refine Bool.eq_false_iff.2 fun hc => ?_
  have hmem := hu k hk hc
  rw [h.empty] at hmem
  cases hmem

end Schedule

end ControllerBench
