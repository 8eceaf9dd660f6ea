import ControllerBench.Proofs.Delivery.Passes

namespace ControllerBench

namespace Simulation

def unsized (s : Simulation) : Simulation :=
  { s with config := { s.config with queueSize := 0 } }

/-- A simulation with the queue size hidden, and with it how far a router got that has ended. -/
def veil (s : Simulation) : Simulation :=
  { s.unsized with
    router := if s.router.phase.isEnded then { phase := .ended (.ok ()) } else s.router }

/-- The router is not about to put a request into a queue. -/
def Unasked (s : Simulation) : Prop :=
  s.router.phase.isRunning = true → ∀ d i rest c, s.router.delivery = some d → d.targets = i :: rest →
    s.controllers[i]? = some c → c.phase.isEnded = true

variable {s s' : Simulation}

theorem veil_of_not_ended (h : s.router.phase.isEnded = false) : s.veil = s.unsized := by
  rw [veil, h]
  rfl

theorem veil_of_ended (h : s.router.phase.isEnded = true) :
    s.veil = { s.unsized with router := { phase := .ended (.ok ()) } } := by
  rw [veil, h]
  rfl

theorem veil_veil (s : Simulation) : s.veil.veil = s.veil := by
  cases he : s.router.phase.isEnded with
  | true =>
    rw [veil_of_ended he]
    rfl
  | false =>
    rw [veil_of_not_ended he]
    exact veil_of_not_ended he

theorem reconcile_veil (depth : Nat) (s : Simulation) (i : Nat) (c : Controller) (r : Request)
    (queue : List Request) :
    s.veil.reconcile depth i c r queue = (s.reconcile depth i c r queue).map veil := by
  unfold reconcile
  rw [show s.veil.bench = s.bench from rfl]
  cases (c.reconciler.reconcile c.taken.size r).run (Bench.invoke depth) s.bench with
  | none => rfl
  | some x =>
    simp only
    split <;> rfl

theorem controllerStep_veil (depth : Nat) (s : Simulation) (i : Nat) (c : Controller) :
    s.veil.controllerStep depth i c = (s.controllerStep depth i c).map veil := by
  unfold controllerStep
  rw [show s.veil.cancelled = s.cancelled from rfl]
  cases c.phase with
  | ended => rfl
  | waiting => cases s.cancelled <;> rfl
  | running =>
    cases s.cancelled with
    | true => rfl
    | false =>
      cases c.queue with
      | nil => rfl
      | cons r rest => exact reconcile_veil ..

theorem deliver_unsized {d : Delivery} (h : ∀ i rest c, d.targets = i :: rest →
      s.controllers[i]? = some c → c.phase.isEnded = true) :
    s.unsized.deliver d = (s.deliver d).map unsized := by
  unfold deliver
  cases ht : d.targets with
  | nil => rfl
  | cons i rest =>
    simp only
    rw [show s.unsized.controllers = s.controllers from rfl]
    cases hc : s.controllers[i]? with
    | none => rfl
    | some c =>
      simp only [h i rest c ht hc, if_true]
      split <;> rfl

theorem routerStep_unsized (h : s.Unasked) : s.unsized.routerStep = s.routerStep.map unsized := by
  cases hr : s.router.phase.isRunning with
  | false => simp [routerStep, unsized, hr]
  | true =>
    unfold routerStep
    rw [show s.unsized.router = s.router from rfl, hr, if_pos rfl, if_pos rfl]
    split
    next d hd => exact deliver_unsized fun i rest c => h hr d i rest c hd
    · rfl
    · rfl
    · rw [show s.unsized.cancelled = s.cancelled from rfl]
      split
      · rfl
      · rw [Option.map_map]
        rfl

theorem routerStep_ended (h : s.router.phase.isEnded = true) : s.routerStep = none := by
  cases hp : s.router.phase with
  | ended => simp [routerStep, hp, Phase.isRunning]
  | waiting | running =>
    rw [hp] at h
    cases h

theorem routerStep_veil (h : s.Unasked) : s.veil.routerStep.map veil = s.routerStep.map veil := by
  cases he : s.router.phase.isEnded with
  | true => rw [routerStep_ended he, routerStep_ended (by rw [veil, he]; rfl)]
  | false =>
    rw [veil_of_not_ended he, routerStep_unsized h, Option.map_map]
    rfl

theorem canRun_veil (h : s.Unasked) (k : Task) : s.veil.canRun k = s.canRun k := by
  cases k with
  | router =>
    have hr := congrArg Option.isSome (routerStep_veil h)
    rwa [Option.isSome_map, Option.isSome_map] at hr
  | controller i => rfl

theorem step_veil (h : s.Unasked) {k : Task} (hk : s.canRun k = true) (depth : Nat) :
    (s.veil.step depth k).map veil = (s.step depth k).map veil := by
  cases k with
  | router =>
    have hv := (canRun_veil h .router).trans hk
    obtain ⟨x, hx⟩ := Option.isSome_iff_exists.1 hk
    obtain ⟨y, hy⟩ := Option.isSome_iff_exists.1 hv
    have hr := routerStep_veil h
    rw [hx, hy] at hr
    simp only [step, hx, hy]
    exact hr
  | controller i =>
    simp only [step]
    rw [show s.veil.controllers = s.controllers from rfl]
    cases s.controllers[i]? with
    | none => exact congrArg some (veil_veil s)
    | some c =>
      simp only
      rw [controllerStep_veil, Option.map_map]
      exact congrFun (congrArg Option.map (funext veil_veil)) _

end Simulation

namespace Schedule

/-- No difference can be seen between the two but in their queue sizes. -/
structure Alike (t t' : Schedule) : Prop where
  veil : t.sim.veil = t'.sim.veil
  ready : t.ready = t'.ready

namespace Alike

variable {t t' : Schedule} (h : t.Alike t')

include h

theorem bench : t.bench = t'.bench := (congrArg Simulation.bench h.veil :)

theorem controllers : t.sim.controllers = t'.sim.controllers := (congrArg Simulation.controllers h.veil :)

theorem started : t.sim.started = t'.sim.started := (congrArg Simulation.started h.veil :)

theorem cancelled : t.sim.cancelled = t'.sim.cancelled := (congrArg Simulation.cancelled h.veil :)

theorem canRun (ha : t.sim.Unasked) (ha' : t'.sim.Unasked) (k : Task) :
    t.sim.canRun k = t'.sim.canRun k :=
  calc
    t.sim.canRun k = t.sim.veil.canRun k := (Simulation.canRun_veil ha k).symm
    _ = t'.sim.veil.canRun k := congrArg (·.canRun k) h.veil
    _ = t'.sim.canRun k := Simulation.canRun_veil ha' k

theorem wake (ha : t.sim.Unasked) (ha' : t'.sim.Unasked) : (wake t).Alike (wake t') where
  veil := h.veil
  ready := by
    have htasks : t.sim.tasks = t'.sim.tasks := (congrArg Simulation.tasks h.veil :)
    change t.ready ++ _ = t'.ready ++ _
    rw [htasks, h.ready]
    simp only [h.canRun ha ha']

end Alike

variable {t t' u : Schedule}

theorem Tick.follow (h : t.Tick u) (ha : t.Alike t') (hn : t.sim.Unasked) (hn' : t'.sim.Unasked) :
    ∃ u', t'.Tick u' ∧ (u.sim.Unasked → u'.sim.Unasked → u.Alike u') := by
  cases h with
  | @step depth task rest sim hr hc hs =>
    have hc' := (ha.canRun hn hn' task).symm.trans hc
    have hstep : (t'.sim.step depth task).map Simulation.veil = some sim.veil := by
      rw [← Simulation.step_veil hn' hc', ← ha.veil, Simulation.step_veil hn hc, hs]
      rfl
    obtain ⟨sim', hs', hv⟩ := Option.map_eq_some_iff.1 hstep
    refine ⟨_, .step (ha.ready.symm.trans hr) hc' hs', fun hu hu' => ?_⟩
    exact Alike.wake (t := { t with sim }) ⟨hv.symm, ha.ready⟩ hu hu'
  | @drop task rest hr hc =>
    have hc' := (ha.canRun hn hn' task).symm.trans hc
    exact ⟨_, .drop (ha.ready.symm.trans hr) hc', fun _ _ => ⟨ha.veil, rfl⟩⟩

end Schedule

end ControllerBench
