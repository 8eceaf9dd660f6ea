import ControllerBench.Proofs.Delivery.Poised

namespace ControllerBench

namespace Simulation

variable {name : String} {s s' : Simulation}

theorem canRun_router_of_cancelled (hc : s.cancelled = true)
    (hd : s.router.phase.isRunning = true → s.router.delivery = none) :
    s.canRun .router = s.router.phase.isRunning := by
  cases hr : s.router.phase.isRunning with
  | false => simp [canRun, routerStep, hr]
  | true =>
    simp only [canRun, routerStep, hr, hd hr, hc, if_true]
    split
    · contradiction
    all_goals rfl

theorem canRun_of_cancelled (hc : s.cancelled = true) (hc' : s'.cancelled = true)
    (hd : s.router.phase.isRunning = true → s.router.delivery = none) (hr : s'.router = s.router)
    (hcs : s'.controllers = s.controllers) (k : Task) : s'.canRun k = s.canRun k := by
  cases k with
  | router =>
    rw [canRun_router_of_cancelled hc hd, canRun_router_of_cancelled hc' (hr ▸ hd), hr]
  | controller i => simp only [canRun, hcs, hc, hc', Bool.or_true, Bool.true_or]

theorem canRun_controller_of_cancelled (hc : s.cancelled = true) {i : Nat} {c : Controller}
    (hi : s.controllers[i]? = some c) (he : c.phase.isEnded = false) :
    s.canRun (.controller i) = true := by
  cases hp : c.phase with
  | waiting | running => simp [canRun, hi, hp, hc]
  | ended => simp [hp, Phase.isEnded] at he

end Simulation

theorem Task.find?_controller {ready : List Task} {p : Task → Bool} {i : Nat} (hr : .router ∉ ready)
    (hi : .controller i ∈ ready) (hp : p (.controller i) = true) :
    ∃ j, ready.find? p = some (.controller j) := by
  obtain ⟨k, hk⟩ := Option.isSome_iff_exists.1 (List.find?_isSome.2 ⟨_, hi, hp⟩)
  cases k with
  | router => exact absurd (List.mem_of_find?_eq_some hk) hr
  | controller j => exact ⟨j, hk⟩

namespace Schedule

variable {name : String} {t t' u : Schedule}

theorem Poised.unasked (h : t.Poised name) : t.sim.Unasked := by
  intro hr d i rest c hd
  exact absurd (hd.symm.trans (h.between hr).1) (Option.some_ne_none d)

theorem Unasking.wake (h : t.Unasking) : (wake t).Unasking := by
  cases h with
  | finished ho hb => exact .finished ho hb
  | still hs => exact .still hs
  | leaving hc hd hf hu => exact .leaving hc hd hf hu
  | @late i hc hd hfind =>
    refine .late (i := i) hc hd ?_
    change (t.ready ++ _).find? t.sim.canRun = _
    rw [List.find?_append, hfind]
    rfl

theorem Unasking.congr (h : t.Unasking) (hc : u.sim.cancelled = t.sim.cancelled)
    (hr : u.sim.router = t.sim.router) (hcs : u.sim.controllers = t.sim.controllers)
    (hready : u.ready = t.ready) : u.Unasking := by
  cases h with
  | finished ho hb => exact .finished (hcs ▸ ho) (hr ▸ hb)
  | still hs => exact .still (hr ▸ hs)
  | leaving hcan hd hf hu => exact .leaving (hc.trans hcan) (hr ▸ hd) (hr ▸ hf) (hr ▸ hu)
  | @late i hcan hd hfind =>
    refine .late (i := i) (hc.trans hcan) (hr ▸ hd) ?_
    have hrun : u.sim.canRun = t.sim.canRun :=
      funext fun k => Simulation.canRun_of_cancelled hcan (hc.trans hcan) (fun _ => hd) hr hcs k
    rw [hrun, hready]
    exact hfind

theorem wake_unstarted (hs : t.sim.router.phase.isRunning = false) (hr : .router ∉ t.ready) :
    .router ∉ (wake t).ready := by
  have hn : t.sim.canRun .router = false := by simp [Simulation.canRun, Simulation.routerStep, hs]
  intro hm
  rcases List.mem_append.1 hm with hm | hm
  · exact hr hm
  · have hk := (List.mem_filter.1 hm).2
    rw [hn] at hk
    cases hk

theorem Poised.idle_router (h : t.Poised name) (hs : t.sim.started = false) : t.sim.router = {} := by
  obtain ⟨past, hrun⟩ := h.smooth.lone.reached
  exact (Simulation.Ledger.run hrun).idle hs

/-- Something is changed that no task goes by, and whoever can run now lines up. -/
theorem Poised.changed (h : t.Poised name) {s : Simulation} (hl : s.Lone name)
    (hr : s.router = t.sim.router) (hcs : s.controllers = t.sim.controllers)
    (he : s.endings = t.sim.endings) (hs : s.started = t.sim.started)
    (hc : s.cancelled = t.sim.cancelled) : (wake ⟨s, t.ready⟩).Poised name where
  smooth :=
    { lone := hl
      alert := alert_wake _
      fine := by
        change ∀ e ∈ s.endings, e = .ok ()
        rw [he]
        exact h.smooth.fine
      unasking := fun hcan => ((h.smooth.unasking (hc.symm.trans hcan)).congr (u := ⟨s, t.ready⟩) hc hr
        hcs rfl).wake }
  idle := hcs ▸ h.idle
  between := hr ▸ h.between
  unstarted hn := by
    have hn : t.sim.started = false := hs.symm.trans hn
    refine wake_unstarted (t := ⟨s, t.ready⟩) ?_ (h.unstarted hn)
    change s.router.phase.isRunning = false
    rw [hr, h.idle_router hn]
    rfl

theorem Poised.setBench (h : t.Poised name) {b : Bench}
    (hb : ({ t.sim with bench := b } : Simulation).Reached) : (t.setBench b).Poised name :=
  h.changed ⟨hb, h.smooth.lone.atMost, h.smooth.lone.steadfast, h.smooth.lone.room, h.smooth.lone.calm⟩
    rfl rfl rfl rfl rfl

theorem Twins.setBench (h : t.Twins name t') {b : Bench}
    (hb : ({ t.sim with bench := b } : Simulation).Reached)
    (hb' : ({ t'.sim with bench := b } : Simulation).Reached) :
    (t.setBench b).Twins name (t'.setBench b) where
  left := h.left.setBench hb
  right := h.right.setBench hb'
  alike := by
    have hv : ({ t.sim with bench := b } : Simulation).veil =
        ({ t'.sim with bench := b } : Simulation).veil :=
      congrArg (fun s : Simulation => { s with bench := b }) h.alike.veil
    exact Alike.wake (t := ⟨{ t.sim with bench := b }, t.ready⟩) ⟨hv, h.alike.ready⟩ h.left.unasked
      h.right.unasked

theorem wake_of_alert (h : t.Alert) : wake t = t := by
  have hnil : (t.sim.tasks.filter fun k => t.sim.canRun k && !t.ready.contains k) = [] := by
    refine List.filter_eq_nil_iff.2 fun k hk hc => ?_
    simp only [Bool.and_eq_true, Bool.not_eq_true', List.contains_eq_mem, decide_eq_false_iff_not] at hc
    exact hc.2 (h k hk hc.1)
  rw [wake, hnil, List.append_nil]

theorem canRun_managed {s : Simulation}
    (hd : s.router.phase.isRunning = true → s.router.delivery = none) (config : Config) (k : Task) :
    ({ s with managed := true, config } : Simulation).canRun k = s.canRun k := by
  cases k with
  | router =>
    cases hr : s.router.phase.isRunning with
    | false => simp [Simulation.canRun, Simulation.routerStep, hr]
    | true =>
      simp only [Simulation.canRun, Simulation.routerStep, hr, hd hr, if_true]
      split
      · contradiction
      · rfl
      · rfl
      · split
        · rfl
        · rw [Option.isSome_map, Option.isSome_map]
  | controller i => rfl

theorem Poised.manage (h : t.Poised name) {config : Config} (hq : 1 ≤ config.queueSize)
    (hreach : ({ t.sim with managed := true, config } : Simulation).Reached) :
    Poised name { t with sim := { t.sim with managed := true, config } } := by
  have hl : ({ t.sim with managed := true, config } : Simulation).Lone name :=
    ⟨hreach, h.smooth.lone.atMost, h.smooth.lone.steadfast, hq, h.smooth.lone.calm⟩
  have halert : Alert { t with sim := { t.sim with managed := true, config } } := by
    intro k hk hc
    refine h.smooth.alert k hk ?_
    rw [← canRun_managed (fun hr => (h.between hr).1) config k]
    exact hc
  -- another queue size wakes nobody
  rw [← wake_of_alert halert]
  exact h.changed hl rfl rfl rfl rfl rfl

theorem Twins.manage (h : t.Twins name t') (config config' : Config) (hq : 1 ≤ config.queueSize)
    (hq' : 1 ≤ config'.queueSize)
    (hc : { config with queueSize := 0 } = { config' with queueSize := 0 }) :
    (t.manage config).1 = (t'.manage config').1 ∧
      (t.manage config).2.Twins name (t'.manage config').2 := by
  have hm : t.sim.managed = t'.sim.managed := (congrArg Simulation.managed h.alike.veil :)
  unfold Schedule.manage
  cases hmanaged : t.sim.managed with
  | true =>
    have he : t.sim.manage config = .error .clientAlreadyManaged := by simp [Simulation.manage, hmanaged]
    have he' : t'.sim.manage config' = .error .clientAlreadyManaged := by
      simp [Simulation.manage, ← hm, hmanaged]
    rw [he, he']
    exact ⟨rfl, h⟩
  | false =>
    have he : t.sim.manage config = .ok { t.sim with managed := true, config } := by
      simp [Simulation.manage, hmanaged]
    have he' : t'.sim.manage config' = .ok { t'.sim with managed := true, config := config' } := by
      simp [Simulation.manage, ← hm, hmanaged]
    rw [he, he']
    refine ⟨rfl, h.left.manage hq (h.left.smooth.lone.reached.step (.manage he)),
      h.right.manage hq' (h.right.smooth.lone.reached.step (.manage he')), ?_, h.alike.ready⟩
    exact (congrArg₂ (fun (s : Simulation) (c : Config) => { s with managed := true, config := c })
      h.alike.veil hc :)

theorem Poised.controllers_nil_iff (h : t.Poised name) :
    t.sim.controllers.any (·.name == name) = false ↔ t.sim.controllers = [] := by
  constructor
  · intro hn
    refine List.eq_nil_iff_forall_not_mem.2 fun c hc => ?_
    have := List.any_eq_false.1 hn c hc
    exact this (by simp [(h.smooth.lone.steadfast c hc).named])
  · intro hn
    rw [hn]
    rfl

theorem Poised.add (h : t.Poised name) (hs : t.sim.started = false) {c : Controller}
    (hc : c.Steadfast name) (hp : c.phase = .waiting) (hq : c.queue = [])
    (hreach : ({ t.sim with controllers := [c] } : Simulation).Reached) :
    Poised name ⟨{ t.sim with controllers := [c] }, t.ready ++ [.controller 0]⟩ := by
  have hr := h.idle_router hs
  have hrun : t.sim.router.phase.isRunning = false := by
    rw [hr]
    rfl
  have he : c.phase.isEnded = false := by
    rw [hp]
    rfl
  have hl := h.smooth.lone
  have hlone : ({ t.sim with controllers := [c] } : Simulation).Lone name :=
    ⟨hreach, Nat.le_refl 1, by simpa using hc, hl.room,
      fun hcan => ⟨(hl.calm hcan).1, by simpa using he⟩⟩
  have halert : Alert ⟨{ t.sim with controllers := [c] }, t.ready ++ [.controller 0]⟩ := by
    intro k hk hcan
    have hk : k = .router ∨ k = .controller 0 := by simpa [Simulation.tasks] using hk
    rcases hk with rfl | rfl
    · have hrouter := Simulation.routerStep_running hcan
      exact absurd (hrun.symm.trans hrouter) Bool.false_ne_true
    · simp
  refine ⟨⟨hlone, halert, h.smooth.fine, fun _ => .still hrun⟩, by simpa using hq, fun hr => ?_,
    fun _ => by simpa using h.unstarted hs⟩
  exact absurd (hrun.symm.trans hr) Bool.false_ne_true

theorem Poised.addController_eq (h : t.Poised name) {watches : List Resource} {reconciler : Reconciler} :
    t.addController name watches reconciler =
      if t.sim.started then .ok (.error .managerAlreadyStarted, t)
      else if t.sim.controllers.any (·.name == name) then
        .ok (.error (.controllerAlreadyExists name), t)
      else
        .ok (.ok (), ⟨{ t.sim with controllers := [{ name, watches, reconciler }] },
          t.ready ++ [.controller 0]⟩) := by
  have hroom : (t.sim.config.queueSize == 0) = false := by
    have := h.smooth.lone.room
    simp only [beq_eq_false_iff_ne]
    omega
  cases hs : t.sim.started with
  | true => simp [Schedule.addController, Simulation.addController, hs]
  | false =>
    cases hany : t.sim.controllers.any (·.name == name) with
    | true => simp [Schedule.addController, Simulation.addController, hs, hroom, hany]
    | false =>
      have hnil := h.controllers_nil_iff.1 hany
      simp [Schedule.addController, Simulation.addController, hs, hroom, hnil]

theorem Twins.addController (h : t.Twins name t') {watches : List Resource} {reconciler : Reconciler}
    (hc : Controller.Steadfast name { name, watches, reconciler }) :
    ∃ r u u', t.addController name watches reconciler = .ok (r, u) ∧
      t'.addController name watches reconciler = .ok (r, u') ∧ u.Twins name u' := by
  have hs := h.alike.started
  have hcs := h.alike.controllers
  rw [h.left.addController_eq, h.right.addController_eq, ← hs, ← hcs]
  split
  · exact ⟨_, _, _, rfl, rfl, h⟩
  next hn =>
    split
    · exact ⟨_, _, _, rfl, rfl, h⟩
    next hany =>
      have hn : t.sim.started = false := by simpa using hn
      have hnil := h.left.controllers_nil_iff.1 (by simpa using hany)
      have hadd {v : Schedule} (hv : v.Poised name) (hs : v.sim.started = false)
          (hnil : v.sim.controllers = []) :
          v.sim.addController name watches reconciler =
            .ok { v.sim with controllers := [{ name, watches, reconciler }] } := by
        simp [Simulation.addController, hs, hnil]
      have hleft := h.left.add hn hc rfl rfl
        (h.left.smooth.lone.reached.step (.register (hadd h.left hn hnil)))
      have hright := h.right.add (hs.symm.trans hn) hc rfl rfl
        (h.right.smooth.lone.reached.step
          (.register (hadd h.right (hs.symm.trans hn) (hcs.symm.trans hnil))))
      refine ⟨_, _, _, rfl, rfl, hleft, hright, ?_, ?_⟩
      · exact (congrArg (fun s : Simulation => { s with controllers := [{ name, watches, reconciler }] })
          h.alike.veil :)
      · rw [h.alike.ready]

theorem Poised.start_eq (h : t.Poised name) (hs : t.sim.started = false) :
    t.sim.start =
      .ok { t.sim with started := true, router := { phase := .running, unlisted := t.sim.watched } } := by
  rw [Simulation.start, hs, if_neg Bool.false_ne_true, h.idle_router hs]

theorem Poised.unasking_start (h : t.Poised name) (hs : t.sim.started = false) {s : Simulation}
    (hcan : s.cancelled = true) (hcan' : t.sim.cancelled = true) (hd : s.router.delivery = none)
    (hcs : s.controllers = t.sim.controllers) : Unasking ⟨s, t.ready ++ [.router]⟩ := by
  by_cases hover : ∀ c ∈ s.controllers, c.phase.isEnded = true
  · exact .finished hover fun d hd' => absurd (hd'.symm.trans hd) (Option.some_ne_none d)
  · obtain ⟨c, hm, he⟩ : ∃ c ∈ s.controllers, c.phase.isEnded = false := by simpa using hover
    obtain ⟨i, hi⟩ := List.getElem?_of_mem hm
    have hlt := (List.getElem?_eq_some_iff.1 hi).1
    have hready : .controller i ∈ t.ready := by
      rw [hcs] at hi hlt
      exact h.smooth.alert _ (by simpa [Simulation.tasks] using hlt)
        (Simulation.canRun_controller_of_cancelled hcan' hi he)
    obtain ⟨j, hfind⟩ := Task.find?_controller (h.unstarted hs) hready
      (Simulation.canRun_controller_of_cancelled hcan hi he)
    refine .late (i := j) hcan hd ?_
    rw [List.find?_append, hfind]
    rfl

theorem Poised.start (h : t.Poised name) (hs : t.sim.started = false) {s : Simulation}
    (hstart : t.sim.start = .ok s) : (wake ⟨s, t.ready ++ [.router]⟩).Poised name := by
  have hreach := h.smooth.lone.reached.step (.start hstart (List.Perm.refl t.sim.watched))
  obtain rfl := Except.ok.inj ((h.start_eq hs).symm.trans hstart)
  have hl := h.smooth.lone
  have hlone : Simulation.Lone name _ :=
    ⟨hreach, hl.atMost, hl.steadfast, hl.room, fun hcan => ⟨rfl, (hl.calm hcan).2⟩⟩
  refine ⟨⟨hlone, alert_wake _, h.smooth.fine, fun hcan => ?_⟩, h.idle, fun _ => ⟨rfl, rfl⟩, nofun⟩
  exact (h.unasking_start hs hcan hcan rfl rfl).wake

theorem Twins.start (h : t.Twins name t') : t.start.1 = t'.start.1 ∧ t.start.2.Twins name t'.start.2 := by
  have hs' := h.alike.started
  unfold Schedule.start
  cases hs : t.sim.started with
  | true =>
    have he : t.sim.start = .error .managerAlreadyStarted := by simp [Simulation.start, hs]
    have he' : t'.sim.start = .error .managerAlreadyStarted := by simp [Simulation.start, ← hs', hs]
    rw [he, he']
    exact ⟨rfl, h⟩
  | false =>
    have hs' := hs'.symm.trans hs
    have hleft := h.left.start hs (h.left.start_eq hs)
    have hright := h.right.start hs' (h.right.start_eq hs')
    rw [h.left.start_eq hs, h.right.start_eq hs']
    refine ⟨rfl, hleft, hright, Alike.wake ⟨?_, ?_⟩ hleft.unasked hright.unasked⟩
    · exact (congrArg (fun s : Simulation => { s with
        started := true
        router := { phase := .running, unlisted := s.watched } }) h.alike.veil :)
    · rw [h.alike.ready]

end Schedule

end ControllerBench
