import ControllerBench.Proofs.Delivery.Run

namespace ControllerBench

namespace Simulation

inductive RouterMove (s : Simulation) : Simulation → Prop
  | finish {d} :
      s.router.delivery = some d → d.targets = [] →
      RouterMove s (s.setRouter { s.router with delivery := none })
  | pass {d i rest} :
      s.router.delivery = some d → d.targets = i :: rest →
      (∀ c, s.controllers[i]? = some c → c.phase.isEnded = true ∧ d.blocked = false) →
      RouterMove s (s.setRouter { s.router with delivery := some ⟨d.request, rest, false⟩ })
  | fail {d i rest c} :
      s.router.delivery = some d → d.targets = i :: rest → s.controllers[i]? = some c →
      c.phase.isEnded = true → d.blocked = true → RouterMove s (s.endRouter (.error .queueClosed))
  | send {d i rest c} :
      s.router.delivery = some d → d.targets = i :: rest → s.controllers[i]? = some c →
      c.phase.isEnded = false → c.queue.length < s.config.queueSize →
      RouterMove s
        ((s.setController i { c with queue := c.queue ++ [d.request] }).setRouter
          { s.router with delivery := some ⟨d.request, rest, false⟩ })
  | block {d i rest c} :
      s.router.delivery = some d → d.targets = i :: rest → s.controllers[i]? = some c →
      c.phase.isEnded = false → s.config.queueSize ≤ c.queue.length → d.blocked = false →
      RouterMove s (s.setRouter { s.router with delivery := some { d with blocked := true } })
  | found {f} :
      s.router.delivery = none → s.router.found[s.router.announced]? = some f →
      RouterMove s (s.announceFound f)
  | list {r rest} :
      s.router.delivery = none → s.router.found[s.router.announced]? = none →
      s.router.unlisted = r :: rest → RouterMove s (s.listNext r rest)
  | leave :
      s.router.delivery = none → s.router.unlisted = [] → s.cancelled = true →
      s.router.found[s.router.announced]? = none → RouterMove s (s.endRouter (.ok ()))
  | event {e} :
      s.router.delivery = none → s.router.found[s.router.announced]? = none →
      s.router.unlisted = [] → s.bench.events[s.router.cursor]? = some e →
      RouterMove s (s.announceEvent e)

theorem deliver_cases {s s' : Simulation} {d : Delivery} (hd : s.router.delivery = some d)
    (h : s.deliver d = some s') : s.RouterMove s' := by
  unfold deliver at h
  split at h
  next ht =>
    cases h
    exact .finish hd ht
  next i rest ht =>
    split at h
    next hn =>
      cases h
      exact .pass hd ht fun c hc => by simp [hn] at hc
    next c hc =>
      split at h
      next he =>
        split at h
        next hb =>
          cases h
          exact .fail hd ht hc he hb
        next hb =>
          cases h
          refine .pass hd ht fun c' hc' => ?_
          obtain rfl : c = c' := Option.some.inj (hc.symm.trans hc')
          exact ⟨he, by simpa using hb⟩
      next he =>
        have he : c.phase.isEnded = false := by simpa using he
        split at h
        next hroom =>
          cases h
          exact .send hd ht hc he hroom
        next hfull =>
          split at h
          · cases h
          next hb =>
            cases h
            exact .block hd ht hc he (by omega) (by simpa using hb)

theorem routerStep_running {s : Simulation} (h : s.routerStep.isSome = true) :
    s.router.phase.isRunning = true := by
  unfold routerStep at h
  split at h
  next hr => exact hr
  · cases h

theorem routerStep_cases {s s' : Simulation} (h : s.routerStep = some s') : s.RouterMove s' := by
  unfold routerStep at h
  split at h
  · split at h
    next d hd => exact deliver_cases hd h
    next hd hf =>
      cases h
      exact .found hd hf
    next hd hf hu =>
      cases h
      exact .list hd hf hu
    next hd hf hu =>
      split at h
      next hc =>
        cases h
        exact .leave hd hu hc hf
      next hc =>
        obtain ⟨e, he, rfl⟩ := Option.map_eq_some_iff.1 h
        exact .event hd hf hu he
  · cases h

theorem routerStep_cursor {s s' : Simulation} (hc : s.cancelled = true) (h : s.routerStep = some s') :
    s'.router.cursor = s.router.cursor := by
  cases routerStep_cases h with
  | finish | pass | fail | send | block | found | list | leave => rfl
  | event hd hf hu =>
    simp only [routerStep, hd, hf, hu, hc, if_true] at h
    split at h
    · exact congrArg (·.router.cursor) (Option.some.inj h).symm
    · cases h

theorem routerStep_none {s : Simulation} (hr : s.router.phase.isRunning = true)
    (h : s.routerStep = none) :
    (∃ d i rest c, s.router.delivery = some d ∧ d.targets = i :: rest ∧
      s.controllers[i]? = some c ∧ c.phase.isEnded = false ∧
      s.config.queueSize ≤ c.queue.length) ∨
    (s.router.delivery = none ∧ s.router.found.size ≤ s.router.announced ∧
      s.router.unlisted = [] ∧ s.bench.events.size ≤ s.router.cursor) := by
  unfold routerStep at h
  rw [if_pos hr] at h
  split at h
  next d hd =>
    unfold deliver at h
    split at h
    · cases h
    next i rest ht =>
      split at h
      · cases h
      next c hc =>
        split at h
        · split at h <;> cases h
        next he =>
          split at h
          · cases h
          next hfull => exact .inl ⟨d, i, rest, c, hd, ht, hc, by simpa using he, by omega⟩
  · cases h
  · cases h
  next hd hf hu =>
    split at h
    · cases h
    · exact .inr ⟨hd, Array.getElem?_eq_none_iff.1 hf, hu,
        Array.getElem?_eq_none_iff.1 (Option.map_eq_none_iff.1 h)⟩

theorem routerStep_of_step {s s' : Simulation} {depth : Nat} (hr : s.canRun .router = true)
    (h : s.step depth .router = some s') : s.routerStep = some s' := by
  obtain ⟨t, ht⟩ := Option.isSome_iff_exists.1 hr
  simp only [step, ht, Option.getD_some] at h
  rwa [ht]

theorem router_runs {s s' : Simulation} {depth : Nat} (hr : s.canRun .router = true)
    (h : s.step depth .router = some s') : s.router.phase.isRunning = true ∧ s.RouterMove s' :=
  ⟨routerStep_running hr, routerStep_cases (routerStep_of_step hr h)⟩

theorem RouterMove.of_overlooked {s t : Simulation} (h : s.overlooked.RouterMove t) :
    s.RouterMove { t with cancelled := s.cancelled } := by
  cases h with
  | finish hd ht => exact .finish hd ht
  | pass hd ht hp => exact .pass hd ht hp
  | fail hd ht hc he hb => exact .fail hd ht hc he hb
  | send hd ht hc he hroom => exact .send hd ht hc he hroom
  | block hd ht hc he hfull hb => exact .block hd ht hc he hfull hb
  | found hd hf => exact .found hd hf
  | list hd hf hu => exact .list hd hf hu
  | leave _ _ hc => cases hc
  | event hd hf hu he => exact .event hd hf hu he

theorem Acts.router {s s' : Simulation} {p p' : Interrupted} (h : s.Acts p .router s' p') :
    s.router.phase.isRunning = true ∧ s.RouterMove s' := by
  cases h with
  | heed _ hr hs => exact router_runs hr hs
  | overlook _ hr hs =>
    obtain ⟨hrun, hm⟩ := router_runs hr hs
    exact ⟨hrun, hm.of_overlooked⟩

/-- What a controller does at one time: it enters, quits, makes a pass or a part of one. -/
inductive ControllerMove (s : Simulation) (i : Nat) (c : Controller) : Simulation → Prop
  | enter :
      c.phase = .waiting → ControllerMove s i c (s.setController i { c with phase := .running })
  | quit :
      c.phase.isEnded = false → s.cancelled = true →
      ControllerMove s i c (s.endController i c (.ok ()))
  | take {r rest outcome bench endings} :
      c.phase = .running → c.queue = r :: rest → s.bench.Extends bench →
      ControllerMove s i c
        { s.setController i
            ({ c with queue := rest, taken := c.taken.push r }.conclude r outcome) with
          bench, endings }
  | ask {bench} : s.bench.Extends bench → ControllerMove s i c { s with bench }
  | conclude {r outcome endings} :
      c.phase = .running →
      ControllerMove s i c { s.setController i (c.conclude r outcome) with endings }

/-- A controller's step with all that it comes to, the outcome of a pass included. -/
inductive Turn (depth : Nat) (s : Simulation) (i : Nat) (c : Controller) : Simulation → Prop
  | enter :
      c.phase = .waiting → s.cancelled = false →
      Turn depth s i c (s.setController i { c with phase := .running })
  | quit :
      c.phase.isEnded = false → s.cancelled = true →
      Turn depth s i c (s.endController i c (.ok ()))
  | pass {r rest outcome bench} :
      c.phase = .running → s.cancelled = false → c.queue = r :: rest →
      (c.reconciler.reconcile c.taken.size r).run (Bench.invoke depth) s.bench =
        some (outcome, bench) →
      Turn depth s i c
        (s.passed i ({ c with queue := rest, taken := c.taken.push r }.conclude r outcome) bench)

theorem reconcile_ok {depth i : Nat} {s s' : Simulation} {c : Controller} {r : Request}
    {rest : List Request} (h : s.reconcile depth i c r rest = some s') :
    ∃ outcome bench, (c.reconciler.reconcile c.taken.size r).run (Bench.invoke depth) s.bench =
        some (outcome, bench) ∧
      s' = s.passed i ({ c with queue := rest, taken := c.taken.push r }.conclude r outcome) bench := by
  unfold reconcile at h
  split at h
  · cases h
  next outcome bench hrun =>
    refine ⟨outcome, bench, hrun, ?_⟩
    simp only at h
    split at h
    next result hp =>
      cases h
      rw [passed, hp]
      rfl
    next hp =>
      cases h
      have hnone : (({ c with queue := rest, taken := c.taken.push r } :
          Controller).conclude r outcome).phase.ending? = none := by
        cases hq : (({ c with queue := rest, taken := c.taken.push r } :
            Controller).conclude r outcome).phase with
        | ended result => exact absurd hq (hp result)
        | waiting | running => rfl
      rw [passed, hnone]
      exact congrArg (fun es => { ({ s with bench } : Simulation).setController i _ with
        endings := es }) (List.append_nil s.endings).symm

theorem controllerStep_turn {depth i : Nat} {s s' : Simulation} {c : Controller}
    (hc : s.controllers[i]? = some c) (hr : s.canRun (.controller i) = true)
    (h : s.step depth (.controller i) = some s') : Turn depth s i c s' := by
  simp only [canRun, hc] at hr
  simp only [step, hc, controllerStep] at h
  cases hp : c.phase with
  | ended result => simp [hp] at hr
  | waiting =>
    simp only [hp] at h
    split at h
    next hcan =>
      cases h
      exact .quit (by rw [hp]; rfl) hcan
    next hcan =>
      cases h
      exact .enter hp (by simpa using hcan)
  | running =>
    simp only [hp] at h hr
    split at h
    next hcan =>
      cases h
      exact .quit (by rw [hp]; rfl) hcan
    next hcan =>
      split at h
      next hq => simp [hq, hcan] at hr
      next r rest hq =>
        obtain ⟨outcome, bench, hrun, rfl⟩ := reconcile_ok h
        exact .pass hp (by simpa using hcan) hq hrun

theorem Turn.move {depth i : Nat} {s s' : Simulation} {c : Controller} (h : Turn depth s i c s') :
    s.ControllerMove i c s' := by
  cases h with
  | enter hp => exact .enter hp
  | quit he hc => exact .quit he hc
  | pass hp _ hq hrun => exact .take hp hq (Script.run_extends hrun)

theorem ControllerMove.of_overlooked {i : Nat} {s t : Simulation} {c : Controller}
    (h : s.overlooked.ControllerMove i c t) :
    s.ControllerMove i c { t with cancelled := s.cancelled } := by
  cases h with
  | enter hp => exact .enter hp
  | quit _ hc => cases hc
  | take hp hq hb => exact .take hp hq hb
  | ask hb => exact .ask hb
  | conclude hp => exact .conclude hp

theorem Turn.quits {depth i : Nat} {s s' : Simulation} {c : Controller} (m : Turn depth s i c s')
    (hc : s.cancelled = true) : c.phase.isEnded = false ∧ s' = s.endController i c (.ok ()) := by
  cases m with
  | enter _ hn | pass _ hn => exact absurd (hn.symm.trans hc) Bool.false_ne_true
  | quit he => exact ⟨he, rfl⟩

theorem controller_of_canRun {i : Nat} {s : Simulation} (hr : s.canRun (.controller i) = true) :
    ∃ c, s.controllers[i]? = some c ∧ c.phase.isEnded = false := by
  cases hc : s.controllers[i]? with
  | none => simp [canRun, hc] at hr
  | some c =>
    refine ⟨c, rfl, ?_⟩
    cases hp : c.phase with
    | waiting | running => rfl
    | ended => simp [canRun, hc, hp] at hr

theorem controller_runs {depth i : Nat} {s s' : Simulation} (hr : s.canRun (.controller i) = true)
    (h : s.step depth (.controller i) = some s') :
    ∃ c, s.controllers[i]? = some c ∧ Turn depth s i c s' := by
  obtain ⟨c, hc, -⟩ := controller_of_canRun hr
  exact ⟨c, hc, controllerStep_turn hc hr h⟩

theorem Acts.controller {i : Nat} {s s' : Simulation} {p p' : Interrupted}
    (h : s.Acts p (.controller i) s' p') :
    ∃ c, s.controllers[i]? = some c ∧ s.ControllerMove i c s' := by
  cases h with
  | heed _ hr hs =>
    obtain ⟨c, hc, ht⟩ := controller_runs hr hs
    exact ⟨c, hc, ht.move⟩
  | overlook _ hr hs =>
    obtain ⟨c, hc, ht⟩ := controller_runs hr hs
    exact ⟨c, hc, ht.move.of_overlooked⟩
  | @take _ c r rest hc _ hp hq =>
    exact ⟨c, hc, @ControllerMove.take s i c r rest .pass s.bench s.endings hp hq (List.prefix_refl _)⟩
  | ask hc _ ha => exact ⟨_, hc, .ask (Script.advance_extends ha)⟩
  | conclude hc hp _ => exact ⟨_, hc, .conclude hp⟩

end Simulation

end ControllerBench
