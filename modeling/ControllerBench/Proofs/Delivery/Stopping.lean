import ControllerBench.Proofs.Delivery.InOrder

namespace ControllerBench

namespace Simulation

variable {past : History} {s s' : Simulation} {p p' : Interrupted} {m : Move}

/-- The router waits for room in the queue of a controller that has stopped. -/
def Stranded (s : Simulation) : Prop :=
  s.router.phase.isRunning = true ∧ ∃ d i rest c, s.router.delivery = some d ∧ d.blocked = true ∧
    d.targets = i :: rest ∧ s.controllers[i]? = some c ∧ c.phase.isEnded = true

theorem Stranded.routerStep (h : s.Stranded) :
    s.routerStep = some (s.endRouter (.error .queueClosed)) := by
  obtain ⟨hr, d, i, rest, c, hd, hb, ht, hi, he⟩ := h
  simp [Simulation.routerStep, hr, hd, deliver, ht, hi, he, hb]

theorem Stranded.routerMove (h : s.Stranded) (hm : s.RouterMove s') :
    s'.router.phase.isEnded = true := by
  obtain ⟨-, d, i, rest, c, hd, hb, ht, hi, he⟩ := h
  have same {d'} (hd' : s.router.delivery = some d') : d' = d := Option.some.inj (hd'.symm.trans hd)
  cases hm with
  | fail => rfl
  | finish hd' ht' =>
    obtain rfl := same hd'
    exact absurd (ht.symm.trans ht') (List.cons_ne_nil _ _)
  | pass hd' ht' hp =>
    obtain rfl := same hd'
    obtain ⟨rfl, -⟩ := List.cons.inj (ht.symm.trans ht')
    simp [(hp c hi).2] at hb
  | send hd' ht' hi' he' =>
    obtain rfl := same hd'
    obtain ⟨rfl, -⟩ := List.cons.inj (ht.symm.trans ht')
    obtain rfl := Option.some.inj (hi.symm.trans hi')
    exact absurd (he.symm.trans he') nofun
  | block hd' _ _ _ _ hb' =>
    obtain rfl := same hd'
    exact absurd (hb.symm.trans hb') nofun
  | found hd' | list hd' | leave hd' | event hd' => cases hd.symm.trans hd'

theorem Quiet.not_stranded (hq : s.Quiet) : ¬ s.Stranded := by
  intro h
  have hn := hq.router
  rw [h.routerStep] at hn
  cases hn

theorem isEnded_of_isRunning {p : Phase} (h : p.isRunning = true) : p.isEnded = false := by
  cases p with
  | waiting => rfl
  | running => rfl
  | ended result => cases h

theorem RouterMove.stranded (hm : s.RouterMove s') (hr : s.router.phase.isRunning = true)
    (hc : s.cancelled = false) (hend : s'.router.phase.isEnded = true) : s.Stranded := by
  have hn := isEnded_of_isRunning hr
  cases hm with
  | fail hd ht hi he hb => exact ⟨hr, _, _, _, _, hd, hb, ht, hi, he⟩
  | leave _ _ hcan => simp [hc] at hcan
  | finish | pass | send | block | found | list | event => exact absurd (hn.symm.trans hend) nofun

theorem Step.stopped_stays (hm : s.Step p m s' p') {i : Nat} {c : Controller}
    (hi : s.controllers[i]? = some c) (he : c.phase.isEnded = true) :
    s'.controllers[i]? = some c := by
  -- no step sets a controller that has stopped
  have set_other {j : Nat} {d d' : Controller} (hj : s.controllers[j]? = some d)
      (hd : d.phase.isEnded = false) : (s.controllers.set j d')[i]? = some c := by
    have hji : j ≠ i := by
      rintro rfl
      obtain rfl : c = d := Option.some.inj (hi.symm.trans hj)
      rw [he] at hd
      cases hd
    rw [List.getElem?_set_ne hji, hi]
  cases hm with
  | manage h =>
    obtain rfl := manage_ok h
    exact hi
  | register h =>
    obtain ⟨_, rfl⟩ := addController_ok h
    change (s.controllers ++ _)[i]? = some c
    rw [List.getElem?_append_left (List.getElem?_eq_some_iff.1 hi).1, hi]
  | start h =>
    obtain ⟨_, rfl⟩ := start_ok h
    exact hi
  | cancel => exact hi
  | join => exact hi
  | call => exact hi
  | arrange => exact hi
  | @task t _ _ h =>
    cases t with
    | router =>
      cases h.router.2 with
      | send _ _ hj hd => exact set_other hj hd
      | finish | pass | fail | block | found | list | leave | event => exact hi
    | controller j =>
      obtain ⟨d, hj, hm⟩ := h.controller
      cases hm with
      | enter hp => exact set_other hj (by rw [hp]; rfl)
      | quit hd => exact set_other hj hd
      | take hp => exact set_other hj (by rw [hp]; rfl)
      | ask => exact hi
      | conclude hp => exact set_other hj (by rw [hp]; rfl)

theorem Stranded.step (h : s.Stranded) (hl : Ledger past s) (hm : s.Step p m s' p') :
    s'.Stranded ∨ s'.router.phase.isEnded = true := by
  by_cases hr : m = .task .router
  · subst hr
    cases hm with
    | task hacts => exact .inr (h.routerMove hacts.router.2)
  · have hstart : ∀ order, m ≠ .start order := by
      -- a router that runs has been started already
      rintro order rfl
      cases hm with
      | start hok =>
        have hs := hl.started_of_running h.1
        simp [(start_ok hok).1] at hs
    have hb := hm.beside hr hstart
    obtain ⟨hrun, d, i, rest, c, hd, hblocked, ht, hi, he⟩ := h
    left
    refine ⟨hb.router ▸ hrun, d, i, rest, c, hb.router ▸ hd, hblocked, ht, ?_, he⟩
    exact hm.stopped_stays hi he

theorem Step.router_ended_iff (hl : Ledger past s) (hm : s.Step p m s' p') (hc : s.cancelled = false) :
    s'.router.phase.isEnded = true ↔
      s.router.phase.isEnded = true ∨ (s.Stranded ∧ m = .task .router) := by
  by_cases hr : m = .task .router
  · subst hr
    cases hm with
    | task hacts =>
      obtain ⟨hrun, hmove⟩ := hacts.router
      have hn := isEnded_of_isRunning hrun
      constructor
      · exact fun hend => .inr ⟨hmove.stranded hrun hc hend, rfl⟩
      · rintro (he | ⟨hs, -⟩)
        · exact absurd (hn.symm.trans he) nofun
        · exact hs.routerMove hmove
  · by_cases hs : ∃ order, m = .start order
    · obtain ⟨order, rfl⟩ := hs
      cases hm with
      | start hok =>
        obtain ⟨hn, rfl⟩ := start_ok hok
        simp [hl.idle hn, Phase.isEnded]
    · rw [(hm.beside hr fun order ho => hs ⟨order, ho⟩).router]
      simp [hr]

theorem Step.cancelled (hm : s.Step p m s' p') (hc : s'.cancelled = false) : s.cancelled = false := by
  cases hm with
  | manage h =>
    obtain rfl := manage_ok h
    exact hc
  | register h =>
    obtain ⟨_, rfl⟩ := addController_ok h
    exact hc
  | start h =>
    obtain ⟨_, rfl⟩ := start_ok h
    exact hc
  | cancel => cases hc
  | join => exact hc
  | call => exact hc
  | arrange => exact hc
  | @task t _ _ h =>
    cases t with
    | router => cases h.router.2 <;> exact hc
    | controller j =>
      obtain ⟨d, -, hm⟩ := h.controller
      cases hm <;> exact hc

theorem router_ended_iff (h : Run past s p) (hc : s.cancelled = false) :
    s.router.phase.isEnded = true ↔ ∃ e ∈ past, e.1.Stranded ∧ e.2 = .task .router := by
  induction h with
  | init bench => simp [Phase.isEnded]
  | step h hm ih =>
    have hc := hm.cancelled hc
    rw [hm.router_ended_iff (.run h) hc, ih hc]
    simp [or_and_right, exists_or]

theorem stranded_or_ended (h : Run past s p) (hp : ∃ e ∈ past, e.1.Stranded) (hc : s.cancelled = false) :
    s.Stranded ∨ s.router.phase.isEnded = true := by
  induction h with
  | init bench => simp at hp
  | @step past s s' p p' m h hm ih =>
    have hl := Ledger.run h
    have hc := hm.cancelled hc
    have hs : s.Stranded ∨ s.router.phase.isEnded = true := by
      obtain ⟨e, he, hst⟩ := hp
      rcases List.mem_append.1 he with he | he
      · exact ih ⟨e, he, hst⟩ hc
      · obtain rfl := List.mem_singleton.1 he
        exact .inl hst
    rcases hs with hs | hs
    · exact hs.step hl hm
    · exact .inr ((hm.router_ended_iff hl hc).2 (.inl hs))

/--
The router passes controllers over that have stopped, unless it is blocked on one of them at that moment;
then it ends with an error, and the others are cut off.
-/
theorem stopping_disturbs_iff_stranded (h : Run past s p) (hc : s.cancelled = false) :
    (s.router.phase.isEnded = true ↔ ∃ e ∈ past, e.1.Stranded ∧ e.2 = .task .router) ∧
      (1 ≤ s.config.queueSize → s.started = true → s.Quiet →
        ((s.router.phase.isEnded = false ∧ ∀ c ∈ s.controllers, c.phase.isEnded = false →
            c.taken.toList = c.due past s.bench) ↔
          ∀ e ∈ past, ¬ e.1.Stranded)) := by
  refine ⟨router_ended_iff h hc, fun hn hs hq => ⟨?_, fun hfree => ?_⟩⟩
  · rintro ⟨hr, -⟩ e he hst
    rcases stranded_or_ended h ⟨e, he, hst⟩ hc with hnow | hend
    · exact hq.not_stranded hnow
    · exact absurd (hr.symm.trans hend) nofun
  · have hr : s.router.phase.isEnded = false := by
      refine Bool.eq_false_iff.2 fun hend => ?_
      obtain ⟨e, he, hst, -⟩ := (router_ended_iff h hc).1 hend
      exact hfree e he hst
    exact ⟨hr, fun c => hq.taken_all h hn hs hc hr⟩

def halting : Reconciler := ⟨fun _ _ => .done (.fail (.external "bad")), fun _ e => .stop e⟩

def busy : Bench where
  reporter := ⟨"case"⟩
  events :=
    #[⟨.added, things, "ns", "a"⟩, ⟨.added, things, "ns", "b"⟩, ⟨.added, things, "ns", "c"⟩]

def setting : List Move :=
  [.manage { queueSize := 1 }, .register "a" [things] halting, .register "b" [things] idle,
    .start [things]]

theorem stopped_before_it_is_awaited :
    ∃ past s, Run past s .none ∧ s.Quiet ∧ s.controllers.map (·.phase.isEnded) = [true, false] ∧
      ∀ e ∈ past, ¬e.1.Stranded := by
  obtain ⟨past, s, hrun, hn, hs, hc, hr, hq, hended, hall⟩ := Run.exists_of_replay 0 busy
    (setting ++ [.task .router, .task .router, .task .router, .task .router, .task .router,
      .task (.controller 0), .task (.controller 0), .task (.controller 1), .task (.controller 1),
      .task .router, .task .router, .task .router, .task .router, .task (.controller 1),
      .task .router, .task .router, .task .router, .task .router, .task (.controller 1)])
    (fun past s => 1 ≤ s.config.queueSize ∧ s.started = true ∧ s.cancelled = false ∧
      s.router.phase.isEnded = false ∧ s.Quiet ∧
      s.controllers.map (·.phase.isEnded) = [true, false] ∧
      ∀ c ∈ s.controllers, c.phase.isEnded = false → c.taken.toList = c.due past s.bench)
    (by decide +kernel)
  have hiff := (stopping_disturbs_iff_stranded hrun hc).2 hn hs hq
  exact ⟨past, s, hrun, hq, hended, hiff.1 ⟨hr, hall⟩⟩

theorem stopped_while_awaited :
    ∃ past s, Run past s .none ∧ s.Quiet ∧ s.cancelled = false ∧ s.router.phase.isEnded = true ∧
      ∃ c ∈ s.controllers, c.phase.isEnded = false ∧ c.taken.toList = [⟨"ns", "a"⟩] ∧
        c.due past s.bench = [⟨"ns", "a"⟩, ⟨"ns", "b"⟩, ⟨"ns", "c"⟩] :=
  Run.exists_of_replay 0 busy
    (setting ++ [.task .router, .task .router, .task .router, .task .router, .task .router,
      .task .router, .task .router, .task (.controller 0), .task (.controller 0),
      .task (.controller 1), .task (.controller 1), .task .router]) _ (by decide +kernel)

end Simulation

end ControllerBench
