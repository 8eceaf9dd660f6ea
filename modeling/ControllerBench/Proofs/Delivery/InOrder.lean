import ControllerBench.Proofs.Delivery.Ledger

namespace ControllerBench

namespace Controller

/-- All a controller is to be asked: one request for each object found, then one for each event. -/
def due (c : Controller) (past : History) (b : Bench) : List Request :=
  c.share (past.found ++ b.published)

end Controller

namespace Simulation

variable {past : History} {s s' : Simulation} {p p' : Interrupted} {m : Move}

theorem RouterMove.served (hl : Ledger past s) (hs : s.Served) (hm : s.RouterMove s') :
    s'.Served := by
  cases hm with
  | @finish d hd ht =>
    intro i c hi
    have hc := hs i c hi
    rw [Router.inFlight_some hd, ht, if_neg List.not_mem_nil] at hc
    exact hc
  | @pass d i rest hd ht hp =>
    refine hs.advance hd ht (hl.aimed d hd) rfl (fun _ _ => rfl) fun c hc => ?_
    exact (hs i c hc).skip (hp c hc).1 []
  | fail => exact fun i c hi => hs i c hi
  | @send d i rest c hd ht hc he _ =>
    refine hs.advance hd ht (hl.aimed d hd) rfl (fun j hj => List.getElem?_set_ne hj.symm) ?_
    intro c' hc'
    change (s.controllers.set i _)[i]? = some c' at hc'
    rw [List.getElem?_set_self', hc] at hc'
    cases hc'
    have hi := hs i c hc
    rw [Router.inFlight_some hd, ht, if_pos List.mem_cons_self] at hi
    exact hi.receive he
  | @block d i rest c hd =>
    intro j c' hj
    have hc := hs j c' hj
    rw [Router.inFlight_some hd] at hc
    exact hc
  | found hd hf => exact hs.announce hd (sent_announceFound (hl.cursor_eq_zero hf) hf) rfl
  | list hd hf hu =>
    intro i c hi
    change c.Served (c.share (Router.sent _ s.bench)) (s.router.inFlight i)
    rw [sent_listNext hl.announced_le]
    exact hs i c hi
  | leave => exact fun i c hi => hs i c hi
  | event hd hf hu he => exact hs.announce hd (sent_announceEvent he) rfl

theorem ControllerMove.served {i : Nat} {c : Controller} (hl : Ledger past s) (hs : s.Served)
    (hc : s.controllers[i]? = some c) (hm : s.ControllerMove i c s') : s'.Served := by
  have hi := hs i c hc
  cases hm with
  | enter hp =>
    exact hs.setController (.of_balance rfl (hi.balance (by rw [hp]; rfl)))
  | quit => exact hs.setController (hi.stop _)
  | @take r rest outcome bench endings hp hq hb =>
    have htake := (hi.take (by rw [hp]; rfl) hq).conclude r outcome
    have hext := hs.extend hb hl.cursor_le
    refine hext.setController (i := i) ?_
    rw [Controller.share_congr (Controller.conclude_watches ..)]
    change Controller.Served _ (c.share (s.router.sent bench)) _
    rw [Router.sent_extends hb hl.cursor_le]
    exact htake
  | ask hb => exact hs.extend hb hl.cursor_le
  | @conclude r outcome =>
    refine hs.setController (i := i) ?_
    rw [Controller.share_congr (Controller.conclude_watches ..)]
    exact hi.conclude r outcome

theorem Step.served (hl : Ledger past s) (hs : s.Served) (hm : s.Step p m s' p') : s'.Served := by
  cases hm with
  | manage h =>
    obtain rfl := manage_ok h
    exact fun i c hi => hs i c hi
  | register h =>
    obtain ⟨hn, rfl⟩ := addController_ok h
    intro i c hi
    have hr := hl.idle hn
    change (s.controllers ++ _)[i]? = some c at hi
    rw [List.getElem?_append] at hi
    split at hi
    · exact hs i c hi
    · -- a controller that is new has taken nothing, and nothing was sent before the start
      obtain rfl := List.mem_singleton.1 (List.mem_of_getElem? hi)
      change Controller.Served _ (Controller.share _ (s.router.sent s.bench)) (s.router.inFlight i)
      rw [hr]
      exact .of_balance rfl rfl
  | start h =>
    obtain ⟨_, rfl⟩ := start_ok h
    exact fun i c hi => hs i c hi
  | cancel => exact fun i c hi => hs i c hi
  | join => exact fun i c hi => hs i c hi
  | call h => exact hs.extend (Script.run_extends h) hl.cursor_le
  | arrange h => exact hs.extend (Bench.extends_of_eq h) hl.cursor_le
  | @task t s' _ h =>
    cases t with
    | router => exact h.router.2.served hl hs
    | controller i =>
      obtain ⟨c, hi, hm⟩ := h.controller
      exact hm.served hl hs hi

theorem Served.run (h : Run past s p) : s.Served := by
  induction h with
  | init bench => exact nofun
  | step h hm ih => exact hm.served (.run h) ih

theorem Quiet.router (hq : s.Quiet) : s.routerStep = none := by
  have h := hq .router List.mem_cons_self
  simpa [canRun] using h

theorem Quiet.controller (hq : s.Quiet) (hs : s.started = true) (hc : s.cancelled = false) {i : Nat}
    {c : Controller} (hi : s.controllers[i]? = some c) (he : c.phase.isEnded = false) :
    c.queue = [] := by
  have hlt := (List.getElem?_eq_some_iff.1 hi).1
  have h := hq (.controller i) (by simpa [tasks] using hlt)
  cases hp : c.phase with
  | waiting => simp [canRun, hi, hp, hs] at h
  | running => simpa [canRun, hi, hp, hc] using h
  | ended result => simp [hp, Phase.isEnded] at he

theorem Quiet.drained (hq : s.Quiet) (hl : Ledger past s) (hn : 1 ≤ s.config.queueSize)
    (hs : s.started = true) (hc : s.cancelled = false) (hr : s.router.phase.isEnded = false) :
    s.router.delivery = none ∧ s.router.found.size ≤ s.router.announced ∧
      s.router.unlisted = [] ∧ s.bench.events.size ≤ s.router.cursor := by
  have hrun : s.router.phase.isRunning = true := by
    have hb := hl.busy hs
    cases hp : s.router.phase with
    | waiting => exact absurd hp hb
    | running => rfl
    | ended result => simp [hp, Phase.isEnded] at hr
  rcases routerStep_none hrun hq.router with ⟨d, i, rest, c, hd, ht, hi, he, hfull⟩ | h
  · -- backpressure cannot lock the tasks up: a controller whose queue is full can run
    have hempty := hq.controller hs hc hi he
    rw [hempty, List.length_nil] at hfull
    omega
  · exact h

theorem Quiet.taken_all (hq : s.Quiet) (h : Run past s p) (hn : 1 ≤ s.config.queueSize)
    (hs : s.started = true) (hc : s.cancelled = false) (hr : s.router.phase.isEnded = false)
    {c : Controller} (hmem : c ∈ s.controllers) (he : c.phase.isEnded = false) :
    c.taken.toList = c.due past s.bench := by
  have hl := Ledger.run h
  obtain ⟨hd, ha, -, hcur⟩ := hq.drained hl hn hs hc hr
  obtain ⟨i, hi⟩ := List.getElem?_of_mem hmem
  have hb := (Served.run h i c hi).balance he
  rw [hq.controller hs hc hi he, Router.inFlight_none hd, hl.sent_all ha hcur] at hb
  simpa [Controller.due] using hb

theorem taken_le (h : Run past s p) {c : Controller} (hmem : c ∈ s.controllers) :
    c.taken.toList <+: c.due past s.bench := by
  obtain ⟨i, hi⟩ := List.getElem?_of_mem hmem
  exact (Served.run h i c hi).inOrder.trans (c.share_le (Ledger.run h).sent_le)

theorem queue_empty (h : Run past s p) (hq : s.Quiet) (hs : s.started = true) (hc : s.cancelled = false)
    {c : Controller} (hmem : c ∈ s.controllers) : c.queue = [] := by
  obtain ⟨i, hi⟩ := List.getElem?_of_mem hmem
  cases he : c.phase.isEnded with
  | true => exact (Served.run h i c hi).emptied he
  | false => exact hq.controller hs hc hi he

/--
Whatever order the tasks run in, each controller takes its requests in the order of the resync and then of
the events, and once all is at rest it has taken every one of them.
-/
theorem requests_delivered_in_order (h : Run past s p) :
    (∀ c ∈ s.controllers, c.taken.toList <+: c.due past s.bench) ∧
      (1 ≤ s.config.queueSize → s.started = true → s.cancelled = false →
        s.router.phase.isEnded = false → s.Quiet →
        (∀ c ∈ s.controllers, c.phase.isEnded = false → c.taken.toList = c.due past s.bench) ∧
          (∀ c ∈ s.controllers, c.queue = []) ∧ s.router.cursor = s.bench.events.size ∧
          s.router.delivery = none ∧ past.listed.Perm s.watched) := by
  refine ⟨fun c hmem => taken_le h hmem, fun hn hs hc hr hq => ?_⟩
  have hl := Ledger.run h
  obtain ⟨hd, ha, hu, hcur⟩ := hq.drained hl hn hs hc hr
  refine ⟨fun c => hq.taken_all h hn hs hc hr, fun c => queue_empty h hq hs hc, ?_, hd, ?_⟩
  · exact Nat.le_antisymm hl.cursor_le hcur
  · simpa [hu, hs] using hl.listed

def things : Resource := .core "v1" "things"

def stocked : Bench where
  reporter := ⟨"case"⟩
  tracker := Tracker.empty.insert ⟨things, "ns", "a"⟩
    ⟨⟨"thing", "Thing"⟩, some ⟨"ns", "a"⟩, .text ""⟩
  events := #[⟨.added, things, "ns", "b"⟩]

def idle : Reconciler := ⟨fun _ _ => .done .pass, fun _ _ => .ignore⟩

def catchingUp : List Move :=
  [.manage { queueSize := 1 }, .register "a" [things] idle, .start [things], .task .router,
    .task .router, .task .router, .task .router, .task .router, .task .router, .task (.controller 0),
    .task (.controller 0), .task .router, .task .router, .task (.controller 0)]

theorem one_controller_catches_up :
    ∃ past s, Run past s .none ∧ s.Quiet ∧ s.controllers.map (·.taken.toList) = [[⟨"ns", "a"⟩, ⟨"ns", "b"⟩]] ∧
      ∀ c ∈ s.controllers, c.taken.toList = c.due past s.bench := by
  obtain ⟨past, s, hrun, hn, hs, hc, hr, hq, htaken, hend⟩ := Run.exists_of_replay 0 stocked
    catchingUp (fun past s => 1 ≤ s.config.queueSize ∧ s.started = true ∧ s.cancelled = false ∧
      s.router.phase.isEnded = false ∧ s.Quiet ∧
      s.controllers.map (·.taken.toList) = [[⟨"ns", "a"⟩, ⟨"ns", "b"⟩]] ∧
      ∀ c ∈ s.controllers, c.phase.isEnded = false) (by decide +kernel)
  have hquiet := (requests_delivered_in_order hrun).2 hn hs hc hr hq
  exact ⟨past, s, hrun, hq, htaken, fun c hm => hquiet.1 c hm (hend c hm)⟩

end Simulation

end ControllerBench
