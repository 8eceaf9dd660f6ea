import ControllerBench.Proofs.Delivery.InOrder
import ControllerBench.Proofs.Demo.Effort

namespace ControllerBench.Demo

def Act.marked? : Act → Option Request
  | ask a result => if result.isOk then statusUpdate? a else none
  | start _ | cancel | join | drive .. | publish _ | route | enter | quit | take _ | conclude _ => none

def Act.written? : Act → Option Request
  | drive op result => if result.isOk then op.written? else none
  | start _ | cancel | join | publish _ | route | enter | quit | take _ | ask .. | conclude _ => none

def marked (past : List Act) : List Request := past.filterMap Act.marked?

def written (past : List Act) : List Request := past.filterMap Act.written?

def work (past : List Act) : Nat := (past.map Act.work).sum

def accepted (past : List Act) : Nat := (past.map Act.accepted).sum

theorem marked_concat (past : List Act) (a : Act) :
    marked (past ++ [a]) = marked past ++ a.marked?.toList := by
  cases h : a.marked? <;> simp [marked, h]

theorem written_concat (past : List Act) (a : Act) :
    written (past ++ [a]) = written past ++ a.written?.toList := by
  cases h : a.written? <;> simp [written, h]

namespace Scene

variable {s s' : Scene} {st st' : Option Stage} {a : Act}

theorem drives_credit {t t' : Tracker} {op : Op} {ok : Bool} {e : Option WatchEvent}
    (h : Drives t op ok t' e) :
    (unready t').Subperm ((if ok then op.written? else none).toList ++ unready t) := by
  cases h with
  | written hw =>
    rw [if_pos rfl, hw]
    exact unready_insert_widget ..
  | @deleted r ho =>
    rw [ho]
    exact unready_erase t _
  | refused => exact .refl _

theorem asks_credit {t t' : Tracker} {x x' : Stage} {e : Option WatchEvent} {m : Option Request}
    (h : Asks t x t' e m x') (hs : Stocked t) (hm : ∀ r, m = some r → ready? t r = some false) :
    (m.toList ++ unready t').Subperm (unready t) := by
  cases h with
  | ready | unready | gone | clear | kept | lost => exact .refl _
  | cleared => exact unready_erase t _
  | made => exact unready_insert_config ..
  | marked => exact (unready_insert_ready hs (hm _ rfl) _).symm.subperm

/-- A widget made ready is taken from those that are not, and only the driver brings new ones. -/
theorem Staged.credit (h : s.Sound st) (hs : s.Staged st a s' st') :
    (a.marked?.toList ++ unready s'.sim.bench.tracker).Subperm
      (a.written?.toList ++ unready s.sim.bench.tracker) := by
  cases hs with
  | manage hm =>
    rw [hm.bench]
    cases hm <;> exact .refl _
  | drive hd => exact drives_credit hd
  | ask ha => exact asks_credit ha h.stocked fun r => h.tended.unready_of_marked ha
  | publish | take | conclude => exact .refl _

/-- A bench nobody has worked on yet, where the widgets that are there are not ready. -/
structure Seeded (b : Bench) : Prop where
  unreacted : b.chain = []
  unpublished : b.events = #[]
  unready : ∀ e ∈ b.tracker.entries, ∃ r replicas, e = (widgetKey r, widgetAt r replicas false)

def opening (b : Bench) (config : Config) : Scene where
  sim := { bench := b, config, managed := true, controllers := [controller] }

variable {b : Bench} {config : Config} {past : List Act}

theorem Seeded.stocked (h : Seeded b) : Stocked b.tracker := by
  intro e he
  obtain ⟨r, replicas, rfl⟩ := h.unready e he
  exact .inl ⟨r, replicas, false, rfl⟩

theorem Seeded.not_ready (h : Seeded b) {r : Request} : ready? b.tracker r ≠ some true := by
  intro hr
  obtain ⟨replicas, hf⟩ := h.stocked.ready?_eq_some.1 hr
  obtain ⟨x, n, he⟩ := h.unready _ (Tracker.find?_eq_some.1 hf)
  have hw := congrArg Widget.ofObject? (Prod.mk.inj he).2
  rw [ofObject?_widgetAt, ofObject?_widgetAt] at hw
  simp at hw

theorem Seeded.not_mapped (h : Seeded b) {r : Request} : ¬ Mapped b.tracker r := by
  intro hm
  obtain ⟨e, he, hk⟩ := Tracker.mem_keys.1 hm
  obtain ⟨x, replicas, rfl⟩ := h.unready e he
  exact widgetKey_ne_configKey x r hk

theorem Seeded.listed_eq (h : Seeded b) : listed b.tracker = Demo.unready b.tracker := by
  refine List.filterMap_congr fun e he => ?_
  obtain ⟨r, replicas, rfl⟩ := h.unready e he
  rw [listed?_widget, unready?_widget]
  rfl

theorem Seeded.seed (hb : Seeded b) (r : Reporter) (m : ObjectMeta) (replicas : Nat) :
    Seeded (TestCase.seed r b widgets (widgetObject m replicas false)) where
  unreacted := hb.unreacted
  unpublished := hb.unpublished
  unready := by
    intro e he
    rcases Tracker.mem_insertEntry he with rfl | he
    · exact ⟨⟨m.ns, m.name⟩, replicas, rfl⟩
    · exact hb.unready e he

theorem seeded_setUp (c : TestCase)
    (h : ∀ x ∈ c.resources, ∃ m replicas, x = (widgets, widgetObject m replicas false)) :
    Seeded c.setUp.bench := by
  have hstart : Seeded (Schedule.ofReporter c.reporter).bench := ⟨rfl, rfl, nofun⟩
  change Seeded (c.resources.foldl (fun b x => TestCase.seed c.reporter b x.1 x.2)
    (Schedule.ofReporter c.reporter).bench)
  generalize (Schedule.ofReporter c.reporter).bench = b at hstart ⊢
  generalize c.resources = seeds at h ⊢
  induction seeds generalizing b with
  | nil => exact hstart
  | cons x rest ih =>
    obtain ⟨m, replicas, rfl⟩ := h x List.mem_cons_self
    exact ih _ (hstart.seed ..) fun y hy => h y (List.mem_cons_of_mem _ hy)

theorem register_opening (c : TestCase) (hr : c.registrations = Demo.case.registrations)
    (hroom : 1 ≤ c.config.queueSize) :
    TestCase.register c.registrations c.setUp =
      .ok (none, ⟨(opening c.setUp.bench c.config).sim, [.controller 0]⟩) := by
  have hne : (!c.setUp.sim.started && c.setUp.sim.config.queueSize == 0) = false := by
    change (true && c.config.queueSize == 0) = false
    simpa using Nat.ne_of_gt hroom
  have hsim : c.setUp.sim.addController "widgets" [widgets] (reconciler fun _ _ => .ignore) =
      .ok (opening c.setUp.bench c.config).sim := rfl
  have hadd : c.setUp.addController "widgets" [widgets] (reconciler fun _ _ => .ignore) =
      .ok (.ok (), ⟨(opening c.setUp.bench c.config).sim, [.controller 0]⟩) := by
    rw [Schedule.addController, hne, hsim]
    rfl
  rw [hr]
  simp [Demo.case, TestCase.register, Registration.run, hadd]

theorem opening_sound (hb : Seeded b) (hroom : 1 ≤ config.queueSize) :
    (opening b config).Sound none where
  pass := rfl
  wired :=
    { alone := ⟨controller, rfl, rfl, rfl⟩
      room := hroom
      announced_le := Nat.le_refl _
      cursor_le := Nat.zero_le _
      aimed := nofun
      unlisted := .inl rfl
      idle := fun _ => rfl
      busy := nofun
      alive := fun _ => ⟨rfl, fun c hc => by rw [List.mem_singleton.1 hc]; rfl⟩ }
  stocked := hb.stocked
  tended :=
    { mapped := fun r hr => absurd hr hb.not_ready
      unready := fun r hr => by
        obtain ⟨replicas, hf⟩ := hb.stocked.ready?_eq_some.1 hr
        have hk := Tracker.isSome_find?.1 (Option.isSome_iff_exists.2 ⟨_, hf⟩)
        exact .inl (.inr (.unlisted (Or.inl rfl) hk))
      orphan := fun r _ hm => absurd hm hb.not_mapped
      sound := nofun }

theorem opening_effort (hb : Seeded b) (config : Config) :
    effort (opening b config) none = 25 * (listed b.tracker).length + 5 := by
  have hlist : listingCost (opening b config).sim = 12 * (listed b.tracker).length + 1 :=
    if_pos (.inl rfl)
  have hback : (opening b config).sim.backlog = [] := by
    simp [Simulation.backlog, opening, Bench.published, hb.unpublished]
  have hcost : managerCost (opening b config).sim = 12 * (listed b.tracker).length + 5 := by
    rw [managerCost, hlist, hback]
    simp [opening, controller, backlogCost, deliveryCost, phaseCost, controllerCost]
  have heffort : effort (opening b config) none =
      managerCost (opening b config).sim + 13 * (Demo.unready b.tracker).length := rfl
  rw [heffort, hcost, ← hb.listed_eq]
  omega

theorem Run.account (hb : Seeded b) (hroom : 1 ≤ config.queueSize)
    (h : (opening b config).Run past s) :
    ∃ st, s.Sound st ∧
      (marked past ++ unready s.sim.bench.tracker).Subperm (listed b.tracker ++ written past) ∧
      work past + effort s st ≤ 25 * (listed b.tracker).length + 5 + 38 * accepted past := by
  induction h with
  | nil =>
    refine ⟨none, opening_sound hb hroom, ?_, ?_⟩
    · change (unready b.tracker).Subperm (listed b.tracker ++ [])
      rw [hb.listed_eq, List.append_nil]
    · rw [opening_effort hb config]
      exact Nat.le_of_eq (Nat.zero_add _)
  | @step past s s' a _ hs ih =>
    obtain ⟨st, hsound, hcredit, heffort⟩ := ih
    obtain ⟨st', hstaged⟩ := hs.staged hsound
    refine ⟨st', hsound.staged hstaged, ?_, ?_⟩
    · have hstep := hstaged.credit hsound
      rw [marked_concat, written_concat, List.append_assoc]
      have hmade := (List.subperm_append_left (marked past)).2 hstep
      have hswap := List.perm_append_comm_assoc (marked past) a.written?.toList
        (unready s.sim.bench.tracker)
      have hcarry := (List.subperm_append_left a.written?.toList).2 hcredit
      have hlast : (a.written?.toList ++ (listed b.tracker ++ written past)).Perm
          (listed b.tracker ++ (written past ++ a.written?.toList)) := by
        rw [← List.append_assoc (listed b.tracker)]
        exact List.perm_append_comm
      exact hmade.trans (hswap.subperm.trans (hcarry.trans hlast.subperm))
    · have hstep := hstaged.effort_le hsound
      simp only [work, accepted, List.map_append, List.map_cons, List.map_nil, List.sum_append,
        List.sum_cons, List.sum_nil] at heffort ⊢
      omega

theorem Sound.controller_works (h : s.Sound st) (hp : s.pass = none) {i : Nat}
    (hr : s.sim.canRun (.controller i) = true) : ∃ a s', s.Step a s' ∧ a.work = 1 := by
  obtain ⟨c, hc, he⟩ := Simulation.controller_of_canRun hr
  obtain ⟨rfl, -⟩ := h.wired.controller_of_get hc
  simp only [Simulation.canRun, hc] at hr
  cases hn : s.sim.cancelled with
  | true => exact ⟨.quit, _, .manage (.quit hc hp he hn), rfl⟩
  | false =>
    cases hphase : c.phase with
    | waiting =>
      have hs : s.sim.started = true := by simpa [hphase, hn] using hr
      exact ⟨.enter, _, .manage (.enter hc hphase hs), rfl⟩
    | running =>
      cases hq : c.queue with
      | nil => simp [hphase, hn, hq] at hr
      | cons r rest => exact ⟨.take r, _, .take hc hp hphase hq, rfl⟩
    | ended result =>
      rw [hphase] at he
      cases he

/-- The run never gets stuck before it is quiet. -/
theorem Sound.works (h : s.Sound st) (hq : ¬ s.Quiet) : ∃ a s', s.Step a s' ∧ a.work = 1 := by
  cases hu : s.unsent with
  | cons e later =>
    have he : s.unsent = [] ++ e :: later := hu
    exact ⟨.publish e, _, .publish he, rfl⟩
  | nil =>
    cases st with
    | some x =>
      have hp := h.pass
      rcases x.asks_or_leaves with ⟨a, next, hx⟩ | ⟨r, outcome, rfl⟩
      · have hask : s.pass = some (x.request, .invoke a next) := by
          rw [hp, ← hx]
          rfl
        exact ⟨_, _, .ask hask, rfl⟩
      · obtain ⟨c, hc, -⟩ := h.wired.alone
        have hi : s.sim.controllers[0]? = some c := by rw [hc]; rfl
        exact ⟨_, _, .conclude hi hp, rfl⟩
    | none =>
      have hrun : ∃ t ∈ s.sim.tasks, s.sim.canRun t = true := by
        refine Decidable.byContradiction fun hnone => hq ⟨hu, h.pass, fun t ht => ?_⟩
        exact Bool.eq_false_iff.2 fun hr => hnone ⟨t, ht, hr⟩
      obtain ⟨t, -, hr⟩ := hrun
      cases t with
      | router =>
        have hacts : s.sim.Acts .none .router (s.sim.routerStep.getD s.sim) .none :=
          @Simulation.Acts.heed s.sim .none 0 .router _ (fun _ _ => rfl) hr rfl
        exact ⟨.route, _, .manage (.route hacts), rfl⟩
      | controller i => exact h.controller_works h.pass hr

theorem Sound.nothing_owed (h : s.Sound st) (hq : s.Quiet) (hs : s.sim.started = true)
    (hn : s.sim.cancelled = false) (r : Request) : ¬ s.Owed r := by
  have hw := h.wired
  have halive := hw.alive hn
  obtain ⟨hunsent, -, hquiet⟩ := hq
  have hqueue {c : Controller} (hc : s.sim.controllers[0]? = some c) : c.queue = [] :=
    hquiet.controller hs hn hc (halive.2 c (List.mem_of_getElem? hc))
  have hrun : s.sim.router.phase.isRunning = true := by
    cases hp : s.sim.router.phase with
    | waiting => exact absurd hp (hw.busy hs)
    | running => rfl
    | ended result => simpa [hp, Phase.isEnded] using halive.1
  rcases Simulation.routerStep_none hrun hquiet.router with ⟨d, i, rest, c, -, -, hc, -, hfull⟩ | h'
  · -- a controller whose queue is full can run
    obtain ⟨rfl, -⟩ := hw.controller_of_get hc
    have hroom := hw.room
    rw [hqueue hc, List.length_nil] at hfull
    omega
  obtain ⟨hdel, hfound, hunlisted, hevents⟩ := h'
  rintro (hcan | hcome)
  · exact absurd (hcan.symm.trans hn) (by decide)
  cases hcome with
  | unsent he => simp [hunsent] at he
  | backlog hmem => simp [Simulation.backlog_eq_nil hfound hevents] at hmem
  | unlisted hlist =>
    rcases hlist with hstart | hmem
    · exact absurd (hs.symm.trans hstart) (by decide)
    · simp [hunlisted] at hmem
  | delivered hd => simp [hdel] at hd
  | queued hc hmem => simp [hqueue hc] at hmem

/-- Every widget is ready, and there is a config map for each widget and for nothing else. -/
theorem Sound.settled (h : s.Sound st) (hq : s.Quiet) (hs : s.sim.started = true)
    (hn : s.sim.cancelled = false) :
    (∀ e ∈ s.sim.bench.tracker.entries, e.1.resource = widgets →
        ∃ w, Widget.ofObject? e.2 = some w ∧ w.ready = true) ∧
      ∀ ns name, ⟨configMaps, ns, configName name⟩ ∈ s.sim.bench.tracker.keys ↔
        ⟨widgets, ns, name⟩ ∈ s.sim.bench.tracker.keys := by
  obtain rfl : st = none := by
    have hp := h.pass
    rw [hq.2.1] at hp
    exact Option.map_eq_none_iff.1 hp.symm
  have hall := h.tended.settled (h.nothing_owed hq hs hn)
  constructor
  · intro e he hres
    rcases h.stocked e he with ⟨r, replicas, ready, rfl⟩ | ⟨r, replicas, rfl⟩
    · refine ⟨_, ofObject?_widgetAt r replicas ready, ?_⟩
      have hr := h.stocked.ready?_eq_some.2 ⟨replicas, Tracker.find?_eq_some.2 he⟩
      cases ready with
      | true => rfl
      | false => exact absurd hr (hall r).1
    · have hne : configMaps ≠ widgets := by decide
      exact absurd hres hne
  · intro ns name
    have hiff := (hall ⟨ns, name⟩).2
    rw [ne_eq, h.stocked.ready?_eq_none, not_not] at hiff
    exact hiff

/-- Left alone, a run has only so many steps to make, and makes them until it is quiet. -/
theorem controller_converges (hb : Seeded b) (hroom : 1 ≤ config.queueSize)
    (h : (opening b config).Run past s) :
    (marked past).Subperm (listed b.tracker ++ written past) ∧
      work past ≤ 25 * (listed b.tracker).length + 38 * accepted past + 5 ∧
      (¬ s.Quiet → ∃ a s', s.Step a s' ∧ a.work = 1) ∧
      (s.Quiet → s.sim.started = true → s.sim.cancelled = false →
        (∀ e ∈ s.sim.bench.tracker.entries, e.1.resource = widgets →
          ∃ w, Widget.ofObject? e.2 = some w ∧ w.ready = true) ∧
        ∀ ns name, ⟨configMaps, ns, configName name⟩ ∈ s.sim.bench.tracker.keys ↔
          ⟨widgets, ns, name⟩ ∈ s.sim.bench.tracker.keys) := by
  obtain ⟨st, hsound, hcredit, heffort⟩ := Run.account hb hroom h
  refine ⟨?_, ?_, hsound.works, hsound.settled⟩
  · exact (List.sublist_append_left _ _).subperm.trans hcredit
  · omega

def byRouter (n : Nat) : List Task := List.replicate n .router

def byController : List Task := [.controller 0]

def settling : List Task :=
  byRouter 6 ++ byController ++ byController ++ byRouter 4 ++ byController ++ byRouter 6 ++
    byController ++ byRouter 6 ++ byController ++ byRouter 2 ++ byController

def clearing : List Task := byRouter 3 ++ byController ++ byRouter 2

def busyDay : List Move :=
  [.start [widgets], .call (Op.create ⟨"demo", "w1"⟩ 3).script] ++ settling.map .task ++
    [.call (Op.delete ⟨"demo", "w1"⟩).script] ++ clearing.map .task

theorem busyDay_played : ∀ m ∈ busyDay, Played m := by
  unfold busyDay
  simp only [List.forall_mem_append, List.forall_mem_map, List.forall_mem_cons]
  exact ⟨⟨⟨⟨.start _, .drive _, nofun⟩, fun t _ => .task t⟩, .drive _, nofun⟩, fun t _ => .task t⟩

theorem widget_left_is_ready :
    ∃ past s, (opening Demo.case.setUp.bench { queueSize := 1 }).Run past s ∧ s.Quiet ∧
      s.sim.started = true ∧ s.sim.cancelled = false ∧
      ⟨widgets, "demo", "seeded"⟩ ∈ s.sim.bench.tracker.keys ∧
      ⟨configMaps, "demo", configName "seeded"⟩ ∈ s.sim.bench.tracker.keys ∧
      ⟨configMaps, "demo", configName "w1"⟩ ∉ s.sim.bench.tracker.keys := by
  have hseed : Seeded Demo.case.setUp.bench :=
    seeded_setUp Demo.case fun x hx => ⟨⟨"demo", "seeded"⟩, 1, List.mem_singleton.1 hx⟩
  have hplay : (History.replay 1 busyDay [] (opening Demo.case.setUp.bench { queueSize := 1 }).sim).any
      (fun r => decide (r.2.Quiet ∧ r.2.started = true ∧ r.2.cancelled = false ∧
        ⟨widgets, "demo", "seeded"⟩ ∈ r.2.bench.tracker.keys ∧
        ⟨widgets, "demo", "w1"⟩ ∉ r.2.bench.tracker.keys)) = true := by decide +kernel
  obtain ⟨⟨past', sim⟩, hreplay, hfacts⟩ := (Option.any_eq_true ..).1 hplay
  obtain ⟨hq, hs, hn, hseeded, hgone⟩ := of_decide_eq_true hfacts
  have halone : Alone (opening Demo.case.setUp.bench { queueSize := 1 }).sim :=
    ⟨controller, rfl, rfl, rfl⟩
  have hchain : (opening Demo.case.setUp.bench { queueSize := 1 }).sim.bench.chain = [] :=
    hseed.unreacted
  obtain ⟨past, hrun⟩ := reaches_of_replay halone hchain busyDay_played hreplay
  have hquiet : Quiet { sim } := ⟨rfl, rfl, hq⟩
  obtain ⟨-, -, -, hsettled⟩ := controller_converges hseed (by decide) hrun
  obtain ⟨-, hiff⟩ := hsettled hquiet hs hn
  exact ⟨past, { sim }, hrun, hquiet, hs, hn, hseeded, (hiff ..).2 hseeded,
    mt (hiff ..).1 hgone⟩

end Scene

end ControllerBench.Demo
