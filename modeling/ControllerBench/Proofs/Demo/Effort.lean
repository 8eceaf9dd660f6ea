import Mathlib.Algebra.GroupWithZero.Nat
import ControllerBench.Proofs.Demo.Staged

namespace ControllerBench.Demo

/-- A request that is announced is also blocked once, sent, taken, and looked after in a whole pass. -/
def announceCost (r : Resource) : Nat := if r = widgets then 12 else 2

def unsentCost (es : List WatchEvent) : Nat := (es.map fun e => announceCost e.resource + 1).sum

def backlogCost (fs : List (Resource × Request)) : Nat := (fs.map fun f => announceCost f.1).sum

def deliveryCost : Option Delivery → Nat
  | none => 0
  | some ⟨_, [], _⟩ => 1
  | some ⟨_, _ :: _, true⟩ => 10
  | some ⟨_, _ :: _, false⟩ => 11

def Stage.cost : Stage → Nat
  | reading _ => 7
  | creating .. => 6
  | clearing _ => 5
  | marking .. => 2
  | leaving .. => 1

def phaseCost : Phase → Nat
  | .waiting => 2
  | .running => 1
  | .ended _ => 0

def controllerCost (c : Controller) : Nat := 8 * c.queue.length + phaseCost c.phase

def listingCost (s : Simulation) : Nat :=
  if Unlisted s then 12 * (listed s.bench.tracker).length + 1 else 0

def managerCost (s : Simulation) : Nat :=
  backlogCost s.backlog + listingCost s + deliveryCost s.router.delivery +
    phaseCost s.router.phase + (s.controllers.map controllerCost).sum

/-- A widget that is not ready will be made so, which publishes one more event. -/
def effort (s : Scene) (st : Option Stage) : Nat :=
  managerCost s.sim + unsentCost s.unsent + st.elim 0 Stage.cost +
    13 * (unready s.sim.bench.tracker).length

/-- The steps of the manager and of calls already made; the driver's own moves are not counted. -/
def Act.work : Act → Nat
  | route | enter | quit | publish _ | take _ | ask .. | conclude _ => 1
  | start _ | cancel | join | drive .. => 0

def Act.accepted : Act → Nat
  | drive _ result => result.isOk.toNat
  | start _ | cancel | join | publish _ | route | enter | quit | take _ | ask .. | conclude _ => 0

variable {s s' : Simulation} {c c' : Controller}

theorem redeliver_cost (s : Simulation) (d : Option Delivery) :
    managerCost (s.setRouter { s.router with delivery := d }) + deliveryCost s.router.delivery =
      managerCost s + deliveryCost d := by
  have h : managerCost (s.setRouter { s.router with delivery := d }) =
      backlogCost s.backlog + listingCost s + deliveryCost d + phaseCost s.router.phase +
        (s.controllers.map controllerCost).sum := rfl
  rw [h, managerCost]
  omega

theorem setController_cost (hs : s.controllers = [c]) (c' : Controller) :
    managerCost (s.setController 0 c') + controllerCost c = managerCost s + controllerCost c' := by
  have h : managerCost (s.setController 0 c') =
      backlogCost s.backlog + listingCost s + deliveryCost s.router.delivery +
        phaseCost s.router.phase + ((s.controllers.set 0 c').map controllerCost).sum := rfl
  rw [h, managerCost, hs]
  simp
  omega

theorem send_cost (hs : s.controllers = [c]) {r : Request} {blocked : Bool}
    (hd : s.router.delivery = some ⟨r, [0], blocked⟩) :
    managerCost ((s.setController 0 { c with queue := c.queue ++ [r] }).setRouter
      { s.router with delivery := some ⟨r, [], false⟩ }) + 1 ≤ managerCost s := by
  have hset := setController_cost hs { c with queue := c.queue ++ [r] }
  have hqueue : controllerCost { c with queue := c.queue ++ [r] } = controllerCost c + 8 := by
    simp only [controllerCost, List.length_append, List.length_singleton]
    omega
  have hold : 10 ≤ deliveryCost s.router.delivery := by
    rw [hd]
    cases blocked <;> simp [deliveryCost]
  have hdel : managerCost ((s.setController 0 { c with queue := c.queue ++ [r] }).setRouter
      { s.router with delivery := some ⟨r, [], false⟩ }) + deliveryCost s.router.delivery =
        managerCost (s.setController 0 { c with queue := c.queue ++ [r] }) + 1 :=
    redeliver_cost (s.setController 0 { c with queue := c.queue ++ [r] }) _
  omega

theorem endRouter_cost (hr : s.router.phase.isRunning = true) (result : Except Error Unit) :
    managerCost (s.endRouter result) + 1 = managerCost s := by
  have h : managerCost (s.endRouter result) =
      backlogCost s.backlog + listingCost s + deliveryCost s.router.delivery + 0 +
        (s.controllers.map controllerCost).sum := rfl
  have hp : phaseCost s.router.phase = 1 := by
    cases hphase : s.router.phase with
    | running => rfl
    | waiting | ended =>
      rw [hphase] at hr
      cases hr
  rw [h, managerCost, hp]
  omega

theorem announce_cost (ha : Alone s) {f : Resource × Request} {router : Router}
    (hd : s.router.delivery = none) (hu : router.unlisted = s.router.unlisted)
    (hp : router.phase = s.router.phase) (hb : s.backlog = f :: (s.setRouter router).backlog)
    (hr : router.delivery = some ⟨f.2, s.watchers f.1, false⟩) :
    managerCost (s.setRouter router) + 1 = managerCost s := by
  have hlist : listingCost (s.setRouter router) = listingCost s := by
    have hiff : Unlisted (s.setRouter router) ↔ Unlisted s := or_congr_right (hu ▸ Iff.rfl)
    exact if_congr hiff rfl rfl
  have h : managerCost (s.setRouter router) =
      backlogCost (s.setRouter router).backlog + listingCost (s.setRouter router) +
        deliveryCost router.delivery + phaseCost router.phase +
          (s.controllers.map controllerCost).sum := rfl
  have hcost : announceCost f.1 = deliveryCost router.delivery + 1 := by
    rw [hr, ha.watchers, announceCost]
    split <;> rfl
  have hback : backlogCost s.backlog =
      announceCost f.1 + backlogCost (s.setRouter router).backlog := by
    rw [hb]
    rfl
  rw [h, managerCost, hback, hlist, hp, hd]
  simp only [deliveryCost] at hcost ⊢
  omega

theorem listing_cost (s : Simulation) :
    backlogCost (s.listing widgets) = 12 * (listed s.bench.tracker).length := by
  rw [listing_eq]
  induction listed s.bench.tracker with
  | nil => rfl
  | cons r rest ih =>
    have hone : announceCost widgets = 12 := if_pos rfl
    simp only [backlogCost, List.map_cons, List.sum_cons, List.length_cons, hone] at ih ⊢
    omega

theorem list_cost (h : Wired s) (hn : s.started = true) (hu : s.router.unlisted = [widgets])
    (hf : s.router.found[s.router.announced]? = none) :
    managerCost (s.listNext widgets []) + 1 = managerCost s := by
  have hb := Simulation.backlog_listNext h.announced_le hf widgets []
  have hold : listingCost s = 12 * (listed s.bench.tracker).length + 1 :=
    if_pos (.inr (hu ▸ List.mem_singleton_self _))
  have hnew : listingCost (s.listNext widgets []) = 0 := by
    refine if_neg fun hl => ?_
    rcases hl with hl | hl
    · exact absurd (hn.symm.trans hl) (by decide)
    · cases hl
  have hcost := listing_cost s
  have h' : managerCost (s.listNext widgets []) =
      backlogCost (s.listNext widgets []).backlog + listingCost (s.listNext widgets []) +
        deliveryCost s.router.delivery + phaseCost s.router.phase +
          (s.controllers.map controllerCost).sum := rfl
  have hback : backlogCost (s.listNext widgets []).backlog =
      backlogCost (s.listing widgets) + backlogCost s.backlog := by
    rw [hb]
    simp [backlogCost]
  rw [h', managerCost, hold, hnew, hback, hcost]
  omega

theorem routes_cost (h : Wired s) (hr : s.router.phase.isRunning = true)
    (hm : s.RouterMove s') : managerCost s' + 1 ≤ managerCost s := by
  cases hm with
  | @finish d hd ht =>
    have hc := redeliver_cost s none
    obtain ⟨r, targets, blocked⟩ := d
    obtain rfl : targets = [] := ht
    rw [hd] at hc
    exact hc.le
  | @pass d i rest hd ht hp =>
    obtain ⟨rfl, rfl⟩ := h.rest_of_targets hd ht
    have hc := redeliver_cost s (some ⟨d.request, [], false⟩)
    obtain ⟨r, targets, blocked⟩ := d
    obtain rfl : targets = [0] := ht
    rw [hd] at hc
    cases blocked <;> simp only [deliveryCost] at hc ⊢ <;> omega
  | fail => exact (endRouter_cost hr _).le
  | @send d i rest c hd ht hc he hroom =>
    obtain ⟨rfl, rfl⟩ := h.rest_of_targets hd ht
    obtain ⟨r, targets, blocked⟩ := d
    obtain rfl : targets = [0] := ht
    exact send_cost (h.controller_of_get hc).2.1 hd
  | @block d i rest c hd ht hc he hfull hb =>
    have hc := redeliver_cost s (some { d with blocked := true })
    obtain ⟨r, targets, blocked⟩ := d
    obtain rfl : targets = i :: rest := ht
    obtain rfl : blocked = false := hb
    rw [hd] at hc
    simp only [deliveryCost] at hc ⊢
    omega
  | @found f hd hf =>
    have hb := Simulation.backlog_announceFound hf
    change managerCost (s.setRouter { s.router with
      announced := s.router.announced + 1
      delivery := some ⟨f.2, s.watchers f.1, false⟩ }) + 1 ≤ _
    exact Nat.le_of_eq (announce_cost h.alone hd rfl rfl hb rfl)
  | @list x rest hd hf hu =>
    obtain ⟨rfl, rfl⟩ := h.rest_of_unlisted hu
    exact (list_cost h (h.started hr) hu hf).le
  | leave => exact (endRouter_cost hr _).le
  | @event e hd hf hu he =>
    have hb := Simulation.backlog_announceEvent hf he
    change managerCost (s.setRouter { s.router with
      cursor := s.router.cursor + 1
      delivery := some ⟨⟨e.ns, e.name⟩, s.watchers e.resource, false⟩ }) + 1 ≤ _
    exact Nat.le_of_eq (announce_cost h.alone hd rfl rfl hb rfl)

theorem manages_cost {s : Scene} {a : Act} {sim : Simulation} (h : Wired s.sim)
    (hm : s.Manages a sim) : managerCost sim + a.work ≤ managerCost s.sim := by
  cases hm with
  | start hs =>
    obtain ⟨-, hn, -, hu, -, hb, hc, hback, hd⟩ := h.start hs
    have hold : listingCost s.sim = 12 * (listed s.sim.bench.tracker).length + 1 := if_pos (.inl hn)
    have hnew : listingCost sim = 12 * (listed s.sim.bench.tracker).length + 1 := by
      rw [← hb]
      exact if_pos (.inr (hu ▸ List.mem_singleton_self _))
    have hphase : phaseCost sim.router.phase ≤ phaseCost s.sim.router.phase := by
      rw [h.idle hn]
      cases sim.router.phase <;> simp [phaseCost]
    rw [managerCost, managerCost, hback, hd, hc, hold, hnew]
    simp only [Act.work]
    omega
  | cancel => exact Nat.le_refl _
  | join => exact Nat.le_refl _
  | route hs => exact routes_cost h hs.router.1 hs.router.2
  | @enter c hc hphase =>
    have hset := setController_cost (h.controller_of_get hc).2.1 { c with phase := .running }
    have hcost : controllerCost c = controllerCost { c with phase := .running } + 1 := by
      rw [controllerCost, hphase]
      rfl
    simp only [Act.work]
    omega
  | @quit c hc _ he hcan =>
    have hset := setController_cost (h.controller_of_get hc).2.1 (c.stop (.ok ()))
    have hcost : 1 ≤ controllerCost c := by
      cases hphase : c.phase with
      | waiting | running =>
        rw [controllerCost, hphase]
        simp [phaseCost]
      | ended result =>
        rw [hphase] at he
        cases he
    have hstop : controllerCost (c.stop (.ok ())) = 0 := rfl
    have hsame : managerCost (s.sim.endController 0 c (.ok ())) =
        managerCost (s.sim.setController 0 (c.stop (.ok ()))) := rfl
    simp only [Act.work]
    omega

section Store

variable {t t' : Tracker} {op : Op} {ok : Bool} {e : Option WatchEvent} {marked : Option Request}
  {x x' : Stage}

theorem drives_growth (h : Drives t op ok t' e) :
    (unready t').length ≤ (unready t).length + ok.toNat ∧
      (listed t').length ≤ (listed t).length + ok.toNat ∧
      unsentCost e.toList ≤ 13 * ok.toNat := by
  cases h with
  | @written r replicas kind =>
    have hlisted := listed_insert_le t (widgetKey r) (widgetAt r replicas false)
    rw [listed?_widget] at hlisted
    refine ⟨(unready_insert_widget t r replicas).length_le, ?_, Nat.le_refl _⟩
    exact hlisted.trans (Nat.le_of_eq (Nat.add_comm ..))
  | @deleted r =>
    refine ⟨?_, ?_, Nat.le_refl _⟩
    · exact (unready_erase t _).length_le.trans (Nat.le_add_right ..)
    · exact (listed_erase_le t _).trans (Nat.le_add_right ..)
  | refused => exact ⟨Nat.le_refl _, Nat.le_refl _, Nat.le_refl _⟩

theorem asks_growth (h : Asks t x t' e marked x') (hs : Stocked t)
    (hm : ∀ r, marked = some r → ready? t r = some false) :
    (listed t').length ≤ (listed t).length ∧
      x'.cost + unsentCost e.toList + 13 * (unready t').length + 1 ≤
        x.cost + 13 * (unready t).length := by
  cases h with
  | ready | unready | gone | clear | kept | lost =>
    refine ⟨Nat.le_refl _, ?_⟩
    simp only [Stage.cost, Option.toList_none, unsentCost, List.map_nil, List.sum_nil]
    omega
  | @cleared r =>
    have hle := (unready_erase t (configKey r)).length_le
    have hevent : unsentCost (some (configChange .deleted r)).toList = 3 := rfl
    refine ⟨listed_erase_le t _, ?_⟩
    simp only [Stage.cost, hevent]
    omega
  | @made r replicas =>
    have hle := (unready_insert_config t r replicas).length_le
    have hevent : unsentCost (some (configChange .added r)).toList = 3 := rfl
    have hlisted := listed_insert_le t (configKey r) (configAt r replicas)
    rw [listed?_config] at hlisted
    refine ⟨by simpa using hlisted, ?_⟩
    simp only [Stage.cost, hevent]
    omega
  | @marked r replicas =>
    have hr := hm r rfl
    have hone := (unready_insert_ready hs hr replicas).length_eq
    have hevent : unsentCost (some (change .modified r)).toList = 13 := rfl
    refine ⟨Nat.le_of_eq (listed_insert_present hs hr replicas), ?_⟩
    simp only [Stage.cost, hevent]
    simp only [List.length_cons] at hone
    omega

end Store

namespace Scene

variable {s s' : Scene} {st st' : Option Stage} {a : Act}

theorem unsentCost_append (es fs : List WatchEvent) :
    unsentCost (es ++ fs) = unsentCost es + unsentCost fs := by
  simp [unsentCost]

theorem enact_cost {action : Action} {n : Nat}
    (hle : (listed (s.enact action).sim.bench.tracker).length ≤
      (listed s.sim.bench.tracker).length + n) :
    managerCost (s.enact action).sim ≤ managerCost s.sim + 12 * n := by
  have hback : (s.enact action).sim.backlog = s.sim.backlog := by
    simp only [Simulation.backlog, Bench.published, enact, Bench.enact_events]
  have hlist : listingCost (s.enact action).sim ≤ listingCost s.sim + 12 * n := by
    by_cases hu : Unlisted s.sim
    · have hold : listingCost s.sim = _ := if_pos hu
      have hnew : listingCost (s.enact action).sim = _ := if_pos hu
      rw [hold, hnew]
      omega
    · have hnew : listingCost (s.enact action).sim = 0 := if_neg hu
      rw [hnew]
      exact Nat.zero_le _
  have hcost : managerCost (s.enact action).sim =
      backlogCost (s.enact action).sim.backlog + listingCost (s.enact action).sim +
        deliveryCost s.sim.router.delivery + phaseCost s.sim.router.phase +
          (s.sim.controllers.map controllerCost).sum := rfl
  rw [hcost, managerCost, hback]
  omega

theorem broadcast_cost (h : Wired s.sim) (e : WatchEvent) :
    managerCost { s.sim with bench := s.sim.bench.broadcast e } =
      managerCost s.sim + announceCost e.resource := by
  have hb : backlogCost (Simulation.backlog { s.sim with bench := s.sim.bench.broadcast e }) =
      backlogCost s.sim.backlog + announceCost e.resource := by
    rw [Simulation.backlog_broadcast h.cursor_le]
    simp [backlogCost]
  have hcost : managerCost { s.sim with bench := s.sim.bench.broadcast e } =
      backlogCost (Simulation.backlog { s.sim with bench := s.sim.bench.broadcast e }) +
        listingCost s.sim + deliveryCost s.sim.router.delivery + phaseCost s.sim.router.phase +
          (s.sim.controllers.map controllerCost).sum := rfl
  rw [hcost, hb, managerCost]
  omega

/-- Every step of work uses up effort, and only an accepted write of the driver brings some. -/
theorem Staged.effort_le (h : s.Sound st) (hs : s.Staged st a s' st') :
    effort s' st' + a.work ≤ effort s st + 38 * a.accepted := by
  cases hs with
  | @manage _ _ sim hm =>
    have hcost := manages_cost h.wired hm
    have hacc : a.accepted = 0 := by cases hm <;> rfl
    simp only [effort, hm.bench, hacc]
    omega
  | @drive _ op hd =>
    obtain ⟨hu, hl, he⟩ := drives_growth hd
    have hcost := enact_cost hl
    have hunsent : unsentCost (s.enact op.action).unsent =
      unsentCost s.unsent + unsentCost (s.sim.bench.enact op.action).2.1.toList :=
        unsentCost_append ..
    simp only [effort, hunsent, Act.work, Act.accepted]
    omega
  | @publish _ earlier e later he =>
    have hcost := broadcast_cost h.wired e
    have hunsent : unsentCost s.unsent =
        unsentCost (earlier ++ later) + (announceCost e.resource + 1) := by
      rw [he, unsentCost_append, unsentCost_append]
      simp only [unsentCost, List.map_cons, List.sum_cons]
      omega
    have htracker : (s.sim.bench.broadcast e).tracker = s.sim.bench.tracker := rfl
    simp only [effort, hcost, hunsent, htracker, Act.work, Act.accepted]
    omega
  | @take c r rest hc hphase hq =>
    have hset := setController_cost (h.wired.controller_of_get hc).2.1
      { c with queue := rest, taken := c.taken.push r }
    have hqueue : controllerCost c =
        controllerCost { c with queue := rest, taken := c.taken.push r } + 8 := by
      simp only [controllerCost, hq, List.length_cons]
      omega
    have hbench : (s.sim.setController 0 { c with queue := rest, taken := c.taken.push r }).bench =
      s.sim.bench := rfl
    simp only [effort, hbench, Option.elim, Stage.cost, Act.work, Act.accepted]
    omega
  | @ask x x' action ha =>
    obtain ⟨hl, he⟩ := asks_growth ha h.stocked fun r => h.tended.unready_of_marked ha
    have hcost := enact_cost (n := 0) hl
    have hunsent : unsentCost (s.enact action).unsent =
      unsentCost s.unsent + unsentCost (s.sim.bench.enact action).2.1.toList :=
        unsentCost_append ..
    simp only [effort, hunsent, Option.elim, Act.work, Act.accepted]
    omega
  | @conclude r outcome endings =>
    have hcost : managerCost { s.sim with endings } = managerCost s.sim := rfl
    simp only [effort, hcost, Option.elim, Stage.cost, Act.work, Act.accepted]
    omega

end Scene

end ControllerBench.Demo
