import ControllerBench.Proofs.Delivery.Served
import ControllerBench.Proofs.Demo.Tended

namespace ControllerBench

namespace Simulation

def backlog (s : Simulation) : List (Resource × Request) :=
  s.router.found.toList.drop s.router.announced ++ s.bench.published.drop s.router.cursor

theorem backlog_announceFound {s : Simulation} {f : Resource × Request}
    (hf : s.router.found[s.router.announced]? = some f) :
    s.backlog = f :: (s.announceFound f).backlog := by
  have hl : s.router.found.toList[s.router.announced]? = some f := by simpa using hf
  rw [backlog, List.drop_eq_getElem?_toList_append, hl]
  rfl

theorem backlog_announceEvent {s : Simulation} {e : WatchEvent}
    (hf : s.router.found[s.router.announced]? = none)
    (he : s.bench.events[s.router.cursor]? = some e) :
    s.backlog = (e.resource, ⟨e.ns, e.name⟩) :: (s.announceEvent e).backlog := by
  have hdrop : s.router.found.toList.drop s.router.announced = [] := by simpa using hf
  have hl : s.bench.published[s.router.cursor]? = some (e.resource, ⟨e.ns, e.name⟩) := by
    have hevents : s.bench.events.toList[s.router.cursor]? = some e := by simpa using he
    simp [Bench.published, hevents]
  rw [backlog, hdrop, List.drop_eq_getElem?_toList_append, hl]
  simp [backlog, announceEvent, announce, hdrop]
  rfl

theorem backlog_listNext {s : Simulation} (ha : s.router.announced ≤ s.router.found.size)
    (hf : s.router.found[s.router.announced]? = none) (r : Resource) (rest : List Resource) :
    (s.listNext r rest).backlog = s.listing r ++ s.backlog := by
  have hdrop : s.router.found.toList.drop s.router.announced = [] := by simpa using hf
  have hle : s.router.announced ≤ s.router.found.toList.length := by simpa using ha
  simp [backlog, listNext, List.drop_append_of_le_length hle, hdrop]
  rfl

theorem backlog_eq_nil {s : Simulation} (hf : s.router.found.size ≤ s.router.announced)
    (he : s.bench.events.size ≤ s.router.cursor) : s.backlog = [] := by
  have hfound : s.router.found.toList.length ≤ s.router.announced := by simpa using hf
  have hpub : s.bench.published.length ≤ s.router.cursor := by rwa [Bench.published_length]
  rw [backlog, List.drop_eq_nil_of_le hfound, List.drop_eq_nil_of_le hpub, List.append_nil]

theorem backlog_broadcast {s : Simulation} (hc : s.router.cursor ≤ s.bench.events.size)
    (e : WatchEvent) :
    backlog { s with bench := s.bench.broadcast e } = s.backlog ++ [(e.resource, ⟨e.ns, e.name⟩)] := by
  have hle : s.router.cursor ≤ s.bench.published.length := by rwa [Bench.published_length]
  have hpub : (s.bench.broadcast e).published =
      s.bench.published ++ [(e.resource, ⟨e.ns, e.name⟩)] := by
    simp [Bench.published, Bench.broadcast]
  rw [backlog, hpub, List.drop_append_of_le_length hle, ← List.append_assoc]
  rfl

end Simulation

namespace Demo

variable {s s' : Simulation} {c : Controller} {r : Request}

/-- What holds of the manager in every state of a run. -/
structure Wired (s : Simulation) : Prop where
  alone : Alone s
  room : 1 ≤ s.config.queueSize
  announced_le : s.router.announced ≤ s.router.found.size
  cursor_le : s.router.cursor ≤ s.bench.events.size
  aimed : ∀ d, s.router.delivery = some d → d.targets = [] ∨ d.targets = [0]
  unlisted : s.router.unlisted = [] ∨ s.router.unlisted = [widgets]
  idle : s.started = false → s.router.phase = .waiting
  busy : s.started = true → s.router.phase ≠ .waiting
  alive : s.cancelled = false →
    s.router.phase.isEnded = false ∧ ∀ c ∈ s.controllers, c.phase.isEnded = false

theorem Alone.watchers (h : Alone s) (r : Resource) :
    s.watchers r = if r = widgets then [0] else [] := by
  obtain ⟨c, hc, hw, -⟩ := h
  by_cases hr : r = widgets <;> simp [Simulation.watchers, hc, hw, controller, hr]

theorem Alone.watched (h : Alone s) : s.watched = [widgets] := by
  obtain ⟨c, hc, hw, -⟩ := h
  rw [Simulation.watched, hc, List.flatMap_singleton, hw]
  rfl

theorem listing_eq (s : Simulation) :
    s.listing widgets = (listed s.bench.tracker).map fun r => (widgets, r) := by
  rw [Simulation.listing, Tracker.list, listed, List.map_filterMap, List.filterMap_map,
    List.filterMap_filter]
  congr 1
  funext e
  by_cases hr : e.1.resource = widgets
  · simp [listed?, hr, Function.comp_def]
  · simp [listed?, hr]

namespace Wired

theorem controller_of_get (h : Wired s) {i : Nat} (hc : s.controllers[i]? = some c) :
    i = 0 ∧ s.controllers = [c] ∧ c.watches = controller.watches ∧
      c.reconciler = controller.reconciler := h.alone.eq_of_get hc

theorem started (h : Wired s) (hr : s.router.phase.isRunning = true) : s.started = true := by
  cases hs : s.started with
  | true => rfl
  | false =>
    rw [h.idle hs] at hr
    cases hr

theorem extend (h : Wired s) {b : Bench} (hb : s.bench.Extends b) : Wired { s with bench := b } :=
  { h with
    alone := h.alone.of_controllers rfl
    cursor_le := by
      have hle := hb.length_le
      rw [Array.length_toList, Array.length_toList] at hle
      exact h.cursor_le.trans hle }

theorem setController (h : Wired s) {c' : Controller} (hc : s.controllers[0]? = some c)
    (hw : c'.watches = c.watches) (hr : c'.reconciler = c.reconciler)
    (he : s.cancelled = false → c'.phase.isEnded = false) : Wired (s.setController 0 c') :=
  { h with
    alone := h.alone.setController hc hw hr
    alive := by
      intro hn
      refine ⟨(h.alive hn).1, fun d hd => ?_⟩
      obtain ⟨-, hs, -⟩ := h.controller_of_get hc
      have hd' : d ∈ [c'] := by simpa [Simulation.setController, hs] using hd
      rw [List.mem_singleton.1 hd']
      exact he hn }

theorem setRouter (h : Wired s) {r : Router} (hp : r.phase = s.router.phase)
    (ha : r.announced ≤ r.found.size) (hc : r.cursor ≤ s.bench.events.size)
    (haim : ∀ d, r.delivery = some d → d.targets = [] ∨ d.targets = [0])
    (hu : r.unlisted = [] ∨ r.unlisted = [widgets]) : Wired (s.setRouter r) where
  alone := h.alone.of_controllers rfl
  room := h.room
  announced_le := ha
  cursor_le := hc
  aimed := haim
  unlisted := hu
  idle hs := hp.trans (h.idle hs)
  busy hs := by
    change r.phase ≠ .waiting
    rw [hp]
    exact h.busy hs
  alive hn := by
    change r.phase.isEnded = false ∧ _
    rw [hp]
    exact h.alive hn

theorem redeliver (h : Wired s) {d : Option Delivery}
    (haim : ∀ x, d = some x → x.targets = [] ∨ x.targets = [0]) :
    Wired (s.setRouter { s.router with delivery := d }) :=
  h.setRouter rfl h.announced_le h.cursor_le haim h.unlisted

theorem endRouter (h : Wired s) (hr : s.router.phase.isRunning = true) (hc : s.cancelled = true)
    (result : Except Error Unit) : Wired (s.endRouter result) :=
  { h with
    alone := h.alone.of_controllers rfl
    idle := by
      intro hs
      exact absurd ((h.started hr).symm.trans hs) (by decide)
    busy := nofun
    alive := by
      intro hn
      exact absurd (hc.symm.trans hn) (by decide) }

theorem rest_of_targets (h : Wired s) {d : Delivery} {i : Nat} {rest : List Nat}
    (hd : s.router.delivery = some d) (ht : d.targets = i :: rest) : i = 0 ∧ rest = [] := by
  rcases h.aimed d hd with h0 | h0
  · rw [h0] at ht
    cases ht
  · rw [h0] at ht
    cases ht
    exact ⟨rfl, rfl⟩

theorem rest_of_unlisted (h : Wired s) {x : Resource} {rest : List Resource}
    (hu : s.router.unlisted = x :: rest) : x = widgets ∧ rest = [] := by
  rcases h.unlisted with h0 | h0
  · cases hu.symm.trans h0
  · cases hu.symm.trans h0
    exact ⟨rfl, rfl⟩

theorem cancelled_of_ended (h : Wired s) {i : Nat} (hc : s.controllers[i]? = some c)
    (he : c.phase.isEnded = true) : s.cancelled = true := by
  refine Bool.not_eq_false _ ▸ fun hn => ?_
  have hlive := (h.alive hn).2 c (List.mem_of_getElem? hc)
  rw [he] at hlive
  cases hlive

theorem announce (h : Wired s) (f : Resource × Request) {r : Router} (hp : r.phase = s.router.phase)
    (ha : r.announced ≤ r.found.size) (hc : r.cursor ≤ s.bench.events.size)
    (hu : r.unlisted = [] ∨ r.unlisted = [widgets]) :
    Wired (s.setRouter { r with delivery := some ⟨f.2, s.watchers f.1, false⟩ }) := by
  refine h.setRouter hp ha hc (fun d hd => ?_) hu
  cases hd
  change s.watchers f.1 = [] ∨ s.watchers f.1 = [0]
  rw [h.alone.watchers]
  split
  · exact .inr rfl
  · exact .inl rfl

theorem routes (h : Wired s) (hr : s.router.phase.isRunning = true) (hm : s.RouterMove s') :
    Wired s' := by
  cases hm with
  | finish hd ht => exact h.redeliver nofun
  | @pass d i rest hd ht hp =>
    obtain ⟨rfl, rfl⟩ := h.rest_of_targets hd ht
    refine h.redeliver fun x hx => ?_
    cases hx
    exact .inl rfl
  | fail hd ht hc he hb => exact h.endRouter hr (h.cancelled_of_ended hc he) _
  | @send d i rest c hd ht hc he hroom =>
    obtain ⟨rfl, rfl⟩ := h.rest_of_targets hd ht
    have hset : Wired (s.setController 0 { c with queue := c.queue ++ [d.request] }) :=
      h.setController hc rfl rfl fun _ => he
    refine hset.redeliver fun x hx => ?_
    cases hx
    exact .inl rfl
  | @block d i rest c hd ht =>
    refine h.redeliver fun x hx => ?_
    cases hx
    exact h.aimed d hd
  | @found f hd hf =>
    exact h.announce f (r := { s.router with announced := s.router.announced + 1 }) rfl
      (Array.getElem?_eq_some_iff.1 hf).1 h.cursor_le h.unlisted
  | @list r rest hd hf hu =>
    refine h.setRouter rfl ?_ h.cursor_le h.aimed ?_
    · have ha := h.announced_le
      simp
      omega
    · exact .inl (h.rest_of_unlisted hu).2
  | leave hd hu hc => exact h.endRouter hr hc _
  | @event e hd hf hu he =>
    exact h.announce (e.resource, ⟨e.ns, e.name⟩)
      (r := { s.router with cursor := s.router.cursor + 1 }) rfl h.announced_le
      (Array.getElem?_eq_some_iff.1 he).1 h.unlisted

theorem start (h : Wired s) {order : List Resource} (hs : s.Step .none (.start order) s' .none) :
    Wired s' ∧ s.started = false ∧ s'.started = true ∧ s'.router.unlisted = [widgets] ∧
      s'.cancelled = s.cancelled ∧ s'.bench = s.bench ∧ s'.controllers = s.controllers ∧
      s'.backlog = s.backlog ∧ s'.router.delivery = s.router.delivery := by
  cases hs with
  | start hs hperm =>
    obtain ⟨hn, rfl⟩ := Simulation.start_ok hs
    have horder : order = [widgets] := by
      rw [h.alone.watched] at hperm
      exact List.perm_singleton.1 hperm
    subst horder
    refine ⟨?_, hn, rfl, rfl, rfl, rfl, rfl, rfl, rfl⟩
    exact
      { h with
        alone := h.alone.of_controllers rfl
        unlisted := .inr rfl
        idle := nofun
        busy := nofun
        alive := fun hc => ⟨rfl, (h.alive hc).2⟩ }

theorem endController (h : Wired s) (hc : s.controllers[0]? = some c) (hcan : s.cancelled = true)
    (result : Except Error Unit) : Wired (s.endController 0 c result) := by
  have hset : Wired (s.setController 0 (c.stop result)) :=
    h.setController hc rfl rfl fun hn => absurd (hcan.symm.trans hn) (by decide)
  exact { hset with alone := hset.alone.of_controllers rfl }

theorem manages {s : Scene} {a : Act} {sim : Simulation} (h : Wired s.sim) (hm : s.Manages a sim) :
    Wired sim := by
  cases hm with
  | start hs => exact (h.start hs).1
  | cancel => exact { h with alone := h.alone.of_controllers rfl, alive := nofun }
  | join => exact { h with alone := h.alone.of_controllers rfl }
  | route hs => exact h.routes hs.router.1 hs.router.2
  | enter hc => exact h.setController hc rfl rfl fun _ => rfl
  | quit hc _ _ hcan => exact h.endController hc hcan _

end Wired

def Unlisted (s : Simulation) : Prop := s.started = false ∨ widgets ∈ s.router.unlisted

instance (s : Simulation) : Decidable (Unlisted s) := inferInstanceAs (Decidable (_ ∨ _))

/-- A request is still to come while the announcement that makes it is on its way. -/
inductive Coming (s : Simulation) (unsent : List WatchEvent) (r : Request) : Prop
  | unsent {kind} : change kind r ∈ unsent → Coming s unsent r
  | backlog : (widgets, r) ∈ s.backlog → Coming s unsent r
  | unlisted : Unlisted s → widgetKey r ∈ s.bench.tracker.keys → Coming s unsent r
  | delivered {d} :
      s.router.delivery = some d → d.request = r → 0 ∈ d.targets → Coming s unsent r
  | queued {c : Controller} :
      s.controllers[0]? = some c → r ∈ c.queue → Coming s unsent r

namespace Coming

variable {unsent : List WatchEvent}

theorem of_same (h : Coming s unsent r) (hback : s'.backlog = s.backlog)
    (hlist : Unlisted s → Unlisted s') (hb : s'.bench = s.bench)
    (hd : s'.router.delivery = s.router.delivery) (hc : s'.controllers = s.controllers) :
    Coming s' unsent r := by
  cases h with
  | unsent he => exact .unsent he
  | backlog hmem => exact .backlog (hback ▸ hmem)
  | unlisted hu hk => exact .unlisted (hlist hu) (hb ▸ hk)
  | delivered hd' hr h0 => exact .delivered (hd.trans hd') hr h0
  | queued hc' hq => exact .queued (hc ▸ hc') hq

theorem announce {f : Resource × Request} {router : Router} (ha : Alone s)
    (hd : s.router.delivery = none) (hu : router.unlisted = s.router.unlisted)
    (hb : s.backlog = f :: (s.setRouter router).backlog)
    (hr : router.delivery = some ⟨f.2, s.watchers f.1, false⟩) (h : Coming s unsent r) :
    Coming (s.setRouter router) unsent r := by
  cases h with
  | unsent he => exact .unsent he
  | backlog hmem =>
    rw [hb] at hmem
    rcases List.mem_cons.1 hmem with rfl | hmem
    · refine .delivered hr rfl ?_
      rw [ha.watchers, if_pos rfl]
      exact List.mem_singleton_self 0
    · exact .backlog hmem
  | unlisted hlist hk => exact .unlisted (hlist.imp id fun hmem => hu ▸ hmem) hk
  | delivered hd' =>
    rw [hd] at hd'
    cases hd'
  | queued hc hq => exact .queued hc hq

theorem redeliver {d : Option Delivery} (h : Coming s unsent r)
    (hd : ∀ x, s.router.delivery = some x → x.request = r → 0 ∈ x.targets →
      ∃ y, d = some y ∧ y.request = r ∧ 0 ∈ y.targets) :
    Coming (s.setRouter { s.router with delivery := d }) unsent r := by
  cases h with
  | unsent he => exact .unsent he
  | backlog hmem => exact .backlog hmem
  | unlisted hlist hk => exact .unlisted hlist hk
  | delivered hd' hr h0 =>
    obtain ⟨y, hy, hr, h0⟩ := hd _ hd' hr h0
    exact .delivered hy hr h0
  | queued hc hq => exact .queued hc hq

theorem send {d : Delivery} (h : Coming s unsent r) (hs : s.controllers = [c])
    (hd : s.router.delivery = some d) :
    Coming ((s.setController 0 { c with queue := c.queue ++ [d.request] }).setRouter
      { s.router with delivery := some ⟨d.request, [], false⟩ }) unsent r := by
  have hc : (s.setController 0 { c with queue := c.queue ++ [d.request] }).controllers[0]? =
      some { c with queue := c.queue ++ [d.request] } := by
    rw [Simulation.setController, hs]
    rfl
  cases h with
  | unsent he => exact .unsent he
  | backlog hmem => exact .backlog hmem
  | unlisted hlist hk => exact .unlisted hlist hk
  | delivered hd' hr h0 =>
    rw [hd] at hd'
    cases hd'
    exact .queued hc (hr ▸ List.mem_append_right _ (List.mem_singleton_self _))
  | queued hc' hq =>
    rw [hs] at hc'
    cases hc'
    exact .queued hc (List.mem_append_left _ hq)

theorem list {rest : List Resource} (h : Coming s unsent r) (hw : Wired s)
    (hs : Stocked s.bench.tracker) (hf : s.router.found[s.router.announced]? = none) :
    Coming (s.listNext widgets rest) unsent r := by
  have hb := Simulation.backlog_listNext hw.announced_le hf widgets rest
  cases h with
  | unsent he => exact .unsent he
  | backlog hmem =>
    refine .backlog ?_
    rw [hb]
    exact List.mem_append_right _ hmem
  | unlisted _ hk =>
    refine .backlog ?_
    rw [hb, listing_eq]
    exact List.mem_append_left _ (List.mem_map_of_mem ((mem_listed hs).2 hk))
  | delivered hd hr h0 => exact .delivered hd hr h0
  | queued hc hq => exact .queued hc hq

theorem routes (hw : Wired s) (hs : Stocked s.bench.tracker) (hn : s.cancelled = false)
    (hm : s.RouterMove s') (h : Coming s unsent r) : Coming s' unsent r := by
  cases hm with
  | @finish d hd ht =>
    refine h.redeliver fun x hx _ h0 => ?_
    obtain rfl : d = x := Option.some.inj (hd.symm.trans hx)
    rw [ht] at h0
    cases h0
  | @pass d i rest hd ht hp =>
    obtain ⟨c, hc, -⟩ := hw.alone
    obtain ⟨rfl, rfl⟩ := hw.rest_of_targets hd ht
    have hi : s.controllers[0]? = some c := by rw [hc]; rfl
    exact absurd ((hw.cancelled_of_ended hi (hp c hi).1).symm.trans hn) (by decide)
  | @fail d i rest c hd ht hc he =>
    exact absurd ((hw.cancelled_of_ended hc he).symm.trans hn) (by decide)
  | @send d i rest c hd ht hc =>
    obtain ⟨rfl, rfl⟩ := hw.rest_of_targets hd ht
    exact h.send (hw.controller_of_get hc).2.1 hd
  | @block d i rest c hd ht =>
    refine h.redeliver fun x hx hr h0 => ?_
    obtain rfl : d = x := Option.some.inj (hd.symm.trans hx)
    exact ⟨_, rfl, hr, h0⟩
  | @found f hd hf =>
    have hb := Simulation.backlog_announceFound hf
    change Coming (s.setRouter { s.router with
      announced := s.router.announced + 1, delivery := some ⟨f.2, s.watchers f.1, false⟩ }) _ _
    exact h.announce hw.alone hd rfl hb rfl
  | @list x rest hd hf hu =>
    obtain ⟨rfl, -⟩ := hw.rest_of_unlisted hu
    exact h.list hw hs hf
  | leave _ _ hc => exact absurd (hc.symm.trans hn) (by decide)
  | @event e hd hf hu he =>
    have hb := Simulation.backlog_announceEvent hf he
    change Coming (s.setRouter { s.router with
      cursor := s.router.cursor + 1
      delivery := some ⟨⟨e.ns, e.name⟩, s.watchers e.resource, false⟩ }) _ _
    exact h.announce hw.alone hd rfl hb rfl

theorem setController {c' : Controller} (h : Coming s unsent r) (hc : s.controllers[0]? = some c)
    (hq : r ∈ c.queue → r ∈ c'.queue) : Coming (s.setController 0 c') unsent r := by
  cases h with
  | unsent he => exact .unsent he
  | backlog hmem => exact .backlog hmem
  | unlisted hlist hk => exact .unlisted hlist hk
  | delivered hd hr h0 => exact .delivered hd hr h0
  | @queued d hd hmem =>
    obtain rfl : c = d := Option.some.inj (hc.symm.trans hd)
    have hlt := (List.getElem?_eq_some_iff.1 hc).1
    exact .queued (c := c') (by simp [Simulation.setController, hlt]) (hq hmem)

theorem take {x : Request} {rest : List Request} {taken : Array Request} (h : Coming s unsent r)
    (hc : s.controllers[0]? = some c) (hq : c.queue = x :: rest) :
    r = x ∨ Coming (s.setController 0 { c with queue := rest, taken }) unsent r := by
  by_cases hr : r = x
  · exact .inl hr
  · refine .inr (h.setController hc fun hmem => ?_)
    rw [hq] at hmem
    exact (List.mem_cons.1 hmem).resolve_left hr

theorem broadcast {earlier later : List WatchEvent} {e : WatchEvent} (hw : Wired s)
    (h : Coming s (earlier ++ e :: later) r) :
    Coming { s with bench := s.bench.broadcast e } (earlier ++ later) r := by
  have hb := Simulation.backlog_broadcast hw.cursor_le e
  cases h with
  | @unsent kind he =>
    rcases List.mem_append.1 he with he | he
    · exact .unsent (List.mem_append_left _ he)
    rcases List.mem_cons.1 he with rfl | he
    · refine .backlog ?_
      rw [hb]
      exact List.mem_append_right _ (List.mem_singleton_self _)
    · exact .unsent (List.mem_append_right _ he)
  | backlog hmem =>
    refine .backlog ?_
    rw [hb]
    exact List.mem_append_left _ hmem
  | unlisted hlist hk => exact .unlisted hlist hk
  | delivered hd hr h0 => exact .delivered hd hr h0
  | queued hc hq => exact .queued hc hq

theorem of_event {s : Scene} {a : Action} {kind : Change}
    (he : (s.sim.bench.enact a).2.1 = some (change kind r)) :
    Coming (s.enact a).sim (s.enact a).unsent r := by
  have hmem : change kind r ∈ (s.enact a).unsent := by
    refine List.mem_append_right _ ?_
    rw [he]
    exact List.mem_singleton_self _
  exact .unsent hmem

theorem enact {s : Scene} {a : Action} (h : Coming s.sim s.unsent r)
    (hk : widgetKey r ∈ s.sim.bench.tracker.keys → widgetKey r ∈ (s.enact a).sim.bench.tracker.keys ∨
      ∃ kind, (s.sim.bench.enact a).2.1 = some (change kind r)) :
    Coming (s.enact a).sim (s.enact a).unsent r := by
  cases h with
  | unsent he => exact .unsent (List.mem_append_left _ he)
  | backlog hmem =>
    refine .backlog ?_
    rw [Simulation.backlog, Bench.published] at hmem ⊢
    simpa [Scene.enact, Bench.enact_events] using hmem
  | unlisted hlist hkeys =>
    rcases hk hkeys with hkeys | ⟨kind, he⟩
    · exact .unlisted hlist hkeys
    · exact of_event he
  | delivered hd hr h0 => exact .delivered hd hr h0
  | queued hc hq => exact .queued hc hq

end Coming

/-- Once the manager is cancelled nothing more is promised. -/
def Scene.Owed (s : Scene) (r : Request) : Prop :=
  s.sim.cancelled = true ∨ Coming s.sim s.unsent r

theorem Wired.enact {s : Scene} (h : Wired s.sim) (a : Action) : Wired (s.enact a).sim :=
  h.extend (Bench.extends_of_eq (Bench.enact_events ..))

theorem Wired.conclude (h : Wired s) (hc : s.controllers[0]? = some c) (r : Request)
    (outcome : Outcome) :
    ∃ endings, s.passed 0 (c.conclude r outcome) s.bench = { s with endings } := by
  obtain ⟨-, hs, -, hr⟩ := h.controller_of_get hc
  refine ⟨s.endings ++ c.phase.ending?.toList, ?_⟩
  rw [conclude_eq hr, Simulation.passed, Simulation.setController, hs]
  rw [List.set_cons_zero, ← hs]

end Demo

end ControllerBench
