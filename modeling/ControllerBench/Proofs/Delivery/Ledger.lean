import ControllerBench.Proofs.Delivery.Served

namespace ControllerBench

namespace History

theorem found_concat (past : History) (s : Simulation) (m : Move) :
    found (past ++ [(s, m)]) = past.found ++ (s.resyncs m).toList.flatMap s.listing := by
  simp [found]

theorem listed_concat (past : History) (s : Simulation) (m : Move) :
    listed (past ++ [(s, m)]) = past.listed ++ (s.resyncs m).toList := by
  cases h : s.resyncs m <;> simp [listed, h]

end History

namespace Simulation

theorem resyncs_router (s : Simulation) :
    s.resyncs (.task .router) =
      if s.router.delivery.isNone && s.router.found[s.router.announced]?.isNone then
        s.router.unlisted.head?
      else none := rfl

theorem watched_set {s : Simulation} {i : Nat} {c c' : Controller}
    (hc : s.controllers[i]? = some c) (hw : c'.watches = c.watches) :
    (s.setController i c').watched = s.watched := by
  have hs : (s.controllers.set i c').map (·.watches) = s.controllers.map (·.watches) := by
    rw [List.map_set, hw]
    refine List.ext_getElem? fun j => ?_
    by_cases hij : i = j
    · subst hij
      simp [List.getElem?_set_self', hc]
    · rw [List.getElem?_set_ne hij]
  simp only [watched, setController, List.flatMap_def, hs]

structure Beside (s s' : Simulation) : Prop where
  router : s'.router = s.router
  started : s'.started = s.started
  watched : s.started = true → s'.watched = s.watched
  bench : s.bench.Extends s'.bench

theorem Beside.of_set {s : Simulation} {i : Nat} {c c' : Controller} {b : Bench}
    {endings : List (Except Error Unit)} (hc : s.controllers[i]? = some c)
    (hw : c'.watches = c.watches) (hb : s.bench.Extends b) :
    s.Beside { s.setController i c' with bench := b, endings } where
  router := rfl
  started := rfl
  watched _ := watched_set hc hw
  bench := hb

theorem ControllerMove.beside {s s' : Simulation} {i : Nat} {c : Controller}
    (hc : s.controllers[i]? = some c) (m : s.ControllerMove i c s') : s.Beside s' := by
  cases m with
  | enter => exact .of_set hc rfl (List.prefix_refl _)
  | quit => exact .of_set hc rfl (List.prefix_refl _)
  | take _ _ hb => exact .of_set hc (Controller.conclude_watches ..) hb
  | ask hb => exact ⟨rfl, rfl, fun _ => rfl, hb⟩
  | conclude => exact .of_set hc (Controller.conclude_watches ..) (List.prefix_refl _)

theorem Step.beside {s s' : Simulation} {p p' : Interrupted} {m : Move} (h : s.Step p m s' p')
    (hr : m ≠ .task .router)
    (hs : ∀ order, m ≠ .start order) : s.Beside s' := by
  cases h with
  | manage h =>
    obtain rfl := manage_ok h
    exact ⟨rfl, rfl, fun _ => rfl, List.prefix_refl _⟩
  | register h =>
    obtain ⟨hn, rfl⟩ := addController_ok h
    exact ⟨rfl, rfl, fun h => by simp [hn] at h, List.prefix_refl _⟩
  | @start order => exact absurd rfl (hs order)
  | cancel => exact ⟨rfl, rfl, fun _ => rfl, List.prefix_refl _⟩
  | join => exact ⟨rfl, rfl, fun _ => rfl, List.prefix_refl _⟩
  | call h => exact ⟨rfl, rfl, fun _ => rfl, Script.run_extends h⟩
  | arrange h => exact ⟨rfl, rfl, fun _ => rfl, Bench.extends_of_eq h⟩
  | @task t s' _ h =>
    cases t with
    | router => exact absurd rfl hr
    | controller i =>
      obtain ⟨c, hi, hm⟩ := h.controller
      exact hm.beside hi

/-- What holds of the router's books in every state of a run. -/
structure Ledger (past : History) (s : Simulation) : Prop where
  found : s.router.found.toList = past.found
  listed : (past.listed ++ s.router.unlisted).Perm (if s.started then s.watched else [])
  idle : s.started = false → s.router = {}
  busy : s.started = true → s.router.phase ≠ .waiting
  announced_le : s.router.announced ≤ s.router.found.size
  cursor_le : s.router.cursor ≤ s.bench.events.size
  resynced : s.router.cursor ≠ 0 →
    s.router.announced = s.router.found.size ∧ s.router.unlisted = []
  aimed : ∀ d, s.router.delivery = some d → d.targets.Nodup

namespace Ledger

variable {past : History} {s s' : Simulation} {p p' : Interrupted} {m : Move}

theorem started_of_running (h : Ledger past s) (hr : s.router.phase.isRunning = true) :
    s.started = true := by
  cases hs : s.started with
  | true => rfl
  | false =>
    rw [h.idle hs] at hr
    cases hr

theorem cursor_eq_zero (h : Ledger past s) {f : Resource × Request}
    (hf : s.router.found[s.router.announced]? = some f) : s.router.cursor = 0 := by
  refine Decidable.byContradiction fun hc => ?_
  have heq := (h.resynced hc).1
  have hlt := (Array.getElem?_eq_some_iff.1 hf).1
  omega

theorem beside (h : Ledger past s) (hb : s.Beside s') (hm : s.resyncs m = none) :
    Ledger (past ++ [(s, m)]) s' where
  found := by simp [History.found_concat, hm, hb.router, h.found]
  listed := by
    rw [History.listed_concat, hm, hb.router, hb.started]
    cases hs : s.started with
    | true => simpa [hs, hb.watched hs] using h.listed
    | false => simpa [hs] using h.listed
  idle hs := by
    rw [hb.router]
    exact h.idle (hb.started ▸ hs)
  busy hs := by
    rw [hb.router]
    exact h.busy (hb.started ▸ hs)
  announced_le := by
    rw [hb.router]
    exact h.announced_le
  cursor_le := by
    rw [hb.router]
    have hl := hb.bench.length_le
    simp only [Array.length_toList] at hl
    exact Nat.le_trans h.cursor_le hl
  resynced := by
    rw [hb.router]
    exact h.resynced
  aimed := by
    rw [hb.router]
    exact h.aimed

theorem start (h : Ledger past s) (hn : s.started = false) {order : List Resource}
    (ho : order.Perm s.watched) :
    Ledger (past ++ [(s, .start order)])
      { s with started := true, router := { s.router with phase := .running, unlisted := order } } where
  found := by
    rw [History.found_concat]
    simpa [resyncs] using h.found
  listed := by
    have hl := h.listed
    simp only [hn, Bool.false_eq_true, if_false, List.perm_nil, List.append_eq_nil_iff] at hl
    rw [History.listed_concat, hl.1]
    exact ho
  idle hs := by cases hs
  busy _ := by simp
  announced_le := h.announced_le
  cursor_le := h.cursor_le
  resynced hc := by
    rw [h.idle hn] at hc
    exact absurd rfl hc
  aimed := h.aimed

theorem redirect (h : Ledger past s) (hs : s.started = true) (hm : s.resyncs m = none)
    {phase : Phase} {delivery : Option Delivery} (hr : s'.router = { s.router with phase, delivery })
    (hp : phase ≠ .waiting) (ha : ∀ d, delivery = some d → d.targets.Nodup)
    (hstarted : s'.started = s.started) (hw : s'.watched = s.watched) (hb : s'.bench = s.bench) :
    Ledger (past ++ [(s, m)]) s' where
  found := by simp [History.found_concat, hm, hr, h.found]
  listed := by
    rw [History.listed_concat, hm, hr, hstarted, hw]
    simpa using h.listed
  idle hn := by
    rw [hstarted, hs] at hn
    cases hn
  busy _ := by
    rw [hr]
    exact hp
  announced_le := by
    rw [hr]
    exact h.announced_le
  cursor_le := by
    rw [hr, hb]
    exact h.cursor_le
  resynced := by
    rw [hr]
    exact h.resynced
  aimed := by
    rw [hr]
    exact ha

theorem announce (h : Ledger past s) (hr : s.router.phase.isRunning = true)
    (hm : s.resyncs (.task .router) = none) {announced cursor : Nat}
    (ha : announced ≤ s.router.found.size) (hc : cursor ≤ s.bench.events.size)
    (hres : cursor ≠ 0 → announced = s.router.found.size ∧ s.router.unlisted = []) (r : Resource)
    (request : Request) :
    Ledger (past ++ [(s, .task .router)])
      ((s.setRouter { s.router with announced, cursor }).announce r request) where
  found := by
    rw [History.found_concat, hm]
    change s.router.found.toList = _
    simpa using h.found
  listed := by
    rw [History.listed_concat, hm]
    change List.Perm (_ ++ s.router.unlisted) (if s.started then s.watched else [])
    simpa using h.listed
  idle hn := absurd ((h.started_of_running hr).symm.trans hn) nofun
  busy := h.busy
  announced_le := ha
  cursor_le := hc
  resynced := hres
  aimed := by
    rintro _ ⟨⟩
    exact watchers_nodup ..

theorem announceFound (h : Ledger past s) (hr : s.router.phase.isRunning = true)
    {f : Resource × Request} (hf : s.router.found[s.router.announced]? = some f) :
    Ledger (past ++ [(s, .task .router)]) (s.announceFound f) := by
  have hm : s.resyncs (.task .router) = none := by simp [resyncs_router, hf]
  have hlt := (Array.getElem?_eq_some_iff.1 hf).1
  have hc := h.cursor_eq_zero hf
  exact h.announce hr hm hlt h.cursor_le (fun hne => absurd hc hne) f.1 f.2

theorem listNext (h : Ledger past s) (hr : s.router.phase.isRunning = true)
    (hd : s.router.delivery = none) (hf : s.router.found[s.router.announced]? = none)
    {r : Resource} {rest : List Resource} (hu : s.router.unlisted = r :: rest) :
    Ledger (past ++ [(s, .task .router)]) (s.listNext r rest) := by
  have hm : s.resyncs (.task .router) = some r := by simp [resyncs_router, hd, hf, hu]
  constructor
  case found =>
    rw [History.found_concat, hm]
    change (s.router.found ++ (s.listing r).toArray).toList = _
    simp [h.found]
  case listed =>
    rw [History.listed_concat, hm]
    change List.Perm (_ ++ rest) (if s.started then s.watched else [])
    simpa [hu] using h.listed
  case idle => exact fun hn => absurd ((h.started_of_running hr).symm.trans hn) nofun
  case busy => exact h.busy
  case announced_le =>
    have hle := h.announced_le
    change s.router.announced ≤ (s.router.found ++ (s.listing r).toArray).size
    rw [Array.size_append]
    omega
  case cursor_le => exact h.cursor_le
  case resynced =>
    intro hc
    have hn := (h.resynced hc).2
    rw [hu] at hn
    cases hn
  case aimed => exact h.aimed

theorem announceEvent (h : Ledger past s) (hr : s.router.phase.isRunning = true)
    (hf : s.router.found[s.router.announced]? = none) (hu : s.router.unlisted = [])
    {e : WatchEvent} (he : s.bench.events[s.router.cursor]? = some e) :
    Ledger (past ++ [(s, .task .router)]) (s.announceEvent e) := by
  have hm : s.resyncs (.task .router) = none := by simp [resyncs_router, hu]
  have hlt := (Array.getElem?_eq_some_iff.1 he).1
  have ha := Nat.le_antisymm h.announced_le (Array.getElem?_eq_none_iff.1 hf)
  exact h.announce hr hm h.announced_le hlt (fun _ => ⟨ha, hu⟩) e.resource ⟨e.ns, e.name⟩

theorem routerMove (h : Ledger past s) (hr : s.router.phase.isRunning = true)
    (m : s.RouterMove s') : Ledger (past ++ [(s, .task .router)]) s' := by
  have hs := h.started_of_running hr
  have hp := h.busy hs
  have resync_none {d} (hd : s.router.delivery = some d) : s.resyncs (.task .router) = none := by
    rw [resyncs_router, hd]
    rfl
  have rest_nodup {d i rest} (hd : s.router.delivery = some d) (ht : d.targets = i :: rest) :
      rest.Nodup := by
    have hn := h.aimed d hd
    rw [ht] at hn
    exact (List.nodup_cons.1 hn).2
  cases m with
  | finish hd _ => exact h.redirect hs (resync_none hd) rfl hp nofun rfl rfl rfl
  | pass hd ht _ =>
    refine h.redirect hs (resync_none hd) rfl hp ?_ rfl rfl rfl
    rintro _ ⟨⟩
    exact rest_nodup hd ht
  | fail hd => exact h.redirect hs (resync_none hd) rfl nofun h.aimed rfl rfl rfl
  | send hd ht hc =>
    refine h.redirect hs (resync_none hd) rfl hp ?_ rfl (watched_set hc rfl) rfl
    rintro _ ⟨⟩
    exact rest_nodup hd ht
  | @block d _ _ _ hd =>
    refine h.redirect hs (resync_none hd) rfl hp ?_ rfl rfl rfl
    rintro _ ⟨⟩
    exact h.aimed d hd
  | found _ hf => exact h.announceFound hr hf
  | list hd hf hu => exact h.listNext hr hd hf hu
  | leave _ hu =>
    refine h.redirect hs ?_ rfl nofun h.aimed rfl rfl rfl
    simp [resyncs_router, hu]
  | event _ hf hu he => exact h.announceEvent hr hf hu he

theorem step (h : Ledger past s) (hm : s.Step p m s' p') : Ledger (past ++ [(s, m)]) s' := by
  by_cases hr : m = .task .router
  · subst hr
    cases hm with
    | task hacts =>
      obtain ⟨hr, hmove⟩ := hacts.router
      exact h.routerMove hr hmove
  · by_cases hs : ∃ order, m = .start order
    · obtain ⟨order, rfl⟩ := hs
      cases hm with
      | start hok ho =>
        obtain ⟨hn, rfl⟩ := start_ok hok
        exact h.start hn ho
    · refine h.beside (hm.beside hr fun order ho => hs ⟨order, ho⟩) ?_
      unfold resyncs
      split
      · exact absurd rfl hr
      · rfl

theorem run (h : Run past s p) : Ledger past s := by
  induction h with
  | init bench =>
    exact ⟨rfl, .nil, fun _ => rfl, nofun, Nat.le_refl _, Nat.zero_le _, fun h => absurd rfl h, nofun⟩
  | step _ hm ih => exact ih.step hm

theorem sent_le (h : Ledger past s) :
    s.router.sent s.bench <+: past.found ++ s.bench.published := by
  rw [Router.sent, ← h.found]
  by_cases hc : s.router.cursor = 0
  · rw [hc, List.take_zero, List.append_nil]
    exact (List.take_prefix ..).trans (List.prefix_append ..)
  · have ha := (h.resynced hc).1
    rw [ha, ← Array.length_toList, List.take_length, List.prefix_append_right_inj]
    exact List.take_prefix ..

theorem sent_all (h : Ledger past s) (ha : s.router.found.size ≤ s.router.announced)
    (hc : s.bench.events.size ≤ s.router.cursor) :
    s.router.sent s.bench = past.found ++ s.bench.published := by
  rw [Router.sent, ← h.found, List.take_of_length_le (by simpa using ha),
    List.take_of_length_le (by rwa [Bench.published_length])]

end Ledger

end Simulation

end ControllerBench
