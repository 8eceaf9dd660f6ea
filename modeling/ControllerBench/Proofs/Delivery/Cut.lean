import ControllerBench.Proofs.Delivery.Operations

namespace ControllerBench

namespace Simulation

def cutAt (o : Simulation) (r : Router) (c : Controller) (endings : List (Except Error Unit)) : Simulation :=
  { o with router := r, controllers := [c], endings }

/--
The router on its way through `n` objects: each one it has announced is either in the queue, which holds `k`,
or about to be put there.
-/
structure Heading (o : Simulation) (c : Controller) (n : Nat) (r : Router) (k : Nat) : Prop where
  running : r.phase.isRunning = true
  fits : k ≤ o.config.queueSize
  objects : r.found.size + (r.unlisted.flatMap o.listing).length = n
  found : ∀ f ∈ r.found.toList, c.watches.contains f.1 = true
  unlisted : ∀ x ∈ r.unlisted, c.watches.contains x = true
  announced_le : r.announced ≤ r.found.size
  balance : (r.delivery = none ∧ k = r.announced) ∨
    ∃ d, r.delivery = some d ∧ d.blocked = false ∧
      ((d.targets = [] ∧ k = r.announced) ∨ (d.targets = [0] ∧ k + 1 = r.announced))

/-- How a stop goes on that cuts off a listing of `n` objects. -/
inductive CutShort (o : Simulation) (c : Controller) (n : Nat) : Simulation → Prop
  | heading {r queue} :
      Heading o c n r queue.length → CutShort o c n (o.cutAt r { c with queue } [])
  | left {r queue} :
      r.phase.isEnded = true → n ≤ o.config.queueSize →
      CutShort o c n (o.cutAt r { c with queue } [.ok ()])
  | done {r} :
      r.phase.isEnded = true → n ≤ o.config.queueSize →
      CutShort o c n (o.cutAt r (c.stop (.ok ())) [.ok (), .ok ()])
  | blocked {r queue d} :
      r.phase.isRunning = true → r.delivery = some d → d.blocked = true → d.targets = [0] →
      o.config.queueSize ≤ queue.length → o.config.queueSize < n →
      CutShort o c n (o.cutAt r { c with queue } [])
  | stranded {r d} :
      r.phase.isRunning = true → r.delivery = some d → d.blocked = true → d.targets = [0] →
      o.config.queueSize < n → CutShort o c n (o.cutAt r (c.stop (.ok ())) [.ok ()])
  | failed {r} :
      r.phase.isEnded = true → o.config.queueSize < n →
      CutShort o c n (o.cutAt r (c.stop (.ok ())) [.ok (), .error .queueClosed])

variable {o s' : Simulation} {c : Controller} {n k : Nat} {r : Router} {queue : List Request}

theorem cutAt_controller {es : List (Except Error Unit)} {d d' : Controller} {i : Nat}
    (hi : (o.cutAt r d es).controllers[i]? = some d') : i = 0 ∧ d = d' := by
  obtain ⟨rfl, hs⟩ := controllers_eq (s := o.cutAt r d es) (Nat.le_refl 1) hi
  exact ⟨rfl, (List.cons.inj hs).1⟩

theorem Heading.canRun (h : Heading o c n r k) (ho : o.cancelled = true) (he : c.phase.isEnded = false) :
    (o.cutAt r { c with queue } []).canRun .router = true := by
  rcases h.balance with ⟨hd, -⟩ | ⟨d, hd, hb, ⟨ht, -⟩ | ⟨ht, -⟩⟩
  · rw [canRun_router_of_cancelled (s := o.cutAt r { c with queue } []) ho fun _ => hd]
    exact h.running
  · simp [Simulation.canRun, routerStep, cutAt, h.running, hd, deliver, ht]
  · simp only [Simulation.canRun, routerStep, cutAt, h.running, hd, deliver, ht, if_true,
      List.getElem?_cons_zero, he, hb, Bool.false_eq_true, if_false]
    split <;> rfl

theorem Heading.queued (h : Heading o c n r k) {d : Delivery} (hd : r.delivery = some d) :
    d.blocked = false ∧
      ((d.targets = [] ∧ k = r.announced) ∨ (d.targets = [0] ∧ k + 1 = r.announced)) := by
  rcases h.balance with ⟨hn, -⟩ | ⟨d', hd', hb⟩
  · exact absurd (hd.symm.trans hn) (Option.some_ne_none d)
  · obtain rfl := Option.some.inj (hd.symm.trans hd')
    exact hb

theorem Heading.settled (h : Heading o c n r k) (hd : r.delivery = none) : k = r.announced := by
  rcases h.balance with ⟨-, hk⟩ | ⟨d, hd', -⟩
  · exact hk
  · exact absurd (hd'.symm.trans hd) (Option.some_ne_none d)

theorem Heading.move (h : Heading o c n r queue.length) (ho : o.cancelled = true)
    (he : c.phase.isEnded = false) (hs : (o.cutAt r { c with queue } []).routerStep = some s') :
    CutShort o c n s' := by
  have hcursor := routerStep_cursor (s := o.cutAt r { c with queue } []) ho hs
  cases routerStep_cases hs with
  | @finish d hd ht =>
    obtain ⟨-, ⟨-, hk⟩ | ⟨ht', -⟩⟩ := h.queued hd
    · exact .heading { h with balance := .inl ⟨rfl, hk⟩ }
    · exact absurd (ht'.symm.trans ht) (List.cons_ne_nil _ _)
  | @pass d i rest hd ht hp =>
    obtain ⟨-, ⟨ht', -⟩ | ⟨ht', -⟩⟩ := h.queued hd
    · exact absurd (ht.symm.trans ht') (List.cons_ne_nil _ _)
    · obtain ⟨rfl, -⟩ := List.cons.inj (ht.symm.trans ht')
      exact absurd (he.symm.trans (hp _ rfl).1) Bool.false_ne_true
  | fail _ _ hi hend =>
    obtain ⟨-, rfl⟩ := cutAt_controller hi
    exact absurd (he.symm.trans hend) Bool.false_ne_true
  | @send d i rest c' hd ht hi _ hroom =>
    obtain ⟨rfl, rfl⟩ := cutAt_controller hi
    obtain ⟨-, ⟨ht', -⟩ | ⟨ht', hk⟩⟩ := h.queued hd
    · exact absurd (ht.symm.trans ht') (List.cons_ne_nil _ _)
    · obtain ⟨-, rfl⟩ := List.cons.inj (ht.symm.trans ht')
      change CutShort o c n (o.cutAt { r with delivery := some ⟨d.request, [], false⟩ }
        { c with queue := queue ++ [d.request] } [])
      rw [← List.length_singleton (a := d.request), ← List.length_append] at hk
      refine .heading { h with fits := ?_, balance := .inr ⟨_, rfl, rfl, .inl ⟨rfl, hk⟩⟩ }
      rw [List.length_append]
      exact hroom
  | @block d i rest c' hd ht hi _ hfull =>
    obtain ⟨rfl, rfl⟩ := cutAt_controller hi
    obtain ⟨-, ⟨ht', -⟩ | ⟨ht', hk⟩⟩ := h.queued hd
    · exact absurd (ht.symm.trans ht') (List.cons_ne_nil _ _)
    · -- the one it is blocked on is announced and not in the queue, which is full
      refine .blocked h.running rfl rfl ht' hfull ?_
      have hle := h.announced_le
      have hn := h.objects
      change o.config.queueSize ≤ queue.length at hfull
      omega
  | @found f hd hf =>
    have hf : r.found[r.announced]? = some f := hf
    have hw : (o.cutAt r { c with queue } []).watchers f.1 = [0] := by
      have hc := h.found f (Array.mem_toList_iff.2 (Array.mem_of_getElem? hf))
      have hc : f.1 ∈ c.watches := by simpa using hc
      simp [watchers, cutAt, List.range_succ, hc]
    refine .heading { h with
      announced_le := (Array.getElem?_eq_some_iff.1 hf).1
      balance := .inr ⟨_, rfl, rfl, .inr ⟨hw, congrArg (· + 1) (h.settled hd)⟩⟩ }
  | @list x rest hd hf hu =>
    have hu : r.unlisted = x :: rest := hu
    have hx : c.watches.contains x = true := h.unlisted x (by rw [hu]; exact List.mem_cons_self)
    refine .heading { h with
      objects := ?_
      found := fun f hf => ?_
      unlisted := fun y hy => h.unlisted y (by rw [hu]; exact List.mem_cons_of_mem _ hy)
      announced_le := ?_
      balance := .inl ⟨hd, h.settled hd⟩ }
    · have hn := h.objects
      rw [hu, List.flatMap_cons, List.length_append] at hn
      rw [Array.size_append, ← hn]
      exact Nat.add_assoc ..
    · rw [Array.toList_append] at hf
      rcases List.mem_append.1 hf with hf | hf
      · exact h.found f hf
      · obtain ⟨_, -, hm⟩ := List.mem_filterMap.1 hf
        obtain ⟨_, -, rfl⟩ := Option.map_eq_some_iff.1 hm
        exact hx
    · rw [Array.size_append]
      exact Nat.le_trans h.announced_le (Nat.le_add_right ..)
  | leave hd hu _ hf =>
    refine .left rfl ?_
    have hu : r.unlisted = [] := hu
    have hn := h.objects
    have hk := h.settled hd
    have hfits := h.fits
    have hle : r.found.size ≤ r.announced := Array.getElem?_eq_none_iff.1 hf
    rw [hu, List.flatMap_nil, List.length_nil] at hn
    omega
  | event => exact absurd hcursor (Nat.succ_ne_self _)

namespace CutShort

variable {s : Simulation}

theorem canRun (h : CutShort o c n s) (ho : o.cancelled = true) (he : c.phase.isEnded = false)
    (hr : s.router.phase.isRunning = true)
    (hb : ∀ d, s.router.delivery = some d → d.blocked = false) : s.canRun .router = true := by
  cases h with
  | heading h => exact h.canRun ho he
  | left hend | done hend | failed hend =>
    exact absurd ((isEnded_of_isRunning hr).symm.trans hend) Bool.false_ne_true
  | blocked _ hd hblocked | stranded _ hd hblocked =>
    exact absurd ((hb _ hd).symm.trans hblocked) Bool.false_ne_true

theorem router (h : CutShort o c n s) (ho : o.cancelled = true) (he : c.phase.isEnded = false)
    {depth : Nat} (hk : s.canRun .router = true) (hs : s.step depth .router = some s') :
    CutShort o c n s' := by
  have hr := routerStep_running hk
  have hmove := routerStep_of_step hk hs
  cases h with
  | heading h => exact h.move ho he hmove
  | left hend | done hend | failed hend =>
    exact absurd ((isEnded_of_isRunning hr).symm.trans hend) Bool.false_ne_true
  | blocked hrun hd hb ht hfull =>
    simp [Simulation.canRun, routerStep, cutAt, hrun, hd, deliver, ht, he, hb, Nat.not_lt.2 hfull] at hk
  | stranded hrun hd hb ht hlt =>
    have hstranded : (o.cutAt _ (c.stop (.ok ())) [.ok ()]).Stranded :=
      ⟨hrun, _, _, _, _, hd, hb, ht, rfl, rfl⟩
    obtain rfl := Option.some.inj (hmove.symm.trans hstranded.routerStep)
    exact .failed rfl hlt

theorem turn (h : CutShort o c n s) (ho : o.cancelled = true)
    (hb : s.router.phase.isRunning = true → ∃ d, s.router.delivery = some d ∧ d.blocked = true)
    {i : Nat} {c' : Controller} (hi : s.controllers[i]? = some c') {depth : Nat}
    (m : Turn depth s i c' s') : CutShort o c n s' := by
  cases h with
  | heading h =>
    obtain ⟨d, hd, hblocked⟩ := hb h.running
    exact absurd ((h.queued hd).1.symm.trans hblocked) Bool.false_ne_true
  | left hend hle =>
    obtain ⟨rfl, rfl⟩ := cutAt_controller hi
    obtain ⟨-, rfl⟩ := m.quits ho
    exact .done hend hle
  | blocked hrun hd hblocked ht _ hlt =>
    obtain ⟨rfl, rfl⟩ := cutAt_controller hi
    obtain ⟨-, rfl⟩ := m.quits ho
    exact .stranded hrun hd hblocked ht hlt
  | done | stranded | failed =>
    obtain ⟨rfl, rfl⟩ := cutAt_controller hi
    cases (m.quits ho).1

theorem final (h : CutShort o c n s) (ho : o.cancelled = true) (he : c.phase.isEnded = false)
    (hq : s.Quiet) :
    ∃ r es, s = o.cutAt r (c.stop (.ok ())) es ∧ r.phase.isEnded = true ∧
      joinEndings es = (if o.config.queueSize < n then .error .queueClosed else .ok (), []) := by
  cases h with
  | heading h =>
    have hr := hq .router List.mem_cons_self
    exact absurd (hr.symm.trans (h.canRun ho he)) Bool.false_ne_true
  | left | blocked =>
    have hend := (hq.finished ho).2 _ List.mem_cons_self
    exact absurd (he.symm.trans hend) Bool.false_ne_true
  | done hend hle =>
    refine ⟨_, _, rfl, hend, ?_⟩
    rw [if_neg (Nat.not_lt.2 hle)]
    rfl
  | stranded hrun hd hb ht => exact absurd ⟨hrun, _, _, _, _, hd, hb, ht, rfl, rfl⟩ hq.not_stranded
  | failed hend hlt =>
    refine ⟨_, _, rfl, hend, ?_⟩
    rw [if_pos hlt]
    rfl

end CutShort

theorem joinEndings_of_ok {es : List (Except Error Unit)} (h : ∀ e ∈ es, e = .ok ()) :
    joinEndings es = (.ok (), []) := by
  induction es with
  | nil => rfl
  | cons e rest ih =>
    rw [h e List.mem_cons_self]
    exact ih fun e he => h e (List.mem_cons_of_mem _ he)

theorem Fine.join {s : Simulation} (h : s.Fine) : s.join = (.ok (), { s with endings := [] }) := by
  rw [Simulation.join, joinEndings_of_ok h]

end Simulation

namespace Schedule

open Simulation

variable {name : String} {o : Simulation} {c : Controller} {n : Nat} {t t' u u' : Schedule}

/-- As long as the router is not blocked, it is its turn. -/
structure Cutting (o : Simulation) (c : Controller) (n : Nat) (t : Schedule) : Prop where
  short : CutShort o c n t.sim
  first : t.sim.router.phase.isRunning = true →
    (∀ d, t.sim.router.delivery = some d → d.blocked = false) →
    t.ready.find? t.sim.canRun = some .router

theorem Tick.cutting (h : t.Tick u) (ht : t.Cutting o c n) (ho : o.cancelled = true)
    (he : c.phase.isEnded = false) : u.Cutting o c n := by
  cases h with
  | @step depth task rest sim hr hk hs =>
    have hfind : t.ready.find? t.sim.canRun = some task := by rw [hr, List.find?_cons_of_pos hk]
    cases task with
    | router =>
      have hshort := ht.short.router ho he hk hs
      refine ⟨hshort, fun hrun hfree => ?_⟩
      change (t.ready ++ _).find? sim.canRun = _
      rw [hr, List.cons_append, List.find?_cons_of_pos (hshort.canRun ho he hrun hfree)]
    | controller i =>
      obtain ⟨c', hi, hm⟩ := controller_runs hk hs
      have hrouter : sim.router = t.sim.router := (hm.move.beside hi).router
      -- it would be the router's turn if that were not blocked
      have hno (hrun : t.sim.router.phase.isRunning = true) :
          ¬ ∀ d, t.sim.router.delivery = some d → d.blocked = false := by
        intro hfree
        cases hfind.symm.trans (ht.first hrun hfree)
      refine ⟨ht.short.turn ho (fun hrun => by simpa using hno hrun) hi hm, ?_⟩
      change sim.router.phase.isRunning = true →
        (∀ d, sim.router.delivery = some d → d.blocked = false) → _
      rw [hrouter]
      exact fun hrun hfree => absurd hfree (hno hrun)
  | drop hr hk =>
    refine ⟨ht.short, fun hrun hfree => ?_⟩
    have hfind := ht.first hrun hfree
    rwa [hr, List.find?_cons_of_neg (by simp [hk])] at hfind

theorem Settles.cut (h : t.Settles u) (ht : t.Cutting o c n) (ha : t.Alert) (ho : o.cancelled = true)
    (he : c.phase.isEnded = false) :
    ∃ r es, u.sim = o.cutAt r (c.stop (.ok ())) es ∧ r.phase.isEnded = true ∧
      joinEndings es = (if o.config.queueSize < n then .error .queueClosed else .ok (), []) := by
  have hu : u.Cutting o c n := h.keeps (fun hstep hv => hstep.cutting hv ho he) ht
  exact hu.short.final ho he (h.quiet ha)

end Schedule

end ControllerBench
