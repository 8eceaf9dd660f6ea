import ControllerBench.Proofs.Delivery.Cut

namespace ControllerBench

namespace Schedule

open Simulation

variable {name : String} {t t' u u' : Schedule}

def halted (t : Schedule) : Schedule :=
  wake ⟨{ t.sim with cancelled := true, endings := [] }, t.ready⟩

def joined (t : Schedule) : Schedule := { t with sim := t.sim.join.2 }

/-- Cancelled now, the router would go first and had still to list what is there. -/
def Cut (t : Schedule) : Prop :=
  t.sim.cancelled = false ∧ t.sim.router.unlisted ≠ [] ∧
    t.ready.find? t.sim.cancel.canRun = some .router

instance (t : Schedule) : Decidable t.Cut := inferInstanceAs (Decidable (_ ∧ _ ∧ _))

/-- A stop that does not wait cuts off a listing of more objects than there is room for. -/
def Overrun (t : Schedule) : Prop :=
  t.sim.config.sleepOnShutdown.nanos = 0 ∧ t.Cut ∧ t.sim.config.queueSize < t.sim.agenda.length

instance (t : Schedule) : Decidable t.Overrun := inferInstanceAs (Decidable (_ ∧ _ ∧ _))

theorem Poised.canRun_halted (h : t.Poised name) : t.halted.sim.canRun = t.sim.cancel.canRun :=
  funext fun k => @canRun_of_cancelled t.sim.cancel t.halted.sim rfl rfl
    (fun hr => (h.between hr).1) rfl rfl k

theorem Poised.wake_cancel (h : t.Poised name) :
    { wake { t with sim := t.sim.cancel } with sim := { t.sim.cancel with endings := [] } } = t.halted := by
  have hready : t.ready ++ (t.sim.tasks.filter fun k => t.sim.cancel.canRun k && !t.ready.contains k) =
      t.halted.ready := by
    rw [← h.canRun_halted]
    rfl
  exact congrArg (Schedule.mk _) hready

theorem stop_ok {fuel : Nat} {a : Except Error Unit} (h : t.Poised name)
    (hstop : t.stop fuel = .ok (a, u)) :
    ∃ v w, ((t.sim.config.sleepOnShutdown.nanos = 0 ∧ v = t) ∨
        (t.sim.config.sleepOnShutdown.nanos ≠ 0 ∧ t.Settles v)) ∧
      v.halted.Settles w ∧ a = w.sim.join.1 ∧ u = w.joined := by
  unfold stop at hstop
  split at hstop
  · cases hstop
  next v hv =>
    have hsleep : (t.sim.config.sleepOnShutdown.nanos = 0 ∧ v = t) ∨
        (t.sim.config.sleepOnShutdown.nanos ≠ 0 ∧ t.Settles v) := by
      unfold sleep at hv
      split at hv
      next hz =>
        cases hv
        exact .inl ⟨hz, rfl⟩
      next hz => exact .inr ⟨hz, settle_ok hv⟩
    have hpoised : v.Poised name := by
      rcases hsleep with ⟨-, rfl⟩ | ⟨-, hs⟩
      · exact h
      · exact hs.poised h
    have hfine : Fine (wake { v with sim := v.sim.cancel }).sim := hpoised.smooth.fine
    simp only [hfine.join] at hstop
    split at hstop
    · cases hstop
    next w hw =>
      cases hstop
      refine ⟨v, w, hsleep, ?_, rfl, rfl⟩
      rw [← hpoised.wake_cancel]
      exact settle_ok hw

theorem Poised.lone_halted (h : t.Poised name) : t.halted.sim.Lone name := by
  have hfine : t.sim.cancel.Fine := h.smooth.fine
  have hreach := (h.smooth.lone.reached.step .cancel).step .join
  rw [hfine.join] at hreach
  exact ⟨hreach, h.smooth.lone.atMost, h.smooth.lone.steadfast, h.smooth.lone.room, nofun⟩

theorem Poised.running_of_unlisted (h : t.Poised name) (hc : t.sim.cancelled = false)
    (hu : t.sim.router.unlisted ≠ []) : t.sim.router.phase.isRunning = true := by
  have he := (h.smooth.lone.calm hc).1
  obtain ⟨past, hrun⟩ := h.smooth.lone.reached
  have hl := Ledger.run hrun
  cases hs : t.sim.started with
  | false =>
    rw [hl.idle hs] at hu
    exact absurd rfl hu
  | true =>
    cases hp : t.sim.router.phase with
    | waiting => exact absurd hp (hl.busy hs)
    | running => rfl
    | ended => simp [hp, Phase.isEnded] at he

theorem Poised.first (h : t.Poised name) (hc : t.sim.cancelled = false)
    (hu : t.sim.router.unlisted ≠ []) : ∃ k, t.ready.find? t.sim.cancel.canRun = some k := by
  have hr := h.running_of_unlisted hc hu
  obtain ⟨hd, hf⟩ := h.between hr
  have hmem : .router ∈ t.ready := by
    refine h.smooth.alert .router List.mem_cons_self ?_
    obtain ⟨x, rest, hu⟩ := List.exists_cons_of_ne_nil hu
    simp [Simulation.canRun, routerStep, hr, hd, hf, hu]
  have hcan : t.sim.cancel.canRun .router = true := by
    rw [canRun_router_of_cancelled (s := t.sim.cancel) rfl fun _ => hd]
    exact hr
  exact Option.isSome_iff_exists.1 (List.find?_isSome.2 ⟨.router, hmem, hcan⟩)

theorem Poised.unasking_halted (h : t.Poised name) (hn : ¬ t.Cut) : t.halted.Unasking := by
  refine Unasking.wake (t := ⟨{ t.sim with cancelled := true, endings := [] }, t.ready⟩) ?_
  cases hc : t.sim.cancelled with
  | true => exact (h.smooth.unasking hc).congr hc.symm rfl rfl rfl
  | false =>
    by_cases hr : t.sim.router.phase.isRunning = true
    · obtain ⟨hd, hf⟩ := h.between hr
      by_cases hu : t.sim.router.unlisted = []
      · exact .leaving rfl hd hf hu
      · obtain ⟨k, hfind⟩ := h.first hc hu
        cases k with
        | router => exact absurd ⟨hc, hu, hfind⟩ hn
        | controller i =>
          rw [← h.canRun_halted] at hfind
          exact .late (i := i) rfl hd hfind
    · exact .still (Bool.eq_false_iff.2 hr)

theorem Poised.cut_of_setBench (h : t.Poised name) {b : Bench} (hcut : (t.setBench b).Cut) : t.Cut := by
  obtain ⟨hc, hu, hfind⟩ := hcut
  refine ⟨hc, hu, ?_⟩
  obtain ⟨k, hk⟩ := h.first hc hu
  have hrun : (t.setBench b).sim.cancel.canRun = t.sim.cancel.canRun :=
    funext fun k => @canRun_of_cancelled t.sim.cancel (t.setBench b).sim.cancel rfl rfl
      (fun hr => (h.between hr).1) rfl rfl k
  rw [hrun] at hfind
  change (t.ready ++ _).find? _ = _ at hfind
  rw [List.find?_append, hk] at hfind
  exact hk.trans hfind

/-- Each controller stands in line from the moment it is added. -/
def Lined (t : Schedule) : Prop := ∀ i, i < t.sim.controllers.length → .controller i ∈ t.ready

theorem Poised.start_not_cut (h : t.Poised name) (hl : t.Lined) (hok : t.start.1 = .ok ()) :
    ¬ t.start.2.Cut := by
  obtain ⟨-, hs, hu⟩ | ⟨⟨e, he⟩, -⟩ := start_cases t
  · generalize t.start.2 = u at hu
    have hcs : u.sim.cancel.controllers = t.sim.controllers := congrArg (·.sim.controllers) hu
    have hunlisted : u.sim.router.unlisted = t.sim.watched := congrArg (·.sim.router.unlisted) hu
    have hready : ∃ more, u.ready = t.ready ++ more :=
      ⟨_, (congrArg Schedule.ready hu).trans (List.append_assoc ..)⟩
    rintro ⟨hc, hn, hfind⟩
    have hne : t.sim.controllers ≠ [] := fun hnil => hn (by simp [hunlisted, watched, hnil])
    obtain ⟨c, rest, hcons⟩ := List.exists_cons_of_ne_nil hne
    have hi : u.sim.cancel.controllers[0]? = some c := by simp [hcs, hcons]
    have hcan : t.sim.cancelled = false := (congrArg (·.sim.cancelled) hu).symm.trans hc
    have hgoes := (h.smooth.lone.calm hcan).2 c (by simp [hcons])
    obtain ⟨j, hj⟩ := Task.find?_controller (h.unstarted hs) (hl 0 (by simp [hcons]))
      (canRun_controller_of_cancelled (s := u.sim.cancel) rfl hi hgoes)
    obtain ⟨more, hready⟩ := hready
    rw [hready, List.find?_append, hj] at hfind
    cases hfind
  · cases hok.symm.trans he

theorem Poised.cutting (h : t.Poised name) (hcut : t.Cut) :
    ∃ c, t.sim.controllers = [c] ∧ c.phase.isEnded = false ∧
      t.halted.Cutting t.sim.cancel c t.sim.agenda.length := by
  obtain ⟨hc, hu, hfind⟩ := hcut
  have hl := h.smooth.lone
  have hrun := h.running_of_unlisted hc hu
  obtain ⟨hd, hf⟩ := h.between hrun
  obtain ⟨past, hpast⟩ := hl.reached
  have hledger := Ledger.run hpast
  have hwatched : ∀ x ∈ t.sim.router.unlisted, x ∈ t.sim.watched := by
    intro x hx
    have hm := hledger.listed.mem_iff.1 (List.mem_append_right _ hx)
    rwa [hledger.started_of_running hrun, if_pos rfl] at hm
  obtain ⟨c, hs⟩ : ∃ c, t.sim.controllers = [c] := by
    cases hs : t.sim.controllers with
    | nil =>
      -- what is unlisted is watched by somebody
      obtain ⟨x, hx⟩ := List.exists_mem_of_ne_nil _ hu
      have hm := hwatched x hx
      rw [watched, hs] at hm
      cases hm
    | cons c rest =>
      have hi : t.sim.controllers[0]? = some c := by simp [hs]
      exact ⟨c, hs.symm.trans (controllers_eq hl.atMost hi).2⟩
  have hmem : c ∈ t.sim.controllers := by simp [hs]
  have hnil := hl.reached.found_eq_nil (Nat.le_of_eq (watched_length hs (hl.steadfast c hmem))) hu
  have hzero : t.sim.router.announced = 0 := by
    have hle := hledger.announced_le
    rw [hnil] at hle
    exact Nat.le_zero.1 hle
  have hshort : CutShort t.sim.cancel c t.sim.agenda.length
      (t.sim.cancel.cutAt t.sim.router { c with queue := [] } []) := by
    refine .heading ⟨hrun, Nat.zero_le _, ?_, ?_, fun x hx => ?_, hledger.announced_le,
      .inl ⟨hd, hzero.symm⟩⟩
    · rw [agenda, List.length_append, Array.length_toList]
      rfl
    · simp [hnil]
    · have hx := hwatched x hx
      simpa [watched, hs] using hx
  refine ⟨c, hs, (hl.calm hc).2 c hmem, ?_, fun _ _ => ?_⟩
  · have hsim : t.halted.sim = t.sim.cancel.cutAt t.sim.router { c with queue := [] } [] := by
      have hq := h.idle c hmem
      rw [cutAt, ← hq, ← hs]
      rfl
    rw [hsim]
    exact hshort
  · rw [h.canRun_halted, ← h.wake_cancel]
    change (t.ready ++ _).find? _ = _
    rw [List.find?_append, hfind]
    rfl

def verdict (t : Schedule) : Except Error Unit :=
  if t.Cut ∧ t.sim.config.queueSize < t.sim.agenda.length then .error .queueClosed else .ok ()

theorem Tick.lone (h : t.Tick u) (ht : t.sim.Lone name) : u.sim.Lone name := by
  cases h with
  | step _ hk hs => exact ht.task hk hs
  | drop => exact ht

theorem Tick.cancelled (h : t.Tick u) : u.sim.cancelled = t.sim.cancelled := by
  cases h with
  | step _ hk hs => exact task_cancelled hk hs
  | drop => rfl

theorem Settles.lone (h : t.Settles u) (ht : t.sim.Lone name) :
    u.sim.Lone name ∧ u.sim.cancelled = t.sim.cancelled := by
  have hkept {v w : Schedule} (hstep : v.Tick w)
      (hv : v.sim.Lone name ∧ v.sim.cancelled = t.sim.cancelled) :
      w.sim.Lone name ∧ w.sim.cancelled = t.sim.cancelled :=
    ⟨hstep.lone hv.1, hstep.cancelled.trans hv.2⟩
  exact h.keeps hkept ⟨ht, rfl⟩

theorem quiet_of_finished {s : Simulation} (hr : s.router.phase.isRunning = false)
    (he : ∀ c ∈ s.controllers, c.phase.isEnded = true) : s.Quiet := by
  intro k hk
  refine Bool.eq_false_iff.2 fun hc => ?_
  cases k with
  | router => exact absurd (hr.symm.trans (routerStep_running hc)) Bool.false_ne_true
  | controller i =>
    obtain ⟨c, hi, hn⟩ := controller_of_canRun hc
    exact absurd (hn.symm.trans (he c (List.mem_of_getElem? hi))) Bool.false_ne_true

theorem Poised.rests (h : t.Poised name) (hu : t.halted.Settles u)
    (hj : (joinEndings u.sim.endings).2 = []) : u.joined.Poised name := by
  obtain ⟨hl, hc⟩ := hu.lone h.lone_halted
  obtain ⟨hr, he⟩ := (hu.quiet (alert_wake _)).finished hc
  have hlone : u.joined.sim.Lone name :=
    ⟨hl.reached.step .join, hl.atMost, hl.steadfast, hl.room,
      fun hn => absurd (hn.symm.trans hc) Bool.false_ne_true⟩
  have hquiet : u.joined.sim.Quiet := quiet_of_finished hr he
  refine poised_of_quiet ⟨hlone, fun k hk hcan => ?_, ?_, fun _ => .still hr⟩ hu.empty hquiet
  · exact absurd ((hquiet k hk).symm.trans hcan) Bool.false_ne_true
  · intro e hm
    change e ∈ (joinEndings u.sim.endings).2 at hm
    rw [hj] at hm
    cases hm

theorem Poised.halted_smooth (h : t.Poised name) (hn : ¬ t.Cut) : t.halted.Smooth name :=
  ⟨h.lone_halted, alert_wake _, nofun, fun _ => h.unasking_halted hn⟩

theorem Poised.halts (h : t.Poised name) (hn : ¬ t.Cut) (hu : t.halted.Settles u) :
    u.joined.Poised name ∧ u.sim.join = (t.verdict, { u.sim with endings := [] }) := by
  have hj := ((hu.smooth (h.halted_smooth hn)).fine).join
  refine ⟨h.rests hu (congrArg (·.2.endings) hj), ?_⟩
  rw [verdict, if_neg fun hcut => hn hcut.1]
  exact hj

theorem Poised.halts_cut (h : t.Poised name) (hcut : t.Cut) (hu : t.halted.Settles u) :
    u.joined.Poised name ∧ ∃ c r, t.sim.controllers = [c] ∧ r.phase.isEnded = true ∧
      u.sim.join = (t.verdict, t.sim.cancel.cutAt r (c.stop (.ok ())) []) := by
  obtain ⟨c, hs, he, hcutting⟩ := h.cutting hcut
  obtain ⟨r, es, hsim, hr, hj⟩ := hu.cut hcutting (alert_wake _) rfl he
  have hes : (joinEndings u.sim.endings).2 = [] := by
    rw [hsim]
    exact congrArg (·.2) hj
  refine ⟨h.rests hu hes, c, r, hs, hr, ?_⟩
  rw [Simulation.join, hsim]
  change ((joinEndings es).1, t.sim.cancel.cutAt r (c.stop (.ok ())) (joinEndings es).2) = _
  rw [hj]
  simp only [verdict, hcut, true_and]
  rfl

theorem Alike.halted (h : t.Alike t') (ht : t.Poised name) (ht' : t'.Poised name) :
    t.halted.Alike t'.halted := by
  have hv : ({ t.sim with cancelled := true, endings := [] } : Simulation).veil =
      ({ t'.sim with cancelled := true, endings := [] } : Simulation).veil :=
    congrArg (fun s : Simulation => { s with cancelled := true, endings := [] }) h.veil
  exact Alike.wake (t := ⟨{ t.sim with cancelled := true, endings := [] }, t.ready⟩) ⟨hv, h.ready⟩
    ht.unasked ht'.unasked

theorem Twins.cut_iff (h : t.Twins name t') : t.Cut ↔ t'.Cut := by
  have hrun : t.sim.cancel.canRun = t'.sim.cancel.canRun := by
    rw [← h.left.canRun_halted, ← h.right.canRun_halted]
    exact funext ((h.alike.halted h.left h.right).canRun h.left.unasked h.right.unasked)
  cases hc : t.sim.cancelled with
  | true => simp [Cut, ← h.alike.cancelled, hc]
  | false =>
    have hr : t.sim.router = t'.sim.router := (congrArg Simulation.router (h.router hc) :)
    rw [Cut, Cut, h.alike.cancelled, hr, h.alike.ready, hrun]

theorem Twins.halts (h : t.Twins name t') (hu : t.halted.Settles u) (hu' : t'.halted.Settles u') :
    u.joined.Twins name u'.joined ∧ u.sim.join.1 = t.verdict ∧ u'.sim.join.1 = t'.verdict := by
  by_cases hcut : t.Cut
  · obtain ⟨hp, c, r, hs, hr, hj⟩ := h.left.halts_cut hcut hu
    obtain ⟨hp', c', r', hs', hr', hj'⟩ := h.right.halts_cut (h.cut_iff.1 hcut) hu'
    obtain rfl : c = c' := (List.cons.inj (hs.symm.trans (h.alike.controllers.trans hs'))).1
    refine ⟨⟨hp, hp', ?_, hu.empty.trans hu'.empty.symm⟩, by rw [hj], by rw [hj']⟩
    change u.sim.join.2.veil = u'.sim.join.2.veil
    rw [hj, hj', veil_of_ended hr, veil_of_ended hr']
    exact (congrArg (fun s : Simulation => { s with
      cancelled := true
      router := { phase := .ended (.ok ()) }
      controllers := [c.stop (.ok ())]
      endings := [] }) h.alike.veil :)
  · have hcut' := mt h.cut_iff.2 hcut
    obtain ⟨hp, hj⟩ := h.left.halts hcut hu
    obtain ⟨hp', hj'⟩ := h.right.halts hcut' hu'
    obtain ⟨v, hv, ha⟩ := hu.lockstep (h.left.halted_smooth hcut) (h.right.halted_smooth hcut')
      (h.left.unasking_halted hcut) (h.right.unasking_halted hcut') (h.alike.halted h.left h.right)
    obtain rfl := hu'.unique hv
    refine ⟨⟨hp, hp', ?_, ha.ready⟩, by rw [hj], by rw [hj']⟩
    change u.sim.join.2.veil = u'.sim.join.2.veil
    rw [hj, hj']
    exact (congrArg (fun s : Simulation => { s with endings := [] }) ha.veil :)

theorem Settles.not_cut (h : t.Settles u) : ¬ u.Cut := by
  rintro ⟨-, -, hfind⟩
  rw [h.empty] at hfind
  cases hfind

def answer (t : Schedule) : Except Error Unit :=
  if t.Overrun then .error .queueClosed else .ok ()

theorem answer_of_hasty (h : t.sim.config.sleepOnShutdown.nanos = 0) : t.answer = t.verdict := by
  simp only [answer, verdict, Overrun, h, true_and]

theorem answer_of_patient (h : t.sim.config.sleepOnShutdown.nanos ≠ 0) (hu : ¬ u.Cut) :
    t.answer = u.verdict := by
  rw [answer, verdict, if_neg fun ho => h ho.1, if_neg fun hc => hu hc.1]

theorem Twins.stop {fuel fuel' : Nat} {a a' : Except Error Unit} (h : t.Twins name t')
    (hu : t.stop fuel = .ok (a, u)) (hu' : t'.stop fuel' = .ok (a', u')) :
    u.Twins name u' ∧ a = t.answer ∧ a' = t'.answer := by
  have hc : t.sim.config.sleepOnShutdown = t'.sim.config.sleepOnShutdown :=
    (congrArg (·.config.sleepOnShutdown) h.alike.veil :)
  obtain ⟨v, w, hv, hw, rfl, rfl⟩ := stop_ok h.left hu
  obtain ⟨v', w', hv', hw', rfl, rfl⟩ := stop_ok h.right hu'
  rw [← hc] at hv'
  rcases hv with ⟨hz, rfl⟩ | ⟨hz, hs⟩
  · obtain ⟨-, rfl⟩ | ⟨hn, -⟩ := hv'
    · rw [answer_of_hasty hz, answer_of_hasty (hc ▸ hz)]
      exact h.halts hw hw'
    · exact absurd hz hn
  · obtain ⟨hn, -⟩ | ⟨-, hs'⟩ := hv'
    · exact absurd hn hz
    · rw [answer_of_patient hz hs.not_cut, answer_of_patient (hc ▸ hz) hs'.not_cut]
      exact (h.settles hs hs').halts hw hw'

end Schedule

end ControllerBench
