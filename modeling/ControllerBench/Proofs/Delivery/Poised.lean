import ControllerBench.Proofs.Delivery.Lockstep

namespace ControllerBench

namespace Simulation

/-- At most one controller, which goes on until it is cancelled, and room for at least one request. -/
structure Lone (name : String) (s : Simulation) : Prop where
  reached : s.Reached
  atMost : s.controllers.length ≤ 1
  steadfast : ∀ c ∈ s.controllers, c.Steadfast name
  room : 1 ≤ s.config.queueSize
  calm : s.cancelled = false →
    s.router.phase.isEnded = false ∧ ∀ c ∈ s.controllers, c.phase.isEnded = false

variable {name : String} {s s' : Simulation} {c : Controller} {i : Nat}

namespace Lone

theorem router (h : s.Lone name) (hs' : s'.Reached) (hn : s'.config = s.config)
    (hc : s'.cancelled = s.cancelled) (hcs : s'.controllers = s.controllers)
    (hr : s.cancelled = false → s'.router.phase.isEnded = false) : s'.Lone name where
  reached := hs'
  atMost := hcs ▸ h.atMost
  steadfast := hcs ▸ h.steadfast
  room := hn ▸ h.room
  calm hcan := by
    rw [hc] at hcan
    rw [hcs]
    exact ⟨hr hcan, (h.calm hcan).2⟩

theorem controller (h : s.Lone name) (hs' : s'.Reached) (hn : s'.config = s.config)
    (hc : s'.cancelled = s.cancelled) (hr : s'.router.phase = s.router.phase)
    (hcs : s'.controllers = s.controllers.set i c) (hsteady : c.Steadfast name)
    (he : s.cancelled = false → c.phase.isEnded = false) : s'.Lone name where
  reached := hs'
  atMost := by
    rw [hcs, List.length_set]
    exact h.atMost
  steadfast := by
    rw [hcs]
    intro d hd
    rcases List.mem_or_eq_of_mem_set hd with hd | rfl
    · exact h.steadfast d hd
    · exact hsteady
  room := hn ▸ h.room
  calm hcan := by
    rw [hc] at hcan
    rw [hcs, hr]
    refine ⟨(h.calm hcan).1, fun d hd => ?_⟩
    rcases List.mem_or_eq_of_mem_set hd with hd | rfl
    · exact (h.calm hcan).2 d hd
    · exact he hcan

theorem not_stranded (h : s.Lone name) (hc : s.cancelled = false) : ¬ s.Stranded := by
  rintro ⟨-, d, i, rest, c, -, -, -, hi, he⟩
  have hn := (h.calm hc).2 c (List.mem_of_getElem? hi)
  exact absurd (hn.symm.trans he) Bool.false_ne_true

theorem routerMove (h : s.Lone name) (hs' : s'.Reached) (hr : s.router.phase.isRunning = true)
    (m : s.RouterMove s') : s'.Lone name := by
  have hn := isEnded_of_isRunning hr
  cases m with
  | finish | pass | block | found | list | event => exact h.router hs' rfl rfl rfl fun _ => hn
  | fail hd ht hi he hb =>
    refine h.router hs' rfl rfl rfl fun hc => absurd ?_ (h.not_stranded hc)
    exact ⟨hr, _, _, _, _, hd, hb, ht, hi, he⟩
  | leave _ _ hcan =>
    exact h.router hs' rfl rfl rfl fun hc => absurd (hc.symm.trans hcan) Bool.false_ne_true
  | send _ _ hi he =>
    exact h.controller hs' rfl rfl rfl rfl
      ((h.steadfast _ (List.mem_of_getElem? hi)).congr rfl rfl rfl) fun _ => he

theorem turn (h : s.Lone name) (hs' : s'.Reached) (hi : s.controllers[i]? = some c) {depth : Nat}
    (m : Turn depth s i c s') : s'.Lone name := by
  have hc := h.steadfast c (List.mem_of_getElem? hi)
  cases m with
  | enter => exact h.controller hs' rfl rfl rfl rfl (hc.congr rfl rfl rfl) fun _ => rfl
  | quit _ hcan =>
    exact h.controller hs' rfl rfl rfl rfl (hc.congr rfl rfl rfl) fun hn =>
      absurd (hn.symm.trans hcan) Bool.false_ne_true
  | @pass r rest outcome bench hp =>
    obtain ⟨noted, hconc⟩ := hc.conclude_eq r outcome
    rw [hconc c.phase rest (c.taken.push r)] at hs' ⊢
    refine h.controller hs' rfl rfl rfl rfl (hc.congr rfl rfl rfl) fun _ => ?_
    change c.phase.isEnded = false
    rw [hp]
    rfl

theorem task (h : s.Lone name) {depth : Nat} {k : Task} (hk : s.canRun k = true)
    (hs : s.step depth k = some s') : s'.Lone name := by
  have hs' := h.reached.step (.task (.heed (fun _ _ => rfl) hk hs))
  cases k with
  | router =>
    obtain ⟨hr, hm⟩ := router_runs hk hs
    exact h.routerMove hs' hr hm
  | controller i =>
    obtain ⟨c, hi, hm⟩ := controller_runs hk hs
    exact h.turn hs' hi hm

end Lone

theorem task_cancelled {depth : Nat} {k : Task} (hk : s.canRun k = true)
    (hs : s.step depth k = some s') : s'.cancelled = s.cancelled := by
  cases k with
  | router => cases (router_runs hk hs).2 <;> rfl
  | controller i =>
    obtain ⟨c, -, hm⟩ := controller_runs hk hs
    cases hm.move <;> rfl

theorem Quiet.finished (hq : s.Quiet) (hc : s.cancelled = true) :
    s.router.phase.isRunning = false ∧ ∀ c ∈ s.controllers, c.phase.isEnded = true := by
  have hcs : ∀ (i : Nat) c, s.controllers[i]? = some c → c.phase.isEnded = true := by
    intro i c hi
    have hlt := (List.getElem?_eq_some_iff.1 hi).1
    have h := hq (.controller i) (by simpa [tasks] using hlt)
    cases hp : c.phase with
    | waiting | running => simp [canRun, hi, hp, hc] at h
    | ended => rfl
  refine ⟨Bool.eq_false_iff.2 fun hr => ?_, fun c hm => ?_⟩
  · have hn := hq.router
    rcases routerStep_none hr hn with ⟨_, i, _, c, _, _, hi, he, _⟩ | ⟨hd, hf, hu, _⟩
    · exact absurd (he.symm.trans (hcs i c hi)) Bool.false_ne_true
    · simp [routerStep, hr, hd, Array.getElem?_eq_none hf, hu, hc] at hn
  · obtain ⟨i, hi⟩ := List.getElem?_of_mem hm
    exact hcs i c hi

theorem Reached.queue_empty (h : s.Reached) (hs : s.started = false) (hi : s.controllers[i]? = some c) :
    c.queue = [] := by
  obtain ⟨past, h⟩ := h
  have hserved := Served.run h i c hi
  cases he : c.phase.isEnded with
  | true => exact hserved.emptied he
  | false =>
    have hb := hserved.balance he
    rw [(Ledger.run h).idle hs] at hb
    have hnil : c.taken.toList ++ c.queue ++ _ = [] := hb
    simp only [List.append_eq_nil_iff] at hnil
    exact hnil.1.2

def Fine (s : Simulation) : Prop := ∀ e ∈ s.endings, e = .ok ()

theorem Fine.more (h : s.Fine) (he : s'.endings = s.endings ++ [.ok ()]) : s'.Fine := by
  intro e hm
  rw [he, List.mem_append] at hm
  rcases hm with hm | hm
  · exact h e hm
  · exact List.mem_singleton.1 hm

theorem Fine.task (h : s.Fine) (hl : s.Lone name) (hn : ¬ s.Stranded) {depth : Nat} {k : Task}
    (hk : s.canRun k = true) (hs : s.step depth k = some s') : s'.Fine := by
  cases k with
  | router =>
    obtain ⟨hr, hm⟩ := router_runs hk hs
    cases hm with
    | finish | pass | block | found | list | event | send => exact h
    | fail hd ht hi he hb => exact absurd ⟨hr, _, _, _, _, hd, hb, ht, hi, he⟩ hn
    | leave => exact h.more rfl
  | controller i =>
    obtain ⟨c, hi, hm⟩ := controller_runs hk hs
    cases hm with
    | enter => exact h
    | quit => exact h.more rfl
    | @pass r rest outcome bench hp =>
      obtain ⟨noted, hconc⟩ := (hl.steadfast c (List.mem_of_getElem? hi)).conclude_eq r outcome
      rw [hconc c.phase rest (c.taken.push r), Fine, passed, hp]
      simpa [Phase.ending?] using show ∀ e ∈ s.endings, e = .ok () from h

end Simulation

namespace Schedule

/-- The router will not ask for room in a queue while the tasks come to rest. -/
inductive Unasking (t : Schedule) : Prop
  | finished :
      (∀ c ∈ t.sim.controllers, c.phase.isEnded = true) →
      (∀ d, t.sim.router.delivery = some d → d.blocked = false) → Unasking t
  | still : t.sim.router.phase.isRunning = false → Unasking t
  | leaving :
      t.sim.cancelled = true → t.sim.router.delivery = none →
      t.sim.router.found[t.sim.router.announced]? = none → t.sim.router.unlisted = [] → Unasking t
  | late {i} :
      t.sim.cancelled = true → t.sim.router.delivery = none →
      t.ready.find? t.sim.canRun = some (.controller i) → Unasking t

variable {name : String} {t t' u u' : Schedule}

namespace Unasking

open Simulation

theorem unasked (h : t.Unasking) : t.sim.Unasked := by
  intro hr d i rest c hd _ hi
  cases h with
  | finished hover => exact hover c (List.mem_of_getElem? hi)
  | still hs => exact absurd (hs.symm.trans hr) Bool.false_ne_true
  | leaving _ hn | late _ hn => exact absurd (hd.symm.trans hn) (Option.some_ne_none d)

theorem not_stranded (h : t.Unasking) : ¬ t.sim.Stranded := by
  rintro ⟨hr, d, i, rest, c, hd, hb, -⟩
  cases h with
  | finished _ hfree => exact absurd ((hfree d hd).symm.trans hb) Bool.false_ne_true
  | still hs => exact absurd (hs.symm.trans hr) Bool.false_ne_true
  | leaving _ hn | late _ hn => exact absurd (hd.symm.trans hn) (Option.some_ne_none d)

theorem routerMove (hover : ∀ c ∈ t.sim.controllers, c.phase.isEnded = true)
    (hfree : ∀ d, t.sim.router.delivery = some d → d.blocked = false) (m : t.sim.RouterMove u.sim) :
    u.Unasking := by
  obtain ⟨s, ready⟩ := u
  cases m with
  | finish => exact .finished hover nofun
  | pass | found | event =>
    refine .finished hover ?_
    rintro _ ⟨⟩
    rfl
  | list => exact .finished hover hfree
  | fail | leave => exact .still rfl
  | send _ _ hi he | block _ _ hi he =>
    exact absurd (he.symm.trans (hover _ (List.mem_of_getElem? hi))) Bool.false_ne_true

theorem turn (h : t.Unasking) (hl : t.sim.controllers.length ≤ 1) {i : Nat} {c : Controller}
    (hi : t.sim.controllers[i]? = some c) (hfirst : t.ready.find? t.sim.canRun = some (.controller i))
    {depth : Nat} (m : Turn depth t.sim i c u.sim) : u.Unasking := by
  have hb := (m.move.beside hi).router
  obtain ⟨s, ready⟩ := u
  cases h with
  | finished hover =>
    have he := hover c (List.mem_of_getElem? hi)
    cases m with
    | enter hp | pass hp => simp [hp, Phase.isEnded] at he
    | quit hn => exact absurd (hn.symm.trans he) Bool.false_ne_true
  | still hn =>
    refine .still ?_
    rw [hb]
    exact hn
  | leaving hc hd hf hu =>
    obtain ⟨-, rfl⟩ := m.quits hc
    exact .leaving hc hd hf hu
  | late hc hd =>
    -- cancelled, the controller quits before the router asks it for anything
    obtain ⟨-, rfl⟩ := m.quits hc
    obtain ⟨rfl, hs⟩ := controllers_eq hl hi
    refine .finished ?_ fun d hsome => absurd (hsome.symm.trans hd) (Option.some_ne_none d)
    simp [endController, setController, hs, Controller.stop, Phase.isEnded]

theorem step (h : t.Unasking) (hl : t.sim.controllers.length ≤ 1) {task : Task} {rest : List Task}
    (hr : t.ready = task :: rest) {depth : Nat} (hk : t.sim.canRun task = true)
    (hs : t.sim.step depth task = some u.sim) : u.Unasking := by
  have hfirst : t.ready.find? t.sim.canRun = some task := by
    rw [hr, List.find?_cons_of_pos hk]
  cases task with
  | router =>
    obtain ⟨hrun, hm⟩ := router_runs hk hs
    cases h with
    | finished hover hfree => exact routerMove hover hfree hm
    | still hn => exact absurd (hn.symm.trans hrun) Bool.false_ne_true
    | leaving hc hd hf hu =>
      have hleave : t.sim.routerStep = some (t.sim.endRouter (.ok ())) := by
        simp [routerStep, hrun, hd, hf, hu, hc]
      simp only [Simulation.step, hleave, Option.getD_some, Option.some.injEq] at hs
      refine .still ?_
      rw [← hs]
      rfl
    | late _ _ hfind =>
      rw [hfirst] at hfind
      cases hfind
  | controller i =>
    obtain ⟨c, hi, hm⟩ := controller_runs hk hs
    exact h.turn hl hi hfirst hm

theorem drop (h : t.Unasking) {task : Task} {rest : List Task} (hr : t.ready = task :: rest)
    (hk : t.sim.canRun task = false) : Unasking { t with ready := rest } := by
  cases h with
  | finished hover hfree => exact .finished hover hfree
  | still hn => exact .still hn
  | leaving hc hd hf hu => exact .leaving hc hd hf hu
  | late hc hd hfind =>
    rw [hr, List.find?_cons_of_neg (by simp [hk])] at hfind
    exact .late hc hd hfind

end Unasking

theorem Tick.unasking (h : t.Tick u) (ht : t.Unasking) (hl : t.sim.controllers.length ≤ 1) :
    u.Unasking := by
  cases h with
  | step hr hk hs => exact ht.step hl hr hk hs
  | drop hr hk => exact ht.drop hr hk

/-- What holds all along while a lone controller comes to rest. -/
structure Smooth (name : String) (t : Schedule) : Prop where
  lone : t.sim.Lone name
  alert : t.Alert
  fine : t.sim.Fine
  unasking : t.sim.cancelled = true → t.Unasking

theorem Smooth.not_stranded (h : t.Smooth name) : ¬ t.sim.Stranded := by
  cases hc : t.sim.cancelled with
  | true => exact (h.unasking hc).not_stranded
  | false => exact h.lone.not_stranded hc

theorem Tick.smooth (h : t.Tick u) (ht : t.Smooth name) : u.Smooth name := by
  have halert := h.alert ht.alert
  have hun := fun hc => h.unasking (ht.unasking hc) ht.lone.atMost
  cases h with
  | step hr hk hs =>
    exact ⟨ht.lone.task hk hs, halert, ht.fine.task ht.lone ht.not_stranded hk hs,
      fun hc => hun ((Simulation.task_cancelled hk hs).symm.trans hc)⟩
  | drop => exact ⟨ht.lone, halert, ht.fine, hun⟩

theorem Settles.smooth (h : t.Settles u) (ht : t.Smooth name) : u.Smooth name := h.keeps Tick.smooth ht

/-- A point at which whoever drives the schedule goes on. -/
structure Poised (name : String) (t : Schedule) : Prop where
  smooth : t.Smooth name
  idle : ∀ c ∈ t.sim.controllers, c.queue = []
  between : t.sim.router.phase.isRunning = true →
    t.sim.router.delivery = none ∧ t.sim.router.found[t.sim.router.announced]? = none
  unstarted : t.sim.started = false → .router ∉ t.ready

theorem poised_of_quiet (h : t.Smooth name) (hr : t.ready = []) (hq : t.sim.Quiet) :
    t.Poised name where
  smooth := h
  idle c hm := by
    obtain ⟨past, hrun⟩ := h.lone.reached
    obtain ⟨i, hi⟩ := List.getElem?_of_mem hm
    cases hc : t.sim.cancelled with
    | true => exact (Simulation.Served.run hrun i c hi).emptied ((hq.finished hc).2 c hm)
    | false =>
      cases hs : t.sim.started with
      | true => exact Simulation.queue_empty hrun hq hs hc hm
      | false => exact h.lone.reached.queue_empty hs hi
  between hrun := by
    obtain ⟨past, hpast⟩ := h.lone.reached
    have hl := Simulation.Ledger.run hpast
    have hc : t.sim.cancelled = false := by
      refine Bool.eq_false_iff.2 fun hc => ?_
      exact absurd ((hq.finished hc).1.symm.trans hrun) Bool.false_ne_true
    obtain ⟨hd, hf, -⟩ := hq.drained hl h.lone.room (hl.started_of_running hrun) hc
      (Simulation.isEnded_of_isRunning hrun)
    exact ⟨hd, Array.getElem?_eq_none hf⟩
  unstarted _ := by
    rw [hr]
    exact List.not_mem_nil

theorem Settles.poised (h : t.Settles u) (ht : t.Poised name) : u.Poised name :=
  poised_of_quiet (h.smooth ht.smooth) h.empty (h.quiet ht.smooth.alert)

theorem Settles.lockstep (h : t.Settles u) (ht : t.Smooth name) (ht' : t'.Smooth name)
    (hn : t.Unasking) (hn' : t'.Unasking) (ha : t.Alike t') : ∃ u', t'.Settles u' ∧ u.Alike u' := by
  obtain ⟨hticks, hempty⟩ := h
  induction hticks using Relation.ReflTransGen.head_induction_on generalizing t' with
  | refl => exact ⟨t', ⟨.refl, ha.ready.symm.trans hempty⟩, ha⟩
  | head hstep _ ih =>
    obtain ⟨v', hstep', hav⟩ := hstep.follow ha hn.unasked hn'.unasked
    have hv := hstep.unasking hn ht.lone.atMost
    have hv' := hstep'.unasking hn' ht'.lone.atMost
    obtain ⟨u', hu', hau⟩ := ih (hstep.smooth ht) (hstep'.smooth ht') hv hv'
      (hav hv.unasked hv'.unasked)
    exact ⟨u', ⟨.head hstep' hu'.ticks, hu'.empty⟩, hau⟩

theorem Tick.underway {o : Simulation} {c : Controller} (h : t.Tick u) (ho : o.cancelled = false)
    (ht : Simulation.Underway name o c t.sim) : Simulation.Underway name o c u.sim := by
  cases h with
  | step _ hk hs => exact ht.task ho hk hs
  | drop => exact ht

theorem Settles.arrives {c : Controller} (h : t.Settles u) (ht : t.Poised name)
    (hcan : t.sim.cancelled = false) (hrun : t.sim.router.phase.isRunning = true)
    (hc : t.sim.controllers = [c]) :
    ∃ x, Passes t.sim.agenda (t.bench, c.rested) x ∧ UpToDate t.sim.agenda x ∧
      u.sim = t.sim.arrived x := by
  have hl := ht.smooth.lone
  obtain ⟨past, hpast⟩ := hl.reached
  have hmem : c ∈ t.sim.controllers := by simp [hc]
  have hset : Simulation.Underway name t.sim c t.sim :=
    ⟨hl.reached, rfl, hrun, rfl, c, hc, hl.steadfast c hmem, (hl.calm hcan).2 c hmem, .refl⟩
  have hunder := h.keeps (fun hstep => hstep.underway hcan) hset
  exact hunder.arrives hcan ((Simulation.Ledger.run hpast).started_of_running hrun) hl.room
    (h.quiet ht.smooth.alert)

/-- Two schedules alike, each at a point at which whoever drives it goes on. -/
structure Twins (name : String) (t t' : Schedule) : Prop where
  left : t.Poised name
  right : t'.Poised name
  alike : t.Alike t'

theorem Twins.router (h : t.Twins name t') (hc : t.sim.cancelled = false) :
    t.sim.unsized = t'.sim.unsized := by
  have he := (h.left.smooth.lone.calm hc).1
  have he' := (h.right.smooth.lone.calm (h.alike.cancelled.symm.trans hc)).1
  rw [← Simulation.veil_of_not_ended he, ← Simulation.veil_of_not_ended he', h.alike.veil]

theorem Twins.unasking_or (h : t.Twins name t') :
    (t.Unasking ∧ t'.Unasking) ∨ (t.sim.cancelled = false ∧ t.sim.router.phase.isRunning = true ∧
      ∃ c, t.sim.controllers = [c]) := by
  cases hc : t.sim.cancelled with
  | true =>
    exact .inl ⟨h.left.smooth.unasking hc, h.right.smooth.unasking (h.alike.cancelled.symm.trans hc)⟩
  | false =>
    have hr : t.sim.router = t'.sim.router := (congrArg Simulation.router (h.router hc) :)
    have hcs := h.alike.controllers
    cases hrun : t.sim.router.phase.isRunning with
    | false => exact .inl ⟨.still hrun, .still (hr ▸ hrun)⟩
    | true =>
      have hd := (h.left.between hrun).1
      cases hs : t.sim.controllers with
      | nil =>
        refine .inl ⟨.finished ?_ ?_, .finished ?_ ?_⟩
        · simp [hs]
        · simp [hd]
        · simp [← hcs, hs]
        · simp [← hr, hd]
      | cons c rest =>
        have hle := h.left.smooth.lone.atMost
        rw [hs, List.length_cons] at hle
        obtain rfl := List.eq_nil_of_length_eq_zero (by omega : rest.length = 0)
        exact .inr ⟨rfl, rfl, c, rfl⟩

theorem Twins.settles (h : t.Twins name t') (hu : t.Settles u) (hu' : t'.Settles u') :
    u.Twins name u' := by
  refine ⟨hu.poised h.left, hu'.poised h.right, ?_⟩
  -- where the router may ask for room the two do not keep step, but they make the same passes in the end
  rcases h.unasking_or with ⟨hn, hn'⟩ | ⟨hc, hrun, c, hs⟩
  · obtain ⟨v, hv, ha⟩ := hu.lockstep h.left.smooth h.right.smooth hn hn' h.alike
    rwa [hu'.unique hv]
  · have hsame := h.router hc
    have hr : t.sim.router = t'.sim.router := (congrArg Simulation.router hsame :)
    have hagenda : t.sim.agenda = t'.sim.agenda := (congrArg Simulation.agenda hsame :)
    obtain ⟨x, hx, hup, hsim⟩ := hu.arrives h.left hc hrun hs
    obtain ⟨x', hx', hup', hsim'⟩ := hu'.arrives h.right (h.alike.cancelled.symm.trans hc)
      (hr ▸ hrun) (h.alike.controllers.symm.trans hs)
    rw [← hagenda, ← h.alike.bench] at hx'
    rw [← hagenda] at hup'
    obtain rfl := hx.unique hx' hup hup'
    refine ⟨?_, hu.empty.trans hu'.empty.symm⟩
    rw [hsim, hsim']
    exact congrArg (·.arrived x) hsame

end Schedule

end ControllerBench
