import ControllerBench.Proofs.Delivery.Settling
import ControllerBench.Proofs.Delivery.Stopping

namespace ControllerBench

namespace Controller

/-- Watches a single resource and goes on after every failed pass. -/
structure Steadfast (name : String) (c : Controller) : Prop where
  named : c.name = name
  watches : ∃ r, c.watches = [r]
  stays : ∀ r e e', c.reconciler.onError r e ≠ .stop e'

def rested (c : Controller) : Controller := { c with phase := .running, queue := [] }

variable {name : String} {c c' : Controller}

theorem Steadfast.congr (h : c.Steadfast name) (hn : c'.name = c.name) (hw : c'.watches = c.watches)
    (hr : c'.reconciler = c.reconciler) : c'.Steadfast name where
  named := hn.trans h.named
  watches := hw ▸ h.watches
  stays := hr ▸ h.stays

theorem Steadfast.conclude_eq (h : c.Steadfast name) (r : Request) (outcome : Outcome) :
    ∃ noted, ∀ phase queue taken, ({ c with phase, queue, taken } : Controller).conclude r outcome =
      { c with phase, queue, taken, noted } := by
  cases he : outcome.error? with
  | none => exact ⟨c.noted, fun _ _ _ => by simp only [conclude, he]⟩
  | some e =>
    cases ho : c.reconciler.onError r e with
    | ignore => exact ⟨c.noted, fun _ _ _ => by simp only [conclude, he, ho]⟩
    | note => exact ⟨c.noted.push (r, e), fun _ _ _ => by simp only [conclude, he, ho]⟩
    | stop e' => exact absurd ho (h.stays r e e')

end Controller

/-- One pass, about the next request that is due; the outcome and the bench are those of its script. -/
inductive Pass (agenda : List (Resource × Request)) : Bench × Controller → Bench × Controller → Prop
  | mk {b b' : Bench} {c : Controller} {r : Request} {depth : Nat} {outcome : Outcome} :
      (c.share (agenda ++ b.published))[c.taken.size]? = some r →
      (c.reconciler.reconcile c.taken.size r).run (Bench.invoke depth) b = some (outcome, b') →
      Pass agenda (b, c) (b', { c with taken := c.taken.push r }.conclude r outcome)

abbrev Passes (agenda : List (Resource × Request)) : Bench × Controller → Bench × Controller → Prop :=
  Relation.ReflTransGen (Pass agenda)

section Pass

variable {agenda : List (Resource × Request)} {x y z : Bench × Controller}

theorem Pass.unique (h : Pass agenda x y) (h' : Pass agenda x z) : y = z := by
  cases h with
  | mk hr hrun =>
    cases h' with
    | mk hr' hrun' =>
      obtain rfl := Option.some.inj (hr.symm.trans hr')
      obtain ⟨rfl, rfl⟩ := Prod.mk.inj (Bench.run_agree hrun hrun')
      rfl

def UpToDate (agenda : List (Resource × Request)) (x : Bench × Controller) : Prop :=
  (x.2.share (agenda ++ x.1.published)).length ≤ x.2.taken.size

theorem UpToDate.no_pass (h : UpToDate agenda x) : ¬ Pass agenda x y := by
  rintro ⟨hr, -⟩
  have hlt := (List.getElem?_eq_some_iff.1 hr).1
  exact absurd h (by simpa [UpToDate] using hlt)

theorem Passes.unique (h : Passes agenda x y) (h' : Passes agenda x z) (hy : UpToDate agenda y)
    (hz : UpToDate agenda z) : y = z :=
  eq_of_both_final (fun _ _ _ hu hv => hu.unique hv) h h' (fun _ hw => hy.no_pass hw)
    (fun _ hw => hz.no_pass hw)

end Pass

theorem Router.eq_of_drained {r : Router} {n : Nat} (hr : r.phase.isRunning = true)
    (hd : r.delivery = none) (hu : r.unlisted = []) (ha : r.announced = r.found.size)
    (hc : r.cursor = n) :
    r = { phase := .running, found := r.found, announced := r.found.size, cursor := n } := by
  have hp : r.phase = .running := by
    cases hp : r.phase with
    | running => rfl
    | waiting | ended =>
      rw [hp] at hr
      cases hr
  calc
    r = ⟨r.phase, r.unlisted, r.found, r.announced, r.cursor, r.delivery⟩ := rfl
    _ = { phase := .running, found := r.found, announced := r.found.size, cursor := n } := by
      rw [hp, hd, hu, ha, hc]

namespace History

theorem found_eq_nil {past : History} (h : past.listed = []) : past.found = [] := by
  refine List.flatMap_eq_nil_iff.2 fun e he => ?_
  have hn : e.1.resyncs e.2 = none := List.filterMap_eq_nil_iff.1 h e he
  rw [hn]
  rfl

end History

namespace Simulation

def Reached (s : Simulation) : Prop := ∃ past, Run past s .none

/-- All the resync has found, and what it would find now. -/
def agenda (s : Simulation) : List (Resource × Request) :=
  s.router.found.toList ++ s.router.unlisted.flatMap s.listing

theorem agenda_of_listed {s : Simulation} (h : s.router.unlisted = []) :
    s.agenda = s.router.found.toList := by
  rw [agenda, h]
  exact List.append_nil _

variable {name : String} {s s' o : Simulation} {c : Controller}

theorem Reached.step {m : Move} (h : s.Reached) (hm : s.Step .none m s' .none) : s'.Reached := by
  obtain ⟨past, h⟩ := h
  exact ⟨_, h.step hm⟩

theorem controllers_eq (h : s.controllers.length ≤ 1) {i : Nat} (hi : s.controllers[i]? = some c) :
    i = 0 ∧ s.controllers = [c] := by
  obtain ⟨hlt, hget⟩ := List.getElem?_eq_some_iff.1 hi
  obtain rfl : i = 0 := by omega
  obtain ⟨c', hs⟩ := List.length_eq_one_iff.1 (by omega : s.controllers.length = 1)
  rw [hs] at hi ⊢
  exact ⟨rfl, congrArg (fun c => [c]) (Option.some.inj hi)⟩

theorem watched_length (hs : s.controllers = [c]) (hc : c.Steadfast name) : s.watched.length = 1 := by
  obtain ⟨r, hr⟩ := hc.watches
  rw [watched, hs, List.flatMap_singleton, hr]
  rfl

theorem Reached.found_eq_nil (h : s.Reached) (hw : s.watched.length ≤ 1)
    (hu : s.router.unlisted ≠ []) : s.router.found = #[] := by
  obtain ⟨past, h⟩ := h
  have hl := Ledger.run h
  have hlen := hl.listed.length_eq
  have hpos := List.length_pos_iff.2 hu
  have hle : (if s.started then s.watched else []).length ≤ 1 := by
    split
    · exact hw
    · exact Nat.zero_le _
  rw [List.length_append] at hlen
  have hnil : past.listed = [] := List.eq_nil_of_length_eq_zero (by omega)
  exact Array.toList_eq_nil_iff.1 (hl.found.trans (History.found_eq_nil hnil))

theorem Reached.cursor_eq_zero (h : s.Reached) (hu : s.router.unlisted ≠ []) :
    s.router.cursor = 0 := by
  obtain ⟨past, h⟩ := h
  exact Decidable.byContradiction fun hc => hu ((Ledger.run h).resynced hc).2

theorem Reached.take_next (h : s.Reached) (hs : s.controllers = [c]) (hc : c.Steadfast name)
    (he : c.phase.isEnded = false) {r : Request} {rest : List Request} (hq : c.queue = r :: rest) :
    s.router.unlisted = [] ∧
      (c.share (s.agenda ++ s.bench.published))[c.taken.size]? = some r := by
  have hall := h
  obtain ⟨past, h⟩ := h
  have hl := Ledger.run h
  have hb := (Served.run h 0 c (by rw [hs]; rfl)).balance he
  rw [hq] at hb
  have hu : s.router.unlisted = [] := by
    -- with a single resource to list, nothing is found before all of it is listed
    refine Decidable.byContradiction fun hu => ?_
    have hsent : s.router.sent s.bench = [] := by
      rw [Router.sent, hall.found_eq_nil (Nat.le_of_eq (watched_length hs hc)) hu, hall.cursor_eq_zero hu]
      simp
    rw [hsent] at hb
    simp [Controller.share] at hb
  refine ⟨hu, ?_⟩
  have hle : c.share (s.router.sent s.bench) <+: c.share (s.agenda ++ s.bench.published) := by
    rw [agenda_of_listed hu, hl.found]
    exact c.share_le hl.sent_le
  obtain ⟨more, hm⟩ := hle
  rw [← hm, ← hb]
  simp

/--
What holds from one settling point to the next while a lone controller is under way: `o` is where it set out
from, with the controller as `c₀`.
-/
structure Underway (name : String) (o : Simulation) (c₀ : Controller) (s : Simulation) : Prop where
  reached : s.Reached
  still : s = { o with bench := s.bench, router := s.router, controllers := s.controllers }
  running : s.router.phase.isRunning = true
  agenda : s.agenda = o.agenda
  lone : ∃ c, s.controllers = [c] ∧ c.Steadfast name ∧ c.phase.isEnded = false ∧
    Passes o.agenda (o.bench, c₀.rested) (s.bench, c.rested)

namespace Underway

variable {c₀ : Controller}

theorem cancelled (h : Underway name o c₀ s) : s.cancelled = o.cancelled := by
  rw [h.still]

theorem setRouter (h : Underway name o c₀ s) {r : Router} (hs : (s.setRouter r).Reached)
    (hr : r.phase = s.router.phase) (ha : (s.setRouter r).agenda = s.agenda) :
    Underway name o c₀ (s.setRouter r) where
  reached := hs
  still := by
    rw [h.still]
    rfl
  running := hr ▸ h.running
  agenda := ha.trans h.agenda
  lone := h.lone

theorem alone (h : Underway name o c₀ s) {i : Nat} (hi : s.controllers[i]? = some c) :
    i = 0 ∧ s.controllers = [c] := by
  obtain ⟨c', hs, -⟩ := h.lone
  exact controllers_eq (Nat.le_of_eq (by rw [hs]; rfl)) hi

theorem steadfast (h : Underway name o c₀ s) (hs : s.controllers = [c]) :
    c.Steadfast name ∧ c.phase.isEnded = false := by
  obtain ⟨c', hs', hc, he, -⟩ := h.lone
  obtain rfl : c = c' := (List.cons.inj (hs.symm.trans hs')).1
  exact ⟨hc, he⟩

theorem advance (h : Underway name o c₀ s) (hs : s.controllers = [c]) (b : Bench) (r : Router)
    (d : Controller) (he' : s' = { s with bench := b, router := r, controllers := [d] })
    (hs' : s'.Reached) (hr : r.phase = s.router.phase) (ha : s'.agenda = s.agenda)
    (hc : d.Steadfast name) (he : d.phase.isEnded = false)
    (hp : Passes o.agenda (s.bench, c.rested) (b, d.rested)) : Underway name o c₀ s' where
  reached := hs'
  still := by
    rw [he', h.still]
  running := by
    rw [he']
    exact hr ▸ h.running
  agenda := ha.trans h.agenda
  lone := by
    obtain ⟨c', hs'', -, -, hpast⟩ := h.lone
    obtain rfl : c = c' := (List.cons.inj (hs.symm.trans hs'')).1
    rw [he']
    exact ⟨d, rfl, hc, he, hpast.trans hp⟩

theorem routerMove (h : Underway name o c₀ s) (ho : o.cancelled = false) (hs' : s'.Reached)
    (m : s.RouterMove s') : Underway name o c₀ s' := by
  cases m with
  | finish | pass | block | found | event => exact h.setRouter hs' rfl rfl
  | fail _ _ hi he =>
    have hn := (h.steadfast (h.alone hi).2).2
    exact absurd (hn.symm.trans he) Bool.false_ne_true
  | @send d i rest c _ _ hi =>
    obtain ⟨rfl, hs⟩ := h.alone hi
    obtain ⟨hc, he⟩ := h.steadfast hs
    refine h.advance hs s.bench { s.router with delivery := some ⟨d.request, rest, false⟩ }
      { c with queue := c.queue ++ [d.request] } ?_ hs' rfl rfl (hc.congr rfl rfl rfl) he .refl
    rw [setController, hs]
    rfl
  | list _ _ hu =>
    refine h.setRouter hs' rfl ?_
    simp [Simulation.agenda, hu]
    rfl
  | leave _ _ hc => exact absurd (ho.symm.trans (h.cancelled.symm.trans hc)) Bool.false_ne_true

theorem turn (h : Underway name o c₀ s) (ho : o.cancelled = false) (hs : s.controllers = [c])
    (hs' : s'.Reached) {depth : Nat} (m : Turn depth s 0 c s') : Underway name o c₀ s' := by
  obtain ⟨hc, he⟩ := h.steadfast hs
  cases m with
  | enter =>
    refine h.advance hs s.bench s.router { c with phase := .running } ?_ hs' rfl rfl
      (hc.congr rfl rfl rfl) rfl .refl
    rw [setController, hs]
    rfl
  | quit _ hcan => exact absurd (ho.symm.trans (h.cancelled.symm.trans hcan)) Bool.false_ne_true
  | @pass r rest outcome bench hp _ hq hrun =>
    obtain ⟨hu, hnext⟩ := h.reached.take_next hs hc he hq
    obtain ⟨noted, hconc⟩ := hc.conclude_eq r outcome
    have hpass : Pass o.agenda (s.bench, c.rested)
        (bench, { c with phase := .running, queue := [], taken := c.taken.push r }.conclude r outcome) :=
      .mk (h.agenda ▸ hnext) hrun
    rw [hconc] at hs' hpass ⊢
    refine h.advance hs bench s.router { c with queue := rest, taken := c.taken.push r, noted } ?_ hs'
      rfl ?_ (hc.congr rfl rfl rfl) he (.single hpass)
    · rw [passed, setController, hs, Phase.ending?_eq_none.2 he]
      simp
    · exact (agenda_of_listed (s := s.passed 0 _ bench) hu).trans (agenda_of_listed hu).symm

theorem task (h : Underway name o c₀ s) (ho : o.cancelled = false) {depth : Nat} {k : Task}
    (hk : s.canRun k = true) (hs : s.step depth k = some s') : Underway name o c₀ s' := by
  have hs' := h.reached.step (.task (.heed (fun _ _ => rfl) hk hs))
  cases k with
  | router => exact h.routerMove ho hs' (router_runs hk hs).2
  | controller i =>
    obtain ⟨c, hi, hm⟩ := controller_runs hk hs
    obtain ⟨rfl, hc⟩ := h.alone hi
    exact h.turn ho hc hs' hm

end Underway

theorem Quiet.rested (hq : s.Quiet) (hs : s.started = true) (hn : s.cancelled = false)
    (hc : s.controllers = [c]) (he : c.phase.isEnded = false) : c.rested = c := by
  have hi : s.controllers[0]? = some c := by
    rw [hc]
    rfl
  have hqueue := hq.controller hs hn hi he
  have hstill := hq (.controller 0) (by simp [tasks, hc])
  obtain ⟨_, _, _, phase, _, _, _⟩ := c
  cases phase with
  | waiting => simp [canRun, hi, hs] at hstill
  | running => rw [Controller.rested, ← hqueue]
  | ended => cases he

/-- All the resync found and all that was published since is announced, and the controller waits for more. -/
def arrived (s : Simulation) (x : Bench × Controller) : Simulation :=
  { s with
    bench := x.1
    controllers := [x.2]
    router :=
      { phase := .running
        found := s.agenda.toArray
        announced := s.agenda.length
        cursor := x.1.events.size } }

theorem Underway.arrives {c₀ : Controller} (h : Underway name o c₀ s) (ho : o.cancelled = false)
    (hs : o.started = true) (hroom : 1 ≤ o.config.queueSize) (hq : s.Quiet) :
    ∃ x, Passes o.agenda (o.bench, c₀.rested) x ∧ UpToDate o.agenda x ∧ s = o.arrived x := by
  have hcan := h.cancelled.trans ho
  have hstarted : s.started = true := by
    rw [h.still]
    exact hs
  have hroom : 1 ≤ s.config.queueSize := by
    rw [h.still]
    exact hroom
  obtain ⟨past, hrun⟩ := h.reached
  have hl := Ledger.run hrun
  obtain ⟨hd, ha, hu, hcur⟩ := hq.drained hl hroom hstarted hcan (isEnded_of_isRunning h.running)
  have hfound := (agenda_of_listed hu).symm.trans h.agenda
  obtain ⟨c, hc, hsteady, he, hpasses⟩ := h.lone
  have hrest := hq.rested hstarted hcan hc he
  refine ⟨(s.bench, c), hrest ▸ hpasses, ?_, ?_⟩
  · have htaken := hq.taken_all hrun hroom hstarted hcan (isEnded_of_isRunning h.running)
      (c := c) (by simp [hc]) he
    rw [Controller.due, ← hl.found, hfound] at htaken
    rw [UpToDate, ← htaken]
    simp
  · have hrouter := Router.eq_of_drained h.running hd hu
      (Nat.le_antisymm hl.announced_le ha) (Nat.le_antisymm hl.cursor_le hcur)
    calc
      s = { o with bench := s.bench, router := s.router, controllers := s.controllers } := h.still
      _ = o.arrived (s.bench, c) := by
        rw [arrived, ← hfound, hc, hrouter]
        simp

end Simulation

end ControllerBench
