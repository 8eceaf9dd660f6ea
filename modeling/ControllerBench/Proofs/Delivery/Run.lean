import ControllerBench.Proofs.Dispatch.Frame
import ControllerBench.Simulation
import Mathlib.Logic.Function.Basic

/-!
Runs: every order in which a manager is set up, started and taken down, the bench is worked from outside,
and the router and the controllers take their steps, a reconcile pass at one go or request by request.
-/

namespace ControllerBench

/-- The first thing a script does, alone, and what is left of the script after it. -/
def Script.advance (invoke : Invoke) : Script → Bench → Option (Script × Bench)
  | .done _, _ => none
  | .invoke action next, b => (invoke b action).map fun r => (next r.1, r.2)
  | .install label reactor placement next, b => some (next, b.install label reactor placement)
  | .remove label next, b => some (next (b.remove label).1, (b.remove label).2)
  | .pause next, b => some (next, b)

theorem Script.advance_extends {depth : Nat} {s s' : Script} {b b' : Bench}
    (h : s.advance (Bench.invoke depth) b = some (s', b')) : b.Extends b' := by
  cases s with
  | done outcome => cases h
  | invoke action next =>
    obtain ⟨⟨result, c⟩, hc, hr⟩ := Option.map_eq_some_iff.1 h
    cases hr
    exact Bench.extends_frame.invoke depth _ _ _ _ hc
  | install label reactor placement next =>
    cases h
    exact Bench.extends_frame.install b label reactor placement
  | remove label next =>
    cases h
    exact Bench.extends_frame.remove b label
  | pause next =>
    cases h
    exact Bench.extends_frame.refl b

/--
What can happen next. A `call` is any program of someone who is no task of the manager, and one that others
interrupt is several calls; `arrange` is whatever else may be done to the bench from outside, such as seeding
the tracker, as long as it publishes nothing.
-/
inductive Move where
  | manage (config : Config)
  | register (name : String) (watches : List Resource) (reconciler : Reconciler)
  | start (order : List Resource)
  | cancel
  | join
  | call (script : Script)
  | arrange (bench : Bench)
  | task (t : Task)

namespace Phase

def ending? : Phase → Option (Except Error Unit)
  | ended result => some result
  | waiting | running => none

theorem ending?_eq_none {p : Phase} : p.ending? = none ↔ p.isEnded = false := by
  cases p <;> simp [ending?, isEnded]

end Phase

/-- The passes others have interrupted: of each controller at most one, its request and what is left to do. -/
abbrev Interrupted := Nat → Option (Request × Script)

def Interrupted.none : Interrupted := fun _ => .none

namespace Simulation

/-- As it is for a task that has not looked whether it is cancelled. -/
def overlooked (s : Simulation) : Simulation := { s with cancelled := false }

/-- What is left of a pass: the controller as it concluded it, and its ending if that was its last one. -/
def passed (s : Simulation) (i : Nat) (c : Controller) (bench : Bench) : Simulation :=
  { s.setController i c with bench, endings := s.endings ++ c.phase.ending?.toList }

/--
What a task may do. Nothing makes it prefer a cancellation to what else there is for it to do, and anyone may
go on between any two requests of a pass; only within a pass does a controller not look for a cancellation.
-/
inductive Acts (s : Simulation) (p : Interrupted) : Task → Simulation → Interrupted → Prop
  | heed {depth t s'} :
      (∀ i, t = .controller i → p i = none) → s.canRun t = true → s.step depth t = some s' →
      Acts s p t s' p
  | overlook {depth t s'} :
      (∀ i, t = .controller i → p i = none) → s.overlooked.canRun t = true →
      s.overlooked.step depth t = some s' → Acts s p t { s' with cancelled := s.cancelled } p
  | take {i c r rest} :
      s.controllers[i]? = some c → p i = none → c.phase = .running → c.queue = r :: rest →
      Acts s p (.controller i)
        (s.setController i { c with queue := rest, taken := c.taken.push r })
        (Function.update p i (some (r, c.reconciler.reconcile c.taken.size r)))
  | ask {depth i c r script script' bench} :
      s.controllers[i]? = some c → p i = some (r, script) →
      script.advance (Bench.invoke depth) s.bench = some (script', bench) →
      Acts s p (.controller i) { s with bench } (Function.update p i (some (r, script')))
  | conclude {i c r outcome} :
      s.controllers[i]? = some c → c.phase = .running → p i = some (r, .done outcome) →
      Acts s p (.controller i) (s.passed i (c.conclude r outcome) s.bench)
        (Function.update p i none)

/-- The resync goes through the watched resources in an order of its own choice. -/
inductive Step (s : Simulation) (p : Interrupted) : Move → Simulation → Interrupted → Prop
  | manage {config s'} : s.manage config = .ok s' → Step s p (.manage config) s' p
  | register {name watches reconciler s'} :
      s.addController name watches reconciler = .ok s' →
      Step s p (.register name watches reconciler) s' p
  | start {order s'} :
      s.start = .ok s' → order.Perm s.watched →
      Step s p (.start order) (s'.setRouter { s'.router with unlisted := order }) p
  | cancel : Step s p .cancel s.cancel p
  | join : Step s p .join s.join.2 p
  | call {depth script outcome bench} :
      script.run (Bench.invoke depth) s.bench = some (outcome, bench) →
      Step s p (.call script) { s with bench } p
  | arrange {bench} : bench.events = s.bench.events → Step s p (.arrange bench) { s with bench } p
  | task {t s' p'} : s.Acts p t s' p' → Step s p (.task t) s' p'

def perform (depth : Nat) (s : Simulation) : Move → Option Simulation
  | .manage config => (s.manage config).toOption
  | .register name watches reconciler => (s.addController name watches reconciler).toOption
  | .start order =>
    if order.Perm s.watched then
      s.start.toOption.map fun s' => s'.setRouter { s'.router with unlisted := order }
    else none
  | .cancel => some s.cancel
  | .join => some s.join.2
  | .call script => (script.run (Bench.invoke depth) s.bench).map fun r => { s with bench := r.2 }
  | .arrange bench => if bench.events = s.bench.events then some { s with bench } else none
  | .task t => if s.canRun t then s.step depth t else none

theorem addController_ok {s s' : Simulation} {name : String} {watches : List Resource}
    {reconciler : Reconciler} (h : s.addController name watches reconciler = .ok s') :
    s.started = false ∧
      s' = { s with controllers := s.controllers ++ [{ name, watches, reconciler }] } := by
  unfold addController at h
  split at h
  · cases h
  next hs =>
    split at h
    · cases h
    · cases h
      exact ⟨by simpa using hs, rfl⟩

theorem manage_ok {s s' : Simulation} {config : Config} (h : s.manage config = .ok s') :
    s' = { s with managed := true, config } := by
  unfold manage at h
  split at h
  · cases h
  · cases h
    rfl

theorem start_ok {s s' : Simulation} (h : s.start = .ok s') :
    s.started = false ∧
      s' =
        { s with
          started := true
          router := { s.router with phase := .running, unlisted := s.watched } } := by
  unfold start at h
  split at h
  · cases h
  next hs =>
    cases h
    exact ⟨by simpa using hs, rfl⟩

theorem toOption_eq_some {x : Except Error Simulation} {s : Simulation} :
    x.toOption = some s ↔ x = .ok s := by
  cases x <;> simp [Except.toOption]

theorem step_of_perform {depth : Nat} {s s' : Simulation} {m : Move}
    (h : s.perform depth m = some s') : s.Step .none m s' .none := by
  cases m with
  | manage config => exact .manage (toOption_eq_some.1 h)
  | register name watches reconciler => exact .register (toOption_eq_some.1 h)
  | start order =>
    rw [perform] at h
    split at h
    next hp =>
      obtain ⟨s₁, hs, rfl⟩ := Option.map_eq_some_iff.1 h
      exact .start (toOption_eq_some.1 hs) hp
    · cases h
  | cancel =>
    cases h
    exact .cancel
  | join =>
    cases h
    exact .join
  | call script =>
    obtain ⟨⟨outcome, bench⟩, hr, rfl⟩ := Option.map_eq_some_iff.1 h
    exact .call hr
  | arrange bench =>
    rw [perform] at h
    split at h
    next he =>
      cases h
      exact .arrange he
    · cases h
  | task t =>
    rw [perform] at h
    split at h
    next hc => exact .task (.heed (fun _ _ => rfl) hc h)
    · cases h

def Quiet (s : Simulation) : Prop := ∀ t ∈ s.tasks, s.canRun t = false

instance (s : Simulation) : Decidable s.Quiet :=
  inferInstanceAs (Decidable (∀ t ∈ s.tasks, s.canRun t = false))

/-- The resource the resync lists if this is the router's move and it has announced all it found before. -/
def resyncs (s : Simulation) : Move → Option Resource
  | .task .router =>
    if s.router.delivery.isNone && s.router.found[s.router.announced]?.isNone then
      s.router.unlisted.head?
    else none
  | _ => none

end Simulation

abbrev History := List (Simulation × Move)

namespace History

def listed (past : History) : List Resource := past.filterMap fun e => e.1.resyncs e.2

/-- What the resync found, in the order in which it was listed, each time in the store as it was then. -/
def found (past : History) : List (Resource × Request) :=
  past.flatMap fun e => (e.1.resyncs e.2).toList.flatMap e.1.listing

end History

inductive Run : History → Simulation → Interrupted → Prop
  | init (bench : Bench) : Run [] { bench } .none
  | step {past : History} {s s' : Simulation} {p p' : Interrupted} {m : Move} :
      Run past s p → s.Step p m s' p' → Run (past ++ [(s, m)]) s' p'

def History.replay (depth : Nat) : List Move → History → Simulation → Option (History × Simulation)
  | [], past, s => some (past, s)
  | m :: rest, past, s => (s.perform depth m).bind fun s' => replay depth rest (past ++ [(s, m)]) s'

theorem Run.replay {depth : Nat} {moves : List Move} {past past' : History} {s s' : Simulation}
    (h : Run past s .none) (hr : History.replay depth moves past s = some (past', s')) :
    Run past' s' .none := by
  induction moves generalizing past s with
  | nil =>
    cases hr
    exact h
  | cons m rest ih =>
    obtain ⟨next, hn, hr⟩ := Option.bind_eq_some_iff.1 hr
    exact ih (h.step (Simulation.step_of_perform hn)) hr

theorem Run.exists_of_replay (depth : Nat) (bench : Bench) (moves : List Move)
    (P : History → Simulation → Prop) [∀ past s, Decidable (P past s)]
    (h : (History.replay depth moves [] { bench }).any (fun r => decide (P r.1 r.2)) = true) :
    ∃ past s, Run past s .none ∧ P past s := by
  obtain ⟨⟨past, s⟩, hr, hp⟩ := (Option.any_eq_true ..).1 h
  exact ⟨past, s, (Run.init bench).replay hr, of_decide_eq_true hp⟩

namespace Run

variable {past : History} {s : Simulation} {p : Interrupted} {depth i : Nat} {c : Controller}
  {r : Request} {outcome : Outcome} {bench : Bench}

theorem ask_then {script script' : Script} {b : Bench} (h : Run past s p)
    (hc : s.controllers[i]? = some c) (hp : p i = some (r, script))
    (ha : script.advance (Bench.invoke depth) s.bench = some (script', b))
    (hrest : ∀ past p, Run past { s with bench := b } p → p i = some (r, script') →
      ∃ past', Run past' { s with bench } (Function.update p i (some (r, .done outcome)))) :
    ∃ past', Run past' { s with bench } (Function.update p i (some (r, .done outcome))) := by
  obtain ⟨past', h'⟩ := hrest _ _ (h.step (.task (.ask hc hp ha))) (Function.update_self ..)
  rw [Function.update_idem] at h'
  exact ⟨past', h'⟩

theorem ask_all {script : Script} {b : Bench} (h : Run past s p) (hc : s.controllers[i]? = some c)
    (hp : p i = some (r, script)) (hb : s.bench = b)
    (hrun : script.run (Bench.invoke depth) b = some (outcome, bench)) :
    ∃ past', Run past' { s with bench } (Function.update p i (some (r, .done outcome))) := by
  fun_induction Script.run (Bench.invoke depth) script b generalizing past s p with
  | case1 b o =>
    obtain ⟨rfl, rfl⟩ := Prod.mk.inj (Option.some.inj hrun)
    rw [← hp, Function.update_eq_self, ← hb]
    exact ⟨past, h⟩
  | case2 => cases hrun
  | case3 action next b result b' hinvoke ih =>
    have ha : (Script.invoke action next).advance (Bench.invoke depth) s.bench =
        some (next result, b') := by
      rw [Script.advance, hb, hinvoke]
      rfl
    exact h.ask_then hc hp ha fun _ _ h' hp' =>
      ih (s := { s with bench := b' }) h' hc hp' rfl hrun
  | case4 label reactor placement next b ih =>
    have ha : (Script.install label reactor placement next).advance (Bench.invoke depth) s.bench =
        some (next, b.install label reactor placement) := hb ▸ rfl
    exact h.ask_then hc hp ha fun _ _ h' hp' =>
      ih (s := { s with bench := b.install label reactor placement }) h' hc hp' rfl hrun
  | case5 label next b ih =>
    have ha : (Script.remove label next).advance (Bench.invoke depth) s.bench =
        some (next (b.remove label).1, (b.remove label).2) := hb ▸ rfl
    exact h.ask_then hc hp ha fun _ _ h' hp' =>
      ih (s := { s with bench := (b.remove label).2 }) h' hc hp' rfl hrun
  | case6 next b ih =>
    have ha : (Script.pause next).advance (Bench.invoke depth) s.bench = some (next, b) := hb ▸ rfl
    exact h.ask_then hc hp ha fun _ _ h' hp' => ih (s := { s with bench := b }) h' hc hp' rfl hrun

/-- Where a pass at one go leads, a pass leads that lets others in between any two of its requests. -/
theorem pass_by_requests {rest : List Request} (h : Run past s p) (hc : s.controllers[i]? = some c)
    (hp : p i = none) (hphase : c.phase = .running) (hq : c.queue = r :: rest)
    (hrun : (c.reconciler.reconcile c.taken.size r).run (Bench.invoke depth) s.bench =
      some (outcome, bench)) :
    ∃ past', Run past' (s.passed i
      ({ c with queue := rest, taken := c.taken.push r }.conclude r outcome) bench) p := by
  have htake := h.step (.task (.take hc hp hphase hq))
  have hi : (s.setController i { c with queue := rest, taken := c.taken.push r }).controllers[i]? =
      some { c with queue := rest, taken := c.taken.push r } := by
    simp [Simulation.setController, (List.getElem?_eq_some_iff.1 hc).1]
  obtain ⟨past', hasked⟩ := htake.ask_all hi (Function.update_self ..) rfl hrun
  have hend := hasked.step (.task (.conclude hi hphase (Function.update_self ..)))
  have hsame (c' : Controller) :
      ({ s.setController i { c with queue := rest, taken := c.taken.push r } with
        bench } : Simulation).passed i c' bench = s.passed i c' bench := by
    simp [Simulation.passed, Simulation.setController]
  rw [hsame, Function.update_idem, Function.update_idem, ← hp, Function.update_eq_self] at hend
  exact ⟨_, hend⟩

end Run

namespace Bench

def published (b : Bench) : List (Resource × Request) :=
  b.events.toList.map fun e => (e.resource, ⟨e.ns, e.name⟩)

theorem Extends.published {b b' : Bench} (h : b.Extends b') : b.published <+: b'.published :=
  h.map _

theorem published_length (b : Bench) : b.published.length = b.events.size := by
  simp [published]

end Bench

namespace Controller

def share (c : Controller) (announcements : List (Resource × Request)) : List Request :=
  (announcements.filter fun f => c.watches.contains f.1).map (·.2)

theorem share_append (c : Controller) (fs gs : List (Resource × Request)) :
    c.share (fs ++ gs) = c.share fs ++ c.share gs := by
  simp [share]

theorem share_singleton (c : Controller) (f : Resource × Request) :
    c.share [f] = if c.watches.contains f.1 then [f.2] else [] := by
  cases h : c.watches.contains f.1 <;> simp only [share, List.filter_cons, h] <;> rfl

theorem share_congr {c c' : Controller} (h : c'.watches = c.watches)
    (fs : List (Resource × Request)) : c'.share fs = c.share fs := by
  rw [share, share, h]

theorem share_le (c : Controller) {fs gs : List (Resource × Request)} (h : fs <+: gs) :
    c.share fs <+: c.share gs :=
  (h.filter _).map _

end Controller

end ControllerBench
