import ControllerBench.Demo.Case
import ControllerBench.Proofs.Delivery.Moves

/-!
The demo's controller and a driver that writes widgets, interleaved request by request: between any two
requests of a reconcile pass, and between a write and its event, everyone else may go on.
-/

namespace ControllerBench

namespace Bench

/-- An action where nobody reacts, up to the moment at which its event is still to be published. -/
def enact (b : Bench) (a : Action) : Except Error Response × Option WatchEvent × Bench :=
  match b.tracker.apply a with
  | .error e => (.error e, none, b.record a)
  | .ok (response, tracker) => (.ok response, a.event?, { b.record a with tracker })

def broadcast (b : Bench) (e : WatchEvent) : Bench := { b with events := b.events.push e }

theorem enact_chain (b : Bench) (a : Action) : (b.enact a).2.2.chain = b.chain := by
  unfold enact
  split <;> rfl

theorem enact_events (b : Bench) (a : Action) : (b.enact a).2.2.events = b.events := by
  unfold enact
  split <;> rfl

theorem invoke_unreacted {b : Bench} (h : b.chain = []) (depth : Nat) (a : Action) :
    b.invoke (depth + 1) a =
      some ((b.enact a).1, (b.enact a).2.1.elim (b.enact a).2.2 (b.enact a).2.2.broadcast) := by
  have hc : (b.record a).chain = [] := h
  simp only [invoke, hc, List.map_nil, consult, apply, enact]
  cases hr : b.tracker.apply a with
  | error e => simp [record, hr]
  | ok r =>
    cases he : a.event? with
    | none => simp [record, hr, publish, he]
    | some e => simp [record, hr, publish, he, broadcast]

end Bench

inductive Script.Plain : Script → Prop
  | done (outcome : Outcome) : Plain (.done outcome)
  | invoke {a : Action} {next : Except Error Response → Script} :
      (∀ result, Plain (next result)) → Plain (.invoke a next)

theorem Call.script_plain (c : Call) {next : Except Error Response → Script}
    (h : ∀ result, (next result).Plain) : (c.script next).Plain := by
  unfold Call.script
  split
  · exact h _
  · exact .invoke fun _ => h _

namespace Demo

theorem finish_plain (result : Except Error Response) (tolerates : Error → Bool) :
    (finish result tolerates).Plain := by
  cases result <;> exact .done _

theorem markReady_plain (w : Widget) : (markReady w).Plain :=
  Call.script_plain _ fun result => finish_plain result _

theorem setUp_plain (r : Request) (w : Widget) : (setUp r w).Plain := by
  refine Call.script_plain _ fun result => ?_
  split
  · split
    · exact markReady_plain w
    · exact .done _
  · exact markReady_plain w

theorem inspect_plain (r : Request) (o : Object) : (inspect r o).Plain := by
  unfold inspect
  split
  · exact .done _
  · split
    · exact .done _
    · exact setUp_plain r _

theorem reconcile_plain (r : Request) : (reconcile r).Plain := by
  refine Call.script_plain _ fun result => ?_
  split
  · exact inspect_plain r _
  · exact .done _
  · split
    · exact Call.script_plain _ fun result => finish_plain result _
    · exact .done _

/-- What the driver does: every widget it writes is not ready. -/
inductive Op where
  | create (m : ObjectMeta) (replicas : Nat)
  | update (m : ObjectMeta) (replicas : Nat)
  | delete (r : Request)
  deriving DecidableEq, Repr

def Op.call : Op → Call
  | create m replicas => .create widgets (widgetObject m replicas false)
  | update m replicas => .update widgets (widgetObject m replicas false)
  | delete r => .delete widgets r.ns r.name

def Op.action : Op → Action
  | create m replicas => ⟨.create (widgetObject m replicas false), widgets, "", m.ns⟩
  | update m replicas => ⟨.update (widgetObject m replicas false), widgets, "", m.ns⟩
  | delete r => ⟨.delete r.name, widgets, "", r.ns⟩

theorem Op.call_action (op : Op) : op.call.action = .ok op.action := by
  cases op <;> rfl

def Op.script (op : Op) : Script := op.call.script fun result => finish result fun _ => false

def controller : Controller where
  name := "widgets"
  watches := [widgets]
  reconciler := reconciler fun _ _ => .ignore

/-- The events not published yet are those of writes whose callers have been overtaken. -/
structure Scene where
  sim : Simulation
  unsent : List WatchEvent := []
  pass : Option (Request × Script) := none

inductive Act where
  | start (order : List Resource)
  | cancel
  | join
  | drive (op : Op) (result : Except Error Response)
  | publish (e : WatchEvent)
  | route
  | enter
  | quit
  | take (r : Request)
  | ask (a : Action) (result : Except Error Response)
  | conclude (outcome : Outcome)

namespace Scene

def enact (s : Scene) (a : Action) : Scene :=
  { s with
    sim := { s.sim with bench := (s.sim.bench.enact a).2.2 }
    unsent := s.unsent ++ (s.sim.bench.enact a).2.1.toList }

def answer (s : Scene) (a : Action) : Except Error Response := (s.sim.bench.enact a).1

/-- What the manager does without touching the store; the controller ends only between two passes. -/
inductive Manages (s : Scene) : Act → Simulation → Prop
  | start {order sim} :
      s.sim.Step .none (.start order) sim .none → Manages s (.start order) sim
  | cancel : Manages s .cancel s.sim.cancel
  | join : Manages s .join s.sim.join.2
  | route {p sim p'} : s.sim.Acts p .router sim p' → Manages s .route sim
  | enter {c} :
      s.sim.controllers[0]? = some c → c.phase = .waiting → s.sim.started = true →
      Manages s .enter (s.sim.setController 0 { c with phase := .running })
  | quit {c} :
      s.sim.controllers[0]? = some c → s.pass = none → c.phase.isEnded = false →
      s.sim.cancelled = true → Manages s .quit (s.sim.endController 0 c (.ok ()))

/-- A write may be published long after it was made, and after later ones. -/
inductive Step (s : Scene) : Act → Scene → Prop
  | manage {a sim} : s.Manages a sim → Step s a { s with sim }
  | drive {op} : Step s (.drive op (s.answer op.action)) (s.enact op.action)
  | publish {earlier e later} :
      s.unsent = earlier ++ e :: later →
      Step s (.publish e)
        { s with
          sim := { s.sim with bench := s.sim.bench.broadcast e }
          unsent := earlier ++ later }
  | take {c r rest} :
      s.sim.controllers[0]? = some c → s.pass = none → c.phase = .running → c.queue = r :: rest →
      Step s (.take r)
        { s with
          sim := s.sim.setController 0 { c with queue := rest, taken := c.taken.push r }
          pass := some (r, c.reconciler.reconcile c.taken.size r) }
  | ask {r a next} :
      s.pass = some (r, .invoke a next) →
      Step s (.ask a (s.answer a)) { s.enact a with pass := some (r, next (s.answer a)) }
  | conclude {r outcome c} :
      s.sim.controllers[0]? = some c → s.pass = some (r, .done outcome) →
      Step s (.conclude outcome)
        { s with
          sim := s.sim.passed 0 (c.conclude r outcome) s.sim.bench
          pass := none }

inductive Run (s : Scene) : List Act → Scene → Prop
  | nil : Run s [] s
  | step {past s' s'' a} : Run s past s' → s'.Step a s'' → Run s (past ++ [a]) s''

theorem Run.append {s s' s'' : Scene} {past later : List Act} (h : s.Run past s')
    (h' : s'.Run later s'') : s.Run (past ++ later) s'' := by
  induction h' with
  | nil => simpa using h
  | step _ hs ih =>
    rw [← List.append_assoc]
    exact ih.step hs

theorem Run.single {s s' : Scene} {a : Act} (h : s.Step a s') : s.Run [a] s' := Run.nil.step h

def Reaches (s s' : Scene) : Prop := ∃ acts, s.Run acts s'

theorem Reaches.refl (s : Scene) : s.Reaches s := ⟨[], .nil⟩

theorem Reaches.trans {s s' s'' : Scene} (h : s.Reaches s') (h' : s'.Reaches s'') :
    s.Reaches s'' := by
  obtain ⟨past, h⟩ := h
  obtain ⟨later, h'⟩ := h'
  exact ⟨past ++ later, h.append h'⟩

theorem Manages.reaches {s : Scene} {sim : Simulation} {a : Act} (h : s.Manages a sim) :
    s.Reaches { s with sim } := ⟨[a], .single (.manage h)⟩

theorem Step.reaches {s s' : Scene} {a : Act} (h : s.Step a s') : s.Reaches s' := ⟨[a], .single h⟩

def Quiet (s : Scene) : Prop := s.unsent = [] ∧ s.pass = none ∧ s.sim.Quiet

/-- A write whose event follows at once is an `invoke`. -/
theorem invoke_reaches {sim : Simulation} {depth : Nat} {a : Action} {result : Except Error Response}
    {b : Bench} (hb : sim.bench.chain = []) (h : sim.bench.invoke depth a = some (result, b))
    (pass : Option (Request × Script)) :
    result = (sim.bench.enact a).1 ∧ b.chain = [] ∧
      Reaches { ({ sim, pass } : Scene).enact a with pass }
        { sim := { sim with bench := b }, pass } := by
  cases depth with
  | zero => cases h
  | succ depth =>
    rw [Bench.invoke_unreacted hb] at h
    obtain ⟨rfl, rfl⟩ := Prod.mk.inj (Option.some.inj h)
    refine ⟨rfl, ?_, ?_⟩
    · cases (sim.bench.enact a).2.1 with
      | none => exact (Bench.enact_chain ..).trans hb
      | some e => exact (Bench.enact_chain ..).trans hb
    · unfold enact
      cases he : (sim.bench.enact a).2.1 with
      | none => exact .refl _
      | some e =>
        let s : Scene :=
          { sim := { sim with bench := (sim.bench.enact a).2.2 }, unsent := [e], pass }
        have hs : s.unsent = [] ++ e :: [] := rfl
        exact (Step.publish hs).reaches

theorem pass_reaches {sim : Simulation} {depth : Nat} {r : Request} {script : Script}
    {outcome : Outcome} {b : Bench} (hs : script.Plain) (hb : sim.bench.chain = [])
    (h : script.run (Bench.invoke depth) sim.bench = some (outcome, b)) :
    b.chain = [] ∧
      Reaches { sim, pass := some (r, script) }
        { sim := { sim with bench := b }, pass := some (r, .done outcome) } := by
  induction hs generalizing sim with
  | done o =>
    obtain ⟨rfl, rfl⟩ := Prod.mk.inj (Option.some.inj h)
    exact ⟨hb, .refl _⟩
  | @invoke a next _ ih =>
    simp only [Script.run] at h
    cases hi : sim.bench.invoke depth a with
    | none => simp [hi] at h
    | some x =>
      obtain ⟨result, b'⟩ := x
      obtain ⟨rfl, hb', hpub⟩ := invoke_reaches hb hi (some (r, next (sim.bench.enact a).1))
      simp only [hi] at h
      have hnext : ({ sim with bench := b' } : Simulation).bench.chain = [] := hb'
      obtain ⟨hc, hrest⟩ := ih (sim.bench.enact a).1 hnext h
      have hask := Step.ask (s := { sim, pass := some (r, .invoke a next) }) rfl
      exact ⟨hc, hask.reaches.trans (hpub.trans hrest)⟩

end Scene

def Alone (s : Simulation) : Prop :=
  ∃ c, s.controllers = [c] ∧ c.watches = controller.watches ∧ c.reconciler = controller.reconciler

namespace Alone

variable {s s' : Simulation} {c c' : Controller}

theorem of_controllers (h : Alone s) (hs : s'.controllers = s.controllers) : Alone s' := by
  obtain ⟨c, hc, hw⟩ := h
  exact ⟨c, hs.trans hc, hw⟩

theorem eq_of_get {i : Nat} (h : Alone s) (hc : s.controllers[i]? = some c) :
    i = 0 ∧ s.controllers = [c] ∧ c.watches = controller.watches ∧
      c.reconciler = controller.reconciler := by
  obtain ⟨d, hd, hw⟩ := h
  rw [hd] at hc
  obtain ⟨rfl, rfl⟩ : i = 0 ∧ d = c := by
    cases i with
    | zero => exact ⟨rfl, by simpa using hc⟩
    | succ i => simp at hc
  exact ⟨rfl, hd, hw⟩

theorem setController {i : Nat} (h : Alone s) (hc : s.controllers[i]? = some c)
    (hw : c'.watches = c.watches) (hr : c'.reconciler = c.reconciler) :
    Alone (s.setController i c') := by
  obtain ⟨rfl, hs, hcw, hcr⟩ := h.eq_of_get hc
  refine ⟨c', ?_, hw.trans hcw, hr.trans hcr⟩
  rw [Simulation.setController, hs]
  rfl

theorem routerMove (h : Alone s) (hm : s.RouterMove s') : Alone s' := by
  cases hm with
  | finish | pass | fail | block | found | list | leave | event => exact h.of_controllers rfl
  | @send d i rest c _ _ hc =>
    have hset : Alone (s.setController i { c with queue := c.queue ++ [d.request] }) :=
      h.setController hc rfl rfl
    exact hset.of_controllers rfl

end Alone

theorem conclude_eq {c : Controller} (h : c.reconciler = controller.reconciler) (r : Request)
    (outcome : Outcome) : c.conclude r outcome = c := by
  unfold Controller.conclude
  rw [h]
  cases outcome.error? <;> rfl

inductive Played : Move → Prop
  | start (order : List Resource) : Played (.start order)
  | cancel : Played .cancel
  | join : Played .join
  | drive (op : Op) : Played (.call op.script)
  | task (t : Task) : Played (.task t)

namespace Scene

theorem drive_reaches {sim : Simulation} {depth : Nat} {op : Op} {outcome : Outcome} {b : Bench}
    (hb : sim.bench.chain = []) (pass : Option (Request × Script))
    (h : op.script.run (Bench.invoke depth) sim.bench = some (outcome, b)) :
    b.chain = [] ∧ Reaches { sim, pass } { sim := { sim with bench := b }, pass } := by
  unfold Op.script Call.script at h
  simp only [op.call_action, Script.run] at h
  cases hi : sim.bench.invoke depth op.action with
  | none => simp [hi] at h
  | some x =>
    obtain ⟨result, b'⟩ := x
    obtain ⟨-, hb', hpub⟩ := invoke_reaches hb hi pass
    simp only [hi] at h
    have hdone : b' = b := by
      cases hr : result.bind op.call.conclude with
      | error e =>
        rw [hr] at h
        exact congrArg Prod.snd (Option.some.inj h)
      | ok response =>
        rw [hr] at h
        exact congrArg Prod.snd (Option.some.inj h)
    have hdrive : Step { sim, pass } (.drive op _) _ := .drive
    exact hdone ▸ ⟨hb', hdrive.reaches.trans hpub⟩

theorem pass_at_one_go_reaches {s : Simulation} {c : Controller} {r : Request} {rest : List Request}
    {depth : Nat} {outcome : Outcome} {b : Bench} (hs : s.controllers = [c])
    (hr : c.reconciler = controller.reconciler) (hb : s.bench.chain = []) (hphase : c.phase = .running)
    (hq : c.queue = r :: rest)
    (hrun : (c.reconciler.reconcile c.taken.size r).run (Bench.invoke depth) s.bench =
      some (outcome, b)) :
    b.chain = [] ∧ Reaches { sim := s }
      { sim := s.passed 0
          (({ c with queue := rest, taken := c.taken.push r } : Controller).conclude r outcome) b } := by
  have hi : s.controllers[0]? = some c := by rw [hs]; rfl
  have htake := Step.take (s := { sim := s }) hi rfl hphase hq
  generalize ({ c with queue := rest, taken := c.taken.push r } : Controller) = c' at htake ⊢
  have hplain : (c.reconciler.reconcile c.taken.size r).Plain := by
    rw [hr]
    exact reconcile_plain r
  have hb₀ : (s.setController 0 c').bench.chain = [] := hb
  obtain ⟨hb', hpass⟩ := pass_reaches (r := r) hplain hb₀ hrun
  have hi' : (s.setController 0 c').controllers[0]? = some c' := by
    rw [Simulation.setController, hs]
    rfl
  let last : Scene :=
    { sim := { s.setController 0 c' with bench := b }, pass := some (r, .done outcome) }
  have hend := Step.conclude (s := last) hi' rfl
  have hsame : last.sim.passed 0 (c'.conclude r outcome) b = s.passed 0 (c'.conclude r outcome) b := by
    simp [last, Simulation.passed, Simulation.setController]
  rw [← hsame]
  exact ⟨hb', htake.reaches.trans (hpass.trans hend.reaches)⟩

/-- Nobody but the demo's controller is there to react or to reconcile. -/
structure Solo (s : Simulation) (p : Interrupted) : Prop where
  alone : Alone s
  unreacted : s.bench.chain = []
  plain : ∀ r script, p 0 = some (r, script) → script.Plain

variable {s s' t : Simulation} {p p' : Interrupted} {c : Controller}

theorem Solo.of_idle (ha : Alone s) (hb : s.bench.chain = []) (hp : p 0 = none) : Solo s p where
  alone := ha
  unreacted := hb
  plain r script h := by
    rw [hp] at h
    cases h

theorem Solo.same (h : Solo s p) (hc : s'.controllers = s.controllers)
    (hb : s'.bench.chain = s.bench.chain) : Solo s' p where
  alone := h.alone.of_controllers hc
  unreacted := hb.trans h.unreacted
  plain := h.plain

theorem turn_reaches {depth : Nat} {seen : Bool} (h : Solo s p) (hp : p 0 = none)
    (hi : s.controllers[0]? = some c) (hseen : seen = true → s.cancelled = true)
    (hcan : ({ s with cancelled := seen } : Simulation).canRun (.controller 0) = true)
    (ht : Simulation.Turn depth { s with cancelled := seen } 0 c t) :
    Solo { t with cancelled := s.cancelled } p ∧
      Reaches { sim := s } { sim := { t with cancelled := s.cancelled } } := by
  obtain ⟨-, hs, -, hr⟩ := h.alone.eq_of_get hi
  cases ht with
  | enter hphase hn =>
    obtain rfl : seen = false := hn
    have hstart : s.started = true := by simpa [Simulation.canRun, hi, hphase] using hcan
    have halone : Alone (s.setController 0 { c with phase := .running }) :=
      h.alone.setController hi rfl rfl
    exact ⟨.of_idle (halone.of_controllers rfl) h.unreacted hp,
      Manages.reaches (.enter hi hphase hstart)⟩
  | quit he hn =>
    obtain rfl : seen = true := hn
    have halone : Alone (s.setController 0 (c.stop (.ok ()))) := h.alone.setController hi rfl rfl
    exact ⟨.of_idle (halone.of_controllers rfl) h.unreacted hp,
      Manages.reaches (.quit hi rfl he (hseen rfl))⟩
  | @pass r rest outcome bench hphase hn hq hrun =>
    obtain ⟨hb, hpass⟩ := pass_at_one_go_reaches hs hr h.unreacted hphase hq hrun
    have halone : Alone (s.setController 0 { c with queue := rest, taken := c.taken.push r }) :=
      h.alone.setController hi rfl rfl
    rw [conclude_eq (c := { c with queue := rest, taken := c.taken.push r }) hr] at hpass ⊢
    exact ⟨.of_idle (halone.of_controllers rfl) hb hp, hpass⟩

theorem take_reaches {r : Request} {rest : List Request} (h : Solo s p)
    (hi : s.controllers[0]? = some c) (hphase : c.phase = .running) (hq : c.queue = r :: rest) :
    let s' := s.setController 0 { c with queue := rest, taken := c.taken.push r }
    let pass := some (r, c.reconciler.reconcile c.taken.size r)
    Solo s' (Function.update p 0 pass) ∧ Reaches { sim := s } { sim := s', pass } := by
  intro s' pass
  obtain ⟨-, -, -, hr⟩ := h.alone.eq_of_get hi
  refine ⟨⟨h.alone.setController hi rfl rfl, h.unreacted, fun r' script hpass => ?_⟩,
    (Step.take (s := { sim := s }) hi rfl hphase hq).reaches⟩
  rw [Function.update_self] at hpass
  obtain ⟨-, rfl⟩ := Prod.mk.inj (Option.some.inj hpass)
  rw [hr]
  exact reconcile_plain r

theorem ask_reaches {depth : Nat} {r : Request} {script script' : Script} {b : Bench} (h : Solo s p)
    (hp : p 0 = some (r, script))
    (ha : script.advance (Bench.invoke depth) s.bench = some (script', b)) :
    Solo { s with bench := b } (Function.update p 0 (some (r, script'))) ∧
      Reaches { sim := s, pass := some (r, script) }
        { sim := { s with bench := b }, pass := some (r, script') } := by
  cases h.plain r script hp with
  | done outcome => cases ha
  | @invoke a next hnext =>
    obtain ⟨⟨result, b'⟩, hinvoke, hrest⟩ := Option.map_eq_some_iff.1 ha
    cases hrest
    obtain ⟨rfl, hb, hpub⟩ := invoke_reaches h.unreacted hinvoke (some (r, next result))
    refine ⟨⟨h.alone.of_controllers rfl, hb, fun r' script hpass => ?_⟩, ?_⟩
    · rw [Function.update_self] at hpass
      cases hpass
      exact hnext _
    · have hask := Step.ask (s := { sim := s, pass := some (r, .invoke a next) }) rfl
      exact hask.reaches.trans hpub

theorem conclude_reaches {r : Request} {outcome : Outcome} (h : Solo s p)
    (hi : s.controllers[0]? = some c) :
    Solo (s.passed 0 (c.conclude r outcome) s.bench) (Function.update p 0 none) ∧
      Reaches { sim := s, pass := some (r, .done outcome) }
        { sim := s.passed 0 (c.conclude r outcome) s.bench } := by
  obtain ⟨-, -, -, hr⟩ := h.alone.eq_of_get hi
  have hend := Step.conclude (s := { sim := s, pass := some (r, .done outcome) }) hi rfl
  have halone : Alone (s.setController 0 c) := h.alone.setController hi rfl rfl
  rw [conclude_eq hr] at hend ⊢
  exact ⟨.of_idle (halone.of_controllers rfl) h.unreacted (Function.update_self ..), hend.reaches⟩

theorem acts_reaches {task : Task} (h : Solo s p) (ha : s.Acts p task s' p') :
    Solo s' p' ∧ Reaches { sim := s, pass := p 0 } { sim := s', pass := p' 0 } := by
  cases task with
  | router =>
    have hm := ha.router.2
    have hsame : p' = p := by cases ha <;> rfl
    have hchain : s'.bench.chain = s.bench.chain := by cases hm <;> rfl
    refine ⟨⟨h.alone.routerMove hm, hchain.trans h.unreacted, hsame ▸ h.plain⟩, ?_⟩
    rw [hsame]
    exact Manages.reaches (s := { sim := s, pass := p 0 }) (.route ha)
  | controller i =>
    obtain ⟨c, hi, -⟩ := ha.controller
    obtain ⟨rfl, -⟩ := h.alone.eq_of_get hi
    cases ha with
    | heed hp hcan hs =>
      obtain ⟨d, hd, ht⟩ := Simulation.controller_runs hcan hs
      have hsame : { s' with cancelled := s.cancelled } = s' := by cases ht <;> rfl
      have hp : p 0 = none := hp 0 rfl
      rw [hp, ← hsame]
      exact turn_reaches h hp hd id hcan ht
    | overlook hp hcan hs =>
      obtain ⟨d, hd, ht⟩ := Simulation.controller_runs hcan hs
      have hp : p 0 = none := hp 0 rfl
      have hseen : false = true → s.cancelled = true := nofun
      rw [hp]
      exact turn_reaches h hp hd hseen hcan ht
    | take hc hp hphase hq =>
      rw [hp, Function.update_self]
      exact take_reaches h hc hphase hq
    | ask _ hp hadvance =>
      rw [hp, Function.update_self]
      exact ask_reaches h hp hadvance
    | conclude hc _ hp =>
      rw [hp, Function.update_self]
      exact conclude_reaches h hc

/-- Whatever the manager and the driver do, at one go or request by request, is done in a scene too. -/
theorem reaches_of_step {m : Move} (h : Solo s p) (hp : Played m) (hs : s.Step p m s' p') :
    Solo s' p' ∧ Reaches { sim := s, pass := p 0 } { sim := s', pass := p' 0 } := by
  cases hs with
  | manage | register | arrange => cases hp
  | start hok hperm =>
    have hstart : s.Step .none _ _ .none := .start hok hperm
    obtain ⟨-, rfl⟩ := Simulation.start_ok hok
    exact ⟨h.same rfl rfl, Manages.reaches (s := { sim := s, pass := p 0 }) (.start hstart)⟩
  | cancel => exact ⟨h.same rfl rfl, Manages.reaches (s := { sim := s, pass := p 0 }) .cancel⟩
  | join => exact ⟨h.same rfl rfl, Manages.reaches (s := { sim := s, pass := p 0 }) .join⟩
  | call hrun =>
    cases hp with
    | drive op =>
      obtain ⟨hb, hreach⟩ := drive_reaches h.unreacted (p 0) hrun
      exact ⟨⟨h.alone.of_controllers rfl, hb, h.plain⟩, hreach⟩
  | task ha => exact acts_reaches h ha

theorem reaches_of_replay {depth : Nat} {moves : List Move} {past past' : History} {s s' : Simulation}
    (ha : Alone s) (hb : s.bench.chain = []) (hm : ∀ m ∈ moves, Played m)
    (h : History.replay depth moves past s = some (past', s')) : Reaches { sim := s } { sim := s' } := by
  have hsolo : Solo s .none := .of_idle ha hb rfl
  clear ha hb
  induction moves generalizing past s with
  | nil =>
    cases h
    exact .refl _
  | cons m rest ih =>
    obtain ⟨next, hn, hrest⟩ := Option.bind_eq_some_iff.1 h
    obtain ⟨hsolo', hfirst⟩ :=
      reaches_of_step hsolo (hm m List.mem_cons_self) (Simulation.step_of_perform hn)
    exact hfirst.trans (ih (fun m' hm' => hm m' (List.mem_cons_of_mem m hm')) hrest hsolo')

end Scene

end Demo

end ControllerBench
