import ControllerBench.Fault
import ControllerBench.Simulation

/-!
The schedule: tasks run one at a time, each until it has to wait, in the order in which they became
able to run. Whoever drives the simulation goes on only when all tasks are at rest.
-/

namespace ControllerBench

structure Schedule where
  sim : Simulation
  ready : List Task := []

namespace Schedule

def ofReporter (r : Reporter) : Schedule := { sim := { bench := { reporter := r } } }

def bench (t : Schedule) : Bench := t.sim.bench

def wake (t : Schedule) : Schedule :=
  { t with ready := t.ready ++ t.sim.tasks.filter fun k => t.sim.canRun k && !t.ready.contains k }

def setBench (t : Schedule) (b : Bench) : Schedule :=
  wake { t with sim := { t.sim with bench := b } }

def settleWithin (depth : Nat) : Nat → Schedule → Option Schedule
  | 0, _ => none
  | fuel + 1, t =>
    match t.ready with
    | [] => some t
    | task :: rest =>
      if t.sim.canRun task then
        match t.sim.step depth task with
        | none => none
        | some sim => settleWithin depth fuel (wake { t with sim })
      else settleWithin depth fuel { t with ready := rest }

def settle (fuel : Nat) (t : Schedule) : Except Fault Schedule :=
  match t.settleWithin fuel fuel with
  | some t => .ok t
  | none => .error .endless

/-- A wait of some length lets all tasks come to rest, a wait of none lets nothing happen. -/
def sleep (fuel : Nat) (length : Duration) (t : Schedule) : Except Fault Schedule :=
  if length.nanos = 0 then .ok t else t.settle fuel

def invoke (fuel : Nat) (t : Schedule) (a : Action) :
    Except Fault (Except Error Response × Schedule) :=
  match t.bench.invoke fuel a with
  | some (result, b) => .ok (result, t.setBench b)
  | none => .error .endless

/-- Runs a script from outside of all tasks: its pauses let them run. -/
def drive (fuel : Nat) : Script → Schedule → Except Fault (Outcome × Schedule)
  | .done outcome, t => .ok (outcome, t)
  | .invoke action next, t =>
    match t.invoke fuel action with
    | .ok (result, t) => drive fuel (next result) t
    | .error fault => .error fault
  | .install label reactor placement next, t =>
    drive fuel next (t.setBench (t.bench.install label reactor placement))
  | .remove label next, t =>
    drive fuel (next (t.bench.remove label).1) (t.setBench (t.bench.remove label).2)
  | .pause next, t =>
    match t.settle fuel with
    | .ok t => drive fuel next t
    | .error fault => .error fault

def manage (t : Schedule) (config : Config) : Except Error Unit × Schedule :=
  match t.sim.manage config with
  | .ok sim => (.ok (), { t with sim })
  | .error e => (.error e, t)

/-- A controller is ready from the moment it is added, even though it has nothing to do yet. -/
def addController (t : Schedule) (name : String) (watches : List Resource)
    (reconciler : Reconciler) : Except Fault (Except Error Unit × Schedule) :=
  if !t.sim.started && t.sim.config.queueSize == 0 then .error .noRoom
  else
    match t.sim.addController name watches reconciler with
    | .ok sim => .ok (.ok (), ⟨sim, t.ready ++ [.controller t.sim.controllers.length]⟩)
    | .error e => .ok (.error e, t)

/-- The router lines up before the controllers that were waiting for the start. -/
def start (t : Schedule) : Except Error Unit × Schedule :=
  match t.sim.start with
  | .ok sim => (.ok (), wake ⟨sim, t.ready ++ [.router]⟩)
  | .error e => (.error e, t)

/--
Waits as configured, cancels the tasks, and answers with the first error one of them has ended with that
no earlier stop has answered with.
-/
def stop (fuel : Nat) (t : Schedule) : Except Fault (Except Error Unit × Schedule) :=
  match t.sleep fuel t.sim.config.sleepOnShutdown with
  | .error fault => .error fault
  | .ok t =>
    let t := wake { t with sim := t.sim.cancel }
    match t.sim.join with
    | (.error e, sim) => .ok (.error e, { t with sim })
    | (.ok (), sim) =>
      match settle fuel { t with sim } with
      | .error fault => .error fault
      | .ok t => .ok (t.sim.join.1, { t with sim := t.sim.join.2 })

/-- Waits for a verifier until it fires or the time is over; true if it has not fired by then. -/
def wait (fuel : Nat) (t : Schedule) (slot : Nat) (timeout : Duration) :
    Except Fault (Bool × Schedule) :=
  match t.bench.reactors[slot]? with
  | some (.verifier v waited) =>
    if waited || v.fired then
      .ok (!v.fired, t.setBench (t.bench.setReactor slot (.verifier v true)))
    else
      match (t.setBench (t.bench.setReactor slot (.verifier v true))).sleep fuel timeout with
      | .error fault => .error fault
      | .ok t =>
        match t.bench.reactors[slot]? with
        | some (.verifier v _) => .ok (!v.fired, t)
        | _ => .ok (false, t)
  | _ => .ok (false, t)

end Schedule

end ControllerBench
