import ControllerBench.Call
import ControllerBench.TestCase

namespace ControllerBench

structure ControllerLog where
  requests : List Request
  errors : List (Request × Error)
  deriving DecidableEq, Repr

def Controller.log (c : Controller) : ControllerLog := ⟨c.taken.toList, c.noted.toList⟩

def Schedule.logs (t : Schedule) : List (String × ControllerLog) :=
  (t.sim.controllers.filter fun c => !c.taken.isEmpty).map fun c => (c.name, c.log)

inductive ReactorState where
  | verifier (fired : Bool) (pending : String) (located : Bool)
  | capture (filter : Filter) (captured : List Action)
  | inOrder
  | override (filter : Filter) (reacted : Nat)
  deriving DecidableEq, Repr

def Reactor.state {S : Type} : Reactor S → ReactorState
  | verifier v _ => .verifier v.fired v.pending v.located
  | assertion (.capture filter _ seen) => .capture filter seen.toList
  | assertion (.inOrder ..) => .inOrder
  | override o => .override o.filter o.reacted

namespace Session

inductive Step where
  | call (c : Call)
  | actions
  | describe
  | seed (resource : Resource) (o : Object)
  | find (k : Key)
  | stored (resource : Resource) (ns : String)
  | store (resource : Resource) (ns : String) (o : Object)
  | replace (resource : Resource) (ns : String) (o : Object)
  | erase (k : Key)
  | isEmpty
  | install (label : String) (reactor : Option (Reactor Script)) (placement : Placement)
  | remove (label : String)
  | inject (label scope : String)
  | offer (label : String) (action : Action) (force : Bool)
  | state (label : String)
  | judge (label : String)
  | wait (label : String) (timeout : Duration)
  | failures
  | report
  | runEvent (event : TestEvent) (config : Config)
  | manage (config : Config)
  | register (registration : Registration)
  | start
  | stop
  | settle
  | logs

inductive Answer where
  | done
  | result (r : Except Error Response)
  | status (r : Except Error Unit)
  | actions (as : List Action)
  | description (b : Bench)
  | flag (b : Bool)
  | offered (handled : Bool) (outcome : Option Outcome) (state : ReactorState)
  | state (s : ReactorState)
  | waited (timedOut : Bool)
  | failures (fs : List Failure)
  | report (r : Report)
  | managed (r : Except Error Config)
  | logs (ls : List (String × ControllerLog))

def reactor? (t : Schedule) (label : String) : Option (Nat × Reactor Script) :=
  (t.bench.labels.lookup label).bind fun l => (t.bench.reactors[l.slot]?).map fun r => (l.slot, r)

def call (fuel : Nat) (t : Schedule) (c : Call) : Except Fault (Except Error Response × Schedule) :=
  match c.action with
  | .error e => .ok (.error e, t)
  | .ok a =>
    match t.invoke fuel a with
    | .error fault => .error fault
    | .ok (result, t) => .ok (result.bind c.conclude, t)

def setTracker (t : Schedule) (tracker : Tracker) : Schedule := t.setBench { t.bench with tracker }

def write (t : Schedule) (o : Object) (r : Except Error Tracker) : Answer × Schedule :=
  match r with
  | .ok tracker => (.result (.ok (.object o)), setTracker t tracker)
  | .error e => (.result (.error e), t)

def command (t : Schedule) (r : Except Error Tracker) : Answer × Schedule :=
  match r with
  | .ok tracker => (.status (.ok ()), setTracker t tracker)
  | .error e => (.status (.error e), t)

/-- The reaction may put another reactor under the label; the state shown is what it holds then. -/
def offer (fuel : Nat) (t : Schedule) (label : String) (a : Action) (force : Bool) :
    Except Fault (Answer × Schedule) :=
  match reactor? t label with
  | none => .ok (.done, t)
  | some (slot, r) =>
    let handled := r.handles a
    if handled || force then
      match t.bench.react (Bench.invoke fuel) slot a with
      | none => .error .endless
      | some (outcome, b) =>
        let t := t.setBench b
        let held := ((reactor? t label).map (·.2)).getD r
        .ok (.offered handled (some outcome) held.state, t)
    else .ok (.offered handled none r.state, t)

def added (before after : Schedule) : Answer :=
  .failures (after.bench.failures.toList.drop before.bench.failures.size)

def step (fuel : Nat) (t : Schedule) : Step → Except Fault (Answer × Schedule)
  | .call c => (call fuel t c).map fun r => (.result r.1, r.2)
  | .actions => .ok (.actions t.bench.log.toList, t)
  | .describe => .ok (.description t.bench, t)
  | .seed resource o => .ok (command t (t.bench.tracker.add resource o))
  | .find k => .ok (.result ((t.bench.tracker.get k).map .object), t)
  | .stored resource ns => .ok (.result (.ok (.list (t.bench.tracker.list resource ns))), t)
  | .store resource ns o => .ok (write t o (t.bench.tracker.create resource ns o))
  | .replace resource ns o => .ok (write t o (t.bench.tracker.update resource ns o))
  | .erase k => .ok (command t (t.bench.tracker.delete k))
  | .isEmpty => .ok (.flag t.bench.tracker.isEmpty, t)
  | .install label reactor placement =>
    .ok (.done, t.setBench (t.bench.install label reactor placement))
  | .remove label => .ok (.flag (t.bench.remove label).1, t.setBench (t.bench.remove label).2)
  | .inject label scope =>
    match reactor? t label with
    | some (slot, _) =>
      .ok (.done, t.setBench (t.bench.inject slot (t.bench.reporter.within scope)))
    | none => .ok (.done, t)
  | .offer label a force => offer fuel t label a force
  | .state label =>
    match reactor? t label with
    | some (_, r) => .ok (.state r.state, t)
    | none => .ok (.done, t)
  | .judge label =>
    match reactor? t label with
    | some (slot, _) =>
      let after := t.setBench (Bench.judge t.bench.reporter t.bench slot)
      .ok (added t after, after)
    | none => .ok (.failures [], t)
  | .wait label timeout =>
    match reactor? t label with
    | some (slot, _) => (t.wait fuel slot timeout).map fun r => (.waited r.1, r.2)
    | none => .ok (.done, t)
  | .failures => .ok (.failures t.bench.failures.toList, t)
  | .report => .ok (.report (t.bench.reporter.report t.bench.failures.toList), t)
  | .runEvent e config => (e.run fuel t.bench.reporter config t).map fun after => (added t after, after)
  | .manage config => .ok (.managed ((t.manage config).1.map fun _ => config), (t.manage config).2)
  | .register registration => (registration.run t).map fun r => (.status r.1, r.2)
  | .start => .ok (.status t.start.1, t.start.2)
  | .stop => (t.stop fuel).map fun r => (.status r.1, r.2)
  | .settle => (t.settle fuel).map fun t => (.logs t.logs, t)
  | .logs => .ok (.logs t.logs, t)

structure Observation where
  answer : Answer
  objects : Nat
  actions : Nat
  failures : Nat

def observe (answer : Answer) (t : Schedule) : Observation :=
  ⟨answer, t.bench.tracker.size, t.bench.log.size, t.bench.failures.size⟩

def run (fuel : Nat) : List Step → Schedule → Except Fault (List Observation)
  | [], _ => .ok []
  | s :: rest, t =>
    match step fuel t s with
    | .error fault => .error fault
    | .ok (answer, t) => (run fuel rest t).map (observe answer t :: ·)

end Session

end ControllerBench
