import ControllerBench.TestEvent

namespace ControllerBench

inductive Registration where
  | controller (name : String) (watches : List Resource) (reconciler : Reconciler)
  | start
  | refuse (error : Error)

def Registration.run (t : Schedule) : Registration → Except Fault (Except Error Unit × Schedule)
  | controller name watches reconciler => t.addController name watches reconciler
  | start => .ok t.start
  | refuse error => .ok (.error error, t)

structure TestCase where
  name : String
  config : Config := {}
  resources : List (Resource × Object) := []
  registrations : List Registration := []
  events : List TestEvent := []

namespace TestCase

def reporter (c : TestCase) : Reporter := ⟨c.name⟩

/-- Seeding publishes nothing, and an object without metadata cannot be seeded. -/
def seed (r : Reporter) (b : Bench) (resource : Resource) (o : Object) : Bench :=
  match b.tracker.add resource o with
  | .ok tracker => { b with tracker }
  | .error e => b.reportError r s!"failed to seed {resource.text}: {e.message}" .harness

def register : List Registration → Schedule → Except Fault (Option Error × Schedule)
  | [], t => .ok (none, t)
  | registration :: rest, t =>
    match registration.run t with
    | .error fault => .error fault
    | .ok (.error e, t) => .ok (some e, t)
    | .ok (.ok (), t) => register rest t

def runEvents (fuel : Nat) (r : Reporter) (config : Config) :
    List TestEvent → Schedule → Except Fault Schedule
  | [], t => .ok t
  | e :: rest, t =>
    match e.run fuel r config t with
    | .error fault => .error fault
    | .ok t => runEvents fuel r config rest t

def blame (r : Reporter) (what : String) (e : Error) (t : Schedule) : Schedule :=
  t.setBench (t.bench.reportError r s!"{what}: {e.message}" .harness)

def shutDown (fuel : Nat) (r : Reporter) (t : Schedule) : Except Fault Schedule :=
  match t.stop fuel with
  | .error fault => .error fault
  | .ok (.ok (), t) => .ok t
  | .ok (.error e, t) => .ok (blame r "controller manager failed" e t)

def setUp (c : TestCase) : Schedule :=
  let start := Schedule.ofReporter c.reporter
  let bench := c.resources.foldl (fun b r => seed c.reporter b r.1 r.2) start.bench
  { start with sim := { start.sim with bench, managed := true, config := c.config } }

/-- A registration or a start that fails ends the case before any event. -/
def run (fuel : Nat) (c : TestCase) : Except Fault Schedule :=
  match register c.registrations c.setUp with
  | .error fault => .error fault
  | .ok (some e, t) => .ok (blame c.reporter "failed to add controller" e t)
  | .ok (none, t) =>
    match t.start with
    | (.error e, t) => .ok (blame c.reporter "failed to start the manager" e t)
    | (.ok (), t) =>
      match runEvents fuel c.reporter c.config c.events t with
      | .error fault => .error fault
      | .ok t => shutDown fuel c.reporter t

def report (c : TestCase) (t : Schedule) : Report := c.reporter.report t.bench.failures.toList

end TestCase

end ControllerBench
