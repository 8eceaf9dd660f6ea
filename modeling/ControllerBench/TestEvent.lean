import ControllerBench.Schedule

namespace ControllerBench

structure TestEvent where
  name : String
  trigger : Script
  verifier : Option Verifier := none
  assertions : List Assertion := []
  reactors : List (Reactor Script) := []
  timeout : Option Duration := none

namespace Bench

def employ (b : Bench) (r : Reactor Script) : Bench := (b.keep r).attach b.reactors.size false

def judge (r : Reporter) (b : Bench) (slot : Nat) : Bench :=
  match b.reactors[slot]? with
  | some (.assertion w) =>
    match w.complaint? with
    | some message => b.reportError r message .declared
    | none => b
  | _ => b

end Bench

namespace TestEvent

/-- Observers come first, so that they also see the actions an override claims. -/
def chain (e : TestEvent) (r : Reporter) : List (Reactor Script) :=
  (e.verifier.map fun v => .verifier (v.inject r) false).toList ++ e.assertions.map .assertion ++
    e.reactors

def timeoutMessage (timeout : Duration) (v : Verifier) : String :=
  s!"timed out after {timeout.text} waiting for {v.pending}"

def timeoutSite (v : Verifier) : Site := if v.located then .declared else .harness

def awaitVerifier (fuel : Nat) (timeout : Duration) (r : Reporter) (slot : Nat) (t : Schedule) :
    Except Fault Schedule :=
  match t.wait fuel slot timeout with
  | .error fault => .error fault
  | .ok (false, t) => .ok t
  | .ok (true, t) =>
    match t.bench.reactors[slot]? with
    | some (.verifier v _) =>
      .ok (t.setBench (t.bench.reportError r (timeoutMessage timeout v) (timeoutSite v)))
    | _ => .ok t

def follow (fuel : Nat) (e : TestEvent) (timeout : Duration) (r : Reporter) (slot : Nat)
    (outcome : Outcome) (t : Schedule) : Except Fault Schedule :=
  match outcome.error?, e.verifier with
  | some error, _ =>
    .ok (t.setBench (t.bench.reportError r s!"event trigger failed: {error.message}" .harness))
  | none, some _ => awaitVerifier fuel timeout r slot t
  | none, none => .ok t

def install (e : TestEvent) (r : Reporter) (t : Schedule) : Schedule :=
  t.setBench ((e.chain r).foldl Bench.employ t.bench)

/-- An event up to the moment at which its assertions are judged; `slot` is the first one it took. -/
def play (fuel : Nat) (e : TestEvent) (r : Reporter) (config : Config) (slot : Nat) (t : Schedule) :
    Except Fault Schedule :=
  match t.drive fuel e.trigger with
  | .error fault => .error fault
  | .ok (outcome, t) => e.follow fuel (e.timeout.getD config.defaultTimeout) r slot outcome t

def assertionSlots (e : TestEvent) (slot : Nat) : List Nat :=
  List.range' (slot + e.verifier.toList.length) e.assertions.length

def judge (e : TestEvent) (r : Reporter) (slot : Nat) (b : Bench) : Bench :=
  (e.assertionSlots slot).foldl (Bench.judge r) b

def uninstall (e : TestEvent) (r : Reporter) (issued : Nat) (b : Bench) : Bench :=
  (List.range' issued (e.chain r).length).foldl Bench.detach b

def run (fuel : Nat) (e : TestEvent) (reporter : Reporter) (config : Config) (t : Schedule) :
    Except Fault Schedule :=
  let r := reporter.within e.name
  let slot := t.bench.reactors.size
  match e.play fuel r config slot (e.install r t) with
  | .error fault => .error fault
  | .ok after => .ok (after.setBench (e.uninstall r t.bench.issued (e.judge r slot after.bench)))

end TestEvent

end ControllerBench
