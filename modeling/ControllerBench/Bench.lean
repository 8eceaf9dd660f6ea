import ControllerBench.Script
import ControllerBench.Store.Tracker
import ControllerBench.Store.Watch

namespace ControllerBench

/-- One place of the chain; the same reactor may hold several. -/
structure Installation where
  id : Nat
  slot : Nat
  deriving DecidableEq, Repr, Inhabited

/-- What a label remembers: its reactor and the installation made last under it. -/
structure Label where
  slot : Nat
  installation : Option Nat
  deriving DecidableEq, Repr, Inhabited

structure Bench where
  reporter : Reporter
  tracker : Tracker := .empty
  log : Array Action := #[]
  events : Array WatchEvent := #[]
  reactors : Array (Reactor Script) := #[]
  chain : List Installation := []
  issued : Nat := 0
  labels : List (String × Label) := []
  failures : Array Failure := #[]

namespace Bench

def report (b : Bench) (failures : List Failure) : Bench :=
  { b with failures := b.failures ++ failures.toArray }

def reportError (b : Bench) (r : Reporter) (message : String) (site : Site) : Bench :=
  b.report [r.failure message site]

def record (b : Bench) (a : Action) : Bench := { b with log := b.log.push a }

def keep (b : Bench) (r : Reactor Script) : Bench := { b with reactors := b.reactors.push r }

def setReactor (b : Bench) (slot : Nat) (r : Reactor Script) : Bench :=
  { b with reactors := b.reactors.setIfInBounds slot r }

def attach (b : Bench) (slot : Nat) (front : Bool) : Bench :=
  let entry : Installation := ⟨b.issued, slot⟩
  { b with
    chain := if front then entry :: b.chain else b.chain ++ [entry]
    issued := b.issued + 1 }

def attached (b : Bench) (id : Nat) : Bool := b.chain.any (·.id == id)

def detach (b : Bench) (id : Nat) : Bench := { b with chain := b.chain.filter (·.id != id) }

def inject (b : Bench) (slot : Nat) (r : Reporter) : Bench :=
  match b.reactors[slot]? with
  | some (.verifier v waited) => b.setReactor slot (.verifier (v.inject r) waited)
  | _ => b

def place (b : Bench) (label : String) (slot : Nat) (placement : Placement) : Bench :=
  let b :=
    match placement.scope with
    | some scope => b.inject slot (b.reporter.within scope)
    | none => b
  if placement.idle then
    let last := (b.labels.lookup label).bind (·.installation)
    { b with labels := (label, ⟨slot, last⟩) :: b.labels }
  else
    { b.attach slot placement.front with labels := (label, ⟨slot, some b.issued⟩) :: b.labels }

/-- Without a reactor of its own an installation repeats the one already under its label. -/
def install (b : Bench) (label : String) (reactor : Option (Reactor Script))
    (placement : Placement) : Bench :=
  match reactor with
  | some r => (b.keep r).place label b.reactors.size placement
  | none =>
    match b.labels.lookup label with
    | some l => b.place label l.slot placement
    | none => b

def installation? (b : Bench) (label : String) : Option Nat :=
  (b.labels.lookup label).bind (·.installation)

def remove (b : Bench) (label : String) : Bool × Bench :=
  match b.installation? label with
  | some id => (b.attached id, b.detach id)
  | none => (false, b)

def handles (b : Bench) (slot : Nat) (a : Action) : Bool :=
  match b.reactors[slot]? with
  | some r => r.handles a
  | none => false

end Bench

end ControllerBench
