import ControllerBench.Bench

/-!
Dispatch: an action is recorded, offered to the reactors that are in the chain at that moment, and, unless
one of them claims it, applied to the tracker. Reactions may invoke further actions; how deep they may
nest is bounded by a depth, and a dispatch that needs more has no result.
-/

namespace ControllerBench

abbrev Invoke := Bench → Action → Option (Except Error Response × Bench)

/-- A pause lets other tasks run only where there is someone to wait for them; here it passes at once. -/
def Script.run (invoke : Invoke) : Script → Bench → Option (Outcome × Bench)
  | done outcome, b => some (outcome, b)
  | .invoke action next, b =>
    match invoke b action with
    | none => none
    | some (result, b) => (next result).run invoke b
  | install label reactor placement next, b => next.run invoke (b.install label reactor placement)
  | remove label next, b => (next (b.remove label).1).run invoke (b.remove label).2
  | pause next, b => next.run invoke b

namespace Bench

def react (invoke : Invoke) (b : Bench) (slot : Nat) (a : Action) : Option (Outcome × Bench) :=
  match b.reactors[slot]? with
  | none => some (.pass, b)
  | some (.verifier v waited) =>
    some (.pass, (b.setReactor slot (.verifier (v.react a).1 waited)).report (v.react a).2)
  | some (.assertion w) => some (.pass, b.setReactor slot (.assertion (w.react a)))
  | some (.override o) =>
    let b := b.setReactor slot (.override { o with offered := o.offered + 1 })
    if o.exhausted then some (.pass, b) else (o.reaction o.offered a).run invoke b

def consult (invoke : Invoke) (a : Action) :
    List Nat → Bench → Option (Option (Except Error Response) × Bench)
  | [], b => some (none, b)
  | slot :: rest, b =>
    if b.handles slot a then
      match b.react invoke slot a with
      | none => none
      | some (outcome, b) =>
        match outcome.claim? with
        | some result => some (some result, b)
        | none => consult invoke a rest b
    else consult invoke a rest b

def publish (b : Bench) (a : Action) : Bench :=
  match a.event? with
  | some e => { b with events := b.events.push e }
  | none => b

def apply (b : Bench) (a : Action) : Except Error Response × Bench :=
  match b.tracker.apply a with
  | .error e => (.error e, b)
  | .ok (response, tracker) => (.ok response, { b with tracker }.publish a)

def invoke : Nat → Invoke
  | 0, _, _ => none
  | depth + 1, b, a =>
    let b := b.record a
    match b.consult (invoke depth) a (b.chain.map (·.slot)) with
    | none => none
    | some (some result, b) => some (result, b)
    | some (none, b) => some (b.apply a)

end Bench

end ControllerBench
