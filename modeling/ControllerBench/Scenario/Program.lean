import ControllerBench.Call
import ControllerBench.Scenario.Template

namespace ControllerBench

inductive Recovery where
  | finish
  | proceed
  deriving DecidableEq, Repr

structure ProgramStep where
  call : Call
  requireKind : Option String := none
  returnIfData : Option String := none
  recoveries : List (Error.Kind × Recovery) := []
  deriving Repr

def ProgramStep.verdict (step : ProgramStep) (r : Request) :
    Except Error Response → Option Outcome
  | .error e =>
    match step.recoveries.lookup e.kind with
    | some .finish => some .pass
    | some .proceed => none
    | none => some (.fail e)
  | .ok (.object o) =>
    if step.requireKind.any (· != o.kind.name) then
      some (.fail (.external s!"{r.text} is not a {step.requireKind.getD o.kind.name}"))
    else if step.returnIfData == some o.payload.render then some .pass
    else none
  | .ok _ => none

/-- A step as it is written down: the one name it is for, if any, and what its texts say to do. -/
structure WrittenStep where
  only : Option String := none
  step : Template (Option ProgramStep)

structure Program where
  steps : List WrittenStep
  limit : Nat := 100

namespace Program

def script (r : Request) : List WrittenStep → Script
  | [] => .done .pass
  | written :: rest =>
    if written.only.any (· != r.name) then script r rest
    else
      match written.step.forRequest r with
      | none => script r rest
      | some step =>
        step.call.script fun result =>
          match step.verdict r result with
          | some outcome => .done outcome
          | none => script r rest

def reconcile (p : Program) (passes : Nat) (r : Request) : Script :=
  if p.limit ≤ passes then .done .pass else script r p.steps

end Program

inductive ErrorPolicy where
  | ignore
  | keep
  | stop
  deriving DecidableEq, Repr

def ErrorPolicy.handling : ErrorPolicy → Error → Handling
  | ignore, _ => .ignore
  | keep, _ => .note
  | stop, e => .stop e

def Program.reconciler (p : Program) (policy : ErrorPolicy) : Reconciler where
  reconcile := p.reconcile
  onError _ e := policy.handling e

end ControllerBench
