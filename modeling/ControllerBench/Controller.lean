import ControllerBench.Script

namespace ControllerBench

structure Request where
  ns : String
  name : String
  deriving DecidableEq, Repr, Inhabited

def Request.text (r : Request) : String := if r.ns.isEmpty then r.name else s!"{r.ns}/{r.name}"

/-- After a failed pass a controller goes on in silence, notes the failure and goes on, or notes it and stops. -/
inductive Handling where
  | ignore
  | note
  | stop (error : Error)
  deriving DecidableEq, Repr

/-- A pass is told how many passes there were before it. -/
structure Reconciler where
  reconcile : Nat → Request → Script
  onError : Request → Error → Handling

inductive Phase where
  | waiting
  | running
  | ended (result : Except Error Unit)

namespace Phase

def isRunning : Phase → Bool
  | running => true
  | _ => false

def isEnded : Phase → Bool
  | ended _ => true
  | _ => false

end Phase

structure Controller where
  name : String
  watches : List Resource
  reconciler : Reconciler
  phase : Phase := .waiting
  queue : List Request := []
  taken : Array Request := #[]
  noted : Array (Request × Error) := #[]

namespace Controller

def stop (c : Controller) (result : Except Error Unit) : Controller :=
  { c with phase := .ended result, queue := [] }

def conclude (c : Controller) (r : Request) (outcome : Outcome) : Controller :=
  match outcome.error? with
  | none => c
  | some e =>
    match c.reconciler.onError r e with
    | .ignore => c
    | .note => { c with noted := c.noted.push (r, e) }
    | .stop e' => { c with noted := c.noted.push (r, e) }.stop (.error e')

end Controller

end ControllerBench
