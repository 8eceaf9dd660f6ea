import ControllerBench.Action.Filter
import ControllerBench.Observer.Check
import ControllerBench.Report

namespace ControllerBench

structure Leaf where
  filter : Filter
  check : Option Check := none
  fired : Bool := false
  reporter : Option Reporter := none

namespace Leaf

def inject (l : Leaf) (r : Reporter) : Leaf := { l with reporter := l.reporter <|> some r }

def verdict (l : Leaf) (a : Action) : Except String Bool :=
  match l.check with
  | none => .ok true
  | some check => check a

def complaint (l : Leaf) (a : Action) (reason : String) : List Failure :=
  match l.reporter with
  | none => []
  | some r => [r.failure s!"verification of `{a.text}` failed: {reason}" .declared]

/-- A leaf fires at most once, and an action its check finds wrong fires it too. -/
def react (l : Leaf) (a : Action) : Leaf × List Failure :=
  if l.fired then (l, [])
  else
    match l.verdict a with
    | .ok accepted => ({ l with fired := accepted }, [])
    | .error reason => ({ l with fired := true }, l.complaint a reason)

end Leaf

inductive Verifier where
  | leaf (l : Leaf)
  | inOrder (passed left : List Verifier)
  | allOf (steps : List Verifier) (fired : Bool)
  | unlocated (inner : Verifier)

namespace Verifier

instance : Inhabited Verifier := ⟨inOrder [] []⟩

def seen (filter : Filter) : Verifier := leaf { filter }

def passes (filter : Filter) (check : Check) : Verifier := leaf { filter, check := some check }

def sequence (steps : List Verifier) : Verifier := inOrder [] steps

def all (steps : List Verifier) : Verifier := allOf steps steps.isEmpty

def fired : Verifier → Bool
  | leaf l => l.fired
  | inOrder _ left => left.isEmpty
  | allOf _ fired => fired
  | unlocated inner => inner.fired

def located : Verifier → Bool
  | leaf _ | inOrder .. | allOf .. => true
  | unlocated _ => false

mutual

def handles (a : Action) : Verifier → Bool
  | leaf l => l.filter.handles a
  | inOrder _ left => headHandles a left
  | allOf steps _ => armedHandles a steps
  | unlocated inner => inner.handles a

def headHandles (a : Action) : List Verifier → Bool
  | [] => false
  | step :: _ => step.handles a

def armedHandles (a : Action) : List Verifier → Bool
  | [] => false
  | step :: rest => (!step.fired && step.handles a) || armedHandles a rest

end

mutual

/-- A sequence offers the action to its current step and moves on once that step has fired. -/
def react (a : Action) : Verifier → Verifier × List Failure
  | leaf l => (leaf (l.react a).1, (l.react a).2)
  | inOrder passed left =>
    match left with
    | [] => (inOrder passed [], [])
    | step :: rest =>
      if step.handles a then
        let (step, failures) := step.react a
        if step.fired then (inOrder (passed ++ [step]) rest, failures)
        else (inOrder passed (step :: rest), failures)
      else (inOrder passed (step :: rest), [])
  | allOf steps fired =>
    let (steps, failures) := reactArmed a steps
    (allOf steps (fired || steps.all Verifier.fired), failures)
  | unlocated inner =>
    let (inner, failures) := inner.react a
    (unlocated inner, failures)

/-- Steps that have not fired are offered the action in turn, until it makes one of them fire. -/
def reactArmed (a : Action) : List Verifier → List Verifier × List Failure
  | [] => ([], [])
  | step :: rest =>
    if !step.fired && step.handles a then
      let (step, failures) := step.react a
      if step.fired then (step :: rest, failures)
      else
        let (rest, more) := reactArmed a rest
        (step :: rest, failures ++ more)
    else
      let (rest, more) := reactArmed a rest
      (step :: rest, more)

end

def offer (v : Verifier) (a : Action) : Verifier × List Failure :=
  if v.handles a then v.react a else (v, [])

mutual

def inject (r : Reporter) : Verifier → Verifier
  | leaf l => leaf (l.inject r)
  | inOrder passed left => inOrder (injectAll r passed) (injectAll r left)
  | allOf steps fired => allOf (injectAll r steps) fired
  | unlocated inner => unlocated (inner.inject r)

def injectAll (r : Reporter) : List Verifier → List Verifier
  | [] => []
  | step :: rest => step.inject r :: injectAll r rest

end

mutual

def pending : Verifier → String
  | leaf l => l.filter.text
  | inOrder passed left => pendingHead (passed.length + 1) (passed.length + left.length) left
  | allOf steps _ => String.intercalate ", " (pendingArmed steps)
  | unlocated inner => inner.pending

def pendingHead (position total : Nat) : List Verifier → String
  | [] => ""
  | step :: _ => s!"{step.pending} (step {position} of {total})"

def pendingArmed : List Verifier → List String
  | [] => []
  | step :: rest => if step.fired then pendingArmed rest else step.pending :: pendingArmed rest

end

end Verifier

end ControllerBench
