import ControllerBench.Observer.Assertion
import ControllerBench.Observer.Verifier
import ControllerBench.Store.Response

/-!
Scripts: what a reaction, a reconcile pass or a trigger does to the bench, request by request. A script
that installs reactors carries them along, so scripts and the reactors made of them are one type.
-/

namespace ControllerBench

/--
How a script ends. A reaction that passes leaves the action to the rest of the chain, any other end
claims it; a reconcile pass or a trigger goes wrong only when it fails.
-/
inductive Outcome where
  | pass
  | answer (response : Response)
  | fail (error : Error)
  deriving DecidableEq, Repr, Inhabited

namespace Outcome

def claim? : Outcome → Option (Except Error Response)
  | pass => none
  | answer response => some (.ok response)
  | fail error => some (.error error)

def error? : Outcome → Option Error
  | fail error => some error
  | pass | answer _ => none

end Outcome

/-- Reacts to the actions its filter lets through, at most `limit` times; `offered` counts all of them. -/
structure Override (S : Type) where
  filter : Filter
  reaction : Nat → Action → S
  limit : Option Nat := none
  offered : Nat := 0

namespace Override

variable {S : Type}

def exhausted (o : Override S) : Bool := o.limit.any (· ≤ o.offered)

def reacted (o : Override S) : Nat :=
  match o.limit with
  | some limit => min o.offered limit
  | none => o.offered

theorem reacted_le_limit {o : Override S} {n : Nat} (h : o.limit = some n) : o.reacted ≤ n := by
  unfold reacted
  rw [h]
  exact Nat.min_le_right o.offered n

end Override

/-- A verifier is waited for at most once; asking again answers at once. -/
inductive Reactor (S : Type) where
  | verifier (v : Verifier) (waited : Bool)
  | assertion (a : Assertion)
  | override (o : Override S)

def Reactor.handles {S : Type} (a : Action) : Reactor S → Bool
  | verifier v _ => v.handles a
  | assertion w => w.handles a
  | override o => o.filter.handles a

structure Placement where
  front : Bool := false
  idle : Bool := false
  scope : Option String := none
  deriving DecidableEq, Repr, Inhabited

inductive Script where
  | done (outcome : Outcome)
  | invoke (action : Action) (next : Except Error Response → Script)
  | install (label : String) (reactor : Option (Reactor Script)) (placement : Placement)
      (next : Script)
  | remove (label : String) (next : Bool → Script)
  | pause (next : Script)

instance : Inhabited Script := ⟨.done .pass⟩

instance : Inhabited (Override Script) := ⟨{ filter := .any, reaction := default }⟩

/-- What an override does about an action, given how many it was offered before. -/
abbrev Reaction := Nat → Action → Script

end ControllerBench
