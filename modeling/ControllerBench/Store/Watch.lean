import ControllerBench.Action

namespace ControllerBench

inductive Change where
  | added
  | modified
  | deleted
  deriving DecidableEq, Repr

structure WatchEvent where
  change : Change
  resource : Resource
  ns : String
  name : String
  deriving DecidableEq, Repr

def Operation.change? : Operation → Option Change
  | create _ => some .added
  | update _ => some .modified
  | delete _ => some .deleted
  | get _ | list | generic .. => none

/-- The event of an accepted action is about the action's own namespace. -/
def Action.event? (a : Action) : Option WatchEvent :=
  match a.operation.change?, a.name? with
  | some change, some name => some ⟨change, a.resource, a.ns, name⟩
  | _, _ => none

end ControllerBench
