import ControllerBench.Action

namespace ControllerBench

/-- Accepts an action, rejects it, or finds it wrong for a stated reason. -/
abbrev Check := Action → Except String Bool

namespace Check

def always (accepted : Bool) : Check := fun _ => .ok accepted

def failing (reason : String) : Check := fun _ => .error reason

def dataIs (data : String) : Check := fun a => .ok (a.object?.any (·.payload.render == data))

def nameIs (name : String) : Check := fun a => .ok (a.name? == some name)

def hasObject : Check := fun a => .ok a.object?.isSome

def objectOr (reason : String) : Check := fun a => if a.object?.isSome then .ok true else .error reason

end Check

end ControllerBench
