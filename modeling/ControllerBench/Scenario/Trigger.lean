import ControllerBench.Call

namespace ControllerBench

inductive TriggerStep where
  | call (c : Call) (tolerant : Bool)
  | pause
  deriving Repr

/-- The first call that fails ends the trigger, unless it is a tolerant one. -/
def TriggerStep.script : List TriggerStep → Script
  | [] => .done .pass
  | .pause :: rest => .pause (script rest)
  | .call c tolerant :: rest =>
    c.script fun result =>
      match result, tolerant with
      | .error e, false => .done (.fail e)
      | _, _ => script rest

end ControllerBench
