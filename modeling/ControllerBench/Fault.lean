namespace ControllerBench

/-- What stops a run altogether, as opposed to errors, which are answers. -/
inductive Fault where
  | endless
  | noRoom
  deriving DecidableEq, Repr

def Fault.message : Fault → String
  | endless => "the run does not come to rest"
  | noRoom => "mpsc bounded channel requires buffer > 0"

end ControllerBench
