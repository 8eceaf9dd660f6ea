import ControllerBench.Object

namespace ControllerBench

inductive Response where
  | empty
  | object (o : Object)
  | list (os : List Object)
  deriving DecidableEq, Repr, Inhabited

namespace Response

def object? : Response → Option Object
  | object o => some o
  | empty | list _ => none

def toList : Response → List Object
  | list os => os
  | object o => [o]
  | empty => []

end Response

end ControllerBench
