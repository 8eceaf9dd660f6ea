import ControllerBench.Object
import ControllerBench.Resource

namespace ControllerBench

inductive Operation where
  | create (object : Object)
  | update (object : Object)
  | delete (name : String)
  | get (name : String)
  | list
  | generic (verb : String) (object : Option Object)
  deriving DecidableEq, Repr, Inhabited

namespace Operation

def verb : Operation → String
  | create _ => "create"
  | update _ => "update"
  | delete _ => "delete"
  | get _ => "get"
  | list => "list"
  | generic verb _ => verb

def name? : Operation → Option String
  | create object | update object => object.name?
  | delete name | get name => some name
  | list | generic .. => none

def object? : Operation → Option Object
  | create object | update object => some object
  | generic _ object => object
  | delete _ | get _ | list => none

end Operation

structure Action where
  operation : Operation
  resource : Resource
  sub : String
  ns : String
  deriving DecidableEq, Repr, Inhabited

namespace Action

def verb (a : Action) : String := a.operation.verb

def name? (a : Action) : Option String := a.operation.name?

def object? (a : Action) : Option Object := a.operation.object?

def equalsIgnoringCase (a b : String) : Bool := a.map Char.toLower == b.map Char.toLower

def matchesCoarsely (a : Action) (verb plural : String) : Bool :=
  equalsIgnoringCase a.verb verb && equalsIgnoringCase a.resource.plural plural

def text (a : Action) : String :=
  let target := s!"{a.verb} {a.resource.plural}"
  let target := if a.sub.isEmpty then target else s!"{target}/{a.sub}"
  let named :=
    match a.name? with
    | some name => s!"{target} {name}"
    | none => target
  if a.ns.isEmpty then named else s!"{named} in {a.ns}"

end Action

end ControllerBench
