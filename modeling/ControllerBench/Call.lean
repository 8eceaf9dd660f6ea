import ControllerBench.Script

namespace ControllerBench

inductive Call where
  | create (resource : Resource) (object : Object)
  | update (resource : Resource) (object : Object)
  | updateStatus (resource : Resource) (object : Object)
  | delete (resource : Resource) (ns name : String)
  | get (resource : Resource) (ns name : String)
  | list (resource : Resource) (ns : String)
  | invoke (action : Action)
  | fail (error : Error)
  deriving DecidableEq, Repr

namespace Call

def write (operation : Object → Operation) (resource : Resource) (sub : String) (o : Object) :
    Except Error Action :=
  o.accessor.map fun m => ⟨operation o, resource, sub, m.ns⟩

def action : Call → Except Error Action
  | create resource o => write .create resource "" o
  | update resource o => write .update resource "" o
  | updateStatus resource o => write .update resource "status" o
  | delete resource ns name => .ok ⟨.delete name, resource, "", ns⟩
  | get resource ns name => .ok ⟨.get name, resource, "", ns⟩
  | list resource ns => .ok ⟨.list, resource, "", ns⟩
  | invoke action => .ok action
  | fail error => .error error

def conclude (c : Call) (r : Response) : Except Error Response :=
  match c with
  | create _ o | update _ o | updateStatus _ o => .ok (.object (r.object?.getD o))
  | delete .. => .ok .empty
  | get resource _ name =>
    match r.object? with
    | some o => .ok (.object o)
    | none => .error (.notFound resource.groupResource name)
  | list .. => .ok (.list r.toList)
  | invoke _ | fail _ => .ok r

def script (c : Call) (next : Except Error Response → Script) : Script :=
  match c.action with
  | .error e => next (.error e)
  | .ok action => .invoke action fun result => next (result.bind c.conclude)

end Call

end ControllerBench
