import ControllerBench.Action

namespace ControllerBench

structure Filter where
  verb : String
  resource : String
  sub : String
  ns : String
  name : String
  deriving DecidableEq, Repr, Inhabited

namespace Filter

def wildcard : String := "*"

def ofVerb (verb : String) : Filter := ⟨verb, wildcard, wildcard, wildcard, wildcard⟩

def any : Filter := ofVerb wildcard

/--
Splits a target at its first slash into resource and subresource. A target without a slash is the
primary resource, except that a bare wildcard covers every resource and subresource.
-/
def target (text : String) : String × String :=
  match text.toList.span (· ≠ '/') with
  | (resource, _ :: sub) => (String.ofList resource, String.ofList sub)
  | (_, []) => if text = wildcard then (wildcard, wildcard) else (text, "")

def on (f : Filter) (text : String) : Filter :=
  { f with resource := (target text).1, sub := (target text).2 }

def inNamespace (f : Filter) (ns : String) : Filter := { f with ns }

def named (f : Filter) (name : String) : Filter := { f with name }

def accepts (pattern value : String) : Bool := pattern == wildcard || pattern == value

/-- Actions that address no single object pass any name; an object without metadata passes none. -/
def acceptsName (f : Filter) (a : Action) : Bool :=
  f.name == wildcard ||
    match a.operation with
    | .create object | .update object => object.name? == some f.name
    | .delete name | .get name => name == f.name
    | .list | .generic .. => true

def handles (f : Filter) (a : Action) : Bool :=
  (a.matchesCoarsely f.verb f.resource ||
      (accepts f.verb a.verb && accepts f.resource a.resource.plural)) &&
    accepts f.sub a.sub && accepts f.ns a.ns && f.acceptsName a

def targetText (f : Filter) : String :=
  if f.sub.isEmpty then f.resource else s!"{f.resource}/{f.sub}"

def text (f : Filter) : String := s!"{f.verb} on {f.targetText} named {f.name} in {f.ns}"

theorem accepts_wildcard (value : String) : accepts wildcard value = true := by simp [accepts]

theorem any_handles (a : Action) : any.handles a = true := by
  simp [handles, any, ofVerb, accepts_wildcard, acceptsName]

end Filter

end ControllerBench
