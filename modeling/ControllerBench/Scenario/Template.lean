import ControllerBench.Controller

namespace ControllerBench

abbrev Template (α : Type) := (String → String) → α

namespace Template

variable {α : Type}

def forRequest (r : Request) (t : Template α) : α :=
  t fun text => (text.replace "$name" r.name).replace "$ns" r.ns

/-- An action that addresses no single object is shown by a dash. -/
def forAction (a : Action) (t : Template α) : α :=
  t fun text => (text.replace "$verb" a.verb).replace "$name" (a.name?.getD "-")

def failure (t : Template Error) : Reaction := fun _ a => .done (.fail (t.forAction a))

end Template

end ControllerBench
