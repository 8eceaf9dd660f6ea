import ControllerBench.Script

namespace ControllerBench.Reaction

def pass : Reaction := fun _ _ => .done .pass

def failsWith (make : Action → Error) : Reaction := fun _ a => .done (.fail (make a))

def clientFails : Reaction := failsWith fun a => .internal s!"simulated failure of `{a.text}`"

def notFound : Reaction :=
  failsWith fun a => .notFound a.resource.groupResource (a.name?.getD "")

def alreadyExists : Reaction :=
  failsWith fun a => .alreadyExists a.resource.groupResource (a.name?.getD "")

def answers (response : Response) : Reaction := fun _ _ => .done (.answer response)

def invokes (action : Action) : Reaction := fun _ _ => .invoke action fun _ => .done .pass

def removes (label : String) : Reaction := fun _ _ => .remove label fun _ => .done .pass

def installs (label : String) (reactor : Option (Reactor Script)) (placement : Placement) :
    Reaction :=
  fun _ _ => .install label reactor placement (.done .pass)

end ControllerBench.Reaction
