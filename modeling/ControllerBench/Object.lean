import ControllerBench.Error

namespace ControllerBench

structure ObjectMeta where
  ns : String
  name : String
  deriving DecidableEq, Repr, Inhabited

def ObjectMeta.cluster (name : String) : ObjectMeta := ⟨"", name⟩

structure Kind where
  name : String
  typeName : String
  deriving DecidableEq, Repr, Inhabited

inductive Payload where
  | text (value : String)
  | workload (replicas : Nat) (ready : Bool)
  | scale (count : Nat)
  deriving DecidableEq, Repr, Inhabited

def Payload.render : Payload → String
  | text value => value
  | workload replicas ready => s!"{replicas} {ready}"
  | scale count => toString count

structure Object where
  kind : Kind
  metadata : Option ObjectMeta
  payload : Payload
  deriving DecidableEq, Repr, Inhabited

namespace Object

def accessor (o : Object) : Except Error ObjectMeta :=
  match o.metadata with
  | some m => .ok m
  | none => .error (.missingMetadata o.kind.typeName)

def name? (o : Object) : Option String := o.metadata.map (·.name)

theorem accessor_eq_ok {o : Object} {m : ObjectMeta} : o.accessor = .ok m ↔ o.metadata = some m := by
  unfold accessor
  split <;> simp [*]

end Object

end ControllerBench
