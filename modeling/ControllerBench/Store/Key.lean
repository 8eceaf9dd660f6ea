import ControllerBench.Resource

namespace ControllerBench

structure Key where
  resource : Resource
  ns : String
  name : String
  deriving DecidableEq, Repr, Inhabited

namespace Key

def parts (k : Key) : List String :=
  [k.resource.group, k.resource.version, k.resource.plural, k.ns, k.name]

instance : LT Key := ⟨fun a b => a.parts < b.parts⟩

instance (a b : Key) : Decidable (a < b) := inferInstanceAs (Decidable (a.parts < b.parts))

theorem parts_inj {a b : Key} : a.parts = b.parts ↔ a = b := by
  obtain ⟨⟨_, _, _⟩, _, _⟩ := a
  obtain ⟨⟨_, _, _⟩, _, _⟩ := b
  simp [parts, and_assoc]

theorem lt_def {a b : Key} : a < b ↔ a.parts < b.parts := Iff.rfl

theorem lt_irrefl (a : Key) : ¬ a < a := List.lt_irrefl a.parts

theorem lt_trans {a b c : Key} (h : a < b) (h' : b < c) : a < c :=
  lt_def.2 (Std.lt_trans (lt_def.1 h) (lt_def.1 h'))

theorem lt_of_not_lt {a b : Key} (h : ¬ a < b) (hne : a ≠ b) : b < a :=
  lt_def.2 (Std.lt_of_le_of_ne (Std.not_lt.1 (mt lt_def.2 h)) fun e => hne (parts_inj.1 e.symm))

end Key

end ControllerBench
