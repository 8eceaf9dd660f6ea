namespace ControllerBench

structure Resource where
  group : String
  version : String
  plural : String
  deriving DecidableEq, Repr, Inhabited

namespace Resource

def core (version plural : String) : Resource := ⟨"", version, plural⟩

def parts (r : Resource) : List String := [r.group, r.version, r.plural]

instance : LT Resource := ⟨fun a b => a.parts < b.parts⟩

instance (a b : Resource) : Decidable (a < b) := inferInstanceAs (Decidable (a.parts < b.parts))

def groupResource (r : Resource) : String :=
  if r.group.isEmpty then r.plural else s!"{r.plural}.{r.group}"

def text (r : Resource) : String := s!"{r.group}/{r.version}, Resource={r.plural}"

def sort (rs : List Resource) : List Resource := rs.mergeSort fun a b => !decide (b < a)

theorem sort_perm (rs : List Resource) : (sort rs).Perm rs := List.mergeSort_perm ..

end Resource

end ControllerBench
