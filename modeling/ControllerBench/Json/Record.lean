import ControllerBench.Json.Reader
import ControllerBench.Json.Text
import ControllerBench.Object
import ControllerBench.Resource

namespace ControllerBench

namespace ObjectMeta

def toJson (m : ObjectMeta) : String :=
  Json.object [("namespace", Json.string m.ns), ("name", Json.string m.name)]

def ofJson? (text : String) : Option ObjectMeta :=
  match Json.readRecord ["namespace", "name"] text with
  | some [ns, name] => some ⟨ns, name⟩
  | _ => none

end ObjectMeta

namespace Resource

def toJson (r : Resource) : String :=
  Json.object [("group", Json.string r.group), ("version", Json.string r.version),
    ("resource", Json.string r.plural)]

def ofJson? (text : String) : Option Resource :=
  match Json.readRecord ["group", "version", "resource"] text with
  | some [group, version, plural] => some ⟨group, version, plural⟩
  | _ => none

end Resource

end ControllerBench
