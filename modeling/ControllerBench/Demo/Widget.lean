import ControllerBench.Call
import ControllerBench.Controller

namespace ControllerBench.Demo

def widgetKind : Kind := ⟨"demo", "widget_demo::Widget"⟩

def configMapKind : Kind := ⟨"demo_config", "widget_demo::ConfigMap"⟩

def widgets : Resource := ⟨"example.com", "v1", "widgets"⟩

def configMaps : Resource := .core "v1" "configmaps"

def widgetObject (m : ObjectMeta) (replicas : Nat) (ready : Bool) : Object :=
  ⟨widgetKind, some m, .workload replicas ready⟩

def configMapObject (m : ObjectMeta) (replicas : Nat) : Object :=
  ⟨configMapKind, some m, .scale replicas⟩

def widget (name : String) (replicas : Nat) : Object := widgetObject ⟨"demo", name⟩ replicas false

structure Widget where
  metadata : ObjectMeta
  replicas : Nat
  ready : Bool
  deriving DecidableEq, Repr

def Widget.ofObject? (o : Object) : Option Widget :=
  match o.metadata, o.payload with
  | some metadata, .workload replicas ready =>
    if o.kind = widgetKind then some ⟨metadata, replicas, ready⟩ else none
  | _, _ => none

theorem Widget.ofObject?_widgetObject (m : ObjectMeta) (replicas : Nat) (ready : Bool) :
    Widget.ofObject? (widgetObject m replicas ready) = some ⟨m, replicas, ready⟩ := by
  simp [Widget.ofObject?, widgetObject]

def configName (name : String) : String := s!"{name}-config"

def finish (result : Except Error Response) (tolerates : Error → Bool) : Script :=
  match result with
  | .error e => .done (if tolerates e then .pass else .fail e)
  | .ok _ => .done .pass

def cleanUp (r : Request) : Script :=
  (Call.delete configMaps r.ns (configName r.name)).script fun result =>
    finish result Error.isNotFound

def markReady (w : Widget) : Script :=
  (Call.updateStatus widgets (widgetObject w.metadata w.replicas true)).script fun result =>
    finish result fun _ => false

def setUp (r : Request) (w : Widget) : Script :=
  (Call.create configMaps (configMapObject ⟨r.ns, configName r.name⟩ w.replicas)).script
    fun result =>
      match result with
      | .error e => if e.isAlreadyExists then markReady w else .done (.fail e)
      | .ok _ => markReady w

def inspect (r : Request) (o : Object) : Script :=
  match Widget.ofObject? o with
  | none => .done (.fail (.external s!"{r.text} is not a widget"))
  | some w => if w.ready then .done .pass else setUp r w

def reconcile (r : Request) : Script :=
  (Call.get widgets r.ns r.name).script fun result =>
    match result with
    | .ok (.object o) => inspect r o
    | .ok _ => .done .pass
    | .error e => if e.isNotFound then cleanUp r else .done (.fail e)

def reconciler (onError : Request → Error → Handling) : Reconciler where
  reconcile _ r := reconcile r
  onError

end ControllerBench.Demo
