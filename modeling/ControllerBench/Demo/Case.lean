import ControllerBench.Demo.Widget
import ControllerBench.Reaction
import ControllerBench.TestCase

namespace ControllerBench.Demo

def statusReady : Check := fun a =>
  match a.object?.bind Widget.ofObject? with
  | some w => .ok w.ready
  | none => .error "status update carries no widget"

def createWidget : TestEvent where
  name := "create-widget"
  trigger := (Call.create widgets (widget "w1" 3)).script fun result => finish result fun _ => false
  verifier := some <| .sequence
    [.seen (((Filter.ofVerb "create").on "configmaps").named "w1-config"),
      .passes (((Filter.ofVerb "update").on "widgets/status").named "w1") statusReady]
  assertions :=
    [.expect (((Filter.ofVerb "create").on "configmaps").named "w1-config") (.exactly 1)]

def configMapFails : TestEvent where
  name := "configmap-create-fails"
  trigger := (Call.create widgets (widget "w2" 1)).script fun result => finish result fun _ => false
  verifier := some (.seen (((Filter.ofVerb "create").on "configmaps").named "w2-config"))
  assertions := [.expect (((Filter.ofVerb "update").on "widgets/status").named "w2") .notSeen]
  reactors :=
    [.override { filter := (Filter.ofVerb "create").on "configmaps", reaction := Reaction.clientFails }]

def deleteWidget : TestEvent where
  name := "delete-widget"
  trigger := (Call.delete widgets "demo" "w1").script fun result => finish result fun _ => false
  verifier := some (.seen (((Filter.ofVerb "delete").on "configmaps").named "w1-config"))

def case : TestCase where
  name := "widget-controller"
  config := { defaultTimeout := .seconds 2 }
  resources := [(widgets, widget "seeded" 1)]
  registrations := [.controller "widgets" [widgets] (reconciler fun _ _ => .ignore)]
  events := [createWidget, configMapFails, deleteWidget]

def run (fuel : Nat) : Except Fault Report := (case.run fuel).map case.report

end ControllerBench.Demo
