import ControllerBench.Bench.Dispatch
import ControllerBench.Config
import ControllerBench.Controller

/-!
The simulation: a bench and the manager that drives it, which is a router and controllers, each a task
of its own. A step of the router moves one request, a step of a controller is one reconcile pass.
-/

namespace ControllerBench

/-- A request on its way to the controllers still to be given it; blocked when the first has no room. -/
structure Delivery where
  request : Request
  targets : List Nat
  blocked : Bool := false
  deriving DecidableEq, Repr

/--
The router first lists what is already stored of the watched resources and announces what it `found`,
then it follows the published events. It has announced the first `announced` of what it found, and taken
the first `cursor` of the events.
-/
structure Router where
  phase : Phase := .waiting
  unlisted : List Resource := []
  found : Array (Resource × Request) := #[]
  announced : Nat := 0
  cursor : Nat := 0
  delivery : Option Delivery := none

inductive Task where
  | router
  | controller (index : Nat)
  deriving DecidableEq, Repr

structure Simulation where
  bench : Bench
  config : Config := {}
  managed : Bool := false
  started : Bool := false
  cancelled : Bool := false
  router : Router := {}
  controllers : List Controller := []
  endings : List (Except Error Unit) := []

namespace Simulation

def tasks (s : Simulation) : List Task :=
  .router :: (List.range s.controllers.length).map .controller

def setRouter (s : Simulation) (r : Router) : Simulation := { s with router := r }

def setController (s : Simulation) (i : Nat) (c : Controller) : Simulation :=
  { s with controllers := s.controllers.set i c }

def watchers (s : Simulation) (r : Resource) : List Nat :=
  (List.range s.controllers.length).filter fun i =>
    s.controllers[i]?.any (·.watches.contains r)

def watched (s : Simulation) : List Resource := (s.controllers.flatMap (·.watches)).eraseDups

def listing (s : Simulation) (r : Resource) : List (Resource × Request) :=
  (s.bench.tracker.list r "").filterMap fun o => o.metadata.map fun m => (r, ⟨m.ns, m.name⟩)

def endRouter (s : Simulation) (result : Except Error Unit) : Simulation :=
  { s.setRouter { s.router with phase := .ended result } with endings := s.endings ++ [result] }

def endController (s : Simulation) (i : Nat) (c : Controller) (result : Except Error Unit) :
    Simulation :=
  { s.setController i (c.stop result) with endings := s.endings ++ [result] }

/--
Gives a request to its next target, none if there is no room for it. A controller that has stopped is
passed over, but one that stops while the router is blocked on it takes the router down.
-/
def deliver (s : Simulation) (d : Delivery) : Option Simulation :=
  match d.targets with
  | [] => some (s.setRouter { s.router with delivery := none })
  | i :: rest =>
    match s.controllers[i]? with
    | none => some (s.setRouter { s.router with delivery := some ⟨d.request, rest, false⟩ })
    | some c =>
      if c.phase.isEnded then
        if d.blocked then some (s.endRouter (.error .queueClosed))
        else some (s.setRouter { s.router with delivery := some ⟨d.request, rest, false⟩ })
      else if c.queue.length < s.config.queueSize then
        let s := s.setController i { c with queue := c.queue ++ [d.request] }
        some (s.setRouter { s.router with delivery := some ⟨d.request, rest, false⟩ })
      else if d.blocked then none
      else some (s.setRouter { s.router with delivery := some { d with blocked := true } })

def announce (s : Simulation) (resource : Resource) (request : Request) : Simulation :=
  s.setRouter { s.router with delivery := some ⟨request, s.watchers resource, false⟩ }

def announceFound (s : Simulation) (f : Resource × Request) : Simulation :=
  (s.setRouter { s.router with announced := s.router.announced + 1 }).announce f.1 f.2

def announceEvent (s : Simulation) (e : WatchEvent) : Simulation :=
  (s.setRouter { s.router with cursor := s.router.cursor + 1 }).announce e.resource ⟨e.ns, e.name⟩

def listNext (s : Simulation) (resource : Resource) (rest : List Resource) : Simulation :=
  s.setRouter
    { s.router with unlisted := rest, found := s.router.found ++ (s.listing resource).toArray }

def routerStep (s : Simulation) : Option Simulation :=
  if s.router.phase.isRunning then
    match s.router.delivery, s.router.found[s.router.announced]?, s.router.unlisted with
    | some d, _, _ => s.deliver d
    | none, some f, _ => some (s.announceFound f)
    | none, none, resource :: rest => some (s.listNext resource rest)
    | none, none, [] =>
      if s.cancelled then some (s.endRouter (.ok ()))
      else s.bench.events[s.router.cursor]?.map s.announceEvent
  else none

def reconcile (depth : Nat) (s : Simulation) (i : Nat) (c : Controller) (r : Request)
    (queue : List Request) : Option Simulation :=
  match (c.reconciler.reconcile c.taken.size r).run (Bench.invoke depth) s.bench with
  | none => none
  | some (outcome, bench) =>
    let c := { c with queue, taken := c.taken.push r }.conclude r outcome
    let s := { s with bench }.setController i c
    match c.phase with
    | .ended result => some { s with endings := s.endings ++ [result] }
    | _ => some s

def controllerStep (depth : Nat) (s : Simulation) (i : Nat) (c : Controller) : Option Simulation :=
  match c.phase, c.queue with
  | .ended _, _ => some s
  | .waiting, _ =>
    if s.cancelled then some (s.endController i c (.ok ()))
    else some (s.setController i { c with phase := .running })
  | .running, queue =>
    if s.cancelled then some (s.endController i c (.ok ()))
    else
      match queue with
      | [] => some s
      | r :: rest => s.reconcile depth i c r rest

def canRun (s : Simulation) : Task → Bool
  | .router => s.routerStep.isSome
  | .controller i =>
    match s.controllers[i]? with
    | none => false
    | some c =>
      match c.phase with
      | .waiting => s.started || s.cancelled
      | .running => s.cancelled || !c.queue.isEmpty
      | .ended _ => false

/-- One step of a task that can run; none only if a reconcile pass does not return. -/
def step (depth : Nat) (s : Simulation) : Task → Option Simulation
  | .router => some (s.routerStep.getD s)
  | .controller i =>
    match s.controllers[i]? with
    | none => some s
    | some c => s.controllerStep depth i c

def manage (s : Simulation) (config : Config) : Except Error Simulation :=
  if s.managed then .error .clientAlreadyManaged else .ok { s with managed := true, config }

def addController (s : Simulation) (name : String) (watches : List Resource)
    (reconciler : Reconciler) : Except Error Simulation :=
  if s.started then .error .managerAlreadyStarted
  else if s.controllers.any (·.name == name) then .error (.controllerAlreadyExists name)
  else .ok { s with controllers := s.controllers ++ [{ name, watches, reconciler }] }

def start (s : Simulation) : Except Error Simulation :=
  if s.started then .error .managerAlreadyStarted
  else
    .ok
      { s with
        started := true
        router := { s.router with phase := .running, unlisted := s.watched } }

def cancel (s : Simulation) : Simulation := { s with cancelled := true }

/-- Takes note of the endings up to the first error; what ended after it is left for the next time. -/
def joinEndings : List (Except Error Unit) → Except Error Unit × List (Except Error Unit)
  | [] => (.ok (), [])
  | .ok () :: rest => joinEndings rest
  | .error e :: rest => (.error e, rest)

def join (s : Simulation) : Except Error Unit × Simulation :=
  ((joinEndings s.endings).1, { s with endings := (joinEndings s.endings).2 })

end Simulation

end ControllerBench
