namespace ControllerBench

inductive Error where
  | notFound (resource name : String)
  | alreadyExists (resource name : String)
  | missingMetadata (typeName : String)
  | unsupported (subject : String)
  | internal (detail : String)
  | managerAlreadyStarted
  | clientAlreadyManaged
  | controllerAlreadyExists (name : String)
  | sendFailed (detail : String)
  | external (detail : String)
  deriving DecidableEq, Repr

namespace Error

inductive Kind where
  | notFound
  | alreadyExists
  | missingMetadata
  | unsupported
  | internal
  | managerAlreadyStarted
  | clientAlreadyManaged
  | controllerAlreadyExists
  | sendFailed
  | external
  deriving DecidableEq, Repr

def kind : Error → Kind
  | notFound .. => .notFound
  | alreadyExists .. => .alreadyExists
  | missingMetadata _ => .missingMetadata
  | unsupported _ => .unsupported
  | internal _ => .internal
  | managerAlreadyStarted => .managerAlreadyStarted
  | clientAlreadyManaged => .clientAlreadyManaged
  | controllerAlreadyExists _ => .controllerAlreadyExists
  | sendFailed _ => .sendFailed
  | external _ => .external

def message : Error → String
  | notFound resource name => s!"{resource} \"{name}\" not found"
  | alreadyExists resource name => s!"{resource} \"{name}\" already exists"
  | missingMetadata typeName => s!"object of type {typeName} does not expose object metadata"
  | unsupported subject => s!"the object store does not support '{subject}' actions"
  | internal detail => s!"Internal error: {detail}"
  | managerAlreadyStarted => "Manager has already started."
  | clientAlreadyManaged => "Client is already driven by another manager."
  | controllerAlreadyExists name => s!"Controller with name '{name}' already exists."
  | sendFailed detail => s!"Couldn't send the message: {detail}"
  | external detail => s!"Error external to ctrlcheck occured: {detail}"

def isNotFound (e : Error) : Bool := e.kind == .notFound

def isAlreadyExists (e : Error) : Bool := e.kind == .alreadyExists

def queueClosed : Error := sendFailed "channel closed"

end Error

end ControllerBench
