import ControllerBench.Json.Text

namespace ControllerBench

inductive Site where
  | declared
  | harness
  deriving DecidableEq, Repr

def Site.text : Site → String
  | declared => "declared"
  | harness => "harness"

structure Failure where
  scope : String
  message : String
  site : Site
  deriving DecidableEq, Repr

def Failure.text (f : Failure) : String := s!"{f.scope}: {f.message} ({f.site.text})"

/-- A reporter stamps failures with its scope; all reporters of a run fill one list. -/
structure Reporter where
  scope : String
  deriving DecidableEq, Repr

structure Report where
  name : String
  failures : List Failure
  deriving DecidableEq, Repr

namespace Reporter

def within (r : Reporter) (name : String) : Reporter := ⟨s!"{r.scope}/{name}"⟩

def failure (r : Reporter) (message : String) (site : Site) : Failure := ⟨r.scope, message, site⟩

def report (r : Reporter) (failures : List Failure) : Report := ⟨r.scope, failures⟩

end Reporter

namespace Report

def passed (r : Report) : Bool := r.failures.isEmpty

def text (r : Report) : String :=
  if r.passed then s!"{r.name}: passed"
  else
    s!"{r.name}: {r.failures.length} failure(s)\n" ++
      String.join (r.failures.map fun f => s!"  - {f.text}\n")

def failureJson (f : Failure) : String :=
  Json.object [("scope", Json.string f.scope), ("message", Json.string f.message),
    ("file", Json.string f.site.text), ("line", "0")]

def toJson (r : Report) : String :=
  Json.object [("name", Json.string r.name), ("passed", toString r.passed),
    ("failures", Json.array (r.failures.map failureJson))]

end Report

end ControllerBench
