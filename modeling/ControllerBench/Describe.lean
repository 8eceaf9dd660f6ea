import ControllerBench.TestCase
import ControllerBench.Text.Quoted

namespace ControllerBench

namespace Describe

def record (name : String) (fields : List (String × String)) (rest : String) : String :=
  name ++ " \x7b " ++ String.intercalate ", " (fields.map fun f => s!"{f.1}: {f.2}") ++ rest

def closed : String := " \x7d"

def abridged : String := ", .. \x7d"

def option (value : Option String) : String :=
  match value with
  | some text => s!"Some({text})"
  | none => "None"

def list (items : List String) : String := "[" ++ String.intercalate ", " items ++ "]"

end Describe

open Describe

def Filter.describe (f : Filter) : String :=
  record "ActionFilter"
    [("verb", Text.quoted f.verb), ("resource", Text.quoted f.resource),
      ("subresource", Text.quoted f.sub), ("namespace", Text.quoted f.ns),
      ("name", Text.quoted f.name)]
    closed

def Config.describe (c : Config) : String :=
  record "Config"
    [("default_timeout", c.defaultTimeout.text), ("queue_size", toString c.queueSize),
      ("sleep_on_shutdown", c.sleepOnShutdown.text)]
    closed

def Leaf.describe (l : Leaf) : String :=
  record "Verifier" [("filter", l.filter.describe), ("fired", toString l.fired)] abridged

def Override.describe {S : Type} (o : Override S) : String :=
  record "FilteredReactor"
    [("filter", o.filter.describe), ("limit", option (o.limit.map toString))] abridged

def Expectation.describe : Expectation → String
  | seen => "Seen"
  | notSeen => "NotSeen"
  | exactly n => s!"Exactly({n})"
  | atLeast n => s!"AtLeast({n})"
  | satisfies _ => "Satisfies"

def Expectation.describeCapture (e : Expectation) (filter : Filter) : String :=
  record "Capture" [("filter", filter.describe), ("expectation", e.describe)] ""

def TestEvent.describe (e : TestEvent) : String :=
  record "ControllerTestEvent"
    [("name", Text.quoted e.name),
      ("verifier", option (e.verifier.map fun v => Text.quoted v.pending)),
      ("assertions", toString e.assertions.length), ("reactors", toString e.reactors.length),
      ("timeout", option (e.timeout.map (·.text)))]
    abridged

def TestCase.describe (c : TestCase) : String :=
  record "ControllerTestCase"
    [("name", Text.quoted c.name), ("config", c.config.describe),
      ("controllers", toString c.registrations.length), ("resources", toString c.resources.length),
      ("events", list (c.events.map (·.describe)))]
    closed

def Bench.describe (b : Bench) : String :=
  Describe.record "Client"
    [("objects", toString b.tracker.size), ("reactors", toString b.chain.length)] abridged

end ControllerBench
