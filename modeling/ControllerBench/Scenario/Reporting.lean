import ControllerBench.Report

namespace ControllerBench

structure Reporting where
  reporters : List (String × Reporter)
  failures : List Failure := []
  frozen : List (String × Report) := []
  deriving Repr

namespace Reporting

inductive Step where
  | within (name newLabel : String)
  | error (message : String)
  | hasFailed
  | failures
  | failureTexts
  | report
  | freeze (newLabel : String)
  | frozen (label : String)
  | assertPassed
  deriving DecidableEq, Repr

inductive Answer where
  | done
  | text (s : String)
  | count (n : Nat)
  | flag (b : Bool)
  | failures (fs : List Failure)
  | texts (ts : List String)
  | report (r : Report)
  | refused (r : Report)
  deriving DecidableEq, Repr

def ofScope (scope : String) : Reporting := { reporters := [("", ⟨scope⟩)] }

def reporter (s : Reporting) (label : String) : Reporter := (s.reporters.lookup label).getD ⟨""⟩

def step (s : Reporting) (label : String) : Step → Answer × Reporting
  | .within name newLabel =>
    let r := (s.reporter label).within name
    (.text r.scope, { s with reporters := (newLabel, r) :: s.reporters })
  | .error message =>
    let failures := s.failures ++ [(s.reporter label).failure message .declared]
    (.count failures.length, { s with failures })
  | .hasFailed => (.flag !s.failures.isEmpty, s)
  | .failures => (.failures s.failures, s)
  | .failureTexts => (.texts (s.failures.map (·.text)), s)
  | .report => (.report ((s.reporter label).report s.failures), s)
  | .freeze newLabel =>
    (.done, { s with frozen := (newLabel, (s.reporter label).report s.failures) :: s.frozen })
  | .frozen label =>
    match s.frozen.lookup label with
    | some r => (.report r, s)
    | none => (.done, s)
  | .assertPassed =>
    let r := (s.reporter label).report s.failures
    (if r.passed then .done else .refused r, s)

def run : List (String × Step) → Reporting → List Answer
  | [], _ => []
  | (label, next) :: rest, s => (s.step label next).1 :: run rest (s.step label next).2

end Reporting

end ControllerBench
