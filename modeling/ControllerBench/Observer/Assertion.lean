import ControllerBench.Action.Filter

namespace ControllerBench

inductive Expectation where
  | seen
  | notSeen
  | exactly (n : Nat)
  | atLeast (n : Nat)
  | satisfies (check : List Action → Except String Unit)

namespace Expectation

def atMost (n : Nat) : Expectation :=
  satisfies fun seen => if n < seen.length then .error s!"saw {seen.length} actions" else .ok ()

def onlyNames (names : List String) : Expectation :=
  satisfies fun seen =>
    match seen.find? fun a => !a.name?.any names.contains with
    | some stray => .error s!"unexpected {stray.text}"
    | none => .ok ()

def complaint? (e : Expectation) (filter : Filter) (seen : List Action) : Option String :=
  let count := seen.length
  match e with
  | .seen => if count = 0 then some s!"expected {filter.text} to be seen, but it was not" else none
  | notSeen =>
    if 0 < count then
      some s!"expected {filter.text} not to be seen, but it was seen {count} time(s)"
    else none
  | exactly n =>
    if count = n then none
    else some s!"expected {filter.text} to be seen {n} time(s), but it was seen {count} time(s)"
  | atLeast n =>
    if n ≤ count then none
    else
      some s!"expected {filter.text} to be seen at least {n} time(s), but it was seen {count} time(s)"
  | satisfies check =>
    match check seen with
    | .ok () => none
    | .error reason => some s!"{filter.text}: {reason}"

end Expectation

inductive Assertion where
  | capture (filter : Filter) (expectation : Expectation) (seen : Array Action)
  | inOrder (filters : List Filter) (seen : Array Action)

namespace Assertion

def expect (filter : Filter) (expectation : Expectation) : Assertion :=
  capture filter expectation #[]

def sequence (filters : List Filter) : Assertion := inOrder filters #[]

def handles : Assertion → Action → Bool
  | capture filter .., a => filter.handles a
  | inOrder filters _, a => filters.any (·.handles a)

def react : Assertion → Action → Assertion
  | capture filter expectation seen, a => capture filter expectation (seen.push a)
  | inOrder filters seen, a => inOrder filters (seen.push a)

/-- The filters left over when each action meets the first filter not met so far. -/
def unmet : List Action → List Filter → List Filter
  | _, [] => []
  | [], filters => filters
  | a :: rest, filter :: filters =>
    if filter.handles a then unmet rest filters else unmet rest (filter :: filters)

def orderComplaint? (filters : List Filter) (seen : List Action) : Option String :=
  let left := unmet seen filters
  match left, (filters.take (filters.length - left.length)).getLast? with
  | [], _ => none
  | missing :: _, some previous =>
    some s!"expected {missing.text} to be seen after {previous.text}"
  | missing :: _, none => some s!"expected {missing.text} to be seen first"

def complaint? : Assertion → Option String
  | capture filter expectation seen => expectation.complaint? filter seen.toList
  | inOrder filters seen => orderComplaint? filters seen.toList

end Assertion

end ControllerBench
