import ControllerBench.Proofs.Observation.Tree

namespace ControllerBench

namespace Leaf

/-- An action that the check finds wrong is accepted too. -/
def accepts (l : Leaf) (a : Action) : Bool :=
  l.filter.handles a &&
    match l.verdict a with
    | .ok accepted => accepted
    | .error _ => true

def fire (l : Leaf) : Leaf := { l with fired := true }

theorem react_unfired {l : Leaf} {a : Action} (hn : l.fired = false)
    (hh : l.filter.handles a = true) : (l.react a).1 = if l.accepts a then l.fire else l := by
  obtain ⟨filter, check, fired, reporter⟩ := l
  cases hn
  have hh : filter.handles a = true := hh
  simp only [react, accepts, hh, Bool.true_and]
  cases verdict ⟨filter, check, false, reporter⟩ a with
  | ok accepted => cases accepted <;> rfl
  | error reason => rfl

end Leaf

namespace Verifier

def removal : Action := ⟨.delete "a", .core "v1" "things", "", "ns"⟩

variable {a : Action}

theorem sequence_offer {l : Leaf} (hn : l.fired = false) (passed : List Verifier) (rest : List Leaf) :
    ((inOrder passed ((l :: rest).map leaf)).offer a).1 =
      if l.accepts a then inOrder (passed ++ [leaf l.fire]) (rest.map leaf)
      else inOrder passed ((l :: rest).map leaf) := by
  cases hh : l.filter.handles a with
  | false =>
    have hoff : (inOrder passed ((l :: rest).map leaf)).handles a = false := hh
    rw [offer, hoff]
    simp [Leaf.accepts, hh]
  | true =>
    have hon : (inOrder passed ((l :: rest).map leaf)).handles a = true := hh
    have hreact : ((leaf l).react a).1 = leaf (if l.accepts a then l.fire else l) :=
      congrArg leaf (Leaf.react_unfired hn hh)
    have hstep : (leaf l).handles a = true := hh
    rw [offer, if_pos hon, List.map_cons, inOrder_react hstep, hreact]
    cases l.accepts a with
    | false => simp [fired, hn]
    | true => simp [fired, Leaf.fire]

end Verifier

end ControllerBench
