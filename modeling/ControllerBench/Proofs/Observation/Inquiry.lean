import ControllerBench.Proofs.Observation.Sharing
import ControllerBench.Proofs.Observation.Reporting

namespace ControllerBench

/-- A question put to the check of a leaf, told apart by its place among the leaves of the tree. -/
structure Inquiry where
  place : Nat
  action : Action
  answer : Except String Bool

/-- What the checks answer, in view of all that they have been asked before. -/
abbrev Oracle := List Inquiry → Nat → Action → Except String Bool

namespace Leaf

def heed (l : Leaf) (a : Action) : Except String Bool → Leaf × List Failure
  | .ok accepted => ({ l with fired := accepted }, [])
  | .error reason => ({ l with fired := true }, l.complaint a reason)

def probe (oracle : Oracle) (a : Action) (asked : List Inquiry) (place : Nat) (l : Leaf) :
    Leaf × List Failure × List Inquiry :=
  if l.fired then (l, [], [])
  else if l.check.isNone then ({ l with fired := true }, [], [])
  else
    let answer := oracle asked place a
    ((l.heed a answer).1, (l.heed a answer).2, [⟨place, a, answer⟩])

end Leaf

namespace Verifier

mutual

/-- A reaction that takes the answers of the checks from an oracle, and tells what it asked. -/
def probe (oracle : Oracle) (a : Action) (asked : List Inquiry) (place : Nat) :
    Verifier → Verifier × List Failure × List Inquiry
  | leaf l => (leaf (l.probe oracle a asked place).1, (l.probe oracle a asked place).2)
  | inOrder passed left =>
    match left with
    | [] => (inOrder passed [], [], [])
    | step :: rest =>
      if step.handles a then
        let r := step.probe oracle a asked (place + (leavesAll passed).length)
        if r.1.fired then (inOrder (passed ++ [r.1]) rest, r.2) else (inOrder passed (r.1 :: rest), r.2)
      else (inOrder passed (step :: rest), [], [])
  | allOf steps fired =>
    let r := probeArmed oracle a asked place steps
    (allOf r.1 (fired || r.1.all Verifier.fired), r.2)
  | unlocated inner =>
    let r := inner.probe oracle a asked place
    (unlocated r.1, r.2)

def probeArmed (oracle : Oracle) (a : Action) (asked : List Inquiry) (place : Nat) :
    List Verifier → List Verifier × List Failure × List Inquiry
  | [] => ([], [], [])
  | step :: rest =>
    if !step.fired && step.handles a then
      let r := step.probe oracle a asked place
      if r.1.fired then (r.1 :: rest, r.2)
      else
        let later := probeArmed oracle a (asked ++ r.2.2) (place + step.leaves.length) rest
        (r.1 :: later.1, r.2.1 ++ later.2.1, r.2.2 ++ later.2.2)
    else
      let later := probeArmed oracle a asked (place + step.leaves.length) rest
      (step :: later.1, later.2)

end

end Verifier

def Oracle.Steady (oracle : Oracle) (place : Nat) (ls : List Leaf) : Prop :=
  ∀ i l, ls[i]? = some l → ∀ asked a, oracle asked (place + i) a = l.verdict a

namespace Oracle.Steady

variable {oracle : Oracle} {place : Nat} {ls ms : List Leaf}

theorem left (h : oracle.Steady place (ls ++ ms)) : oracle.Steady place ls := by
  intro i l hl
  have hlt := (List.getElem?_eq_some_iff.1 hl).1
  exact h i l (by rw [List.getElem?_append_left hlt, hl])

theorem right (h : oracle.Steady place (ls ++ ms)) : oracle.Steady (place + ls.length) ms := by
  intro i l hl asked a
  rw [Nat.add_assoc]
  refine h (ls.length + i) l ?_ asked a
  rw [List.getElem?_append_right (Nat.le_add_right ..), Nat.add_sub_cancel_left, hl]

end Oracle.Steady

section Steady

variable {oracle : Oracle} {a : Action} {place : Nat}

theorem Leaf.probe_eq_react {l : Leaf} (h : oracle.Steady place [l]) (asked : List Inquiry) :
    (l.probe oracle a asked place).1 = (l.react a).1 ∧
      (l.probe oracle a asked place).2.1 = (l.react a).2 := by
  have hanswer : oracle asked place a = l.verdict a := h 0 l rfl asked a
  obtain ⟨filter, check, fired, reporter⟩ := l
  cases fired with
  | true => exact ⟨rfl, rfl⟩
  | false =>
    cases check with
    | none => exact ⟨rfl, rfl⟩
    | some check =>
      simp only [Leaf.probe, Leaf.react, hanswer]
      cases Leaf.verdict _ a <;> exact ⟨rfl, rfl⟩

namespace Verifier

theorem probeArmed_eq_reactArmed {steps : List Verifier}
    (h : ∀ s ∈ steps, ∀ place, oracle.Steady place s.leaves → ∀ asked,
      (s.probe oracle a asked place).1 = (s.react a).1 ∧
        (s.probe oracle a asked place).2.1 = (s.react a).2)
    (ho : oracle.Steady place (leavesAll steps)) (asked : List Inquiry) :
    (probeArmed oracle a asked place steps).1 = (reactArmed a steps).1 ∧
      (probeArmed oracle a asked place steps).2.1 = (reactArmed a steps).2 := by
  induction steps generalizing place asked with
  | nil => exact ⟨rfl, rfl⟩
  | cons step rest ih =>
    obtain ⟨hstep, hrest⟩ := List.forall_mem_cons.1 h
    obtain ⟨hnext, hsaid⟩ := hstep place ho.left asked
    have hlater := ih hrest ho.right
    simp only [probeArmed, reactArmed, hnext, hsaid]
    split
    · split
      · exact ⟨rfl, hsaid⟩
      · simp only [hlater, and_self]
    · simp only [hlater, and_self]

theorem probe_eq_react {v : Verifier} (h : oracle.Steady place v.leaves) (asked : List Inquiry) :
    (v.probe oracle a asked place).1 = (v.react a).1 ∧
      (v.probe oracle a asked place).2.1 = (v.react a).2 := by
  induction v using tree_induction generalizing place asked with
  | leaf l =>
    obtain ⟨hl, hsaid⟩ := Leaf.probe_eq_react (a := a) h asked
    exact ⟨congrArg leaf hl, hsaid⟩
  | inOrder passed left _ ih =>
    cases left with
    | nil => exact ⟨rfl, rfl⟩
    | cons step rest =>
      obtain ⟨hnext, hsaid⟩ := ih step (.head _) h.right.left asked
      simp only [probe, react, hnext]
      split
      · split <;> exact ⟨rfl, hsaid⟩
      · exact ⟨rfl, rfl⟩
  | allOf steps fired ih =>
    obtain ⟨hnext, hsaid⟩ :=
      probeArmed_eq_reactArmed (fun s hs _ ho asked => ih s hs ho asked) h asked
    simp only [probe, react, hnext, hsaid, and_self]
  | unlocated inner ih =>
    obtain ⟨hnext, hsaid⟩ := ih h asked
    simp only [probe, react, hnext, hsaid, and_self]

end Verifier

end Steady

/-- What a reaction does to a leaf: nothing, or, if it has not fired yet, what its check says. -/
inductive Leaf.Turned (a : Action) (place : Nat) (l : Leaf) :
    Leaf → List Failure → List Inquiry → Prop
  | still : Turned a place l l [] []
  | unchecked : l.fired = false → l.check = none → Turned a place l { l with fired := true } [] []
  | answered (answer : Except String Bool) : l.fired = false → l.check.isSome = true →
      Turned a place l (l.heed a answer).1 (l.heed a answer).2 [⟨place, a, answer⟩]

inductive Turns (a : Action) : Nat → List Leaf → List Leaf → List Failure → List Inquiry → Prop
  | nil {place} : Turns a place [] [] [] []
  | cons {place l l' ls ls' fs gs qs rs} : l.Turned a place l' fs qs → Turns a (place + 1) ls ls' gs rs →
      Turns a place (l :: ls) (l' :: ls') (fs ++ gs) (qs ++ rs)

section Turns

variable {oracle : Oracle} {a : Action} {place : Nat} {l l' : Leaf} {ls ls' ms ms' : List Leaf}
  {fs gs : List Failure} {qs rs : List Inquiry}

theorem Leaf.probe_turned (l : Leaf) (asked : List Inquiry) :
    l.Turned a place (l.probe oracle a asked place).1 (l.probe oracle a asked place).2.1
      (l.probe oracle a asked place).2.2 := by
  unfold Leaf.probe
  split
  · exact .still
  next hf =>
    have hn : l.fired = false := by simpa using hf
    split
    next hc => exact .unchecked hn (by simpa using hc)
    next hc => exact .answered _ hn (by simpa [Option.isSome_iff_ne_none] using hc)

namespace Turns

theorem refl (place : Nat) (ls : List Leaf) : Turns a place ls ls [] [] := by
  induction ls generalizing place with
  | nil => exact .nil
  | cons l rest ih => exact .cons .still (ih (place + 1))

theorem append (h : Turns a place ls ls' fs qs) (h' : Turns a (place + ls.length) ms ms' gs rs) :
    Turns a place (ls ++ ms) (ls' ++ ms') (fs ++ gs) (qs ++ rs) := by
  induction h with
  | nil => exact h'
  | cons hl _ ih =>
    rw [List.append_assoc, List.append_assoc]
    refine .cons hl (ih ?_)
    rwa [List.length_cons, ← Nat.add_assoc, Nat.add_right_comm] at h'

theorem one (h : l.Turned a place l' fs qs) : Turns a place [l] [l'] fs qs := by
  have hone := Turns.cons h .nil
  rwa [List.append_nil, List.append_nil] at hone

theorem length_eq (h : Turns a place ls ls' fs qs) : ls'.length = ls.length := by
  induction h with
  | nil => rfl
  | cons _ _ ih => rw [List.length_cons, List.length_cons, ih]

end Turns

theorem Leaf.Turned.place_eq (h : l.Turned a place l' fs qs) : ∀ q ∈ qs, q.place = place := by
  cases h with
  | still | unchecked => exact List.forall_mem_nil _
  | answered => exact List.forall_mem_singleton.2 rfl

theorem Turns.places (h : Turns a place ls ls' fs qs) :
    ∀ q ∈ qs, place ≤ q.place ∧ q.place < place + ls.length := by
  induction h with
  | nil => exact List.forall_mem_nil _
  | cons hl _ ih =>
    rw [List.forall_mem_append, List.length_cons]
    refine ⟨fun q hq => ?_, fun q hq => ?_⟩
    · have hp := hl.place_eq q hq
      omega
    · have hp := ih q hq
      omega

theorem Turns.at (h : Turns a place ls ls' fs qs) {i : Nat} (hl : ls[i]? = some l) :
    ∃ l' gs, ls'[i]? = some l' ∧
      l.Turned a (place + i) l' gs (qs.filter (·.place == place + i)) := by
  induction h generalizing i with
  | nil => cases hl
  | @cons place l₀ l₀' ls ls' fs gs qs rs hhead hrest ih =>
    rw [List.filter_append]
    cases i with
    | zero =>
      obtain rfl := Option.some.inj hl
      have hown : qs.filter (·.place == place) = qs :=
        List.filter_eq_self.2 fun q hq => by simpa using hhead.place_eq q hq
      have hothers : rs.filter (·.place == place) = [] := by
        refine List.filter_eq_nil_iff.2 fun q hq => ?_
        have hp := hrest.places q hq
        simp only [beq_iff_eq]
        omega
      exact ⟨l₀', fs, rfl, by rwa [Nat.add_zero, hown, hothers, List.append_nil]⟩
    | succ i =>
      have hothers : qs.filter (·.place == place + (i + 1)) = [] := by
        refine List.filter_eq_nil_iff.2 fun q hq => ?_
        have hp := hhead.place_eq q hq
        simp only [beq_iff_eq]
        omega
      obtain ⟨l', gs', hl', hturned⟩ := ih hl
      rw [Nat.add_right_comm] at hturned
      exact ⟨l', gs', hl', by rwa [hothers, List.nil_append]⟩

namespace Verifier

theorem probeArmed_turns {steps : List Verifier}
    (h : ∀ s ∈ steps, ∀ place asked, Turns a place s.leaves (s.probe oracle a asked place).1.leaves
      (s.probe oracle a asked place).2.1 (s.probe oracle a asked place).2.2)
    (place : Nat) (asked : List Inquiry) :
    Turns a place (leavesAll steps) (leavesAll (probeArmed oracle a asked place steps).1)
      (probeArmed oracle a asked place steps).2.1 (probeArmed oracle a asked place steps).2.2 := by
  induction steps generalizing place asked with
  | nil => exact .nil
  | cons step rest ih =>
    obtain ⟨hstep, hrest⟩ := List.forall_mem_cons.1 h
    simp only [probeArmed]
    split
    · split
      · have hall := (hstep place asked).append (.refl _ (leavesAll rest))
        rwa [List.append_nil, List.append_nil] at hall
      · exact (hstep place asked).append (ih hrest _ _)
    · exact (Turns.refl place step.leaves).append (ih hrest _ _)

theorem probe_turns (v : Verifier) (oracle : Oracle) (a : Action) (place : Nat)
    (asked : List Inquiry) :
    Turns a place v.leaves (v.probe oracle a asked place).1.leaves
      (v.probe oracle a asked place).2.1 (v.probe oracle a asked place).2.2 := by
  induction v using tree_induction generalizing place asked with
  | leaf l => exact .one (l.probe_turned asked)
  | inOrder passed left _ ih =>
    cases left with
    | nil => exact .refl _ _
    | cons step rest =>
      have hstep := (ih step (.head _) (place + (leavesAll passed).length) asked).append
        (.refl _ (leavesAll rest))
      have hall := (Turns.refl place (leavesAll passed)).append hstep
      rw [List.append_nil, List.append_nil] at hall
      simp only [probe]
      split
      · split
        · simpa [leaves, leavesAll, leavesAll_append] using hall
        · exact hall
      · exact .refl _ _
  | allOf steps fired ih => exact probeArmed_turns (fun s hs => ih s hs) place asked
  | unlocated inner ih => exact ih place asked

end Verifier

end Turns

end ControllerBench
