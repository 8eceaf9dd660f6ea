import ControllerBench.Proofs.Observation.Completion

namespace ControllerBench

def Leaf.takes (l : Leaf) (a : Action) : Bool :=
  l.filter.handles a && !l.fired && (l.react a).1.fired

namespace Verifier

mutual

def leaves : Verifier → List Leaf
  | leaf l => [l]
  | inOrder passed left => leavesAll passed ++ leavesAll left
  | allOf steps _ => leavesAll steps
  | unlocated inner => inner.leaves

def leavesAll : List Verifier → List Leaf
  | [] => []
  | step :: rest => step.leaves ++ leavesAll rest

end

def newly (before after : List Leaf) : Nat :=
  (before.zip after).countP fun p => !p.1.fired && p.2.fired

def newlyFired (before after : Verifier) : Nat := newly before.leaves after.leaves

mutual

def takes (a : Action) : Verifier → Bool
  | leaf l => l.takes a
  | inOrder _ left => headTakes a left
  | allOf steps _ => armedTakes a steps
  | unlocated inner => inner.takes a

def headTakes (a : Action) : List Verifier → Bool
  | [] => false
  | step :: _ => step.takes a

def armedTakes (a : Action) : List Verifier → Bool
  | [] => false
  | step :: rest => (!step.fired && step.takes a) || armedTakes a rest

end

mutual

/-- In a set of steps, the first step to take the action does not fire and a later one takes it too. -/
def splits (a : Action) : Verifier → Bool
  | leaf _ => false
  | inOrder _ left => headSplits a left
  | allOf steps _ => armedSplits a steps
  | unlocated inner => inner.splits a

def headSplits (a : Action) : List Verifier → Bool
  | [] => false
  | step :: _ => step.splits a

def armedSplits (a : Action) : List Verifier → Bool
  | [] => false
  | step :: rest =>
    if !step.fired && step.takes a then
      step.splits a || (!(step.react a).1.fired && armedTakes a rest)
    else armedSplits a rest

end

theorem leavesAll_append (steps rest : List Verifier) :
    leavesAll (steps ++ rest) = leavesAll steps ++ leavesAll rest := by
  induction steps with
  | nil => rfl
  | cons step steps ih => simp [leavesAll, ih]

theorem mem_leavesAll {l : Leaf} {steps : List Verifier} :
    l ∈ leavesAll steps ↔ ∃ s ∈ steps, l ∈ s.leaves := by
  induction steps with
  | nil => simp [leavesAll]
  | cons step rest ih => simp [leavesAll, ih]

theorem newly_self (ls : List Leaf) : newly ls ls = 0 := by
  induction ls with
  | nil => rfl
  | cons l rest ih =>
    rw [newly, List.zip_cons_cons, List.countP_cons]
    simpa [newly] using ih

theorem newly_append {ls ls' : List Leaf} (h : ls.length = ls'.length) (ms ms' : List Leaf) :
    newly (ls ++ ms) (ls' ++ ms') = newly ls ls' + newly ms ms' := by
  rw [newly, List.zip_append h, List.countP_append]
  rfl

theorem fired_le {ls ls' : List Leaf} (h : ls.length = ls'.length) :
    ls'.countP (·.fired) ≤ ls.countP (·.fired) + newly ls ls' := by
  induction ls generalizing ls' with
  | nil =>
    rw [List.length_eq_zero_iff.1 h.symm]
    exact Nat.zero_le _
  | cons l rest ih =>
    cases ls' with
    | nil => cases h
    | cons l' rest' =>
      have hrest := ih (Nat.succ.inj h)
      simp only [newly, List.zip_cons_cons, List.countP_cons] at hrest ⊢
      cases l.fired <;> cases l'.fired <;> simp <;> omega

variable {a : Action}

theorem armedTakes_iff {steps : List Verifier} :
    armedTakes a steps = true ↔ ∃ s ∈ steps, s.fired = false ∧ s.takes a = true := by
  induction steps with
  | nil => simp [armedTakes]
  | cons step rest ih => simp [armedTakes, ih]

theorem handles_of_takes {v : Verifier} (h : v.takes a = true) : v.handles a = true := by
  induction v using tree_induction with
  | leaf l =>
    simp only [takes, Leaf.takes, Bool.and_eq_true] at h
    exact h.1.1
  | inOrder passed left _ ih =>
    cases left with
    | nil => cases h
    | cons step rest => exact ih step (.head _) h
  | allOf steps flag ih =>
    obtain ⟨s, hm, hf, ht⟩ := armedTakes_iff.1 h
    exact armedHandles_iff.2 ⟨s, hm, hf, ih s hm ht⟩
  | unlocated inner ih => exact ih h

theorem armedTakes_of_armedSplits {steps : List Verifier} (h : armedSplits a steps = true) :
    armedTakes a steps = true := by
  induction steps with
  | nil => cases h
  | cons step rest ih =>
    rw [armedSplits] at h
    rw [armedTakes, Bool.or_eq_true]
    split at h
    next ht => exact .inl ht
    · exact .inr (ih h)

theorem takes_of_splits {v : Verifier} (h : v.splits a = true) : v.takes a = true := by
  induction v using tree_induction with
  | leaf l => cases h
  | inOrder passed left _ ih =>
    cases left with
    | nil => cases h
    | cons step rest => exact ih step (.head _) h
  | allOf steps flag _ => exact armedTakes_of_armedSplits h
  | unlocated inner ih => exact ih h

theorem leavesAll_reactArmed_length {steps : List Verifier}
    (h : ∀ s ∈ steps, s.leaves.length = (s.react a).1.leaves.length) :
    (leavesAll steps).length = (leavesAll (reactArmed a steps).1).length := by
  induction steps with
  | nil => rfl
  | cons step rest ih =>
    have hstep := h step (.head _)
    have hrest := ih fun s hm => h s (.tail _ hm)
    rcases reactArmed_cons (a := a) step rest with ⟨-, he⟩ | ⟨-, -, -, he⟩ | ⟨-, -, -, he⟩ <;>
      simp only [he, leavesAll, List.length_append] <;> omega

theorem leaves_inOrder_react {step : Verifier} (h : step.handles a = true)
    (passed rest : List Verifier) :
    ((inOrder passed (step :: rest)).react a).1.leaves =
      leavesAll passed ++ ((step.react a).1.leaves ++ leavesAll rest) := by
  rw [inOrder_react h]
  split <;> simp [leaves, leavesAll, leavesAll_append]

theorem leaves_react_length (v : Verifier) : v.leaves.length = (v.react a).1.leaves.length := by
  induction v using tree_induction with
  | leaf l => rfl
  | inOrder passed left _ ih =>
    cases left with
    | nil => rfl
    | cons step rest =>
      cases hh : step.handles a with
      | false => simp [react, hh]
      | true => simp [leaves_inOrder_react hh, leaves, leavesAll, ih step (.head _)]
  | allOf steps flag ih => exact leavesAll_reactArmed_length ih
  | unlocated inner ih => exact ih

theorem leaves_observe_length (v : Verifier) (as : List Action) :
    v.leaves.length = (v.observe as).leaves.length := by
  rw [observe]
  refine List.foldlRecOn (motive := fun w : Verifier => v.leaves.length = w.leaves.length) as _ rfl ?_
  intro w hw a _
  rw [hw, offer]
  split
  · exact leaves_react_length w
  · rfl

structure Counted (a : Action) (v : Verifier) : Prop where
  fires : v.fired = false → (v.react a).1.fired = true → v.takes a = true
  some_leaf : 0 < newlyFired v (v.react a).1 ↔ v.takes a = true
  one_leaf : newlyFired v (v.react a).1 ≤ 1 ↔ v.splits a = false

theorem reactArmed_counted {steps : List Verifier}
    (h : ∀ s ∈ steps, s.fired = false → s.handles a = true → Counted a s) :
    (0 < newly (leavesAll steps) (leavesAll (reactArmed a steps).1) ↔ armedTakes a steps = true) ∧
      (newly (leavesAll steps) (leavesAll (reactArmed a steps).1) ≤ 1 ↔
        armedSplits a steps = false) := by
  induction steps with
  | nil => simp [newly, leavesAll, armedTakes, armedSplits, reactArmed]
  | cons step rest ih =>
    obtain ⟨hsome, hone⟩ := ih fun s hm => h s (.tail _ hm)
    have hlen := leaves_react_length (a := a) step
    rcases reactArmed_cons (a := a) step rest with ⟨hoff, he⟩ | ⟨hn, hh, hf, he⟩ | ⟨hn, hh, hf, he⟩
    · -- what is passed by would not have taken the action either
      have ht : (!step.fired && step.takes a) = false := by
        rw [Bool.eq_false_iff]
        intro ht
        simp only [Bool.and_eq_true, Bool.not_eq_true'] at ht
        rcases hoff with hoff | hoff
        · simp [hoff] at ht
        · simp [handles_of_takes ht.2] at hoff
      simp only [he, leavesAll, armedTakes, armedSplits, ht, newly_append rfl, newly_self]
      simpa using ⟨hsome, hone⟩
    · have hs := h step (.head _) hn hh
      have ht := hs.fires hn hf
      have hnew : 0 < newlyFired step (step.react a).1 := hs.some_leaf.2 ht
      have hone := hs.one_leaf
      simp only [he, leavesAll, armedTakes, armedSplits, newly_append hlen, newly_self, hn, ht, hf]
      rw [newlyFired] at hnew hone
      simpa using ⟨hnew, hone⟩
    · have hs := h step (.head _) hn hh
      have hstep := hs.some_leaf
      have hstep' := hs.one_leaf
      rw [newlyFired] at hstep hstep'
      simp only [he, leavesAll, armedTakes, armedSplits, newly_append hlen, hn, hf, Bool.not_false,
        Bool.true_and]
      cases ht : step.takes a with
      | false =>
        rw [ht] at hstep
        have hnone : newly step.leaves (step.react a).1.leaves = 0 := by simpa using hstep
        simpa [hnone] using ⟨hsome, hone⟩
      | true =>
        have hnew := hstep.2 ht
        constructor
        · simp only [Bool.true_or, iff_true]
          omega
        · simp only [if_true, Bool.or_eq_false_iff, ← hstep', ← Bool.not_eq_true (armedTakes a rest),
            ← hsome]
          omega

theorem newlyFired_inOrder {step : Verifier} (h : step.handles a = true)
    (passed rest : List Verifier) :
    newlyFired (inOrder passed (step :: rest)) ((inOrder passed (step :: rest)).react a).1 =
      newlyFired step (step.react a).1 := by
  rw [newlyFired, leaves_inOrder_react h, leaves, leavesAll, newly_append rfl, newly_self,
    newly_append (leaves_react_length step), newly_self]
  simp [newlyFired]

theorem Counted.leaf {l : Leaf} (h : l.filter.handles a = true) : Counted a (.leaf l) := by
  have htakes : takes a (.leaf l) = (!l.fired && (l.react a).1.fired) := by
    simp [Verifier.takes, Leaf.takes, h]
  have hone : newlyFired (.leaf l) (Verifier.react a (.leaf l)).1 =
      if takes a (.leaf l) then 1 else 0 := by
    rw [htakes]
    simp [newlyFired, newly, leaves, Verifier.react]
  refine ⟨?_, ?_, ?_⟩
  · intro hn hf
    rw [htakes, Bool.and_eq_true, Bool.not_eq_true']
    exact ⟨hn, hf⟩
  · rw [hone]
    split <;> simp_all
  · rw [hone]
    simp only [splits, iff_true]
    split <;> omega

theorem Counted.inOrder {step : Verifier} (h : Counted a step) (hn : step.fired = false)
    (hh : step.handles a = true) (passed rest : List Verifier) :
    Counted a (.inOrder passed (step :: rest)) := by
  refine ⟨?_, ?_, ?_⟩
  · intro _ hf
    rw [inOrder_react hh] at hf
    split at hf
    next hf' => exact h.fires hn hf'
    · cases hf
  · rw [newlyFired_inOrder hh]
    exact h.some_leaf
  · rw [newlyFired_inOrder hh]
    exact h.one_leaf

theorem Counted.allOf {steps : List Verifier} {flag : Bool} (hh : armedHandles a steps = true)
    (h : ∀ s ∈ steps, s.fired = false → s.handles a = true → Counted a s) :
    Counted a (.allOf steps flag) := by
  have hc := reactArmed_counted h
  refine ⟨?_, hc.1, hc.2⟩
  intro hn hf
  obtain ⟨s, hm, hns, hs⟩ := armedHandles_iff.1 hh
  have hflag : flag = false := hn
  simp only [Verifier.react, fired, hflag, Bool.false_or, List.all_eq_true] at hf
  obtain ⟨s', hs', ho⟩ := (reactArmed_offered (a := a) steps).2 s hm
  have hfs' := hf s' hs'
  rcases ho with rfl | ⟨-, -, rfl⟩
  · rw [hns] at hfs'
    cases hfs'
  · exact armedTakes_iff.2 ⟨s, hm, hns, (h s hm hns hs).fires hns hfs'⟩

theorem Sound.counted {v : Verifier} (h : Sound v) (hh : v.handles a = true) : Counted a v := by
  induction h with
  | leaf => exact .leaf hh
  | @inOrder passed left _ _ _ hlv _ ihl =>
    cases left with
    | nil => cases hh
    | cons step rest =>
      have hs := ihl step (.head _) hh
      exact hs.inOrder (not_fired_of_handles (hlv step (.head _)) hh) hh passed rest
  | allOf _ _ ih => exact .allOf hh fun s hm _ hs => ih s hm hs
  | unlocated _ ih =>
    have hi := ih hh
    exact ⟨hi.fires, hi.some_leaf, hi.one_leaf⟩

theorem Sound.offer_counted {v : Verifier} (h : Sound v) (a : Action) :
    newlyFired v (v.offer a).1 ≤ 1 ↔ v.splits a = false := by
  rw [Verifier.offer]
  split
  next hh => exact (h.counted hh).one_leaf
  next hh =>
    have hs : v.splits a = false := by
      rw [Bool.eq_false_iff]
      exact fun hs => hh (handles_of_takes (takes_of_splits hs))
    simp [newlyFired, newly_self, hs]

theorem Fresh.leaves_unfired {v : Verifier} (h : Fresh v) : ∀ l ∈ v.leaves, l.fired = false := by
  induction h with
  | leaf hl => simpa [leaves] using hl
  | sequence _ ih =>
    intro l hl
    simp only [Verifier.sequence, leaves, leavesAll, List.nil_append, mem_leavesAll] at hl
    obtain ⟨s, hm, hl⟩ := hl
    exact ih s hm l hl
  | all _ ih =>
    intro l hl
    simp only [Verifier.all, leaves, mem_leavesAll] at hl
    obtain ⟨s, hm, hl⟩ := hl
    exact ih s hm l hl
  | unlocated _ ih => exact ih

theorem Sound.fired_leaves_le {v : Verifier} (h : Sound v) {as : List Action}
    (hone : ∀ earlier a later, as = earlier ++ a :: later → (v.observe earlier).splits a = false) :
    (v.observe as).leaves.countP (·.fired) ≤ v.leaves.countP (·.fired) + as.length := by
  induction as generalizing v with
  | nil => exact Nat.le_refl _
  | cons a rest ih =>
    have hnew : newlyFired v (v.offer a).1 ≤ 1 := (h.offer_counted a).2 (hone [] a rest rfl)
    have hstep := fired_le (leaves_observe_length v [a])
    have hrest := ih (h.offer a) fun earlier b later he => hone (a :: earlier) b later (by rw [he]; rfl)
    rw [newlyFired] at hnew
    simp only [observe, List.foldl_cons, List.foldl_nil, List.length_cons] at hstep hrest ⊢
    omega

/--
An action fires one leaf, unless a set of steps hands it on from a step that it has moved along without
completing.
-/
theorem one_leaf_iff_not_split {v : Verifier} (h : Fresh v) (as : List Action) :
    (∀ a, newlyFired (v.observe as) ((v.observe as).offer a).1 ≤ 1 ↔
        (v.observe as).splits a = false) ∧
      ((∀ earlier a later, as = earlier ++ a :: later → (v.observe earlier).splits a = false) →
        (∀ l ∈ (v.observe as).leaves, l.fired = true) → v.leaves.length ≤ as.length) := by
  refine ⟨(h.sound_observe as).offer_counted, ?_⟩
  intro hone hall
  have hle := h.sound.fired_leaves_le hone
  have hnone : v.leaves.countP (·.fired) = 0 := by
    rw [List.countP_eq_zero]
    intro l hl
    simp [h.leaves_unfired l hl]
  have hevery := List.countP_eq_length.2 hall
  rw [hnone, hevery, ← leaves_observe_length] at hle
  omega

theorem same_step_twice_waits_for_two_actions :
    Fresh (all [seen .any, seen .any]) ∧
      newlyFired (all [seen .any, seen .any]) ((all [seen .any, seen .any]).offer glance).1 ≤ 1 ∧
      (all [seen .any, seen .any]).leaves.length ≤ [glance, glance].length := by
  have hfresh : Fresh (all [seen .any, seen .any]) :=
    .all (List.forall_mem_cons.2 ⟨.leaf rfl, List.forall_mem_cons.2 ⟨.leaf rfl, nofun⟩⟩)
  refine ⟨hfresh, ((one_leaf_iff_not_split hfresh []).1 glance).2 (by decide +kernel),
    (one_leaf_iff_not_split hfresh [glance, glance]).2 ?_ (by decide +kernel)⟩
  intro earlier a later he
  match earlier with
  | [] =>
    cases he
    decide +kernel
  | [_] =>
    cases he
    decide +kernel
  | _ :: _ :: _ => simp at he

theorem two_sequences_share_an_action :
    ∃ v, Fresh v ∧ newlyFired v (v.offer glance).1 = 2 ∧ v.leaves.length = 4 ∧
      ∀ l ∈ (v.observe [glance, glance, glance]).leaves, l.fired = true := by
  have hpair : Fresh (sequence [seen .any, seen .any]) :=
    .sequence (List.forall_mem_cons.2 ⟨.leaf rfl, List.forall_mem_cons.2 ⟨.leaf rfl, nofun⟩⟩)
  refine ⟨all [sequence [seen .any, seen .any], sequence [seen .any, seen .any]],
    .all (List.forall_mem_cons.2 ⟨hpair, List.forall_mem_cons.2 ⟨hpair, nofun⟩⟩), ?_⟩
  decide +kernel

end Verifier

end ControllerBench
