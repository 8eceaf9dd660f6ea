import ControllerBench.Proofs.Observation.Tree

namespace ControllerBench

theorem Leaf.react_reporter (l : Leaf) (a : Action) : (l.react a).1.reporter = l.reporter := by
  unfold Leaf.react
  split
  · rfl
  · split <;> rfl

namespace Verifier

inductive ReportsTo (r : Option Reporter) : Verifier → Prop
  | leaf {l} : l.reporter = r → ReportsTo r (.leaf l)
  | inOrder {passed left} : (∀ s ∈ passed, ReportsTo r s) → (∀ s ∈ left, ReportsTo r s) →
      ReportsTo r (.inOrder passed left)
  | allOf {steps fired} : (∀ s ∈ steps, ReportsTo r s) → ReportsTo r (.allOf steps fired)
  | unlocated {inner} : ReportsTo r inner → ReportsTo r (.unlocated inner)

def Scoped (r : Option Reporter) (fs : List Failure) : Prop :=
  ∀ f ∈ fs, ∃ reporter, r = some reporter ∧ f.scope = reporter.scope

variable {r : Option Reporter} {a : Action}

theorem Scoped.append {fs gs : List Failure} (h : Scoped r fs) (h' : Scoped r gs) :
    Scoped r (fs ++ gs) :=
  List.forall_mem_append.2 ⟨h, h'⟩

theorem Scoped.eq_nil {fs : List Failure} (h : Scoped none fs) : fs = [] := by
  rw [List.eq_nil_iff_forall_not_mem]
  intro f hf
  obtain ⟨reporter, hr, -⟩ := h f hf
  cases hr

theorem scoped_leaf (l : Leaf) (a : Action) : Scoped l.reporter (l.react a).2 := by
  unfold Leaf.react
  split
  · exact List.forall_mem_nil _
  · split
    · exact List.forall_mem_nil _
    · unfold Leaf.complaint
      split
      · exact List.forall_mem_nil _
      next reporter hr =>
        intro f hf
        obtain rfl := List.mem_singleton.1 hf
        exact ⟨reporter, hr, rfl⟩

theorem reactArmed_reportsTo {steps : List Verifier} (h : ∀ s ∈ steps, ReportsTo r s)
    (hs : ∀ s ∈ steps, ReportsTo r (s.react a).1 ∧ Scoped r (s.react a).2) :
    (∀ s ∈ (reactArmed a steps).1, ReportsTo r s) ∧ Scoped r (reactArmed a steps).2 := by
  induction steps with
  | nil => exact ⟨List.forall_mem_nil _, List.forall_mem_nil _⟩
  | cons step rest ih =>
    obtain ⟨hstep, hrest⟩ := List.forall_mem_cons.1 h
    obtain ⟨⟨hnext, hsaid⟩, hothers⟩ := List.forall_mem_cons.1 hs
    obtain ⟨hall, hmore⟩ := ih hrest hothers
    simp only [reactArmed]
    split
    · split
      · exact ⟨List.forall_mem_cons.2 ⟨hnext, hrest⟩, hsaid⟩
      · exact ⟨List.forall_mem_cons.2 ⟨hnext, hall⟩, hsaid.append hmore⟩
    · exact ⟨List.forall_mem_cons.2 ⟨hstep, hall⟩, hmore⟩

theorem ReportsTo.react {v : Verifier} (h : ReportsTo r v) (a : Action) :
    ReportsTo r (v.react a).1 ∧ Scoped r (v.react a).2 := by
  induction h with
  | @leaf l hl => exact ⟨.leaf ((l.react_reporter a).trans hl), hl ▸ scoped_leaf l a⟩
  | @inOrder passed left hpassed hleft _ ih =>
    cases left with
    | nil => exact ⟨.inOrder hpassed hleft, List.forall_mem_nil _⟩
    | cons step rest =>
      obtain ⟨hstep, hsaid⟩ := (List.forall_mem_cons.1 ih).1
      obtain ⟨-, hrest⟩ := List.forall_mem_cons.1 hleft
      simp only [Verifier.react]
      split
      · split
        · exact ⟨.inOrder (List.forall_mem_append.2 ⟨hpassed, by simpa using hstep⟩) hrest, hsaid⟩
        · exact ⟨.inOrder hpassed (List.forall_mem_cons.2 ⟨hstep, hrest⟩), hsaid⟩
      · exact ⟨.inOrder hpassed hleft, List.forall_mem_nil _⟩
  | allOf hsteps ih =>
    obtain ⟨hall, hsaid⟩ := reactArmed_reportsTo hsteps ih
    exact ⟨.allOf hall, hsaid⟩
  | unlocated _ ih => exact ⟨.unlocated ih.1, ih.2⟩

theorem injectAll_eq_map (reporter : Reporter) (steps : List Verifier) :
    injectAll reporter steps = steps.map (inject reporter) := by
  induction steps with
  | nil => rfl
  | cons step rest ih => simp [injectAll, ih]

theorem ReportsTo.inject {v : Verifier} (h : ReportsTo none v) (reporter : Reporter) :
    ReportsTo (some reporter) (v.inject reporter) := by
  induction h with
  | leaf hl => exact .leaf (by simp [Leaf.inject, hl])
  | inOrder _ _ ihp ihl =>
    simp only [Verifier.inject, injectAll_eq_map]
    exact .inOrder (List.forall_mem_map.2 ihp) (List.forall_mem_map.2 ihl)
  | allOf _ ih =>
    simp only [Verifier.inject, injectAll_eq_map]
    exact .allOf (List.forall_mem_map.2 ih)
  | unlocated _ ih => exact .unlocated ih

def complaints : Verifier → List Action → List Failure
  | _, [] => []
  | v, a :: rest => (v.offer a).2 ++ (v.offer a).1.complaints rest

theorem complaints_concat (v : Verifier) (as : List Action) (a : Action) :
    v.complaints (as ++ [a]) = v.complaints as ++ ((v.observe as).offer a).2 := by
  induction as generalizing v with
  | nil => simp [complaints, observe]
  | cons b rest ih => simp [complaints, ih, observe]

theorem ReportsTo.offer {v : Verifier} (h : ReportsTo r v) (a : Action) :
    ReportsTo r (v.offer a).1 ∧ Scoped r (v.offer a).2 := by
  unfold Verifier.offer
  split
  · exact h.react a
  · exact ⟨h, List.forall_mem_nil _⟩

theorem ReportsTo.scoped_complaints {v : Verifier} (h : ReportsTo r v) (as : List Action) :
    Scoped r (v.complaints as) := by
  induction as generalizing v with
  | nil => exact List.forall_mem_nil _
  | cons a rest ih => exact (h.offer a).2.append (ih (h.offer a).1)

end Verifier

end ControllerBench
