import ControllerBench.Proofs.Judging.Case
import ControllerBench.Proofs.Judging.Losses
import Mathlib.Data.List.Perm.Subperm

namespace ControllerBench

def Failure.blames (root : Reporter) (f : Failure) : Bool :=
  f.scope == root.scope && f.site == .harness &&
    "controller manager failed: ".toList.isPrefixOf f.message.toList

namespace Failure

variable {root : Reporter} {f : Failure}

theorem blames_of_declared (h : f.site = .declared) : f.blames root = false := by
  simp [blames, h]

end Failure

namespace Verifier

variable {a : Action}

theorem reactArmed_sites {steps : List Verifier}
    (h : ∀ s ∈ steps, ∀ f ∈ (s.react a).2, f.site = .declared) :
    ∀ f ∈ (reactArmed a steps).2, f.site = .declared := by
  induction steps with
  | nil => exact List.forall_mem_nil _
  | cons step rest ih =>
    obtain ⟨hstep, hrest⟩ := List.forall_mem_cons.1 h
    simp only [reactArmed]
    split
    · split
      · exact hstep
      · exact List.forall_mem_append.2 ⟨hstep, ih hrest⟩
    · exact ih hrest

theorem react_sites (v : Verifier) : ∀ f ∈ (v.react a).2, f.site = .declared := by
  induction v using tree_induction with
  | leaf l =>
    simp only [Verifier.react, Leaf.react]
    split
    · exact List.forall_mem_nil _
    · split
      · exact List.forall_mem_nil _
      · unfold Leaf.complaint
        split
        · exact List.forall_mem_nil _
        · exact List.forall_mem_singleton.2 rfl
  | inOrder passed left _ ih =>
    cases left with
    | nil => exact List.forall_mem_nil _
    | cons step rest =>
      have hstep := ih step List.mem_cons_self
      simp only [Verifier.react]
      split
      · split <;> exact hstep
      · exact List.forall_mem_nil _
  | allOf steps fired ih => exact reactArmed_sites ih
  | unlocated inner ih => exact ih

end Verifier

namespace Bench

variable {root : Reporter} {b : Bench}

def Unblamed (root : Reporter) (b : Bench) : Prop :=
  ∀ f ∈ b.failures.toList, f.blames root = false

theorem Unblamed.of_eq {c : Bench} (h : b.Unblamed root) (hc : c.failures = b.failures) :
    c.Unblamed root := by
  rw [Unblamed, hc]
  exact h

theorem Unblamed.report {fs : List Failure} (h : b.Unblamed root)
    (hf : ∀ f ∈ fs, f.blames root = false) : (b.report fs).Unblamed root := by
  rw [Unblamed, Bench.report, Array.toList_append]
  exact List.forall_mem_append.2 ⟨h, hf⟩

theorem Unblamed.reply (h : b.Unblamed root) (slot : Nat) (a : Action) :
    (b.reply slot a).2.Unblamed root := by
  unfold Bench.reply
  split
  · exact h
  next v waited _ => exact Unblamed.report h fun f hf => Failure.blames_of_declared (v.react_sites f hf)
  · exact h
  · exact h

end Bench

variable {root : Reporter} {fuel : Nat} {config : Config} {t t' : Schedule}

namespace TestEvent

variable {e : TestEvent}

end TestEvent

namespace TestCase

end TestCase

namespace Simulation

/-- The controllers are set up, and none has done anything yet. -/
structure Untouched (s : Simulation) : Prop where
  waiting : ∀ p ∈ s.phases, p = .waiting
  endings : s.endings = []
  active : s.cancelled = false

variable {s : Simulation}

theorem Untouched.stopped (h : s.Untouched) : s.stopped = [] := by
  rw [Simulation.stopped, List.filterMap_eq_nil_iff]
  intro p hp
  rw [h.waiting p hp]
  rfl

end Simulation

namespace TestCase

end TestCase

end ControllerBench
