import ControllerBench.Proofs.Judging.Course
import ControllerBench.Proofs.Judging.Upheld
import ControllerBench.TestCase
import Mathlib.Logic.Relation

namespace ControllerBench

namespace Simulation

/-- A schedule has no task overlook a cancellation, and has each pass made at one go. -/
inductive Works (s : Simulation) : Simulation → Prop
  | call {depth outcome bench} {script : Script} :
      script.run (Bench.invoke depth) s.bench = some (outcome, bench) → Works s { s with bench }
  | arrange {bench} : bench.events = s.bench.events → Works s { s with bench }
  | task {depth t s'} : s.canRun t = true → s.step depth t = some s' → Works s s'

def Leads : Simulation → Simulation → Prop := Relation.ReflTransGen Works

variable {s s' : Simulation}

theorem Leads.refl (s : Simulation) : s.Leads s := Relation.ReflTransGen.refl

theorem Leads.trans {u : Simulation} (h : s.Leads u) (h' : u.Leads s') : s.Leads s' :=
  Relation.ReflTransGen.trans h h'

theorem Works.leads (h : s.Works s') : s.Leads s' := .single h

theorem Works.step (h : s.Works s') : ∃ m, s.Step .none m s' .none := by
  cases h with
  | call h => exact ⟨_, .call h⟩
  | arrange h => exact ⟨_, .arrange h⟩
  | task hc h => exact ⟨_, .task (.heed (fun _ _ => rfl) hc h)⟩

theorem leads_arrange {b : Bench} (h : b.events = s.bench.events) : s.Leads { s with bench := b } :=
  (Works.arrange h).leads

theorem leads_invoke {depth : Nat} {a : Action} {result : Except Error Response} {b : Bench}
    (h : s.bench.invoke depth a = some (result, b)) : s.Leads { s with bench := b } := by
  have hrun : (Script.invoke a fun _ => .done .pass).run (Bench.invoke depth) s.bench =
      some (.pass, b) := by
    simp only [Script.run, h]
  exact (Works.call hrun).leads

theorem Leads.keeps {I : Simulation → Prop} (hI : ∀ s s', s.Works s' → I s → I s')
    (h : s.Leads s') (hs : I s) : I s' := by
  induction h with
  | refl => exact hs
  | tail _ hstep ih => exact hI _ _ hstep ih

end Simulation

namespace Bench

theorem foldl_employ_events (rs : List (Reactor Script)) (b : Bench) :
    (rs.foldl employ b).events = b.events := by
  induction rs generalizing b with
  | nil => rfl
  | cons r rest ih => exact ih (b.employ r)

end Bench

namespace Schedule

open Simulation

variable {fuel : Nat} {t t' : Schedule}

theorem addController_cases {name : String} {watches : List Resource} {reconciler : Reconciler}
    {result : Except Error Unit} (h : t.addController name watches reconciler = .ok (result, t')) :
    (result = .ok () ∧
        t' = ⟨{ t.sim with controllers := t.sim.controllers ++ [{ name, watches, reconciler }] },
          t.ready ++ [.controller t.sim.controllers.length]⟩) ∨
      (∃ e, result = .error e) ∧ t' = t := by
  unfold addController at h
  split at h
  · cases h
  · split at h
    next sim hsim =>
      cases h
      obtain ⟨-, rfl⟩ := addController_ok hsim
      exact .inl ⟨rfl, rfl⟩
    next e he =>
      cases h
      exact .inr ⟨⟨e, rfl⟩, rfl⟩

theorem start_cases (t : Schedule) :
    (t.start.1 = .ok () ∧ t.sim.started = false ∧
        t.start.2 = wake ⟨{ t.sim with
          started := true
          router := { t.sim.router with phase := .running, unlisted := t.sim.watched } },
          t.ready ++ [.router]⟩) ∨
      (∃ e, t.start.1 = .error e) ∧ t.start.2 = t := by
  unfold start
  cases hsim : t.sim.start with
  | ok sim =>
    obtain ⟨hs, rfl⟩ := start_ok hsim
    exact .inl ⟨rfl, hs, rfl⟩
  | error e => exact .inr ⟨⟨e, rfl⟩, rfl⟩

end Schedule

namespace TestEvent

open Simulation

variable {e : TestEvent} {fuel : Nat} {r : Reporter} {t t' : Schedule}

end TestEvent

end ControllerBench
