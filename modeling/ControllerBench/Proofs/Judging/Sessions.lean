import ControllerBench.Proofs.Judging.InStep
import ControllerBench.Proofs.Store.Keys
import ControllerBench.Scenario.Session

namespace ControllerBench

namespace Simulation

variable {s s' : Simulation}

theorem leads_react {depth slot : Nat} {a : Action} {outcome : Outcome} {b : Bench}
    (h : s.bench.react (Bench.invoke depth) slot a = some (outcome, b)) :
    s.Leads { s with bench := b } := by
  rw [Bench.react_eq_reply] at h
  have hreply : (s.bench.reply slot a).2.events = s.bench.events := by
    unfold Bench.reply
    split <;> rfl
  exact (leads_arrange hreply).trans
    (Works.call (s := { s with bench := (s.bench.reply slot a).2 }) h).leads

end Simulation

namespace Session

def Step.resize (q : Nat) : Step → Step
  | manage config => manage { config with queueSize := q }
  | s => s

def Answer.resize (q : Nat) : Answer → Answer
  | managed r => managed (r.map fun config => { config with queueSize := q })
  | a => a

/-- What a step goes by that is about a single reactor and runs no script of it. -/
def Step.label? : Step → Option String
  | inject label _ | state label | judge label | wait label _ => some label
  | _ => none

def Step.isManaging : Step → Bool
  | manage _ | register _ | start | stop => true
  | _ => false

end Session

namespace Schedule.InStep

open Session

variable {R : Schedule → Schedule → Prop} (hR : InStep R) {t t' u u' : Schedule} {fuel fuel' q : Nat}
  {a a' : Answer}

include hR

theorem call (h : R t t') {c : Call} {result result' : Except Error Response}
    (hu : Session.call fuel t c = .ok (result, u)) (hu' : Session.call fuel' t' c = .ok (result', u')) :
    result' = result ∧ R u u' := by
  unfold Session.call at hu hu'
  cases ha : c.action with
  | error e =>
    simp only [ha] at hu hu'
    cases hu
    cases hu'
    exact ⟨rfl, h⟩
  | ok action =>
    simp only [ha] at hu hu'
    split at hu
    · cases hu
    next r v hv =>
      split at hu'
      · cases hu'
      next r' v' hv' =>
        cases hu
        cases hu'
        obtain ⟨rfl, hvv⟩ := hR.invoke h hv hv'
        exact ⟨rfl, hvv⟩

theorem logs (h : R t t') : t'.logs = t.logs := by
  rw [Schedule.logs, Schedule.logs, hR.controllers h]

theorem reactor? (h : R t t') (label : String) : Session.reactor? t' label = Session.reactor? t label := by
  rw [Session.reactor?, Session.reactor?, hR.bench h]

theorem offer (h : R t t') {label : String} {action : Action} {force : Bool}
    (hu : Session.offer fuel t label action force = .ok (a, u))
    (hu' : Session.offer fuel' t' label action force = .ok (a', u')) : a' = a.resize q ∧ R u u' := by
  have hbench := hR.bench h
  unfold Session.offer at hu hu'
  rw [hR.reactor? h] at hu'
  split at hu
  next hl =>
    simp only [hl] at hu'
    cases hu
    cases hu'
    exact ⟨rfl, h⟩
  next slot r hl =>
    simp only [hl] at hu'
    by_cases hn : (r.handles action || force) = true
    · rw [if_pos hn] at hu hu'
      split at hu
      · cases hu
      next outcome b hb =>
        split at hu'
        · cases hu'
        next outcome' b' hb' =>
          cases hu
          cases hu'
          obtain ⟨rfl, rfl⟩ := Prod.mk.inj (Bench.react_agree (hbench ▸ hb) hb')
          have hbb := hR.worked h (Simulation.leads_react hb) (Simulation.leads_react hb')
          rw [hR.reactor? hbb]
          exact ⟨rfl, hbb⟩
    · rw [if_neg hn] at hu hu'
      cases hu
      cases hu'
      exact ⟨rfl, h⟩

theorem command (h : R t t') {r : Except Error Tracker} :
    (Session.command t' r).1 = (Session.command t r).1.resize q ∧
      R (Session.command t r).2 (Session.command t' r).2 := by
  cases r with
  | error => exact ⟨rfl, h⟩
  | ok tracker =>
    refine ⟨rfl, ?_⟩
    rw [Session.command, Session.command, Session.setTracker, Session.setTracker, ← hR.bench h]
    exact hR.setBench h rfl

theorem write (h : R t t') {o : Object} {r : Except Error Tracker} :
    (Session.write t' o r).1 = (Session.write t o r).1.resize q ∧
      R (Session.write t o r).2 (Session.write t' o r).2 := by
  cases r with
  | error => exact ⟨rfl, h⟩
  | ok tracker =>
    refine ⟨rfl, ?_⟩
    rw [Session.write, Session.write, Session.setTracker, Session.setTracker, ← hR.bench h]
    exact hR.setBench h rfl

theorem added (h : R t t') (hu : R u u') : Session.added t' u' = (Session.added t u).resize q := by
  rw [Session.added, Session.added, hR.bench h, hR.bench hu]
  rfl

theorem unlabelled (h : R t t') {s : Step} {label : String} (hs : s.label? = some label)
    (hl : Session.reactor? t label = none) (hx : Session.step fuel t s = .ok (a, u))
    (hx' : Session.step fuel' t' s = .ok (a', u')) : a' = a.resize q ∧ R u u' := by
  have hl' := (hR.reactor? h label).trans hl
  cases s with
  | inject | state | judge | wait =>
    obtain rfl := Option.some.inj hs
    simp only [Session.step, hl, hl'] at hx hx'
    cases hx
    cases hx'
    exact ⟨rfl, h⟩
  | _ => cases hs

theorem step (h : R t t') {s : Step} (hs : s.isManaging = false)
    (hx : Session.step fuel t s = .ok (a, u)) (hx' : Session.step fuel' t' s = .ok (a', u')) :
    a' = a.resize q ∧ R u u' := by
  have hbench := hR.bench h
  cases s with
  | manage | register | start | stop => cases hs
  | actions | describe | find | stored | isEmpty | failures | report =>
    cases hx
    cases hx'
    rw [hbench]
    exact ⟨rfl, h⟩
  | call c =>
    obtain ⟨⟨r, v⟩, hv, hr⟩ := Tracker.map_eq_ok hx
    obtain ⟨⟨r', v'⟩, hv', hr'⟩ := Tracker.map_eq_ok hx'
    cases hr
    cases hr'
    obtain ⟨rfl, hvv⟩ := hR.call h hv hv'
    exact ⟨rfl, hvv⟩
  | seed | erase =>
    simp only [Session.step, ← hbench, Except.ok.injEq] at hx hx'
    obtain ⟨ha, hu⟩ := hR.command h
    rw [hx, hx'] at ha hu
    exact ⟨ha, hu⟩
  | store | replace =>
    simp only [Session.step, ← hbench, Except.ok.injEq] at hx hx'
    obtain ⟨ha, hu⟩ := hR.write h
    rw [hx, hx'] at ha hu
    exact ⟨ha, hu⟩
  | install =>
    cases hx
    cases hx'
    rw [← hbench]
    exact ⟨rfl, hR.setBench h (Bench.rewires_install ..).events⟩
  | remove =>
    cases hx
    cases hx'
    rw [← hbench]
    exact ⟨rfl, hR.setBench h (Bench.rewires_remove ..).events⟩
  | inject label scope =>
    cases hl : Session.reactor? t label with
    | none => exact hR.unlabelled h rfl hl hx hx'
    | some x =>
      simp only [Session.step, hR.reactor? h, ← hbench, hl] at hx hx'
      cases hx
      cases hx'
      exact ⟨rfl, hR.setBench h (Bench.rewires_inject ..).events⟩
  | offer => exact hR.offer h hx hx'
  | state label =>
    cases hl : Session.reactor? t label with
    | none => exact hR.unlabelled h rfl hl hx hx'
    | some x =>
      simp only [Session.step, hR.reactor? h, hl] at hx hx'
      cases hx
      cases hx'
      exact ⟨rfl, h⟩
  | judge label =>
    cases hl : Session.reactor? t label with
    | none => exact hR.unlabelled h rfl hl hx hx'
    | some x =>
      simp only [Session.step, hR.reactor? h, ← hbench, hl] at hx hx'
      cases hx
      cases hx'
      have hu : R (t.setBench (Bench.judge t.bench.reporter t.bench x.1))
          (t'.setBench (Bench.judge t.bench.reporter t.bench x.1)) := by
        refine hR.setBench h ?_
        rw [Bench.judge_eq]
        rfl
      exact ⟨hR.added h hu, hu⟩
  | wait label timeout =>
    cases hl : Session.reactor? t label with
    | none => exact hR.unlabelled h rfl hl hx hx'
    | some x =>
      simp only [Session.step, hR.reactor? h, hl] at hx hx'
      obtain ⟨⟨r, v⟩, hv, hr⟩ := Tracker.map_eq_ok hx
      obtain ⟨⟨r', v'⟩, hv', hr'⟩ := Tracker.map_eq_ok hx'
      cases hr
      cases hr'
      obtain ⟨rfl, hvv⟩ := hR.wait h hv hv'
      exact ⟨rfl, hvv⟩
  | runEvent e config =>
    obtain ⟨v, hv, hr⟩ := Tracker.map_eq_ok hx
    obtain ⟨v', hv', hr'⟩ := Tracker.map_eq_ok hx'
    cases hr
    cases hr'
    rw [← hbench] at hv'
    have hvv := hR.runEvent h rfl hv hv'
    exact ⟨hR.added h hvv, hvv⟩
  | settle =>
    obtain ⟨v, hv, hr⟩ := Tracker.map_eq_ok hx
    obtain ⟨v', hv', hr'⟩ := Tracker.map_eq_ok hx'
    cases hr
    cases hr'
    have hvv := hR.settle h hv hv'
    rw [hR.logs hvv]
    exact ⟨rfl, hvv⟩
  | logs =>
    cases hx
    cases hx'
    rw [hR.logs h]
    exact ⟨rfl, h⟩

end Schedule.InStep

end ControllerBench
