import ControllerBench.Proofs.Judging.Work

namespace ControllerBench

def Phase.error? : Phase → Option Error
  | .ended (.error e) => some e
  | .ended (.ok ()) | .waiting | .running => none

theorem Phase.error?_of_running {p : Phase} (h : p.isEnded = false) : p.error? = none := by
  cases p with
  | ended => cases h
  | waiting | running => rfl

theorem Controller.conclude_phase (c : Controller) (r : Request) (outcome : Outcome) :
    (c.conclude r outcome).phase = c.phase ∨
      ∃ e, (c.conclude r outcome).phase = .ended (.error e) := by
  unfold conclude
  split
  · exact .inl rfl
  · split
    · exact .inl rfl
    · exact .inl rfl
    next e _ => exact .inr ⟨e, rfl⟩

namespace Simulation

variable {s s' : Simulation} {e : Error}

def phases (s : Simulation) : List Phase := s.controllers.map (·.phase)

def stopped (s : Simulation) : List Error := s.phases.filterMap Phase.error?

theorem phases_getElem? {i : Nat} {c : Controller} (hc : s.controllers[i]? = some c) :
    s.phases[i]? = some c.phase := by
  rw [phases, List.getElem?_map, hc]
  rfl

theorem phases_set (s : Simulation) (i : Nat) (c : Controller) :
    (s.setController i c).phases = s.phases.set i c.phase := List.map_set

theorem phases_set_same {i : Nat} {c c' : Controller} (hc : s.controllers[i]? = some c)
    (hp : c'.phase = c.phase) : (s.setController i c').phases = s.phases := by
  obtain ⟨hlt, hi⟩ := List.getElem?_eq_some_iff.1 (phases_getElem? hc)
  rw [phases_set, hp, ← hi, List.set_getElem_self]

theorem mem_stopped : e ∈ s.stopped ↔ ∃ p ∈ s.phases, p.error? = some e := List.mem_filterMap

theorem mem_stopped_set {i : Nat} {c c' : Controller} (hc : s.controllers[i]? = some c)
    (hn : c.phase.isEnded = false) :
    e ∈ (s.setController i c').stopped ↔ c'.phase.error? = some e ∨ e ∈ s.stopped := by
  have hi := phases_getElem? hc
  have hlt : i < s.phases.length := (List.getElem?_eq_some_iff.1 hi).1
  simp only [mem_stopped, phases_set]
  constructor
  · rintro ⟨p, hp, he⟩
    rcases List.mem_or_eq_of_mem_set hp with hp | rfl
    · exact .inr ⟨p, hp, he⟩
    · exact .inl he
  · rintro (he | ⟨p, hp, he⟩)
    · exact ⟨c'.phase, List.mem_set hlt _, he⟩
    · obtain ⟨j, hj⟩ := List.mem_iff_getElem?.1 hp
      -- the one that is replaced had no error
      have hne : i ≠ j := by
        rintro rfl
        cases hi.symm.trans hj
        rw [Phase.error?_of_running hn] at he
        cases he
      exact ⟨p, List.mem_of_getElem? ((List.getElem?_set_ne hne).trans hj), he⟩

theorem joinEndings_append (es fs : List (Except Error Unit)) :
    (joinEndings (es ++ fs)).1 =
      match (joinEndings es).1 with
      | .ok () => (joinEndings fs).1
      | .error e => .error e := by
  induction es with
  | nil => rfl
  | cons r rest ih =>
    cases r with
    | ok => exact ih
    | error e => rfl

/-- An answer tells of the errors if it is one of them, and is none only if there are none. -/
def Tells (es : List Error) : Except Error Unit → Prop
  | .ok () => ∀ e, e ∉ es
  | .error e => e ∈ es

theorem Tells.congr {es fs : List Error} (h : ∀ e, e ∈ es ↔ e ∈ fs) {result : Except Error Unit}
    (ht : Tells es result) : Tells fs result := by
  cases result with
  | ok => exact fun e he => ht e ((h e).2 he)
  | error e => exact (h e).1 ht

/--
As long as nothing is cancelled a task ends only for an error, and the first to end is a controller: the router
fails on a controller that has ended before it.
-/
structure Tally (s : Simulation) : Prop where
  active : s.cancelled = false
  failed : ∀ p ∈ s.phases, p.isEnded = true → ∃ e, p.error? = some e
  told : Tells s.stopped (joinEndings s.endings).1

namespace Tally

theorem congr (h : s.Tally) (hc : s'.cancelled = s.cancelled) (hp : s'.phases = s.phases)
    (he : s'.endings = s.endings) : s'.Tally := by
  have hstopped : s'.stopped = s.stopped := congrArg (List.filterMap Phase.error?) hp
  refine ⟨hc.trans h.active, ?_, ?_⟩
  · rw [hp]
    exact h.failed
  · rw [hstopped, he]
    exact h.told

theorem routerMove (h : s.Tally) (hs : s.RouterMove s') : s'.Tally := by
  cases hs with
  | send _ _ hc _ _ => exact h.congr rfl (phases_set_same hc rfl) rfl
  | @fail d i rest c _ _ hc he _ =>
    have hp := List.mem_of_getElem? (phases_getElem? hc)
    obtain ⟨e, hce⟩ := h.failed _ hp he
    refine ⟨h.active, h.failed, ?_⟩
    -- the controller it failed on is told of already
    have htold := h.told
    rw [endRouter, joinEndings_append]
    cases hj : (joinEndings s.endings).1 with
    | ok =>
      rw [hj] at htold
      exact absurd (mem_stopped.2 ⟨_, hp, hce⟩) (htold e)
    | error e' =>
      rw [hj] at htold
      exact htold
  | leave _ _ hc =>
    rw [h.active] at hc
    cases hc
  | finish | pass | block | found | list | event => exact h.congr rfl rfl rfl

theorem passed {i : Nat} {c c' : Controller} (h : s.Tally) (hc : s.controllers[i]? = some c)
    (hn : c.phase.isEnded = false)
    (hp : c'.phase = c.phase ∨ ∃ e, c'.phase = .ended (.error e)) (bench : Bench) :
    (s.passed i c' bench).Tally := by
  rcases hp with hsame | ⟨e, hstop⟩
  · have hending := Phase.ending?_eq_none.2 ((congrArg Phase.isEnded hsame).trans hn)
    refine h.congr rfl (phases_set_same hc hsame) ?_
    rw [Simulation.passed, hending]
    exact List.append_nil _
  · have herror : c'.phase.error? = some e := by rw [hstop]; rfl
    refine ⟨h.active, ?_, ?_⟩
    · intro p hp he
      rcases List.mem_or_eq_of_mem_set (phases_set s i c' ▸ hp) with hp | rfl
      · exact h.failed p hp he
      · exact ⟨e, herror⟩
    · have hmem (x : Error) : x ∈ (s.passed i c' bench).stopped ↔
          c'.phase.error? = some x ∨ x ∈ s.stopped := mem_stopped_set hc hn
      have htold := h.told
      rw [Simulation.passed, hstop, Phase.ending?, Option.toList, joinEndings_append]
      cases hj : (joinEndings s.endings).1 with
      | ok => exact (hmem e).2 (.inl herror)
      | error e' =>
        rw [hj] at htold
        exact (hmem e').2 (.inr htold)

theorem turn {depth i : Nat} {c : Controller} (h : s.Tally) (hc : s.controllers[i]? = some c)
    (hs : Turn depth s i c s') : s'.Tally := by
  cases hs with
  | enter hp _ =>
    have hn : c.phase.isEnded = false := by rw [hp]; rfl
    refine ⟨h.active, ?_, h.told.congr fun e => ?_⟩
    · intro p hp' he
      rcases List.mem_or_eq_of_mem_set (phases_set .. ▸ hp') with hp' | rfl
      · exact h.failed p hp' he
      · cases he
    · rw [mem_stopped_set hc hn]
      simp [Phase.error?]
  | quit _ hcancel =>
    rw [h.active] at hcancel
    cases hcancel
  | @pass r rest outcome bench hp _ _ _ =>
    have hend := Controller.conclude_phase { c with queue := rest, taken := c.taken.push r } r outcome
    exact h.passed hc (by rw [hp]; rfl) hend bench

theorem works (h : s.Tally) (hs : s.Works s') : s'.Tally := by
  cases hs with
  | call | arrange => exact h.congr rfl rfl rfl
  | @task depth k _ hcan hk =>
    cases k with
    | router =>
      exact h.routerMove (router_runs hcan hk).2
    | controller i =>
      obtain ⟨c, hc, hm⟩ := controller_runs hcan hk
      exact h.turn hc hm

theorem leads (h : s.Tally) (hs : s.Leads s') : s'.Tally :=
  hs.keeps (fun _ _ hw ht => ht.works hw) h

end Tally

/-- Once the tasks are cancelled no controller makes another pass, so none can stop for an error any more. -/
structure CalledOff (s : Simulation) : Prop where
  cancelled : s.cancelled = true
  stopped : ∀ e, e ∉ s.stopped

namespace CalledOff

theorem congr (h : s.CalledOff) (hc : s'.cancelled = s.cancelled) (hp : s'.phases = s.phases) :
    s'.CalledOff := by
  have hstopped : s'.stopped = s.stopped := congrArg (List.filterMap Phase.error?) hp
  exact ⟨hc.trans h.cancelled, hstopped ▸ h.stopped⟩

theorem works (h : s.CalledOff) (hs : s.Works s') : s'.CalledOff := by
  cases hs with
  | call | arrange => exact h.congr rfl rfl
  | @task depth k _ hcan hk =>
    cases k with
    | router =>
      cases (router_runs hcan hk).2 with
      | send _ _ hc _ _ => exact h.congr rfl (phases_set_same hc rfl)
      | finish | pass | fail | block | found | list | leave | event => exact h.congr rfl rfl
    | controller i =>
      obtain ⟨c, hc, hm⟩ := controller_runs hcan hk
      obtain ⟨he, rfl⟩ := hm.quits h.cancelled
      refine ⟨h.cancelled, fun e hmem => ?_⟩
      rcases (mem_stopped_set hc he).1 hmem with hmem | hmem
      · cases hmem
      · exact h.stopped e hmem

end CalledOff

end Simulation

end ControllerBench
