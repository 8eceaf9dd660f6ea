import ControllerBench.Proofs.Observation.Completion
import ControllerBench.Proofs.Observation.Reporting

namespace ControllerBench

/-- A caller may hold an action that it was told is handled and that it has not delivered yet. -/
structure Caller where
  held : Option Action := none
  todo : List Action

def Caller.outstanding (c : Caller) : List Action := c.held.toList ++ c.todo

structure Shared where
  verifier : Verifier
  said : List Failure := []
  callers : List Caller

namespace Shared

def share (v : Verifier) (work : List (List Action)) : Shared :=
  { verifier := v, callers := work.map fun todo => { todo } }

def turn (s : Shared) (i : Nat) : Shared :=
  match s.callers[i]? with
  | some ⟨some a, todo⟩ =>
    { verifier := (s.verifier.react a).1
      said := s.said ++ (s.verifier.react a).2
      callers := s.callers.set i ⟨none, todo⟩ }
  | some ⟨none, a :: todo⟩ =>
    { s with callers := s.callers.set i ⟨if s.verifier.handles a then some a else none, todo⟩ }
  | some ⟨none, []⟩ | none => s

def run (s : Shared) (turns : List Nat) : Shared := turns.foldl turn s

def outstanding (s : Shared) (i : Nat) : List Action :=
  (s.callers[i]?.map Caller.outstanding).getD []

end Shared

def ofCaller (i : Nat) (order : List (Nat × Action)) : List Action :=
  (order.filter fun e => e.1 == i).map (·.2)

theorem ofCaller_cons (i j : Nat) (a : Action) (order : List (Nat × Action)) :
    ofCaller i ((j, a) :: order) = (if j = i then [a] else []) ++ ofCaller i order := by
  by_cases h : j = i <;> simp [ofCaller, h]

theorem Leaf.react_filter (l : Leaf) (a : Action) : (l.react a).1.filter = l.filter := by
  unfold Leaf.react
  split
  · rfl
  · split <;> rfl

namespace Verifier

variable {a b : Action} {v : Verifier}

/-- Whether there has been, or may come, a time at which the action is handled. -/
def admits (a : Action) : Verifier → Bool
  | leaf l => l.filter.handles a
  | inOrder .. => true
  | allOf steps _ => !steps.all vacuous
  | unlocated inner => inner.admits a

theorem admits_of_handles (h : v.handles a = true) : v.admits a = true := by
  induction v using tree_induction with
  | leaf l => exact h
  | inOrder passed left => rfl
  | allOf steps flag =>
    obtain ⟨s, hs, -, hh⟩ := armedHandles_iff.1 h
    rw [admits, Bool.not_eq_true', List.all_eq_false]
    refine ⟨s, hs, fun hv => ?_⟩
    rw [handles_of_vacuous hv] at hh
    cases hh
  | unlocated inner ih => exact ih h

theorem all_vacuous_reactArmed (steps : List Verifier) :
    (reactArmed b steps).1.all vacuous = steps.all vacuous := by
  induction steps with
  | nil => rfl
  | cons step rest ih =>
    rcases reactArmed_cons (a := b) step rest with ⟨-, he⟩ | ⟨-, -, -, he⟩ | ⟨-, -, -, he⟩ <;>
      simp [he, ih, vacuous_react]

theorem admits_react (v : Verifier) : (v.react b).1.admits a = v.admits a := by
  induction v using tree_induction with
  | leaf l => exact congrArg (Filter.handles · a) (l.react_filter b)
  | inOrder passed left =>
    cases left with
    | nil => rfl
    | cons step rest =>
      cases hh : step.handles b with
      | false => simp [react, hh, admits]
      | true =>
        rw [inOrder_react hh]
        split <;> rfl
  | allOf steps flag =>
    simp only [react, admits, all_vacuous_reactArmed]
  | unlocated inner ih => exact ih

theorem reactArmed_unarmed {steps : List Verifier} (h : armedHandles a steps = false) :
    reactArmed a steps = (steps, []) := by
  induction steps with
  | nil => rfl
  | cons step rest ih =>
    rw [armedHandles, Bool.or_eq_false_iff] at h
    rw [reactArmed, h.1, ih h.2]
    rfl

theorem Sound.react_late (h : Sound v) (ha : v.admits a = true) (hh : v.handles a = false) :
    v.react a = (v, []) := by
  induction h with
  | @leaf l => exact absurd (hh.symm.trans ha) Bool.false_ne_true
  | @inOrder passed left _ _ _ _ =>
    cases left with
    | nil => rfl
    | cons step rest =>
      have hstep : step.handles a = false := hh
      simp [Verifier.react, hstep]
  | @allOf steps flag _ hc =>
    have hkept : (flag || steps.all fired) = flag := by
      cases hf : steps.all fired with
      | false => exact Bool.or_false flag
      | true =>
        -- all steps have fired, and the set is not one of those that never notice
        have hst : ¬(Verifier.allOf steps flag).Stalled := by
          rintro ⟨-, hvac⟩
          have hall : steps.all vacuous = true := List.all_eq_true.2 hvac
          rw [admits, hall] at ha
          cases ha
        rw [hc.2 ⟨List.all_eq_true.1 hf, hst⟩]
        rfl
    rw [Verifier.react, reactArmed_unarmed hh]
    simp only [hkept]
  | unlocated _ ih =>
    rw [Verifier.react, ih ha hh]

theorem Sound.react_eq_offer (h : Sound v) (ha : v.admits a = true) : v.react a = v.offer a := by
  rw [Verifier.offer]
  split
  · rfl
  next hh => exact h.react_late ha (by simpa using hh)

end Verifier

namespace Shared

variable {s : Shared}

structure Ready (s : Shared) : Prop where
  sound : s.verifier.Sound
  admitted : ∀ c ∈ s.callers, ∀ a, c.held = some a → s.verifier.admits a = true

theorem outstanding_set {i : Nat} {c c' : Caller} (hc : s.callers[i]? = some c) (v : Verifier)
    (said : List Failure) (j : Nat) :
    outstanding ⟨v, said, s.callers.set i c'⟩ j = if i = j then c'.outstanding else s.outstanding j := by
  obtain ⟨hlt, -⟩ := List.getElem?_eq_some_iff.1 hc
  by_cases h : i = j
  · subst h
    simp [outstanding, hlt]
  · simp [outstanding, List.getElem?_set_ne h, h]

/-- A call either leaves everything as it was, or decides about the next action of its caller. -/
theorem Ready.turn (h : Ready s) (i : Nat) :
    (s.turn i).Ready ∧
      (((∀ j, s.outstanding j = (s.turn i).outstanding j) ∧ (s.turn i).verifier = s.verifier ∧
          (s.turn i).said = s.said) ∨
        ∃ a, (∀ j, s.outstanding j = (if i = j then [a] else []) ++ (s.turn i).outstanding j) ∧
          (s.turn i).verifier = (s.verifier.offer a).1 ∧
          (s.turn i).said = s.said ++ (s.verifier.offer a).2) := by
  unfold Shared.turn
  split
  next a todo hc =>
    have hoffer := h.sound.react_eq_offer (h.admitted _ (List.mem_of_getElem? hc) a rfl)
    refine ⟨⟨hoffer ▸ h.sound.offer a, ?_⟩, .inr ⟨a, ?_, by rw [hoffer], by rw [hoffer]⟩⟩
    · intro c hm b hb
      rw [Verifier.admits_react]
      rcases List.mem_or_eq_of_mem_set hm with hm | rfl
      · exact h.admitted c hm b hb
      · cases hb
    · intro j
      rw [outstanding_set hc]
      by_cases hij : i = j
      · subst hij
        simp [outstanding, hc, Caller.outstanding]
      · simp [hij]
  next a todo hc =>
    refine ⟨⟨h.sound, ?_⟩, ?_⟩
    · intro c hm b hb
      rcases List.mem_or_eq_of_mem_set hm with hm | rfl
      · exact h.admitted c hm b hb
      · simp only at hb
        split at hb
        next hh =>
          cases hb
          exact Verifier.admits_of_handles hh
        · cases hb
    · cases hh : s.verifier.handles a with
      | true =>
        refine .inl ⟨fun j => ?_, rfl, rfl⟩
        rw [outstanding_set hc]
        split
        next hij =>
          subst hij
          simp [outstanding, hc, Caller.outstanding]
        · rfl
      | false =>
        refine .inr ⟨a, fun j => ?_, by simp [Verifier.offer, hh], by simp [Verifier.offer, hh]⟩
        rw [outstanding_set hc]
        by_cases hij : i = j
        · subst hij
          simp [outstanding, hc, Caller.outstanding]
        · simp [hij]
  · exact ⟨h, .inl ⟨fun _ => rfl, rfl, rfl⟩⟩
  · exact ⟨h, .inl ⟨fun _ => rfl, rfl, rfl⟩⟩

theorem Ready.run (h : Ready s) (turns : List Nat) :
    ∃ order : List (Nat × Action),
      (∀ i, s.outstanding i = ofCaller i order ++ (s.run turns).outstanding i) ∧
        (s.run turns).verifier = s.verifier.observe (order.map (·.2)) ∧
        (s.run turns).said = s.said ++ s.verifier.complaints (order.map (·.2)) := by
  induction turns generalizing s with
  | nil => exact ⟨[], fun _ => rfl, rfl, (List.append_nil _).symm⟩
  | cons i turns ih =>
    obtain ⟨hready, hturn⟩ := h.turn i
    obtain ⟨order, hout, hverifier, hsaid⟩ := ih hready
    rcases hturn with ⟨hsame, hv, hs⟩ | ⟨a, hnext, hv, hs⟩
    · rw [hv] at hverifier hsaid
      rw [hs] at hsaid
      exact ⟨order, fun j => (hsame j).trans (hout j), hverifier, hsaid⟩
    · refine ⟨(i, a) :: order, fun j => ?_, ?_, ?_⟩
      · rw [hnext j, hout j, ofCaller_cons, List.append_assoc]
        rfl
      · rw [hv] at hverifier
        exact hverifier
      · rw [hv, hs] at hsaid
        rw [List.map_cons, Verifier.complaints, ← List.append_assoc]
        exact hsaid

theorem outstanding_share (v : Verifier) (work : List (List Action)) (i : Nat) :
    (share v work).outstanding i = work.getD i [] := by
  simp only [share, outstanding, List.getElem?_map, Option.map_map, List.getD_eq_getElem?_getD]
  cases work[i]? <;> rfl

/-- However the calls of the callers alternate, the outcome is that of one action after the other. -/
theorem concurrent_offers_take_an_order {v : Verifier} (h : v.Fresh) (work : List (List Action))
    (turns : List Nat) :
    ∃ order : List (Nat × Action),
      (∀ i, work.getD i [] = ofCaller i order ++ ((share v work).run turns).outstanding i) ∧
        ((share v work).run turns).verifier = v.observe (order.map (·.2)) ∧
        ((share v work).run turns).said = v.complaints (order.map (·.2)) := by
  have hready : (share v work).Ready := by
    refine ⟨h.sound, fun c hm a ha => ?_⟩
    obtain ⟨todo, -, rfl⟩ := List.mem_map.1 hm
    cases ha
  obtain ⟨order, hout, hverifier, hsaid⟩ := hready.run turns
  exact ⟨order, fun i => (outstanding_share v work i).symm.trans (hout i), hverifier, hsaid⟩

def race : Shared := (share (.sequence [.seen .any]) [[Verifier.glance], [Verifier.glance]]).run [0, 1, 0, 1]

theorem late_delivery_takes_its_turn :
    (Verifier.sequence [.seen .any]).Fresh ∧ race.verifier.fired = true ∧
      ∃ order, ofCaller 0 order = [Verifier.glance] ∧ ofCaller 1 order = [Verifier.glance] ∧
        race.verifier = (Verifier.sequence [.seen .any]).observe (order.map (·.2)) ∧
        race.said = (Verifier.sequence [.seen .any]).complaints (order.map (·.2)) := by
  have hfresh : (Verifier.sequence [.seen .any]).Fresh :=
    .sequence (List.forall_mem_cons.2 ⟨.leaf rfl, nofun⟩)
  obtain ⟨order, hout, hverifier, hsaid⟩ :=
    concurrent_offers_take_an_order hfresh [[Verifier.glance], [Verifier.glance]] [0, 1, 0, 1]
  have hdone (i : Nat) (hi : i < 2) : race.outstanding i = [] := by
    match i with
    | 0 => decide +kernel
    | 1 => decide +kernel
  have hcaller (i : Nat) (hi : i < 2) : ofCaller i order = [[Verifier.glance], [Verifier.glance]].getD i [] := by
    have heq := hout i
    change _ = _ ++ race.outstanding i at heq
    rw [hdone i hi, List.append_nil] at heq
    exact heq.symm
  exact ⟨hfresh, by decide +kernel, order, hcaller 0 (by decide), hcaller 1 (by decide), hverifier, hsaid⟩

end Shared

end ControllerBench
