import ControllerBench.Observer.Verifier

namespace ControllerBench.Verifier

@[elab_as_elim]
theorem tree_induction {P : Verifier → Prop} (leaf : ∀ l, P (.leaf l))
    (inOrder : ∀ passed left, (∀ s ∈ passed, P s) → (∀ s ∈ left, P s) → P (.inOrder passed left))
    (allOf : ∀ steps fired, (∀ s ∈ steps, P s) → P (.allOf steps fired))
    (unlocated : ∀ inner, P inner → P (.unlocated inner)) (v : Verifier) : P v := by
  apply Verifier.rec (motive_1 := P) (motive_2 := fun steps => ∀ s ∈ steps, P s) leaf inOrder allOf
    unlocated
  · exact nofun
  · exact fun step rest hs hr => List.forall_mem_cons.2 ⟨hs, hr⟩

def steps : Verifier → List Verifier
  | leaf _ => []
  | inOrder passed left => passed ++ left
  | allOf steps _ => steps
  | unlocated inner => [inner]

def isComposite : Verifier → Bool
  | inOrder .. | allOf .. => true
  | leaf _ | unlocated _ => false

inductive Within (n : Verifier) : Verifier → Prop
  | self : Within n n
  | step {v s} : s ∈ v.steps → Within n s → Within n v

inductive Fresh : Verifier → Prop
  | leaf {l} : l.fired = false → Fresh (.leaf l)
  | sequence {steps} : (∀ s ∈ steps, Fresh s) → Fresh (.sequence steps)
  | all {steps} : (∀ s ∈ steps, Fresh s) → Fresh (.all steps)
  | unlocated {inner} : Fresh inner → Fresh (.unlocated inner)

def observe (v : Verifier) (as : List Action) : Verifier := as.foldl (fun v a => (v.offer a).1) v

def glance : Action := ⟨.get "a", .core "v1" "things", "", "ns"⟩

theorem observe_of_ignored {v : Verifier} (h : ∀ a, v.handles a = false) (as : List Action) :
    v.observe as = v := by
  induction as with
  | nil => rfl
  | cons a rest ih =>
    rw [observe, List.foldl_cons, offer, h a]
    exact ih

/-- A composite without steps: it is complete from the start, and handles nothing. -/
def vacuous : Verifier → Bool
  | leaf _ => false
  | inOrder passed left => passed.isEmpty && left.isEmpty
  | allOf steps _ => steps.isEmpty
  | unlocated inner => inner.vacuous

variable {a : Action}

theorem armedHandles_iff {steps : List Verifier} :
    armedHandles a steps = true ↔ ∃ s ∈ steps, s.fired = false ∧ s.handles a = true := by
  induction steps with
  | nil => simp [armedHandles]
  | cons step rest ih => simp [armedHandles, ih]

theorem handles_of_vacuous {v : Verifier} (h : v.vacuous = true) : v.handles a = false := by
  induction v using tree_induction with
  | leaf l => cases h
  | inOrder passed left =>
    simp only [vacuous, Bool.and_eq_true, List.isEmpty_iff] at h
    rw [h.2]
    rfl
  | allOf steps fired =>
    simp only [vacuous, List.isEmpty_iff] at h
    rw [h]
    rfl
  | unlocated inner ih => exact ih h

def Offered (a : Action) (s s' : Verifier) : Prop :=
  s' = s ∨ (s.fired = false ∧ s.handles a = true ∧ s' = (s.react a).1)

theorem reactArmed_cons (step : Verifier) (rest : List Verifier) :
    ((step.fired = true ∨ step.handles a = false) ∧
        (reactArmed a (step :: rest)).1 = step :: (reactArmed a rest).1) ∨
      (step.fired = false ∧ step.handles a = true ∧ (step.react a).1.fired = true ∧
        (reactArmed a (step :: rest)).1 = (step.react a).1 :: rest) ∨
      (step.fired = false ∧ step.handles a = true ∧ (step.react a).1.fired = false ∧
        (reactArmed a (step :: rest)).1 = (step.react a).1 :: (reactArmed a rest).1) := by
  simp only [reactArmed]
  cases hf : step.fired with
  | true => exact .inl ⟨.inl rfl, by simp⟩
  | false =>
    cases hh : step.handles a with
    | false => exact .inl ⟨.inr rfl, by simp⟩
    | true =>
      cases hs : (step.react a).1.fired with
      | true => exact .inr (.inl ⟨rfl, rfl, rfl, by simp⟩)
      | false => exact .inr (.inr ⟨rfl, rfl, rfl, by simp⟩)

def OfferedAll (a : Action) (steps steps' : List Verifier) : Prop :=
  (∀ s' ∈ steps', ∃ s ∈ steps, Offered a s s') ∧ ∀ s ∈ steps, ∃ s' ∈ steps', Offered a s s'

theorem OfferedAll.refl (steps : List Verifier) : OfferedAll a steps steps :=
  ⟨fun s hs => ⟨s, hs, .inl rfl⟩, fun s hs => ⟨s, hs, .inl rfl⟩⟩

theorem OfferedAll.cons {step step' : Verifier} {rest rest' : List Verifier}
    (hs : Offered a step step') (hr : OfferedAll a rest rest') :
    OfferedAll a (step :: rest) (step' :: rest') := by
  simp only [OfferedAll, List.mem_cons, exists_eq_or_imp, forall_eq_or_imp]
  exact ⟨⟨.inl hs, fun s' hm => .inr (hr.1 s' hm)⟩, ⟨.inl hs, fun s hm => .inr (hr.2 s hm)⟩⟩

theorem reactArmed_offered (steps : List Verifier) : OfferedAll a steps (reactArmed a steps).1 := by
  induction steps with
  | nil => exact .refl []
  | cons step rest ih =>
    rcases reactArmed_cons (a := a) step rest with ⟨-, he⟩ | ⟨hn, hh, -, he⟩ | ⟨hn, hh, -, he⟩
    · rw [he]
      exact .cons (.inl rfl) ih
    · rw [he]
      exact .cons (.inr ⟨hn, hh, rfl⟩) (.refl rest)
    · rw [he]
      exact .cons (.inr ⟨hn, hh, rfl⟩) ih

theorem reactArmed_length (steps : List Verifier) :
    (reactArmed a steps).1.length = steps.length := by
  induction steps with
  | nil => rfl
  | cons step rest ih =>
    rcases reactArmed_cons (a := a) step rest with ⟨-, he⟩ | ⟨-, -, -, he⟩ | ⟨-, -, -, he⟩ <;>
      simp [he, ih]

theorem inOrder_react {step : Verifier} (h : step.handles a = true) (passed rest : List Verifier) :
    ((inOrder passed (step :: rest)).react a).1 =
      if (step.react a).1.fired then inOrder (passed ++ [(step.react a).1]) rest
      else inOrder passed ((step.react a).1 :: rest) := by
  simp only [react, h, if_true]
  split <;> rfl

theorem vacuous_react (v : Verifier) : (v.react a).1.vacuous = v.vacuous := by
  induction v using tree_induction with
  | leaf l => rfl
  | inOrder passed left =>
    cases left with
    | nil => rfl
    | cons step rest =>
      cases hh : step.handles a with
      | false => simp [react, hh, vacuous]
      | true =>
        rw [inOrder_react hh]
        split <;> simp [vacuous]
  | allOf steps fired =>
    have hl := reactArmed_length (a := a) steps
    simp only [react, vacuous]
    rw [Bool.eq_iff_iff, List.isEmpty_iff, List.isEmpty_iff, ← List.length_eq_zero_iff, hl,
      List.length_eq_zero_iff]
  | unlocated inner ih => exact ih

end ControllerBench.Verifier
