import ControllerBench.Proofs.Observation.Tree

namespace ControllerBench.Verifier

def remaining : Verifier → List Verifier
  | inOrder _ left => left
  | allOf steps _ => steps
  | leaf _ | unlocated _ => []

def Stalled (n : Verifier) : Prop := n.remaining ≠ [] ∧ ∀ s ∈ n.remaining, s.vacuous = true

instance (n : Verifier) : Decidable n.Stalled :=
  inferInstanceAs (Decidable (n.remaining ≠ [] ∧ ∀ s ∈ n.remaining, s.vacuous = true))

inductive Sound : Verifier → Prop
  | leaf {l} : Sound (.leaf l)
  | inOrder {passed left} : (∀ s ∈ passed, Sound s) → (∀ s ∈ left, Sound s) →
      (∀ s ∈ passed, s.fired = true) → (∀ s ∈ left, s.fired = true → s.vacuous = true) →
      Sound (.inOrder passed left)
  | allOf {steps flag} : (∀ s ∈ steps, Sound s) →
      (flag = true ↔ (∀ s ∈ steps, s.fired = true) ∧ ¬(Verifier.allOf steps flag).Stalled) →
      Sound (.allOf steps flag)
  | unlocated {inner} : Sound inner → Sound (.unlocated inner)

theorem Fresh.vacuous_of_fired {v : Verifier} (h : Fresh v) (hf : v.fired = true) :
    v.vacuous = true := by
  induction h with
  | leaf hl =>
    rw [fired, hl] at hf
    cases hf
  | sequence _ => simpa [Verifier.sequence, vacuous, fired] using hf
  | all _ => simpa [Verifier.all, vacuous, fired] using hf
  | unlocated _ ih => exact ih hf

theorem Fresh.sound {v : Verifier} (h : Fresh v) : Sound v := by
  induction h with
  | leaf _ => exact .leaf
  | sequence hs ih => exact .inOrder nofun ih nofun fun s hm hf => (hs s hm).vacuous_of_fired hf
  | all hs ih =>
    refine .allOf ih ?_
    rw [List.isEmpty_iff]
    constructor
    · rintro rfl
      exact ⟨nofun, fun hst => hst.1 rfl⟩
    · rintro ⟨hf, hst⟩
      exact Decidable.byContradiction fun hne =>
        hst ⟨hne, fun s hm => (hs s hm).vacuous_of_fired (hf s hm)⟩
  | unlocated _ ih => exact .unlocated ih

theorem Sound.fired_of_vacuous {v : Verifier} (h : Sound v) (hv : v.vacuous = true) :
    v.fired = true := by
  induction h with
  | leaf => cases hv
  | inOrder _ _ _ _ =>
    simp only [vacuous, Bool.and_eq_true] at hv
    exact hv.2
  | allOf _ hc =>
    simp only [vacuous, List.isEmpty_iff] at hv
    subst hv
    exact hc.2 ⟨List.forall_mem_nil _, fun hst => hst.1 rfl⟩
  | unlocated _ ih => exact ih hv

variable {a : Action}

theorem not_fired_of_handles {s : Verifier} (h : s.fired = true → s.vacuous = true)
    (hh : s.handles a = true) : s.fired = false := by
  rw [Bool.eq_false_iff]
  intro hf
  rw [handles_of_vacuous (h hf)] at hh
  cases hh

theorem Offered.vacuous {s s' : Verifier} (h : Offered a s s') : s'.vacuous = s.vacuous := by
  rcases h with rfl | ⟨-, -, rfl⟩
  · rfl
  · exact vacuous_react s

theorem not_stalled_of_armed {steps : List Verifier} (h : armedHandles a steps = true) (flag : Bool) :
    ¬(allOf (reactArmed a steps).1 flag).Stalled := by
  rintro ⟨-, hst⟩
  obtain ⟨armed, hm, -, hh⟩ := armedHandles_iff.1 h
  obtain ⟨s', hs', ho⟩ := (reactArmed_offered (a := a) steps).2 armed hm
  have hv : armed.vacuous = true := ho.vacuous ▸ hst s' hs'
  rw [handles_of_vacuous hv] at hh
  cases hh

theorem Sound.react {v : Verifier} (h : Sound v) (hh : v.handles a = true) : Sound (v.react a).1 := by
  induction h with
  | leaf => exact .leaf
  | @inOrder passed left hp hl hpf hlv ihp ihl =>
    cases left with
    | nil => cases hh
    | cons step rest =>
      have hs : Sound (step.react a).1 := ihl step (.head _) hh
      have hrest : ∀ s ∈ rest, Sound s := fun s hm => hl s (.tail _ hm)
      have hwait : ∀ s ∈ rest, s.fired = true → s.vacuous = true := fun s hm => hlv s (.tail _ hm)
      have hh' : step.handles a = true := hh
      rw [inOrder_react hh']
      split
      next hf =>
        exact .inOrder (List.forall_mem_append.2 ⟨hp, by simpa using hs⟩) hrest
          (List.forall_mem_append.2 ⟨hpf, by simpa using hf⟩) hwait
      next hf =>
        exact .inOrder hp (List.forall_mem_cons.2 ⟨hs, hrest⟩) hpf
          (List.forall_mem_cons.2 ⟨fun hf' => absurd hf' hf, hwait⟩)
  | @allOf steps flag hs hc ih =>
    obtain ⟨armed, hm, hnf, -⟩ := armedHandles_iff.1 hh
    refine .allOf ?_ ?_
    · intro s' hs'
      rcases (reactArmed_offered (a := a) steps).1 s' hs' with ⟨s, hsm, rfl | ⟨-, hsh, rfl⟩⟩
      · exact hs _ hsm
      · exact ih s hsm hsh
    · have hflag : flag = false := by
        rw [Bool.eq_false_iff]
        intro hf
        rw [(hc.1 hf).1 armed hm] at hnf
        cases hnf
      rw [hflag, Bool.false_or, List.all_eq_true]
      exact ⟨fun hf => ⟨hf, not_stalled_of_armed hh _⟩, fun h => h.1⟩
  | unlocated _ ih => exact .unlocated (ih hh)

theorem Sound.offer {v : Verifier} (h : Sound v) (a : Action) : Sound (v.offer a).1 := by
  rw [Verifier.offer]
  split
  next hh => exact h.react hh
  · exact h

theorem Fresh.sound_observe {v : Verifier} (h : Fresh v) (as : List Action) : Sound (v.observe as) := by
  rw [observe]
  refine List.foldlRecOn as _ h.sound ?_
  intro v hv a _
  exact hv.offer a

theorem Sound.within {n v : Verifier} (hn : Within n v) (h : Sound v) : Sound n := by
  induction hn with
  | self => exact h
  | step hs _ ih =>
    refine ih ?_
    cases h with
    | leaf => cases hs
    | inOrder hp hl _ _ => exact (List.mem_append.1 hs).elim (hp _) (hl _)
    | allOf hs' _ => exact hs' _ hs
    | unlocated hi =>
      rw [List.mem_singleton.1 hs]
      exact hi

theorem Sound.fired_iff {n : Verifier} (h : Sound n) (hc : n.isComposite = true) :
    n.fired = true ↔ (∀ s ∈ n.steps, s.fired = true) ∧ ¬n.Stalled := by
  cases h with
  | leaf => cases hc
  | unlocated _ => cases hc
  | allOf _ hf => exact hf
  | @inOrder passed left _ _ hpf hlv =>
    simp only [fired, steps, Stalled, remaining, List.isEmpty_iff, List.forall_mem_append]
    constructor
    · rintro rfl
      exact ⟨⟨hpf, List.forall_mem_nil _⟩, fun hst => hst.1 rfl⟩
    · rintro ⟨⟨-, hlf⟩, hst⟩
      exact Decidable.byContradiction fun hne => hst ⟨hne, fun s hm => hlv s hm (hlf s hm)⟩

theorem Sound.fired_of_stalled {n : Verifier} (h : Sound n) (hst : n.Stalled) :
    ∀ s ∈ n.steps, s.fired = true := by
  cases h with
  | leaf => exact absurd rfl hst.1
  | unlocated _ => exact absurd rfl hst.1
  | allOf hs _ => exact fun s hm => (hs s hm).fired_of_vacuous (hst.2 s hm)
  | inOrder _ hl hpf _ =>
    exact List.forall_mem_append.2 ⟨hpf, fun s hm => (hl s hm).fired_of_vacuous (hst.2 s hm)⟩

/--
A composite fires with the last of its steps to fire, so one left with nothing but steps that had no steps
themselves waits for ever.
-/
theorem completes_iff_not_stalled {v n : Verifier} {as : List Action} (h : Fresh v)
    (hn : Within n (v.observe as)) (hc : n.isComposite = true) :
    ((n.fired = true ↔ ∀ s ∈ n.steps, s.fired = true) ↔ ¬n.Stalled) ∧
      ∀ passed step rest, n = .inOrder passed (step :: rest) →
        (step.fired = true ↔ step.vacuous = true) ∧
        (step.vacuous = true → ∀ later, n.observe later = n) := by
  have hsound := (h.sound_observe as).within hn
  have hfired := hsound.fired_iff hc
  refine ⟨⟨?_, ?_⟩, ?_⟩
  · intro hiff hst
    exact (hfired.1 (hiff.2 (hsound.fired_of_stalled hst))).2 hst
  · intro hst
    exact ⟨fun hf => (hfired.1 hf).1, fun hf => hfired.2 ⟨hf, hst⟩⟩
  · rintro passed step rest rfl
    cases hsound with
    | inOrder _ hl _ hlv =>
      refine ⟨⟨hlv step (.head _), (hl step (.head _)).fired_of_vacuous⟩, ?_⟩
      intro hv later
      have hstuck : ∀ a, (Verifier.inOrder passed (step :: rest)).handles a = false :=
        fun _ => handles_of_vacuous (v := step) hv
      exact observe_of_ignored hstuck later

theorem empty_sequence_beside_another_step :
    ((all [seen .any, sequence []]).observe [glance]).fired = true ↔
      ∀ s ∈ ((all [seen .any, sequence []]).observe [glance]).steps, s.fired = true := by
  have hfresh : Fresh (all [seen .any, sequence []]) :=
    .all (List.forall_mem_cons.2 ⟨.leaf rfl, List.forall_mem_cons.2 ⟨.sequence nofun, nofun⟩⟩)
  exact (completes_iff_not_stalled hfresh .self (by decide +kernel)).1.2 (by decide +kernel)

theorem nested_empty_sequence_never_completes :
    Fresh (sequence [sequence []]) ∧ (∀ s ∈ (sequence [sequence []]).steps, s.fired = true) ∧
      ∀ as, ((sequence [sequence []]).observe as).fired = false := by
  refine ⟨.sequence (List.forall_mem_cons.2 ⟨.sequence nofun, nofun⟩), by decide, ?_⟩
  intro as
  have hignored : ∀ a, (sequence [sequence []]).handles a = false := fun _ => rfl
  rw [observe_of_ignored hignored]
  rfl

end ControllerBench.Verifier
