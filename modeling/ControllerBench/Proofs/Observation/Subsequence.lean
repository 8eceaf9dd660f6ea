import Mathlib.Data.List.Forall2
import Mathlib.Data.List.Induction
import Mathlib.Data.List.NodupEquivFin
import Mathlib.Order.Bounds.Basic
import ControllerBench.Proofs.Judging.Observing
import ControllerBench.Proofs.Observation.Acceptance

namespace ControllerBench

section Greedy

variable {S A : Type} (R : S → A → Bool)

/-- Positions of the list, one further on than the other, at which the steps meet what is to their liking. -/
def Embeds (steps : List S) (as : List A) : Prop :=
  ∃ place : Fin steps.length → Fin as.length, StrictMono place ∧ ∀ j, R steps[j] as[place j] = true

/-- How many steps are met if each element meets the first step not met so far, or none. -/
def matched : List S → List A → Nat
  | [], _ => 0
  | _ :: _, [] => 0
  | s :: rest, a :: as => if R s a then matched rest as + 1 else matched (s :: rest) as

variable {R} {s : S} {a : A} {steps rest : List S} {as : List A}

theorem embeds_iff : Embeds R steps as ↔ steps.SublistForall₂ (fun s a => R s a = true) as := by
  rw [List.sublistForall₂_iff]
  constructor
  · rintro ⟨place, hmono, hok⟩
    refine ⟨List.ofFn fun j => as[place j], ?_, ?_⟩
    · rw [List.forall₂_iff_get]
      exact ⟨by simp, fun j hj _ => by simpa using hok ⟨j, hj⟩⟩
    · rw [List.sublist_iff_exists_fin_orderEmbedding_get_eq]
      refine ⟨(Fin.castOrderIso List.length_ofFn).toOrderEmbedding.trans
        (OrderEmbedding.ofStrictMono place hmono), fun j => ?_⟩
      rw [List.get_eq_getElem, List.getElem_ofFn]
      rfl
  · rintro ⟨chosen, hall, hsub⟩
    obtain ⟨place, hplace⟩ := List.sublist_iff_exists_fin_orderEmbedding_get_eq.1 hsub
    refine ⟨fun j => place (j.cast hall.length_eq), ?_, fun j => ?_⟩
    · exact place.strictMono.comp fun _ _ h => h
    · have hj := hall.get (i := j) j.isLt (hall.length_eq ▸ j.isLt)
      have hp := hplace (j.cast hall.length_eq)
      simp only [List.get_eq_getElem, Fin.val_cast] at hj hp
      simpa [← hp] using hj

theorem matched_le (steps : List S) (as : List A) : matched R steps as ≤ steps.length := by
  fun_induction matched R steps as with
  | case1 => exact Nat.le_refl _
  | case2 => exact Nat.zero_le _
  | case3 s rest a as _ ih => exact Nat.succ_le_succ ih
  | case4 s rest a as _ ih => exact ih

theorem embeds_matched (steps : List S) (as : List A) :
    Embeds R (steps.take (matched R steps as)) as := by
  rw [embeds_iff]
  fun_induction matched R steps as with
  | case1 => exact .nil
  | case2 => exact .nil
  | case3 s rest a as h ih => exact .cons h ih
  | case4 s rest a as _ ih => exact .cons_right ih

theorem sublistForall₂_tail (h : (s :: rest).SublistForall₂ (fun s a => R s a = true) as) :
    rest.SublistForall₂ (fun s a => R s a = true) as := by
  obtain ⟨chosen, hall, hsub⟩ := List.sublistForall₂_iff.1 h
  cases hall with
  | cons _ hrest => exact List.sublistForall₂_iff.2 ⟨_, hrest, (List.sublist_cons_self ..).trans hsub⟩

/-- No embedding meets more steps than meeting each step as early as possible does. -/
theorem le_matched {k : Nat} (hk : k ≤ steps.length) (h : Embeds R (steps.take k) as) :
    k ≤ matched R steps as := by
  rw [embeds_iff] at h
  fun_induction matched R steps as generalizing k with
  | case1 => exact hk
  | case2 s rest =>
    cases k with
    | zero => exact Nat.le_refl _
    | succ k => cases h
  | case3 s rest a as hok ih =>
    cases k with
    | zero => exact Nat.zero_le _
    | succ k =>
      have hk' : k ≤ rest.length := Nat.le_of_succ_le_succ hk
      cases h with
      | cons _ h => exact Nat.succ_le_succ (ih hk' h)
      | cons_right h => exact Nat.succ_le_succ (ih hk' (sublistForall₂_tail h))
  | case4 s rest a as hok ih =>
    cases k with
    | zero => exact Nat.zero_le _
    | succ k =>
      cases h with
      | cons hs _ => exact absurd hs hok
      | cons_right h => exact ih hk h

theorem isGreatest_matched (steps : List S) (as : List A) :
    IsGreatest {k | k ≤ steps.length ∧ Embeds R (steps.take k) as} (matched R steps as) :=
  ⟨⟨matched_le steps as, embeds_matched steps as⟩, fun _ h => le_matched h.1 h.2⟩

theorem matched_eq_length : matched R steps as = steps.length ↔ Embeds R steps as := by
  constructor
  · intro h
    have he := embeds_matched (R := R) steps as
    rwa [h, List.take_length] at he
  · intro h
    rw [← steps.take_length] at h
    exact Nat.le_antisymm (matched_le steps as) (le_matched (Nat.le_refl _) h)

theorem matched_ignored (h : ∀ s ∈ steps, R s a = false) :
    matched R steps (a :: as) = matched R steps as := by
  cases steps with
  | nil => simp [matched]
  | cons s rest => simp [matched, h s (.head _)]

theorem matched_filter {p : A → Bool} (h : ∀ s ∈ steps, ∀ a, R s a = true → p a = true) :
    matched R steps (as.filter p) = matched R steps as := by
  induction as generalizing steps with
  | nil => rfl
  | cons a as ih =>
    cases hp : p a with
    | false =>
      have hnone : ∀ s ∈ steps, R s a = false := fun s hs => by
        rw [Bool.eq_false_iff]
        intro hok
        rw [h s hs a hok] at hp
        cases hp
      rw [List.filter_cons_of_neg (by simp [hp]), matched_ignored hnone, ih h]
    | true =>
      rw [List.filter_cons_of_pos hp]
      cases steps with
      | nil => simp [matched]
      | cons s rest =>
        simp only [matched]
        rw [ih h, ih fun s hs => h s (.tail _ hs)]

end Greedy

namespace Verifier

variable {leaves : List Leaf}

theorem observe_sequence (h : ∀ l ∈ leaves, l.fired = false) (passed : List Verifier)
    (as : List Action) :
    (inOrder passed (leaves.map leaf)).observe as =
      inOrder
        (passed ++ (leaves.take (matched Leaf.accepts leaves as)).map fun l => leaf l.fire)
        ((leaves.drop (matched Leaf.accepts leaves as)).map leaf) := by
  induction as generalizing leaves passed with
  | nil => cases leaves <;> simp [matched, observe]
  | cons a as ih =>
    cases leaves with
    | nil =>
      have hdone : ∀ a, (inOrder passed ([].map leaf)).handles a = false := fun _ => rfl
      rw [observe_of_ignored hdone]
      simp [matched]
    | cons l rest =>
      obtain ⟨hl, hrest⟩ := List.forall_mem_cons.1 h
      rw [observe, List.foldl_cons, sequence_offer hl]
      change observe _ as = _
      rw [matched]
      split
      · rw [ih hrest]
        simp
      · exact ih h passed

theorem countP_fired_sequence (h : ∀ l ∈ leaves, l.fired = false) (k : Nat) (hk : k ≤ leaves.length) :
    ((leaves.take k).map (fun l => leaf l.fire) ++ (leaves.drop k).map leaf).countP fired = k := by
  have hmet : ((leaves.take k).map fun l => leaf l.fire).countP fired = k := by
    have hall : ∀ l ∈ leaves.take k, (fired ∘ fun l => leaf l.fire) l = true := fun _ _ => rfl
    rw [List.countP_map, List.countP_eq_length.2 hall, List.length_take]
    exact Nat.min_eq_left hk
  have hleft : ((leaves.drop k).map leaf).countP fired = 0 := by
    rw [List.countP_map, List.countP_eq_zero]
    intro l hl
    simpa [fired] using h l (List.mem_of_mem_drop hl)
  rw [List.countP_append, hmet, hleft, Nat.add_zero]

end Verifier

namespace Assertion

def offer (w : Assertion) (a : Action) : Assertion := if w.handles a then w.react a else w

theorem foldl_offer (w : Assertion) (as : List Action) : as.foldl offer w = w.observe as := by
  induction as using List.reverseRecOn with
  | nil => exact (observe_nil w).symm
  | append_singleton as a ih =>
    rw [List.foldl_append, ih, List.foldl_cons, List.foldl_nil, offer]
    split
    next hh => exact (observe_handled hh).symm
    next hh => exact (observe_ignored (by simpa using hh)).symm

theorem unmet_eq_drop (as : List Action) (filters : List Filter) :
    unmet as filters = filters.drop (matched Filter.handles filters as) := by
  fun_induction unmet as filters with
  | case1 => simp
  | case2 filters => cases filters <;> rfl
  | case3 a rest filter filters h ih => simp [matched, h, ih]
  | case4 a rest filter filters h ih => simpa [matched, h] using ih

theorem orderComplaint?_eq (filters : List Filter) (as : List Action) :
    orderComplaint? filters as =
      (filters[matched Filter.handles filters as]?).map fun missing =>
        match (filters.take (matched Filter.handles filters as)).getLast? with
        | some previous => s!"expected {missing.text} to be seen after {previous.text}"
        | none => s!"expected {missing.text} to be seen first" := by
  have hle := matched_le (R := Filter.handles) filters as
  have hlen : filters.length - (filters.length - matched Filter.handles filters as) =
      matched Filter.handles filters as := by omega
  rw [orderComplaint?, unmet_eq_drop, List.length_drop, hlen, ← List.head?_drop]
  cases filters.drop (matched Filter.handles filters as) with
  | nil => rfl
  | cons missing rest => cases (filters.take (matched Filter.handles filters as)).getLast? <;> rfl

theorem complaint?_sequence (filters : List Filter) (as : List Action) :
    ((sequence filters).observe as).complaint? = orderComplaint? filters as := by
  have hcaptured : matched Filter.handles filters (as.filter fun a => filters.any (·.handles a)) =
      matched Filter.handles filters as :=
    matched_filter fun f hf a hok => List.any_eq_true.2 ⟨f, hf, hok⟩
  change orderComplaint? filters (#[] ++ _).toList = _
  rw [orderComplaint?_eq, orderComplaint?_eq]
  simp only [Array.toList_append, List.nil_append, hcaptured]

end Assertion

namespace Verifier

variable {leaves : List Leaf}

theorem matched_plain (h : ∀ l ∈ leaves, l.check = none) (as : List Action) :
    matched Filter.handles (leaves.map (·.filter)) as = matched Leaf.accepts leaves as := by
  induction as generalizing leaves with
  | nil => cases leaves <;> simp [matched]
  | cons a as ih =>
    cases leaves with
    | nil => simp [matched]
    | cons l rest =>
      obtain ⟨hl, hrest⟩ := List.forall_mem_cons.1 h
      have haccepts : l.accepts a = l.filter.handles a := by simp [Leaf.accepts, Leaf.verdict, hl]
      have hthis := ih h
      rw [List.map_cons] at hthis
      rw [List.map_cons, matched, matched, haccepts, ih hrest, hthis]

theorem pending_sequence {next : Leaf} {k : Nat} (h : leaves[k]? = some next) :
    (inOrder ((leaves.take k).map fun l => leaf l.fire) ((leaves.drop k).map leaf)).pending =
      s!"{next.filter.text} (step {k + 1} of {leaves.length})" := by
  obtain ⟨hlt, rfl⟩ := List.getElem?_eq_some_iff.1 h
  have hpassed : ((leaves.take k).map fun l => leaf l.fire).length = k := by
    simpa using Nat.le_of_lt hlt
  have htotal : k + (leaves.length - (k + 1) + 1) = leaves.length := by omega
  rw [List.drop_eq_getElem_cons hlt, List.map_cons, pending, pendingHead, pending, hpassed,
    List.length_cons, List.length_map, List.length_drop, htotal]

theorem complaint?_plain (h : ∀ l ∈ leaves, l.check = none) (as : List Action) :
    (as.foldl Assertion.offer (.sequence (leaves.map (·.filter)))).complaint? =
      (leaves[matched Leaf.accepts leaves as]?).map fun next =>
        match (leaves.take (matched Leaf.accepts leaves as)).getLast? with
        | some previous =>
          s!"expected {next.filter.text} to be seen after {previous.filter.text}"
        | none => s!"expected {next.filter.text} to be seen first" := by
  rw [Assertion.foldl_offer, Assertion.complaint?_sequence, Assertion.orderComplaint?_eq,
    matched_plain h, List.getElem?_map, Option.map_map, ← List.map_take, List.getLast?_map]
  cases (leaves.take (matched Leaf.accepts leaves as)).getLast? <;> rfl

/--
Of a list of leaves a sequence fires as many as can be embedded into the actions in order, and the assertion
about an order of filters finds the same.
-/
theorem fires_longest_subsequence (h : ∀ l ∈ leaves, l.fired = false) (as : List Action) :
    let v := (sequence (leaves.map leaf)).observe as
    let met := v.steps.countP fired
    IsGreatest {k | k ≤ leaves.length ∧ Embeds Leaf.accepts (leaves.take k) as} met ∧
      (v.fired = true ↔ Embeds Leaf.accepts leaves as) ∧
      (v.fired = false → ∃ next, leaves[met]? = some next ∧
        v.pending = s!"{next.filter.text} (step {met + 1} of {leaves.length})") ∧
      ((∀ l ∈ leaves, l.check = none) →
        let w := as.foldl Assertion.offer (.sequence (leaves.map (·.filter)))
        (w.complaint? = none ↔ v.fired = true) ∧
          ∀ next, leaves[met]? = some next →
            w.complaint? = some (match (leaves.take met).getLast? with
              | some previous =>
                s!"expected {next.filter.text} to be seen after {previous.filter.text}"
              | none => s!"expected {next.filter.text} to be seen first")) := by
  intro v met
  have hv : v = _ := observe_sequence h [] as
  have hle := matched_le (R := Leaf.accepts) leaves as
  have hmet : met = matched Leaf.accepts leaves as := by
    change v.steps.countP fired = _
    rw [hv, List.nil_append]
    exact countP_fired_sequence h _ hle
  rw [List.nil_append, ← hmet] at hv
  rw [← hmet] at hle
  have hfired : v.fired = true ↔ leaves.length ≤ met := by simp [hv, fired]
  refine ⟨hmet ▸ isGreatest_matched leaves as, ?_, ?_, ?_⟩
  · rw [hfired, ← matched_eq_length, ← hmet]
    exact ⟨Nat.le_antisymm hle, fun he => Nat.le_of_eq he.symm⟩
  · intro hwaits
    rw [Bool.eq_false_iff, Ne, hfired, Nat.not_le] at hwaits
    have hn := List.getElem?_eq_getElem hwaits
    exact ⟨_, hn, hv ▸ pending_sequence hn⟩
  · intro hplain w
    have hw : w.complaint? = _ := complaint?_plain hplain as
    rw [← hmet] at hw
    refine ⟨?_, ?_⟩
    · rw [hw, Option.map_eq_none_iff, List.getElem?_eq_none_iff, hfired]
    · intro next hn
      rw [hw, hn]
      rfl

def lookThenRemove : List Leaf := [{ filter := .ofVerb "get" }, { filter := .ofVerb "delete" }]

theorem early_removal_leaves_removal_pending :
    (∀ l ∈ lookThenRemove, l.fired = false) ∧ (∀ l ∈ lookThenRemove, l.check = none) ∧
      ¬Embeds Leaf.accepts lookThenRemove [removal, glance] ∧
      ([removal, glance].foldl Assertion.offer (.sequence (lookThenRemove.map (·.filter)))).complaint? =
        some "expected delete on */* named * in * to be seen after get on */* named * in *" := by
  have hfresh : ∀ l ∈ lookThenRemove, l.fired = false := by simp [lookThenRemove]
  have hplain : ∀ l ∈ lookThenRemove, l.check = none := by simp [lookThenRemove]
  have hmatches := fires_longest_subsequence hfresh [removal, glance]
  have hmet : ((sequence (lookThenRemove.map leaf)).observe [removal, glance]).steps.countP fired = 1 := by
    decide +kernel
  have hcomplaint := (hmatches.2.2.2 hplain).2 { filter := .ofVerb "delete" }
  rw [hmet] at hcomplaint
  refine ⟨hfresh, hplain, ?_, (hcomplaint rfl).trans (by decide +kernel)⟩
  rw [← hmatches.2.1]
  decide +kernel

end Verifier

end ControllerBench
