import ControllerBench.Proofs.Observation.Assignment
import Mathlib.Data.List.Induction

namespace ControllerBench

namespace Leaf

variable {l : Leaf} {leaves : List Leaf} {a : Action} {as : List Action} {pos : Nat → Option Nat}

/-- `pos` gives leaves places in the stream; what is without a place on both sides does not fit together. -/
structure Matching (leaves : List Leaf) (as : List Action) (pos : Nat → Option Nat) : Prop where
  accepts {i p : Nat} : pos i = some p →
    ∃ l a, leaves[i]? = some l ∧ as[p]? = some a ∧ l.accepts a = true
  distinct {i j p : Nat} : pos i = some p → pos j = some p → i = j
  maximal {i p : Nat} {l : Leaf} {a : Action} : leaves[i]? = some l → as[p]? = some a →
    pos i = none → (∀ j, pos j ≠ some p) → l.accepts a = false

namespace Matching

theorem nil (leaves : List Leaf) : Matching leaves [] fun _ => none where
  accepts h := nomatch h
  distinct h := nomatch h
  maximal _ h := nomatch h

theorem lt_length (h : Matching leaves as pos) {i p : Nat} (hp : pos i = some p) : p < as.length := by
  obtain ⟨l, a, -, ha, -⟩ := h.accepts hp
  exact (List.getElem?_eq_some_iff.1 ha).1

theorem accepts_concat (h : Matching leaves as pos) {i p : Nat} (hp : pos i = some p) (a : Action) :
    ∃ l b, leaves[i]? = some l ∧ (as ++ [a])[p]? = some b ∧ l.accepts b = true := by
  obtain ⟨l, b, hl, hb, hacc⟩ := h.accepts hp
  exact ⟨l, b, hl, by rw [List.getElem?_append_left (h.lt_length hp), hb], hacc⟩

theorem skip (h : Matching leaves as pos)
    (ha : ∀ i l, leaves[i]? = some l → pos i = none → l.accepts a = false) :
    Matching leaves (as ++ [a]) pos where
  accepts hp := h.accepts_concat hp a
  distinct := h.distinct
  maximal {i p l b} hl hb hi hp := by
    rcases Nat.lt_or_ge p as.length with hlt | hge
    · rw [List.getElem?_append_left hlt] at hb
      exact h.maximal hl hb hi hp
    · have hlast : b = a := by
        rw [List.getElem?_append_right hge] at hb
        exact List.mem_singleton.1 (List.mem_of_getElem? hb)
      rw [hlast]
      exact ha i l hl hi

theorem extend (h : Matching leaves as pos) {k : Nat} (hl : leaves[k]? = some l) (hk : pos k = none)
    (ha : l.accepts a = true) :
    Matching leaves (as ++ [a]) (Function.update pos k (some as.length)) where
  accepts {i p} hp := by
    by_cases hi : i = k
    · subst hi
      rw [Function.update_self] at hp
      obtain rfl := Option.some.inj hp
      exact ⟨l, a, hl, List.getElem?_concat_length, ha⟩
    · rw [Function.update_of_ne hi] at hp
      exact h.accepts_concat hp a
  distinct {i j p} hi hj := by
    -- the place given last is not among the earlier ones
    have hnew {i : Nat} (hi : pos i = some as.length) : False := Nat.lt_irrefl _ (h.lt_length hi)
    simp only [Function.update_apply] at hi hj
    split at hi <;> split at hj
    · simp [*]
    · obtain rfl := Option.some.inj hi
      exact (hnew hj).elim
    · obtain rfl := Option.some.inj hj
      exact (hnew hi).elim
    · exact h.distinct hi hj
  maximal {i p l' b} hl' hb hi hp := by
    have hik : i ≠ k := by
      rintro rfl
      simp at hi
    have hpast : p ≠ as.length := by
      rintro rfl
      exact hp k (Function.update_self ..)
    have hlt : p < as.length := by
      have hle := (List.getElem?_eq_some_iff.1 hb).1
      rw [List.length_append, List.length_singleton] at hle
      omega
    rw [Function.update_of_ne hik] at hi
    rw [List.getElem?_append_left hlt] at hb
    refine h.maximal hl' hb hi ?_
    intro j hj
    have hjk : j ≠ k := by
      rintro rfl
      rw [hk] at hj
      cases hj
    exact hp j (by rw [Function.update_of_ne hjk, hj])

end Matching

theorem assign_eq_set (leaves : List Leaf) (a : Action) :
    (assign leaves a = leaves ∧ ∀ l ∈ leaves, l.fired = false → l.accepts a = false) ∨
      ∃ k l, leaves[k]? = some l ∧ l.fired = false ∧ l.accepts a = true ∧
        assign leaves a = leaves.set k l.fire := by
  induction leaves with
  | nil => exact .inl ⟨rfl, List.forall_mem_nil _⟩
  | cons l rest ih =>
    rcases assign_cases l rest a with ⟨hn, ha, he⟩ | ⟨hp, he⟩
    · exact .inr ⟨0, l, rfl, hn, ha, he⟩
    · have hl : l.fired = false → l.accepts a = false := by
        intro hn
        exact hp.resolve_left (by simp [hn])
      rw [he]
      rcases ih with ⟨hrest, hnone⟩ | ⟨k, l', hk, hn, ha, hrest⟩
      · exact .inl ⟨by rw [hrest], List.forall_mem_cons.2 ⟨hl, hnone⟩⟩
      · exact .inr ⟨k + 1, l', hk, hn, ha, by rw [hrest, List.set_cons_succ]⟩

def mark (pos : Nat → Option Nat) (i : Nat) (l : Leaf) : Leaf := if (pos i).isSome then l.fire else l

theorem mark_fired (h : ∀ l ∈ leaves, l.fired = false) {i : Nat} (hl : leaves[i]? = some l) :
    (l.mark pos i).fired = (pos i).isSome := by
  have hn := h l (List.mem_of_getElem? hl)
  cases hi : pos i with
  | none => simpa [mark, hi] using hn
  | some p => simp [mark, hi, fire]

theorem mark_filter (i : Nat) : (l.mark pos i).filter = l.filter := by
  unfold mark
  split <;> rfl

theorem mark_accepts (i : Nat) : (l.mark pos i).accepts a = l.accepts a := by
  unfold mark
  split <;> rfl

theorem mark_set {k p : Nat} (hl : leaves[k]? = some l) :
    (leaves.mapIdx (mark pos)).set k l.fire = leaves.mapIdx (mark (Function.update pos k (some p))) := by
  refine List.ext_getElem? fun i => ?_
  rw [List.getElem?_set, List.getElem?_mapIdx, List.getElem?_mapIdx]
  by_cases hi : k = i
  · subst hi
    obtain ⟨hk, rfl⟩ := List.getElem?_eq_some_iff.1 hl
    simp [hk, mark]
  · have hsame : mark (Function.update pos k (some p)) i = mark pos i := by
      funext l'
      rw [mark, mark, Function.update_of_ne (Ne.symm hi)]
    rw [if_neg hi, hsame]

theorem exists_matching (h : ∀ l ∈ leaves, l.fired = false) (as : List Action) :
    ∃ pos, Matching leaves as pos ∧ assignAll leaves as = leaves.mapIdx (mark pos) := by
  induction as using List.reverseRecOn with
  | nil =>
    have hnone (i : Nat) : mark (fun _ => none) i = id := rfl
    refine ⟨fun _ => none, .nil leaves, List.ext_getElem? fun i => ?_⟩
    rw [List.getElem?_mapIdx, hnone, Option.map_id]
    rfl
  | append_singleton as a ih =>
    obtain ⟨pos, hpos, hnow⟩ := ih
    have hmarked {i : Nat} {l : Leaf} (hl : leaves[i]? = some l) :
        (leaves.mapIdx (mark pos))[i]? = some (l.mark pos i) := by
      rw [List.getElem?_mapIdx, hl]
      rfl
    rw [assignAll_append, hnow]
    change ∃ pos', _ ∧ assign (leaves.mapIdx (mark pos)) a = _
    rcases assign_eq_set (leaves.mapIdx (mark pos)) a with ⟨hsame, hnone⟩ | ⟨k, l', hk, hn, ha, hset⟩
    · refine ⟨pos, hpos.skip ?_, hsame⟩
      intro i l hl hi
      have hidle := hnone (l.mark pos i) (List.mem_of_getElem? (hmarked hl))
      rw [mark_fired h hl, mark_accepts] at hidle
      exact hidle (by rw [hi]; rfl)
    · obtain ⟨l, hl, rfl⟩ : ∃ l, leaves[k]? = some l ∧ l.mark pos k = l' := by
        simpa [List.getElem?_mapIdx] using hk
      rw [mark_fired h hl] at hn
      have hfree : pos k = none := by simpa using hn
      rw [mark_accepts] at ha
      refine ⟨_, hpos.extend hl hfree ha, ?_⟩
      have hsame : l.mark pos k = l := by simp [mark, hfree]
      rw [hset, hsame, mark_set hl]

theorem all_fired_mapIdx (h : ∀ l ∈ leaves, l.fired = false) :
    (leaves.mapIdx (mark pos)).all (·.fired) = true ↔ ∀ i < leaves.length, (pos i).isSome = true := by
  rw [List.all_eq_true]
  constructor
  · intro hall i hi
    rw [← mark_fired h (List.getElem?_eq_getElem hi)]
    refine hall _ (List.mem_of_getElem? (i := i) ?_)
    rw [List.getElem?_mapIdx, List.getElem?_eq_getElem hi]
    rfl
  · intro hall l hl
    obtain ⟨i, hi, rfl⟩ := List.mem_mapIdx.1 hl
    rw [mark_fired h (List.getElem?_eq_getElem hi)]
    exact hall i hi

theorem unfired_mapIdx (h : ∀ l ∈ leaves, l.fired = false) :
    ((leaves.mapIdx (mark pos)).filter (!·.fired)).map (·.filter.text) =
      (leaves.zipIdx.filter fun p => (pos p.2).isNone).map (·.1.filter.text) := by
  have hopen : leaves.zipIdx.filter (fun p => !(p.1.mark pos p.2).fired) =
      leaves.zipIdx.filter fun p => (pos p.2).isNone := by
    refine List.filter_congr fun p hp => ?_
    rw [mark_fired h (List.mk_mem_zipIdx_iff_getElem?.1 hp), Option.not_isSome]
  rw [List.mapIdx_eq_zipIdx_map, List.filter_map, List.map_map]
  change (leaves.zipIdx.filter fun p => !(p.1.mark pos p.2).fired).map
    (fun p => (p.1.mark pos p.2).filter.text) = _
  rw [hopen]
  simp only [mark_filter]

theorem assignAll_nil (as : List Action) : assignAll [] as = [] :=
  List.length_eq_zero_iff.1 (assignAll_length [] as)

theorem all_fired_replicate (hn : l.fired = false) (n : Nat) (as : List Action) :
    (assignAll (List.replicate n l) as).all (·.fired) = true ↔ n ≤ as.countP l.accepts := by
  induction as generalizing n with
  | nil =>
    cases n with
    | zero => simp [assignAll]
    | succ n => simp [assignAll, hn]
  | cons a as ih =>
    cases n with
    | zero => simp [assignAll_nil]
    | succ n =>
      rw [assignAll, List.foldl_cons, List.countP_cons]
      cases ha : l.accepts a with
      | true =>
        have hrest := ih n
        rw [List.replicate_succ, assign_taken hn ha]
        change (assignAll (l.fire :: List.replicate n l) as).all (·.fired) = true ↔ _
        rw [assignAll_fired rfl]
        simpa [fire] using hrest
      | false =>
        have hsame : assign (List.replicate (n + 1) l) a = List.replicate (n + 1) l := by
          refine assign_of_none_open (List.countP_eq_zero.2 ?_)
          intro l' hl'
          simp [List.eq_of_mem_replicate hl', isOpen, ha]
        have hrest := ih (n + 1)
        rw [assignAll] at hrest
        simpa [hsame] using hrest

end Leaf

namespace Verifier

variable {leaves : List Leaf}

theorem pendingArmed_leaves (leaves : List Leaf) :
    pendingArmed (leaves.map leaf) = (leaves.filter (!·.fired)).map (·.filter.text) := by
  induction leaves with
  | nil => rfl
  | cons l rest ih =>
    rw [List.map_cons, pendingArmed, ih]
    cases hl : l.fired with
    | true => simp [fired, hl]
    | false => simp [fired, hl, pending]

/--
Every leaf that has fired has an action of its own that it accepts, and no leaf that is left accepts an
action that is left.
-/
theorem all_matches_maximally (h : ∀ l ∈ leaves, l.fired = false) (as : List Action) :
    let v := (all (leaves.map leaf)).observe as
    ∃ pos, Leaf.Matching leaves as pos ∧
      v.steps = (leaves.mapIdx (Leaf.mark pos)).map leaf ∧
      (v.fired = true ↔ ∀ i < leaves.length, (pos i).isSome = true) ∧
      v.pending = String.intercalate ", "
        ((leaves.zipIdx.filter fun p => (pos p.2).isNone).map (·.1.filter.text)) ∧
      ∀ l n, leaves = List.replicate n l → (v.fired = true ↔ n ≤ as.countP l.accepts) := by
  obtain ⟨pos, hpos, hnow⟩ := Leaf.exists_matching h as
  simp only [observe_all h]
  refine ⟨pos, hpos, by rw [← hnow, steps], ?_, ?_, ?_⟩
  · rw [fired, hnow]
    exact Leaf.all_fired_mapIdx h
  · rw [pending, pendingArmed_leaves, hnow, Leaf.unfired_mapIdx h]
  · rintro l n rfl
    cases n with
    | zero => simp [fired, Leaf.assignAll_nil]
    | succ n => exact Leaf.all_fired_replicate (h l (by simp)) (n + 1) as

theorem same_expectation_twice_fires_at_second :
    (∀ l ∈ List.replicate 2 ({ filter := .ofVerb "get" } : Leaf), l.fired = false) ∧
      ((all [seen (.ofVerb "get"), seen (.ofVerb "get")]).observe [glance, removal]).fired = false ∧
      ((all [seen (.ofVerb "get"), seen (.ofVerb "get")]).observe [glance, removal, glance]).fired =
        true := by
  have hfresh : ∀ l ∈ List.replicate 2 ({ filter := .ofVerb "get" } : Leaf), l.fired = false := by
    simp
  obtain ⟨-, -, -, -, -, hearly⟩ := all_matches_maximally hfresh [glance, removal]
  obtain ⟨-, -, -, -, -, hlate⟩ := all_matches_maximally hfresh [glance, removal, glance]
  refine ⟨hfresh, ?_, (hlate _ 2 rfl).2 (by decide +kernel)⟩
  rw [Bool.eq_false_iff]
  exact fun hf => absurd ((hearly _ 2 rfl).1 hf) (by decide +kernel)

end Verifier

end ControllerBench
