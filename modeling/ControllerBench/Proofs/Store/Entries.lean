import Mathlib.Data.List.Perm.Basic
import ControllerBench.Proofs.Store.Keys

namespace ControllerBench

namespace Tracker

variable {t : Tracker} {k k' : Key} {o o' : Object}

theorem filter_of_lt {es : List (Key × Object)} (h : ∀ e ∈ es, k < e.1) :
    es.filter (fun e => e.1 ≠ k) = es := by
  refine List.filter_eq_self.2 fun e he => decide_eq_true fun hk => ?_
  exact Key.lt_irrefl k (hk ▸ h e he)

theorem insertEntry_perm {es : List (Key × Object)} (h : es.Pairwise fun a b => a.1 < b.1) :
    (insertEntry k o es).Perm ((k, o) :: es.filter fun e => e.1 ≠ k) := by
  induction es with
  | nil => exact .refl _
  | cons e rest ih =>
    obtain ⟨he, hrest⟩ := List.pairwise_cons.1 h
    rw [insertEntry]
    split
    next hlt =>
      have hall : ∀ x ∈ e :: rest, k < x.1 := by
        intro x hx
        rcases List.mem_cons.1 hx with rfl | hx
        · exact hlt
        · exact Key.lt_trans hlt (he x hx)
      rw [filter_of_lt hall]
    next hlt =>
      split
      next heq =>
        rw [List.filter_cons_of_neg (by simpa using heq.symm), filter_of_lt (heq ▸ he)]
      next hne =>
        rw [List.filter_cons_of_pos (by simpa using Ne.symm hne)]
        exact ((ih hrest).cons e).trans (.swap ..)

theorem entries_insert (t : Tracker) (k : Key) (o : Object) :
    (t.insert k o).entries.Perm ((k, o) :: (t.erase k).entries) := insertEntry_perm t.sorted

theorem entries_erase (h : t.find? k = some o) :
    t.entries.Perm ((k, o) :: (t.erase k).entries) := by
  have hmem : (k, o) ∈ t.entries := find?_eq_some.1 h
  obtain ⟨es, hs⟩ := t
  change es.Perm ((k, o) :: es.filter fun e => e.1 ≠ k)
  change (k, o) ∈ es at hmem
  clear h
  induction es with
  | nil => cases hmem
  | cons e rest ih =>
    obtain ⟨he, hrest⟩ := List.pairwise_cons.1 hs
    rcases List.mem_cons.1 hmem with rfl | hmem
    · rw [List.filter_cons_of_neg (by simp), filter_of_lt he]
    · have hlt : e.1 < k := he (k, o) hmem
      have hne : e.1 ≠ k := fun hk => Key.lt_irrefl k (hk ▸ hlt)
      rw [List.filter_cons_of_pos (by simpa using hne)]
      exact ((ih hrest hmem).cons e).trans (.swap ..)

theorem mem_entries_insert {e : Key × Object} :
    e ∈ (t.insert k o).entries ↔ e = (k, o) ∨ e ∈ t.entries ∧ e.1 ≠ k := by
  rw [(entries_insert t k o).mem_iff, List.mem_cons, erase, List.mem_filter, decide_eq_true_eq]

theorem mem_entries_erase {e : Key × Object} :
    e ∈ (t.erase k).entries ↔ e ∈ t.entries ∧ e.1 ≠ k := by
  rw [erase, List.mem_filter, decide_eq_true_eq]

theorem find?_insert_self (t : Tracker) (k : Key) (o : Object) : (t.insert k o).find? k = some o :=
  find?_eq_some.2 (mem_entries_insert.2 (.inl rfl))

theorem find?_insert_of_ne (h : k' ≠ k) : (t.insert k o).find? k' = t.find? k' := by
  ext x
  rw [find?_eq_some, find?_eq_some, mem_entries_insert]
  simp [h]

theorem find?_erase_self (t : Tracker) (k : Key) : (t.erase k).find? k = none := by
  refine Option.eq_none_iff_forall_ne_some.2 fun o h => ?_
  exact (mem_entries_erase.1 (find?_eq_some.1 h)).2 rfl

theorem find?_erase_of_ne (h : k' ≠ k) : (t.erase k).find? k' = t.find? k' := by
  ext x
  rw [find?_eq_some, find?_eq_some, mem_entries_erase]
  simp [h]

section Selections

variable {α : Type}

theorem filterMap_insert (t : Tracker) (f : Key × Object → Option α) (k : Key) (o : Object) :
    ((t.insert k o).entries.filterMap f).Perm
      ((f (k, o)).toList ++ (t.erase k).entries.filterMap f) := by
  have h := (entries_insert t k o).filterMap f
  rw [List.filterMap_cons] at h
  cases hf : f (k, o) <;> simpa [hf] using h

theorem filterMap_erase (f : Key × Object → Option α) (h : t.find? k = some o) :
    (t.entries.filterMap f).Perm ((f (k, o)).toList ++ (t.erase k).entries.filterMap f) := by
  have h := (entries_erase h).filterMap f
  rw [List.filterMap_cons] at h
  cases hf : f (k, o) <;> simpa [hf] using h

theorem filterMap_erase_sublist (t : Tracker) (f : Key × Object → Option α) (k : Key) :
    ((t.erase k).entries.filterMap f).Sublist (t.entries.filterMap f) :=
  List.filter_sublist.filterMap f

end Selections

end Tracker

end ControllerBench
