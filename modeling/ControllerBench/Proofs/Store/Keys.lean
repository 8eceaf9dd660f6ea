import Mathlib.Data.Finset.Basic
import ControllerBench.Store.Tracker
import ControllerBench.Store.Watch

namespace ControllerBench

namespace Tracker

def keys (t : Tracker) : Finset Key := (t.entries.map (·.1)).toFinset

theorem mem_keys {t : Tracker} {k : Key} : k ∈ t.keys ↔ ∃ e ∈ t.entries, e.1 = k := by
  simp [keys]

theorem isSome_find? {t : Tracker} {k : Key} : (t.find? k).isSome = true ↔ k ∈ t.keys := by
  rw [find?, List.lookup_isSome_iff, mem_keys]
  constructor
  · rintro ⟨e, he, hk⟩
    exact ⟨e, he, (eq_of_beq hk).symm⟩
  · rintro ⟨e, he, rfl⟩
    exact ⟨e, he, beq_self_eq_true _⟩

theorem lookup_eq_some {k : Key} {o : Object} {es : List (Key × Object)}
    (h : es.Pairwise fun a b => a.1 < b.1) : es.lookup k = some o ↔ (k, o) ∈ es := by
  induction es with
  | nil => simp
  | cons e rest ih =>
    obtain ⟨k', o'⟩ := e
    obtain ⟨hfirst, hrest⟩ := List.pairwise_cons.1 h
    by_cases hk : k = k'
    · subst hk
      have habsent : (k, o) ∉ rest := fun hm => Key.lt_irrefl k (hfirst (k, o) hm)
      simp [habsent, eq_comm]
    · have hne : (k == k') = false := beq_false_of_ne hk
      simp [List.lookup_cons, hne, hk, ih hrest]

theorem find?_eq_some {t : Tracker} {k : Key} {o : Object} :
    t.find? k = some o ↔ (k, o) ∈ t.entries := lookup_eq_some t.sorted

theorem mem_insertEntry_keys {k x : Key} {o : Object} {es : List (Key × Object)} :
    x ∈ (insertEntry k o es).map (·.1) ↔ x = k ∨ x ∈ es.map (·.1) := by
  induction es with
  | nil => simp [insertEntry]
  | cons e rest ih =>
    rw [insertEntry]
    split
    · simp
    · split
      next heq => simp [heq]
      · rw [List.map_cons, List.mem_cons, ih, List.map_cons, List.mem_cons]
        exact or_left_comm

theorem keys_insert (t : Tracker) (k : Key) (o : Object) : (t.insert k o).keys = Insert.insert k t.keys := by
  ext x
  rw [keys, List.mem_toFinset, Finset.mem_insert, keys, List.mem_toFinset]
  exact mem_insertEntry_keys

theorem keys_erase (t : Tracker) (k : Key) : (t.erase k).keys = t.keys.erase k := by
  ext x
  rw [Finset.mem_erase, mem_keys, mem_keys]
  simp only [erase, List.mem_filter, decide_eq_true_eq]
  constructor
  · rintro ⟨e, ⟨he, hne⟩, rfl⟩
    exact ⟨hne, e, he, rfl⟩
  · rintro ⟨hne, e, he, rfl⟩
    exact ⟨e, ⟨he, hne⟩, rfl⟩

inductive Accepts (t : Tracker) (a : Action) : Response → Tracker → Prop
  | create {o m} :
      a.operation = .create o → a.sub.isEmpty = true → o.metadata = some m →
      ⟨a.resource, a.ns, m.name⟩ ∉ t.keys →
      Accepts t a (.object o) (t.insert ⟨a.resource, a.ns, m.name⟩ o)
  | update {o m} :
      a.operation = .update o → o.metadata = some m → ⟨a.resource, a.ns, m.name⟩ ∈ t.keys →
      Accepts t a (.object o) (t.insert ⟨a.resource, a.ns, m.name⟩ o)
  | delete {name} :
      a.operation = .delete name → a.sub.isEmpty = true → ⟨a.resource, a.ns, name⟩ ∈ t.keys →
      Accepts t a .empty (t.erase ⟨a.resource, a.ns, name⟩)
  | get {name o} :
      a.operation = .get name → t.find? ⟨a.resource, a.ns, name⟩ = some o →
      Accepts t a (.object o) t
  | list : a.operation = .list → Accepts t a (.list (t.list a.resource a.ns)) t

theorem map_eq_ok {ε α β : Type} {x : Except ε α} {f : α → β} {y : β} (h : x.map f = .ok y) :
    ∃ z, x = .ok z ∧ f z = y := by
  cases x with
  | error e => cases h
  | ok z => exact ⟨z, rfl, Except.ok.inj h⟩

theorem create_ok {t t' : Tracker} {resource : Resource} {ns : String} {o : Object}
    (h : t.create resource ns o = .ok t') :
    ∃ m, o.metadata = some m ∧ ⟨resource, ns, m.name⟩ ∉ t.keys ∧
      t' = t.insert ⟨resource, ns, m.name⟩ o := by
  unfold create at h
  split at h
  · cases h
  next m hm =>
    simp only [isSome_find?] at h
    split at h
    · cases h
    next hk =>
      cases h
      exact ⟨m, Object.accessor_eq_ok.1 hm, hk, rfl⟩

theorem update_ok {t t' : Tracker} {resource : Resource} {ns : String} {o : Object}
    (h : t.update resource ns o = .ok t') :
    ∃ m, o.metadata = some m ∧ ⟨resource, ns, m.name⟩ ∈ t.keys ∧
      t' = t.insert ⟨resource, ns, m.name⟩ o := by
  unfold update at h
  split at h
  · cases h
  next m hm =>
    simp only [isSome_find?] at h
    split at h
    next hk =>
      cases h
      exact ⟨m, Object.accessor_eq_ok.1 hm, hk, rfl⟩
    · cases h

theorem delete_ok {t t' : Tracker} {k : Key} (h : t.delete k = .ok t') :
    k ∈ t.keys ∧ t' = t.erase k := by
  unfold delete at h
  split at h
  next hk =>
    cases h
    exact ⟨isSome_find?.1 hk, rfl⟩
  · cases h

theorem get_ok {t : Tracker} {k : Key} {o : Object} (h : t.get k = .ok o) : t.find? k = some o := by
  unfold get at h
  split at h
  next hk =>
    cases h
    exact hk
  · cases h

theorem accepts_of_apply {t t' : Tracker} {a : Action} {response : Response}
    (h : t.apply a = .ok (response, t')) : t.Accepts a response t' := by
  unfold apply at h
  split at h
  next o ho =>
    split at h
    next hs =>
      obtain ⟨z, hz, he⟩ := map_eq_ok h
      cases he
      obtain ⟨m, hm, hk, rfl⟩ := create_ok hz
      exact .create ho hs hm hk
    · cases h
  next o ho =>
    obtain ⟨z, hz, he⟩ := map_eq_ok h
    cases he
    obtain ⟨m, hm, hk, rfl⟩ := update_ok hz
    exact .update ho hm hk
  next name ho =>
    split at h
    next hs =>
      obtain ⟨z, hz, he⟩ := map_eq_ok h
      cases he
      obtain ⟨hk, rfl⟩ := delete_ok hz
      exact .delete ho hs hk
    · cases h
  next name ho =>
    obtain ⟨z, hz, he⟩ := map_eq_ok h
    cases he
    exact .get ho (get_ok hz)
  next ho =>
    cases h
    exact .list ho
  · cases h

end Tracker

end ControllerBench
