import ControllerBench.Demo.Widget
import ControllerBench.Proofs.Store.Entries

namespace ControllerBench.Demo

theorem configName_inj {a b : String} : configName a = configName b ↔ a = b := by
  constructor
  · intro h
    have hl : a.toList ++ "-config".toList = b.toList ++ "-config".toList := by
      simpa [configName, toString] using congrArg String.toList h
    exact String.toList_injective (List.append_cancel_right hl)
  · exact congrArg configName

def widgetKey (r : Request) : Key := ⟨widgets, r.ns, r.name⟩

def configKey (r : Request) : Key := ⟨configMaps, r.ns, configName r.name⟩

theorem widgetKey_inj {r x : Request} : widgetKey r = widgetKey x ↔ r = x := by
  cases r
  cases x
  simp [widgetKey]

theorem configKey_inj {r x : Request} : configKey r = configKey x ↔ r = x := by
  cases r
  cases x
  simp [configKey, configName_inj]

theorem widgetKey_ne_configKey (r x : Request) : widgetKey r ≠ configKey x := by
  have hne : widgets ≠ configMaps := by decide
  exact fun h => hne (congrArg Key.resource h)

def widgetAt (r : Request) (replicas : Nat) (ready : Bool) : Object :=
  widgetObject ⟨r.ns, r.name⟩ replicas ready

def configAt (r : Request) (replicas : Nat) : Object :=
  configMapObject ⟨r.ns, configName r.name⟩ replicas

theorem ofObject?_widgetAt (r : Request) (replicas : Nat) (ready : Bool) :
    Widget.ofObject? (widgetAt r replicas ready) = some ⟨⟨r.ns, r.name⟩, replicas, ready⟩ :=
  Widget.ofObject?_widgetObject ..

/-- What is stored is widgets and their config maps. -/
def Stocked (t : Tracker) : Prop :=
  ∀ e ∈ t.entries, (∃ r replicas ready, e = (widgetKey r, widgetAt r replicas ready)) ∨
    ∃ r replicas, e = (configKey r, configAt r replicas)

def ready? (t : Tracker) (r : Request) : Option Bool :=
  (t.find? (widgetKey r)).bind fun o => (Widget.ofObject? o).map (·.ready)

def Mapped (t : Tracker) (r : Request) : Prop := configKey r ∈ t.keys

variable {t : Tracker} {r x : Request} {replicas : Nat} {ready : Bool} {o : Object}

namespace Stocked

theorem insert_widget (h : Stocked t) (r : Request) (replicas : Nat) (ready : Bool) :
    Stocked (t.insert (widgetKey r) (widgetAt r replicas ready)) := by
  intro e he
  rcases Tracker.mem_entries_insert.1 he with rfl | ⟨he, -⟩
  · exact .inl ⟨r, replicas, ready, rfl⟩
  · exact h e he

theorem insert_config (h : Stocked t) (r : Request) (replicas : Nat) :
    Stocked (t.insert (configKey r) (configAt r replicas)) := by
  intro e he
  rcases Tracker.mem_entries_insert.1 he with rfl | ⟨he, -⟩
  · exact .inr ⟨r, replicas, rfl⟩
  · exact h e he

theorem erase (h : Stocked t) (k : Key) : Stocked (t.erase k) :=
  fun e he => h e (Tracker.mem_entries_erase.1 he).1

theorem widget_of_find? (h : Stocked t) (hf : t.find? (widgetKey r) = some o) :
    ∃ replicas ready, o = widgetAt r replicas ready := by
  rcases h _ (Tracker.find?_eq_some.1 hf) with ⟨x, replicas, ready, he⟩ | ⟨x, replicas, he⟩
  · obtain ⟨hk, rfl⟩ := Prod.mk.inj he
    obtain rfl := widgetKey_inj.1 hk
    exact ⟨replicas, ready, rfl⟩
  · exact absurd (Prod.mk.inj he).1 (widgetKey_ne_configKey r x)

theorem ready?_eq_some (h : Stocked t) :
    ready? t r = some ready ↔ ∃ replicas, t.find? (widgetKey r) = some (widgetAt r replicas ready) := by
  constructor
  · intro hr
    obtain ⟨o, hf, hw⟩ := Option.bind_eq_some_iff.1 hr
    obtain ⟨replicas, b, rfl⟩ := h.widget_of_find? hf
    rw [ofObject?_widgetAt] at hw
    obtain rfl : b = ready := Option.some.inj hw
    exact ⟨replicas, hf⟩
  · rintro ⟨replicas, hf⟩
    rw [ready?, hf, Option.bind_some, ofObject?_widgetAt]
    rfl

theorem ready?_eq_none (h : Stocked t) : ready? t r = none ↔ widgetKey r ∉ t.keys := by
  rw [← Tracker.isSome_find?, Bool.not_eq_true, Option.isSome_eq_false_iff, Option.isNone_iff_eq_none]
  constructor
  · intro hr
    cases hf : t.find? (widgetKey r) with
    | none => rfl
    | some o =>
      obtain ⟨replicas, b, rfl⟩ := h.widget_of_find? hf
      rw [ready?, hf, Option.bind_some, ofObject?_widgetAt] at hr
      cases hr
  · intro hf
    rw [ready?, hf]
    rfl

end Stocked

section Views

theorem ready?_insert_widget (t : Tracker) (r x : Request) (replicas : Nat) (ready : Bool) :
    ready? (t.insert (widgetKey r) (widgetAt r replicas ready)) x =
      if x = r then some ready else ready? t x := by
  split
  next h =>
    rw [h, ready?, Tracker.find?_insert_self, Option.bind_some, ofObject?_widgetAt]
    rfl
  next h => rw [ready?, Tracker.find?_insert_of_ne (mt widgetKey_inj.1 h), ready?]

theorem ready?_erase_widget (t : Tracker) (r x : Request) :
    ready? (t.erase (widgetKey r)) x = if x = r then none else ready? t x := by
  split
  next h =>
    rw [h, ready?, Tracker.find?_erase_self]
    rfl
  next h => rw [ready?, Tracker.find?_erase_of_ne (mt widgetKey_inj.1 h), ready?]

@[simp]
theorem ready?_insert_config (t : Tracker) (r x : Request) (o : Object) :
    ready? (t.insert (configKey r) o) x = ready? t x := by
  rw [ready?, Tracker.find?_insert_of_ne (widgetKey_ne_configKey x r), ready?]

@[simp]
theorem ready?_erase_config (t : Tracker) (r x : Request) :
    ready? (t.erase (configKey r)) x = ready? t x := by
  rw [ready?, Tracker.find?_erase_of_ne (widgetKey_ne_configKey x r), ready?]

@[simp]
theorem mapped_insert_widget (t : Tracker) (r x : Request) (o : Object) :
    Mapped (t.insert (widgetKey r) o) x ↔ Mapped t x := by
  rw [Mapped, Tracker.keys_insert, Finset.mem_insert, Mapped]
  exact or_iff_right fun h => widgetKey_ne_configKey r x h.symm

@[simp]
theorem mapped_erase_widget (t : Tracker) (r x : Request) :
    Mapped (t.erase (widgetKey r)) x ↔ Mapped t x := by
  rw [Mapped, Tracker.keys_erase, Finset.mem_erase, Mapped]
  exact and_iff_right fun h => widgetKey_ne_configKey r x h.symm

theorem mapped_insert_config (t : Tracker) (r x : Request) (o : Object) :
    Mapped (t.insert (configKey r) o) x ↔ x = r ∨ Mapped t x := by
  rw [Mapped, Tracker.keys_insert, Finset.mem_insert, configKey_inj, Mapped]

theorem mapped_erase_config (t : Tracker) (r x : Request) :
    Mapped (t.erase (configKey r)) x ↔ x ≠ r ∧ Mapped t x := by
  rw [Mapped, Tracker.keys_erase, Finset.mem_erase, Ne, configKey_inj, Mapped]

end Views

section Counts

def listed? (e : Key × Object) : Option Request :=
  if e.1.resource = widgets then e.2.metadata.map fun m => ⟨m.ns, m.name⟩ else none

def unready? (e : Key × Object) : Option Request :=
  (Widget.ofObject? e.2).bind fun w => if w.ready then none else some ⟨w.metadata.ns, w.metadata.name⟩

def listed (t : Tracker) : List Request := t.entries.filterMap listed?

def unready (t : Tracker) : List Request := t.entries.filterMap unready?

theorem listed?_widget (r : Request) (replicas : Nat) (ready : Bool) :
    listed? (widgetKey r, widgetAt r replicas ready) = some r := rfl

theorem listed?_config (r : Request) (replicas : Nat) :
    listed? (configKey r, configAt r replicas) = none := rfl

theorem unready?_widget (r : Request) (replicas : Nat) (ready : Bool) :
    unready? (widgetKey r, widgetAt r replicas ready) = if ready then none else some r := by
  rw [unready?, ofObject?_widgetAt]
  rfl

theorem unready?_config (r : Request) (replicas : Nat) :
    unready? (configKey r, configAt r replicas) = none := rfl

theorem mem_listed (h : Stocked t) : r ∈ listed t ↔ widgetKey r ∈ t.keys := by
  rw [listed, List.mem_filterMap, Tracker.mem_keys]
  constructor
  · rintro ⟨e, he, hr⟩
    rcases h e he with ⟨x, replicas, ready, rfl⟩ | ⟨x, replicas, rfl⟩
    · rw [listed?_widget] at hr
      exact ⟨_, he, congrArg widgetKey (Option.some.inj hr)⟩
    · cases hr
  · rintro ⟨e, he, hk⟩
    rcases h e he with ⟨x, replicas, ready, rfl⟩ | ⟨x, replicas, rfl⟩
    · exact ⟨_, he, (listed?_widget x replicas ready).trans (congrArg some (widgetKey_inj.1 hk))⟩
    · exact absurd hk.symm (widgetKey_ne_configKey r x)

theorem unready_insert_ready (h : Stocked t) (hr : ready? t r = some false) (replicas : Nat) :
    (unready t).Perm (r :: unready (t.insert (widgetKey r) (widgetAt r replicas true))) := by
  obtain ⟨n, hf⟩ := h.ready?_eq_some.1 hr
  have hold := Tracker.filterMap_erase unready? hf
  have hnew := Tracker.filterMap_insert t unready? (widgetKey r) (widgetAt r replicas true)
  rw [unready?_widget] at hold hnew
  exact hold.trans (hnew.symm.cons r)

theorem unready_insert_widget (t : Tracker) (r : Request) (replicas : Nat) :
    (unready (t.insert (widgetKey r) (widgetAt r replicas false))).Subperm (r :: unready t) := by
  have hnew := Tracker.filterMap_insert t unready? (widgetKey r) (widgetAt r replicas false)
  rw [unready?_widget] at hnew
  exact hnew.subperm.trans ((Tracker.filterMap_erase_sublist t unready? _).cons_cons r).subperm

theorem unready_erase (t : Tracker) (k : Key) : (unready (t.erase k)).Subperm (unready t) :=
  (Tracker.filterMap_erase_sublist t unready? k).subperm

theorem unready_insert_config (t : Tracker) (r : Request) (replicas : Nat) :
    (unready (t.insert (configKey r) (configAt r replicas))).Subperm (unready t) := by
  have hnew := Tracker.filterMap_insert t unready? (configKey r) (configAt r replicas)
  rw [unready?_config] at hnew
  exact hnew.subperm.trans (unready_erase t _)

theorem listed_insert_le (t : Tracker) (k : Key) (o : Object) :
    (listed (t.insert k o)).length ≤ (listed? (k, o)).toList.length + (listed t).length := by
  have hnew := (Tracker.filterMap_insert t listed? k o).length_eq
  have hold := (Tracker.filterMap_erase_sublist t listed? k).length_le
  rw [List.length_append] at hnew
  exact hnew.le.trans (Nat.add_le_add_left hold _)

theorem listed_insert_present (h : Stocked t) (hr : ready? t r = some ready) (replicas : Nat) :
    (listed (t.insert (widgetKey r) (widgetAt r replicas true))).length = (listed t).length := by
  obtain ⟨n, hf⟩ := h.ready?_eq_some.1 hr
  have hold := Tracker.filterMap_erase listed? hf
  have hnew := Tracker.filterMap_insert t listed? (widgetKey r) (widgetAt r replicas true)
  rw [listed?_widget] at hold hnew
  exact (hnew.trans hold.symm).length_eq

theorem listed_erase_le (t : Tracker) (k : Key) : (listed (t.erase k)).length ≤ (listed t).length :=
  (Tracker.filterMap_erase_sublist t listed? k).length_le

end Counts

end ControllerBench.Demo
