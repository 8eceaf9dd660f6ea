import ControllerBench.Proofs.Judging.Observing

namespace ControllerBench

inductive Edit where
  | attached (entry : Installation) (front : Bool)
  | detached (id : Nat)
  deriving DecidableEq

namespace Edit

def enact (chain : List Installation) : Edit → List Installation
  | attached entry true => entry :: chain
  | attached entry false => chain ++ [entry]
  | detached id => chain.filter (·.id != id)

def put (front : Bool) (es : List Edit) : List Installation :=
  es.filterMap fun
    | attached entry f => if f = front then some entry else none
    | detached _ => none

def removed (es : List Edit) : List Nat :=
  es.filterMap fun
    | detached id => some id
    | attached .. => none

/-- All that ever stood in the chain, in order. -/
def lineup (chain : List Installation) (es : List Edit) : List Installation :=
  (put true es).reverse ++ chain ++ put false es

def remaining (chain : List Installation) (es : List Edit) : List Installation :=
  (lineup chain es).filter (·.id ∉ removed es)

variable {chain : List Installation} {es : List Edit}

theorem enact_attached_perm (chain : List Installation) (entry : Installation) (front : Bool) :
    ((attached entry front).enact chain).Perm (entry :: chain) := by
  cases front with
  | true => exact .refl _
  | false => exact List.perm_append_singleton ..

theorem removed_attached (entry : Installation) (front : Bool) :
    removed (es ++ [attached entry front]) = removed es := by
  simp [removed]

theorem removed_detached (id : Nat) : removed (es ++ [detached id]) = removed es ++ [id] := by
  simp [removed]

theorem lineup_nil (chain : List Installation) : lineup chain [] = chain := by
  simp [lineup, put]

theorem lineup_attached (entry : Installation) (front : Bool) :
    lineup chain (es ++ [attached entry front]) = (attached entry front).enact (lineup chain es) := by
  cases front <;> simp [lineup, enact, put]

theorem lineup_detached (id : Nat) : lineup chain (es ++ [detached id]) = lineup chain es := by
  simp [lineup, put]

theorem remaining_nil (chain : List Installation) : remaining chain [] = chain := by
  simp [remaining, lineup_nil, removed]

theorem remaining_attached {entry : Installation} (h : entry.id ∉ removed es) (front : Bool) :
    remaining chain (es ++ [attached entry front]) =
      (attached entry front).enact (remaining chain es) := by
  rw [remaining, remaining, lineup_attached, removed_attached]
  cases front <;> simp [enact, h]

theorem remaining_detached (id : Nat) :
    remaining chain (es ++ [detached id]) = (detached id).enact (remaining chain es) := by
  rw [remaining, remaining, lineup_detached, removed_detached, enact, List.filter_filter]
  refine List.filter_congr fun x _ => ?_
  rw [Bool.eq_iff_iff]
  simp [and_comm]

theorem mem_lineup {x : Installation} (h : x ∈ chain) (es : List Edit) : x ∈ lineup chain es := by
  simp [lineup, h]

theorem mem_lineup_attached {entry x : Installation} {front : Bool} :
    x ∈ lineup chain (es ++ [attached entry front]) ↔ x = entry ∨ x ∈ lineup chain es := by
  rw [lineup_attached, (enact_attached_perm ..).mem_iff, List.mem_cons]

theorem nodup_lineup_attached {entry : Installation} {front : Bool}
    (h : ((lineup chain es).map (·.id)).Nodup) (hn : ∀ x ∈ lineup chain es, x.id ≠ entry.id) :
    ((lineup chain (es ++ [attached entry front])).map (·.id)).Nodup := by
  have hnew : entry.id ∉ (lineup chain es).map (·.id) := by simpa using hn
  rw [lineup_attached, ((enact_attached_perm ..).map _).nodup_iff]
  exact List.nodup_cons.2 ⟨hnew, h⟩

end Edit

namespace Bench

/-- The numbers of the installations are their own, and the ones to come are new. -/
structure Numbered (b : Bench) : Prop where
  distinct : (b.chain.map (·.id)).Nodup
  below : ∀ x ∈ b.chain, x.id < b.issued
  labels : ∀ p ∈ b.labels, ∀ id, p.2.installation = some id → id < b.issued

def attachment? (b : Bench) (slot : Nat) (p : Placement) : Option Edit :=
  if p.idle then none else some (.attached ⟨b.issued, slot⟩ p.front)

def installment? (b : Bench) (label : String) (reactor : Option (Reactor Script)) (p : Placement) :
    Option Edit :=
  match reactor with
  | some _ => b.attachment? b.reactors.size p
  | none => (b.labels.lookup label).bind fun l => b.attachment? l.slot p

def detachment? (b : Bench) (label : String) : Option Edit := (b.installation? label).map .detached

theorem attachment_id {b : Bench} {slot : Nat} {p : Placement} {entry : Installation} {front : Bool}
    (h : b.attachment? slot p = some (.attached entry front)) : entry.id = b.issued := by
  unfold attachment? at h
  split at h
  · cases h
  · cases h
    rfl

theorem installment_id {b : Bench} {label : String} {reactor : Option (Reactor Script)}
    {p : Placement} {entry : Installation} {front : Bool}
    (h : b.installment? label reactor p = some (.attached entry front)) : entry.id = b.issued := by
  unfold installment? at h
  split at h
  · exact attachment_id h
  · obtain ⟨l, -, hl⟩ := Option.bind_eq_some_iff.1 h
    exact attachment_id hl

/-- The bench `b` after the changes `es` of the chain of `o`. -/
structure Edited (o : Bench) (es : List Edit) (b : Bench) : Prop where
  chain : b.chain = Edit.remaining o.chain es
  distinct : ((Edit.lineup o.chain es).map (·.id)).Nodup
  below : ∀ x ∈ Edit.lineup o.chain es, x.id < b.issued
  removed : ∀ id ∈ Edit.removed es, id < b.issued
  labels : ∀ p ∈ b.labels, ∀ id, p.2.installation = some id → id < b.issued

theorem Numbered.edited {b : Bench} (h : b.Numbered) : b.Edited [] b where
  chain := (Edit.remaining_nil _).symm
  distinct := by simpa only [Edit.lineup_nil] using h.distinct
  below := by simpa only [Edit.lineup_nil] using h.below
  removed := List.forall_mem_nil _
  labels := h.labels

namespace Edited

variable {o b c : Bench} {es : List Edit}

theorem of_eq (h : o.Edited es b) (hchain : c.chain = b.chain) (hissued : c.issued = b.issued)
    (hlabels : c.labels = b.labels) : o.Edited es c where
  chain := hchain.trans h.chain
  distinct := h.distinct
  below := by simpa only [hissued] using h.below
  removed := by simpa only [hissued] using h.removed
  labels := by simpa only [hlabels, hissued] using h.labels

theorem altered {slot : Nat} (h : o.Edited es b) (hc : AltersAt slot b c) : o.Edited es c :=
  h.of_eq hc.chain hc.issued hc.labels

theorem label (h : o.Edited es b) (name : String) {l : Label}
    (hid : ∀ id, l.installation = some id → id < b.issued) :
    o.Edited es { b with labels := (name, l) :: b.labels } where
  chain := h.chain
  distinct := h.distinct
  below := h.below
  removed := h.removed
  labels := List.forall_mem_cons.2 ⟨hid, h.labels⟩

theorem attach (h : o.Edited es b) (slot : Nat) (front : Bool) :
    o.Edited (es ++ [.attached ⟨b.issued, slot⟩ front]) (b.attach slot front) where
  chain := by
    -- its number is not among those removed so far, which were issued before
    have hnew : b.issued ∉ Edit.removed es := fun hm => Nat.lt_irrefl _ (h.removed _ hm)
    rw [Edit.remaining_attached hnew, ← h.chain]
    cases front <;> rfl
  distinct := Edit.nodup_lineup_attached h.distinct fun x hx => Nat.ne_of_lt (h.below x hx)
  below x hx := by
    rcases Edit.mem_lineup_attached.1 hx with rfl | hx
    · exact Nat.lt_succ_self _
    · exact Nat.lt_succ_of_lt (h.below x hx)
  removed id hid := by
    rw [Edit.removed_attached] at hid
    exact Nat.lt_succ_of_lt (h.removed id hid)
  labels p hp id hid := Nat.lt_succ_of_lt (h.labels p hp id hid)

theorem detach (h : o.Edited es b) {id : Nat} (hid : id < b.issued) :
    o.Edited (es ++ [.detached id]) (b.detach id) where
  chain := by
    rw [Edit.remaining_detached, ← h.chain]
    rfl
  distinct := by simpa only [Edit.lineup_detached] using h.distinct
  below := by
    rw [Edit.lineup_detached]
    exact h.below
  removed x hx := by
    rw [Edit.removed_detached, List.mem_append, List.mem_singleton] at hx
    rcases hx with hx | rfl
    · exact h.removed x hx
    · exact hid
  labels := h.labels

theorem installation (h : o.Edited es b) {name : String} {id : Nat}
    (hid : b.installation? name = some id) : id < b.issued := by
  obtain ⟨l, hl, hli⟩ := Option.bind_eq_some_iff.1 hid
  exact h.labels _ (mem_of_lookup hl) id hli

theorem place (h : o.Edited es b) (name : String) (slot : Nat) (p : Placement) :
    o.Edited (es ++ (b.attachment? slot p).toList) (b.place name slot p) := by
  obtain ⟨c, hc, hplace⟩ := b.place_cases name slot p
  have hd := h.altered hc
  rw [hplace, attachment?, ← hc.issued]
  split
  · rw [Option.toList_none, List.append_nil]
    exact hd.label name fun id hid => hd.installation hid
  · refine (hd.attach slot p.front).label name fun id hid => ?_
    obtain rfl := Option.some.inj hid
    exact Nat.lt_succ_self _

theorem install (h : o.Edited es b) (name : String) (reactor : Option (Reactor Script))
    (p : Placement) :
    o.Edited (es ++ (b.installment? name reactor p).toList) (b.install name reactor p) := by
  unfold Bench.install installment?
  cases reactor with
  | some r => exact (h.of_eq (c := b.keep r) rfl rfl rfl).place name b.reactors.size p
  | none =>
    cases hl : b.labels.lookup name with
    | none => simpa using h
    | some l => exact h.place name l.slot p

theorem remove (h : o.Edited es b) (name : String) :
    o.Edited (es ++ (b.detachment? name).toList) (b.remove name).2 := by
  unfold Bench.remove detachment?
  cases hid : b.installation? name with
  | none => simpa using h
  | some id => exact h.detach (h.installation hid)

theorem numbered (h : o.Edited es b) : b.Numbered where
  distinct := by
    rw [h.chain]
    exact h.distinct.sublist (List.filter_sublist.map _)
  below x hx := by
    rw [h.chain] at hx
    exact h.below x (List.mem_filter.1 hx).1
  labels := h.labels

end Edited

end Bench

end ControllerBench
