import ControllerBench.Proofs.Dispatch.History
import Mathlib.Data.List.Basic

namespace ControllerBench

namespace Edit

variable {chain : List Installation} {es : List Edit}

theorem attached_of_mem_put {x : Installation} {front : Bool} (h : x ∈ put front es) :
    .attached x front ∈ es := by
  obtain ⟨e, he, hx⟩ := List.mem_filterMap.1 h
  cases e with
  | detached id => cases hx
  | attached y f =>
    obtain ⟨rfl, hy⟩ := Option.ite_none_right_eq_some.1 hx
    obtain rfl : y = x := Option.some.inj hy
    exact he

theorem filter_foldl_enact {p : Installation → Bool}
    (h : ∀ x front, .attached x front ∈ es → p x = true) :
    (es.foldl enact chain).filter p = es.foldl enact (chain.filter p) := by
  induction es generalizing chain with
  | nil => rfl
  | cons e rest ih =>
    have hrest : (rest.foldl enact (e.enact chain)).filter p =
        rest.foldl enact ((e.enact chain).filter p) :=
      ih fun x front hx => h x front (List.mem_cons_of_mem _ hx)
    rw [List.foldl_cons, hrest, List.foldl_cons]
    congr 1
    cases e with
    | attached x front =>
      have hx : p x = true := h x front List.mem_cons_self
      cases front <;> simp [enact, hx]
    | detached id => exact List.filter_comm ..

theorem filter_remaining {p : Installation → Bool} {own : List Installation}
    (h : ∀ x front, .attached x front ∈ es → p x = true) (hchain : ∀ x ∈ chain, p x = true)
    (hown : ∀ x ∈ own, p x = false) :
    (remaining (chain ++ own) es).filter p = remaining chain es := by
  have hput (front : Bool) : (put front es).filter p = put front es :=
    List.filter_eq_self.2 fun x hx => h x front (attached_of_mem_put hx)
  have hkept : chain.filter p = chain := List.filter_eq_self.2 hchain
  have hgone : own.filter p = [] := by simpa using hown
  have hlineup : (lineup (chain ++ own) es).filter p = lineup chain es := by
    simp only [lineup, List.filter_append, List.filter_reverse, hput, hkept, hgone, List.append_nil]
  rw [remaining, List.filter_comm, hlineup, remaining]

end Edit

namespace Bench

/-- The changes lead from one chain to the other, whatever has become of the first before. -/
structure Amends (b : Bench) (es : List Edit) (c : Bench) : Prop where
  chain : c.chain = es.foldl Edit.enact b.chain
  fresh : ∀ x front, .attached x front ∈ es → b.issued ≤ x.id
  issued : b.issued ≤ c.issued
  edited {o : Bench} {past : List Edit} : o.Edited past b → o.Edited (past ++ es) c

variable {b c d : Bench} {es es' : List Edit}

theorem Amends.of_eq (hchain : c.chain = b.chain) (hissued : c.issued = b.issued)
    (hlabels : c.labels = b.labels) : b.Amends [] c where
  chain := hchain
  fresh := nofun
  issued := Nat.le_of_eq hissued.symm
  edited h := by
    rw [List.append_nil]
    exact h.of_eq hchain hissued hlabels

theorem Amends.refl (b : Bench) : b.Amends [] b := .of_eq rfl rfl rfl

theorem Amends.trans (h : b.Amends es c) (h' : c.Amends es' d) : b.Amends (es ++ es') d where
  chain := by rw [h'.chain, h.chain, List.foldl_append]
  fresh x front hx := by
    rcases List.mem_append.1 hx with hx | hx
    · exact h.fresh x front hx
    · exact Nat.le_trans h.issued (h'.fresh x front hx)
  issued := Nat.le_trans h.issued h'.issued
  edited ho := by
    rw [← List.append_assoc]
    exact h'.edited (h.edited ho)

theorem Amends.then_eq (h : b.Amends es c) (hchain : d.chain = c.chain)
    (hissued : d.issued = c.issued) (hlabels : d.labels = c.labels) : b.Amends es d := by
  have hall := h.trans (.of_eq hchain hissued hlabels)
  rwa [List.append_nil] at hall

theorem AltersAt.amends {slot : Nat} (h : AltersAt slot b c) : b.Amends [] c :=
  .of_eq h.chain h.issued h.labels

theorem place_chain_eq (b : Bench) (label : String) (slot : Nat) (p : Placement) :
    (b.place label slot p).chain = (b.attachment? slot p).toList.foldl Edit.enact b.chain ∧
      b.issued ≤ (b.place label slot p).issued := by
  obtain ⟨c, hc, hplace⟩ := b.place_cases label slot p
  rw [hplace, attachment?, ← hc.issued, ← hc.chain]
  split
  · exact ⟨rfl, Nat.le_refl _⟩
  · cases hf : p.front <;> exact ⟨by simp [attach, Edit.enact], Nat.le_succ _⟩

theorem amends_install (b : Bench) (label : String) (reactor : Option (Reactor Script))
    (p : Placement) :
    b.Amends (b.installment? label reactor p).toList (b.install label reactor p) where
  chain := by
    unfold Bench.install installment?
    cases reactor with
    | some r => exact ((b.keep r).place_chain_eq label b.reactors.size p).1
    | none =>
      cases hl : b.labels.lookup label with
      | none => simp
      | some l => exact (b.place_chain_eq label l.slot p).1
  fresh x front hx := by
    rw [Option.mem_toList] at hx
    exact Nat.le_of_eq (installment_id hx).symm
  issued := by
    unfold Bench.install
    cases reactor with
    | some r => exact ((b.keep r).place_chain_eq label b.reactors.size p).2
    | none =>
      cases hl : b.labels.lookup label with
      | none => simp
      | some l => exact (b.place_chain_eq label l.slot p).2
  edited h := h.install label reactor p

theorem amends_remove (b : Bench) (label : String) :
    b.Amends (b.detachment? label).toList (b.remove label).2 where
  chain := by
    unfold Bench.remove detachment?
    cases b.installation? label <;> rfl
  fresh x front hx := by
    obtain ⟨id, -, hid⟩ := Option.map_eq_some_iff.1 (Option.mem_toList.1 hx)
    cases hid
  issued := by
    unfold Bench.remove
    split <;> exact Nat.le_refl _
  edited h := h.remove label

theorem amends_employ (b : Bench) (r : Reactor Script) :
    b.Amends [.attached ⟨b.issued, b.reactors.size⟩ false] ((b.keep r).attach b.reactors.size false) where
  chain := rfl
  fresh x front hx := by
    obtain ⟨rfl, -⟩ := Edit.attached.inj (List.mem_singleton.1 hx)
    exact Nat.le_refl _
  issued := Nat.le_succ _
  edited h := (h.of_eq (c := b.keep r) rfl rfl rfl).attach b.reactors.size false

theorem amends_undergo (b : Bench) (x : Happening) :
    b.Amends (b.edit? x).toList (b.undergo x) := by
  cases x with
  | installed label reactor p => exact amends_install b label reactor p
  | removed label => exact amends_remove b label
  | asked x => exact (altersAt_reply b x.entry.slot x.action).amends
  | applied turn a => exact (altersAt_apply b 0 a).amends
  | logged a => exact .of_eq rfl rfl rfl
  | skipped x => exact .refl b
  | ended x outcome => exact .refl b

theorem amends_after (b : Bench) (hs : List Happening) : b.Amends (b.edits hs) (b.after hs) := by
  induction hs generalizing b with
  | nil => exact .refl b
  | cons x rest ih => exact (amends_undergo b x).trans (ih (b.undergo x))

theorem amends_invoke {depth : Nat} {a : Action} {result : Except Error Response}
    (h : b.invoke depth a = some (result, c)) : b.Amends (b.edits (history depth b a)) c := by
  rw [← after_history depth b a result c h]
  exact amends_after ..

theorem amends_run {depth : Nat} {s : Script} {outcome : Outcome}
    (h : s.run (invoke depth) b = some (outcome, c)) :
    b.Amends (b.edits (s.history (invoke depth) (history depth) b)) c := by
  have hc := Script.after_history (after_history depth) h
  exact hc ▸ amends_after ..

end Bench

end ControllerBench
