import ControllerBench.Proofs.Dispatch.Depth
import ControllerBench.Proofs.Dispatch.Overrides
import Mathlib.Algebra.BigOperators.Group.Finset.Basic

namespace ControllerBench

/-- Invokes at most so many actions, whatever it is answered, and installs nothing. -/
inductive Script.Spare : Nat → Script → Prop
  | done {n outcome} : Spare n (.done outcome)
  | invoke {n action next} : (∀ result, Spare n (next result)) → Spare (n + 1) (.invoke action next)
  | remove {n label next} : (∀ was, Spare n (next was)) → Spare n (.remove label next)
  | pause {n next} : Spare n next → Spare n (.pause next)

/-- How often an override may still react; without a limit there is nothing to count down. -/
def Override.left (o : Override Script) : Nat := o.limit.getD 0 - o.offered

/-- Those that invoke are limited and invoke one action a time, all others invoke nothing. -/
structure Override.Thrifty (o : Override Script) (invoking : Prop) : Prop where
  limited : invoking → o.limit.isSome = true
  single : invoking → ∀ n a, (o.reaction n a).Spare 1
  idle : ¬ invoking → ∀ n a, (o.reaction n a).Spare 0

namespace Bench

def Thrifty (b : Bench) (invoking : Finset Nat) (slot : Nat) : Prop :=
  ∀ o, b.override? slot = some o → o.Thrifty (slot ∈ invoking)

def leftAt (b : Bench) (slot : Nat) : Nat := (b.override? slot).elim 0 (·.left)

def left (b : Bench) (invoking : Finset Nat) : Nat := ∑ slot ∈ invoking, b.leftAt slot

/-- The chain keeps to some slots, at which all reactors are thrifty. -/
structure Confined (S : List Nat) (invoking : Finset Nat) (b : Bench) : Prop where
  chain : ∀ x ∈ b.chain, x.slot ∈ S
  thrifty : ∀ slot ∈ S, b.Thrifty invoking slot

/-- All that is logged, but for `n` actions, is paid for out of what was left. -/
structure Spends (invoking : Finset Nat) (n : Nat) (b c : Bench) : Prop where
  left : c.left invoking ≤ b.left invoking
  log : c.log.size + c.left invoking ≤ b.log.size + b.left invoking + n

variable {S : List Nat} {invoking : Finset Nat} {b c d : Bench} {n k : Nat}

theorem Spends.trans (h : Spends invoking n b c) (h' : Spends invoking k c d) :
    Spends invoking (n + k) b d := by
  have hbc := h.log
  have hcd := h'.log
  refine ⟨Nat.le_trans h'.left h.left, ?_⟩
  omega

theorem left_congr (h : c.reactors = b.reactors) : c.left invoking = b.left invoking := by
  simp only [left, leftAt, override?, h]

theorem Spends.of_eq (hreactors : c.reactors = b.reactors) (hlog : c.log = b.log) :
    Spends invoking 0 b c := by
  constructor
  · rw [left_congr hreactors]
  · rw [left_congr hreactors, hlog, Nat.add_zero]

theorem Confined.of_eq (h : b.Confined S invoking) (hreactors : c.reactors = b.reactors)
    (hchain : c.chain ⊆ b.chain) : c.Confined S invoking where
  chain x hx := h.chain x (hchain hx)
  thrifty := by simpa only [Thrifty, override?, hreactors] using h.thrifty

theorem remove_chain (b : Bench) (label : String) : (b.remove label).2.chain ⊆ b.chain := by
  unfold remove
  split
  · exact List.filter_sublist.subset
  · exact List.Subset.refl _

theorem AltersAt.left {slot : Nat} (h : AltersAt slot b c)
    (hin : slot ∈ invoking → c.leftAt slot + n ≤ b.leftAt slot) (hout : slot ∉ invoking → n = 0) :
    c.left invoking + n ≤ b.left invoking := by
  have hothers : ∀ i, i ≠ slot → c.leftAt i = b.leftAt i := by
    intro i hi
    rw [leftAt, leftAt, override_congr (h.others i hi)]
  by_cases hslot : slot ∈ invoking
  · have hrest : ∑ i ∈ invoking.erase slot, c.leftAt i = ∑ i ∈ invoking.erase slot, b.leftAt i :=
      Finset.sum_congr rfl fun i hi => hothers i (Finset.ne_of_mem_erase hi)
    have hb := Finset.add_sum_erase invoking b.leftAt hslot
    have hc := Finset.add_sum_erase invoking c.leftAt hslot
    have hs := hin hslot
    simp only [Bench.left]
    omega
  · have hsame : c.left invoking = b.left invoking :=
      Finset.sum_congr rfl fun i hi => hothers i (ne_of_mem_of_not_mem hi hslot)
    rw [hsame, hout hslot, Nat.add_zero]

theorem leftAt_reply (b : Bench) (slot : Nat) (a : Action) :
    (b.reply slot a).2.leftAt slot = b.leftAt slot - 1 := by
  rw [leftAt, leftAt, override_reply]
  cases b.override? slot with
  | none => rfl
  | some o => exact (Nat.sub_sub ..).symm

theorem Confined.reply (h : b.Confined S invoking) (slot : Nat) (a : Action) :
    (b.reply slot a).2.Confined S invoking := by
  refine ⟨by simpa only [(altersAt_reply b slot a).chain] using h.chain, fun i hi o ho => ?_⟩
  by_cases hslot : i = slot
  · obtain rfl := hslot
    rw [override_reply] at ho
    obtain ⟨before, hbefore, rfl⟩ := Option.map_eq_some_iff.1 ho
    have hthrifty := h.thrifty i hi before hbefore
    exact ⟨hthrifty.limited, hthrifty.single, hthrifty.idle⟩
  · rw [override_reply_of_ne hslot] at ho
    exact h.thrifty i hi o ho

theorem Thrifty.reply {slot : Nat} (h : b.Thrifty invoking slot) (a : Action) :
    ∃ n, (b.reply slot a).1.Spare n ∧ (b.reply slot a).2.left invoking + n ≤ b.left invoking := by
  have halters := altersAt_reply b slot a
  have hleft := leftAt_reply b slot a
  have hquiet : (b.reply slot a).2.left invoking + 0 ≤ b.left invoking :=
    halters.left (fun _ => by omega) fun _ => rfl
  rw [reply_script]
  cases ho : b.override? slot with
  | none => exact ⟨0, .done, hquiet⟩
  | some o =>
    rw [Option.elim_some, Override.reply]
    split
    next => exact ⟨0, .done, hquiet⟩
    next hexhausted =>
      by_cases hslot : slot ∈ invoking
      · -- it counts before it reacts, so what it is about to invoke is paid for already
        refine ⟨1, (h o ho).single hslot _ _, halters.left (fun _ => ?_) fun hn => absurd hslot hn⟩
        obtain ⟨limit, hlimit⟩ := Option.isSome_iff_exists.1 ((h o ho).limited hslot)
        have hoffered : o.offered < limit := by simpa [Override.exhausted, hlimit] using hexhausted
        have hwas : b.leftAt slot = limit - o.offered := by
          rw [leftAt, ho, Option.elim_some, Override.left, hlimit, Option.getD_some]
        omega
      · exact ⟨0, (h o ho).idle hslot _ _, hquiet⟩

end Bench

open Bench (Confined Spends)

def Invoke.Affords (S : List Nat) (invoking : Finset Nat) (n : Nat) (invoke : Invoke) : Prop :=
  ∀ b a, b.Confined S invoking → b.left invoking < n →
    ∃ result c, invoke b a = some (result, c) ∧ c.Confined S invoking ∧ Spends invoking 1 b c

section Invoke

variable {S : List Nat} {invoking : Finset Nat} {n : Nat} {invoke : Invoke}
  (hi : invoke.Affords S invoking n)

include hi

theorem Script.Spare.run {s : Script} {k : Nat} (hs : s.Spare k) {b : Bench}
    (hb : b.Confined S invoking) (hk : b.left invoking + k ≤ n) :
    ∃ outcome c, s.run invoke b = some (outcome, c) ∧ c.Confined S invoking ∧
      Spends invoking k b c := by
  induction hs generalizing b with
  | @done k outcome => exact ⟨outcome, b, rfl, hb, Nat.le_refl _, Nat.le_add_right _ _⟩
  | @invoke k action next _ ih =>
    obtain ⟨result, c, hc, hcc, hspend⟩ := hi b action hb (by omega)
    have hleft := hspend.left
    obtain ⟨outcome, d, hd, hdc, hrest⟩ := ih result hcc (by omega)
    refine ⟨outcome, d, ?_, hdc, ?_⟩
    · simp only [Script.run, hc, hd]
    · rw [Nat.add_comm k 1]
      exact hspend.trans hrest
  | @remove k label next _ ih =>
    have hreactors := b.remove_reactors label
    have hspend : Spends invoking 0 b (b.remove label).2 :=
      .of_eq hreactors (b.rewires_remove label).log
    have hleft := hspend.left
    obtain ⟨outcome, d, hd, hdc, hrest⟩ :=
      ih (b.remove label).1 (hb.of_eq hreactors (b.remove_chain label)) (by omega)
    refine ⟨outcome, d, hd, hdc, ?_⟩
    rw [← Nat.zero_add k]
    exact hspend.trans hrest
  | pause _ ih => exact ih hb hk

namespace Bench

theorem react_affords {b : Bench} {slot : Nat} (hb : b.Confined S invoking) (hslot : slot ∈ S)
    (hn : b.left invoking ≤ n) (a : Action) :
    ∃ outcome c, b.react invoke slot a = some (outcome, c) ∧ c.Confined S invoking ∧
      Spends invoking 0 b c := by
  obtain ⟨k, hspare, hleft⟩ := (hb.thrifty slot hslot).reply a
  obtain ⟨outcome, c, hc, hcc, hspend⟩ := hspare.run hi (hb.reply slot a) (Nat.le_trans hleft hn)
  have hlog : (b.reply slot a).2.log = b.log := (altersAt_reply b slot a).log
  have hcleft := hspend.left
  have hclog := hspend.log
  rw [hlog] at hclog
  refine ⟨outcome, c, (react_eq_reply ..).trans hc, hcc, ?_, ?_⟩
  · omega
  · omega

theorem consult_affords {slots : List Nat} (hslots : ∀ slot ∈ slots, slot ∈ S) {b : Bench}
    (hb : b.Confined S invoking) (hn : b.left invoking ≤ n) (a : Action) :
    ∃ claim c, b.consult invoke a slots = some (claim, c) ∧ c.Confined S invoking ∧
      Spends invoking 0 b c := by
  induction slots generalizing b with
  | nil => exact ⟨none, b, rfl, hb, .of_eq rfl rfl⟩
  | cons slot rest ih =>
    obtain ⟨hslot, hrest⟩ := List.forall_mem_cons.1 hslots
    simp only [consult]
    split
    next hh =>
      obtain ⟨outcome, c, hc, hcc, hspend⟩ := react_affords hi hb hslot hn a
      rw [hc]
      simp only
      split
      next result _ => exact ⟨some result, c, rfl, hcc, hspend⟩
      next =>
        obtain ⟨claim, d, hd, hdc, hlater⟩ := ih hrest hcc (Nat.le_trans hspend.left hn)
        exact ⟨claim, d, hd, hdc, hspend.trans hlater⟩
    next => exact ih hrest hb hn

end Bench

end Invoke

namespace Bench

theorem invoke_affords (S : List Nat) (invoking : Finset Nat) (depth : Nat) :
    (invoke depth).Affords S invoking depth := by
  -- each level of nesting has taken one off what was left
  induction depth with
  | zero =>
    intro b a _ hn
    exact absurd hn (Nat.not_lt_zero _)
  | succ depth ih =>
    intro b a hb hn
    have hrecord : Spends invoking 1 b (b.record a) := by
      have hleft : (b.record a).left invoking = b.left invoking := left_congr rfl
      have hsize : (b.record a).log.size = b.log.size + 1 := Array.size_push ..
      constructor <;> omega
    have hconfined : (b.record a).Confined S invoking := hb.of_eq rfl (List.Subset.refl _)
    have hslots : ∀ slot ∈ (b.record a).chain.map (·.slot), slot ∈ S := by
      simpa using hconfined.chain
    obtain ⟨claim, c, hc, hcc, hspend⟩ :=
      consult_affords ih hslots hconfined (Nat.le_of_lt_succ hn) a
    have hlogged := hrecord.trans hspend
    cases claim with
    | some result =>
      refine ⟨result, c, ?_, hcc, hlogged⟩
      simp only [invoke, hc]
    | none =>
      obtain ⟨hreactors, -, hchain, -⟩ := apply_frame c a
      have happly : Spends invoking 0 c (c.apply a).2 := .of_eq hreactors (apply_log c a)
      refine ⟨(c.apply a).1, (c.apply a).2, ?_, ?_, hlogged.trans happly⟩
      · simp only [invoke, hc]
      · exact hcc.of_eq hreactors (hchain ▸ List.Subset.refl _)

/--
Invocations that set off further ones come to an end when all who do so are limited: each of them is paid
for out of what is left of the limits before it is made.
-/
theorem invoke_returns_within_limits {b : Bench} {invoking : Finset Nat}
    (h : ∀ x ∈ b.chain, b.Thrifty invoking x.slot) (a : Action) :
    ∃ result c, (∀ depth, b.left invoking < depth → b.invoke depth a = some (result, c)) ∧
      b.Grows c ∧ c.log.size ≤ b.log.size + (1 + b.left invoking) := by
  have hb : b.Confined (b.chain.map (·.slot)) invoking := by
    constructor
    · intro x hx
      exact List.mem_map_of_mem hx
    · intro slot hslot
      obtain ⟨x, hx, rfl⟩ := List.mem_map.1 hslot
      exact h x hx
  obtain ⟨result, c, hc, -, hspend⟩ :=
    invoke_affords (b.chain.map (·.slot)) invoking (b.left invoking + 1) b a hb (Nat.lt_succ_self _)
  refine ⟨result, c, fun depth hdepth => invoke_le hdepth b a _ hc, ?_, ?_⟩
  · exact grows_frame.invoke _ b a result c hc
  · have hlog := hspend.log
    omega

def volley : Bench where
  reporter := ⟨"case"⟩
  reactors :=
    #[.override
        { filter := .ofVerb "create"
          reaction := fun _ _ => .invoke (deletion "a") fun _ => .done .pass
          limit := some 2 },
      .assertion (.expect .any .seen),
      .override
        { filter := .ofVerb "delete"
          reaction := fun _ _ => .invoke (creation "a") fun _ => .done .pass
          limit := some 2 }]
  chain := [⟨0, 0⟩, ⟨1, 1⟩, ⟨2, 2⟩]
  issued := 3

theorem volley_ends :
    (∀ x ∈ volley.chain, volley.Thrifty {0, 2} x.slot) ∧
      ∃ result c, volley.invoke 5 (creation "a") = some (result, c) ∧ c.log.size = 1 + 4 := by
  have hleft : volley.left {0, 2} = 4 := by decide
  have hthrifty : ∀ x ∈ volley.chain, volley.Thrifty {0, 2} x.slot := by
    intro x hx o ho
    have hsingle : ∀ action, (Script.invoke action fun _ => .done .pass).Spare 1 :=
      fun action => .invoke fun _ => .done
    obtain rfl | rfl | rfl : x = ⟨0, 0⟩ ∨ x = ⟨1, 1⟩ ∨ x = ⟨2, 2⟩ := by simpa [volley] using hx
    · cases ho
      exact ⟨fun _ => rfl, fun _ _ _ => hsingle _, fun hn => absurd (by decide) hn⟩
    · cases ho
    · cases ho
      exact ⟨fun _ => rfl, fun _ _ _ => hsingle _, fun hn => absurd (by decide) hn⟩
  obtain ⟨result, c, hc, -, hlog⟩ := invoke_returns_within_limits hthrifty (creation "a")
  have hrun := hc 5 (by rw [hleft]; decide)
  have hreached : (volley.invoke 5 (creation "a")).all (fun r => 5 ≤ r.2.log.size) = true := by
    decide +kernel
  refine ⟨hthrifty, result, c, hrun, Nat.le_antisymm ?_ ?_⟩
  · rwa [hleft] at hlog
  · simpa [hrun] using hreached

end Bench

end ControllerBench
