import ControllerBench.Proofs.Dispatch.Invocation

namespace ControllerBench

def Invoke.Refines (i j : Invoke) : Prop := ∀ b a x, i b a = some x → j b a = some x

section Invoke

variable {i j : Invoke} (h : i.Refines j)

include h

theorem Script.run_refines {s : Script} {b : Bench} {x : Outcome × Bench}
    (hx : s.run i b = some x) : s.run j b = some x := by
  fun_induction Script.run i s b with
  | case1 => exact hx
  | case2 => cases hx
  | case3 action next b result c hc ih =>
    simp only [Script.run, h b _ _ hc]
    exact ih hx
  | case4 _ _ _ _ _ ih => exact ih hx
  | case5 _ _ _ ih => exact ih hx
  | case6 _ _ ih => exact ih hx

namespace Bench

theorem react_refines {b : Bench} {slot : Nat} {a : Action} {x : Outcome × Bench}
    (hx : b.react i slot a = some x) : b.react j slot a = some x := by
  rw [react_eq_reply] at hx ⊢
  exact Script.run_refines h hx

theorem consult_refines {a : Action} {slots : List Nat} {b : Bench}
    {x : Option (Except Error Response) × Bench} (hx : b.consult i a slots = some x) :
    b.consult j a slots = some x := by
  induction slots generalizing b with
  | nil => exact hx
  | cons slot rest ih =>
    simp only [Bench.consult] at hx ⊢
    split at hx
    next hh =>
      rw [if_pos hh]
      split at hx
      · cases hx
      next outcome c hc =>
        rw [react_refines h hc]
        simp only
        split at hx
        · exact hx
        · exact ih hx
    next hh =>
      rw [if_neg hh]
      exact ih hx

end Bench

end Invoke

namespace Bench

theorem refines_succ {depth depth' : Nat} (h : Invoke.Refines (invoke depth) (invoke depth')) :
    Invoke.Refines (invoke (depth + 1)) (invoke (depth' + 1)) := by
  intro b a x hx
  simp only [invoke] at hx ⊢
  split at hx
  · cases hx
  next claimed c hc => rwa [consult_refines h hc]
  next c hc => rwa [consult_refines h hc]

theorem invoke_succ (depth : Nat) : Invoke.Refines (invoke depth) (invoke (depth + 1)) := by
  induction depth with
  | zero =>
    intro b a x hx
    cases hx
  | succ depth ih => exact refines_succ ih

theorem invoke_le {depth depth' : Nat} (h : depth ≤ depth') :
    Invoke.Refines (invoke depth) (invoke depth') := by
  induction h with
  | refl => exact fun _ _ _ hx => hx
  | step _ ih => exact fun b a x hx => invoke_succ _ b a x (ih b a x hx)

theorem agree_of_refines {α : Type} {f : Nat → Option α}
    (h : ∀ {depth depth'}, depth ≤ depth' → ∀ {x}, f depth = some x → f depth' = some x)
    {depth depth' : Nat} {x y : α} (hx : f depth = some x) (hy : f depth' = some y) : x = y := by
  have hx' := h (Nat.le_max_left depth depth') hx
  have hy' := h (Nat.le_max_right depth depth') hy
  exact Option.some.inj (hx'.symm.trans hy')

variable {depth depth' : Nat} {b : Bench}

theorem invoke_agree {a : Action} {x y : Except Error Response × Bench}
    (hx : b.invoke depth a = some x) (hy : b.invoke depth' a = some y) : x = y :=
  agree_of_refines (f := fun depth => b.invoke depth a) (fun hle => invoke_le hle b a _) hx hy

theorem react_agree {slot : Nat} {a : Action} {x y : Outcome × Bench}
    (hx : b.react (invoke depth) slot a = some x) (hy : b.react (invoke depth') slot a = some y) :
    x = y :=
  agree_of_refines (f := fun depth => b.react (invoke depth) slot a)
    (fun hle => react_refines (invoke_le hle)) hx hy

theorem run_agree {s : Script} {x y : Outcome × Bench} (hx : s.run (invoke depth) b = some x)
    (hy : s.run (invoke depth') b = some y) : x = y :=
  agree_of_refines (f := fun depth => s.run (invoke depth) b)
    (fun hle => Script.run_refines (invoke_le hle)) hx hy

end Bench

end ControllerBench
