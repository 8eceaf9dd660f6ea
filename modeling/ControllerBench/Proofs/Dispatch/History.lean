import ControllerBench.Proofs.Dispatch.Chain

namespace ControllerBench

/-- An action offered to an installation, by the dispatch of the log's entry number `turn`. -/
structure Offer where
  turn : Nat
  action : Action
  entry : Installation

inductive Happening where
  | logged (action : Action)
  | skipped (o : Offer)
  | asked (o : Offer)
  | ended (o : Offer) (outcome : Outcome)
  | applied (turn : Nat) (action : Action)
  | installed (label : String) (reactor : Option (Reactor Script)) (placement : Placement)
  | removed (label : String)

/-- The dispatch it belongs to, where it is a dispatch's own doing. -/
def Happening.turn? : Happening → Option Nat
  | skipped o | asked o | ended o _ => some o.turn
  | applied turn _ => some turn
  | logged _ | installed .. | removed _ => none

abbrev Recount := Bench → Action → List Happening

def Script.history (invoke : Invoke) (recount : Recount) : Script → Bench → List Happening
  | done _, _ => []
  | .invoke action next, b =>
    recount b action ++
      match invoke b action with
      | none => []
      | some (result, c) => (next result).history invoke recount c
  | install label reactor placement next, b =>
    .installed label reactor placement ::
      next.history invoke recount (b.install label reactor placement)
  | remove label next, b =>
    .removed label :: (next (b.remove label).1).history invoke recount (b.remove label).2
  | pause next, b => next.history invoke recount b

namespace Bench

def undergo (b : Bench) : Happening → Bench
  | .logged a => b.record a
  | .asked o => (b.reply o.entry.slot o.action).2
  | .applied _ a => (b.apply a).2
  | .installed label reactor placement => b.install label reactor placement
  | .removed label => (b.remove label).2
  | .skipped _ | .ended .. => b

def after (b : Bench) (hs : List Happening) : Bench := hs.foldl undergo b

def edit? (b : Bench) : Happening → Option Edit
  | .installed label reactor placement => b.installment? label reactor placement
  | .removed label => b.detachment? label
  | .logged _ | .skipped _ | .asked _ | .ended .. | .applied .. => none

def edits (b : Bench) : List Happening → List Edit
  | [] => []
  | h :: rest => (b.edit? h).toList ++ (b.undergo h).edits rest

def reaction (invoke : Invoke) (recount : Recount) (b : Bench) (o : Offer) : List Happening :=
  let r := b.reply o.entry.slot o.action
  .asked o :: r.1.history invoke recount r.2

def course (invoke : Invoke) (recount : Recount) (turn : Nat) (a : Action) :
    List Installation → Bench → List Happening
  | [], _ => [.applied turn a]
  | entry :: rest, b =>
    let o : Offer := ⟨turn, a, entry⟩
    if b.handles entry.slot a then
      match b.react invoke entry.slot a with
      | none => b.reaction invoke recount o
      | some (outcome, c) =>
        match outcome.claim? with
        | some _ => b.reaction invoke recount o ++ [.ended o outcome]
        | none =>
          b.reaction invoke recount o ++ .ended o outcome :: course invoke recount turn a rest c
    else .skipped o :: course invoke recount turn a rest b

def history : Nat → Recount
  | 0, _, _ => []
  | depth + 1, b, a =>
    .logged a :: (b.record a).course (invoke depth) (history depth) b.log.size a b.chain

theorem after_append (b : Bench) (hs hs' : List Happening) :
    b.after (hs ++ hs') = (b.after hs).after hs' := List.foldl_append

theorem after_cons (b : Bench) (h : Happening) (hs : List Happening) :
    b.after (h :: hs) = (b.undergo h).after hs := rfl

theorem after_concat (b : Bench) (hs : List Happening) (h : Happening) :
    b.after (hs ++ [h]) = (b.after hs).undergo h := after_append b hs [h]

theorem undergo_log (b : Bench) (h : Happening) :
    (b.undergo h).log.size = b.log.size + if h matches .logged _ then 1 else 0 := by
  cases h with
  | logged a => exact Array.size_push ..
  | asked o => exact congrArg Array.size (altersAt_reply b o.entry.slot o.action).log
  | applied turn a => exact congrArg Array.size (apply_log b a)
  | installed label reactor p => exact congrArg Array.size (rewires_install b label reactor p).log
  | removed label => exact congrArg Array.size (rewires_remove b label).log
  | skipped o => rfl
  | ended o outcome => rfl

theorem undergo_log_le (b : Bench) (h : Happening) : b.log.size ≤ (b.undergo h).log.size := by
  rw [undergo_log]
  exact Nat.le_add_right ..

theorem after_log_le (b : Bench) (hs : List Happening) : b.log.size ≤ (b.after hs).log.size := by
  induction hs generalizing b with
  | nil => exact Nat.le_refl _
  | cons h rest ih => exact Nat.le_trans (undergo_log_le b h) (ih _)

theorem edit_id {b : Bench} {x : Happening} {entry : Installation} {front : Bool}
    (h : b.edit? x = some (.attached entry front)) : entry.id = b.issued := by
  cases x with
  | installed label reactor p => exact installment_id h
  | removed label =>
    obtain ⟨id, -, hid⟩ := Option.map_eq_some_iff.1 h
    cases hid
  | logged | skipped | asked | ended | applied => cases h

theorem Edited.undergo {o b : Bench} {es : List Edit} (h : o.Edited es b) (x : Happening) :
    o.Edited (es ++ (b.edit? x).toList) (b.undergo x) := by
  cases x with
  | installed label reactor p => exact h.install label reactor p
  | removed label => exact h.remove label
  | logged a => simpa [edit?, Bench.undergo] using h.of_eq (c := b.record a) rfl rfl rfl
  | asked x => simpa [edit?, Bench.undergo] using h.altered (altersAt_reply b x.entry.slot x.action)
  | applied turn a => simpa [edit?, Bench.undergo] using h.altered (altersAt_apply b 0 a)
  | skipped x => simpa [edit?, Bench.undergo] using h
  | ended x outcome => simpa [edit?, Bench.undergo] using h

theorem Edited.after {o b : Bench} {es : List Edit} (h : o.Edited es b) (hs : List Happening) :
    o.Edited (es ++ b.edits hs) (b.after hs) := by
  induction hs generalizing b es with
  | nil =>
    rw [edits, List.append_nil]
    exact h
  | cons x rest ih =>
    rw [edits, ← List.append_assoc]
    exact ih (h.undergo x)

/-- `P` holds of every happening at its moment, given what happens later. -/
def Throughout (P : Bench → List Happening → Happening → Prop) : Bench → List Happening → Prop
  | _, [] => True
  | b, x :: rest => P b rest x ∧ (b.undergo x).Throughout P rest

section Throughout

variable {P Q : Bench → List Happening → Happening → Prop} {b : Bench}

theorem Throughout.at {earlier later : List Happening} {x : Happening}
    (h : b.Throughout P (earlier ++ x :: later)) : P (b.after earlier) later x := by
  induction earlier generalizing b with
  | nil => exact h.1
  | cons y rest ih => exact ih h.2

theorem Throughout.append {hs hs' : List Happening} (h : b.Throughout P hs)
    (h' : (b.after hs).Throughout Q hs')
    (hpq : ∀ earlier x later, hs = earlier ++ x :: later →
      P (b.after earlier) later x → Q (b.after earlier) (later ++ hs') x) :
    b.Throughout Q (hs ++ hs') := by
  induction hs generalizing b with
  | nil => exact h'
  | cons x rest ih =>
    refine ⟨hpq [] x rest rfl h.1, ih h.2 h' fun earlier y later he => ?_⟩
    exact hpq (x :: earlier) y later (congrArg (x :: ·) he)

end Throughout

end Bench

def Invoke.Recounted (invoke : Invoke) (recount : Recount) : Prop :=
  ∀ b a result c, invoke b a = some (result, c) → b.after (recount b a) = c

section Invoke

variable {invoke : Invoke} {recount : Recount} (hi : invoke.Recounted recount)

include hi

theorem Script.after_history {s : Script} {b c : Bench} {outcome : Outcome}
    (h : s.run invoke b = some (outcome, c)) : b.after (s.history invoke recount b) = c := by
  fun_induction Script.run invoke s b with
  | case1 b outcome =>
    cases h
    rfl
  | case2 b action next hn => cases h
  | case3 b action next result d hd ih =>
    simp only [Script.history, hd]
    rw [Bench.after_append, hi _ _ _ _ hd]
    exact ih h
  | case4 label reactor placement next b ih => exact ih h
  | case5 label next b ih => exact ih h
  | case6 b next ih => exact ih h

theorem Bench.after_reaction {b c : Bench} {o : Offer} {outcome : Outcome}
    (h : b.react invoke o.entry.slot o.action = some (outcome, c)) :
    b.after (b.reaction invoke recount o) = c :=
  Script.after_history hi ((Bench.react_eq_reply ..).symm.trans h)

theorem Bench.after_course {turn : Nat} {a : Action} {entries : List Installation} {b c : Bench}
    {claim : Option (Except Error Response)}
    (h : b.consult invoke a (entries.map (·.slot)) = some (claim, c)) :
    b.after (b.course invoke recount turn a entries) =
      if claim.isSome then c else (c.apply a).2 := by
  fun_induction Bench.course invoke recount turn a entries b with
  | case1 b =>
    cases h
    rfl
  | case2 entry rest b o hh hr =>
    simp only [List.map_cons, consult, hh, hr, if_true] at h
    cases h
  | case3 entry rest b o hh outcome d hr result hc =>
    simp only [List.map_cons, consult, hh, hr, hc, if_true] at h
    cases h
    rw [after_concat, after_reaction hi (o := o) hr]
    rfl
  | case4 entry rest b o hh outcome d hr hc ih =>
    simp only [List.map_cons, consult, hh, hr, hc, if_true] at h
    rw [after_append, after_reaction hi (o := o) hr]
    exact ih h
  | case5 entry rest b o hh ih =>
    rw [List.map_cons, consult, if_neg hh] at h
    exact ih h

end Invoke

theorem Bench.after_history (depth : Nat) :
    Invoke.Recounted (invoke depth) (history depth) := by
  induction depth with
  | zero =>
    intro b a result c h
    cases h
  | succ depth ih =>
    intro b a result c h
    simp only [invoke] at h
    rw [history, after_cons]
    split at h
    · cases h
    next claimed d hd =>
      cases h
      exact after_course ih hd
    next d hd =>
      obtain rfl : (d.apply a).2 = c := congrArg Prod.snd (Option.some.inj h)
      exact after_course ih hd

end ControllerBench
