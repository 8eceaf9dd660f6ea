import ControllerBench.Bench.Dispatch

namespace ControllerBench

/-- `asked` names the reactors that reacted, in turn, each with how its reaction ended. -/
structure Invocation where
  action : Action
  asked : List (Nat × Outcome)
  nested : List Invocation
  answer : Option (Except Error Response)

namespace Invocation

def claimAmong (asked : List (Nat × Outcome)) : Option (Except Error Response) :=
  asked.findSome? (·.2.claim?)

def claim? (i : Invocation) : Option (Except Error Response) := claimAmong i.asked

mutual

/-- An invocation and all that is nested in it, in the order in which they began. -/
def begun : Invocation → List Invocation
  | ⟨action, asked, nested, answer⟩ => ⟨action, asked, nested, answer⟩ :: begunAll nested

def begunAll : List Invocation → List Invocation
  | [] => []
  | i :: rest => i.begun ++ begunAll rest

end

mutual

/-- Those of them that no reactor claimed, in the order in which they reached the tracker. -/
def served : Invocation → List Invocation
  | ⟨action, asked, nested, answer⟩ =>
    servedAll nested ++
      if (claimAmong asked).isNone then [⟨action, asked, nested, answer⟩] else []

def servedAll : List Invocation → List Invocation
  | [] => []
  | i :: rest => i.served ++ servedAll rest

end

theorem begunAll_append (is js : List Invocation) :
    begunAll (is ++ js) = begunAll is ++ begunAll js := by
  induction is with
  | nil => rfl
  | cons i rest ih => simp [begunAll, ih]

theorem servedAll_append (is js : List Invocation) :
    servedAll (is ++ js) = servedAll is ++ servedAll js := by
  induction is with
  | nil => rfl
  | cons i rest ih => simp [servedAll, ih]

theorem begunAll_singleton (i : Invocation) : begunAll [i] = i :: begunAll i.nested := by
  obtain ⟨action, asked, nested, answer⟩ := i
  simp [begunAll, begun]

theorem servedAll_claimed {i : Invocation} {result : Except Error Response}
    (h : i.claim? = some result) : servedAll [i] = servedAll i.nested := by
  obtain ⟨action, asked, nested, answer⟩ := i
  have hc : claimAmong asked = some result := h
  simp [servedAll, served, hc]

theorem servedAll_unclaimed {i : Invocation} (h : i.claim? = none) :
    servedAll [i] = servedAll i.nested ++ [i] := by
  obtain ⟨action, asked, nested, answer⟩ := i
  have hc : claimAmong asked = none := h
  simp [servedAll, served, hc]

@[elab_as_elim]
theorem forest_induction {P : List Invocation → Prop} (nil : P [])
    (cons : ∀ i rest, P i.nested → P rest → P (i :: rest)) (is : List Invocation) : P is := by
  apply Invocation.rec_1 (motive_1 := fun i => P i.nested) (motive_2 := P)
  · exact fun _ _ _ _ h => h
  · exact nil
  · exact fun i rest hi hr => cons i rest hi hr

theorem servedAll_perm (is : List Invocation) :
    (servedAll is).Perm ((begunAll is).filter (·.claim?.isNone)) := by
  induction is using forest_induction with
  | nil => exact .nil
  | cons i rest hi hr =>
    have hone : (servedAll [i]).Perm ((begunAll [i]).filter (·.claim?.isNone)) := by
      rw [begunAll_singleton]
      cases hc : i.claim? with
      | none =>
        rw [servedAll_unclaimed hc, List.filter_cons_of_pos (by simp [hc])]
        exact (List.perm_append_singleton ..).trans (hi.cons i)
      | some result =>
        rw [servedAll_claimed hc, List.filter_cons_of_neg (by simp [hc])]
        exact hi
    rw [← List.singleton_append, servedAll_append, begunAll_append, List.filter_append]
    exact hone.append hr

end Invocation

/-- The invocations a script makes itself; `note` tells how each of them goes. -/
def Script.invocations (invoke : Invoke) (note : Bench → Action → Invocation) :
    Script → Bench → List Invocation
  | done _, _ => []
  | .invoke action next, b =>
    note b action ::
      match invoke b action with
      | none => []
      | some (result, c) => (next result).invocations invoke note c
  | install label reactor placement next, b =>
    next.invocations invoke note (b.install label reactor placement)
  | remove label next, b => (next (b.remove label).1).invocations invoke note (b.remove label).2
  | pause next, b => next.invocations invoke note b

namespace Bench

def reply (b : Bench) (slot : Nat) (a : Action) : Script × Bench :=
  match b.reactors[slot]? with
  | none => (.done .pass, b)
  | some (.verifier v waited) =>
    (.done .pass, (b.setReactor slot (.verifier (v.react a).1 waited)).report (v.react a).2)
  | some (.assertion w) => (.done .pass, b.setReactor slot (.assertion (w.react a)))
  | some (.override o) =>
    (if o.exhausted then .done .pass else o.reaction o.offered a,
      b.setReactor slot (.override { o with offered := o.offered + 1 }))

theorem react_eq_reply (invoke : Invoke) (b : Bench) (slot : Nat) (a : Action) :
    b.react invoke slot a = (b.reply slot a).1.run invoke (b.reply slot a).2 := by
  cases hr : b.reactors[slot]? with
  | none => simp only [react, reply, hr, Script.run]
  | some r =>
    cases r with
    | verifier v waited => simp only [react, reply, hr, Script.run]
    | assertion w => simp only [react, reply, hr, Script.run]
    | override o =>
      simp only [react, reply, hr]
      split <;> rfl

/-- The reactors an action is offered to, as far as it gets, and what their reactions invoke. -/
def hearing (invoke : Invoke) (note : Bench → Action → Invocation) (a : Action) :
    List Nat → Bench → List (Nat × Outcome) × List Invocation
  | [], _ => ([], [])
  | slot :: rest, b =>
    if b.handles slot a then
      let nested := (b.reply slot a).1.invocations invoke note (b.reply slot a).2
      match b.react invoke slot a with
      | none => ([], nested)
      | some (outcome, c) =>
        if outcome.claim?.isSome then ([(slot, outcome)], nested)
        else
          let later := hearing invoke note a rest c
          ((slot, outcome) :: later.1, nested ++ later.2)
    else hearing invoke note a rest b

def invocation : Nat → Bench → Action → Invocation
  | 0, _, a => ⟨a, [], [], none⟩
  | depth + 1, b, a =>
    let heard := (b.record a).hearing (invoke depth) (invocation depth) a (b.chain.map (·.slot))
    ⟨a, heard.1, heard.2, (b.invoke (depth + 1) a).map (·.1)⟩

end Bench

/-- A relation between a bench, what is invoked from there on, and the bench that this leads to. -/
structure Chronicle (R : Bench → List Invocation → Bench → Prop) : Prop where
  refl (b : Bench) : R b [] b
  trans {b c d : Bench} {is js : List Invocation} : R b is c → R c js d → R b (is ++ js) d
  setReactor (b : Bench) (slot : Nat) (r : Reactor Script) : R b [] (b.setReactor slot r)
  report (b : Bench) (fs : List Failure) : R b [] (b.report fs)
  install (b : Bench) (label : String) (r : Option (Reactor Script)) (p : Placement) :
    R b [] (b.install label r p)
  remove (b : Bench) (label : String) : R b [] (b.remove label).2
  claimed {b c : Bench} {i : Invocation} {result : Except Error Response} :
    R (b.record i.action) i.nested c → i.claim? = some result → i.answer = some result →
      R b [i] c
  served {b c : Bench} {i : Invocation} :
    R (b.record i.action) i.nested c → i.claim? = none →
      i.answer = some (c.apply i.action).1 → R b [i] (c.apply i.action).2

def Invoke.Tells (invoke : Invoke) (note : Bench → Action → Invocation)
    (R : Bench → List Invocation → Bench → Prop) : Prop :=
  ∀ b a result c, invoke b a = some (result, c) → R b [note b a] c

namespace Chronicle

variable {R : Bench → List Invocation → Bench → Prop}

theorem reply (ch : Chronicle R) (b : Bench) (slot : Nat) (a : Action) :
    R b [] (b.reply slot a).2 := by
  unfold Bench.reply
  split
  · exact ch.refl b
  · exact ch.trans (ch.setReactor ..) (ch.report ..)
  · exact ch.setReactor ..
  · exact ch.setReactor ..

section Invoke

variable {invoke : Invoke} {note : Bench → Action → Invocation}
  (hi : invoke.Tells note R)

include hi

theorem run (ch : Chronicle R) {s : Script} {b c : Bench} {outcome : Outcome}
    (h : s.run invoke b = some (outcome, c)) : R b (s.invocations invoke note b) c := by
  fun_induction Script.run invoke s b with
  | case1 b outcome =>
    cases h
    exact ch.refl _
  | case2 b action next hn => cases h
  | case3 b action next result d hd ih =>
    simp only [Script.invocations, hd]
    exact ch.trans (hi _ _ _ _ hd) (ih h)
  | case4 label reactor placement next b ih => exact ch.trans (ch.install ..) (ih h)
  | case5 label next b ih => exact ch.trans (ch.remove b label) (ih h)
  | case6 b next ih => exact ih h

theorem consult (ch : Chronicle R) {a : Action} {slots : List Nat} {b c : Bench}
    {claim : Option (Except Error Response)} (h : b.consult invoke a slots = some (claim, c)) :
    R b (b.hearing invoke note a slots).2 c ∧
      Invocation.claimAmong (b.hearing invoke note a slots).1 = claim := by
  induction slots generalizing b with
  | nil =>
    cases h
    exact ⟨ch.refl _, rfl⟩
  | cons slot rest ih =>
    simp only [Bench.consult] at h
    simp only [Bench.hearing]
    split at h
    next hh =>
      rw [if_pos hh]
      cases hd : b.react invoke slot a with
      | none =>
        simp only [hd] at h
        cases h
      | some r =>
        obtain ⟨outcome, d⟩ := r
        have hstep : R b ((b.reply slot a).1.invocations invoke note (b.reply slot a).2) d :=
          ch.trans (ch.reply b slot a) (ch.run hi ((Bench.react_eq_reply ..).symm.trans hd))
        simp only [hd] at h
        split at h
        next result hr =>
          cases h
          simp [hr, hstep, Invocation.claimAmong]
        next hr =>
          obtain ⟨hrest, hclaim⟩ := ih h
          simp only [hr, Option.isSome_none, Bool.false_eq_true, if_false]
          exact ⟨ch.trans hstep hrest, by simpa [Invocation.claimAmong, hr] using hclaim⟩
    next hh =>
      rw [if_neg hh]
      exact ih h

end Invoke

theorem invoke (ch : Chronicle R) (depth : Nat) :
    Invoke.Tells (Bench.invoke depth) (Bench.invocation depth) R := by
  induction depth with
  | zero =>
    intro b a result c h
    cases h
  | succ depth ih =>
    intro b a result c h
    have hanswer : (b.invocation (depth + 1) a).answer = some result := by
      simp only [Bench.invocation, h, Option.map_some]
    simp only [Bench.invoke] at h
    split at h
    · cases h
    next claimed d hd =>
      cases h
      have hc := ch.consult ih hd
      exact ch.claimed hc.1 hc.2 hanswer
    next d hd =>
      have hc := ch.consult ih hd
      obtain ⟨hresult, rfl⟩ := Prod.mk.inj (Option.some.inj h)
      exact ch.served hc.1 hc.2 (hanswer.trans (congrArg some hresult.symm))

end Chronicle

end ControllerBench
