import ControllerBench.Bench.Dispatch

namespace ControllerBench

structure Frame (R : Bench → Bench → Prop) : Prop where
  refl (b : Bench) : R b b
  trans {b c d : Bench} : R b c → R c d → R b d
  record (b : Bench) (a : Action) : R b (b.record a)
  setReactor (b : Bench) (slot : Nat) (r : Reactor Script) : R b (b.setReactor slot r)
  report (b : Bench) (fs : List Failure) : R b (b.report fs)
  install (b : Bench) (label : String) (r : Option (Reactor Script)) (p : Placement) :
    R b (b.install label r p)
  remove (b : Bench) (label : String) : R b (b.remove label).2
  apply (b : Bench) (a : Action) : R b (b.apply a).2

def Invoke.Keeps (invoke : Invoke) (R : Bench → Bench → Prop) : Prop :=
  ∀ b a result b', invoke b a = some (result, b') → R b b'

namespace Frame

variable {R : Bench → Bench → Prop}

section Invoke

variable {invoke : Invoke} (hi : invoke.Keeps R)

include hi

theorem run (frame : Frame R) {s : Script} {b b' : Bench} {outcome : Outcome}
    (h : s.run invoke b = some (outcome, b')) : R b b' := by
  fun_induction Script.run invoke s b with
  | case1 b outcome =>
    cases h
    exact frame.refl _
  | case2 b action next hn => cases h
  | case3 b action next result c hc ih => exact frame.trans (hi _ _ _ _ hc) (ih h)
  | case4 label reactor placement next b ih =>
    exact frame.trans (frame.install b label reactor placement) (ih h)
  | case5 label next b ih => exact frame.trans (frame.remove b label) (ih h)
  | case6 b next ih => exact ih h

theorem react (frame : Frame R) {b b' : Bench} {slot : Nat} {a : Action} {outcome : Outcome}
    (h : b.react invoke slot a = some (outcome, b')) : R b b' := by
  unfold Bench.react at h
  split at h
  · cases h
    exact frame.refl _
  · cases h
    exact frame.trans (frame.setReactor ..) (frame.report ..)
  · cases h
    exact frame.setReactor ..
  · split at h
    · cases h
      exact frame.setReactor ..
    · exact frame.trans (frame.setReactor ..) (frame.run hi h)

theorem consult (frame : Frame R) {a : Action} {slots : List Nat} {b b' : Bench}
    {claim : Option (Except Error Response)}
    (h : b.consult invoke a slots = some (claim, b')) : R b b' := by
  induction slots generalizing b with
  | nil =>
    cases h
    exact frame.refl _
  | cons slot rest ih =>
    simp only [Bench.consult] at h
    split at h
    · split at h
      · cases h
      next outcome c hc =>
        have hbc : R b c := frame.react hi hc
        split at h
        · cases h
          exact hbc
        · exact frame.trans hbc (ih h)
    · exact ih h

end Invoke

theorem invoke (frame : Frame R) (depth : Nat) : Invoke.Keeps (Bench.invoke depth) R := by
  induction depth with
  | zero =>
    intro b a result b' h
    cases h
  | succ depth ih =>
    intro b a result b' h
    simp only [Bench.invoke] at h
    have hr := frame.record b a
    split at h
    · cases h
    next claim c hc =>
      cases h
      exact frame.trans hr (frame.consult ih hc)
    next c hc =>
      obtain rfl : (c.apply a).2 = b' := congrArg Prod.snd (Option.some.inj h)
      exact frame.trans hr (frame.trans (frame.consult ih hc) (frame.apply c a))

end Frame

namespace Bench

def Extends (b b' : Bench) : Prop := b.events.toList <+: b'.events.toList

theorem extends_of_eq {b b' : Bench} (h : b'.events = b.events) : b.Extends b' := by
  simp only [Extends, h, List.prefix_refl]

structure SameStore (b c : Bench) : Prop where
  tracker : c.tracker = b.tracker
  log : c.log = b.log
  events : c.events = b.events

theorem SameStore.trans {b c d : Bench} (h : SameStore b c) (h' : SameStore c d) : SameStore b d :=
  ⟨h'.tracker.trans h.tracker, h'.log.trans h.log, h'.events.trans h.events⟩

/-- Whatever has become of the reactors, their labels and the chain, all else is as it was. -/
structure Rewires (b c : Bench) : Prop extends SameStore b c where
  reporter : c.reporter = b.reporter
  failures : c.failures = b.failures

theorem Rewires.refl (b : Bench) : b.Rewires b := ⟨⟨rfl, rfl, rfl⟩, rfl, rfl⟩

theorem Rewires.trans {b c d : Bench} (h : b.Rewires c) (h' : c.Rewires d) : b.Rewires d where
  toSameStore := h.toSameStore.trans h'.toSameStore
  reporter := h'.reporter.trans h.reporter
  failures := h'.failures.trans h.failures

theorem rewires_inject (b : Bench) (slot : Nat) (r : Reporter) : b.Rewires (b.inject slot r) := by
  unfold inject
  split <;> exact ⟨⟨rfl, rfl, rfl⟩, rfl, rfl⟩

theorem rewires_place (b : Bench) (label : String) (slot : Nat) (p : Placement) :
    b.Rewires (b.place label slot p) := by
  unfold place
  split
  next scope _ =>
    have hi := rewires_inject b slot (b.reporter.within scope)
    split <;> exact hi.trans ⟨⟨rfl, rfl, rfl⟩, rfl, rfl⟩
  · split <;> exact ⟨⟨rfl, rfl, rfl⟩, rfl, rfl⟩

theorem rewires_install (b : Bench) (label : String) (r : Option (Reactor Script)) (p : Placement) :
    b.Rewires (b.install label r p) := by
  unfold install
  split
  next r =>
    exact Rewires.trans (c := b.keep r) ⟨⟨rfl, rfl, rfl⟩, rfl, rfl⟩ (rewires_place ..)
  · split
    · exact rewires_place ..
    · exact .refl b

theorem rewires_remove (b : Bench) (label : String) : b.Rewires (b.remove label).2 := by
  unfold remove
  split <;> exact ⟨⟨rfl, rfl, rfl⟩, rfl, rfl⟩

theorem remove_reactors (b : Bench) (label : String) : (b.remove label).2.reactors = b.reactors := by
  unfold remove
  split <;> rfl

theorem extends_publish (b : Bench) (a : Action) : b.Extends (b.publish a) := by
  unfold publish
  split
  next e _ => simp [Extends]
  · exact List.prefix_refl _

theorem extends_apply (b : Bench) (a : Action) : b.Extends (b.apply a).2 := by
  unfold apply
  split
  · exact List.prefix_refl _
  next response tracker _ => exact extends_publish { b with tracker } a

theorem extends_frame : Frame Extends where
  refl _ := List.prefix_refl _
  trans := List.IsPrefix.trans
  record _ _ := extends_of_eq rfl
  setReactor _ _ _ := extends_of_eq rfl
  report _ _ := extends_of_eq rfl
  install b label r p := extends_of_eq (rewires_install b label r p).events
  remove b label := extends_of_eq (rewires_remove b label).events
  apply := extends_apply

end Bench

theorem Script.run_extends {depth : Nat} {s : Script} {b b' : Bench} {outcome : Outcome}
    (h : s.run (Bench.invoke depth) b = some (outcome, b')) : b.Extends b' :=
  Bench.extends_frame.run (Bench.extends_frame.invoke depth) h

end ControllerBench
