import ControllerBench.Proofs.Dispatch.Shadow
import ControllerBench.Proofs.Judging.Observing

namespace ControllerBench

def Override.offer (o : Override Script) (n : Nat) : Override Script :=
  { o with offered := o.offered + n }

def Override.reply (o : Override Script) (a : Action) : Script :=
  if o.exhausted then .done .pass else o.reaction o.offered a

namespace Override

variable (o : Override Script)

@[simp]
theorem offer_offered (n : Nat) : (o.offer n).offered = o.offered + n := rfl

@[simp]
theorem offer_reaction (n : Nat) : (o.offer n).reaction = o.reaction := rfl

@[simp]
theorem offer_filter (n : Nat) : (o.offer n).filter = o.filter := rfl

theorem offer_zero : o.offer 0 = o := rfl

theorem offer_offer (n k : Nat) : (o.offer n).offer k = o.offer (n + k) := by
  simp only [offer, Nat.add_assoc]

end Override

namespace Bench

def override? (b : Bench) (slot : Nat) : Option (Override Script) :=
  b.reactors[slot]?.bind Reactor.override?

variable {b c : Bench} {slot : Nat}

theorem override_eq {o : Override Script} (h : b.override? slot = some o) :
    b.reactors[slot]? = some (.override o) := by
  obtain ⟨r, hr, ho⟩ := Option.bind_eq_some_iff.1 h
  cases r with
  | verifier | assertion => cases ho
  | override x =>
    cases ho
    exact hr

theorem override_lt {o : Override Script} (h : b.override? slot = some o) :
    slot < b.reactors.size :=
  (Array.getElem?_eq_some_iff.1 (override_eq h)).1

theorem override_congr (h : c.reactors[slot]? = b.reactors[slot]?) :
    c.override? slot = b.override? slot := by
  rw [override?, override?, h]

theorem override_setReactor (h : slot < b.reactors.size) (r : Reactor Script) :
    (b.setReactor slot r).override? slot = r.override? := by
  simp only [override?, setReactor, Array.getElem?_setIfInBounds_self_of_lt h, Option.bind_some]

theorem reply_script (b : Bench) (slot : Nat) (a : Action) :
    (b.reply slot a).1 = (b.override? slot).elim (.done .pass) fun o => o.reply a := by
  cases hr : b.reactors[slot]? with
  | none => simp only [reply, override?, hr, Option.bind_none, Option.elim_none]
  | some r =>
    cases r <;>
      simp only [reply, override?, hr, Option.bind_some, Reactor.override?, Option.elim_none,
        Option.elim_some, Override.reply]

theorem override_reply (b : Bench) (slot : Nat) (a : Action) :
    (b.reply slot a).2.override? slot = (b.override? slot).map (·.offer 1) := by
  cases hr : b.reactors[slot]? with
  | none => simp only [reply, override?, hr, Option.bind_none, Option.map_none]
  | some r =>
    have hslot : slot < b.reactors.size := (Array.getElem?_eq_some_iff.1 hr).1
    have hwas : b.override? slot = r.override? := by simp only [override?, hr, Option.bind_some]
    rw [hwas]
    cases r with
    | verifier v waited =>
      simp only [reply, hr]
      exact override_setReactor hslot _
    | assertion w =>
      simp only [reply, hr]
      exact override_setReactor hslot _
    | override o =>
      simp only [reply, hr]
      exact override_setReactor hslot _

theorem override_reply_of_ne {i : Nat} (h : slot ≠ i) (b : Bench) (a : Action) :
    (b.reply i a).2.override? slot = b.override? slot :=
  override_congr ((altersAt_reply b i a).others slot h)

theorem override_inject (b : Bench) (i : Nat) (r : Reporter) :
    (b.inject i r).override? slot = b.override? slot := by
  by_cases hslot : slot = i
  · obtain rfl := hslot
    unfold inject
    split
    next v waited hv =>
      rw [override_setReactor (Array.getElem?_eq_some_iff.1 hv).1, override?, hv]
      rfl
    · rfl
  · exact override_congr ((altersAt_inject b i r).others slot hslot)

theorem override_place (b : Bench) (label : String) (i : Nat) (p : Placement) :
    (b.place label i p).override? slot = b.override? slot := by
  unfold place
  split
  next scope _ =>
    have hi : (b.inject i (b.reporter.within scope)).override? slot = b.override? slot :=
      override_inject ..
    split <;> exact hi
  · split <;> rfl

theorem override_install {o : Override Script} (h : b.override? slot = some o) (label : String)
    (reactor : Option (Reactor Script)) (p : Placement) :
    (b.install label reactor p).override? slot = some o := by
  unfold install
  split
  next r =>
    have hlt := override_lt h
    have hkeep : (b.keep r).override? slot = b.override? slot :=
      override_congr ((Array.getElem?_push_lt hlt).trans (Array.getElem?_eq_getElem hlt).symm)
    rw [override_place, hkeep, h]
  · split
    · rw [override_place, h]
    · exact h

end Bench

end ControllerBench
