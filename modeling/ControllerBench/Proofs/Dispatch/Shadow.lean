import ControllerBench.Proofs.Dispatch.Sequential
import Mathlib.Data.List.ReduceOption

namespace ControllerBench

namespace Reactor

variable {S : Type}

def override? : Reactor S → Option (Override S)
  | override o => some o
  | verifier .. | assertion _ => none

def reacted? (r : Reactor S) : Option Nat := r.override?.map (·.reacted)

end Reactor

/--
The second script does what the first does; under labels of `L` it also installs observers and takes them out
again, at any moment and in its reactions too.
-/
inductive Script.Watched (L : String → Prop) : Script → Script → Prop
  | done {outcome} : Watched L (.done outcome) (.done outcome)
  | invoke {action next next'} :
      (∀ result, Watched L (next result) (next' result)) →
      Watched L (.invoke action next) (.invoke action next')
  | install {label reactor placement next next'} :
      ¬ L label → reactor.bind (·.override?) = none → Watched L next next' →
      Watched L (.install label reactor placement next) (.install label reactor placement next')
  | override {label o reaction placement next next'} :
      ¬ L label → (∀ n a, Watched L (o.reaction n a) (reaction n a)) → Watched L next next' →
      Watched L (.install label (some (.override o)) placement next)
        (.install label (some (.override { o with reaction })) placement next')
  | remove {label next next'} :
      ¬ L label → (∀ was, Watched L (next was) (next' was)) →
      Watched L (.remove label next) (.remove label next')
  | pause {next next'} : Watched L next next' → Watched L (.pause next) (.pause next')
  | observe {label reactor placement s next'} :
      L label → reactor.bind (·.override?) = none → Watched L s next' →
      Watched L s (.install label reactor placement next')
  | dismiss {label s next'} :
      L label → (∀ was, Watched L s (next' was)) → Watched L s (.remove label next')

inductive Reactor.Watched (L : String → Prop) : Reactor Script → Reactor Script → Prop
  | observer {r} : r.override? = none → Watched L r r
  | override {o reaction} :
      (∀ n a, (o.reaction n a).Watched L (reaction n a)) →
      Watched L (.override o) (.override { o with reaction })

theorem Reactor.Watched.reacted? {L : String → Prop} {r r' : Reactor Script} (h : r.Watched L r') :
    r'.reacted? = r.reacted? := by
  cases h <;> rfl

/-- For each place of the second run the place it is in the first, if it is there at all. -/
abbrev Places := List (Option Nat)

namespace Places

variable {ps qs : Places} {i j k n : Nat}

theorem getElem?_of_prefix {x : Option Nat} (h : ps <+: qs) (hj : ps[j]? = some x) :
    qs[j]? = some x := by
  obtain ⟨more, rfl⟩ := h
  rw [List.getElem?_append_left (List.getElem?_eq_some_iff.1 hj).1, hj]

theorem getElem?_next {x : Option Nat} (h : ps.length = n) : (ps ++ [x])[n]? = some x := by
  rw [← h]
  exact List.getElem?_concat_length

theorem eq_of_nodup (h : ps.reduceOption.Nodup) (hj : ps[j]? = some (some i))
    (hk : ps[k]? = some (some i)) : j = k := by
  induction ps generalizing j k with
  | nil => cases hj
  | cons p rest ih =>
    have hfresh {l : Nat} (hp : p = some i) (hl : rest[l]? = some (some i)) : False := by
      rw [hp, List.reduceOption_cons_of_some] at h
      exact (List.nodup_cons.1 h).1 (List.reduceOption_mem_iff.2 (List.mem_of_getElem? hl))
    have hrest : (List.reduceOption rest).Nodup := by
      cases p with
      | none => exact h
      | some m => exact (List.nodup_cons.1 h).2
    cases j with
    | zero =>
      cases k with
      | zero => rfl
      | succ k => exact (hfresh (Option.some.inj hj) hk).elim
    | succ j =>
      cases k with
      | zero => exact (hfresh (Option.some.inj hk) hj).elim
      | succ k => exact congrArg Nat.succ (ih hrest hj hk)

theorem eq_of_shared (h : ps.reduceOption = List.range n) (hj : ps[j]? = some (some i))
    (hk : ps[k]? = some (some i)) : j = k :=
  eq_of_nodup (h ▸ List.nodup_range) hj hk

theorem own_ne (hj : ps[j]? = some none) (hk : ps[k]? = some (some i)) : j ≠ k := by
  rintro rfl
  cases hj.symm.trans hk

theorem shared_concat (h : ps.reduceOption = List.range n) :
    (ps ++ [some n]).reduceOption = List.range (n + 1) := by
  rw [List.reduceOption_append, h, List.range_succ]
  rfl

theorem own_concat (h : ps.reduceOption = List.range n) :
    (ps ++ [none]).reduceOption = List.range n := by
  rw [List.reduceOption_append, h]
  exact List.append_nil _

end Places

variable {L : String → Prop}

/-- What stands at a place of the second run: a reactor of the first as it is there, or an observer. -/
inductive Counterpart (L : String → Prop) (rs : Array (Reactor Script)) :
    Option Nat → Reactor Script → Prop
  | shared {i : Nat} {r r' : Reactor Script} :
      rs[i]? = some r → r.Watched L r' → Counterpart L rs (some i) r'
  | own {r' : Reactor Script} : r'.override? = none → Counterpart L rs none r'

theorem Counterpart.mono {rs qs : Array (Reactor Script)} {p : Option Nat} {r' : Reactor Script}
    (h : Counterpart L rs p r') (hmono : ∀ (i : Nat) r, rs[i]? = some r → qs[i]? = some r) :
    Counterpart L qs p r' := by
  cases h with
  | shared hr hw => exact .shared (hmono _ _ hr) hw
  | own hr => exact .own hr

/-- The reactors of two runs: those they share stand in the same order. -/
structure Seated (L : String → Prop) (ps : Places) (rs rs' : Array (Reactor Script)) : Prop where
  order : ps.reduceOption = List.range rs.size
  size : ps.length = rs'.size
  each : ∀ {j : Nat} {p}, ps[j]? = some p → ∃ r', rs'[j]? = some r' ∧ Counterpart L rs p r'

namespace Seated

variable {ps : Places} {rs rs' : Array (Reactor Script)} {r r' : Reactor Script} {i j : Nat}

theorem push {qs : Array (Reactor Script)} {p : Option Nat} (h : Seated L ps rs rs')
    (hmono : ∀ (i : Nat) r, rs[i]? = some r → qs[i]? = some r)
    (horder : (ps ++ [p]).reduceOption = List.range qs.size) (hp : Counterpart L qs p r') :
    Seated L (ps ++ [p]) qs (rs'.push r') where
  order := horder
  size := by simp [h.size]
  each {j q} hj := by
    rw [List.getElem?_append] at hj
    rw [Array.getElem?_push]
    split at hj
    next hlt =>
      obtain ⟨x, hx, hc⟩ := h.each hj
      rw [if_neg (Nat.ne_of_lt (h.size ▸ hlt))]
      exact ⟨x, hx, hc.mono hmono⟩
    next hge =>
      have hzero : j = ps.length := by
        have := (List.getElem?_eq_some_iff.1 hj).1
        simp only [List.length_singleton] at this
        omega
      subst hzero
      rw [Nat.sub_self] at hj
      cases hj
      exact ⟨r', if_pos h.size, hp⟩

theorem push_shared (h : Seated L ps rs rs') (hr : r.Watched L r') :
    Seated L (ps ++ [some rs.size]) (rs.push r) (rs'.push r') := by
  refine h.push ?_ ?_ (.shared Array.getElem?_push_size hr)
  · intro i x hx
    rw [Array.getElem?_push, if_neg (Nat.ne_of_lt (Array.getElem?_eq_some_iff.1 hx).1), hx]
  · rw [Array.size_push]
    exact Places.shared_concat h.order

theorem push_own (h : Seated L ps rs rs') (hr : r'.override? = none) :
    Seated L (ps ++ [none]) rs (rs'.push r') :=
  h.push (fun _ _ hx => hx) (Places.own_concat h.order) (.own hr)

theorem set_shared (h : Seated L ps rs rs') (hj : ps[j]? = some (some i)) (hr : r.Watched L r') :
    Seated L ps (rs.setIfInBounds i r) (rs'.setIfInBounds j r') where
  order := by
    rw [Array.size_setIfInBounds]
    exact h.order
  size := h.size.trans Array.size_setIfInBounds.symm
  each {k p} hk := by
    obtain ⟨x, hx, hc⟩ := h.each hk
    by_cases hjk : j = k
    · subst hjk
      cases hj.symm.trans hk
      cases hc with
      | shared hi hw =>
        exact ⟨r', Array.getElem?_setIfInBounds_self_of_lt (Array.getElem?_eq_some_iff.1 hx).1,
          .shared (Array.getElem?_setIfInBounds_self_of_lt (Array.getElem?_eq_some_iff.1 hi).1) hr⟩
    · refine ⟨x, (Array.getElem?_setIfInBounds_ne hjk).trans hx, ?_⟩
      cases hc with
      | own hn => exact .own hn
      | @shared i' y _ hy hw =>
        have hne : i ≠ i' := by
          rintro rfl
          exact hjk (Places.eq_of_shared h.order hj hk)
        exact .shared ((Array.getElem?_setIfInBounds_ne hne).trans hy) hw

theorem set_own (h : Seated L ps rs rs') (hj : ps[j]? = some none) (hr : r'.override? = none) :
    Seated L ps rs (rs'.setIfInBounds j r') where
  order := h.order
  size := h.size.trans Array.size_setIfInBounds.symm
  each {k p} hk := by
    obtain ⟨x, hx, hc⟩ := h.each hk
    by_cases hjk : j = k
    · subst hjk
      cases hj.symm.trans hk
      exact ⟨r', Array.getElem?_setIfInBounds_self_of_lt (Array.getElem?_eq_some_iff.1 hx).1, .own hr⟩
    · exact ⟨x, (Array.getElem?_setIfInBounds_ne hjk).trans hx, hc⟩

theorem reacted (h : Seated L ps rs rs') :
    rs'.toList.filterMap Reactor.reacted? = rs.toList.filterMap Reactor.reacted? := by
  let count (i : Nat) : Option Nat := rs[i]?.bind Reactor.reacted?
  have heach : rs'.toList.map Reactor.reacted? = ps.map (·.bind count) := by
    apply List.ext_getElem?
    intro j
    rw [List.getElem?_map, List.getElem?_map, Array.getElem?_toList]
    cases hj : ps[j]? with
    | none =>
      rw [Array.getElem?_eq_none (h.size ▸ List.getElem?_eq_none_iff.1 hj)]
      rfl
    | some p =>
      obtain ⟨r', hr', hc⟩ := h.each hj
      rw [hr']
      cases hc with
      | shared hr hw => simp [count, hr, hw.reacted?]
      | own hn => simp [Reactor.reacted?, hn]
  have hall : rs.toList.map Reactor.reacted? = (List.range rs.size).map count := by
    apply List.ext_getElem
    · simp
    · intro i hi _
      simp only [List.length_map, Array.length_toList] at hi
      simp [count, hi]
  calc rs'.toList.filterMap Reactor.reacted?
      = (rs'.toList.map Reactor.reacted?).filterMap id := by rw [List.filterMap_map]; rfl
    _ = ps.reduceOption.filterMap count := by
      rw [heach, List.filterMap_map, List.reduceOption, List.filterMap_filterMap]
      rfl
    _ = (rs.toList.map Reactor.reacted?).filterMap id := by
      rw [h.order, hall, List.filterMap_map]
      rfl
    _ = rs.toList.filterMap Reactor.reacted? := by rw [List.filterMap_map]; rfl

end Seated

/-- The second chain is the first with installations of its own among the shared ones. -/
inductive Entwined (slots ids : Places) : List Installation → List Installation → Prop
  | nil : Entwined slots ids [] []
  | shared {x x' rest rest'} :
      slots[x'.slot]? = some (some x.slot) → ids[x'.id]? = some (some x.id) →
      Entwined slots ids rest rest' → Entwined slots ids (x :: rest) (x' :: rest')
  | own {x' rest rest'} :
      slots[x'.slot]? = some none → ids[x'.id]? = some none →
      Entwined slots ids rest rest' → Entwined slots ids rest (x' :: rest')

namespace Entwined

variable {slots ids : Places} {xs xs' ys ys' : List Installation} {k k' n : Nat}

theorem mono {slots₂ ids₂ : Places} (h : Entwined slots ids xs xs') (hs : slots <+: slots₂)
    (hi : ids <+: ids₂) : Entwined slots₂ ids₂ xs xs' := by
  induction h with
  | nil => exact .nil
  | shared hslot hid _ ih =>
    exact .shared (Places.getElem?_of_prefix hs hslot) (Places.getElem?_of_prefix hi hid) ih
  | own hslot hid _ ih =>
    exact .own (Places.getElem?_of_prefix hs hslot) (Places.getElem?_of_prefix hi hid) ih

theorem append (h : Entwined slots ids xs xs') (h' : Entwined slots ids ys ys') :
    Entwined slots ids (xs ++ ys) (xs' ++ ys') := by
  induction h with
  | nil => exact h'
  | shared hslot hid _ ih => exact .shared hslot hid ih
  | own hslot hid _ ih => exact .own hslot hid ih

theorem id_iff {x x' : Installation} (hn : ids.reduceOption = List.range n)
    (hx : ids[x'.id]? = some (some x.id)) (hk : ids[k']? = some (some k)) :
    x.id = k ↔ x'.id = k' := by
  constructor
  · rintro rfl
    exact Places.eq_of_shared hn hx hk
  · rintro rfl
    cases hx.symm.trans hk
    rfl

theorem any_eq (h : Entwined slots ids xs xs') (hn : ids.reduceOption = List.range n)
    (hk : ids[k']? = some (some k)) : xs.any (·.id == k) = xs'.any (·.id == k') := by
  induction h with
  | nil => rfl
  | shared _ hid _ ih =>
    simp only [List.any_cons, ih]
    congr 1
    exact Bool.eq_iff_iff.2 (by simpa using id_iff hn hid hk)
  | own _ hid _ ih => simp [ih, Places.own_ne hid hk]

theorem filter_shared (h : Entwined slots ids xs xs') (hn : ids.reduceOption = List.range n)
    (hk : ids[k']? = some (some k)) :
    Entwined slots ids (xs.filter (·.id != k)) (xs'.filter (·.id != k')) := by
  induction h with
  | nil => exact .nil
  | @shared x x' rest rest' hslot hid _ ih =>
    have hiff := id_iff hn hid hk
    by_cases hx : x.id = k
    · rw [List.filter_cons_of_neg (by simp [hx]), List.filter_cons_of_neg (by simp [hiff.1 hx])]
      exact ih
    · have hx' : x'.id ≠ k' := fun he => hx (hiff.2 he)
      rw [List.filter_cons_of_pos (by simp [hx]), List.filter_cons_of_pos (by simp [hx'])]
      exact .shared hslot hid ih
  | own hslot hid _ ih =>
    rw [List.filter_cons_of_pos (by simp [Places.own_ne hid hk])]
    exact .own hslot hid ih

theorem filter_own (h : Entwined slots ids xs xs') (hk : ids[k']? = some none) :
    Entwined slots ids xs (xs'.filter (·.id != k')) := by
  induction h with
  | nil => exact .nil
  | shared hslot hid _ ih =>
    rw [List.filter_cons_of_pos (by simp [(Places.own_ne hk hid).symm])]
    exact .shared hslot hid ih
  | @own x' rest rest' hslot hid _ ih =>
    by_cases hx' : x'.id = k'
    · rw [List.filter_cons_of_neg (by simp [hx'])]
      exact ih
    · rw [List.filter_cons_of_pos (by simp [hx'])]
      exact .own hslot hid ih

end Entwined

theorem rel_mono {α β : Type} {R S : α → β → Prop} {x : Option α} {y : Option β}
    (h : Option.Rel R x y) (hRS : ∀ a b, R a b → S a b) : Option.Rel S x y := by
  cases h with
  | none => exact .none
  | some hab => exact .some (hRS _ _ hab)

theorem rel_bind {α β γ δ : Type} {R : α → β → Prop} {S : γ → δ → Prop} {x : Option α}
    {y : Option β} {f : α → Option γ} {g : β → Option δ} (h : Option.Rel R x y)
    (hfg : ∀ a b, R a b → Option.Rel S (f a) (g b)) : Option.Rel S (x.bind f) (y.bind g) := by
  cases h with
  | none => exact .none
  | some hab => exact hfg _ _ hab

namespace Label

variable {slots ids slots₂ ids₂ : Places} {l l' : Label}

structure Shared (slots ids : Places) (l l' : Label) : Prop where
  slot : slots[l'.slot]? = some (some l.slot)
  installation : Option.Rel (fun k k' => ids[k']? = some (some k)) l.installation l'.installation

structure Own (slots ids : Places) (l' : Label) : Prop where
  slot : slots[l'.slot]? = some none
  installation : ∀ k', l'.installation = some k' → ids[k']? = some none

theorem Shared.mono (h : Shared slots ids l l') (hs : slots <+: slots₂) (hi : ids <+: ids₂) :
    Shared slots₂ ids₂ l l' :=
  ⟨Places.getElem?_of_prefix hs h.slot,
    rel_mono h.installation fun _ _ hk => Places.getElem?_of_prefix hi hk⟩

theorem Own.mono (h : Own slots ids l') (hs : slots <+: slots₂) (hi : ids <+: ids₂) :
    Own slots₂ ids₂ l' :=
  ⟨Places.getElem?_of_prefix hs h.slot,
    fun k' hk => Places.getElem?_of_prefix hi (h.installation k' hk)⟩

end Label

namespace Bench

/-- What a bench has in its chain and under its labels. -/
structure Aligned (L : String → Prop) (slots ids : Places) (b b' : Bench) : Prop where
  chain : Entwined slots ids b.chain b'.chain
  shared : ∀ label, ¬ L label →
    Option.Rel (Label.Shared slots ids) (b.labels.lookup label) (b'.labels.lookup label)
  own : ∀ label l', L label → b'.labels.lookup label = some l' → l'.Own slots ids

structure Shadows (L : String → Prop) (slots ids : Places) (b b' : Bench) : Prop where
  store : b.SameStore b'
  reporter : b'.reporter = b.reporter
  reactors : Seated L slots b.reactors b'.reactors
  order : ids.reduceOption = List.range b.issued
  count : ids.length = b'.issued
  aligned : Aligned L slots ids b b'

def ShadowsFrom (L : String → Prop) (slots ids : Places) (b b' : Bench) : Prop :=
  ∃ slots' ids', slots <+: slots' ∧ ids <+: ids' ∧ b.Shadows L slots' ids' b'

def hang (b : Bench) (label : String) (slot : Nat) (p : Placement) : Bench :=
  if p.idle then { b with labels := (label, ⟨slot, b.installation? label⟩) :: b.labels }
  else { b.attach slot p.front with labels := (label, ⟨slot, some b.issued⟩) :: b.labels }

theorem place_eq (b : Bench) (label : String) (slot : Nat) (p : Placement) :
    b.place label slot p =
      match p.scope with
      | some scope => (b.inject slot (b.reporter.within scope)).hang label slot p
      | none => b.hang label slot p := by
  cases hp : p.scope <;> simp only [place, hp] <;> rfl

variable {slots ids slots₂ ids₂ : Places} {b b' : Bench} {i j : Nat}

theorem Aligned.mono (h : b.Aligned L slots ids b') (hs : slots <+: slots₂) (hi : ids <+: ids₂) :
    b.Aligned L slots₂ ids₂ b' where
  chain := h.chain.mono hs hi
  shared label hl := rel_mono (h.shared label hl) fun _ _ hll => hll.mono hs hi
  own label l' hl hl' := (h.own label l' hl hl').mono hs hi

namespace Shadows

variable (h : b.Shadows L slots ids b')

include h

theorem from_here : b.ShadowsFrom L slots ids b' :=
  ⟨slots, ids, List.prefix_refl _, List.prefix_refl _, h⟩

theorem record (a : Action) : (b.record a).Shadows L slots ids (b'.record a) where
  store := ⟨h.store.tracker, congrArg (·.push a) h.store.log, h.store.events⟩
  reporter := h.reporter
  reactors := h.reactors
  order := h.order
  count := h.count
  aligned := ⟨h.aligned.chain, h.aligned.shared, h.aligned.own⟩

theorem report_left (fs : List Failure) : (b.report fs).Shadows L slots ids b' where
  store := ⟨h.store.tracker, h.store.log, h.store.events⟩
  reporter := h.reporter
  reactors := h.reactors
  order := h.order
  count := h.count
  aligned := ⟨h.aligned.chain, h.aligned.shared, h.aligned.own⟩

theorem report_right (fs : List Failure) : b.Shadows L slots ids (b'.report fs) where
  store := ⟨h.store.tracker, h.store.log, h.store.events⟩
  reporter := h.reporter
  reactors := h.reactors
  order := h.order
  count := h.count
  aligned := ⟨h.aligned.chain, h.aligned.shared, h.aligned.own⟩

theorem apply (a : Action) :
    (b.apply a).1 = (b'.apply a).1 ∧ (b.apply a).2.Shadows L slots ids (b'.apply a).2 := by
  have htracker := h.store.tracker
  unfold Bench.apply
  rw [htracker]
  cases b.tracker.apply a with
  | error e => exact ⟨rfl, h⟩
  | ok r =>
    refine ⟨rfl, ?_⟩
    unfold publish
    cases a.event? with
    | none =>
      exact ⟨⟨rfl, h.store.log, h.store.events⟩, h.reporter, h.reactors, h.order, h.count,
        ⟨h.aligned.chain, h.aligned.shared, h.aligned.own⟩⟩
    | some e =>
      exact ⟨⟨rfl, h.store.log, congrArg (·.push e) h.store.events⟩, h.reporter, h.reactors, h.order,
        h.count, ⟨h.aligned.chain, h.aligned.shared, h.aligned.own⟩⟩

section Reactors

variable {r r' : Reactor Script}

theorem keep_shared (hr : r.Watched L r') :
    (b.keep r).Shadows L (slots ++ [some b.reactors.size]) ids (b'.keep r') where
  store := ⟨h.store.tracker, h.store.log, h.store.events⟩
  reporter := h.reporter
  reactors := h.reactors.push_shared hr
  order := h.order
  count := h.count
  aligned :=
    have hm := h.aligned.mono (List.prefix_append ..) (List.prefix_refl _)
    ⟨hm.chain, hm.shared, hm.own⟩

theorem keep_own (hr : r'.override? = none) :
    b.Shadows L (slots ++ [none]) ids (b'.keep r') where
  store := ⟨h.store.tracker, h.store.log, h.store.events⟩
  reporter := h.reporter
  reactors := h.reactors.push_own hr
  order := h.order
  count := h.count
  aligned :=
    have hm := h.aligned.mono (List.prefix_append ..) (List.prefix_refl _)
    ⟨hm.chain, hm.shared, hm.own⟩

theorem set_shared (hj : slots[j]? = some (some i)) (hr : r.Watched L r') :
    (b.setReactor i r).Shadows L slots ids (b'.setReactor j r') where
  store := ⟨h.store.tracker, h.store.log, h.store.events⟩
  reporter := h.reporter
  reactors := h.reactors.set_shared hj hr
  order := h.order
  count := h.count
  aligned := ⟨h.aligned.chain, h.aligned.shared, h.aligned.own⟩

theorem set_own (hj : slots[j]? = some none) (hr : r'.override? = none) :
    b.Shadows L slots ids (b'.setReactor j r') where
  store := ⟨h.store.tracker, h.store.log, h.store.events⟩
  reporter := h.reporter
  reactors := h.reactors.set_own hj hr
  order := h.order
  count := h.count
  aligned := ⟨h.aligned.chain, h.aligned.shared, h.aligned.own⟩

theorem at_shared (hj : slots[j]? = some (some i)) :
    ∃ r r', b.reactors[i]? = some r ∧ b'.reactors[j]? = some r' ∧ r.Watched L r' := by
  obtain ⟨r', hr', hc⟩ := h.reactors.each hj
  cases hc with
  | shared hr hw => exact ⟨_, r', hr, hr', hw⟩

theorem at_own (hj : slots[j]? = some none) :
    ∃ r', b'.reactors[j]? = some r' ∧ r'.override? = none := by
  obtain ⟨r', hr', hc⟩ := h.reactors.each hj
  cases hc with
  | own hn => exact ⟨r', hr', hn⟩

theorem inject_shared (hj : slots[j]? = some (some i)) (reporter : Reporter) :
    (b.inject i reporter).Shadows L slots ids (b'.inject j reporter) := by
  obtain ⟨r, r', hr, hr', hw⟩ := h.at_shared hj
  unfold Bench.inject
  rw [hr, hr']
  cases hw with
  | override => exact h
  | observer hn =>
    cases r with
    | verifier v waited => exact h.set_shared hj (.observer rfl)
    | assertion | override => exact h

theorem inject_own (hj : slots[j]? = some none) (reporter : Reporter) :
    b.Shadows L slots ids (b'.inject j reporter) := by
  unfold Bench.inject
  split
  · exact h.set_own hj rfl
  · exact h

theorem reply_shared (hj : slots[j]? = some (some i)) (a : Action) :
    b.handles i a = b'.handles j a ∧ (b.reply i a).1.Watched L (b'.reply j a).1 ∧
      (b.reply i a).2.Shadows L slots ids (b'.reply j a).2 := by
  obtain ⟨r, r', hr, hr', hw⟩ := h.at_shared hj
  simp only [handles, reply, hr, hr']
  cases hw with
  | observer hn =>
    cases r with
    | verifier v waited =>
      exact ⟨rfl, .done, ((h.set_shared hj (.observer rfl)).report_left _).report_right _⟩
    | assertion w => exact ⟨rfl, .done, h.set_shared hj (.observer rfl)⟩
    | override o => cases hn
  | @override o reaction hreaction =>
    refine ⟨rfl, ?_, h.set_shared hj (.override hreaction)⟩
    simp only [show ({ o with reaction } : Override Script).exhausted = o.exhausted from rfl]
    split
    · exact .done
    · exact hreaction ..

theorem reply_own (hj : slots[j]? = some none) (a : Action) :
    (b'.reply j a).1 = .done .pass ∧ b.Shadows L slots ids (b'.reply j a).2 := by
  obtain ⟨r', hr', hn⟩ := h.at_own hj
  simp only [reply, hr']
  cases r' with
  | verifier v waited => exact ⟨rfl, (h.set_own hj rfl).report_right _⟩
  | assertion w => exact ⟨rfl, h.set_own hj rfl⟩
  | override o => cases hn

end Reactors

section Chain

variable {label : String} {l l' : Label}

theorem attach_shared (hj : slots[j]? = some (some i)) (front : Bool) :
    (b.attach i front).Shadows L slots (ids ++ [some b.issued]) (b'.attach j front) where
  store := ⟨h.store.tracker, h.store.log, h.store.events⟩
  reporter := h.reporter
  reactors := h.reactors
  order := Places.shared_concat h.order
  count := by simp [h.count, attach]
  aligned := by
    have hm := h.aligned.mono (List.prefix_refl slots) (List.prefix_append ids [some b.issued])
    have hid : (ids ++ [some b.issued])[b'.issued]? = some (some b.issued) :=
      Places.getElem?_next h.count
    refine ⟨?_, hm.shared, hm.own⟩
    cases front with
    | true => exact .shared hj hid hm.chain
    | false => exact hm.chain.append (.shared hj hid .nil)

theorem attach_own (hj : slots[j]? = some none) (front : Bool) :
    b.Shadows L slots (ids ++ [none]) (b'.attach j front) where
  store := ⟨h.store.tracker, h.store.log, h.store.events⟩
  reporter := h.reporter
  reactors := h.reactors
  order := Places.own_concat h.order
  count := by simp [h.count, attach]
  aligned := by
    have hm := h.aligned.mono (List.prefix_refl slots) (List.prefix_append ids [none])
    have hid : (ids ++ [none])[b'.issued]? = some none :=
      Places.getElem?_next h.count
    refine ⟨?_, hm.shared, hm.own⟩
    cases front with
    | true => exact .own hj hid hm.chain
    | false =>
      have hlast : Entwined slots (ids ++ [none]) [] [⟨b'.issued, j⟩] := .own hj hid .nil
      have hend := hm.chain.append hlast
      rwa [List.append_nil] at hend

theorem label_shared (hn : ¬ L label) (hl : l.Shared slots ids l') :
    ({ b with labels := (label, l) :: b.labels } : Bench).Shadows L slots ids
      { b' with labels := (label, l') :: b'.labels } where
  store := ⟨h.store.tracker, h.store.log, h.store.events⟩
  reporter := h.reporter
  reactors := h.reactors
  order := h.order
  count := h.count
  aligned := by
    refine ⟨h.aligned.chain, fun other ho => ?_, fun other m ho hm => ?_⟩
    · simp only [List.lookup_cons]
      split
      · exact .some hl
      · exact h.aligned.shared other ho
    · have hne : other ≠ label := fun he => hn (he ▸ ho)
      simp only [List.lookup_cons, beq_eq_false_iff_ne.2 hne] at hm
      exact h.aligned.own other m ho hm

theorem label_own (hn : L label) (hl : l'.Own slots ids) :
    b.Shadows L slots ids { b' with labels := (label, l') :: b'.labels } where
  store := ⟨h.store.tracker, h.store.log, h.store.events⟩
  reporter := h.reporter
  reactors := h.reactors
  order := h.order
  count := h.count
  aligned := by
    refine ⟨h.aligned.chain, fun other ho => ?_, fun other m ho hm => ?_⟩
    · have hne : other ≠ label := fun he => ho (he ▸ hn)
      simp only [List.lookup_cons, beq_eq_false_iff_ne.2 hne]
      exact h.aligned.shared other ho
    · simp only [List.lookup_cons] at hm
      split at hm
      · cases hm
        exact hl
      · exact h.aligned.own other m ho hm

theorem detach_shared {k k' : Nat} (hk : ids[k']? = some (some k)) :
    b.attached k = b'.attached k' ∧ (b.detach k).Shadows L slots ids (b'.detach k') := by
  refine ⟨h.aligned.chain.any_eq h.order hk, ⟨h.store.tracker, h.store.log, h.store.events⟩,
    h.reporter, h.reactors, h.order, h.count, ?_, h.aligned.shared, h.aligned.own⟩
  exact h.aligned.chain.filter_shared h.order hk

theorem detach_own {k' : Nat} (hk : ids[k']? = some none) :
    b.Shadows L slots ids (b'.detach k') where
  store := ⟨h.store.tracker, h.store.log, h.store.events⟩
  reporter := h.reporter
  reactors := h.reactors
  order := h.order
  count := h.count
  aligned := ⟨h.aligned.chain.filter_own hk, h.aligned.shared, h.aligned.own⟩

theorem installation_shared (hn : ¬ L label) :
    Option.Rel (fun k k' => ids[k']? = some (some k)) (b.installation? label)
      (b'.installation? label) :=
  rel_bind (h.aligned.shared label hn) fun _ _ hl => hl.installation

theorem installation_own (hn : L label) {k' : Nat} (hk : b'.installation? label = some k') :
    ids[k']? = some none := by
  obtain ⟨m, hm, hk⟩ := Option.bind_eq_some_iff.1 hk
  exact (h.aligned.own label m hn hm).installation k' hk

theorem remove_shared (hn : ¬ L label) :
    (b.remove label).1 = (b'.remove label).1 ∧
      (b.remove label).2.Shadows L slots ids (b'.remove label).2 := by
  have hinstallation := h.installation_shared hn
  unfold Bench.remove
  generalize b.installation? label = k, b'.installation? label = k' at hinstallation
  cases hinstallation with
  | none => exact ⟨rfl, h⟩
  | some hk => exact h.detach_shared hk

theorem remove_own (hn : L label) : b.Shadows L slots ids (b'.remove label).2 := by
  unfold Bench.remove
  split
  next k' hk => exact h.detach_own (h.installation_own hn hk)
  · exact h

end Chain

section Install

variable {label : String}

theorem hang_shared (hn : ¬ L label) (hj : slots[j]? = some (some i)) (p : Placement) :
    (b.hang label i p).ShadowsFrom L slots ids (b'.hang label j p) := by
  unfold hang
  split
  · exact (h.label_shared hn ⟨hj, h.installation_shared hn⟩).from_here
  · have hattach := h.attach_shared hj p.front
    have hid : (ids ++ [some b.issued])[b'.issued]? = some (some b.issued) :=
      Places.getElem?_next h.count
    exact ⟨slots, _, List.prefix_refl _, List.prefix_append .., hattach.label_shared hn ⟨hj, .some hid⟩⟩

theorem hang_own (hn : L label) (hj : slots[j]? = some none) (p : Placement) :
    b.ShadowsFrom L slots ids (b'.hang label j p) := by
  unfold hang
  split
  · exact (h.label_own hn ⟨hj, fun k' hk => h.installation_own hn hk⟩).from_here
  · have hattach := h.attach_own hj p.front
    have hid : (ids ++ [none])[b'.issued]? = some none :=
      Places.getElem?_next h.count
    refine ⟨slots, _, List.prefix_refl _, List.prefix_append .., hattach.label_own hn ⟨hj, ?_⟩⟩
    intro k' hk
    cases hk
    exact hid

theorem place_shared (hn : ¬ L label) (hj : slots[j]? = some (some i)) (p : Placement) :
    (b.place label i p).ShadowsFrom L slots ids (b'.place label j p) := by
  rw [place_eq, place_eq, h.reporter]
  split
  · exact (h.inject_shared hj _).hang_shared hn hj p
  · exact h.hang_shared hn hj p

theorem place_own (hn : L label) (hj : slots[j]? = some none) (p : Placement) :
    b.ShadowsFrom L slots ids (b'.place label j p) := by
  rw [place_eq]
  split
  · exact (h.inject_own hj _).hang_own hn hj p
  · exact h.hang_own hn hj p

theorem install_shared {r r' : Reactor Script} (hn : ¬ L label) (hr : r.Watched L r')
    (p : Placement) :
    (b.install label (some r) p).ShadowsFrom L slots ids (b'.install label (some r') p) := by
  have hj : (slots ++ [some b.reactors.size])[b'.reactors.size]? = some (some b.reactors.size) :=
    Places.getElem?_next h.reactors.size
  obtain ⟨slots', ids', hs, hi, hplace⟩ := (h.keep_shared hr).place_shared hn hj p
  exact ⟨slots', ids', (List.prefix_append ..).trans hs, hi, hplace⟩

theorem install_again (hn : ¬ L label) (p : Placement) :
    (b.install label none p).ShadowsFrom L slots ids (b'.install label none p) := by
  have hlabel := h.aligned.shared label hn
  simp only [Bench.install]
  generalize b.labels.lookup label = l, b'.labels.lookup label = l' at hlabel
  cases hlabel with
  | none => exact h.from_here
  | some hl => exact h.place_shared hn hl.slot p

theorem install_own {reactor : Option (Reactor Script)} (hn : L label)
    (hr : reactor.bind (·.override?) = none) (p : Placement) :
    b.ShadowsFrom L slots ids (b'.install label reactor p) := by
  unfold Bench.install
  split
  next r' =>
    have hj : (slots ++ [none])[b'.reactors.size]? = some none :=
      Places.getElem?_next h.reactors.size
    obtain ⟨slots', ids', hs, hi, hplace⟩ := (h.keep_own hr).place_own hn hj p
    exact ⟨slots', ids', (List.prefix_append ..).trans hs, hi, hplace⟩
  · split
    next l' hl => exact h.place_own hn (h.aligned.own label l' hn hl).slot p
    · exact h.from_here

end Install

end Shadows

end Bench

end ControllerBench
