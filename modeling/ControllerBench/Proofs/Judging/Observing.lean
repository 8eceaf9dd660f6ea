import ControllerBench.Proofs.Dispatch.Conduct
import ControllerBench.Proofs.Dispatch.Sequential
import ControllerBench.Proofs.Observation.Tree

namespace ControllerBench

theorem Verifier.observe_append (v : Verifier) (as bs : List Action) :
    v.observe (as ++ bs) = (v.observe as).observe bs := List.foldl_append

namespace Assertion

def observe : Assertion → List Action → Assertion
  | capture filter expectation seen, as =>
    capture filter expectation (seen ++ (as.filter filter.handles).toArray)
  | inOrder filters seen, as =>
    inOrder filters (seen ++ (as.filter fun a => filters.any (·.handles a)).toArray)

theorem observe_nil (w : Assertion) : w.observe [] = w := by
  cases w <;> simp [observe]

theorem observe_handled {w : Assertion} {as : List Action} {a : Action}
    (h : (w.observe as).handles a = true) : w.observe (as ++ [a]) = (w.observe as).react a := by
  cases w with
  | capture filter expectation seen =>
    have hf : filter.handles a = true := h
    simp [observe, react, hf]
  | inOrder filters seen =>
    have hf : (filters.any fun f => f.handles a) = true := h
    simp only [observe, react, List.filter_append, List.filter_cons, hf]
    simp

theorem observe_ignored {w : Assertion} {as : List Action} {a : Action}
    (h : (w.observe as).handles a = false) : w.observe (as ++ [a]) = w.observe as := by
  cases w with
  | capture filter expectation seen =>
    have hf : filter.handles a = false := h
    simp [observe, hf]
  | inOrder filters seen =>
    have hf : (filters.any fun f => f.handles a) = false := h
    simp only [observe, List.filter_append, List.filter_cons, hf]
    simp

end Assertion

/-- What an observer has become by the actions offered to it. -/
inductive Reactor.Sees (as : List Action) : Reactor Script → Reactor Script → Prop
  | verifier {v waited waited'} : Sees as (.verifier v waited) (.verifier (v.observe as) waited')
  | assertion {w} : Sees as (.assertion w) (.assertion (w.observe as))

theorem Reactor.Sees.ignore {x y : Reactor Script} {as : List Action} {a : Action}
    (h : x.Sees as y) (ha : y.handles a = false) : x.Sees (as ++ [a]) y := by
  cases h with
  | @verifier v _ waited =>
    have hv : (v.observe as).handles a = false := ha
    have hsame : v.observe (as ++ [a]) = v.observe as := by
      rw [Verifier.observe_append, Verifier.observe, List.foldl_cons, Verifier.offer, hv]
      rfl
    rw [← hsame]
    exact .verifier
  | @assertion w =>
    rw [← Assertion.observe_ignored ha]
    exact .assertion

namespace Bench

/-- Nothing is changed but one reactor, the store and the failures. -/
structure AltersAt (slot : Nat) (b c : Bench) : Prop where
  chain : c.chain = b.chain
  labels : c.labels = b.labels
  issued : c.issued = b.issued
  log : c.log = b.log
  size : c.reactors.size = b.reactors.size
  others : ∀ i, i ≠ slot → c.reactors[i]? = b.reactors[i]?

theorem AltersAt.refl (slot : Nat) (b : Bench) : AltersAt slot b b :=
  ⟨rfl, rfl, rfl, rfl, rfl, fun _ _ => rfl⟩

theorem altersAt_setReactor (b : Bench) (slot : Nat) (r : Reactor Script) :
    AltersAt slot b (b.setReactor slot r) where
  chain := rfl
  labels := rfl
  issued := rfl
  log := rfl
  size := Array.size_setIfInBounds
  others _ hi := Array.getElem?_setIfInBounds_ne hi.symm

theorem altersAt_inject (b : Bench) (slot : Nat) (r : Reporter) :
    AltersAt slot b (b.inject slot r) := by
  unfold inject
  split
  · exact altersAt_setReactor ..
  · exact .refl slot b

theorem place_cases (b : Bench) (name : String) (slot : Nat) (p : Placement) :
    ∃ c, AltersAt slot b c ∧ b.place name slot p =
      if p.idle then
        { c with
          labels := (name, ⟨slot, (c.labels.lookup name).bind (·.installation)⟩) :: c.labels }
      else
        { c.attach slot p.front with labels := (name, ⟨slot, some c.issued⟩) :: c.labels } := by
  unfold place
  split
  next scope _ => exact ⟨_, altersAt_inject b slot (b.reporter.within scope), rfl⟩
  · exact ⟨b, .refl slot b, rfl⟩

theorem altersAt_reply (b : Bench) (slot : Nat) (a : Action) :
    AltersAt slot b (b.reply slot a).2 := by
  unfold reply
  split
  · exact .refl slot b
  · exact ⟨rfl, rfl, rfl, rfl, Array.size_setIfInBounds,
      (altersAt_setReactor b slot _).others⟩
  · exact altersAt_setReactor ..
  · exact altersAt_setReactor ..

theorem apply_frame (b : Bench) (a : Action) :
    (b.apply a).2.reactors = b.reactors ∧ (b.apply a).2.failures = b.failures ∧
      (b.apply a).2.chain = b.chain ∧ (b.apply a).2.labels = b.labels ∧
      (b.apply a).2.issued = b.issued := by
  unfold apply
  split
  · exact ⟨rfl, rfl, rfl, rfl, rfl⟩
  · unfold publish
    split <;> exact ⟨rfl, rfl, rfl, rfl, rfl⟩

theorem altersAt_apply (b : Bench) (slot : Nat) (a : Action) : AltersAt slot b (b.apply a).2 := by
  obtain ⟨hreactors, -, hchain, hlabels, hissued⟩ := apply_frame b a
  exact ⟨hchain, hlabels, hissued, apply_log b a, by rw [hreactors], fun _ _ => by rw [hreactors]⟩

theorem reply_observer {b : Bench} {slot : Nat} {x y : Reactor Script} {as : List Action}
    {a : Action} (hy : b.reactors[slot]? = some y) (hs : x.Sees as y)
    (ha : b.handles slot a = true) :
    (b.reply slot a).1 = .done .pass ∧
      ∃ z, (b.reply slot a).2.reactors[slot]? = some z ∧ x.Sees (as ++ [a]) z := by
  have hslot : slot < b.reactors.size := (Array.getElem?_eq_some_iff.1 hy).1
  simp only [handles, hy] at ha
  cases hs with
  | @verifier v _ waited =>
    have hv : (v.observe as).handles a = true := ha
    have hnext : v.observe (as ++ [a]) = ((v.observe as).react a).1 := by
      rw [Verifier.observe_append, Verifier.observe, List.foldl_cons, Verifier.offer, hv]
      rfl
    refine ⟨by simp only [reply, hy], .verifier (v.observe (as ++ [a])) waited, ?_, .verifier⟩
    simp only [reply, hy, hnext]
    simp [report, setReactor, hslot]
  | @assertion w =>
    refine ⟨by simp only [reply, hy], .assertion (w.observe (as ++ [a])), ?_, .assertion⟩
    simp only [reply, hy, Assertion.observe_handled ha]
    simp [setReactor, hslot]

structure Orderly (b : Bench) : Prop where
  chain : ∀ x ∈ b.chain, x.slot < b.reactors.size
  slots : ∀ p ∈ b.labels, p.2.slot < b.reactors.size
  ids : ∀ p ∈ b.labels, ∀ id, p.2.installation = some id → id < b.issued

/--
Observers installed one after the other on the bench `o`, among `n` reactors in all; `seen` tells what each
of them was offered.
-/
structure Observing (o : Bench) (observers : List (Reactor Script)) (n : Nat)
    (seen : Nat → List Action) (b : Bench) : Prop where
  orderly : b.Orderly
  count : observers.length ≤ n
  observers : ∀ k x, observers[k]? = some x →
    ∃ y, b.reactors[o.reactors.size + k]? = some y ∧ x.Sees (seen k) y
  slots : ∀ p ∈ b.labels, p.2.slot < o.reactors.size ∨ o.reactors.size + n ≤ p.2.slot
  ids : ∀ p ∈ b.labels, ∀ id, p.2.installation = some id → id < o.issued ∨ o.issued + n ≤ id
  chain : ∀ x ∈ b.chain, o.reactors.size ≤ x.slot → x.slot < o.reactors.size + n →
    o.issued ≤ x.id ∧ x.id < o.issued + n
  size : o.reactors.size + n ≤ b.reactors.size
  issued : o.issued + n ≤ b.issued

theorem mem_attach {b : Bench} {slot : Nat} {front : Bool} {x : Installation} :
    x ∈ (b.attach slot front).chain ↔ x = ⟨b.issued, slot⟩ ∨ x ∈ b.chain := by
  cases front <;> simp [attach, or_comm]

theorem mem_of_lookup {name : String} {l : Label} {labels : List (String × Label)}
    (h : labels.lookup name = some l) : (name, l) ∈ labels := by
  obtain ⟨before, after, rfl, -⟩ := List.lookup_eq_some_iff.1 h
  simp

namespace Observing

variable {o : Bench} {observers : List (Reactor Script)} {n : Nat} {seen : Nat → List Action}
  {b c : Bench}

theorem altered {slot : Nat} {now : Nat → List Action} (h : Observing o observers n seen b)
    (hc : AltersAt slot b c) (hothers : ∀ k, o.reactors.size + k ≠ slot → now k = seen k)
    (hslot : ∀ k x, o.reactors.size + k = slot → observers[k]? = some x →
      ∃ y, c.reactors[slot]? = some y ∧ x.Sees (now k) y) :
    Observing o observers n now c where
  orderly :=
    ⟨by simpa only [hc.chain, hc.size] using h.orderly.chain,
      by simpa only [hc.labels, hc.size] using h.orderly.slots,
      by simpa only [hc.labels, hc.issued] using h.orderly.ids⟩
  count := h.count
  observers k x hx := by
    by_cases hk : o.reactors.size + k = slot
    · rw [hk]
      exact hslot k x hk hx
    · rw [hc.others _ hk, hothers k hk]
      exact h.observers k x hx
  slots := by simpa only [hc.labels] using h.slots
  ids := by simpa only [hc.labels] using h.ids
  chain := by simpa only [hc.chain] using h.chain
  size := by simpa only [hc.size] using h.size
  issued := by simpa only [hc.issued] using h.issued

theorem beside {slot : Nat} (h : Observing o observers n seen b) (hc : AltersAt slot b c)
    (hslot : slot < o.reactors.size ∨ o.reactors.size + observers.length ≤ slot) :
    Observing o observers n seen c := by
  refine h.altered hc (fun _ _ => rfl) fun k x hk hx => ?_
  have hlt : k < observers.length := (List.getElem?_eq_some_iff.1 hx).1
  omega

def hear (o : Bench) (slot : Nat) (a : Action) (seen : Nat → List Action) : Nat → List Action :=
  fun k => if o.reactors.size + k = slot then seen k ++ [a] else seen k

theorem reply {slot : Nat} {a : Action} (h : Observing o observers n seen b)
    (ha : b.handles slot a = true) :
    Observing o observers n (hear o slot a seen) (b.reply slot a).2 := by
  refine h.altered (altersAt_reply b slot a) (fun k hk => if_neg hk) fun k x hk hx => ?_
  obtain ⟨y, hy, hs⟩ := h.observers k x hx
  rw [hk] at hy
  rw [hear, if_pos hk]
  exact (reply_observer hy hs ha).2

theorem apply (h : Observing o observers n seen b) (a : Action) :
    Observing o observers n seen (b.apply a).2 := by
  refine h.altered (altersAt_apply b 0 a) (fun _ _ => rfl) fun k x hk hx => ?_
  rw [(apply_frame b a).1, ← hk]
  exact h.observers k x hx

theorem wait {slot : Nat} {v : Verifier} {waited : Bool} (h : Observing o observers n seen b)
    (hv : b.reactors[slot]? = some (.verifier v waited)) :
    Observing o observers n seen (b.setReactor slot (.verifier v true)) := by
  refine h.altered (altersAt_setReactor ..) (fun _ _ => rfl) fun k x hk hx => ?_
  obtain ⟨y, hy, hs⟩ := h.observers k x hx
  rw [hk] at hy
  obtain rfl := Option.some.inj (hv.symm.trans hy)
  have hslot : slot < b.reactors.size := (Array.getElem?_eq_some_iff.1 hv).1
  refine ⟨.verifier v true, by simp [setReactor, hslot], ?_⟩
  cases hs
  exact .verifier

theorem report (h : Observing o observers n seen b) (fs : List Failure) :
    Observing o observers n seen (b.report fs) :=
  ⟨⟨h.orderly.chain, h.orderly.slots, h.orderly.ids⟩, h.count, h.observers, h.slots, h.ids, h.chain,
    h.size, h.issued⟩

theorem record (h : Observing o observers n seen b) (a : Action) :
    Observing o observers n seen (b.record a) :=
  ⟨⟨h.orderly.chain, h.orderly.slots, h.orderly.ids⟩, h.count, h.observers, h.slots, h.ids, h.chain,
    h.size, h.issued⟩

theorem keep (h : Observing o observers n seen b) (r : Reactor Script) :
    Observing o observers n seen (b.keep r) where
  orderly := by
    have hsize : (b.keep r).reactors.size = b.reactors.size + 1 := Array.size_push ..
    refine ⟨fun x hx => ?_, fun p hp => ?_, h.orderly.ids⟩
    · have := h.orderly.chain x hx
      omega
    · have := h.orderly.slots p hp
      omega
  count := h.count
  observers k x hx := by
    obtain ⟨y, hy, hs⟩ := h.observers k x hx
    have hlt : o.reactors.size + k < b.reactors.size := (Array.getElem?_eq_some_iff.1 hy).1
    rw [Array.getElem?_eq_getElem hlt] at hy
    exact ⟨y, (Array.getElem?_push_lt hlt).trans hy, hs⟩
  slots := h.slots
  ids := h.ids
  chain := h.chain
  size := by
    have hsize : (b.keep r).reactors.size = b.reactors.size + 1 := Array.size_push ..
    have := h.size
    omega
  issued := h.issued

theorem remove (h : Observing o observers n seen b) (label : String) :
    Observing o observers n seen (b.remove label).2 := by
  unfold Bench.remove
  split
  next id _ =>
    have hsub : b.chain.filter (·.id != id) ⊆ b.chain := List.filter_sublist.subset
    exact ⟨⟨fun x hx => h.orderly.chain x (hsub hx), h.orderly.slots, h.orderly.ids⟩, h.count,
      h.observers, h.slots, h.ids, fun x hx => h.chain x (hsub hx), h.size, h.issued⟩
  · exact h

theorem label (h : Observing o observers n seen b) (name : String) {l : Label}
    (hslot : l.slot < b.reactors.size)
    (hown : l.slot < o.reactors.size ∨ o.reactors.size + n ≤ l.slot)
    (hid : ∀ id, l.installation = some id →
      (id < o.issued ∨ o.issued + n ≤ id) ∧ id < b.issued) :
    Observing o observers n seen { b with labels := (name, l) :: b.labels } where
  orderly :=
    ⟨h.orderly.chain, List.forall_mem_cons.2 ⟨hslot, h.orderly.slots⟩,
      List.forall_mem_cons.2 ⟨fun id he => (hid id he).2, h.orderly.ids⟩⟩
  count := h.count
  observers := h.observers
  slots := List.forall_mem_cons.2 ⟨hown, h.slots⟩
  ids := List.forall_mem_cons.2 ⟨fun id he => (hid id he).1, h.ids⟩
  chain := h.chain
  size := h.size
  issued := h.issued

theorem attach (h : Observing o observers n seen b) {slot : Nat} (front : Bool)
    (hslot : slot < b.reactors.size)
    (hown : slot < o.reactors.size ∨ o.reactors.size + n ≤ slot) :
    Observing o observers n seen (b.attach slot front) where
  orderly := by
    refine ⟨fun x hx => ?_, h.orderly.slots, fun p hp id hi => ?_⟩
    · rcases mem_attach.1 hx with rfl | hx
      · exact hslot
      · exact h.orderly.chain x hx
    · exact Nat.lt_succ_of_lt (h.orderly.ids p hp id hi)
  count := h.count
  observers := h.observers
  slots := h.slots
  ids := h.ids
  chain x hx := by
    rcases mem_attach.1 hx with rfl | hx
    · intro _ _
      simp only at *
      omega
    · exact h.chain x hx
  size := h.size
  issued := Nat.le_succ_of_le h.issued

theorem installed {name : String} {l : Label} (h : Observing o observers n seen b)
    (hl : b.labels.lookup name = some l) :
    l.slot < b.reactors.size ∧ (l.slot < o.reactors.size ∨ o.reactors.size + n ≤ l.slot) ∧
      ∀ id, l.installation = some id → (id < o.issued ∨ o.issued + n ≤ id) ∧ id < b.issued := by
  have hm := mem_of_lookup hl
  exact ⟨h.orderly.slots _ hm, h.slots _ hm, fun id hi =>
    ⟨h.ids _ hm id hi, h.orderly.ids _ hm id hi⟩⟩

theorem place (h : Observing o observers n seen b) (name : String)
    {slot : Nat} (p : Placement) (hslot : slot < b.reactors.size)
    (hown : slot < o.reactors.size ∨ o.reactors.size + n ≤ slot) :
    Observing o observers n seen (b.place name slot p) := by
  obtain ⟨c, hc, hplace⟩ := b.place_cases name slot p
  have hcount := h.count
  have hd : Observing o observers n seen c := h.beside hc (by omega)
  have hs : slot < c.reactors.size := by
    rw [hc.size]
    exact hslot
  rw [hplace]
  split
  · refine hd.label name hs hown fun id hi => ?_
    obtain ⟨l, hl, hli⟩ := Option.bind_eq_some_iff.1 hi
    exact (hd.installed hl).2.2 id hli
  · refine (hd.attach p.front hs hown).label name hs hown fun id hi => ?_
    obtain rfl := Option.some.inj hi
    exact ⟨.inr hd.issued, Nat.lt_succ_self _⟩

theorem install (h : Observing o observers n seen b) (name : String)
    (reactor : Option (Reactor Script)) (p : Placement) :
    Observing o observers n seen (b.install name reactor p) := by
  unfold Bench.install
  split
  next r =>
    have hsize : (b.keep r).reactors.size = b.reactors.size + 1 := Array.size_push ..
    exact (h.keep r).place name p (by omega) (.inr h.size)
  · split
    next l hl =>
      obtain ⟨hslot, hown, -⟩ := h.installed hl
      exact h.place name p hslot hown
    · exact h

end Observing

end Bench

end ControllerBench
