import Mathlib.Data.List.Forall2
import ControllerBench.Proofs.Observation.Acceptance

namespace ControllerBench

namespace Leaf

def assign : List Leaf → Action → List Leaf
  | [], _ => []
  | l :: rest, a => if !l.fired && l.accepts a then l.fire :: rest else l :: assign rest a

def assignAll (leaves : List Leaf) (as : List Action) : List Leaf := as.foldl assign leaves

/-- Of two leaves with an action in common the earlier one accepts nothing that the later one does not. -/
def Nested (l later : Leaf) : Prop :=
  (∃ a, l.accepts a = true ∧ later.accepts a = true) → ∀ a, l.accepts a = true → later.accepts a = true

variable {l later : Leaf} {leaves rest : List Leaf} {a b : Action} {as bs : List Action}

theorem assign_taken (hn : l.fired = false) (ha : l.accepts a = true) (rest : List Leaf) :
    assign (l :: rest) a = l.fire :: rest := by
  simp [assign, hn, ha]

theorem assign_passed (h : l.fired = true ∨ l.accepts a = false) (rest : List Leaf) :
    assign (l :: rest) a = l :: assign rest a := by
  rcases h with h | h <;> simp [assign, h]

theorem assign_cases (l : Leaf) (rest : List Leaf) (a : Action) :
    (l.fired = false ∧ l.accepts a = true ∧ assign (l :: rest) a = l.fire :: rest) ∨
      ((l.fired = true ∨ l.accepts a = false) ∧ assign (l :: rest) a = l :: assign rest a) := by
  cases hn : l.fired with
  | true => exact .inr ⟨.inl rfl, assign_passed (.inl hn) rest⟩
  | false =>
    cases ha : l.accepts a with
    | false => exact .inr ⟨.inr rfl, assign_passed (.inr ha) rest⟩
    | true => exact .inl ⟨rfl, rfl, assign_taken hn ha rest⟩

theorem assignAll_append (leaves : List Leaf) (as bs : List Action) :
    assignAll leaves (as ++ bs) = assignAll (assignAll leaves as) bs := List.foldl_append

theorem assignAll_fired (h : l.fired = true) (rest : List Leaf) (as : List Action) :
    assignAll (l :: rest) as = l :: assignAll rest as := by
  induction as generalizing rest with
  | nil => rfl
  | cons a as ih =>
    rw [assignAll, List.foldl_cons, assign_passed (.inl h)]
    exact ih (assign rest a)

theorem assign_length (leaves : List Leaf) (a : Action) :
    (assign leaves a).length = leaves.length := by
  induction leaves with
  | nil => rfl
  | cons l rest ih =>
    rcases assign_cases l rest a with ⟨-, -, he⟩ | ⟨-, he⟩
    · rw [he]
      rfl
    · rw [he, List.length_cons, ih, List.length_cons]

theorem assignAll_length (leaves : List Leaf) (as : List Action) :
    (assignAll leaves as).length = leaves.length := by
  induction as generalizing leaves with
  | nil => rfl
  | cons a as ih => exact (ih (assign leaves a)).trans (assign_length leaves a)

theorem mem_assign_idle (hl : l.accepts a = false) (hm : l ∈ leaves) : l ∈ assign leaves a := by
  induction leaves with
  | nil => exact hm
  | cons l' rest ih =>
    rcases assign_cases l' rest a with ⟨-, ha, he⟩ | ⟨-, he⟩
    · rw [he]
      rcases List.mem_cons.1 hm with rfl | hm
      · rw [hl] at ha
        cases ha
      · exact .tail _ hm
    · rw [he]
      rcases List.mem_cons.1 hm with rfl | hm
      · exact .head _
      · exact .tail _ (ih hm)

theorem mem_assign (h : l ∈ assign leaves a) : ∃ l' ∈ leaves, l = l' ∨ l = l'.fire := by
  induction leaves with
  | nil => cases h
  | cons l' rest ih =>
    rcases assign_cases l' rest a with ⟨-, -, he⟩ | ⟨-, he⟩
    · rw [he] at h
      rcases List.mem_cons.1 h with rfl | h
      · exact ⟨l', .head _, .inr rfl⟩
      · exact ⟨l, .tail _ h, .inl rfl⟩
    · rw [he] at h
      rcases List.mem_cons.1 h with rfl | h
      · exact ⟨l, .head _, .inl rfl⟩
      · obtain ⟨l'', hm, hl⟩ := ih h
        exact ⟨l'', .tail _ hm, hl⟩

end Leaf

namespace Verifier

variable {a : Action}

theorem reactArmed_leaves (leaves : List Leaf) :
    (reactArmed a (leaves.map leaf)).1 = (Leaf.assign leaves a).map leaf := by
  induction leaves with
  | nil => rfl
  | cons l rest ih =>
    have hreact (hn : l.fired = false) (hh : l.filter.handles a = true) :
        ((leaf l).react a).1 = leaf (if l.accepts a then l.fire else l) :=
      congrArg leaf (Leaf.react_unfired hn hh)
    rw [List.map_cons]
    rcases reactArmed_cons (a := a) (leaf l) (rest.map leaf) with
      ⟨hoff, he⟩ | ⟨hn, hh, hf, he⟩ | ⟨hn, hh, hf, he⟩
    · have hpassed : l.fired = true ∨ l.accepts a = false := by
        refine hoff.imp_right fun hh => ?_
        have hfilter : l.filter.handles a = false := hh
        simp [Leaf.accepts, hfilter]
      rw [he, ih, Leaf.assign_passed hpassed, List.map_cons]
    · rw [hreact hn hh] at hf he
      have ha : l.accepts a = true := by
        by_contra ha
        rw [if_neg ha] at hf
        exact Bool.false_ne_true (hn.symm.trans hf)
      rw [he, if_pos ha, Leaf.assign_taken hn ha, List.map_cons]
    · rw [hreact hn hh] at hf he
      have ha : l.accepts a = false := by
        rw [Bool.eq_false_iff]
        intro ha
        rw [if_pos ha] at hf
        cases hf
      rw [he, ha, ih, Leaf.assign_passed (.inr ha), List.map_cons]
      rfl

theorem assign_of_unarmed {leaves : List Leaf} (h : armedHandles a (leaves.map leaf) = false) :
    Leaf.assign leaves a = leaves := by
  induction leaves with
  | nil => rfl
  | cons l rest ih =>
    simp only [List.map_cons, armedHandles, Bool.or_eq_false_iff, Bool.and_eq_false_iff] at h
    have hpassed : l.fired = true ∨ l.accepts a = false := by
      refine h.1.imp (fun hf => by simpa [fired] using hf) fun hh => ?_
      have hfilter : l.filter.handles a = false := hh
      simp [Leaf.accepts, hfilter]
    rw [Leaf.assign_passed hpassed, ih h.2]

theorem allOf_offer (leaves : List Leaf) (a : Action) :
    ((allOf (leaves.map leaf) (leaves.all (·.fired))).offer a).1 =
      allOf ((Leaf.assign leaves a).map leaf) ((Leaf.assign leaves a).all (·.fired)) := by
  rw [offer]
  split
  next hh =>
    obtain ⟨s, hs, hn, -⟩ := armedHandles_iff.1 hh
    obtain ⟨l, hl, rfl⟩ := List.mem_map.1 hs
    have hflag : leaves.all (·.fired) = false := by
      rw [List.all_eq_false]
      exact ⟨l, hl, by simpa [fired] using hn⟩
    simp only [react, reactArmed_leaves, hflag, Bool.false_or, List.all_map]
    rfl
  next hh => rw [assign_of_unarmed (by simpa [handles] using hh)]

theorem observe_allOf (leaves : List Leaf) (as : List Action) :
    (allOf (leaves.map leaf) (leaves.all (·.fired))).observe as =
      allOf ((Leaf.assignAll leaves as).map leaf) ((Leaf.assignAll leaves as).all (·.fired)) := by
  induction as generalizing leaves with
  | nil => rfl
  | cons a as ih =>
    rw [observe, List.foldl_cons, allOf_offer]
    exact ih (Leaf.assign leaves a)

theorem observe_all {leaves : List Leaf} (h : ∀ l ∈ leaves, l.fired = false) (as : List Action) :
    (all (leaves.map leaf)).observe as =
      allOf ((Leaf.assignAll leaves as).map leaf) ((Leaf.assignAll leaves as).all (·.fired)) := by
  have hflag : (leaves.map leaf).isEmpty = leaves.all (·.fired) := by
    cases leaves with
    | nil => rfl
    | cons l rest => simp [h l (.head _)]
  rw [all, hflag]
  exact observe_allOf leaves as

end Verifier

namespace Leaf

variable {l later : Leaf} {leaves rest : List Leaf} {a b : Action} {as bs : List Action}

theorem Nested.accepts_iff (h : l.Nested later) (ha : l.accepts a = true) (hb : l.accepts b = true) :
    later.accepts a = true ↔ later.accepts b = true :=
  ⟨fun hl => h ⟨a, ha, hl⟩ b hb, fun hl => h ⟨b, hb, hl⟩ a ha⟩

theorem assign_congr (h : ∀ l ∈ leaves, (l.accepts a = true ↔ l.accepts b = true)) :
    assign leaves a = assign leaves b := by
  induction leaves with
  | nil => rfl
  | cons l rest ih =>
    obtain ⟨hl, hrest⟩ := List.forall_mem_cons.1 h
    rw [assign, assign, Bool.eq_iff_iff.2 hl, ih hrest]

theorem assign_comm (h : leaves.Pairwise Nested) (a b : Action) :
    assign (assign leaves a) b = assign (assign leaves b) a := by
  induction leaves with
  | nil => rfl
  | cons l rest ih =>
    obtain ⟨hl, hrest⟩ := List.pairwise_cons.1 h
    have hfired (c : Action) : assign (l.fire :: rest) c = l.fire :: assign rest c :=
      assign_passed (.inl rfl) rest
    rcases assign_cases l rest a with ⟨hn, ha, hea⟩ | ⟨hpa, hea⟩ <;>
      rcases assign_cases l rest b with ⟨hn', hb, heb⟩ | ⟨hpb, heb⟩
    · -- what the leaf did not get goes to the same later one, whichever of the two it was
      have hsame : assign rest b = assign rest a :=
        assign_congr fun later hm => (hl later hm).accepts_iff hb ha
      rw [hea, heb, hfired, hfired, hsame]
    · rw [hea, heb, hfired, assign_taken hn ha]
    · rw [hea, heb, hfired, assign_taken hn' hb]
    · rw [hea, heb, assign_passed hpb, assign_passed hpa, ih hrest]

theorem pairwise_assign (h : leaves.Pairwise Nested) (a : Action) :
    (assign leaves a).Pairwise Nested := by
  induction leaves with
  | nil => exact .nil
  | cons l rest ih =>
    obtain ⟨hl, hrest⟩ := List.pairwise_cons.1 h
    rcases assign_cases l rest a with ⟨-, -, he⟩ | ⟨-, he⟩
    · rw [he]
      exact .cons hl hrest
    · rw [he]
      refine .cons (fun later hm => ?_) (ih hrest)
      obtain ⟨later', hm', rfl | rfl⟩ := mem_assign hm
      · exact hl _ hm'
      · exact hl later' hm'

theorem assignAll_perm (h : leaves.Pairwise Nested) (hp : as.Perm bs) :
    assignAll leaves as = assignAll leaves bs := by
  induction hp generalizing leaves with
  | nil => rfl
  | cons a _ ih => exact ih (pairwise_assign h a)
  | swap a b as =>
    simp only [assignAll, List.foldl_cons]
    rw [assign_comm h b a]
  | trans _ _ ih ih' => exact (ih h).trans (ih' h)

/-- The leaves have not fired, and each accepts the action at its own place. -/
def Fits (leaves : List Leaf) (as : List Action) : Prop :=
  leaves.Forall₂ (fun l a => l.fired = false ∧ l.accepts a = true) as

theorem Fits.append {more : List Leaf} (h : Fits leaves as) (h' : Fits more bs) :
    Fits (leaves ++ more) (as ++ bs) := List.rel_append h h'

theorem fits_map {f : Leaf → Action} (hn : ∀ l ∈ leaves, l.fired = false)
    (hf : ∀ l ∈ leaves, l.accepts (f l) = true) : Fits leaves (leaves.map f) := by
  rw [Fits, List.forall₂_map_right_iff, List.forall₂_same]
  exact fun l hl => ⟨hn l hl, hf l hl⟩

theorem Fits.assignAll (h : Fits leaves as) (rest : List Leaf) (bs : List Action) :
    assignAll (leaves ++ rest) (as ++ bs) = leaves.map fire ++ Leaf.assignAll rest bs := by
  induction h with
  | nil => rfl
  | @cons l a leaves as hl _ ih =>
    have hfirst : Leaf.assignAll (l :: leaves ++ rest) (a :: as ++ bs) =
        Leaf.assignAll (l.fire :: (leaves ++ rest)) (as ++ bs) :=
      congrArg (List.foldl assign · (as ++ bs)) (assign_taken hl.1 hl.2 (leaves ++ rest))
    rw [hfirst, assignAll_fired rfl, ih]
    rfl

theorem Fits.all_fired (h : Fits leaves as) : (Leaf.assignAll leaves as).all (·.fired) = true := by
  have hall := h.assignAll [] []
  rw [List.append_nil, List.append_nil] at hall
  rw [hall]
  simp [Leaf.assignAll, fire]

theorem countP_fired_assign (leaves : List Leaf) (a : Action) :
    (assign leaves a).countP (·.fired) ≤ leaves.countP (·.fired) + 1 := by
  induction leaves with
  | nil => exact Nat.zero_le _
  | cons l rest ih =>
    rcases assign_cases l rest a with ⟨hn, -, he⟩ | ⟨-, he⟩
    · simp [he, hn, fire]
    · rw [he, List.countP_cons, List.countP_cons]
      omega

theorem countP_fired_assignAll (leaves : List Leaf) (as : List Action) :
    (assignAll leaves as).countP (·.fired) ≤ leaves.countP (·.fired) + as.length := by
  induction as generalizing leaves with
  | nil => exact Nat.le_refl _
  | cons a as ih =>
    have hstep := countP_fired_assign leaves a
    have hrest := ih (assign leaves a)
    rw [assignAll] at hrest
    rw [assignAll, List.foldl_cons, List.length_cons]
    omega

def isOpen (a : Action) (l : Leaf) : Bool := !l.fired && l.accepts a

theorem assign_of_none_open (h : leaves.countP (isOpen a) = 0) : assign leaves a = leaves := by
  induction leaves with
  | nil => rfl
  | cons l rest ih =>
    rw [List.countP_cons] at h
    have hl : isOpen a l = false := by
      by_contra hl
      simp [hl] at h
    have hrest : rest.countP (isOpen a) = 0 := by omega
    rw [assign, show (!l.fired && l.accepts a) = false from hl, ih hrest]
    rfl

theorem countP_open_assign (leaves : List Leaf) (a : Action) :
    (assign leaves a).countP (isOpen a) = leaves.countP (isOpen a) - 1 := by
  induction leaves with
  | nil => rfl
  | cons l rest ih =>
    rcases assign_cases l rest a with ⟨hn, ha, he⟩ | ⟨hp, he⟩
    · simp [he, isOpen, hn, ha, fire]
    · have hl : isOpen a l = false := by rcases hp with hp | hp <;> simp [isOpen, hp]
      simp [he, hl, ih]

theorem countP_open_replicate (leaves : List Leaf) (a : Action) (n : Nat) :
    (assignAll leaves (List.replicate n a)).countP (isOpen a) = leaves.countP (isOpen a) - n := by
  induction n generalizing leaves with
  | zero => rfl
  | succ n ih =>
    have hrest := ih (assign leaves a)
    rw [countP_open_assign] at hrest
    change (assignAll (assign leaves a) (List.replicate n a)).countP (isOpen a) = _
    omega

/-- One action too many of a kind is lost, so these actions fire one leaf less than there are actions. -/
theorem countP_fired_overfull (leaves : List Leaf) (a : Action) (as : List Action) :
    (assignAll leaves (List.replicate (leaves.countP (isOpen a) + 1) a ++ as)).countP (·.fired) ≤
      leaves.countP (·.fired) + leaves.countP (isOpen a) + as.length := by
  have hnone : (assignAll leaves (List.replicate (leaves.countP (isOpen a)) a)).countP (isOpen a) = 0 := by
    rw [countP_open_replicate, Nat.sub_self]
  have hlost := assign_of_none_open hnone
  have hfilled := countP_fired_assignAll leaves (List.replicate (leaves.countP (isOpen a)) a)
  rw [List.length_replicate] at hfilled
  rw [List.replicate_succ', assignAll_append, assignAll_append]
  change (assignAll (assign _ a) as).countP (·.fired) ≤ _
  rw [hlost]
  exact Nat.le_trans (countP_fired_assignAll _ as) (Nat.add_le_add_right hfilled _)

theorem not_all_fired {mid post : List Leaf} {y : Action} (hfits : Fits mid as)
    (hlater : later.fired = false) (hy : later.accepts y = false) (hn : ∀ l ∈ post, l.fired = false)
    (hlen : post.countP (·.accepts y) + bs.length = post.length) :
    (assignAll (mid ++ later :: post)
      (as ++ (List.replicate (post.countP (·.accepts y) + 1) y ++ bs))).all (·.fired) = false := by
  have hopen : (later :: post).countP (isOpen y) = post.countP (·.accepts y) := by
    rw [List.countP_cons_of_neg (by simp [isOpen, hy])]
    exact List.countP_congr fun l hl => by simp [isOpen, hn l hl]
  have hnone : (later :: post).countP (·.fired) = 0 := by
    rw [List.countP_eq_zero]
    simpa [hlater] using hn
  have hfew := countP_fired_overfull (later :: post) y bs
  rw [hopen, hnone] at hfew
  rw [hfits.assignAll, Bool.eq_false_iff]
  intro hall
  rw [List.all_append, Bool.and_eq_true] at hall
  have hevery : (assignAll (later :: post) _).countP (·.fired) = _ :=
    List.countP_eq_length.2 (List.all_eq_true.1 hall.2)
  rw [assignAll_length, List.length_cons] at hevery
  omega

/-- Whether all have fired depends on which actions there are, not on their order. -/
def Steady (leaves : List Leaf) : Prop :=
  ∀ as bs, as.Perm bs → ((assignAll leaves as).all (·.fired) = true ↔
    (assignAll leaves bs).all (·.fired) = true)

theorem Steady.tail (h : Steady (l :: rest)) (hn : l.fired = false) (ha : l.accepts a = true) :
    Steady rest := by
  intro as bs hp
  have hfirst (cs : List Action) : assignAll (l :: rest) (a :: cs) = l.fire :: assignAll rest cs :=
    Fits.assignAll (.cons ⟨hn, ha⟩ .nil) rest cs
  have hboth := h (a :: as) (a :: bs) (hp.cons a)
  rw [hfirst, hfirst] at hboth
  simpa [fire] using hboth

theorem map_perm_replicate (p : Leaf → Bool) (f : Leaf → Action) (a : Action) (leaves : List Leaf) :
    (leaves.map fun l => if p l then a else f l).Perm
      (List.replicate (leaves.countP p) a ++ (leaves.filter fun l => !p l).map f) := by
  induction leaves with
  | nil => exact .nil
  | cons l rest ih =>
    cases hp : p l with
    | true => simpa [hp, List.replicate_succ] using ih
    | false =>
      simp only [List.map_cons, hp, List.countP_cons, List.filter_cons]
      exact (ih.cons (f l)).trans List.perm_middle.symm

theorem exchange_perm (x y : Action) (zs : List Action) (h : as.Perm bs) :
    (y :: (zs ++ x :: as)).Perm (x :: (zs ++ y :: bs)) :=
  calc
    y :: (zs ++ x :: as) |>.Perm (y :: x :: (zs ++ as)) := List.perm_middle.cons y
    List.Perm _ (x :: y :: (zs ++ as)) := .swap x y _
    List.Perm _ (x :: y :: (zs ++ bs)) := ((h.append_left zs).cons y).cons x
    List.Perm _ (x :: (zs ++ y :: bs)) := List.perm_middle.symm.cons x

theorem Steady.nested_head (h : Steady (l :: rest)) (hn : ∀ l' ∈ l :: rest, l'.fired = false)
    (hsome : ∀ l' ∈ l :: rest, ∃ a, l'.accepts a = true) (hm : later ∈ rest) : l.Nested later := by
  rintro ⟨x, hx, hx'⟩ y hy
  by_contra hy'
  rw [Bool.not_eq_true] at hy'
  obtain ⟨mid, post, rfl⟩ := List.append_of_mem hm
  choose! f hf using hsome
  simp only [List.forall_mem_cons, List.forall_mem_append] at hn hf
  obtain ⟨hl, hnmid, hlater, hnpost⟩ := hn
  obtain ⟨-, hfmid, -, hfpost⟩ := hf
  have hmid := fits_map hnmid hfmid
  have hpost : Fits post (post.map fun l' => if l'.accepts y then y else f l') :=
    fits_map hnpost fun l' hl' => by
      split
      · assumption
      · exact hfpost l' hl'
  -- in the order of the leaves every leaf gets an action of its own
  have hfires : Fits (l :: (mid ++ later :: post)) (y :: (mid.map f ++ x :: _)) :=
    .cons ⟨hl, hy⟩ (hmid.append (.cons ⟨hlater, hx'⟩ hpost))
  -- with `x` and `y` exchanged there is one `y` too many for the leaves after the first
  have hlen : post.countP (·.accepts y) + ((post.filter fun l => !l.accepts y).map f).length =
      post.length := by
    have hsplit := post.length_eq_countP_add_countP (·.accepts y)
    simpa [← List.countP_eq_length_filter] using hsplit.symm
  have hfails := not_all_fired (.cons ⟨hl, hx⟩ hmid) hlater hy' hnpost hlen
  have hsame := h _ _ (exchange_perm x y (mid.map f) (map_perm_replicate (·.accepts y) f y post))
  exact Bool.false_ne_true (hfails.symm.trans (hsame.1 hfires.all_fired))

theorem Steady.pairwise_nested (h : Steady leaves) (hn : ∀ l ∈ leaves, l.fired = false)
    (hsome : ∀ l ∈ leaves, ∃ a, l.accepts a = true) : leaves.Pairwise Nested := by
  induction leaves with
  | nil => exact .nil
  | cons l rest ih =>
    obtain ⟨hl, hrest⟩ := List.forall_mem_cons.1 hn
    obtain ⟨⟨a, ha⟩, hsome'⟩ := List.forall_mem_cons.1 hsome
    exact .cons (fun later hm => h.nested_head hn hsome hm) (ih (h.tail hl ha) hrest hsome')

theorem steady_of_idle (hl : ∃ l ∈ leaves, l.fired = false ∧ ∀ a, l.accepts a = false) : Steady leaves := by
  have hnever (cs : List Action) : (assignAll leaves cs).all (·.fired) = false := by
    induction cs generalizing leaves with
    | nil =>
      obtain ⟨l, hm, hn, -⟩ := hl
      exact List.all_eq_false.2 ⟨l, hm, by simp [hn]⟩
    | cons c cs ih =>
      obtain ⟨l, hm, hn, hidle⟩ := hl
      exact ih ⟨l, mem_assign_idle (hidle c) hm, hn, hidle⟩
  intro as bs _
  rw [hnever as, hnever bs]

end Leaf

namespace Verifier

theorem any_order_iff_nested {leaves : List Leaf} (h : ∀ l ∈ leaves, l.fired = false) :
    (∀ as bs, as.Perm bs → (((all (leaves.map leaf)).observe as).fired = true ↔
        ((all (leaves.map leaf)).observe bs).fired = true)) ↔
      (∃ l ∈ leaves, ∀ a, l.accepts a = false) ∨ leaves.Pairwise Leaf.Nested := by
  simp only [observe_all h]
  change Leaf.Steady leaves ↔ _
  constructor
  · intro hsteady
    by_cases hidle : ∃ l ∈ leaves, ∀ a, l.accepts a = false
    · exact .inl hidle
    · refine .inr (hsteady.pairwise_nested h fun l hl => ?_)
      by_contra hnone
      exact hidle ⟨l, hl, fun a => by simpa using fun ha => hnone ⟨a, ha⟩⟩
  · rintro (⟨l, hl, hidle⟩ | hnested)
    · exact Leaf.steady_of_idle ⟨l, hl, h l hl, hidle⟩
    · intro as bs hp
      rw [Leaf.assignAll_perm hnested hp]

theorem particular_step_first_takes_any_order :
    (∀ l ∈ ([{ filter := .ofVerb "get" }, { filter := .any }] : List Leaf), l.fired = false) ∧
      ∀ as bs, as.Perm bs →
        (((all [seen (.ofVerb "get"), seen .any]).observe as).fired = true ↔
          ((all [seen (.ofVerb "get"), seen .any]).observe bs).fired = true) := by
  have hfresh : ∀ l ∈ ([{ filter := .ofVerb "get" }, { filter := .any }] : List Leaf),
      l.fired = false := by simp
  refine ⟨hfresh, (any_order_iff_nested hfresh).2 (.inr (.cons ?_ (List.pairwise_singleton ..)))⟩
  intro later hm
  obtain rfl := List.mem_singleton.1 hm
  exact fun _ a _ => by simp [Leaf.accepts, Leaf.verdict, Filter.any_handles]

theorem general_step_first_takes_one_order :
    ∃ as bs, as.Perm bs ∧ ((all [seen .any, seen (.ofVerb "get")]).observe as).fired = true ∧
      ((all [seen .any, seen (.ofVerb "get")]).observe bs).fired = false :=
  ⟨[removal, glance], [glance, removal], .swap .., by decide +kernel, by decide +kernel⟩

end Verifier

end ControllerBench
