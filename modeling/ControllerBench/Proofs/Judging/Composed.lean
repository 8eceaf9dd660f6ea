import ControllerBench.Proofs.Judging.Course
import ControllerBench.Proofs.Judging.Upheld
import ControllerBench.Proofs.Observation.Reporting

namespace ControllerBench

/-- Nobody but an event has a reporter to give away. -/
def Terms.unreported : Terms := fun r p =>
  p.scope = none ∧ ∀ v waited, r = some (.verifier v waited) → v.ReportsTo none

namespace Bench

def Loud (b : Bench) (slot : Nat) : Prop :=
  ∃ v waited, b.reactors[slot]? = some (.verifier v waited) ∧ ¬ v.ReportsTo none

/-- No verifier that could report is in the chain or under a label. -/
structure Rested (b : Bench) : Prop where
  orderly : b.Orderly
  chain : ∀ x ∈ b.chain, ¬ b.Loud x.slot
  labels : ∀ p ∈ b.labels, ¬ b.Loud p.2.slot

/-- What observers report, of which at most the first is a verifier. -/
def voice (observers : List (Reactor Script)) (seen : Nat → List Action) : List Failure :=
  match observers.head? with
  | some (.verifier v _) => v.complaints (seen 0)
  | _ => []

/-- Since `o` only the observers have reported anything. -/
structure Composed (o : Bench) (observers : List (Reactor Script)) (n : Nat)
    (seen : Nat → List Action) (b : Bench) : Prop where
  observing : Observing o observers n seen b
  log : o.Grows b
  heard : ∀ k, seen k ⊆ o.since b
  failures : b.failures.toList = o.failures.toList ++ voice observers seen
  hushed : ∀ slot, b.Loud slot → o.Loud slot ∨
    o.reactors.size ≤ slot ∧ slot < o.reactors.size + observers.length
  chain : ∀ x ∈ b.chain, ¬ o.Loud x.slot
  labels : ∀ p ∈ b.labels, ¬ o.Loud p.2.slot

variable {o b c : Bench} {observers : List (Reactor Script)} {n : Nat} {seen : Nat → List Action}

theorem Loud.lt {slot : Nat} (h : b.Loud slot) : slot < b.reactors.size := by
  obtain ⟨v, waited, hv, -⟩ := h
  exact (Array.getElem?_eq_some_iff.1 hv).1

theorem Loud.congr {slot : Nat} (h : b.Loud slot) (hc : c.reactors[slot]? = b.reactors[slot]?) :
    c.Loud slot := by
  obtain ⟨v, waited, hv, hl⟩ := h
  exact ⟨v, waited, hc.trans hv, hl⟩

def outcry (b : Bench) (slot : Nat) (a : Action) : List Failure :=
  match b.reactors[slot]? with
  | some (.verifier v _) => (v.react a).2
  | _ => []

theorem reply_failures (b : Bench) (slot : Nat) (a : Action) :
    (b.reply slot a).2.failures.toList = b.failures.toList ++ b.outcry slot a := by
  cases hx : b.reactors[slot]? with
  | none => simp only [reply, outcry, hx, List.append_nil]
  | some x =>
    cases x with
    | verifier v waited =>
      simp only [reply, outcry, hx]
      exact Array.toList_append
    | assertion w | override x =>
      simp only [reply, outcry, hx, List.append_nil]
      rfl

theorem Loud.of_reply {slot i : Nat} {a : Action} (h : (b.reply slot a).2.Loud i) : b.Loud i := by
  by_cases hi : i = slot
  · obtain rfl := hi
    obtain ⟨v, waited, hv, hl⟩ := h
    cases hx : b.reactors[i]? with
    | none =>
      simp only [reply, hx] at hv
      cases hv
    | some x =>
      have hlt : i < b.reactors.size := (Array.getElem?_eq_some_iff.1 hx).1
      cases x with
      | verifier u =>
        simp only [reply, hx, report, setReactor] at hv
        rw [Array.getElem?_setIfInBounds_self_of_lt hlt] at hv
        cases hv
        exact ⟨u, _, hx, fun hu => hl (hu.react a).1⟩
      | assertion | override =>
        simp only [reply, hx, setReactor] at hv
        rw [Array.getElem?_setIfInBounds_self_of_lt hlt] at hv
        cases hv
  · exact h.congr ((altersAt_reply b slot a).others i hi).symm

theorem outcry_of_not_loud {slot : Nat} {a : Action} (h : ¬ b.Loud slot) : b.outcry slot a = [] := by
  unfold outcry
  split
  next v waited hv =>
    have hr : v.ReportsTo none := Classical.not_not.1 fun hl => h ⟨v, waited, hv, hl⟩
    exact (hr.react a).2.eq_nil
  · rfl

def Lone (observers : List (Reactor Script)) : Prop :=
  ∀ k v waited, observers[k]? = some (.verifier v waited) → k = 0

namespace Composed

variable {slot : Nat} {a : Action}

theorem outcry_eq_nil (h : Composed o observers n seen b) (lone : Lone observers)
    (hs : ¬ o.Loud slot)
    (hfirst : slot = o.reactors.size → ∀ v waited, observers.head? ≠ some (.verifier v waited)) :
    b.outcry slot a = [] := by
  by_cases hown : o.reactors.size ≤ slot ∧ slot < o.reactors.size + observers.length
  · obtain ⟨k, rfl⟩ := Nat.exists_eq_add_of_le hown.1
    have hlt : k < observers.length := Nat.lt_of_add_lt_add_left hown.2
    obtain ⟨y, hy, hsees⟩ := h.observing.observers k _ (List.getElem?_eq_getElem hlt)
    generalize hx : observers[k] = x at hsees
    cases hsees with
    | @verifier v waited _ =>
      have hk : observers[k]? = some (.verifier v waited) :=
        (List.getElem?_eq_getElem hlt).trans (congrArg some hx)
      obtain rfl := lone k v waited hk
      exact absurd (List.head?_eq_getElem?.trans hk) (hfirst rfl v waited)
    | assertion => simp only [outcry, hy]
  · refine outcry_of_not_loud fun hl => ?_
    rcases h.hushed slot hl with ho | ho
    · exact hs ho
    · exact hown ho

theorem voice_hear (h : Composed o observers n seen b) (lone : Lone observers)
    (hs : ¬ o.Loud slot) (ha : b.handles slot a = true) :
    voice observers (Observing.hear o slot a seen) = voice observers seen ++ b.outcry slot a := by
  by_cases hfirst : slot = o.reactors.size ∧ ∃ v waited, observers.head? = some (.verifier v waited)
  · -- the event's own verifier is offered one more action, and reports what it makes of it
    obtain ⟨rfl, v, waited, hv⟩ := hfirst
    obtain ⟨y, hy, hsees⟩ := h.observing.observers 0 _ (List.head?_eq_getElem?.symm.trans hv)
    cases hsees
    rw [Nat.add_zero] at hy
    simp only [handles, hy] at ha
    have hh : (v.observe (seen 0)).handles a = true := ha
    simp only [voice, hv, Observing.hear, Nat.add_zero, if_true, Verifier.complaints_concat,
      Verifier.offer, hh, outcry, hy]
  · have hout : b.outcry slot a = [] :=
      h.outcry_eq_nil lone hs fun he v waited hv => hfirst ⟨he, v, waited, hv⟩
    rw [hout, List.append_nil]
    unfold voice
    split
    next v waited hv =>
      have hne : ¬ o.reactors.size + 0 = slot := fun he => hfirst ⟨he.symm, v, waited, hv⟩
      rw [Observing.hear, if_neg hne]
    · rfl

theorem reply (h : Composed o observers n seen b) (lone : Lone observers) (hs : ¬ o.Loud slot)
    (ha : b.handles slot a = true) (hsince : a ∈ o.since b) :
    Composed o observers n (Observing.hear o slot a seen) (b.reply slot a).2 where
  observing := h.observing.reply ha
  log := h.log.trans (grows_of_eq (altersAt_reply b slot a).log)
  heard k := by
    have hsame : o.since (b.reply slot a).2 = o.since b := by
      rw [since, (altersAt_reply b slot a).log, since]
    rw [hsame, Observing.hear]
    split
    · exact List.append_subset.2 ⟨h.heard k, List.cons_subset.2 ⟨hsince, List.nil_subset _⟩⟩
    · exact h.heard k
  failures := by rw [reply_failures, h.failures, List.append_assoc, h.voice_hear lone hs ha]
  hushed i hi := h.hushed i hi.of_reply
  chain := by rw [(altersAt_reply b slot a).chain]; exact h.chain
  labels := by rw [(altersAt_reply b slot a).labels]; exact h.labels

theorem record (h : Composed o observers n seen b) (a : Action) :
    Composed o observers n seen (b.record a) :=
  ⟨h.observing.record a, h.log.trans (grows_record b a),
    fun k => List.Subset.trans (h.heard k) ((grows_record b a).since_subset o), h.failures,
    h.hushed, h.chain, h.labels⟩

theorem remove (h : Composed o observers n seen b) (label : String) :
    Composed o observers n seen (b.remove label).2 := by
  have hobserving := h.observing.remove label
  unfold Bench.remove at hobserving ⊢
  split at hobserving
  · exact ⟨hobserving, h.log, h.heard, h.failures, h.hushed,
      fun x hx => h.chain x (List.mem_filter.1 hx).1, h.labels⟩
  · exact h

theorem apply (h : Composed o observers n seen b) (a : Action) :
    Composed o observers n seen (b.apply a).2 := by
  obtain ⟨hreactors, hfailures, hchain, hlabels, -⟩ := apply_frame b a
  have hgrows : b.Grows (b.apply a).2 := grows_of_eq (apply_log b a)
  refine ⟨h.observing.apply a, h.log.trans hgrows,
    fun k => List.Subset.trans (h.heard k) (hgrows.since_subset o),
    by rw [hfailures, h.failures], fun slot hl => ?_, ?_, ?_⟩
  · exact h.hushed slot (hl.congr (by rw [hreactors]))
  · rw [hchain]
    exact h.chain
  · rw [hlabels]
    exact h.labels

theorem wait {v : Verifier} {waited : Bool} (h : Composed o observers n seen b)
    (hv : b.reactors[slot]? = some (.verifier v waited)) :
    Composed o observers n seen (b.setReactor slot (.verifier v true)) where
  observing := h.observing.wait hv
  log := h.log
  heard := h.heard
  failures := h.failures
  hushed i hi := by
    refine h.hushed i ?_
    by_cases hne : i = slot
    · obtain rfl := hne
      obtain ⟨u, waited', hu, hl⟩ := hi
      have hlt : i < b.reactors.size := (Array.getElem?_eq_some_iff.1 hv).1
      simp only [setReactor, Array.getElem?_setIfInBounds_self_of_lt hlt] at hu
      cases hu
      exact ⟨v, waited, hv, hl⟩
    · exact hi.congr ((altersAt_setReactor b slot _).others i hne).symm
  chain := h.chain
  labels := h.labels

theorem place (h : Composed o observers n seen b) (name : String)
    {p : Placement} (hp : p.scope = none) (hslot : slot < b.reactors.size)
    (hown : slot < o.reactors.size ∨ o.reactors.size + n ≤ slot) (hs : ¬ o.Loud slot) :
    Composed o observers n seen (b.place name slot p) := by
  have hobserving := h.observing.place name p hslot hown
  unfold Bench.place at hobserving ⊢
  simp only [hp] at hobserving ⊢
  split at hobserving
  next hi =>
    rw [if_pos hi]
    exact ⟨hobserving, h.log, h.heard, h.failures, h.hushed, h.chain,
      List.forall_mem_cons.2 ⟨hs, h.labels⟩⟩
  next hi =>
    rw [if_neg hi]
    refine ⟨hobserving, h.log, h.heard, h.failures, h.hushed, fun x hx => ?_,
      List.forall_mem_cons.2 ⟨hs, h.labels⟩⟩
    rcases mem_attach.1 hx with rfl | hx
    · exact hs
    · exact h.chain x hx

theorem keep {r : Reactor Script} (h : Composed o observers n seen b)
    (hr : ∀ v waited, r = .verifier v waited → v.ReportsTo none) :
    Composed o observers n seen (b.keep r) where
  observing := h.observing.keep r
  log := h.log
  heard := h.heard
  failures := h.failures
  hushed i hi := by
    refine h.hushed i ?_
    obtain ⟨v, waited, hv, hl⟩ := hi
    rw [Bench.keep, Array.getElem?_push] at hv
    split at hv
    · exact absurd (hr v waited (Option.some.inj hv)) hl
    · exact ⟨v, waited, hv, hl⟩
  chain := h.chain
  labels := h.labels

theorem install (h : Composed o observers n seen b) (name : String)
    {r : Option (Reactor Script)} {p : Placement} (hp : Terms.unreported r p) :
    Composed o observers n seen (b.install name r p) := by
  unfold Bench.install
  split
  next r =>
    have hsize : (b.keep r).reactors.size = b.reactors.size + 1 := Array.size_push ..
    have hnew : o.reactors.size + n ≤ b.reactors.size := h.observing.size
    refine (h.keep fun v waited hv => hp.2 v waited (congrArg some hv)).place name hp.1 ?_ (.inr hnew)
      fun hl => ?_
    · omega
    · have := hl.lt
      omega
  · split
    next l hl =>
      obtain ⟨hslot, hown, -⟩ := h.observing.installed hl
      exact h.place name hp.1 hslot hown (h.labels _ (mem_of_lookup hl))
    · exact h

end Composed

def Composing (o : Bench) (observers : List (Reactor Script)) (n : Nat) (b : Bench) : Prop :=
  ∃ seen, Composed o observers n seen b

theorem kept_composing (lone : Lone observers) :
    Kept o .unreported (fun slot => ¬ o.Loud slot) (Composing o observers n) where
  reply hslot ha hsince := fun ⟨_, h⟩ => ⟨_, h.reply lone hslot ha hsince⟩
  install label hp := fun ⟨seen, h⟩ => ⟨seen, h.install label hp⟩
  remove label := fun ⟨seen, h⟩ => ⟨seen, h.remove label⟩
  apply a := fun ⟨seen, h⟩ => ⟨seen, h.apply a⟩
  wait hv := fun ⟨seen, h⟩ => ⟨seen, h.wait hv⟩

theorem sustained_composing (lone : Lone observers) :
    Sustained o .unreported (fun slot => ¬ o.Loud slot) (Composing o observers n) where
  toKept := kept_composing lone
  hear := by
    rintro invoke b c a claim hgrows hi hc ⟨⟨seen, h⟩, habides⟩
    exact (kept_composing lone).consult hi hgrows (List.forall_mem_map.2 h.chain)
      (h.log.mem_since_record a) hc ⟨⟨seen, h.record a⟩, habides⟩

end Bench

end ControllerBench
