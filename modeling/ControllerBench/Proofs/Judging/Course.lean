import ControllerBench.Proofs.Judging.Observing
import ControllerBench.TestEvent

namespace ControllerBench

def Expectation.Holds : Expectation → List Action → Prop
  | seen, as => as ≠ []
  | notSeen, as => as = []
  | exactly n, as => as.length = n
  | atLeast n, as => n ≤ as.length
  | satisfies check, as => check as = .ok ()

theorem Expectation.complaint?_eq_none {e : Expectation} {filter : Filter} {as : List Action} :
    e.complaint? filter as = none ↔ e.Holds as := by
  cases e with
  | seen | notSeen => cases as <;> simp [complaint?, Holds]
  | exactly n | atLeast n =>
    simp only [complaint?, Holds]
    split <;> simp [*]
  | satisfies check =>
    simp only [complaint?, Holds]
    split <;> simp [*]

def Assertion.Met : Assertion → Prop
  | capture _ expectation seen => expectation.Holds seen.toList
  | inOrder filters seen => unmet seen.toList filters = []

theorem Assertion.complaint?_eq_none {w : Assertion} : w.complaint? = none ↔ w.Met := by
  cases w with
  | capture filter expectation seen => exact Expectation.complaint?_eq_none
  | inOrder filters seen =>
    simp only [complaint?, orderComplaint?, Met]
    split <;> simp [*]

def Assertion.verdict (r : Reporter) (w : Assertion) : List Failure :=
  (w.complaint?.map (r.failure · .declared)).toList

theorem Assertion.verdict_eq_nil {r : Reporter} {w : Assertion} : w.verdict r = [] ↔ w.Met := by
  simp [verdict, complaint?_eq_none]

namespace Bench

def seats (b : Bench) (n : Nat) : List Installation :=
  (List.range n).map fun k => ⟨b.issued + k, b.reactors.size + k⟩

theorem mem_seats {b : Bench} {n : Nat} {x : Installation} :
    x ∈ b.seats n ↔ ∃ k < n, x = ⟨b.issued + k, b.reactors.size + k⟩ := by
  simp [seats, eq_comm]

theorem seats_append (b : Bench) (m n : Nat) :
    b.seats (m + n) =
      b.seats m ++ (List.range n).map fun k => ⟨b.issued + (m + k), b.reactors.size + (m + k)⟩ := by
  simp [seats, List.range_add]

/-- Reactors are put in place one after the other, and nothing else changes. -/
structure Employs (b : Bench) (rs : List (Reactor Script)) (c : Bench) : Prop where
  reactors : c.reactors = b.reactors ++ rs.toArray
  chain : c.chain = b.chain ++ b.seats rs.length
  issued : c.issued = b.issued + rs.length
  labels : c.labels = b.labels
  log : c.log = b.log
  failures : c.failures = b.failures

theorem employs_foldl (rs : List (Reactor Script)) (b : Bench) :
    b.Employs rs (rs.foldl employ b) := by
  induction rs generalizing b with
  | nil => exact ⟨by simp, by simp [seats], rfl, rfl, rfl, rfl⟩
  | cons r rest ih =>
    have h := ih (b.employ r)
    have hreactors : (b.employ r).reactors = b.reactors.push r := rfl
    have hchain : (b.employ r).chain = b.chain ++ [⟨b.issued, b.reactors.size⟩] := rfl
    have hissued : (b.employ r).issued = b.issued + 1 := rfl
    refine ⟨?_, ?_, ?_, h.labels, h.log, h.failures⟩
    · rw [List.foldl_cons, h.reactors, hreactors]
      simp
    · rw [List.foldl_cons, h.chain, hchain, List.append_assoc, List.length_cons, Nat.add_comm,
        seats_append]
      simp [seats, hissued, hreactors, Nat.add_assoc]
    · rw [List.foldl_cons, h.issued, hissued, List.length_cons]
      omega

theorem Employs.getElem? {b c : Bench} {rs : List (Reactor Script)} (h : b.Employs rs c) (k : Nat) :
    c.reactors[b.reactors.size + k]? = rs[k]? := by
  rw [h.reactors, Array.getElem?_append_right (Nat.le_add_right ..)]
  simp

theorem Employs.orderly {b c : Bench} {rs : List (Reactor Script)} (h : b.Employs rs c)
    (hb : b.Orderly) : c.Orderly := by
  have hsize : c.reactors.size = b.reactors.size + rs.length := by simp [h.reactors]
  have hissued := h.issued
  refine ⟨fun x hx => ?_, fun p hp => ?_, fun p hp id hi => ?_⟩
  · rw [h.chain, List.mem_append, mem_seats] at hx
    rcases hx with hx | ⟨k, hk, rfl⟩
    · have := hb.chain x hx
      omega
    · simp only
      omega
  · rw [h.labels] at hp
    have := hb.slots p hp
    omega
  · rw [h.labels] at hp
    have := hb.ids p hp id hi
    omega

theorem Employs.observing {b c : Bench} {observers others : List (Reactor Script)}
    (h : b.Employs (observers ++ others) c) (hb : b.Orderly)
    (hfresh : ∀ x ∈ observers, x.Sees [] x) :
    Observing b observers (observers ++ others).length (fun _ => []) c where
  orderly := h.orderly hb
  count := by simp
  observers k x hx := by
    have hlt : k < observers.length := (List.getElem?_eq_some_iff.1 hx).1
    refine ⟨x, ?_, hfresh x (List.mem_of_getElem? hx)⟩
    rw [h.getElem?, List.getElem?_append_left hlt, hx]
  slots p hp := .inl (hb.slots p (h.labels ▸ hp))
  ids p hp id hi := .inl (hb.ids p (h.labels ▸ hp) id hi)
  chain x hx hlow hhigh := by
    rw [h.chain, List.mem_append, mem_seats] at hx
    rcases hx with hx | ⟨k, hk, rfl⟩
    · have := hb.chain x hx
      omega
    · exact ⟨Nat.le_add_right .., Nat.add_lt_add_left hk _⟩
  size := by simp [h.reactors]
  issued := Nat.le_of_eq h.issued.symm

theorem foldl_detach (ids : List Nat) (b : Bench) :
    ids.foldl detach b = { b with chain := b.chain.filter fun x => !ids.contains x.id } := by
  induction ids generalizing b with
  | nil =>
    have hall : (b.chain.filter fun x => !([] : List Nat).contains x.id) = b.chain :=
      List.filter_eq_self.2 fun _ _ => rfl
    rw [hall]
    rfl
  | cons id rest ih =>
    rw [List.foldl_cons, ih]
    simp only [detach, List.filter_filter, List.contains_cons, Bool.not_or]
    congr 1
    apply List.filter_congr
    intro x _
    rw [Bool.and_comm]
    rfl

def verdict (r : Reporter) (b : Bench) (slot : Nat) : List Failure :=
  match b.reactors[slot]? with
  | some (.assertion w) => w.verdict r
  | _ => []

theorem report_nil (b : Bench) : b.report [] = b := by simp [report]

theorem report_append (b : Bench) (fs gs : List Failure) :
    b.report (fs ++ gs) = (b.report fs).report gs := by simp [report, Array.append_assoc]

theorem judge_eq (r : Reporter) (b : Bench) (slot : Nat) :
    b.judge r slot = b.report (b.verdict r slot) := by
  cases hx : b.reactors[slot]? with
  | none => simp only [Bench.judge, verdict, hx, report_nil]
  | some x =>
    cases x with
    | verifier | override => simp only [Bench.judge, verdict, hx, report_nil]
    | assertion w =>
      simp only [Bench.judge, verdict, hx, Assertion.verdict]
      cases w.complaint? with
      | none => exact (report_nil b).symm
      | some message => rfl

theorem foldl_judge (r : Reporter) (slots : List Nat) (b : Bench) :
    slots.foldl (Bench.judge r) b = b.report (slots.flatMap (b.verdict r)) := by
  induction slots generalizing b with
  | nil => exact (report_nil b).symm
  | cons slot rest ih =>
    have hsame : (b.report (b.verdict r slot)).verdict r = b.verdict r := rfl
    rw [List.foldl_cons, judge_eq, ih, hsame, List.flatMap_cons, report_append]

end Bench

theorem Reactor.Sees.abides {P : Terms} {as : List Action} {x y : Reactor Script}
    (h : x.Sees as y) : x.Abides P := by
  cases h <;> trivial

theorem Bench.Abides.report {P : Terms} {b : Bench} (h : b.Abides P) (fs : List Failure) :
    (b.report fs).Abides P := h

namespace TestEvent

variable {e : TestEvent} {r : Reporter} {o b : Bench} {seen : Nat → List Action}

def observers (e : TestEvent) (r : Reporter) : List (Reactor Script) :=
  (e.verifier.map fun v => .verifier (v.inject r) false).toList ++ e.assertions.map .assertion

def judged (e : TestEvent) (seen : Nat → List Action) : List Assertion :=
  e.assertions.mapIdx fun k w => w.observe (seen (e.verifier.toList.length + k))

theorem sees_self_of_mem_observers {x : Reactor Script} (hx : x ∈ e.observers r) : x.Sees [] x := by
  rcases List.mem_append.1 hx with hx | hx
  · obtain ⟨v, -, rfl⟩ := Option.map_eq_some_iff.1 (Option.mem_toList.1 hx)
    exact .verifier
  · obtain ⟨w, -, rfl⟩ := List.mem_map.1 hx
    have h : (Reactor.assertion w).Sees [] (.assertion (w.observe [])) := .assertion
    rwa [Assertion.observe_nil] at h

theorem employs_install (e : TestEvent) (r : Reporter) (t : Schedule) :
    t.bench.Employs (e.observers r ++ e.reactors) (e.install r t).bench :=
  Bench.employs_foldl (e.chain r) t.bench

def Abides (P : Terms) (e : TestEvent) : Prop := e.trigger.Abides P ∧ ∀ x ∈ e.reactors, x.Abides P

theorem abides_install {P : Terms} {t : Schedule} (h : t.bench.Abides P) (he : e.Abides P) :
    (e.install r t).bench.Abides P := by
  intro x hx
  rw [(employs_install e r t).reactors] at hx
  rcases Array.mem_append.1 hx with hx | hx
  · exact h x hx
  · rcases List.mem_append.1 (List.mem_toArray.1 hx) with hx | hx
    · exact (sees_self_of_mem_observers hx).abides
    · exact he.2 x hx

theorem observing_install {t : Schedule} (ht : t.bench.Orderly) :
    Bench.Observing t.bench (e.observers r) (e.chain r).length (fun _ => [])
      (e.install r t).bench :=
  (employs_install e r t).observing ht fun _ hx => sees_self_of_mem_observers hx

theorem verifier_at {n : Nat} {v : Verifier} (h : Bench.Observing o (e.observers r) n seen b)
    (hv : e.verifier = some v) :
    ∃ waited, b.reactors[o.reactors.size]? =
      some (.verifier ((v.inject r).observe (seen 0)) waited) := by
  obtain ⟨y, hy, hs⟩ := h.observers 0 (.verifier (v.inject r) false) (by simp [observers, hv])
  cases hs with
  | @verifier _ _ waited => exact ⟨waited, hy⟩

theorem assertion_at {n k : Nat} {w : Assertion} (h : Bench.Observing o (e.observers r) n seen b)
    (hw : e.assertions[k]? = some w) :
    b.reactors[o.reactors.size + e.verifier.toList.length + k]? =
      some (.assertion (w.observe (seen (e.verifier.toList.length + k)))) := by
  have hx : (e.observers r)[e.verifier.toList.length + k]? = some (.assertion w) := by
    rw [observers, List.getElem?_append_right (by cases e.verifier <;> simp)]
    cases e.verifier <;> simp [hw]
  obtain ⟨y, hy, hs⟩ := h.observers _ _ hx
  cases hs
  rw [Nat.add_assoc, hy]

theorem verdict_at {n k : Nat} {w : Assertion} (h : Bench.Observing o (e.observers r) n seen b)
    (hw : e.assertions[k]? = some w) :
    b.verdict r (o.reactors.size + e.verifier.toList.length + k) =
      (w.observe (seen (e.verifier.toList.length + k))).verdict r := by
  rw [Bench.verdict, assertion_at h hw]

theorem flatMap_range' {β : Type} {f : Nat → List β} {g : Nat → Assertion → List β}
    {ws : List Assertion} {start : Nat} (h : ∀ k w, ws[k]? = some w → f (start + k) = g k w) :
    (List.range' start ws.length).flatMap f = (ws.mapIdx g).flatten := by
  induction ws generalizing start g with
  | nil => rfl
  | cons w rest ih =>
    rw [List.length_cons, List.range'_succ, List.flatMap_cons, List.mapIdx_cons, List.flatten_cons,
      ih fun k v hv => (congrArg f (Nat.add_right_comm start 1 k)).trans (h (k + 1) v hv)]
    rw [← h 0 w rfl]
    rfl

theorem judge_observing {n : Nat} (h : Bench.Observing o (e.observers r) n seen b) :
    e.judge r o.reactors.size b = b.report ((e.judged seen).flatMap (·.verdict r)) := by
  rw [judge, Bench.foldl_judge, assertionSlots, flatMap_range' fun k w hw => verdict_at h hw]
  congr 1
  rw [judged, List.flatMap_def]
  congr 1
  apply List.ext_getElem?
  intro k
  simp [Function.comp_def]

/-- What is left of an event once its assertions are judged and it is taken out. -/
structure Closes (e : TestEvent) (r : Reporter) (o : Bench) (seen : Nat → List Action) (b c : Bench) :
    Prop where
  failures : c.failures.toList = b.failures.toList ++ (e.judged seen).flatMap (·.verdict r)
  chain : c.chain ⊆ b.chain
  gone : ∀ x ∈ c.chain,
    x.slot < o.reactors.size ∨ o.reactors.size + (e.chain r).length ≤ x.slot
  log : c.log = b.log
  reactors : c.reactors = b.reactors
  labels : c.labels = b.labels
  issued : c.issued = b.issued

theorem closes (h : Bench.Observing o (e.observers r) (e.chain r).length seen b) :
    e.Closes r o seen b (e.uninstall r o.issued (e.judge r o.reactors.size b)) := by
  rw [uninstall, Bench.foldl_detach, judge_observing h]
  refine ⟨Array.toList_append, List.filter_sublist.subset, fun x hx => ?_, rfl, rfl, rfl, rfl⟩
  obtain ⟨hmem, hid⟩ := List.mem_filter.1 hx
  have hseat := h.chain x hmem
  simp only [List.contains_eq_mem, List.mem_range'_1, Bool.not_eq_true', decide_eq_false_iff_not] at hid
  omega

theorem run_ok {fuel : Nat} {reporter : Reporter} {config : Config} {t t' : Schedule}
    (h : e.run fuel reporter config t = .ok t') :
    ∃ after,
      e.play fuel (reporter.within e.name) config t.bench.reactors.size
          (e.install (reporter.within e.name) t) = .ok after ∧
        t' = after.setBench (e.uninstall (reporter.within e.name) t.bench.issued
          (e.judge (reporter.within e.name) t.bench.reactors.size after.bench)) := by
  simp only [run] at h
  split at h
  · cases h
  next after hafter => exact ⟨after, hafter, (Except.ok.inj h).symm⟩

theorem play_ok {fuel slot : Nat} {config : Config} {t after : Schedule}
    (h : e.play fuel r config slot t = .ok after) :
    ∃ outcome driven, t.drive fuel e.trigger = .ok (outcome, driven) ∧
      e.follow fuel (e.timeout.getD config.defaultTimeout) r slot outcome driven = .ok after := by
  unfold play at h
  split at h
  · cases h
  next outcome driven hd => exact ⟨outcome, driven, hd, h⟩

end TestEvent

end ControllerBench
