import ControllerBench.Proofs.Observation.Inquiry
import Mathlib.Data.List.Induction
import Mathlib.Data.List.Nodup

namespace ControllerBench

namespace Inquiry

def failed (q : Inquiry) : Bool := q.answer.toOption.isNone

def failures (ls : List Leaf) (q : Inquiry) : List Failure :=
  match q.answer with
  | .ok _ => []
  | .error reason => (ls[q.place]?.map (·.complaint q.action reason)).getD []

end Inquiry

namespace Leaf

variable {a : Action} {place : Nat} {l l' l'' : Leaf} {fs : List Failure} {qs rs : List Inquiry}

/-- What has become of a leaf, and the questions put to it on the way: at most the last one fired it. -/
inductive Lived (l : Leaf) : Leaf → List Inquiry → Prop
  | waited {qs : List Inquiry} : (qs ≠ [] → l.fired = false ∧ l.check.isSome = true) →
      (∀ q ∈ qs, q.answer = .ok false) → Lived l l qs
  | unchecked : l.fired = false → l.check = none → Lived l { l with fired := true } []
  | judged {qs : List Inquiry} {q : Inquiry} :
      l.fired = false → l.check.isSome = true → (∀ q ∈ qs, q.answer = .ok false) →
      q.answer ≠ .ok false → Lived l { l with fired := true } (qs ++ [q])

theorem Lived.reporter (h : l.Lived l' qs) : l'.reporter = l.reporter := by
  cases h <;> rfl

theorem Lived.verdict (h : l.Lived l' qs) (a : Action) : l'.verdict a = l.verdict a := by
  cases h <;> rfl

theorem Lived.turned (h : l.Lived l' qs) (h' : l'.Turned a place l'' fs rs) :
    l.Lived l'' (qs ++ rs) := by
  cases h' with
  | still => rwa [List.append_nil]
  | unchecked hn hc =>
    rw [List.append_nil]
    cases h with
    | @waited qs hasked _ =>
      have hnone : qs = [] := by
        by_contra hne
        simp [hc] at hasked
        exact hne hasked
      rw [hnone]
      exact .unchecked hn hc
    | unchecked => cases hn
    | judged => cases hn
  | answered answer hn hc =>
    cases h with
    | waited _ hall =>
      cases answer with
      | ok accepted =>
        cases accepted with
        | false =>
          have hsame : (l.heed a (.ok false)).1 = l := by simp [heed, ← hn]
          rw [hsame]
          exact .waited (fun _ => ⟨hn, hc⟩)
            (List.forall_mem_append.2 ⟨hall, List.forall_mem_singleton.2 rfl⟩)
        | true => exact .judged hn hc hall (by simp)
      | error reason => exact .judged hn hc hall (by simp)
    | unchecked => cases hn
    | judged => cases hn

theorem Turned.of_fired (h : l.Turned a place l' fs qs) (hf : l.fired = true) : l' = l ∧ qs = [] := by
  cases h with
  | still => exact ⟨rfl, rfl⟩
  | unchecked hn => rw [hf] at hn; cases hn
  | answered _ hn => rw [hf] at hn; cases hn

theorem Lived.countP_failed (h : l.Lived l' qs) : qs.countP (·.failed) ≤ 1 := by
  have hnone {qs : List Inquiry} (hall : ∀ q ∈ qs, q.answer = .ok false) :
      qs.countP (·.failed) = 0 := by
    refine List.countP_eq_zero.2 fun q hq => ?_
    simp [Inquiry.failed, hall q hq, Except.toOption]
  cases h with
  | waited _ hall => simp [hnone hall]
  | unchecked => simp
  | judged _ _ hall _ =>
    rw [List.countP_append, hnone hall, Nat.zero_add]
    exact List.countP_le_length

theorem complaint_congr (h : l'.reporter = l.reporter) (a : Action) (reason : String) :
    l'.complaint a reason = l.complaint a reason := by
  unfold complaint
  rw [h]

theorem Turned.failures (h : l.Turned a place l' fs qs) (origin : List Leaf)
    (ho : ∃ l₀, origin[place]? = some l₀ ∧ l₀.reporter = l.reporter) :
    fs = qs.flatMap (·.failures origin) := by
  cases h with
  | still => rfl
  | unchecked => rfl
  | answered answer =>
    obtain ⟨l₀, hl₀, hr⟩ := ho
    cases answer with
    | ok accepted => rfl
    | error reason => simp [Inquiry.failures, hl₀, heed, complaint_congr hr]

end Leaf

theorem Turns.failures {a : Action} {place : Nat} {ls ls' : List Leaf} {fs : List Failure}
    {qs : List Inquiry} (h : Turns a place ls ls' fs qs) (origin : List Leaf)
    (ho : ∀ i l, ls[i]? = some l → ∃ l₀, origin[place + i]? = some l₀ ∧ l₀.reporter = l.reporter) :
    fs = qs.flatMap (·.failures origin) := by
  induction h with
  | nil => rfl
  | cons hl _ ih =>
    rw [List.flatMap_append, ← hl.failures origin (ho 0 _ rfl), ← ih]
    intro i l hi
    rw [Nat.add_right_comm]
    exact ho (i + 1) l hi

namespace Verifier

inductive Impulse where
  | react (a : Action)
  | inject (r : Reporter)

namespace Impulse

def isReaction : Impulse → Bool
  | react _ => true
  | inject _ => false

def act (v : Verifier) : Impulse → Verifier × List Failure
  | react a => v.react a
  | inject r => (v.inject r, [])

end Impulse

def undergo (v : Verifier) (es : List Impulse) : Verifier × List Failure :=
  es.foldl (fun r e => ((e.act r.1).1, r.2 ++ (e.act r.1).2)) (v, [])

structure Account where
  tree : Verifier
  failures : List Failure
  inquiries : List Inquiry

namespace Account

def after (oracle : Oracle) (s : Account) : Impulse → Account
  | .react a =>
    let r := s.tree.probe oracle a s.inquiries 0
    ⟨r.1, s.failures ++ r.2.1, s.inquiries ++ r.2.2⟩
  | .inject r => { s with tree := s.tree.inject r }

def putTo (s : Account) (i : Nat) : List Inquiry := s.inquiries.filter (·.place == i)

def condemns (s : Account) (i : Nat) : Bool := (s.putTo i).any (·.failed)

end Account

def account (oracle : Oracle) (v : Verifier) (es : List Impulse) : Account :=
  es.foldl (Account.after oracle) ⟨v, [], []⟩

theorem injectAll_of_reported {steps : List Verifier} {r : Reporter}
    (h : ∀ s ∈ steps, (∀ l ∈ s.leaves, l.reporter.isSome = true) → s.inject r = s)
    (hr : ∀ l ∈ leavesAll steps, l.reporter.isSome = true) : injectAll r steps = steps := by
  rw [injectAll_eq_map]
  refine (List.map_congr_left fun s hs => ?_).trans (List.map_id steps)
  exact h s hs fun l hl => hr l (mem_leavesAll.2 ⟨s, hs, hl⟩)

theorem inject_of_reported {v : Verifier} (h : ∀ l ∈ v.leaves, l.reporter.isSome = true)
    (r : Reporter) : v.inject r = v := by
  induction v using tree_induction with
  | leaf l =>
    obtain ⟨reporter, hl⟩ := Option.isSome_iff_exists.1 (h l (.head _))
    obtain ⟨filter, check, fired, _⟩ := l
    cases hl
    rfl
  | inOrder passed left ihp ihl =>
    obtain ⟨hp, hl⟩ := List.forall_mem_append.1 h
    rw [inject, injectAll_of_reported ihp hp, injectAll_of_reported ihl hl]
  | allOf steps fired ih => rw [inject, injectAll_of_reported ih h]
  | unlocated inner ih => rw [inject, ih h]

namespace Account

structure Sound (v : Verifier) (s : Account) : Prop where
  length : s.tree.leaves.length = v.leaves.length
  lived {i : Nat} {l : Leaf} : v.leaves[i]? = some l →
    ∃ l', s.tree.leaves[i]? = some l' ∧ l.Lived l' (s.putTo i)
  failures : s.failures = s.inquiries.flatMap (·.failures v.leaves)
  places : ∀ q ∈ s.inquiries, q.place < v.leaves.length

namespace Sound

variable {oracle : Oracle} {v : Verifier} {s : Account}

theorem origin (h : Sound v s) {i : Nat} {l' : Leaf} (hl : s.tree.leaves[i]? = some l') :
    ∃ l, v.leaves[i]? = some l ∧ l.Lived l' (s.putTo i) := by
  have hi : i < v.leaves.length := h.length ▸ (List.getElem?_eq_some_iff.1 hl).1
  obtain ⟨l'', hl'', hlived⟩ := h.lived (List.getElem?_eq_getElem hi)
  obtain rfl := Option.some.inj (hl''.symm.trans hl)
  exact ⟨_, List.getElem?_eq_getElem hi, hlived⟩

theorem init (v : Verifier) : Sound v ⟨v, [], []⟩ where
  length := rfl
  lived hl := ⟨_, hl, .waited (fun hne => absurd rfl hne) (List.forall_mem_nil _)⟩
  failures := rfl
  places := List.forall_mem_nil _

theorem react (h : Sound v s) (a : Action) : Sound v (s.after oracle (.react a)) := by
  have hturns := s.tree.probe_turns oracle a 0 s.inquiries
  refine ⟨hturns.length_eq.trans h.length, ?_, ?_, ?_⟩
  · intro i l hl
    obtain ⟨l', hl', hlived⟩ := h.lived hl
    obtain ⟨l'', fs, hl'', hturned⟩ := hturns.at hl'
    rw [Nat.zero_add] at hturned
    refine ⟨l'', hl'', ?_⟩
    have hput : (s.after oracle (.react a)).putTo i = s.putTo i ++ _ := List.filter_append ..
    rw [hput]
    exact hlived.turned hturned
  · have hsaid := hturns.failures v.leaves fun i l' hl' => by
      obtain ⟨l, hl, hlived⟩ := h.origin hl'
      exact ⟨l, by rwa [Nat.zero_add], hlived.reporter.symm⟩
    change s.failures ++ _ = (s.inquiries ++ _).flatMap _
    rw [List.flatMap_append, ← h.failures, ← hsaid]
  · refine List.forall_mem_append.2 ⟨h.places, fun q hq => ?_⟩
    have hp := (hturns.places q hq).2
    rwa [Nat.zero_add, h.length] at hp

theorem reported (h : Sound v s) (hr : ∀ l ∈ v.leaves, l.reporter.isSome = true) :
    ∀ l ∈ s.tree.leaves, l.reporter.isSome = true := by
  intro l' hl'
  obtain ⟨i, hi⟩ := List.mem_iff_getElem?.1 hl'
  obtain ⟨l, hl, hlived⟩ := h.origin hi
  rw [hlived.reporter]
  exact hr l (List.mem_of_getElem? hl)

theorem inject (h : Sound v s) (hr : ∀ l ∈ v.leaves, l.reporter.isSome = true) (r : Reporter) :
    s.after oracle (.inject r) = s := by
  rw [after, inject_of_reported (h.reported hr)]

theorem after (h : Sound v s) (hr : ∀ l ∈ v.leaves, l.reporter.isSome = true) (e : Impulse) :
    Sound v (s.after oracle e) := by
  cases e with
  | react a => exact h.react a
  | inject r => rwa [h.inject hr]

/-- What has fired is passed over by every reaction to come. -/
theorem stays (h : Sound v s) (hr : ∀ l ∈ v.leaves, l.reporter.isSome = true) {i : Nat} {l : Leaf}
    (hl : s.tree.leaves[i]? = some l) (hf : l.fired = true) (more : List Impulse) :
    (more.foldl (Account.after oracle) s).tree.leaves[i]? = some l ∧
      (more.foldl (Account.after oracle) s).putTo i = s.putTo i := by
  induction more generalizing s with
  | nil => exact ⟨hl, rfl⟩
  | cons e more ih =>
    have hstep : (s.after oracle e).tree.leaves[i]? = some l ∧
        (s.after oracle e).putTo i = s.putTo i := by
      cases e with
      | inject r => rw [h.inject hr]; exact ⟨hl, rfl⟩
      | react a =>
        have hturns := s.tree.probe_turns oracle a 0 s.inquiries
        obtain ⟨l', fs, hl', hturned⟩ := hturns.at hl
        rw [Nat.zero_add] at hturned
        obtain ⟨rfl, hnone⟩ := hturned.of_fired hf
        have hput : (s.after oracle (.react a)).putTo i = s.putTo i ++ _ := List.filter_append ..
        exact ⟨hl', by rw [hput, hnone, List.append_nil]⟩
    rw [List.foldl_cons, ← hstep.2]
    exact ih (h.after hr e) hstep.1

theorem steady (h : Sound v s) (ho : oracle.Steady 0 v.leaves) : oracle.Steady 0 s.tree.leaves := by
  intro i l' hl' asked a
  obtain ⟨l, hl, hlived⟩ := h.origin hl'
  rw [hlived.verdict]
  exact ho i l hl asked a

theorem failures_of (h : Sound v s) (hr : ∀ l ∈ v.leaves, l.reporter.isSome = true)
    {qs : List Inquiry} (hqs : ∀ q ∈ qs, q ∈ s.inquiries) :
    (qs.flatMap (·.failures v.leaves)).length = qs.countP (·.failed) := by
  induction qs with
  | nil => rfl
  | cons q rest ih =>
    obtain ⟨hq, hrest⟩ := List.forall_mem_cons.1 hqs
    have hlt := h.places q hq
    obtain ⟨reporter, hreporter⟩ := Option.isSome_iff_exists.1 (hr _ (List.getElem_mem hlt))
    have hone : (q.failures v.leaves).length = if q.failed then 1 else 0 := by
      unfold Inquiry.failures Inquiry.failed
      cases q.answer with
      | ok accepted => rfl
      | error reason => simp [List.getElem?_eq_getElem hlt, Leaf.complaint, hreporter, Except.toOption]
    rw [List.flatMap_cons, List.length_append, ih hrest, hone, List.countP_cons, Nat.add_comm]

theorem putTo_failures (h : Sound v s) (hr : ∀ l ∈ v.leaves, l.reporter.isSome = true) {i : Nat}
    {l : Leaf} (hl : v.leaves[i]? = some l) :
    ((s.putTo i).flatMap (·.failures v.leaves)).length = if s.condemns i then 1 else 0 := by
  obtain ⟨l', -, hlived⟩ := h.lived hl
  have hle := hlived.countP_failed
  have hput : ∀ q ∈ s.putTo i, q ∈ s.inquiries := fun q hq => (List.mem_filter.1 hq).1
  rw [h.failures_of hr hput]
  split
  next hc =>
    have hpos : 0 < (s.putTo i).countP (·.failed) := by
      obtain ⟨q, hq, hfailed⟩ := List.any_eq_true.1 hc
      exact List.countP_pos_iff.2 ⟨q, hq, hfailed⟩
    omega
  next hc =>
    rw [List.countP_eq_zero]
    simpa [condemns] using hc

theorem failed_places (h : Sound v s) :
    ((s.inquiries.filter (·.failed)).map (·.place)).Perm
      ((List.range v.leaves.length).filter s.condemns) := by
  have hcount (i : Nat) : ((s.inquiries.filter (·.failed)).map (·.place)).count i =
      (s.putTo i).countP (·.failed) := by
    rw [List.count_eq_countP, List.countP_map, List.countP_filter, putTo, List.countP_filter]
    simp only [Function.comp_apply, Bool.and_comm]
  have hmem (i : Nat) : i ∈ (s.inquiries.filter (·.failed)).map (·.place) ↔ s.condemns i = true := by
    rw [← List.count_pos_iff, hcount, List.countP_pos_iff, condemns, List.any_eq_true]
  refine (List.perm_ext_iff_of_nodup ?_ (List.nodup_range.filter _)).2 fun i => ?_
  · refine List.nodup_iff_count.2 fun i => ?_
    rw [hcount]
    rcases Nat.lt_or_ge i v.leaves.length with hi | hi
    · obtain ⟨l', -, hlived⟩ := h.lived (List.getElem?_eq_getElem hi)
      exact hlived.countP_failed
    · have hnone : s.putTo i = [] := by
        refine List.filter_eq_nil_iff.2 fun q hq => ?_
        have hlt := h.places q hq
        simp only [beq_iff_eq]
        omega
      simp [hnone]
  · rw [hmem, List.mem_filter, List.mem_range]
    refine ⟨fun hc => ⟨?_, hc⟩, And.right⟩
    obtain ⟨q, hq, -⟩ := List.any_eq_true.1 hc
    obtain ⟨hin, hplace⟩ := List.mem_filter.1 hq
    exact beq_iff_eq.1 hplace ▸ h.places q hin

theorem failures_length (h : Sound v s) (hr : ∀ l ∈ v.leaves, l.reporter.isSome = true) :
    s.failures.length = (List.range v.leaves.length).countP s.condemns := by
  have hperm := h.failed_places.length_eq
  rw [List.length_map, ← List.countP_eq_length_filter, ← List.countP_eq_length_filter] at hperm
  rw [h.failures, h.failures_of hr fun q hq => hq, hperm]

end Sound

end Account

section Run

variable (oracle : Oracle) {v : Verifier} (hr : ∀ l ∈ v.leaves, l.reporter.isSome = true)

include hr

theorem account_sound (es : List Impulse) : Account.Sound v (v.account oracle es) := by
  rw [account]
  refine List.foldlRecOn es _ (.init v) ?_
  intro s hs e _
  exact hs.after hr e

theorem account_reactions (es : List Impulse) :
    v.account oracle (es.filter (·.isReaction)) = v.account oracle es := by
  induction es using List.reverseRecOn with
  | nil => rfl
  | append_singleton es e ih =>
    have hlast : v.account oracle (es ++ [e]) = (v.account oracle es).after oracle e := List.foldl_append
    rw [hlast, List.filter_append]
    cases e with
    | react a =>
      have hlast' : v.account oracle (es.filter (·.isReaction) ++ [.react a]) =
          (v.account oracle (es.filter (·.isReaction))).after oracle (.react a) := List.foldl_append
      exact hlast'.trans (congrArg (Account.after oracle · (.react a)) ih)
    | inject r =>
      rw [(account_sound oracle hr es).inject hr, List.filter_cons_of_neg (by simp [Impulse.isReaction]),
        List.filter_nil, List.append_nil, ih]

theorem account_steady {oracle : Oracle} (ho : oracle.Steady 0 v.leaves) (es : List Impulse) :
    v.undergo es = ((v.account oracle es).tree, (v.account oracle es).failures) := by
  induction es using List.reverseRecOn with
  | nil => rfl
  | append_singleton es e ih =>
    have hlast : v.account oracle (es ++ [e]) = (v.account oracle es).after oracle e := List.foldl_append
    rw [undergo] at ih
    rw [undergo, List.foldl_append, ih, hlast]
    cases e with
    | react a =>
      obtain ⟨hnext, hsaid⟩ := probe_eq_react (a := a) ((account_sound oracle hr es).steady ho)
        (v.account oracle es).inquiries
      simp only [List.foldl_cons, List.foldl_nil, Impulse.act, Account.after, hnext, hsaid]
    | inject r => simp only [List.foldl_cons, List.foldl_nil, Impulse.act, Account.after, List.append_nil]

/--
However often the root reacts and whatever its checks answer, a leaf fires once and is left alone from then
on; it has one failure if its check found the action wrong that it fired on, and none otherwise.
-/
theorem leaves_fail_at_most_once (es : List Impulse) :
    let s := v.account oracle es
    (oracle.Steady 0 v.leaves → v.undergo es = (s.tree, s.failures)) ∧
      v.account oracle (es.filter (·.isReaction)) = s ∧
      s.tree.leaves.length = v.leaves.length ∧
      (∀ i l, v.leaves[i]? = some l → ∃ l', s.tree.leaves[i]? = some l' ∧ l.Lived l' (s.putTo i) ∧
        ((s.putTo i).flatMap (·.failures v.leaves)).length = (if s.condemns i then 1 else 0) ∧
        (l'.fired = true → ∀ more, (v.account oracle (es ++ more)).tree.leaves[i]? = some l' ∧
          (v.account oracle (es ++ more)).putTo i = s.putTo i)) ∧
      s.failures = s.inquiries.flatMap (·.failures v.leaves) ∧
      s.failures.length = (List.range v.leaves.length).countP s.condemns ∧
      s.failures.length ≤ v.leaves.length := by
  have h := account_sound oracle hr es
  have hcount := h.failures_length hr
  refine ⟨fun ho => account_steady hr ho es, account_reactions oracle hr es, h.length, ?_,
    h.failures, hcount, ?_⟩
  · intro i l hl
    obtain ⟨l', hl', hlived⟩ := h.lived hl
    refine ⟨l', hl', hlived, h.putTo_failures hr hl, fun hf more => ?_⟩
    have hlater : v.account oracle (es ++ more) =
        more.foldl (Account.after oracle) (v.account oracle es) := List.foldl_append
    rw [hlater]
    exact h.stays hr hl' hf more
  · rw [hcount]
    exact Nat.le_trans List.countP_le_length (Nat.le_of_eq List.length_range)

end Run

def wary : Verifier := (all [passes .any (.failing "wrong"), seen .any]).inject ⟨"case"⟩

def faultFinder : Oracle := fun _ place _ => if place = 0 then .error "wrong" else .ok true

def pressed : List Impulse :=
  [.react glance, .inject ⟨"late"⟩, .react glance, .react glance]

theorem faultFinder_steady : faultFinder.Steady 0 wary.leaves := by
  intro i l hl asked a
  match i, hl with
  | 0, rfl => rfl
  | 1, rfl => rfl

theorem fault_reported_once_to_first :
    (∀ l ∈ wary.leaves, l.reporter.isSome = true) ∧
      (wary.undergo pressed).2.map (·.scope) = ["case"] := by
  have hr : ∀ l ∈ wary.leaves, l.reporter.isSome = true := by decide
  have hscopes : ((account faultFinder wary pressed).inquiries.flatMap (·.failures wary.leaves)).map
      (·.scope) = ["case"] := by decide +kernel
  obtain ⟨hplain, -, -, -, hfailures, -⟩ := leaves_fail_at_most_once faultFinder hr pressed
  refine ⟨hr, ?_⟩
  rw [hplain faultFinder_steady, ← hscopes, ← hfailures]

end Verifier

end ControllerBench
