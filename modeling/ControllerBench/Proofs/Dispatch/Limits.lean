import ControllerBench.Proofs.Dispatch.Overrides
import ControllerBench.Proofs.Dispatch.Snapshot

namespace ControllerBench

open Happening (turns doings)

def Happening.calls (slot : Nat) (hs : List Happening) : Nat :=
  hs.countP fun h => h.asked?.any (·.slot == slot)

theorem Happening.calls_cons (slot : Nat) (h : Happening) (hs : List Happening) :
    calls slot (h :: hs) = calls slot [h] + calls slot hs := by
  rw [calls, ← List.singleton_append, List.countP_append]
  rfl

/-- What comes next is what the script does and, if it ends, its end. -/
def Script.Ensues (invoke : Invoke) (recount : Recount) (s : Script) (b : Bench) (x : Offer)
    (later : List Happening) : Prop :=
  match s.run invoke b with
  | some (outcome, _) => s.history invoke recount b ++ [.ended x outcome] <+: later
  | none => later = s.history invoke recount b

open Happening (calls)

namespace Override

variable {o : Override Script} {n : Nat}

theorem reacted_offer (hn : o.limit = some n) (hfresh : o.offered = 0) (k : Nat) :
    (o.offer k).reacted = min n k := by
  simp only [reacted, offer, hn, hfresh, Nat.zero_add]
  exact Nat.min_comm k n

theorem reply_within {k : Nat} (hn : o.limit = some n) (hfresh : o.offered = 0) (hk : k < n)
    (a : Action) : (o.offer k).reply a = o.reaction k a := by
  have hmore : (o.offer k).exhausted = false := by simp [exhausted, offer, hn, hfresh, hk]
  rw [reply, hmore, if_neg Bool.false_ne_true, offer_reaction, offer_offered, hfresh, Nat.zero_add]

theorem reply_beyond {k : Nat} (hn : o.limit = some n) (hfresh : o.offered = 0) (hk : n ≤ k)
    (a : Action) : (o.offer k).reply a = .done .pass := by
  have hover : (o.offer k).exhausted = true := by simp [exhausted, offer, hn, hfresh, hk]
  simp [reply, hover]

end Override

theorem Walk.settled {returned : Prop} {turn : Nat} {a : Action} {entries : List Installation}
    {hs earlier later : List Happening} {x : Offer} {outcome : Outcome}
    (h : Walk returned turn a entries hs) (he : hs = earlier ++ .ended x outcome :: later)
    (hc : outcome.claim?.isSome = true) : later = [] := by
  induction h generalizing earlier with
  | through =>
    obtain ⟨-, hx⟩ | ⟨ys, -, hys⟩ := List.cons_eq_append_iff.1 he
    · cases hx
    · simp at hys
  | skip _ ih =>
    obtain ⟨-, hx⟩ | ⟨ys, -, hys⟩ := List.cons_eq_append_iff.1 he
    · cases hx
    · exact ih hys
  | pass hpass _ ih =>
    obtain ⟨-, hx⟩ | ⟨ys, -, hys⟩ := List.cons_eq_append_iff.1 he
    · cases hx
    · obtain ⟨-, hx⟩ | ⟨zs, -, hzs⟩ := List.cons_eq_append_iff.1 hys
      · cases hx
        rw [hpass] at hc
        cases hc
      · exact ih hzs
  | claim _ =>
    obtain ⟨-, hx⟩ | ⟨ys, -, hys⟩ := List.cons_eq_append_iff.1 he
    · cases hx
    · obtain ⟨-, hx⟩ | ⟨zs, -, hzs⟩ := List.cons_eq_append_iff.1 hys
      · cases hx
        rfl
      · simp at hzs
  | cut _ =>
    obtain ⟨-, hx⟩ | ⟨ys, -, hys⟩ := List.cons_eq_append_iff.1 he
    · cases hx
    · simp at hys

namespace Bench

theorem override_undergo {b : Bench} {slot : Nat} {o : Override Script}
    (h : b.override? slot = some o) (x : Happening) :
    (b.undergo x).override? slot = some (o.offer (calls slot [x])) := by
  cases x with
  | asked x =>
    by_cases hx : x.entry.slot = slot
    · have hcalls : calls slot [.asked x] = 1 := by simp [calls, Happening.asked?, hx]
      rw [hcalls, undergo, hx, override_reply, h, Option.map_some]
    · have hcalls : calls slot [.asked x] = 0 := by simp [calls, Happening.asked?, hx]
      rw [hcalls, undergo, override_reply_of_ne (Ne.symm hx), h, Override.offer_zero]
  | installed label reactor p => exact override_install h label reactor p
  | removed label =>
    rw [undergo, override_congr]
    · exact h
    · rw [remove_reactors]
  | applied turn a =>
    rw [undergo, override_congr]
    · exact h
    · rw [(apply_frame b a).1]
  | logged a => exact h
  | skipped x => exact h
  | ended x outcome => exact h

theorem override_after {b : Bench} {slot : Nat} {o : Override Script}
    (h : b.override? slot = some o) (hs : List Happening) :
    (b.after hs).override? slot = some (o.offer (calls slot hs)) := by
  induction hs generalizing b o with
  | nil => exact h
  | cons x rest ih =>
    rw [after_cons, Happening.calls_cons, ← Override.offer_offer]
    exact ih (override_undergo h x)

theorem exists_logged {b : Bench} {hs : List Happening} {turn : Nat} (hle : b.log.size ≤ turn)
    (hlt : turn < (b.after hs).log.size) :
    ∃ earlier a later, hs = earlier ++ .logged a :: later ∧ (b.after earlier).log.size = turn := by
  induction hs generalizing b with
  | nil => exact absurd hlt (Nat.not_lt_of_le hle)
  | cons x rest ih =>
    -- the log grows by one at a time, so no turn is passed over
    have hsize := b.undergo_log x
    by_cases hnow : ∃ a, x = .logged a ∧ b.log.size = turn
    · obtain ⟨a, rfl, ha⟩ := hnow
      exact ⟨[], a, rest, rfl, ha⟩
    · have hnext : (b.undergo x).log.size ≤ turn := by
        split at hsize
        next a =>
          have hne : b.log.size ≠ turn := fun he => hnow ⟨a, rfl, he⟩
          simp only [if_true] at hsize
          omega
        next =>
          simp only [Bool.false_eq_true, if_false] at hsize
          omega
      obtain ⟨earlier, a, later, rfl, hturn⟩ := ih hnext hlt
      exact ⟨x :: earlier, a, later, rfl, hturn⟩

/--
A dispatch acts only once it has been logged, and a call is followed by all that the reply to it does, which
comes to an end in a run that returns.
-/
def Attended (returned : Prop) (b : Bench) (later : List Happening) : Happening → Prop
  | .asked x =>
    let r := b.reply x.entry.slot x.action
    x.turn < b.log.size ∧ ∃ depth, r.1.Ensues (invoke depth) (history depth) r.2 x later ∧
      (returned → (r.1.run (invoke depth) r.2).isSome = true)
  | .skipped x | .ended x _ => x.turn < b.log.size
  | .applied turn _ => turn < b.log.size
  | .logged _ | .installed .. | .removed _ => True

variable {returned : Prop} {b : Bench} {hs hs' : List Happening}

theorem Attended.append {h : Happening} (ha : b.Attended True hs h) (hs' : List Happening) :
    b.Attended returned (hs ++ hs') h := by
  cases h with
  | asked x =>
    obtain ⟨hturn, depth, hensues, hreturned⟩ := ha
    refine ⟨hturn, depth, ?_, fun _ => hreturned trivial⟩
    obtain ⟨⟨outcome, c⟩, hrun⟩ := Option.isSome_iff_exists.1 (hreturned trivial)
    simp only [Script.Ensues, hrun] at hensues ⊢
    exact hensues.trans (List.prefix_append ..)
  | skipped x => exact ha
  | ended x outcome => exact ha
  | applied turn a => exact ha
  | logged a => trivial
  | installed label reactor p => trivial
  | removed label => trivial

end Bench

structure Invoke.Attentive (invoke : Invoke) (recount : Recount) : Prop where
  leads : invoke.Recounted recount
  attends : ∀ returned b a, (returned → (invoke b a).isSome = true) →
    b.Throughout (Bench.Attended returned) (recount b a)

theorem Script.history_attends {invoke : Invoke} {recount : Recount}
    (hi : invoke.Attentive recount) {returned : Prop} (s : Script) (b : Bench)
    (hs : returned → (s.run invoke b).isSome = true) :
    b.Throughout (Bench.Attended returned) (s.history invoke recount b) := by
  fun_induction Script.run invoke s b with
  | case1 b outcome => trivial
  | case2 action next b hn =>
    simp only [Script.history, hn, List.append_nil]
    refine hi.attends returned b action fun hr => ?_
    cases hs hr
  | case3 action next b result c hc ih =>
    simp only [Script.history, hc]
    refine (hi.attends True b action fun _ => Option.isSome_of_eq_some hc).append ?_
      fun _ _ _ _ ha => ha.append _
    rw [hi.leads _ _ _ _ hc]
    exact ih hs
  | case4 label reactor placement next b ih => exact ⟨trivial, ih hs⟩
  | case5 label next b ih => exact ⟨trivial, ih hs⟩
  | case6 b next ih => exact ih hs

namespace Bench

variable {returned : Prop} {depth : Nat}

section Depth

variable (hi : (invoke depth).Attentive (history depth))

include hi

theorem reaction_attends {b c : Bench} {x : Offer} {outcome : Outcome} {later : List Happening}
    (hx : x.turn < b.log.size)
    (hr : b.react (invoke depth) x.entry.slot x.action = some (outcome, c))
    (hlater : c.Throughout (Attended returned) later) :
    b.Throughout (Attended returned)
      (b.reaction (invoke depth) (history depth) x ++ .ended x outcome :: later) := by
  have hlead := after_reaction hi.leads (o := x) hr
  have hgrow := b.after_log_le (b.reaction (invoke depth) (history depth) x)
  rw [hlead] at hgrow
  rw [react_eq_reply] at hr
  have hends := Script.after_history hi.leads hr
  have hreply : Throughout (Attended True) _ _ :=
    Script.history_attends hi _ _ fun _ => Option.isSome_of_eq_some hr
  have hended : c.Throughout (Attended returned) (.ended x outcome :: later) :=
    ⟨Nat.lt_of_lt_of_le hx hgrow, hlater⟩
  refine ⟨⟨hx, depth, ?_, fun _ => Option.isSome_of_eq_some hr⟩, ?_⟩
  · simp only [Script.Ensues, hr]
    exact ⟨later, by simp⟩
  · refine hreply.append ?_ fun _ _ _ _ ha => ha.append _
    rw [hends]
    exact hended

theorem course_attends {turn : Nat} {a : Action} {entries : List Installation} {b : Bench}
    (ht : turn < b.log.size)
    (hr : returned → (b.consult (invoke depth) a (entries.map (·.slot))).isSome = true) :
    b.Throughout (Attended returned) (b.course (invoke depth) (history depth) turn a entries) := by
  fun_induction Bench.course (invoke depth) (history depth) turn a entries b with
  | case1 b => exact ⟨ht, trivial⟩
  | case2 entry rest b x hh hn =>
    have hcut : ¬ returned := by
      intro hret
      have := hr hret
      simp [consult, hh, hn] at this
    rw [react_eq_reply] at hn
    refine ⟨⟨ht, depth, ?_, fun hret => absurd hret hcut⟩,
      Script.history_attends hi _ _ fun hret => absurd hret hcut⟩
    simp only [Script.Ensues, x, hn]
  | case3 entry rest b x hh outcome c hc result _ =>
    exact reaction_attends hi (x := x) ht hc trivial
  | case4 entry rest b x hh outcome c hc hpass ih =>
    have hgrow := b.after_log_le (b.reaction (invoke depth) (history depth) x)
    rw [after_reaction hi.leads (o := x) hc] at hgrow
    exact reaction_attends hi (x := x) ht hc
      (ih (Nat.lt_of_lt_of_le ht hgrow) (by simpa [consult, hh, hc, hpass] using hr))
  | case5 entry rest b x hh ih => exact ⟨ht, ih ht (by simpa [consult, hh] using hr)⟩

end Depth

theorem history_attentive (depth : Nat) : (invoke depth).Attentive (history depth) := by
  induction depth with
  | zero => exact ⟨after_history 0, fun _ _ _ _ => trivial⟩
  | succ depth ih =>
    refine ⟨after_history (depth + 1), fun returned b a hr => ⟨trivial, ?_⟩⟩
    rw [invoke_isSome] at hr
    exact course_attends ih (by simp [undergo, record]) hr

theorem handles_of_override {b : Bench} {slot : Nat} {o : Override Script}
    (h : b.override? slot = some o) (a : Action) : b.handles slot a = o.filter.handles a := by
  simp only [handles, override_eq h, Reactor.handles]

section History

variable {depth : Nat} {s : Script} {b : Bench} {earlier later : List Happening} {x : Offer}

theorem call_ensues {o : Override Script}
    (hs : s.history (invoke depth) (history depth) b = earlier ++ .asked x :: later)
    (ho : (b.after earlier).override? x.entry.slot = some o) :
    o.filter.handles x.action = true ∧
      let c := b.after (earlier ++ [.asked x])
      ∃ depth', (o.reply x.action).Ensues (invoke depth') (history depth') c x later ∧
        ((s.run (invoke depth) b).isSome = true →
          ((o.reply x.action).run (invoke depth') c).isSome = true) := by
  have hi := history_followed ((s.run (invoke depth) b).isSome = true) depth
  have happ : b.Throughout (Apt _) _ := s.history_apt hi b id
  have hattends : b.Throughout (Attended _) _ := s.history_attends (history_attentive depth) b id
  rw [hs] at happ hattends
  have hhandles : (b.after earlier).handles x.entry.slot x.action = true := happ.at
  obtain ⟨-, depth', hensues, hreturned⟩ := hattends.at
  rw [reply_script, ho, Option.elim_some] at hensues hreturned
  rw [handles_of_override ho] at hhandles
  refine ⟨hhandles, depth', ?_⟩
  rw [after_concat]
  exact ⟨hensues, hreturned⟩

theorem skip_unhandled {o : Override Script}
    (hs : s.history (invoke depth) (history depth) b = earlier ++ .skipped x :: later)
    (ho : (b.after earlier).override? x.entry.slot = some o) : o.filter.handles x.action = false := by
  have happ := s.history_apt (history_followed False depth) b False.elim
  rw [hs] at happ
  rw [← handles_of_override ho]
  exact happ.at

theorem doings_after_claim {outcome : Outcome}
    (hs : s.history (invoke depth) (history depth) b = earlier ++ .ended x outcome :: later)
    (hc : outcome.claim?.isSome = true) : doings x.turn later = [] := by
  have hi := history_followed False depth
  have happ := s.history_apt hi b False.elim
  have hattends := s.history_attends (history_attentive depth) b False.elim
  rw [hs] at happ hattends
  have hrecent : b.log.size ≤ x.turn := by
    refine s.history_recent hi b x.turn ?_
    rw [hs]
    simp [turns, Happening.turn?]
  have hlogged : x.turn < (b.after earlier).log.size := hattends.at
  -- what is left of the history is the rest of the walk that this dispatch is on
  obtain ⟨before, a, between, rfl, hturn⟩ := exists_logged hrecent hlogged
  rw [List.append_assoc, List.cons_append] at happ
  have hwalk : Walk _ _ a _ (doings _ (between ++ .ended x outcome :: later)) := happ.at
  have hdoings : doings x.turn (between ++ .ended x outcome :: later) =
      doings x.turn between ++ .ended x outcome :: doings x.turn later := by
    simp [doings, Happening.turn?]
  rw [hturn] at hwalk
  exact hwalk.settled hdoings hc

end History

/--
A limited reactor reacts to the first calls it gets, in the order in which they begin, and passes on all
later ones, also when its own reactions lead back to it.
-/
theorem limit_counts_calls_as_they_begin {depth : Nat} {s : Script} {b : Bench}
    {before since : List Happening} {slot n : Nat} {o : Override Script}
    (hs : s.history (invoke depth) (history depth) b = before ++ since)
    (ho : (b.after before).override? slot = some o) (hn : o.limit = some n)
    (hfresh : o.offered = 0) :
    (∀ outcome c, s.run (invoke depth) b = some (outcome, c) → b.after (before ++ since) = c) ∧
      (∀ meanwhile later, since = meanwhile ++ later →
        ((b.after (before ++ meanwhile)).override? slot).map (·.reacted) =
          some (min n (calls slot meanwhile))) ∧
      (∀ meanwhile x later, since = meanwhile ++ .asked x :: later → x.entry.slot = slot →
        let k := calls slot meanwhile
        let c := b.after (before ++ meanwhile ++ [.asked x])
        o.filter.handles x.action = true ∧
          (k < n → ∃ depth',
            (o.reaction k x.action).Ensues (invoke depth') (history depth') c x later ∧
              ((s.run (invoke depth) b).isSome = true →
                ((o.reaction k x.action).run (invoke depth') c).isSome = true)) ∧
          (n ≤ k → ∃ later', later = .ended x .pass :: later')) ∧
      (∀ meanwhile x later, since = meanwhile ++ .skipped x :: later → x.entry.slot = slot →
        o.filter.handles x.action = false) ∧
      ∀ meanwhile x outcome later, since = meanwhile ++ .ended x outcome :: later →
        outcome.claim?.isSome = true → doings x.turn later = [] := by
  have hnow (meanwhile : List Happening) :
      (b.after (before ++ meanwhile)).override? slot = some (o.offer (calls slot meanwhile)) := by
    rw [after_append]
    exact override_after ho meanwhile
  refine ⟨fun outcome c hc => ?_, fun meanwhile later _ => ?_, ?_, ?_, ?_⟩
  · rw [← hs]
    exact Script.after_history (after_history depth) hc
  · rw [hnow, Option.map_some, Override.reacted_offer hn hfresh]
  · intro meanwhile x later he hx k c
    rw [he, ← List.append_assoc] at hs
    have hat : (b.after (before ++ meanwhile)).override? x.entry.slot = some (o.offer k) := by
      rw [hx, hnow]
    obtain ⟨hhandles, depth', hensues, hreturned⟩ := call_ensues hs hat
    refine ⟨hhandles, fun hk => ?_, fun hk => ?_⟩
    · rw [Override.reply_within hn hfresh hk] at hensues hreturned
      exact ⟨depth', hensues, hreturned⟩
    · rw [Override.reply_beyond hn hfresh hk] at hensues
      obtain ⟨later', hlater⟩ := hensues
      exact ⟨later', hlater.symm⟩
  · intro meanwhile x later he hx
    rw [he, ← List.append_assoc] at hs
    have hat : (b.after (before ++ meanwhile)).override? x.entry.slot =
        some (o.offer (calls slot meanwhile)) := by rw [hx, hnow]
    have hskip := skip_unhandled hs hat
    rwa [Override.offer_filter] at hskip
  · intro meanwhile x outcome later he hc
    rw [he, ← List.append_assoc] at hs
    exact doings_after_claim hs hc

def rebound : Override Script where
  filter := .ofVerb "create"
  reaction := fun _ _ => .invoke (creation "b") fun _ => .done (.answer .empty)
  limit := some 2

def rebounding : Bench where
  reporter := ⟨"case"⟩
  reactors := #[.override rebound]
  chain := [⟨0, 0⟩]
  issued := 1

def creations : Script :=
  .invoke (creation "a") fun _ => .invoke (creation "c") fun _ => .done .pass

def rebounds : List Happening := creations.history (invoke 4) (history 4) rebounding

theorem rebound_reacts_twice :
    calls 0 (rebounds.take 4) = 2 ∧
      ((rebounding.after (rebounds.take 4)).override? 0).map (·.reacted) = some 2 ∧
      calls 0 rebounds = 4 ∧ ((rebounding.after rebounds).override? 0).map (·.reacted) = some 2 := by
  have hcalls : calls 0 (rebounds.take 4) = 2 := by decide +kernel
  have hall : calls 0 rebounds = 4 := by decide +kernel
  have hfresh : (rebounding.after []).override? 0 = some rebound := rfl
  have hhistory : creations.history (invoke 4) (history 4) rebounding = [] ++ rebounds := rfl
  obtain ⟨-, hreacted, -⟩ := limit_counts_calls_as_they_begin hhistory hfresh rfl rfl
  refine ⟨hcalls, ?_, hall, ?_⟩
  · rw [← List.nil_append (rebounds.take 4), hreacted _ _ (List.take_append_drop 4 rebounds).symm,
      hcalls]
    rfl
  · rw [← List.nil_append rebounds, hreacted _ _ (List.append_nil rebounds).symm, hall]
    rfl

end Bench

end ControllerBench
