import ControllerBench.Proofs.Dispatch.History
import ControllerBench.Reaction

namespace ControllerBench

/--
What the dispatch `turn` of an action does about the installations it has before it. It stops short of a
reaction's end only in a run that has no result.
-/
inductive Walk (returned : Prop) (turn : Nat) (a : Action) :
    List Installation → List Happening → Prop
  | through : Walk returned turn a [] [.applied turn a]
  | skip {entry : Installation} {rest : List Installation} {hs : List Happening} :
      Walk returned turn a rest hs →
        Walk returned turn a (entry :: rest) (.skipped ⟨turn, a, entry⟩ :: hs)
  | pass {entry : Installation} {rest : List Installation} {hs : List Happening} {outcome : Outcome} :
      outcome.claim? = none → Walk returned turn a rest hs →
        Walk returned turn a (entry :: rest)
          (.asked ⟨turn, a, entry⟩ :: .ended ⟨turn, a, entry⟩ outcome :: hs)
  | claim {entry : Installation} {rest : List Installation} {outcome : Outcome}
      {result : Except Error Response} : outcome.claim? = some result →
        Walk returned turn a (entry :: rest)
          [.asked ⟨turn, a, entry⟩, .ended ⟨turn, a, entry⟩ outcome]
  | cut {entry : Installation} {rest : List Installation} : ¬ returned →
      Walk returned turn a (entry :: rest) [.asked ⟨turn, a, entry⟩]

namespace Happening

def turns (hs : List Happening) : List Nat := hs.filterMap turn?

def asked? : Happening → Option Installation
  | asked o => some o.entry
  | logged _ | skipped _ | ended .. | applied .. | installed .. | removed _ => none

def doings (n : Nat) (hs : List Happening) : List Happening := hs.filter (·.turn? = some n)

theorem turns_append (hs hs' : List Happening) : turns (hs ++ hs') = turns hs ++ turns hs' :=
  List.filterMap_append

theorem doings_append (n : Nat) (hs hs' : List Happening) :
    doings n (hs ++ hs') = doings n hs ++ doings n hs' := List.filter_append ..

theorem doings_eq_nil {n : Nat} {hs : List Happening} (h : n ∉ turns hs) : doings n hs = [] := by
  simpa [doings, turns] using h

end Happening

open Happening (turns doings)

theorem Walk.asked_sublist {returned : Prop} {turn : Nat} {a : Action}
    {entries : List Installation} {hs : List Happening} (h : Walk returned turn a entries hs) :
    (hs.filterMap Happening.asked?).Sublist entries := by
  induction h with
  | through => exact .slnil
  | skip _ ih => exact ih.cons _
  | pass _ _ ih => exact ih.cons_cons _
  | claim _ => exact (List.nil_sublist _).cons_cons _
  | cut _ => exact (List.nil_sublist _).cons_cons _

namespace Bench

/-- What holds of a happening at its moment, given what happens later. -/
def Apt (returned : Prop) (b : Bench) (later : List Happening) : Happening → Prop
  | .logged a => Walk returned b.log.size a b.chain (doings b.log.size later)
  | .skipped o => b.handles o.entry.slot o.action = false
  | .asked o => b.handles o.entry.slot o.action = true
  | .ended .. | .applied .. | .installed .. | .removed _ => True

variable {returned : Prop} {b : Bench} {hs hs' : List Happening}

theorem Apt.append {h : Happening} (ha : b.Apt returned hs h)
    (hn : ∀ n ∈ turns hs', n < b.log.size ∨ (b.undergo h).log.size ≤ n) :
    b.Apt returned (hs ++ hs') h := by
  cases h with
  | logged a =>
    have hnone : doings b.log.size hs' = [] := by
      refine Happening.doings_eq_nil fun hm => ?_
      have hsize := b.undergo_log (.logged a)
      have := hn _ hm
      simp only [if_true] at hsize
      omega
    rw [Apt, Happening.doings_append, hnone, List.append_nil]
    exact ha
  | skipped o => exact ha
  | asked o => exact ha
  | ended o outcome => trivial
  | applied turn a => trivial
  | installed label reactor p => trivial
  | removed label => trivial

theorem Throughout.append_apt (h : b.Throughout (Apt returned) hs)
    (h' : (b.after hs).Throughout (Apt returned) hs')
    (hn : ∀ n ∈ turns hs', n < b.log.size ∨ (b.after hs).log.size ≤ n) :
    b.Throughout (Apt returned) (hs ++ hs') := by
  refine h.append h' fun earlier x later he ha => ha.append fun n hm => ?_
  have hgrow := b.after_log_le earlier
  have hgrow' := ((b.after earlier).undergo x).after_log_le later
  rw [← after_cons, ← after_append, ← he] at hgrow'
  have := hn n hm
  omega

end Bench

structure Invoke.Followed (returned : Prop) (invoke : Invoke) (recount : Recount) : Prop where
  leads : invoke.Recounted recount
  recent : ∀ b a, ∀ n ∈ turns (recount b a), b.log.size ≤ n
  apt : ∀ b a, (returned → (invoke b a).isSome = true) →
    b.Throughout (Bench.Apt returned) (recount b a)

section Invoke

variable {returned : Prop} {invoke : Invoke} {recount : Recount}
  (hi : invoke.Followed returned recount)

include hi

theorem Script.history_recent (s : Script) (b : Bench) :
    ∀ n ∈ turns (s.history invoke recount b), b.log.size ≤ n := by
  fun_induction Script.run invoke s b with
  | case1 b outcome => exact List.forall_mem_nil _
  | case2 action next b hn =>
    simp only [Script.history, hn, List.append_nil]
    exact hi.recent b action
  | case3 action next b result c hc ih =>
    simp only [Script.history, hc, Happening.turns_append]
    refine List.forall_mem_append.2 ⟨hi.recent b action, fun n hn => ?_⟩
    have hgrow := b.after_log_le (recount b action)
    rw [hi.leads _ _ _ _ hc] at hgrow
    exact Nat.le_trans hgrow (ih n hn)
  | case4 label reactor placement next b ih =>
    intro n hn
    exact Nat.le_trans (b.undergo_log_le (.installed label reactor placement)) (ih n hn)
  | case5 label next b ih =>
    intro n hn
    exact Nat.le_trans (b.undergo_log_le (.removed label)) (ih n hn)
  | case6 b next ih => exact ih

theorem Script.history_apt (s : Script) (b : Bench)
    (hs : returned → (s.run invoke b).isSome = true) :
    b.Throughout (Bench.Apt returned) (s.history invoke recount b) := by
  fun_induction Script.run invoke s b with
  | case1 b outcome => trivial
  | case2 action next b hn =>
    simp only [Script.history, hn, List.append_nil]
    refine hi.apt b action fun hr => ?_
    cases hs hr
  | case3 action next b result c hc ih =>
    simp only [Script.history, hc]
    have hlead := hi.leads _ _ _ _ hc
    refine (hi.apt b action fun _ => by rw [hc]; rfl).append_apt ?_ fun n hn => ?_
    · rw [hlead]
      exact ih hs
    · rw [hlead]
      exact .inr ((next result).history_recent hi c n hn)
  | case4 label reactor placement next b ih => exact ⟨trivial, ih hs⟩
  | case5 label next b ih => exact ⟨trivial, ih hs⟩
  | case6 b next ih => exact ih hs

namespace Bench

theorem reply_recent (b : Bench) (o : Offer) :
    let r := b.reply o.entry.slot o.action
    ∀ n ∈ turns (r.1.history invoke recount r.2), b.log.size ≤ n := by
  intro r n hn
  have hlog : r.2.log = b.log := (altersAt_reply b o.entry.slot o.action).log
  rw [← hlog]
  exact r.1.history_recent hi r.2 n hn

theorem reaction_recent (b : Bench) (o : Offer) :
    ∀ n ∈ turns (b.reaction invoke recount o), n = o.turn ∨ b.log.size ≤ n := by
  intro n hn
  rcases List.mem_cons.1 hn with rfl | hn
  · exact .inl rfl
  · exact .inr (reply_recent hi b o n hn)

theorem reaction_doings {b : Bench} {turn : Nat} (ht : turn < b.log.size) (a : Action)
    (entry : Installation) :
    doings turn (b.reaction invoke recount ⟨turn, a, entry⟩) = [.asked ⟨turn, a, entry⟩] := by
  have hnone := Happening.doings_eq_nil fun hm =>
    Nat.not_le_of_lt ht (reply_recent hi b ⟨turn, a, entry⟩ _ hm)
  rw [reaction, doings, List.filter_cons_of_pos (by simp [Happening.turn?])]
  exact congrArg (_ :: ·) hnone

theorem reaction_apt {b : Bench} {o : Offer} (hh : b.handles o.entry.slot o.action = true)
    (hr : returned → (b.react invoke o.entry.slot o.action).isSome = true) :
    b.Throughout (Apt returned) (b.reaction invoke recount o) := by
  rw [react_eq_reply] at hr
  exact ⟨hh, Script.history_apt hi _ _ hr⟩

theorem course_recent (turn : Nat) (a : Action) (entries : List Installation) (b : Bench) :
    ∀ n ∈ turns (b.course invoke recount turn a entries), n = turn ∨ b.log.size ≤ n := by
  fun_induction Bench.course invoke recount turn a entries b with
  | case1 b => simp [turns, Happening.turn?]
  | case2 entry rest b o hh hr => exact reaction_recent hi b o
  | case3 entry rest b o hh outcome d hr result hc =>
    rw [Happening.turns_append]
    refine List.forall_mem_append.2 ⟨reaction_recent hi b o, ?_⟩
    simp [turns, Happening.turn?, o]
  | case4 entry rest b o hh outcome d hr hc ih =>
    have hgrow := b.after_log_le (b.reaction invoke recount o)
    rw [after_reaction hi.leads (o := o) hr] at hgrow
    rw [Happening.turns_append]
    refine List.forall_mem_append.2 ⟨reaction_recent hi b o, fun n hn => ?_⟩
    rcases List.mem_cons.1 hn with rfl | hn
    · exact .inl rfl
    · exact (ih n hn).imp_right (Nat.le_trans hgrow)
  | case5 entry rest b o hh ih => exact List.forall_mem_cons.2 ⟨.inl rfl, ih⟩

theorem course_walk {turn : Nat} {a : Action} {entries : List Installation} {b : Bench}
    (ht : turn < b.log.size)
    (hr : returned → (b.consult invoke a (entries.map (·.slot))).isSome = true) :
    Walk returned turn a entries (doings turn (b.course invoke recount turn a entries)) := by
  fun_induction Bench.course invoke recount turn a entries b with
  | case1 b => simpa [doings, Happening.turn?] using Walk.through
  | case2 entry rest b o hh hn =>
    rw [reaction_doings hi ht]
    refine .cut fun hret => ?_
    have := hr hret
    simp [consult, hh, hn] at this
  | case3 entry rest b o hh outcome d hd result hc =>
    rw [Happening.doings_append, reaction_doings hi ht]
    simpa [doings, Happening.turn?, o] using Walk.claim hc
  | case4 entry rest b o hh outcome d hd hc ih =>
    have hgrow := b.after_log_le (b.reaction invoke recount o)
    rw [after_reaction hi.leads (o := o) hd] at hgrow
    have hrest := ih (Nat.lt_of_lt_of_le ht hgrow) (by simpa [consult, hh, hd, hc] using hr)
    rw [Happening.doings_append, reaction_doings hi ht]
    simpa [doings, Happening.turn?, o] using hrest.pass hc
  | case5 entry rest b o hh ih =>
    have hrest := ih ht (by simpa [consult, hh] using hr)
    simpa [doings, Happening.turn?, o] using hrest.skip

theorem course_apt {turn : Nat} {a : Action} {entries : List Installation} {b : Bench}
    (ht : turn < b.log.size)
    (hr : returned → (b.consult invoke a (entries.map (·.slot))).isSome = true) :
    b.Throughout (Apt returned) (b.course invoke recount turn a entries) := by
  fun_induction Bench.course invoke recount turn a entries b with
  | case1 b => exact ⟨trivial, trivial⟩
  | case2 entry rest b o hh hn =>
    refine reaction_apt hi hh fun hret => ?_
    have := hr hret
    simp [consult, hh, hn] at this
  | case3 entry rest b o hh outcome d hd result hc =>
    have happened := reaction_apt hi (o := o) hh fun _ => by rw [hd]; rfl
    refine happened.append_apt ⟨trivial, trivial⟩ fun n hn => .inl ?_
    obtain rfl : n = turn := by simpa [turns, Happening.turn?, o] using hn
    exact ht
  | case4 entry rest b o hh outcome d hd hc ih =>
    have hlead := after_reaction hi.leads (o := o) hd
    have hgrow := b.after_log_le (b.reaction invoke recount o)
    rw [hlead] at hgrow
    have happened := reaction_apt hi (o := o) hh fun _ => by rw [hd]; rfl
    have hrest := ih (Nat.lt_of_lt_of_le ht hgrow) (by simpa [consult, hh, hd, hc] using hr)
    refine happened.append_apt ?_ fun n hn => ?_
    · rw [hlead]
      exact ⟨trivial, hrest⟩
    · rw [hlead]
      rcases List.mem_cons.1 hn with rfl | hn
      · exact .inl ht
      · rcases course_recent hi turn a rest d n hn with rfl | hle
        · exact .inl ht
        · exact .inr hle
  | case5 entry rest b o hh ih =>
    have hskip : b.handles entry.slot a = false := by simpa using hh
    exact ⟨hskip, ih ht (by simpa [consult, hh] using hr)⟩

end Bench

end Invoke

theorem Bench.invoke_isSome (depth : Nat) (b : Bench) (a : Action) :
    (b.invoke (depth + 1) a).isSome =
      ((b.record a).consult (invoke depth) a (b.chain.map (·.slot))).isSome := by
  simp only [invoke]
  change _ = (consult (invoke depth) a ((b.record a).chain.map (·.slot)) (b.record a)).isSome
  split <;> simp [*]

theorem Bench.history_followed (returned : Prop) (depth : Nat) :
    Invoke.Followed returned (invoke depth) (history depth) := by
  induction depth with
  | zero =>
    refine ⟨after_history 0, fun b a => List.forall_mem_nil _, fun b a hr => trivial⟩
  | succ depth ih =>
    have hlt (b : Bench) (a : Action) : b.log.size < (b.record a).log.size := by
      simp [record]
    refine ⟨after_history (depth + 1), fun b a n hn => ?_, fun b a hr => ?_⟩
    · rcases course_recent ih b.log.size a b.chain (b.record a) n hn with rfl | h
      · exact Nat.le_refl _
      · exact Nat.le_trans (Nat.le_of_lt (hlt b a)) h
    · rw [invoke_isSome] at hr
      exact ⟨course_walk ih (hlt b a) hr, course_apt ih (hlt b a) hr⟩

namespace Bench

/--
A dispatch comes to the installations that were in the chain when its action had been logged, asks those
that handle the action at that moment, and ends with the first that claims it, whatever becomes of the chain
in between.
-/
theorem consults_chain_as_logged {b : Bench} (hb : b.Numbered) (depth : Nat) (s : Script) :
    let run := s.run (invoke depth) b
    let hs := s.history (invoke depth) (history depth) b
    (∀ outcome c, run = some (outcome, c) → b.after hs = c) ∧
      (∀ earlier a later, hs = earlier ++ .logged a :: later →
        let d := b.after earlier
        Walk (run.isSome = true) d.log.size a (d.record a).chain (doings d.log.size later)) ∧
      (∀ earlier o later, hs = earlier ++ .asked o :: later →
        (b.after earlier).handles o.entry.slot o.action = true) ∧
      (∀ earlier o later, hs = earlier ++ .skipped o :: later →
        (b.after earlier).handles o.entry.slot o.action = false) ∧
      (∀ earlier a meanwhile x later entry front,
        hs = earlier ++ .logged a :: (meanwhile ++ x :: later) →
          (b.after (earlier ++ .logged a :: meanwhile)).edit? x = some (.attached entry front) →
            ∀ i ∈ (doings (b.after earlier).log.size (meanwhile ++ x :: later)).filterMap
              Happening.asked?, i.id ≠ entry.id) ∧
      ∀ earlier later, hs = earlier ++ later →
        (b.after earlier).chain = Edit.remaining b.chain (b.edits earlier) ∧
          ((Edit.lineup b.chain (b.edits earlier)).map (·.id)).Nodup := by
  intro run hs
  have hi := history_followed (run.isSome = true) depth
  have happ : b.Throughout (Apt (run.isSome = true)) hs := s.history_apt hi b id
  have hwalk {earlier later : List Happening} {a : Action} (he : hs = earlier ++ .logged a :: later) :
      Walk (run.isSome = true) (b.after earlier).log.size a (b.after earlier).chain
        (doings (b.after earlier).log.size later) := (he ▸ happ).at
  refine ⟨fun outcome c hr => Script.after_history hi.leads hr, fun earlier a later he => hwalk he,
    fun earlier o later he => (he ▸ happ).at, fun earlier o later he => (he ▸ happ).at, ?_, ?_⟩
  · intro earlier a meanwhile x later entry front he hx i hasked
    have hold : i ∈ (b.after earlier).chain := (hwalk he).asked_sublist.subset hasked
    have hsince := (hb.edited.after earlier).numbered.edited.after (.logged a :: meanwhile)
    rw [← after_append, List.nil_append] at hsince
    have hlt := hsince.below i (Edit.mem_lineup hold _)
    rw [← edit_id hx] at hlt
    exact Nat.ne_of_lt hlt
  · intro earlier later _
    have hedited := hb.edited.after earlier
    exact ⟨hedited.chain, hedited.distinct⟩

/--
The first reactor removes the second one and installs another in front and once more behind; it takes the
latter installation back before it invokes a deletion.
-/
def unruly : Bench where
  reporter := ⟨"case"⟩
  reactors :=
    #[.override
        { filter := .ofVerb "create"
          reaction := fun _ _ =>
            .remove "second" fun _ =>
              .install "new" (some (.override { filter := .any, reaction := Reaction.pass }))
                { front := true } <|
                .install "new" none {} <|
                  .remove "new" fun _ => .invoke (deletion "a") fun _ => .done .pass },
      .override { filter := .ofVerb "create", reaction := fun _ _ => .done (.answer .empty) },
      .override { filter := .any, reaction := Reaction.pass }]
  chain := [⟨0, 0⟩, ⟨1, 1⟩, ⟨2, 2⟩]
  issued := 3
  labels := [("second", ⟨1, some 1⟩)]

theorem unruly_numbered : unruly.Numbered where
  distinct := by decide
  below := by decide
  labels := by
    intro p hp id hid
    obtain rfl : p = ("second", ⟨1, some 1⟩) := by simpa [unruly] using hp
    obtain rfl := Option.some.inj hid
    decide

def disturbance : List Happening :=
  (Script.invoke (creation "a") fun _ => .done .pass).history (invoke 3) (history 3) unruly

theorem removed_asked_and_installed_not :
    unruly.Numbered ∧ ∃ later, disturbance = .logged (creation "a") :: later ∧
      Walk True 0 (creation "a") unruly.chain (doings 0 later) ∧
      (doings 0 later).filterMap Happening.asked? = [⟨0, 0⟩, ⟨1, 1⟩] ∧
      (doings 1 later).filterMap Happening.asked? = [⟨3, 3⟩, ⟨2, 2⟩] ∧
      (unruly.after disturbance).chain = [⟨3, 3⟩, ⟨0, 0⟩, ⟨2, 2⟩] := by
  obtain ⟨-, hwalk, -, -, -, hchain⟩ :=
    consults_chain_as_logged unruly_numbered 3 (.invoke (creation "a") fun _ => .done .pass)
  have hfirst : disturbance = .logged (creation "a") :: disturbance.tail := by
    simp only [disturbance, Script.history, history, List.cons_append, List.tail_cons]
  have hreturned : ((Script.invoke (creation "a") fun _ => .done .pass).run (invoke 3)
      unruly).isSome = true := by decide +kernel
  have hfull := hwalk [] _ _ hfirst
  rw [eq_true hreturned] at hfull
  refine ⟨unruly_numbered, disturbance.tail, hfirst, hfull, by decide +kernel, by decide +kernel, ?_⟩
  rw [(hchain disturbance [] (List.append_nil _).symm).1]
  decide +kernel

end Bench

end ControllerBench
