import ControllerBench.Proofs.Dispatch.Shadow

namespace ControllerBench

/-- All calls that are made, nested ones included, in the order in which they began, each with its result. -/
def Invocation.calls (is : List Invocation) : List (Action × Option (Except Error Response)) :=
  (begunAll is).map fun i => (i.action, i.answer)

namespace Invocation

theorem calls_append (is js : List Invocation) : calls (is ++ js) = calls is ++ calls js := by
  rw [calls, begunAll_append, List.map_append]
  rfl

theorem calls_cons (i : Invocation) (is : List Invocation) : calls (i :: is) = calls [i] ++ calls is :=
  calls_append [i] is

theorem calls_singleton (i : Invocation) : calls [i] = (i.action, i.answer) :: calls i.nested := by
  rw [calls, begunAll_singleton]
  rfl

end Invocation

open Invocation (calls calls_append calls_cons calls_singleton)

variable {L : String → Prop} {slots ids slots₂ ids₂ : Places} {b b' : Bench}

namespace Bench

theorem ShadowsFrom.mono (h : b.ShadowsFrom L slots₂ ids₂ b') (hs : slots <+: slots₂)
    (hi : ids <+: ids₂) : b.ShadowsFrom L slots ids b' := by
  obtain ⟨slots', ids', hslots, hids, hb⟩ := h
  exact ⟨slots', ids', hs.trans hslots, hi.trans hids, hb⟩

def Concur {α : Type} (L : String → Prop) (slots ids : Places) (x x' : Option (α × Bench)) : Prop :=
  Option.Rel (fun y y' => y.1 = y'.1 ∧ y.2.ShadowsFrom L slots ids y'.2) x x'

theorem ShadowsFrom.next {c c' : Bench} (h : b.ShadowsFrom L slots ids b')
    (hnext : ∀ slots' ids', b.Shadows L slots' ids' b' → c.ShadowsFrom L slots' ids' c') :
    c.ShadowsFrom L slots ids c' := by
  obtain ⟨slots', ids', hslots, hids, hb⟩ := h
  exact (hnext slots' ids' hb).mono hslots hids

end Bench

open Bench (Concur)

/-- Invoking an action comes to the same with observers besides. -/
def Invoke.Undisturbed (L : String → Prop) (invoke : Invoke) (note : Bench → Action → Invocation) :
    Prop :=
  ∀ slots ids (b b' : Bench) a, b.ShadowsFrom L slots ids b' →
    Concur L slots ids (invoke b a) (invoke b' a) ∧ calls [note b a] = calls [note b' a]

section Invoke

variable {invoke : Invoke} {note : Bench → Action → Invocation} (hi : invoke.Undisturbed L note)

include hi

theorem Script.Watched.run {s s' : Script} (hs : s.Watched L s') (h : b.ShadowsFrom L slots ids b') :
    Concur L slots ids (s.run invoke b) (s'.run invoke b') ∧
      calls (s.invocations invoke note b) = calls (s'.invocations invoke note b') := by
  induction hs generalizing b b' with
  | done => exact ⟨.some ⟨rfl, h⟩, rfl⟩
  | @invoke action next next' _ ih =>
    obtain ⟨hresult, hcalls⟩ := hi slots ids b b' action h
    simp only [Script.run, Script.invocations]
    rw [calls_cons, calls_cons (note b' action), hcalls]
    generalize invoke b action = x, invoke b' action = x' at hresult
    cases hresult with
    | none => exact ⟨.none, rfl⟩
    | @some y y' hyy =>
      obtain ⟨result, c⟩ := y
      obtain ⟨result', c'⟩ := y'
      obtain ⟨rfl, hc⟩ := hyy
      obtain ⟨hrun, hmore⟩ := ih result hc
      exact ⟨hrun, congrArg _ hmore⟩
  | @install label reactor placement next next' hn hr _ ih =>
    refine ih (h.next fun _ _ hb => ?_)
    cases reactor with
    | none => exact hb.install_again hn placement
    | some r => exact hb.install_shared hn (.observer hr) placement
  | override hn hreaction _ _ ih =>
    exact ih (h.next fun _ _ hb => hb.install_shared hn (.override hreaction) _)
  | @remove label next next' hn _ ih =>
    have hwas : (b.remove label).1 = (b'.remove label).1 := by
      obtain ⟨_, _, _, _, hb⟩ := h
      exact (hb.remove_shared hn).1
    simp only [Script.run, Script.invocations, hwas]
    exact ih _ (h.next fun _ _ hb => (hb.remove_shared hn).2.from_here)
  | pause _ ih => exact ih h
  | observe hn hr _ ih => exact ih (h.next fun _ _ hb => hb.install_own hn hr _)
  | dismiss hn _ ih => exact ih _ (h.next fun _ _ hb => (hb.remove_own hn).from_here)

/-- Observers are consulted besides, but they claim nothing. -/
theorem Entwined.consult {a : Action} {xs xs' : List Installation} (hx : Entwined slots ids xs xs')
    (h : b.ShadowsFrom L slots ids b') :
    Concur L slots ids (b.consult invoke a (xs.map (·.slot))) (b'.consult invoke a (xs'.map (·.slot))) ∧
      calls (b.hearing invoke note a (xs.map (·.slot))).2 =
        calls (b'.hearing invoke note a (xs'.map (·.slot))).2 := by
  induction hx generalizing b b' with
  | nil => exact ⟨.some ⟨rfl, h⟩, rfl⟩
  | @shared x x' rest rest' hslot _ _ ih =>
    obtain ⟨hhandles, hreact, hcalls⟩ : b.handles x.slot a = b'.handles x'.slot a ∧
        Concur L slots ids (b.react invoke x.slot a) (b'.react invoke x'.slot a) ∧
        calls ((b.reply x.slot a).1.invocations invoke note (b.reply x.slot a).2) =
          calls ((b'.reply x'.slot a).1.invocations invoke note (b'.reply x'.slot a).2) := by
      obtain ⟨slots', ids', hslots, hids, hb⟩ := h
      obtain ⟨hhandles, hscript, hreply⟩ :=
        hb.reply_shared (Places.getElem?_of_prefix hslots hslot) a
      rw [Bench.react_eq_reply, Bench.react_eq_reply]
      exact ⟨hhandles, hscript.run hi (hreply.from_here.mono hslots hids)⟩
    simp only [List.map_cons, Bench.consult, Bench.hearing, hhandles]
    split
    · generalize b.react invoke x.slot a = y, b'.react invoke x'.slot a = y' at hreact
      cases hreact with
      | none => exact ⟨.none, hcalls⟩
      | @some y y' hyy =>
        obtain ⟨outcome, c⟩ := y
        obtain ⟨outcome', c'⟩ := y'
        obtain ⟨rfl, hc⟩ := hyy
        cases hclaim : outcome.claim? with
        | some result =>
          simp only [hclaim, Option.isSome_some, if_true]
          exact ⟨.some ⟨rfl, hc⟩, hcalls⟩
        | none =>
          obtain ⟨hrest, hmore⟩ := ih hc
          simp only [hclaim, Option.isSome_none, Bool.false_eq_true, if_false]
          rw [calls_append, calls_append, hcalls, hmore]
          exact ⟨hrest, rfl⟩
    · exact ih h
  | @own x' rest rest' hslot _ _ ih =>
    obtain ⟨hscript, hreply⟩ : (b'.reply x'.slot a).1 = .done .pass ∧
        b.ShadowsFrom L slots ids (b'.reply x'.slot a).2 := by
      obtain ⟨slots', ids', hslots, hids, hb⟩ := h
      obtain ⟨hscript, hreply⟩ := hb.reply_own (Places.getElem?_of_prefix hslots hslot) a
      exact ⟨hscript, hreply.from_here.mono hslots hids⟩
    simp only [List.map_cons, Bench.consult, Bench.hearing, Bench.react_eq_reply, hscript, Script.run,
      Script.invocations]
    split
    · exact ih hreply
    · exact ih h

end Invoke

theorem undisturbed_invoke (depth : Nat) :
    Invoke.Undisturbed L (Bench.invoke depth) (Bench.invocation depth) := by
  induction depth with
  | zero =>
    intro slots ids b b' a _
    exact ⟨.none, rfl⟩
  | succ depth ih =>
    intro slots ids b b' a ⟨slots', ids', hslots, hids, hb⟩
    have hrecord := hb.record a
    obtain ⟨hconsult, hcalls⟩ := hrecord.aligned.chain.consult ih (a := a) hrecord.from_here
    have hinvoke : Concur L slots' ids' (b.invoke (depth + 1) a) (b'.invoke (depth + 1) a) := by
      simp only [Bench.invoke]
      generalize (b.record a).consult (Bench.invoke depth) a ((b.record a).chain.map (·.slot)) = y,
        (b'.record a).consult (Bench.invoke depth) a ((b'.record a).chain.map (·.slot)) = y' at hconsult
      cases hconsult with
      | none => exact .none
      | @some y y' hyy =>
        obtain ⟨claim, c⟩ := y
        obtain ⟨claim', c'⟩ := y'
        obtain ⟨rfl, hc⟩ := hyy
        cases claim with
        | some result => exact .some ⟨rfl, hc⟩
        | none =>
          obtain ⟨_, _, hs, hi, hd⟩ := hc
          obtain ⟨hsame, happly⟩ := hd.apply a
          exact .some ⟨hsame, happly.from_here.mono hs hi⟩
    refine ⟨rel_mono hinvoke fun _ _ hyy => ⟨hyy.1, hyy.2.mono hslots hids⟩, ?_⟩
    have hanswer : (b.invoke (depth + 1) a).map (·.1) = (b'.invoke (depth + 1) a).map (·.1) := by
      generalize b.invoke (depth + 1) a = y, b'.invoke (depth + 1) a = y' at hinvoke
      cases hinvoke with
      | none => rfl
      | some h => exact congrArg some h.1
    rw [calls_singleton, calls_singleton, Bench.invocation, Bench.invocation, hanswer]
    exact congrArg _ hcalls

/-- What there is to see of a run from outside: its end, its calls, the store, and how often each override reacted. -/
structure Account where
  outcome : Outcome
  calls : List (Action × Option (Except Error Response))
  log : Array Action
  tracker : Tracker
  events : Array WatchEvent
  reacted : List Nat

def Script.account (depth : Nat) (s : Script) (b : Bench) : Option Account :=
  (s.run (Bench.invoke depth) b).map fun r =>
    { outcome := r.1
      calls := calls (s.invocations (Bench.invoke depth) (Bench.invocation depth) b)
      log := r.2.log
      tracker := r.2.tracker
      events := r.2.events
      reacted := r.2.reactors.toList.filterMap (·.reacted?) }

theorem Bench.shadows_self {b : Bench} (hr : b.reactors = #[]) (hc : b.chain = [])
    (hl : b.labels = []) (hi : b.issued = 0) : b.Shadows L [] [] b where
  store := ⟨rfl, rfl, rfl⟩
  reporter := rfl
  reactors := ⟨by rw [hr]; rfl, by rw [hr]; rfl, nofun⟩
  order := by rw [hi]; rfl
  count := hi.symm
  aligned := ⟨hc ▸ .nil, fun label _ => by rw [hl]; exact .none, fun label l' _ h => by rw [hl] at h; cases h⟩

namespace Script

/--
Whatever a program does, it does the same with observers besides, down to the calls that reactions make.
-/
theorem observers_do_not_interfere {s s' : Script} (hs : s.Watched L s') (depth : Nat)
    (reporter : Reporter) (tracker : Tracker) :
    s'.account depth { reporter, tracker } = s.account depth { reporter, tracker } := by
  have hself : ({ reporter, tracker } : Bench).Shadows L [] [] { reporter, tracker } :=
    Bench.shadows_self rfl rfl rfl rfl
  obtain ⟨hrun, hcalls⟩ := hs.run (undisturbed_invoke depth) hself.from_here
  unfold account
  rw [hcalls]
  generalize s.run (Bench.invoke depth) { reporter, tracker } = y,
    s'.run (Bench.invoke depth) { reporter, tracker } = y' at hrun
  cases hrun with
  | none => rfl
  | @some y y' hyy =>
    obtain ⟨houtcome, slots, ids, -, -, hb⟩ := hyy
    simp only [Option.map_some, houtcome, hb.store.log, hb.store.tracker, hb.store.events,
      hb.reactors.reacted]

def guard : Override Script where
  filter := .ofVerb "delete"
  reaction := fun _ _ => .done (.answer .empty)
  limit := some 1

def echo (look : Script → Script) : Override Script where
  filter := .ofVerb "create"
  reaction := fun _ _ => look (.invoke (Bench.creation "b") fun _ => .done .pass)
  limit := some 1

def errand : Script :=
  .install "guard" (some (.override guard)) {} <|
    .install "echo" (some (.override (echo id))) {} <|
      (Call.create Bench.jobs (Bench.job "a")).script fun _ =>
        (Call.delete Bench.jobs "ns" "a").script fun _ => .remove "echo" fun _ => .done .pass

def onlooker : Reactor Script :=
  .verifier (.sequence [.all [.seen (.ofVerb "create"), .seen (.ofVerb "create")],
    .passes (.ofVerb "delete") (Check.failing "unexpected")]) false

def spy : Reactor Script := .assertion (.expect (.ofVerb "create") .seen)

def watchedErrand : Script :=
  .install "guard" (some (.override guard)) {} <|
    .install "onlooker" (some onlooker) { front := true } <|
      .install "echo" (some (.override (echo (.install "spy" (some spy) {})))) {} <|
        (Call.create Bench.jobs (Bench.job "a")).script fun _ =>
          .remove "spy" fun _ => .install "onlooker" none {} <|
            (Call.delete Bench.jobs "ns" "a").script fun _ => .remove "echo" fun _ => .done .pass

theorem errand_watched : errand.Watched (· ∈ ["onlooker", "spy"]) watchedErrand := by
  refine .override (by decide) (fun _ _ => .done) (.observe (by decide) rfl ?_)
  refine .override (by decide) (fun _ _ => .observe (by decide) rfl (.invoke fun _ => .done)) ?_
  refine .invoke fun _ => .dismiss (by decide) fun _ => .observe (by decide) rfl ?_
  exact .invoke fun _ => .remove (by decide) fun _ => .done

theorem watched_errand_goes_the_same :
    ∃ account, errand.account 3 { reporter := ⟨"case"⟩ } = some account ∧
      watchedErrand.account 3 { reporter := ⟨"case"⟩ } = some account ∧
      account.calls.length = 3 ∧ account.reacted = [1, 1] := by
  obtain ⟨account, hrun, hp⟩ := (Option.any_eq_true ..).1 (by decide +kernel :
    (errand.account 3 { reporter := ⟨"case"⟩ }).any (fun x =>
      decide (x.calls.length = 3 ∧ x.reacted = [1, 1])) = true)
  obtain ⟨hcalls, hreacted⟩ := of_decide_eq_true hp
  have hsame := observers_do_not_interfere errand_watched 3 ⟨"case"⟩ .empty
  exact ⟨account, hrun, hsame.trans hrun, hcalls, hreacted⟩

end Script

end ControllerBench
