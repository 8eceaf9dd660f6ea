import ControllerBench.Proofs.Delivery.Moves
import ControllerBench.Proofs.Dispatch.Amending
import ControllerBench.Proofs.Judging.Upheld
import ControllerBench.Proofs.Judging.Course
import ControllerBench.Reaction

namespace ControllerBench

namespace Simulation

/-- What a task's next step does to the chain; only a reconcile pass can do anything. -/
def taskEdits (depth : Nat) (s : Simulation) : Task → List Edit
  | .router => []
  | .controller i =>
    match s.controllers[i]? with
    | none => []
    | some c =>
      match c.phase, c.queue with
      | .running, r :: _ =>
        if s.cancelled then []
        else
          s.bench.edits ((c.reconciler.reconcile c.taken.size r).history (Bench.invoke depth)
            (Bench.history depth) s.bench)
      | _, _ => []

theorem router_bench {s s' : Simulation} (h : s.RouterMove s') : s'.bench = s.bench := by
  cases h <;> rfl

theorem amends_step {depth : Nat} {s s' : Simulation} {task : Task} (hr : s.canRun task = true)
    (h : s.step depth task = some s') : s.bench.Amends (s.taskEdits depth task) s'.bench := by
  cases task with
  | router =>
    obtain ⟨-, hmove⟩ := router_runs hr h
    rw [router_bench hmove]
    exact .refl _
  | controller i =>
    obtain ⟨c, hc, hturn⟩ := controller_runs hr h
    simp only [taskEdits, hc]
    cases hturn with
    | enter hphase _ =>
      simp only [hphase]
      exact .refl _
    | quit _ hcancelled =>
      simp only [hcancelled, if_true]
      split <;> exact .refl _
    | pass hphase hcancelled hqueue hrun =>
      simp only [hphase, hcancelled, hqueue, Bool.false_eq_true, if_false]
      exact Bench.amends_run hrun

end Simulation

namespace Schedule

def settleEdits (depth : Nat) : Nat → Schedule → List Edit
  | 0, _ => []
  | fuel + 1, t =>
    match t.ready with
    | [] => []
    | task :: rest =>
      if t.sim.canRun task then
        t.sim.taskEdits depth task ++
          match t.sim.step depth task with
          | none => []
          | some sim => settleEdits depth fuel (wake { t with sim })
      else settleEdits depth fuel { t with ready := rest }

def sleepEdits (fuel : Nat) (length : Duration) (t : Schedule) : List Edit :=
  if length.nanos = 0 then [] else t.settleEdits fuel fuel

def driveEdits (fuel : Nat) : Script → Schedule → List Edit
  | .done _, _ => []
  | .invoke action next, t =>
    t.bench.edits (Bench.history fuel t.bench action) ++
      match t.invoke fuel action with
      | .ok (result, t) => driveEdits fuel (next result) t
      | .error _ => []
  | .install label reactor placement next, t =>
    (t.bench.installment? label reactor placement).toList ++
      driveEdits fuel next (t.setBench (t.bench.install label reactor placement))
  | .remove label next, t =>
    (t.bench.detachment? label).toList ++
      driveEdits fuel (next (t.bench.remove label).1) (t.setBench (t.bench.remove label).2)
  | .pause next, t =>
    t.settleEdits fuel fuel ++
      match t.settle fuel with
      | .ok t => driveEdits fuel next t
      | .error _ => []

def waitEdits (fuel : Nat) (t : Schedule) (slot : Nat) (timeout : Duration) : List Edit :=
  match t.bench.reactors[slot]? with
  | some (.verifier v waited) =>
    if waited || v.fired then []
    else (t.setBench (t.bench.setReactor slot (.verifier v true))).sleepEdits fuel timeout
  | _ => []

variable {fuel : Nat} {t t' : Schedule}

theorem amends_settleWithin {depth : Nat} (h : t.settleWithin depth fuel = some t') :
    t.bench.Amends (t.settleEdits depth fuel) t'.bench := by
  fun_induction settleWithin depth fuel t with
  | case1 => cases h
  | case2 fuel t hready =>
    cases h
    simp only [settleEdits, hready]
    exact .refl _
  | case3 => cases h
  | case4 fuel t task rest hready hcan s hs ih =>
    obtain ⟨sim, ready⟩ := t
    obtain rfl : ready = task :: rest := hready
    simp only [settleEdits, if_pos hcan, hs]
    exact (Simulation.amends_step hcan hs).trans (ih h)
  | case5 fuel t task rest hready hcan ih =>
    simp only [settleEdits, hready, if_neg hcan]
    exact ih h

theorem amends_settle (h : t.settle fuel = .ok t') :
    t.bench.Amends (t.settleEdits fuel fuel) t'.bench := by
  unfold settle at h
  split at h
  next hs =>
    cases h
    exact amends_settleWithin hs
  · cases h

theorem amends_sleep {length : Duration} (h : t.sleep fuel length = .ok t') :
    t.bench.Amends (t.sleepEdits fuel length) t'.bench := by
  unfold sleep at h
  unfold sleepEdits
  split at h
  next hl =>
    cases h
    rw [if_pos hl]
    exact .refl _
  next hl =>
    rw [if_neg hl]
    exact amends_settle h

theorem amends_drive {s : Script} {outcome : Outcome} (h : t.drive fuel s = .ok (outcome, t')) :
    t.bench.Amends (t.driveEdits fuel s) t'.bench := by
  fun_induction drive fuel s t with
  | case1 outcome t =>
    cases h
    exact .refl _
  | case2 action next t result u hu ih =>
    simp only [driveEdits, hu]
    refine Bench.Amends.trans ?_ (ih h)
    unfold invoke at hu
    split at hu
    next hb =>
      cases hu
      exact Bench.amends_invoke hb
    · cases hu
  | case3 => cases h
  | case4 label reactor placement next t ih =>
    exact (Bench.amends_install t.bench label reactor placement).trans (ih h)
  | case5 label next t ih => exact (Bench.amends_remove t.bench label).trans (ih h)
  | case6 next t u hu ih =>
    simp only [driveEdits, hu]
    exact (amends_settle hu).trans (ih h)
  | case7 => cases h

theorem amends_wait {slot : Nat} {timeout : Duration} {late : Bool}
    (h : t.wait fuel slot timeout = .ok (late, t')) :
    t.bench.Amends (t.waitEdits fuel slot timeout) t'.bench := by
  unfold wait at h
  split at h
  next v waited hv =>
    simp only [waitEdits, hv]
    have hmark : t.bench.Amends [] (t.bench.setReactor slot (.verifier v true)) :=
      (Bench.altersAt_setReactor ..).amends
    split at h
    next hfired =>
      cases h
      rw [if_pos hfired]
      exact hmark
    next hfired =>
      rw [if_neg hfired]
      split at h
      · cases h
      next u hu =>
        have hslept := hmark.trans (amends_sleep hu)
        split at h <;> cases h <;> exact hslept
  next hn =>
    cases h
    unfold waitEdits
    split
    next v waited hv => exact absurd hv (hn v waited)
    next => exact .refl _

end Schedule

namespace Bench

def unseated (b : Bench) (n : Nat) (x : Installation) : Bool :=
  !(List.range' b.issued n).contains x.id

theorem unseated_iff {b : Bench} {n : Nat} {x : Installation} :
    b.unseated n x = true ↔ x.id < b.issued ∨ b.issued + n ≤ x.id := by
  simp only [unseated, List.contains_eq_mem, List.mem_range'_1, Bool.not_eq_true',
    decide_eq_false_iff_not]
  omega

theorem unseated_of_mem_seats {b : Bench} {n : Nat} {x : Installation} (h : x ∈ b.seats n) :
    b.unseated n x = false := by
  obtain ⟨k, hk, rfl⟩ := mem_seats.1 h
  rw [Bool.eq_false_iff, Ne, unseated_iff]
  simp only
  omega

/-- Whoever takes the next seats and gives them up again leaves the chain to the others. -/
theorem Amends.leave {o b c : Bench} {n : Nat} {others : List Edit} (h : b.Amends others c)
    (ho : o.Numbered) (hb : b.Numbered) (hchain : b.chain = o.chain ++ o.seats n)
    (hissued : b.issued = o.issued + n) :
    c.chain.filter (o.unseated n) = others.foldl Edit.enact o.chain ∧
      c.chain.filter (o.unseated n) = Edit.remaining o.chain others := by
  have hothers : ∀ x front, .attached x front ∈ others → o.unseated n x = true := by
    intro x front hx
    have hfresh := h.fresh x front hx
    rw [hissued] at hfresh
    exact unseated_iff.2 (.inr hfresh)
  have hold : ∀ x ∈ o.chain, o.unseated n x = true :=
    fun x hx => unseated_iff.2 (.inl (ho.below x hx))
  have hown : ∀ x ∈ o.seats n, o.unseated n x = false := fun x hx => unseated_of_mem_seats hx
  have hremaining := (h.edited hb.edited).chain
  rw [List.nil_append, hchain] at hremaining
  constructor
  · have hbefore : (o.chain ++ o.seats n).filter (o.unseated n) = o.chain := by
      rw [List.filter_append, List.filter_eq_self.2 hold,
        List.filter_eq_nil_iff.2 (by simpa using hown), List.append_nil]
    rw [h.chain, Edit.filter_foldl_enact hothers, hchain, hbefore]
  · rw [hremaining, Edit.filter_remaining hothers hold hown]

end Bench

namespace TestEvent

variable {e : TestEvent} {r : Reporter} {fuel : Nat} {t t' : Schedule}

def followEdits (fuel : Nat) (e : TestEvent) (timeout : Duration) (slot : Nat) (outcome : Outcome)
    (t : Schedule) : List Edit :=
  match outcome.error?, e.verifier with
  | none, some _ => t.waitEdits fuel slot timeout
  | _, _ => []

/-- What an event's trigger, and whoever acts while it is waited for, do to the chain. -/
def meanwhile (fuel : Nat) (e : TestEvent) (r : Reporter) (config : Config) (t : Schedule) : List Edit :=
  let installed := e.install r t
  installed.driveEdits fuel e.trigger ++
    match installed.drive fuel e.trigger with
    | .ok (outcome, driven) =>
      e.followEdits fuel (e.timeout.getD config.defaultTimeout) t.bench.reactors.size outcome driven
    | .error _ => []

theorem amends_follow {timeout : Duration} {slot : Nat} {outcome : Outcome}
    (h : e.follow fuel timeout r slot outcome t = .ok t') :
    t.bench.Amends (e.followEdits fuel timeout slot outcome t) t'.bench := by
  unfold follow at h
  unfold followEdits
  split at h
  next error herror =>
    cases h
    simp only [herror]
    exact .of_eq rfl rfl rfl
  next v herror hv =>
    simp only [herror, hv]
    unfold awaitVerifier at h
    split at h
    · cases h
    next u hu =>
      cases h
      exact Schedule.amends_wait hu
    next u hu =>
      split at h
      · cases h
        exact (Schedule.amends_wait hu).then_eq rfl rfl rfl
      · cases h
        exact Schedule.amends_wait hu
  next herror hv =>
    cases h
    simp only [herror, hv]
    exact .refl _

theorem amends_play {config : Config}
    (h : e.play fuel r config t.bench.reactors.size (e.install r t) = .ok t') :
    (e.install r t).bench.Amends (e.meanwhile fuel r config t) t'.bench := by
  obtain ⟨outcome, driven, hdrive, hfollow⟩ := play_ok h
  simp only [meanwhile, hdrive]
  exact (Schedule.amends_drive hdrive).trans (amends_follow hfollow)

theorem numbered_install (h : t.bench.Numbered) : (e.install r t).bench.Numbered := by
  have hemploy (rs : List (Reactor Script)) (b : Bench) (hb : b.Numbered) :
      (rs.foldl Bench.employ b).Numbered := by
    induction rs generalizing b with
    | nil => exact hb
    | cons x rest ih => exact ih _ ((Bench.amends_employ b x).edited hb.edited).numbered
  exact hemploy (e.chain r) t.bench h

theorem leave_chain (e : TestEvent) (r : Reporter) (slot : Nat) (o b : Bench) :
    (e.uninstall r o.issued (e.judge r slot b)).chain =
      b.chain.filter (o.unseated (e.chain r).length) := by
  rw [uninstall, Bench.foldl_detach, judge, Bench.foldl_judge]
  rfl

/--
Once an event is over the chain is what others have made of it in the meantime, its trigger and the
reactions among them.
-/
theorem leaves_chain_to_others {reporter : Reporter} {config : Config} (ht : t.bench.Numbered)
    (h : e.run fuel reporter config t = .ok t') :
    let r := reporter.within e.name
    let others := e.meanwhile fuel r config t
    let own := t.bench.seats (e.chain r).length
    (∃ after, e.play fuel r config t.bench.reactors.size (e.install r t) = .ok after ∧
      after.bench.chain = others.foldl Edit.enact (t.bench.chain ++ own)) ∧
      t'.bench.chain = others.foldl Edit.enact t.bench.chain ∧
      t'.bench.chain = Edit.remaining t.bench.chain others ∧
      ∀ x ∈ t'.bench.chain, ∀ y ∈ own, x.id ≠ y.id := by
  intro r others own
  obtain ⟨after, hplay, rfl⟩ := run_ok h
  have hamends := amends_play hplay
  have hemploys := employs_install e r t
  have hleft : (after.setBench (e.uninstall r t.bench.issued
      (e.judge r t.bench.reactors.size after.bench))).bench.chain =
        after.bench.chain.filter (t.bench.unseated (e.chain r).length) := leave_chain ..
  obtain ⟨henacted, hremaining⟩ :=
    hamends.leave ht (numbered_install ht) hemploys.chain hemploys.issued
  refine ⟨⟨after, hplay, ?_⟩, hleft.trans henacted, hleft.trans hremaining, fun x hx y hy he => ?_⟩
  · rw [hamends.chain, hemploys.chain]
    rfl
  · rw [hleft] at hx
    have hx : t.bench.unseated (e.chain r).length x = true := (List.mem_filter.1 hx).2
    have hy := Bench.unseated_of_mem_seats hy
    rw [Bench.unseated, ← he] at hy
    exact Bool.false_ne_true (hy.symm.trans hx)

def tenanted : Bench where
  reporter := ⟨"case"⟩
  reactors :=
    #[.override
        { filter := .ofVerb "create"
          reaction := fun _ _ =>
            .remove "second" fun _ =>
              .install "new" (some (.override { filter := .any, reaction := Reaction.pass }))
                { front := true } <|
                .install "new" none {} (.done .pass) },
      .override { filter := .any, reaction := Reaction.pass }]
  chain := [⟨0, 0⟩, ⟨1, 1⟩]
  issued := 2
  labels := [("second", ⟨1, some 1⟩)]

def staffed : Schedule where
  sim :=
    { bench := tenanted
      started := true
      router := { phase := .running }
      controllers :=
        [{ name := "sweeper"
           watches := [Bench.jobs]
           reconciler := ⟨fun _ _ => .remove "extra" fun _ => .done .pass, fun _ _ => .ignore⟩
           phase := .running }] }

def visit : TestEvent where
  name := "visit"
  trigger :=
    .install "extra" (some (.override { filter := .any, reaction := Reaction.pass })) {} <|
      .invoke (Bench.creation "a") fun _ => .done .pass
  verifier := some (.seen (.ofVerb "update"))
  assertions := [.expect (.ofVerb "create") .seen]
  reactors := [.override { filter := .ofVerb "get", reaction := Reaction.notFound }]

theorem staffed_numbered : staffed.bench.Numbered where
  distinct := by decide
  below := by decide
  labels := by
    intro p hp id hid
    obtain rfl : p = ("second", ⟨1, some 1⟩) := by simpa [staffed, Schedule.bench, tenanted] using hp
    obtain rfl := Option.some.inj hid
    decide

theorem visit_leaves_chain_to_others :
    staffed.bench.Numbered ∧ ∃ t', visit.run 20 ⟨"case"⟩ {} staffed = .ok t' ∧
      t'.bench.chain = [⟨6, 6⟩, ⟨0, 0⟩, ⟨7, 6⟩] := by
  obtain ⟨t', hok⟩ := exists_ok (by decide +kernel :
    (visit.run 20 ⟨"case"⟩ {} staffed).toOption.isSome = true)
  have hothers : visit.meanwhile 20 (Reporter.within ⟨"case"⟩ "visit") {} staffed =
      [.attached ⟨5, 5⟩ false, .detached 1, .attached ⟨6, 6⟩ true, .attached ⟨7, 6⟩ false,
        .detached 5] := by
    decide +kernel
  obtain ⟨-, hchain, -⟩ := leaves_chain_to_others staffed_numbered hok
  refine ⟨staffed_numbered, t', hok, hchain.trans ?_⟩
  rw [show visit.name = "visit" from rfl, hothers]
  rfl

end TestEvent

end ControllerBench
