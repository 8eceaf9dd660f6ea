import ControllerBench.Proofs.Judging.Composed
import ControllerBench.TestCase

namespace ControllerBench

namespace TestEvent

variable {e : TestEvent} {r : Reporter} {fuel : Nat} {config : Config} {t t' : Schedule}

/-- Of all that an event brings along only its verifier will report, and to the event's own reporter. -/
structure Discreet (e : TestEvent) : Prop where
  abides : e.Abides .unreported
  verifier : ∀ v, e.verifier = some v → v.ReportsTo none
  reactors : ∀ v waited, .verifier v waited ∈ e.reactors → v.ReportsTo none

def checks (e : TestEvent) (r : Reporter) (as : List Action) : List Failure :=
  (e.verifier.map fun v => (v.inject r).complaints as).getD []

def ending (e : TestEvent) (r : Reporter) (timeout : Duration) (outcome : Outcome)
    (as : List Action) : List Failure :=
  match outcome.error?, e.verifier with
  | some error, _ => [r.failure s!"event trigger failed: {error.message}" .harness]
  | none, some v =>
    let w := (v.inject r).observe as
    if w.fired then [] else [r.failure (timeoutMessage timeout w) (timeoutSite w)]
  | none, none => []

theorem lone_observers (e : TestEvent) (r : Reporter) : Bench.Lone (e.observers r) := by
  intro k v waited hk
  cases hv : e.verifier with
  | none =>
    rw [observers, hv] at hk
    obtain ⟨w, -, hw⟩ := List.mem_map.1 (List.mem_of_getElem? hk)
    cases hw
  | some u =>
    rw [observers, hv] at hk
    cases k with
    | zero => rfl
    | succ k =>
      obtain ⟨w, -, hw⟩ := List.mem_map.1 (List.mem_of_getElem? hk)
      cases hw

theorem voice_observers (e : TestEvent) (r : Reporter) (seen : Nat → List Action) :
    Bench.voice (e.observers r) seen = e.checks r (seen 0) := by
  unfold Bench.voice checks observers
  cases e.verifier with
  | some v => rfl
  | none => cases e.assertions <;> rfl

theorem composed_install (ht : t.bench.Rested) (he : e.Discreet) :
    Bench.Composed t.bench (e.observers r) (e.chain r).length (fun _ => []) (e.install r t).bench := by
  have hemploys := employs_install e r t
  refine ⟨observing_install ht.orderly, Bench.grows_of_eq hemploys.log,
    fun _ => List.nil_subset _, ?_, fun slot hl => ?_, fun x hx => ?_, fun p hp => ?_⟩
  · rw [hemploys.failures, voice_observers, checks]
    cases e.verifier <;> simp [Verifier.complaints]
  · obtain ⟨v, waited, hv, hr⟩ := hl
    by_cases hold : slot < t.bench.reactors.size
    · refine .inl ⟨v, waited, ?_, hr⟩
      rwa [hemploys.reactors, Array.getElem?_append_left hold] at hv
    · obtain ⟨k, rfl⟩ := Nat.exists_eq_add_of_le (Nat.le_of_not_lt hold)
      rw [hemploys.getElem?] at hv
      by_cases hk : k < (e.observers r).length
      · exact .inr ⟨Nat.le_add_right .., Nat.add_lt_add_left hk _⟩
      · rw [List.getElem?_append_right (Nat.le_of_not_lt hk)] at hv
        exact absurd (he.reactors v waited (List.mem_of_getElem? hv)) hr
  · rw [hemploys.chain, List.mem_append, Bench.mem_seats] at hx
    rcases hx with hx | ⟨k, -, rfl⟩
    · exact ht.chain x hx
    · exact fun hl => absurd hl.lt (Nat.not_lt.2 (Nat.le_add_right ..))
  · exact ht.labels p (hemploys.labels ▸ hp)

theorem rested_of_closes {o b c : Bench} {seen : Nat → List Action} {fs : List Failure}
    (h : Bench.Composed o (e.observers r) (e.chain r).length seen b)
    (hc : e.Closes r o seen (b.report fs) c) : c.Rested := by
  have hn := h.observing.count
  have hquiet {slot : Nat} (ho : ¬ o.Loud slot)
      (hslot : slot < o.reactors.size ∨ o.reactors.size + (e.chain r).length ≤ slot) :
      ¬ c.Loud slot := by
    intro hl
    rcases h.hushed slot (hl.congr (by rw [hc.reactors]; rfl)) with hl | hl
    · exact ho hl
    · omega
  refine ⟨⟨fun x hx => ?_, fun p hp => ?_, fun p hp => ?_⟩, fun x hx => ?_, fun p hp => ?_⟩
  · rw [hc.reactors]
    exact h.observing.orderly.chain x (hc.chain hx)
  · rw [hc.reactors]
    exact h.observing.orderly.slots p (hc.labels ▸ hp)
  · rw [hc.issued]
    exact h.observing.orderly.ids p (hc.labels ▸ hp)
  · exact hquiet (h.chain x (hc.chain hx)) (hc.gone x hx)
  · have hp' := hc.labels ▸ hp
    exact hquiet (h.labels p hp') (h.observing.slots p hp')

theorem awaitVerifier_ok {timeout : Duration} {slot : Nat} {after : Schedule}
    (h : awaitVerifier fuel timeout r slot t = .ok after) :
    ∃ late u, t.wait fuel slot timeout = .ok (late, u) ∧ (late = false → after.sim = u.sim) ∧
      (late = true → ∀ v waited, u.bench.reactors[slot]? = some (.verifier v waited) →
        after.sim = { u.sim with
          bench := u.bench.report [r.failure (timeoutMessage timeout v) (timeoutSite v)] }) := by
  unfold awaitVerifier at h
  split at h
  · cases h
  next u hu =>
    cases h
    exact ⟨false, after, hu, fun _ => rfl, nofun⟩
  next u hu =>
    refine ⟨true, u, hu, nofun, fun _ v waited hv => ?_⟩
    simp only [hv] at h
    cases h
    rfl

theorem follow_ending {o : Bench} {n : Nat} {timeout : Duration} {outcome : Outcome}
    {after : Schedule} (h : e.follow fuel timeout r o.reactors.size outcome t = .ok after)
    (ht : t.Upheld .unreported (Bench.Composing o (e.observers r) n)) :
    ∃ (seen : Nat → List Action) (u : Schedule),
      u.Upheld .unreported (Bench.Composing o (e.observers r) n) ∧
      Bench.Composed o (e.observers r) n seen u.bench ∧
      after.sim = { u.sim with bench := u.bench.report (e.ending r timeout outcome (seen 0)) } := by
  have hnothing (u : Schedule) : u.sim = { u.sim with bench := u.bench.report [] } := by
    rw [Bench.report_nil]
    rfl
  cases herror : outcome.error? with
  | some error =>
    simp only [follow, herror] at h
    cases h
    obtain ⟨seen, hcomposed⟩ := ht.bench
    refine ⟨seen, t, ht, hcomposed, ?_⟩
    simp only [ending, herror]
    rfl
  | none =>
    cases hv : e.verifier with
    | none =>
      simp only [follow, herror, hv] at h
      cases h
      obtain ⟨seen, hcomposed⟩ := ht.bench
      refine ⟨seen, t, ht, hcomposed, ?_⟩
      simp only [ending, herror, hv]
      exact hnothing t
    | some v =>
      simp only [follow, herror, hv] at h
      obtain ⟨late, u, hu, hsim⟩ := awaitVerifier_ok h
      obtain ⟨hupheld, hlate⟩ := ht.wait (Bench.sustained_composing (lone_observers e r)) hu
      obtain ⟨seen, hcomposed⟩ := hupheld.bench
      obtain ⟨waited, hat⟩ := verifier_at hcomposed.observing hv
      have hfired := hlate _ _ hat
      refine ⟨seen, u, hupheld, hcomposed, ?_⟩
      simp only [ending, herror, hv]
      cases hf : ((v.inject r).observe (seen 0)).fired with
      | true =>
        rw [hf] at hfired
        exact (hsim.1 hfired).trans (hnothing u)
      | false =>
        rw [hf] at hfired
        exact hsim.2 hfired _ _ hat

end TestEvent

/-- An event as it went: how its trigger ended and what each of its observers was offered. -/
structure Course where
  event : TestEvent
  outcome : Outcome
  seen : Nat → List Action

namespace Course

def reporter (root : Reporter) (x : Course) : Reporter := root.within x.event.name

def timeout (config : Config) (x : Course) : Duration := x.event.timeout.getD config.defaultTimeout

def failures (root : Reporter) (config : Config) (x : Course) : List Failure :=
  x.event.checks (x.reporter root) (x.seen 0) ++
      x.event.ending (x.reporter root) (x.timeout config) x.outcome (x.seen 0) ++
    (x.event.judged x.seen).flatMap (·.verdict (x.reporter root))

structure Follows (fuel : Nat) (root : Reporter) (config : Config) (t : Schedule) (x : Course)
    (t' : Schedule) : Prop where
  run : x.event.run fuel root config t = .ok t'
  trigger : ∃ driven, (x.event.install (x.reporter root) t).drive fuel x.event.trigger =
    .ok (x.outcome, driven)
  observers : ∃ after,
    x.event.play fuel (x.reporter root) config t.bench.reactors.size
        (x.event.install (x.reporter root) t) = .ok after ∧
      (∀ v, x.event.verifier = some v → ∃ waited, after.bench.reactors[t.bench.reactors.size]? =
        some (.verifier ((v.inject (x.reporter root)).observe (x.seen 0)) waited)) ∧
      ∀ k w, (x.event.judged x.seen)[k]? = some w →
        after.bench.reactors[t.bench.reactors.size + x.event.verifier.toList.length + k]? =
          some (.assertion w)
  offered : ∀ k, x.seen k ⊆ t.bench.since t'.bench
  failures : t'.bench.failures.toList = t.bench.failures.toList ++ x.failures root config

end Course

structure Schedule.Discreet (t : Schedule) : Prop where
  rested : t.bench.Rested
  reactors : t.bench.Abides .unreported
  controllers : t.sim.Abides .unreported

theorem TestEvent.exists_course {e : TestEvent} {root : Reporter} {fuel : Nat} {config : Config}
    {t t' : Schedule} (ht : t.Discreet) (he : e.Discreet) (h : e.run fuel root config t = .ok t') :
    ∃ x : Course, x.event = e ∧ x.Follows fuel root config t t' ∧ t'.Discreet := by
  obtain ⟨after, hplay, ht'⟩ := run_ok h
  obtain ⟨outcome, driven, hdrive, hfollow⟩ := play_ok hplay
  have hlone := lone_observers e (root.within e.name)
  have hinstall : (e.install (root.within e.name) t).Upheld .unreported
      (Bench.Composing t.bench (e.observers (root.within e.name))
        (e.chain (root.within e.name)).length) :=
    ⟨⟨_, composed_install ht.rested he⟩, abides_install ht.reactors he.abides, ht.controllers⟩
  have hdriven := hinstall.drive (Bench.sustained_composing hlone) he.abides.1 hdrive
  obtain ⟨seen, u, hu, hcomposed, hafter⟩ := follow_ending hfollow hdriven
  have hbench : after.bench = _ := congrArg Simulation.bench hafter
  have hobserving := hcomposed.observing.report
    (e.ending (root.within e.name) (e.timeout.getD config.defaultTimeout) outcome (seen 0))
  have hcloses := closes hobserving
  rw [hbench] at ht'
  refine ⟨⟨e, outcome, seen⟩, rfl,
    ⟨h, ⟨driven, hdrive⟩, ⟨after, hplay, fun v hv => ?_, fun k w hw => ?_⟩, ?_, ?_⟩, ?_⟩
  · rw [hbench]
    exact verifier_at hobserving hv
  · obtain ⟨w', hw', rfl⟩ := Option.map_eq_some_iff.1 ((List.getElem?_mapIdx ..).symm.trans hw)
    rw [hbench]
    exact assertion_at hobserving hw'
  · intro k
    have hlog : t'.bench.log = u.bench.log := ht' ▸ hcloses.log
    rw [Bench.since, hlog]
    exact hcomposed.heard k
  · rw [ht']
    refine hcloses.failures.trans ?_
    rw [Bench.report, Array.toList_append, hcomposed.failures, voice_observers]
    simp [Course.failures, Course.reporter, Course.timeout]
  · rw [ht']
    refine ⟨rested_of_closes hcomposed hcloses, ?_, ?_⟩
    · intro x hx
      exact hu.reactors x (hcloses.reactors ▸ hx)
    · have hcontrollers := hu.controllers
      rw [Schedule.setBench, Schedule.wake, hafter]
      exact hcontrollers

end ControllerBench
