import ControllerBench.Proofs.Demo.Convergence
import ControllerBench.Proofs.Demo.Readings

namespace ControllerBench.Demo

/-- A config map that is there was made by a pass that had read the widget no later than after `seen`. -/
def MadeWithin (t₀ t : Tracker) (r : Request) (seen past : List Act) : Prop :=
  ∀ o, t.find? (configKey r) = some o → ∃ replicas made, o = configAt r replicas ∧ made <+: seen ∧
    Wrote t₀ r replicas made past (configKey r) (creation r replicas)

/-- Where the replicas of all that is stored, and of the pass under way, come from. -/
structure Traced (t₀ t : Tracker) (past : List Act) (st : Option Stage) : Prop where
  given : ∀ r replicas, t.find? (widgetKey r) = some (widgetAt r replicas false) →
    given t₀ r past = some replicas
  made : ∀ r, MadeWithin t₀ t r past past
  read : ∀ x ∈ st, ∀ r replicas, x.known? = some (r, replicas) →
    ∃ seen, Read t₀ r replicas seen past ∧ MadeWithin t₀ t r seen past
  marked : ∀ r replicas, t.find? (widgetKey r) = some (widgetAt r replicas true) →
    ∃ seen, Wrote t₀ r replicas seen past (widgetKey r) (marking r replicas) ∧
      MadeWithin t₀ t r seen past

variable {t₀ t t' : Tracker} {r : Request} {replicas : Nat} {seen seen' past : List Act} {a : Act}

namespace MadeWithin

theorem mono (h : MadeWithin t₀ t r seen past) (hs : seen <+: seen') : MadeWithin t₀ t r seen' past := by
  intro o ho
  obtain ⟨replicas, made, hreplicas, hmade, hwrote⟩ := h o ho
  exact ⟨replicas, made, hreplicas, hmade.trans hs, hwrote⟩

theorem concat (h : MadeWithin t₀ t r seen past) (ht : t'.find? (configKey r) = t.find? (configKey r))
    (ha : a.changed? ≠ some (configKey r)) : MadeWithin t₀ t' r seen (past ++ [a]) := by
  intro o ho
  obtain ⟨replicas, made, hreplicas, hmade, hwrote⟩ := h o (ht ▸ ho)
  exact ⟨replicas, made, hreplicas, hmade, hwrote.concat ha⟩

theorem of_none (ht : t.find? (configKey r) = none) : MadeWithin t₀ t r seen past := by
  intro o ho
  rw [ht] at ho
  cases ho

theorem here (h : Read t₀ r replicas seen past) (response : Response)
    (ht : t.find? (configKey r) = some (configAt r replicas)) :
    MadeWithin t₀ t r seen (past ++ [.ask (creation r replicas) (.ok response)]) := by
  intro o ho
  obtain rfl : o = configAt r replicas := Option.some.inj (ho.symm.trans ht)
  exact ⟨replicas, seen, rfl, List.prefix_rfl, .here h response⟩

end MadeWithin

namespace Scene

variable {s s' : Scene} {st st' : Option Stage}

theorem Staged.traced_given (hst : s.Staged st a s' st') (h : Traced t₀ s.sim.bench.tracker past st)
    (hfind : s'.sim.bench.tracker.find? (widgetKey r) = some (widgetAt r replicas false)) :
    Demo.given t₀ r (past ++ [a]) = some replicas := by
  rw [given_concat]
  cases hst with
  | manage hm =>
    rw [hm.bench] at hfind
    cases hm <;> exact h.given r replicas hfind
  | publish | take | conclude => exact h.given r replicas hfind
  | @drive _ op hd =>
    change (s.sim.bench.enact op.action).2.2.tracker.find? _ = _ at hfind
    rw [Act.given, answer]
    rcases op.enact_cases s.sim.bench with ⟨response, he⟩ | ⟨e, he⟩
    · rw [he] at hfind ⊢
      exact Op.given_applied hfind (h.given r replicas)
    · rw [he] at hfind ⊢
      exact h.given r replicas hfind
  | @ask x x' a ha =>
    rcases ha.widget_cases r with hk | ⟨n, -, -, hnew⟩
    · rw [← changed?_ask] at hk
      exact h.given r replicas ((Staged.ask ha).find?_of_ne hk ▸ hfind)
    · exact absurd (widgetAt_inj.1 (Option.some.inj (hnew.symm.trans hfind))).2 (by decide)

theorem Staged.traced_made (hsound : s.Sound st) (hs : s.Step a s') (hst : s.Staged st a s' st')
    (h : Traced t₀ s.sim.bench.tracker past st) (r : Request) :
    MadeWithin t₀ s'.sim.bench.tracker r (past ++ [a]) (past ++ [a]) := by
  rcases hst.config_cases hsound hs r with hk | hnone | ⟨replicas, response, rfl, rfl, hfind⟩
  · exact ((h.made r).concat (hst.find?_of_ne hk) hk).mono (List.prefix_append ..)
  · exact .of_none hnone
  · obtain ⟨seen, hread, -⟩ := h.read _ rfl r replicas rfl
    exact (MadeWithin.here hread response hfind).mono (hread.seen_before.trans (List.prefix_append ..))

theorem Staged.traced_carried (hsound : s.Sound st) (hs : s.Step a s') (hst : s.Staged st a s' st')
    (h : Traced t₀ s.sim.bench.tracker past st) {x : Stage} (hx : x ∈ st)
    (hknown : x.known? = some (r, replicas)) :
    ∃ seen, Read t₀ r replicas seen (past ++ [a]) ∧
      MadeWithin t₀ s'.sim.bench.tracker r seen (past ++ [a]) := by
  obtain ⟨seen, hread, hwithin⟩ := h.read x hx r replicas hknown
  have htake (y : Request) : a ≠ .take y := by
    rintro rfl
    cases hst with
    | manage hm => cases hm
    | take => cases hx
  refine ⟨seen, hread.concat htake, ?_⟩
  rcases hst.config_cases hsound hs r with hk | hnone | ⟨n, response, rfl, rfl, hfind⟩
  · exact hwithin.concat (hst.find?_of_ne hk) hk
  · exact .of_none hnone
  · cases hx
    cases hknown
    exact .here hread response hfind

theorem Staged.traced_read (hsound : s.Sound st) (hs : s.Step a s') (hst : s.Staged st a s' st')
    (h : Traced t₀ s.sim.bench.tracker past st) {x : Stage} (hx : x ∈ st')
    (hknown : x.known? = some (r, replicas)) :
    ∃ seen, Read t₀ r replicas seen (past ++ [a]) ∧
      MadeWithin t₀ s'.sim.bench.tracker r seen (past ++ [a]) := by
  have carried {y : Stage} (hy : y ∈ st) (hold : y.known? = some (r, replicas)) :
      ∃ seen, Read t₀ r replicas seen (past ++ [a]) ∧
        MadeWithin t₀ s'.sim.bench.tracker r seen (past ++ [a]) :=
    hst.traced_carried hsound hs h hy hold
  cases hst with
  | manage | drive | publish => exact carried hx hknown
  | conclude => cases hx
  | take =>
    cases hx
    cases hknown
  | @ask y y' a ha =>
    cases hx
    rcases ha.known_cases hknown with hold | ⟨rfl, hf⟩
    · exact carried rfl hold
    · obtain ⟨z, hz, haction⟩ := hs.action_of_ask hsound
      cases hz
      obtain rfl : lookUp r = a := Option.some.inj haction
      have hr : s.answer (lookUp r) = .ok (.object (widgetAt r replicas false)) := by
        rw [answer, lookUp, Bench.enact_ok (Tracker.apply_get_some hf)]
      have hk : (Act.ask (lookUp r) (s.answer (lookUp r))).changed? ≠ some (configKey r) := by
        rw [changed?_lookUp]
        exact (Option.some_ne_none _).symm
      have hwithin := (h.made r).concat ((Staged.ask ha).find?_of_ne hk) hk
      refine ⟨past, ?_, hwithin⟩
      rw [hr]
      exact .here (h.given r replicas hf)

theorem Staged.traced_marked (hsound : s.Sound st) (hs : s.Step a s') (hst : s.Staged st a s' st')
    (h : Traced t₀ s.sim.bench.tracker past st)
    (hfind : s'.sim.bench.tracker.find? (widgetKey r) = some (widgetAt r replicas true)) :
    ∃ seen, Wrote t₀ r replicas seen (past ++ [a]) (widgetKey r) (marking r replicas) ∧
      MadeWithin t₀ s'.sim.bench.tracker r seen (past ++ [a]) := by
  rcases hst.widget_cases hsound hs hfind with hk | ⟨rfl, response, rfl⟩
  · rw [hst.find?_of_ne hk] at hfind
    obtain ⟨seen, hwrote, hwithin⟩ := h.marked r replicas hfind
    refine ⟨seen, hwrote.concat hk, ?_⟩
    rcases hst.config_cases hsound hs r with hk | hnone | ⟨n, response, rfl, -, -⟩
    · exact hwithin.concat (hst.find?_of_ne hk) hk
    · exact .of_none hnone
    · -- a pass that is about to make the config map has found the widget not ready
      have hunready := (hsound.tended.sound _ rfl).1
      exact absurd (hsound.stocked.ready?_eq_some.2 ⟨replicas, hfind⟩) hunready
  · obtain ⟨seen, hread, hwithin⟩ := h.read _ rfl r replicas rfl
    have hk : (Act.ask (marking r replicas) (.ok response)).changed? ≠ some (configKey r) :=
      fun he => widgetKey_ne_configKey r r (Option.some.inj he)
    exact ⟨seen, .here hread response, hwithin.concat (hst.find?_of_ne hk) hk⟩

theorem Staged.traced (hsound : s.Sound st) (hs : s.Step a s') (hst : s.Staged st a s' st')
    (h : Traced t₀ s.sim.bench.tracker past st) :
    Traced t₀ s'.sim.bench.tracker (past ++ [a]) st' where
  given _ _ := hst.traced_given h
  made := hst.traced_made hsound hs h
  read _ hx _ _ hknown := hst.traced_read hsound hs h hx hknown
  marked _ _ := hst.traced_marked hsound hs h

variable {b : Bench} {config : Config}

theorem Seeded.traced (hb : Seeded b) : Traced b.tracker b.tracker [] none where
  given r replicas hfind := by
    rw [Demo.given, List.foldl_nil, replicas?, hfind, Option.bind_some, ofObject?_widgetAt]
    rfl
  made r o ho := absurd (Tracker.isSome_find?.1 (Option.isSome_iff_exists.2 ⟨o, ho⟩)) hb.not_mapped
  read x hx := by cases hx
  marked r replicas hfind := absurd (hb.stocked.ready?_eq_some.2 ⟨replicas, hfind⟩) hb.not_ready

theorem Run.traced (hb : Seeded b) (hroom : 1 ≤ config.queueSize)
    (h : (opening b config).Run past s) :
    ∃ st, s.Sound st ∧ Traced b.tracker s.sim.bench.tracker past st := by
  induction h with
  | nil => exact ⟨none, opening_sound hb hroom, hb.traced⟩
  | @step past s s' a _ hs ih =>
    obtain ⟨st, hsound, htraced⟩ := ih
    obtain ⟨st', hst⟩ := hs.staged hsound
    exact ⟨st', hsound.staged hst, hst.traced hsound hs htraced⟩

/--
The config map keeps what the pass that made it read, and the widget has what the pass read that marked it
ready, which may be a later one.
-/
theorem config_map_keeps_replicas_read (hb : Seeded b) (hroom : 1 ≤ config.queueSize)
    (h : (opening b config).Run past s) (hq : s.Quiet) (hs : s.sim.started = true)
    (hn : s.sim.cancelled = false) {o p : Object}
    (ho : s.sim.bench.tracker.find? (widgetKey r) = some o)
    (hp : s.sim.bench.tracker.find? (configKey r) = some p) :
    ∃ m n made marked,
      o = widgetAt r m true ∧ p = configAt r n ∧
      Wrote b.tracker r m marked past (widgetKey r) (marking r m) ∧
      Wrote b.tracker r n made past (configKey r) (creation r n) ∧
      made <+: marked ∧
      (n = m ↔ Demo.given b.tracker r made = Demo.given b.tracker r marked) ∧
      ((∀ later l, made <+: later → later <+: marked → Demo.given b.tracker r later = some l → l = n) →
        n = m) := by
  obtain ⟨st, hsound, htraced⟩ := Run.traced hb hroom h
  obtain ⟨m, ready, rfl⟩ := hsound.stocked.widget_of_find? ho
  obtain rfl : ready = true := by
    obtain ⟨w, hw, hready⟩ := (hsound.settled hq hs hn).1 _ (Tracker.find?_eq_some.1 ho) rfl
    rw [ofObject?_widgetAt] at hw
    cases hw
    exact hready
  obtain ⟨marked, hmarked, hwithin⟩ := htraced.marked r m ho
  obtain ⟨n, made, rfl, hbefore, hmade⟩ := hwithin p hp
  refine ⟨m, n, made, marked, rfl, rfl, hmarked, hmade, hbefore, ?_, fun hsteady => ?_⟩
  · rw [hmade.given, hmarked.given, Option.some.injEq]
  · exact (hsteady marked m hbefore List.prefix_rfl hmarked.given).symm

theorem opening_plays (hb : Seeded b) (config : Config) (depth : Nat) {moves : List Move}
    (hm : ∀ m ∈ moves, Played m) {P : Simulation → Prop} [DecidablePred P]
    (h : (History.replay depth moves [] (opening b config).sim).any (fun x => decide (P x.2)) = true) :
    ∃ past sim, (opening b config).Run past { sim } ∧ P sim := by
  obtain ⟨⟨past', sim⟩, hreplay, hfacts⟩ := (Option.any_eq_true ..).1 h
  have halone : Alone (opening b config).sim := ⟨controller, rfl, rfl, rfl⟩
  obtain ⟨past, hrun⟩ := reaches_of_replay halone hb.unreacted hm hreplay
  exact ⟨past, sim, hrun, of_decide_eq_true hfacts⟩

theorem seeded_case : Seeded Demo.case.setUp.bench :=
  seeded_setUp Demo.case fun _ hx => ⟨⟨"demo", "seeded"⟩, 1, List.mem_singleton.1 hx⟩

def laps (routes : List Nat) : List Move :=
  (routes.flatMap fun n => byRouter n ++ byController).map .task

theorem laps_played (routes : List Nat) : ∀ m ∈ laps routes, Played m := by
  intro m hm
  obtain ⟨t, -, rfl⟩ := List.mem_map.1 hm
  exact .task t

def updating : List Move :=
  .start [widgets] :: laps [4, 0, 5] ++ .call (Op.update ⟨"demo", "seeded"⟩ 5).script :: laps [3, 3]

theorem updating_played : ∀ m ∈ updating, Played m := by
  unfold updating
  simp only [List.forall_mem_append, List.forall_mem_cons]
  exact ⟨⟨.start _, laps_played _⟩, .drive _, laps_played _⟩

theorem updated_widget_leaves_config_map_behind :
    Seeded Demo.case.setUp.bench ∧
      ∃ past s, (opening Demo.case.setUp.bench { queueSize := 1 }).Run past s ∧ s.Quiet ∧
        s.sim.started = true ∧ s.sim.cancelled = false ∧
        s.sim.bench.tracker.find? (widgetKey ⟨"demo", "seeded"⟩) =
          some (widgetAt ⟨"demo", "seeded"⟩ 5 true) ∧
        s.sim.bench.tracker.find? (configKey ⟨"demo", "seeded"⟩) =
          some (configAt ⟨"demo", "seeded"⟩ 1) := by
  obtain ⟨past, sim, hrun, hq, hfacts⟩ := opening_plays seeded_case { queueSize := 1 } 1
    updating_played
    (P := fun s => s.Quiet ∧ s.started = true ∧ s.cancelled = false ∧
      s.bench.tracker.find? (widgetKey ⟨"demo", "seeded"⟩) =
        some (widgetAt ⟨"demo", "seeded"⟩ 5 true) ∧
      s.bench.tracker.find? (configKey ⟨"demo", "seeded"⟩) =
        some (configAt ⟨"demo", "seeded"⟩ 1)) (by decide +kernel)
  exact ⟨seeded_case, past, { sim }, hrun, ⟨rfl, rfl, hq⟩, hfacts⟩

def recreating : List Move :=
  .start [widgets] :: laps [4, 0, 5] ++ .call (Op.create ⟨"demo", "w1"⟩ 3).script :: laps [3, 5] ++
    [.call (Op.delete ⟨"demo", "w1"⟩).script, .call (Op.create ⟨"demo", "w1"⟩ 4).script] ++
    laps [5, 4, 2]

theorem recreating_played : ∀ m ∈ recreating, Played m := by
  unfold recreating
  simp only [List.forall_mem_append, List.forall_mem_cons]
  exact ⟨⟨⟨⟨.start _, laps_played _⟩, .drive _, laps_played _⟩, .drive _, .drive _, nofun⟩,
    laps_played _⟩

theorem recreated_widget_finds_its_old_config_map :
    ∃ past s made marked, (opening Demo.case.setUp.bench { queueSize := 1 }).Run past s ∧ s.Quiet ∧
      s.sim.started = true ∧ s.sim.cancelled = false ∧
      s.sim.bench.tracker.find? (widgetKey ⟨"demo", "w1"⟩) = some (widgetAt ⟨"demo", "w1"⟩ 4 true) ∧
      s.sim.bench.tracker.find? (configKey ⟨"demo", "w1"⟩) = some (configAt ⟨"demo", "w1"⟩ 3) ∧
      Wrote Demo.case.setUp.bench.tracker ⟨"demo", "w1"⟩ 4 marked past (widgetKey ⟨"demo", "w1"⟩)
        (marking ⟨"demo", "w1"⟩ 4) ∧
      Wrote Demo.case.setUp.bench.tracker ⟨"demo", "w1"⟩ 3 made past (configKey ⟨"demo", "w1"⟩)
        (creation ⟨"demo", "w1"⟩ 3) ∧
      made <+: marked ∧
      Demo.given Demo.case.setUp.bench.tracker ⟨"demo", "w1"⟩ made ≠
        Demo.given Demo.case.setUp.bench.tracker ⟨"demo", "w1"⟩ marked := by
  obtain ⟨past, sim, hrun, hq, hs, hn, ho, hp⟩ := opening_plays seeded_case { queueSize := 1 } 1
    recreating_played
    (P := fun s => s.Quiet ∧ s.started = true ∧ s.cancelled = false ∧
      s.bench.tracker.find? (widgetKey ⟨"demo", "w1"⟩) = some (widgetAt ⟨"demo", "w1"⟩ 4 true) ∧
      s.bench.tracker.find? (configKey ⟨"demo", "w1"⟩) = some (configAt ⟨"demo", "w1"⟩ 3))
    (by decide +kernel)
  have hquiet : Quiet { sim } := ⟨rfl, rfl, hq⟩
  obtain ⟨m, n, made, marked, hm, hc, hmarked, hmade, hbefore, hiff, -⟩ :=
    config_map_keeps_replicas_read seeded_case (by decide) hrun hquiet hs hn ho hp
  obtain ⟨rfl, -⟩ := widgetAt_inj.1 hm
  obtain rfl : 3 = n := Payload.scale.inj (congrArg Object.payload hc)
  exact ⟨past, { sim }, made, marked, hrun, hquiet, hs, hn, ho, hp, hmarked, hmade, hbefore,
    mt hiff.2 (by decide)⟩

end Scene

end ControllerBench.Demo
