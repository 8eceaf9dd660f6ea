import ControllerBench.Proofs.Demo.Owed

namespace ControllerBench.Demo

namespace Scene

/-- What holds in every state of a run, with the stage of the pass under way. -/
structure Sound (s : Scene) (st : Option Stage) : Prop where
  pass : s.pass = st.map Stage.pass
  wired : Wired s.sim
  stocked : Stocked s.sim.bench.tracker
  tended : Tended s.sim.bench.tracker s.Owed st

/-- A step, with the stages before and after it. -/
inductive Staged (s : Scene) : Option Stage → Act → Scene → Option Stage → Prop
  | manage {st a sim} : s.Manages a sim → Staged s st a { s with sim } st
  | drive {st op} :
      Drives s.sim.bench.tracker op (s.answer op.action).isOk (s.enact op.action).sim.bench.tracker
        (s.sim.bench.enact op.action).2.1 →
      Staged s st (.drive op (s.answer op.action)) (s.enact op.action) st
  | publish {st earlier e later} :
      s.unsent = earlier ++ e :: later →
      Staged s st (.publish e)
        { s with
          sim := { s.sim with bench := s.sim.bench.broadcast e }
          unsent := earlier ++ later } st
  | take {c r rest} :
      s.sim.controllers[0]? = some c → c.phase = .running → c.queue = r :: rest →
      Staged s none (.take r)
        { s with
          sim := s.sim.setController 0 { c with queue := rest, taken := c.taken.push r }
          pass := some (Stage.reading r).pass }
        (some (.reading r))
  | ask {x x' a} :
      Asks s.sim.bench.tracker x (s.enact a).sim.bench.tracker (s.sim.bench.enact a).2.1
        (if (s.answer a).isOk then statusUpdate? a else none) x' →
      Staged s (some x) (.ask a (s.answer a)) { s.enact a with pass := some x'.pass } (some x')
  | conclude {r outcome endings} :
      Staged s (some (.leaving r outcome)) (.conclude outcome)
        { s with sim := { s.sim with endings }, pass := none } none

variable {s s' : Scene} {st st' : Option Stage} {a : Act} {r : Request}

theorem Step.staged (h : s.Sound st) (hs : s.Step a s') : ∃ st', s.Staged st a s' st' := by
  cases hs with
  | manage hm => exact ⟨st, .manage hm⟩
  | @drive op => exact ⟨st, .drive (op.drives s.sim.bench)⟩
  | publish he => exact ⟨st, .publish he⟩
  | @take c r rest hc hp hphase hq =>
    obtain ⟨-, -, -, hr⟩ := h.wired.controller_of_get hc
    rw [h.pass] at hp
    obtain rfl : st = none := Option.map_eq_none_iff.1 hp
    have hpass : (r, c.reconciler.reconcile c.taken.size r) = (Stage.reading r).pass := by
      rw [hr]
      rfl
    rw [hpass]
    exact ⟨some (.reading r), .take hc hphase hq⟩
  | @ask r a next hp =>
    rw [h.pass] at hp
    obtain ⟨x, rfl, hx⟩ := Option.map_eq_some_iff.1 hp
    obtain ⟨rfl, hscript⟩ := Prod.mk.inj hx
    obtain ⟨x', hnext, hasks⟩ := Stage.answered h.stocked hscript
    refine ⟨some x', ?_⟩
    have hpass : (x.request, next (s.answer a)) = x'.pass := by
      rw [Stage.pass, hasks.request]
      exact congrArg _ hnext
    rw [hpass]
    exact .ask hasks
  | @conclude r outcome c hc hp =>
    rw [h.pass] at hp
    obtain ⟨x, rfl, hx⟩ := Option.map_eq_some_iff.1 hp
    obtain ⟨rfl, hscript⟩ := Prod.mk.inj hx
    obtain ⟨r, rfl⟩ : ∃ r, x = .leaving r outcome := by
      rcases x.asks_or_leaves with ⟨a, next, ha⟩ | ⟨r, o, rfl⟩
      · cases hscript.symm.trans ha
      · cases hscript
        exact ⟨r, rfl⟩
    obtain ⟨endings, he⟩ := h.wired.conclude hc r outcome
    refine ⟨none, ?_⟩
    change Staged _ _ _ { s with
      sim := s.sim.passed 0 (c.conclude r outcome) s.sim.bench, pass := none } _
    rw [he]
    exact .conclude

theorem Manages.bench {sim : Simulation} (hm : s.Manages a sim) : sim.bench = s.sim.bench := by
  cases hm with
  | start hs =>
    cases hs with
    | start hs =>
      obtain ⟨-, rfl⟩ := Simulation.start_ok hs
      rfl
  | cancel | join | enter | quit => rfl
  | route hs => cases hs.router.2 <;> rfl

theorem Owed.manages {sim : Simulation} (hw : Wired s.sim) (hs : Stocked s.sim.bench.tracker)
    (hm : s.Manages a sim) (h : s.Owed r) : Owed { s with sim } r := by
  cases hm with
  | start hstep =>
    obtain ⟨-, hn, hstart, hu, hcan, hb, hc, hback, hd⟩ := hw.start hstep
    refine h.imp (hcan.trans ·) fun hcome => hcome.of_same hback (fun _ => ?_) hb hd hc
    exact Or.inr (hu ▸ List.mem_singleton_self _)
  | cancel => exact .inl rfl
  | join => exact h.imp id fun hcome => hcome.of_same rfl id rfl rfl rfl
  | route hstep =>
    have hmove := hstep.router.2
    have hcan : sim.cancelled = s.sim.cancelled := by cases hmove <;> rfl
    rcases h with h | h
    · exact .inl (hcan.trans h)
    · cases hn : s.sim.cancelled with
      | true => exact .inl (hcan.trans hn)
      | false => exact .inr (h.routes hw hs hn hmove)
  | enter hc => exact h.imp id fun hcome => hcome.setController hc id
  | quit _ _ _ hcan => exact .inl hcan

theorem Sound.staged (h : s.Sound st) (hs : s.Staged st a s' st') : s'.Sound st' := by
  cases hs with
  | @manage _ _ sim hm =>
    have hb : sim.bench.tracker = s.sim.bench.tracker := congrArg Bench.tracker hm.bench
    refine ⟨h.pass, h.wired.manages hm, ?_, ?_⟩
    · rw [hb]
      exact h.stocked
    · rw [hb]
      exact h.tended.mono fun r hr => hr.manages h.wired h.stocked hm
  | @drive _ op hd =>
    have hle (r : Request) (hr : s.Owed r) : (s.enact op.action).Owed r :=
      hr.imp id fun hcome => hcome.enact hd.keeps
    exact ⟨h.pass, h.wired.enact _, hd.stocked h.stocked,
      h.tended.drives hd hle fun kind r he => .inr (.of_event he)⟩
  | @publish _ earlier e later he =>
    refine ⟨h.pass, h.wired.extend ?_, h.stocked, h.tended.mono fun r hr => hr.imp id fun hcome => ?_⟩
    · simp [Bench.Extends, Bench.broadcast]
    · exact .broadcast h.wired (he ▸ hcome)
  | @take c r rest hc hphase hq =>
    refine ⟨rfl, h.wired.setController hc rfl rfl fun _ => ?_, h.stocked, h.tended.take fun x hx => ?_⟩
    · change c.phase.isEnded = false
      rw [hphase]
      rfl
    · rcases hx with hx | hx
      · exact .inr (.inl hx)
      · exact (hx.take hc hq).imp_right .inr
  | @ask x x' a ha =>
    refine ⟨rfl, h.wired.enact _, ha.stocked h.stocked, h.tended.asks h.stocked ha fun r hr => ?_⟩
    exact hr.imp id fun hcome => hcome.enact fun hk => .inl (ha.keeps hk)
  | conclude =>
    refine ⟨rfl, { h.wired with alone := h.wired.alone.of_controllers rfl }, h.stocked, ?_⟩
    exact h.tended.conclude.mono fun r hr => hr.imp id fun hcome => hcome.of_same rfl id rfl rfl rfl

end Scene

end ControllerBench.Demo
