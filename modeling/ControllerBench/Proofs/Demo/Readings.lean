import ControllerBench.Proofs.Demo.Staged
import ControllerBench.Proofs.Dispatch.Replay

namespace ControllerBench

theorem Tracker.Accepts.find?_of_ne {t t' : Tracker} {a : Action} {response : Response} {k : Key}
    (h : t.Accepts a response t') (hk : a.event?.map WatchEvent.key ≠ some k) :
    t'.find? k = t.find? k := by
  cases h with
  | create ho _ hm | update ho hm =>
    refine find?_insert_of_ne fun he => hk ?_
    simp [Action.event?, Action.name?, ho, Operation.change?, Operation.name?, Object.name?, hm,
      WatchEvent.key, he]
  | delete ho =>
    refine find?_erase_of_ne fun he => hk ?_
    simp [Action.event?, Action.name?, ho, Operation.change?, Operation.name?, WatchEvent.key, he]
  | get | list => rfl

namespace Bench

theorem enact_event (b : Bench) (a : Action) :
    (b.enact a).2.1 = if (b.enact a).1.isOk then a.event? else none := by
  unfold enact
  split <;> rfl

theorem enact_find?_of_ne {b : Bench} {a : Action} {k : Key}
    (hk : (b.enact a).2.1.map WatchEvent.key ≠ some k) :
    (b.enact a).2.2.tracker.find? k = b.tracker.find? k := by
  cases hr : b.tracker.apply a with
  | error e =>
    rw [enact_error hr]
    rfl
  | ok x =>
    obtain ⟨response, t⟩ := x
    rw [enact_ok hr] at hk ⊢
    exact (Tracker.accepts_of_apply hr).find?_of_ne hk

end Bench

namespace Demo

def replicas? (t : Tracker) (r : Request) : Option Nat :=
  (t.find? (widgetKey r)).bind fun o => (Widget.ofObject? o).map (·.replicas)

def Op.given (r : Request) (before : Option Nat) : Op → Option Nat
  | create m replicas | update m replicas => if ⟨m.ns, m.name⟩ = r then some replicas else before
  | delete x => if x = r then none else before

def Act.given (r : Request) (before : Option Nat) : Act → Option Nat
  | drive op result => if result.isOk then op.given r before else before
  | start _ | cancel | join | publish _ | route | enter | quit | take _ | ask .. | conclude _ => before

/-- The replicas the driver gave the widget last, whatever the controller has made of it since. -/
def given (t : Tracker) (r : Request) (past : List Act) : Option Nat :=
  past.foldl (Act.given r) (replicas? t r)

def Act.changed? : Act → Option Key
  | drive op result => if result.isOk then op.action.event?.map WatchEvent.key else none
  | ask a result => if result.isOk then a.event?.map WatchEvent.key else none
  | start _ | cancel | join | publish _ | route | enter | quit | take _ | conclude _ => none

def lookUp (r : Request) : Action := ⟨.get r.name, widgets, "", r.ns⟩

def clearance (r : Request) : Action := ⟨.delete (configName r.name), configMaps, "", r.ns⟩

def creation (r : Request) (replicas : Nat) : Action :=
  ⟨.create (configAt r replicas), configMaps, "", r.ns⟩

def marking (r : Request) (replicas : Nat) : Action :=
  ⟨.update (widgetAt r replicas true), widgets, "status", r.ns⟩

def Stage.action? : Stage → Option Action
  | reading r => some (lookUp r)
  | clearing r => some (clearance r)
  | creating r replicas => some (creation r replicas)
  | marking r replicas => some (Demo.marking r replicas)
  | leaving .. => none

def Stage.known? : Stage → Option (Request × Nat)
  | creating r replicas | marking r replicas => some (r, replicas)
  | reading _ | clearing _ | leaving .. => none

/-- The pass under way read the widget after `seen`, when its replicas were the driver's last word. -/
def Read (t : Tracker) (r : Request) (replicas : Nat) (seen past : List Act) : Prop :=
  given t r seen = some replicas ∧
    ∃ since, past = seen ++ .ask (lookUp r) (.ok (.object (widgetAt r replicas false))) :: since ∧
      ∀ x, .take x ∉ since

/-- What a key holds was written there by a pass that had read the widget after `seen`. -/
def Wrote (t : Tracker) (r : Request) (replicas : Nat) (seen past : List Act) (k : Key) (a : Action) :
    Prop :=
  ∃ front response since, past = front ++ .ask a (.ok response) :: since ∧
    Read t r replicas seen front ∧ ∀ x ∈ since, x.changed? ≠ some k

variable {t : Tracker} {r : Request} {replicas : Nat} {seen past : List Act} {a : Act} {k : Key}
  {action : Action}

theorem widgetAt_inj {m n : Nat} {x y : Bool} : widgetAt r m x = widgetAt r n y ↔ m = n ∧ x = y := by
  constructor
  · intro h
    have hw := congrArg Widget.ofObject? h
    rw [ofObject?_widgetAt, ofObject?_widgetAt] at hw
    exact (Widget.mk.inj (Option.some.inj hw)).2
  · rintro ⟨rfl, rfl⟩
    rfl

theorem changed?_lookUp (r : Request) (result : Except Error Response) :
    (Act.ask (lookUp r) result).changed? = none := by
  rw [Act.changed?]
  split <;> rfl

theorem given_concat (t : Tracker) (r : Request) (past : List Act) (a : Act) :
    given t r (past ++ [a]) = a.given r (given t r past) := by
  simp [given]

theorem Read.here (h : given t r past = some replicas) :
    Read t r replicas past
      (past ++ [.ask (lookUp r) (.ok (.object (widgetAt r replicas false)))]) :=
  ⟨h, [], rfl, fun _ => List.not_mem_nil⟩

theorem Read.concat (h : Read t r replicas seen past) (ha : ∀ x, a ≠ .take x) :
    Read t r replicas seen (past ++ [a]) := by
  obtain ⟨hgiven, since, rfl, hsame⟩ := h
  refine ⟨hgiven, since ++ [a], by simp, fun x hx => ?_⟩
  rcases List.mem_append.1 hx with hx | hx
  · exact hsame x hx
  · exact ha x (List.mem_singleton.1 hx).symm

theorem Read.seen_before (h : Read t r replicas seen past) : seen <+: past := by
  obtain ⟨-, since, rfl, -⟩ := h
  exact List.prefix_append ..

theorem Wrote.here (h : Read t r replicas seen past) (response : Response) :
    Wrote t r replicas seen (past ++ [.ask action (.ok response)]) k action :=
  ⟨past, response, [], rfl, h, fun _ hx => absurd hx List.not_mem_nil⟩

theorem Wrote.concat (h : Wrote t r replicas seen past k action) (ha : a.changed? ≠ some k) :
    Wrote t r replicas seen (past ++ [a]) k action := by
  obtain ⟨front, response, since, rfl, hread, hkept⟩ := h
  refine ⟨front, response, since ++ [a], by simp, hread, fun x hx => ?_⟩
  rcases List.mem_append.1 hx with hx | hx
  · exact hkept x hx
  · exact List.mem_singleton.1 hx ▸ ha

theorem Wrote.given (h : Wrote t r replicas seen past k action) :
    Demo.given t r seen = some replicas := by
  obtain ⟨front, response, since, -, hread, -⟩ := h
  exact hread.1

theorem Stage.action?_of_script {st : Stage} {next : Except Error Response → Script}
    (h : st.script = .invoke action next) : st.action? = some action := by
  cases st with
  | leaving => cases h
  | reading | clearing | creating | marking => exact congrArg some (Script.invoke.inj h).1

theorem Op.given_applied {op : Op} {before : Option Nat}
    (h : (op.applied t).find? (widgetKey r) = some (widgetAt r replicas false))
    (hbefore : t.find? (widgetKey r) = some (widgetAt r replicas false) → before = some replicas) :
    op.given r before = some replicas := by
  cases op with
  | create m n | update m n =>
    by_cases hr : ⟨m.ns, m.name⟩ = r
    · subst hr
      rw [Op.applied, Tracker.find?_insert_self] at h
      obtain ⟨rfl, -⟩ := widgetAt_inj.1 (Option.some.inj h)
      rw [Op.given, if_pos rfl]
    · rw [Op.applied, Tracker.find?_insert_of_ne (mt widgetKey_inj.1 (Ne.symm hr))] at h
      rw [Op.given, if_neg hr, hbefore h]
  | delete x =>
    by_cases hr : x = r
    · subst hr
      rw [Op.applied, Tracker.find?_erase_self] at h
      cases h
    · rw [Op.applied, Tracker.find?_erase_of_ne (mt widgetKey_inj.1 (Ne.symm hr))] at h
      rw [Op.given, if_neg hr, hbefore h]

section Writes

variable {t' : Tracker} {op : Op} {ok : Bool} {e : Option WatchEvent} {m : Option Request} {x x' : Stage}

theorem Drives.key (h : Drives t op ok t' e) {k : Key} (he : e.map WatchEvent.key = some k) :
    ∃ r, k = widgetKey r := by
  cases h with
  | @written r => exact ⟨r, (Option.some.inj he).symm⟩
  | @deleted r => exact ⟨r, (Option.some.inj he).symm⟩
  | refused => cases he

theorem Drives.not_ready (h : Drives t op ok t' e) {r : Request}
    (he : e.map WatchEvent.key = some (widgetKey r)) (replicas : Nat) :
    t'.find? (widgetKey r) ≠ some (widgetAt r replicas true) := by
  cases h with
  | @written y n =>
    obtain rfl : y = r := widgetKey_inj.1 (Option.some.inj he)
    rw [Tracker.find?_insert_self]
    exact fun hw => absurd (widgetAt_inj.1 (Option.some.inj hw)).2 (by decide)
  | @deleted y =>
    obtain rfl : y = r := widgetKey_inj.1 (Option.some.inj he)
    rw [Tracker.find?_erase_self]
    exact nofun
  | refused => cases he

theorem Asks.config_cases (h : Asks t x t' e m x') (r : Request) :
    e.map WatchEvent.key ≠ some (configKey r) ∨ t'.find? (configKey r) = none ∨
      ∃ replicas, x = .creating r replicas ∧ e = some (configChange .added r) ∧
        t'.find? (configKey r) = some (configAt r replicas) := by
  cases h with
  | ready | unready | gone | clear | kept | lost => exact .inl nofun
  | @cleared y =>
    by_cases hr : y = r
    · exact .inr (.inl (hr ▸ Tracker.find?_erase_self t _))
    · exact .inl fun he => hr (configKey_inj.1 (Option.some.inj he))
  | @made y replicas =>
    by_cases hr : y = r
    · subst hr
      exact .inr (.inr ⟨replicas, rfl, rfl, Tracker.find?_insert_self t _ _⟩)
    · exact .inl fun he => hr (configKey_inj.1 (Option.some.inj he))
  | @marked y => exact .inl fun he => widgetKey_ne_configKey y r (Option.some.inj he)

theorem Asks.widget_cases (h : Asks t x t' e m x') (r : Request) :
    e.map WatchEvent.key ≠ some (widgetKey r) ∨
      ∃ replicas, x = .marking r replicas ∧ e = some (change .modified r) ∧
        t'.find? (widgetKey r) = some (widgetAt r replicas true) := by
  cases h with
  | ready | unready | gone | clear | kept | lost => exact .inl nofun
  | @cleared y => exact .inl fun he => widgetKey_ne_configKey r y (Option.some.inj he).symm
  | @made y => exact .inl fun he => widgetKey_ne_configKey r y (Option.some.inj he).symm
  | @marked y replicas =>
    by_cases hr : y = r
    · subst hr
      exact .inr ⟨replicas, rfl, rfl, Tracker.find?_insert_self t _ _⟩
    · exact .inl fun he => hr (widgetKey_inj.1 (Option.some.inj he))

theorem Asks.known_cases (h : Asks t x t' e m x') (hx : x'.known? = some (r, replicas)) :
    x.known? = some (r, replicas) ∨
      x = .reading r ∧ t.find? (widgetKey r) = some (widgetAt r replicas false) := by
  cases h with
  | ready | gone | cleared | clear | marked | lost => cases hx
  | unready hf =>
    cases hx
    exact .inr ⟨rfl, hf⟩
  | made | kept => exact .inl hx

end Writes

namespace Scene

variable {s s' : Scene} {st st' : Option Stage}

theorem Manages.changed? {sim : Simulation} (h : s.Manages a sim) : a.changed? = none := by
  cases h <;> rfl

theorem changed?_drive (s : Scene) (op : Op) : (Act.drive op (s.answer op.action)).changed? =
    (s.sim.bench.enact op.action).2.1.map WatchEvent.key := by
  rw [Bench.enact_event, Act.changed?, answer]
  split <;> rfl

theorem changed?_ask (s : Scene) (a : Action) : (Act.ask a (s.answer a)).changed? =
    (s.sim.bench.enact a).2.1.map WatchEvent.key := by
  rw [Bench.enact_event, Act.changed?, answer]
  split <;> rfl

theorem Staged.find?_of_ne (h : s.Staged st a s' st') (ha : a.changed? ≠ some k) :
    s'.sim.bench.tracker.find? k = s.sim.bench.tracker.find? k := by
  cases h with
  | manage hm => rw [hm.bench]
  | drive =>
    rw [changed?_drive] at ha
    exact Bench.enact_find?_of_ne ha
  | ask =>
    rw [changed?_ask] at ha
    exact Bench.enact_find?_of_ne ha
  | publish | take | conclude => rfl

theorem Step.action_of_ask {a : Action} {result : Except Error Response} (h : s.Sound st)
    (hs : s.Step (.ask a result) s') : ∃ x, st = some x ∧ x.action? = some a := by
  cases hs with
  | manage hm => cases hm
  | ask hp =>
    rw [h.pass] at hp
    obtain ⟨x, rfl, hx⟩ := Option.map_eq_some_iff.1 hp
    exact ⟨x, rfl, Stage.action?_of_script (Prod.mk.inj hx).2⟩

theorem answer_of_event {a : Action} {e : WatchEvent} (h : (s.sim.bench.enact a).2.1 = some e) :
    ∃ response, s.answer a = .ok response := by
  rw [Bench.enact_event] at h
  split at h
  next hok =>
    cases hr : s.answer a with
    | ok response => exact ⟨response, rfl⟩
    | error e =>
      rw [answer] at hr
      rw [hr] at hok
      cases hok
  · cases h

/-- A config map appears only at a request of a pass, and is made with the replicas the pass read. -/
theorem Staged.config_cases (h : s.Sound st) (hs : s.Step a s') (hst : s.Staged st a s' st')
    (r : Request) :
    a.changed? ≠ some (configKey r) ∨ s'.sim.bench.tracker.find? (configKey r) = none ∨
      ∃ replicas response, st = some (.creating r replicas) ∧
        a = .ask (creation r replicas) (.ok response) ∧
        s'.sim.bench.tracker.find? (configKey r) = some (configAt r replicas) := by
  cases hst with
  | manage hm =>
    refine .inl ?_
    rw [hm.changed?]
    exact nofun
  | publish | take | conclude => exact .inl nofun
  | drive hd =>
    refine .inl fun hk => ?_
    rw [changed?_drive] at hk
    obtain ⟨y, hy⟩ := hd.key hk
    exact widgetKey_ne_configKey y r hy.symm
  | @ask x x' a ha =>
    rcases ha.config_cases r with hk | hnone | ⟨replicas, rfl, he, hfind⟩
    · rw [← changed?_ask] at hk
      exact .inl hk
    · exact .inr (.inl hnone)
    · obtain ⟨response, hr⟩ := answer_of_event he
      obtain ⟨y, hy, haction⟩ := hs.action_of_ask h
      cases hy
      obtain rfl : creation r replicas = a := Option.some.inj haction
      exact .inr (.inr ⟨replicas, response, rfl, by rw [hr], hfind⟩)

/-- A widget becomes ready only at a request of a pass, and with the replicas the pass read. -/
theorem Staged.widget_cases (h : s.Sound st) (hs : s.Step a s') (hst : s.Staged st a s' st')
    {r : Request} {replicas : Nat}
    (hfind : s'.sim.bench.tracker.find? (widgetKey r) = some (widgetAt r replicas true)) :
    a.changed? ≠ some (widgetKey r) ∨ st = some (.marking r replicas) ∧
      ∃ response, a = .ask (marking r replicas) (.ok response) := by
  cases hst with
  | manage hm =>
    refine .inl ?_
    rw [hm.changed?]
    exact nofun
  | publish | take | conclude => exact .inl nofun
  | drive hd =>
    rw [changed?_drive]
    exact .inl fun hk => hd.not_ready hk replicas hfind
  | @ask x x' a ha =>
    rcases ha.widget_cases r with hk | ⟨n, rfl, he, hnew⟩
    · rw [← changed?_ask] at hk
      exact .inl hk
    · obtain ⟨rfl, -⟩ := widgetAt_inj.1 (Option.some.inj (hnew.symm.trans hfind))
      obtain ⟨response, hr⟩ := answer_of_event he
      obtain ⟨y, hy, haction⟩ := hs.action_of_ask h
      cases hy
      obtain rfl : marking r n = a := Option.some.inj haction
      exact .inr ⟨rfl, response, by rw [hr]⟩

end Scene

end Demo

end ControllerBench
