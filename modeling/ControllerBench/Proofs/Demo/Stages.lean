import ControllerBench.Proofs.Demo.Interleaving
import ControllerBench.Proofs.Demo.Stock

namespace ControllerBench

namespace Tracker

variable {t : Tracker} {resource : Resource} {ns name sub : String} {o : Object} {m : ObjectMeta}

theorem apply_get_some (h : t.find? ⟨resource, ns, name⟩ = some o) :
    t.apply ⟨.get name, resource, sub, ns⟩ = .ok (.object o, t) := by
  simp [apply, get, h, Except.map]

theorem apply_get_none (h : t.find? ⟨resource, ns, name⟩ = none) :
    t.apply ⟨.get name, resource, sub, ns⟩ = .error (missing ⟨resource, ns, name⟩) := by
  simp [apply, get, h, Except.map]

theorem apply_delete_of_mem (h : ⟨resource, ns, name⟩ ∈ t.keys) (hs : sub.isEmpty = true) :
    t.apply ⟨.delete name, resource, sub, ns⟩ = .ok (.empty, t.erase ⟨resource, ns, name⟩) := by
  simp [apply, delete, isSome_find?, h, hs, Except.map]

theorem apply_delete_of_notMem (h : ⟨resource, ns, name⟩ ∉ t.keys) (hs : sub.isEmpty = true) :
    t.apply ⟨.delete name, resource, sub, ns⟩ = .error (missing ⟨resource, ns, name⟩) := by
  simp [apply, delete, isSome_find?, h, hs, Except.map]

theorem apply_create_of_mem (hm : o.accessor = .ok m) (h : ⟨resource, ns, m.name⟩ ∈ t.keys)
    (hs : sub.isEmpty = true) :
    t.apply ⟨.create o, resource, sub, ns⟩ =
      .error (.alreadyExists resource.groupResource m.name) := by
  simp [apply, create, hm, isSome_find?, h, hs, Except.map]

theorem apply_create_of_notMem (hm : o.accessor = .ok m) (h : ⟨resource, ns, m.name⟩ ∉ t.keys)
    (hs : sub.isEmpty = true) :
    t.apply ⟨.create o, resource, sub, ns⟩ = .ok (.object o, t.insert ⟨resource, ns, m.name⟩ o) := by
  simp [apply, create, hm, isSome_find?, h, hs, Except.map]

theorem apply_update_of_mem (hm : o.accessor = .ok m) (h : ⟨resource, ns, m.name⟩ ∈ t.keys) :
    t.apply ⟨.update o, resource, sub, ns⟩ = .ok (.object o, t.insert ⟨resource, ns, m.name⟩ o) := by
  simp [apply, update, hm, isSome_find?, h, Except.map]

theorem apply_update_of_notMem (hm : o.accessor = .ok m) (h : ⟨resource, ns, m.name⟩ ∉ t.keys) :
    t.apply ⟨.update o, resource, sub, ns⟩ = .error (missing ⟨resource, ns, m.name⟩) := by
  simp [apply, update, hm, isSome_find?, h, Except.map]

end Tracker

namespace Bench

variable {b : Bench} {a : Action}

theorem enact_ok {response : Response} {t : Tracker} (h : b.tracker.apply a = .ok (response, t)) :
    b.enact a = (.ok response, a.event?, { b.record a with tracker := t }) := by
  rw [enact, h]

theorem enact_error {e : Error} (h : b.tracker.apply a = .error e) :
    b.enact a = (.error e, none, b.record a) := by
  rw [enact, h]

end Bench

namespace Demo

/-- Where a pass stands: it looks at the widget, then goes one of two ways. -/
inductive Stage where
  | reading (r : Request)
  | clearing (r : Request)
  | creating (r : Request) (replicas : Nat)
  | marking (r : Request) (replicas : Nat)
  | leaving (r : Request) (outcome : Outcome)

namespace Stage

def request : Stage → Request
  | reading r | clearing r | creating r _ | marking r _ | leaving r _ => r

def found (r : Request) (replicas : Nat) : Widget := ⟨⟨r.ns, r.name⟩, replicas, false⟩

def script : Stage → Script
  | reading r => reconcile r
  | clearing r => cleanUp r
  | creating r replicas => setUp r (found r replicas)
  | marking r replicas => markReady (found r replicas)
  | leaving _ outcome => .done outcome

def pass (st : Stage) : Request × Script := (st.request, st.script)

end Stage

def statusUpdate? (a : Action) : Option Request :=
  match a.operation with
  | .update o => if a.sub = "status" then o.name?.map fun name => ⟨a.ns, name⟩ else none
  | .create _ | .delete _ | .get _ | .list | .generic .. => none

def change (change : Change) (r : Request) : WatchEvent := ⟨change, widgets, r.ns, r.name⟩

def configChange (change : Change) (r : Request) : WatchEvent :=
  ⟨change, configMaps, r.ns, configName r.name⟩

/-- A request of a pass: what is stored after it, the event it is to publish, and the widget it made ready. -/
inductive Asks (t : Tracker) : Stage → Tracker → Option WatchEvent → Option Request → Stage → Prop
  | ready {r} : ready? t r = some true → Asks t (.reading r) t none none (.leaving r .pass)
  | unready {r replicas} :
      t.find? (widgetKey r) = some (widgetAt r replicas false) →
      Asks t (.reading r) t none none (.creating r replicas)
  | gone {r} : ready? t r = none → Asks t (.reading r) t none none (.clearing r)
  | cleared {r} :
      Mapped t r →
      Asks t (.clearing r) (t.erase (configKey r)) (some (configChange .deleted r)) none
        (.leaving r .pass)
  | clear {r} : ¬ Mapped t r → Asks t (.clearing r) t none none (.leaving r .pass)
  | made {r replicas} :
      ¬ Mapped t r →
      Asks t (.creating r replicas) (t.insert (configKey r) (configAt r replicas))
        (some (configChange .added r)) none (.marking r replicas)
  | kept {r replicas} :
      Mapped t r → Asks t (.creating r replicas) t none none (.marking r replicas)
  | marked {r replicas} :
      ready? t r ≠ none →
      Asks t (.marking r replicas) (t.insert (widgetKey r) (widgetAt r replicas true))
        (some (change .modified r)) (some r) (.leaving r .pass)
  | lost {r replicas outcome} :
      ready? t r = none → Asks t (.marking r replicas) t none none (.leaving r outcome)

theorem Asks.request {t t' : Tracker} {e : Option WatchEvent} {m : Option Request} {st st' : Stage}
    (h : Asks t st t' e m st') : st'.request = st.request := by
  cases h <;> rfl

def Op.written? : Op → Option Request
  | create m _ | update m _ => some ⟨m.ns, m.name⟩
  | delete _ => none

/-- A write of the driver: whether it is accepted, what is stored after it and the event it is to publish. -/
inductive Drives (t : Tracker) (op : Op) : Bool → Tracker → Option WatchEvent → Prop
  | written {r replicas kind} :
      op.written? = some r →
      Drives t op true (t.insert (widgetKey r) (widgetAt r replicas false)) (some (change kind r))
  | deleted {r} :
      op = .delete r → Drives t op true (t.erase (widgetKey r)) (some (change .deleted r))
  | refused : Drives t op false t none

def Op.event : Op → WatchEvent
  | create m _ => change .added ⟨m.ns, m.name⟩
  | update m _ => change .modified ⟨m.ns, m.name⟩
  | delete r => change .deleted r

def Op.applied (t : Tracker) : Op → Tracker
  | create m replicas | update m replicas =>
    t.insert (widgetKey ⟨m.ns, m.name⟩) (widgetAt ⟨m.ns, m.name⟩ replicas false)
  | delete r => t.erase (widgetKey r)

theorem Op.enact_cases (op : Op) (b : Bench) :
    (∃ response, b.enact op.action =
        (.ok response, some op.event, { b.record op.action with tracker := op.applied b.tracker })) ∨
      ∃ e, b.enact op.action = (.error e, none, b.record op.action) := by
  cases op with
  | create m replicas =>
    have hm : (widgetObject m replicas false).accessor = .ok m := rfl
    by_cases hk : ⟨widgets, m.ns, m.name⟩ ∈ b.tracker.keys
    · exact .inr ⟨_, Bench.enact_error (Tracker.apply_create_of_mem hm hk rfl)⟩
    · exact .inl ⟨_, Bench.enact_ok (Tracker.apply_create_of_notMem hm hk rfl)⟩
  | update m replicas =>
    have hm : (widgetObject m replicas false).accessor = .ok m := rfl
    by_cases hk : ⟨widgets, m.ns, m.name⟩ ∈ b.tracker.keys
    · exact .inl ⟨_, Bench.enact_ok (Tracker.apply_update_of_mem hm hk)⟩
    · exact .inr ⟨_, Bench.enact_error (Tracker.apply_update_of_notMem hm hk)⟩
  | delete r =>
    by_cases hk : ⟨widgets, r.ns, r.name⟩ ∈ b.tracker.keys
    · exact .inl ⟨_, Bench.enact_ok (Tracker.apply_delete_of_mem hk rfl)⟩
    · exact .inr ⟨_, Bench.enact_error (Tracker.apply_delete_of_notMem hk rfl)⟩

theorem Op.drives (op : Op) (b : Bench) :
    Drives b.tracker op (b.enact op.action).1.isOk (b.enact op.action).2.2.tracker
      (b.enact op.action).2.1 := by
  rcases op.enact_cases b with ⟨response, h⟩ | ⟨e, h⟩
  · rw [h]
    cases op with
    | create | update => exact .written rfl
    | delete => exact .deleted rfl
  · rw [h]
    exact .refused

theorem Drives.keeps {t t' : Tracker} {op : Op} {ok : Bool} {e : Option WatchEvent} {r : Request}
    (h : Drives t op ok t' e) (hk : widgetKey r ∈ t.keys) :
    widgetKey r ∈ t'.keys ∨ ∃ kind, e = some (change kind r) := by
  cases h with
  | written => exact .inl (Tracker.keys_insert .. ▸ Finset.mem_insert_of_mem hk)
  | @deleted x =>
    by_cases hr : r = x
    · exact .inr ⟨.deleted, hr ▸ rfl⟩
    · refine .inl ?_
      rw [Tracker.keys_erase]
      exact Finset.mem_erase.2 ⟨mt widgetKey_inj.1 hr, hk⟩
  | refused => exact .inl hk

theorem Asks.keeps {t t' : Tracker} {e : Option WatchEvent} {m : Option Request} {st st' : Stage}
    {r : Request} (h : Asks t st t' e m st') (hk : widgetKey r ∈ t.keys) : widgetKey r ∈ t'.keys := by
  cases h with
  | ready | unready | gone | clear | kept | lost => exact hk
  | cleared =>
    rw [Tracker.keys_erase]
    exact Finset.mem_erase.2 ⟨widgetKey_ne_configKey r _, hk⟩
  | made | marked => exact Tracker.keys_insert .. ▸ Finset.mem_insert_of_mem hk

theorem Drives.stocked {t t' : Tracker} {op : Op} {ok : Bool} {e : Option WatchEvent}
    (h : Drives t op ok t' e) (hs : Stocked t) : Stocked t' := by
  cases h with
  | written => exact hs.insert_widget _ _ _
  | deleted => exact hs.erase _
  | refused => exact hs

theorem Asks.stocked {t t' : Tracker} {e : Option WatchEvent} {m : Option Request} {st st' : Stage}
    (h : Asks t st t' e m st') (hs : Stocked t) : Stocked t' := by
  cases h with
  | ready | unready | gone | clear | kept | lost => exact hs
  | cleared => exact hs.erase _
  | made => exact hs.insert_config _ _
  | marked => exact hs.insert_widget _ _ _

section Requests

variable {b : Bench} {r : Request} {replicas : Nat} {a : Action} {next : Except Error Response → Script}

def Answered (b : Bench) (st : Stage) (a : Action) (next : Except Error Response → Script) : Prop :=
  ∃ st' : Stage, next (b.enact a).1 = st'.script ∧
    Asks b.tracker st (b.enact a).2.2.tracker (b.enact a).2.1
      (if (b.enact a).1.isOk then statusUpdate? a else none) st'

theorem reading_answered (hs : Stocked b.tracker) (h : (Stage.reading r).script = .invoke a next) :
    Answered b (.reading r) a next := by
  obtain ⟨ha, rfl⟩ := Script.invoke.inj h
  change ⟨.get r.name, widgets, "", r.ns⟩ = a at ha
  subst ha
  unfold Answered
  cases hf : b.tracker.find? (widgetKey r) with
  | none =>
    have hr : ready? b.tracker r = none := by rw [ready?, hf]; rfl
    rw [Bench.enact_error (Tracker.apply_get_none hf)]
    exact ⟨.clearing r, rfl, .gone hr⟩
  | some o =>
    obtain ⟨replicas, ready, rfl⟩ := hs.widget_of_find? hf
    rw [Bench.enact_ok (Tracker.apply_get_some hf)]
    cases ready with
    | true => exact ⟨.leaving r .pass, rfl, .ready (hs.ready?_eq_some.2 ⟨replicas, hf⟩)⟩
    | false => exact ⟨.creating r replicas, rfl, .unready hf⟩

theorem clearing_answered (h : (Stage.clearing r).script = .invoke a next) :
    Answered b (.clearing r) a next := by
  obtain ⟨ha, rfl⟩ := Script.invoke.inj h
  change ⟨.delete (configName r.name), configMaps, "", r.ns⟩ = a at ha
  subst ha
  unfold Answered
  by_cases hm : Mapped b.tracker r
  · rw [Bench.enact_ok (Tracker.apply_delete_of_mem hm rfl)]
    exact ⟨.leaving r .pass, rfl, .cleared hm⟩
  · rw [Bench.enact_error (Tracker.apply_delete_of_notMem hm rfl)]
    exact ⟨.leaving r .pass, rfl, .clear hm⟩

theorem creating_answered (h : (Stage.creating r replicas).script = .invoke a next) :
    Answered b (.creating r replicas) a next := by
  obtain ⟨ha, rfl⟩ := Script.invoke.inj h
  change ⟨.create (configAt r replicas), configMaps, "", r.ns⟩ = a at ha
  subst ha
  unfold Answered
  have hm : (configAt r replicas).accessor = .ok ⟨r.ns, configName r.name⟩ := rfl
  by_cases hmap : Mapped b.tracker r
  · rw [Bench.enact_error (Tracker.apply_create_of_mem hm hmap rfl)]
    exact ⟨.marking r replicas, rfl, .kept hmap⟩
  · rw [Bench.enact_ok (Tracker.apply_create_of_notMem hm hmap rfl)]
    exact ⟨.marking r replicas, rfl, .made hmap⟩

theorem marking_answered (hs : Stocked b.tracker)
    (h : (Stage.marking r replicas).script = .invoke a next) :
    Answered b (.marking r replicas) a next := by
  obtain ⟨ha, rfl⟩ := Script.invoke.inj h
  change ⟨.update (widgetAt r replicas true), widgets, "status", r.ns⟩ = a at ha
  subst ha
  unfold Answered
  have hm : (widgetAt r replicas true).accessor = .ok ⟨r.ns, r.name⟩ := rfl
  by_cases hk : widgetKey r ∈ b.tracker.keys
  · rw [Bench.enact_ok (Tracker.apply_update_of_mem hm hk)]
    exact ⟨.leaving r .pass, rfl, .marked (mt hs.ready?_eq_none.1 (not_not.2 hk))⟩
  · rw [Bench.enact_error (Tracker.apply_update_of_notMem hm hk)]
    exact ⟨.leaving r _, rfl, .lost (hs.ready?_eq_none.2 hk)⟩

theorem Stage.answered {st : Stage} (hs : Stocked b.tracker) (h : st.script = .invoke a next) :
    Answered b st a next := by
  cases st with
  | reading r => exact reading_answered hs h
  | clearing r => exact clearing_answered h
  | creating r replicas => exact creating_answered h
  | marking r replicas => exact marking_answered hs h
  | leaving r outcome => cases h

theorem Stage.asks_or_leaves (st : Stage) :
    (∃ a next, st.script = .invoke a next) ∨ ∃ r outcome, st = .leaving r outcome := by
  cases st with
  | reading | clearing | creating | marking => exact .inl ⟨_, _, rfl⟩
  | leaving r outcome => exact .inr ⟨r, outcome, rfl⟩

end Requests

end Demo

end ControllerBench
