import ControllerBench.Proofs.Dispatch.Sequential
import ControllerBench.Proofs.Store.Origin
import ControllerBench.Simulation

namespace ControllerBench

def Key.request (k : Key) : Request := ⟨k.ns, k.name⟩

def WatchEvent.request (e : WatchEvent) : Request := ⟨e.ns, e.name⟩

def Object.request? (o : Object) : Option Request := o.metadata.map fun m => ⟨m.ns, m.name⟩

namespace Deed

variable {d : Deed} {k : Key} {o : Object}

theorem request?_eq_key_iff (h : d.stored? = some (k, o)) :
    o.request? = some k.request ↔ d.InOwnNamespace o := by
  obtain ⟨m, hm, hname, hns⟩ := metadata_of_stored h
  simp [Object.request?, Key.request, hm, hname, hns]

end Deed

namespace Bench

variable {b c : Bench}

structure Recounts (ds : List Deed) (b c : Bench) : Prop where
  tracker : c.tracker = b.tracker.doneAll ds
  events : c.events.toList = b.events.toList ++ b.tracker.newsAll ds

theorem Recounts.nil (h : b.SameStore c) : Recounts [] b c where
  tracker := h.tracker
  events := by rw [h.events, Tracker.newsAll, List.append_nil]

theorem Recounts.append {d : Bench} {ds es : List Deed} (h : Recounts ds b c) (h' : Recounts es c d) :
    Recounts (ds ++ es) b d where
  tracker := by rw [h'.tracker, h.tracker, Tracker.doneAll_append]
  events := by rw [h'.events, h.events, h.tracker, Tracker.newsAll_append, List.append_assoc]

theorem recounts_apply (b : Bench) (a : Action) : Recounts [.apply a] b (b.apply a).2 := by
  cases h : b.tracker.apply a with
  | error e =>
    constructor
    · simp [apply, h, Tracker.doneAll, Tracker.done, Tracker.perform, Except.map]
    · simp [apply, h, Tracker.newsAll, Tracker.news]
  | ok r =>
    constructor
    · simp [apply, h, publish_tracker, Tracker.doneAll, Tracker.done, Tracker.perform, Except.map]
    · cases he : a.event? <;> simp [apply, h, publish, he, Tracker.newsAll, Tracker.news]

theorem recounts_frame : Frame fun b c => ∃ ds, Recounts ds b c where
  refl _ := ⟨[], .nil ⟨rfl, rfl, rfl⟩⟩
  trans := by
    rintro b c d ⟨ds, h⟩ ⟨es, h'⟩
    exact ⟨ds ++ es, h.append h'⟩
  record _ _ := ⟨[], rfl, (List.append_nil _).symm⟩
  setReactor _ _ _ := ⟨[], .nil ⟨rfl, rfl, rfl⟩⟩
  report _ _ := ⟨[], .nil ⟨rfl, rfl, rfl⟩⟩
  install b label r p := ⟨[], .nil (rewires_install b label r p).toSameStore⟩
  remove b label := ⟨[], .nil (rewires_remove b label).toSameStore⟩
  apply b a := ⟨[.apply a], recounts_apply b a⟩

/-- What comes of requests to the tracker itself and to its clients, in any order; those that fail change nothing. -/
inductive Worked (reporter : Reporter) : Bench → Prop
  | fresh : Worked reporter { reporter }
  | add {b resource o tracker} :
      Worked reporter b → b.tracker.add resource o = .ok tracker → Worked reporter { b with tracker }
  | create {b resource ns o tracker} :
      Worked reporter b → b.tracker.create resource ns o = .ok tracker →
      Worked reporter { b with tracker }
  | update {b resource ns o tracker} :
      Worked reporter b → b.tracker.update resource ns o = .ok tracker →
      Worked reporter { b with tracker }
  | delete {b k tracker} :
      Worked reporter b → b.tracker.delete k = .ok tracker → Worked reporter { b with tracker }
  | client {b c depth outcome} {s : Script} :
      Worked reporter b → s.run (Bench.invoke depth) b = some (outcome, c) → Worked reporter c

theorem Recounts.direct {reporter : Reporter} {ds : List Deed} {d : Deed} {tracker : Tracker}
    (h : Recounts ds { reporter } b) (hd : b.tracker.perform d = .ok tracker)
    (hn : b.tracker.news d = []) : Recounts (ds ++ [d]) { reporter } { b with tracker } := by
  refine h.append (c := b) ⟨?_, ?_⟩
  · simp [Tracker.doneAll, Tracker.done, hd]
  · simp [Tracker.newsAll, hn]

theorem Worked.recounts {reporter : Reporter} (h : Worked reporter b) :
    ∃ ds, Recounts ds { reporter } b := by
  induction h with
  | fresh => exact ⟨[], .nil ⟨rfl, rfl, rfl⟩⟩
  | add _ hd ih =>
    obtain ⟨ds, h⟩ := ih
    exact ⟨_, h.direct (d := .add ..) hd rfl⟩
  | create _ hd ih =>
    obtain ⟨ds, h⟩ := ih
    exact ⟨_, h.direct (d := .create ..) hd rfl⟩
  | update _ hd ih =>
    obtain ⟨ds, h⟩ := ih
    exact ⟨_, h.direct (d := .update ..) hd rfl⟩
  | delete _ hd ih =>
    obtain ⟨ds, h⟩ := ih
    exact ⟨_, h.direct (d := .delete ..) hd rfl⟩
  | @client b c depth outcome s _ hrun ih =>
    have hframe := recounts_frame.run (recounts_frame.invoke depth) hrun
    exact recounts_frame.trans ih hframe

theorem find?_origin {reporter : Reporter} {ds : List Deed} (h : Recounts ds { reporter } b) {k : Key}
    {o : Object} (hf : b.tracker.find? k = some o) :
    ∃ earlier d later, Tracker.empty.Origin ds k o earlier d later := by
  have hm := Tracker.find?_eq_some.1 hf
  rw [h.tracker] at hm
  rcases Tracker.exists_origin hm with hinit | horigin
  · cases hinit
  · exact horigin

theorem Recounts.event_at {reporter : Reporter} {ds earlier later : List Deed} {k : Key} {o : Object}
    {a : Action} (h : Recounts ds { reporter } b)
    (ho : Tracker.empty.Origin ds k o earlier (.apply a) later) :
    ∃ e, a.event? = some e ∧ b.events[(Tracker.empty.newsAll earlier).length]? = some e ∧
      e.resource = k.resource ∧ e.request = k.request := by
  obtain ⟨e, he, hresource, hns, hname⟩ := Deed.event_of_stored ho.stored
  refine ⟨e, he, ?_, hresource, by rw [WatchEvent.request, hns, hname, Key.request]⟩
  obtain ⟨⟨response, t'⟩, haccepted, -⟩ := Tracker.map_eq_ok ho.accepted
  have hnews : (Tracker.empty.doneAll earlier).news (.apply a) = [e] := by
    simp [Tracker.news, haccepted, he]
  have hevents : b.events.toList = Tracker.empty.newsAll ds := h.events
  rw [← Array.getElem?_toList, hevents, ho.split, Tracker.newsAll_append, Tracker.newsAll, hnews]
  simp

theorem listing_requests {reporter : Reporter} {ds : List Deed} (h : Recounts ds { reporter } b)
    {s : Simulation} (hs : s.bench = b) (r : Resource) :
    (s.listing r).map (fun f => (f.1, some f.2)) =
      (b.tracker.entries.filter fun e => e.1.resource = r).map fun e => (r, e.2.request?) := by
  have hmeta : ∀ e ∈ b.tracker.entries, ∃ m, e.2.metadata = some m := by
    intro e he
    obtain ⟨earlier, d, later, horigin⟩ := find?_origin h (Tracker.find?_eq_some.2 he)
    obtain ⟨m, hm, -⟩ := Deed.metadata_of_stored horigin.stored
    exact ⟨m, hm⟩
  rw [Simulation.listing, hs, Tracker.list]
  revert hmeta
  generalize b.tracker.entries = es
  intro hmeta
  induction es with
  | nil => rfl
  | cons e rest ih =>
    obtain ⟨hfirst, hrest⟩ := List.forall_mem_cons.1 hmeta
    obtain ⟨m, hm⟩ := hfirst
    by_cases hr : e.1.resource = r
    · simpa [hr, hm, Object.request?] using ih hrest
    · simpa [hr] using ih hrest

/--
The watch event of a write names the key it wrote, the resync names the namespace that the object itself
names.
-/
theorem resync_names_key_iff_in_own_namespace {reporter : Reporter} (h : b.Worked reporter) :
    ∃ ds, Recounts ds { reporter } b ∧
      (∀ (s : Simulation) (r : Resource), s.bench = b →
        (s.listing r).map (fun f => (f.1, some f.2)) =
          (b.tracker.entries.filter fun e => e.1.resource = r).map fun e => (r, e.2.request?)) ∧
      ∀ k o, b.tracker.find? k = some o → ∃ earlier d later request,
        Tracker.empty.Origin ds k o earlier d later ∧ o.request? = some request ∧
          (request = k.request ↔ d.InOwnNamespace o) ∧
          (d.InOwnNamespace o → b.tracker.get ⟨k.resource, request.ns, request.name⟩ = .ok o) ∧
          ∀ a, d = .apply a → ∃ e, a.event? = some e ∧
            b.events[(Tracker.empty.newsAll earlier).length]? = some e ∧
            e.resource = k.resource ∧ e.request = k.request := by
  obtain ⟨ds, hds⟩ := h.recounts
  refine ⟨ds, hds, fun s r hs => listing_requests hds hs r, fun k o hf => ?_⟩
  obtain ⟨earlier, d, later, horigin⟩ := find?_origin hds hf
  obtain ⟨m, hm, -⟩ := Deed.metadata_of_stored horigin.stored
  have hrequest : o.request? = some ⟨m.ns, m.name⟩ := by simp [Object.request?, hm]
  have hiff := Deed.request?_eq_key_iff horigin.stored
  rw [hrequest, Option.some_inj] at hiff
  refine ⟨earlier, d, later, ⟨m.ns, m.name⟩, horigin, hrequest, hiff, fun hown => ?_, ?_⟩
  · have hkey : (⟨k.resource, m.ns, m.name⟩ : Key) = k := by
      have heq := hiff.2 hown
      simp only [Key.request, Request.mk.injEq] at heq
      rw [heq.1, heq.2]
    simp only [hkey, Tracker.get, hf]
  · rintro a rfl
    exact hds.event_at horigin

def seeded : Tracker := Tracker.empty.insert ⟨jobs, "ns", "b"⟩ (job "b")

def strayed : Action := ⟨.create (job "a"), jobs, "", "other"⟩

theorem seeded_object_is_asked_for_by_its_key :
    ∃ b : Bench, b.Worked ⟨"case"⟩ ∧ b.tracker.size = 2 ∧ ∃ ds earlier d later,
      Tracker.empty.Origin ds ⟨jobs, "ns", "b"⟩ (job "b") earlier d later ∧
        d.InOwnNamespace (job "b") := by
  have hadd : Tracker.empty.add jobs (job "b") = .ok seeded := rfl
  obtain ⟨⟨outcome, b⟩, hrun, hp⟩ := (Option.any_eq_true ..).1 (by decide +kernel :
    ((Script.invoke strayed fun _ => .done .pass).run (Bench.invoke 1)
      { reporter := ⟨"case"⟩, tracker := seeded }).any
      (fun r => decide (r.2.tracker.size = 2 ∧
        r.2.tracker.find? ⟨jobs, "ns", "b"⟩ = some (job "b"))) = true)
  obtain ⟨hsize, hfind⟩ := of_decide_eq_true hp
  have hb : b.Worked ⟨"case"⟩ := .client (.add .fresh hadd) hrun
  obtain ⟨ds, -, -, hall⟩ := resync_names_key_iff_in_own_namespace hb
  obtain ⟨earlier, d, later, request, horigin, hrequest, hiff, -⟩ := hall _ _ hfind
  exact ⟨b, hb, hsize, ds, earlier, d, later, horigin, hiff.1 (Option.some.inj hrequest).symm⟩

theorem strayed_object_is_asked_for_elsewhere :
    ∃ b : Bench, b.Worked ⟨"case"⟩ ∧ b.tracker.find? ⟨jobs, "other", "a"⟩ = some (job "a") ∧
      Simulation.listing { bench := b } jobs = [(jobs, ⟨"ns", "a"⟩)] ∧
      b.tracker.get ⟨jobs, "ns", "a"⟩ = .error (.notFound "jobs" "a") ∧
      b.events.toList.map (·.request) = [⟨"other", "a"⟩] := by
  obtain ⟨⟨outcome, b⟩, hrun, hp⟩ := (Option.any_eq_true ..).1 (by decide +kernel :
    ((Script.invoke strayed fun _ => .done .pass).run (Bench.invoke 1) { reporter := ⟨"case"⟩ }).any
      (fun r => decide (r.2.tracker.find? ⟨jobs, "other", "a"⟩ = some (job "a") ∧
        Simulation.listing { bench := r.2 } jobs = [(jobs, ⟨"ns", "a"⟩)] ∧
        r.2.tracker.find? ⟨jobs, "ns", "a"⟩ = none ∧
        r.2.events.toList.map (·.request) = [⟨"other", "a"⟩])) = true)
  obtain ⟨hfind, hlisting, hnone, hevents⟩ := of_decide_eq_true hp
  refine ⟨b, .client .fresh hrun, hfind, hlisting, ?_, hevents⟩
  simp only [Tracker.get, hnone]
  rfl

end Bench

end ControllerBench
