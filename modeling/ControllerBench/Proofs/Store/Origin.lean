import ControllerBench.Proofs.Dispatch.Frame
import ControllerBench.Proofs.Store.Keys

namespace ControllerBench

inductive Deed where
  | add (resource : Resource) (o : Object)
  | create (resource : Resource) (ns : String) (o : Object)
  | update (resource : Resource) (ns : String) (o : Object)
  | delete (k : Key)
  | apply (a : Action)

namespace Deed

/-- Seeding reads the namespace off the object, all others are told one. -/
def stored? : Deed → Option (Key × Object)
  | add resource o => o.metadata.map fun m => (⟨resource, m.ns, m.name⟩, o)
  | create resource ns o | update resource ns o => o.metadata.map fun m => (⟨resource, ns, m.name⟩, o)
  | delete _ => none
  | apply a =>
    match a.operation with
    | .create o | .update o => o.metadata.map fun m => (⟨a.resource, a.ns, m.name⟩, o)
    | .delete _ | .get _ | .list | .generic .. => none

def ns? : Deed → Option String
  | add .. => none
  | create _ ns _ | update _ ns _ => some ns
  | delete k => some k.ns
  | apply a => some a.ns

def InOwnNamespace (d : Deed) (o : Object) : Prop :=
  ∀ ns, d.ns? = some ns → o.metadata.map (·.ns) = some ns

variable {d : Deed} {k : Key} {o : Object}

theorem metadata_of_stored (h : d.stored? = some (k, o)) :
    ∃ m, o.metadata = some m ∧ m.name = k.name ∧ (m.ns = k.ns ↔ d.InOwnNamespace o) := by
  cases d with
  | add resource o' =>
    obtain ⟨m, hm, he⟩ := Option.map_eq_some_iff.1 h
    cases he
    exact ⟨m, hm, rfl, iff_of_true rfl nofun⟩
  | create resource ns o' | update resource ns o' =>
    obtain ⟨m, hm, he⟩ := Option.map_eq_some_iff.1 h
    cases he
    exact ⟨m, hm, rfl, by simp [InOwnNamespace, ns?, hm]⟩
  | delete k' => cases h
  | apply a =>
    simp only [stored?] at h
    split at h
    · obtain ⟨m, hm, he⟩ := Option.map_eq_some_iff.1 h
      cases he
      exact ⟨m, hm, rfl, by simp [InOwnNamespace, ns?, hm]⟩
    · obtain ⟨m, hm, he⟩ := Option.map_eq_some_iff.1 h
      cases he
      exact ⟨m, hm, rfl, by simp [InOwnNamespace, ns?, hm]⟩
    all_goals cases h

theorem event_of_stored {a : Action} (h : (Deed.apply a).stored? = some (k, o)) :
    ∃ e, a.event? = some e ∧ e.resource = k.resource ∧ e.ns = k.ns ∧ e.name = k.name := by
  simp only [stored?] at h
  split at h
  next o' ho =>
    obtain ⟨m, hm, he⟩ := Option.map_eq_some_iff.1 h
    cases he
    refine ⟨⟨.added, a.resource, a.ns, m.name⟩, ?_, rfl, rfl, rfl⟩
    simp [Action.event?, Action.name?, ho, Operation.change?, Operation.name?, Object.name?, hm]
  next o' ho =>
    obtain ⟨m, hm, he⟩ := Option.map_eq_some_iff.1 h
    cases he
    refine ⟨⟨.modified, a.resource, a.ns, m.name⟩, ?_, rfl, rfl, rfl⟩
    simp [Action.event?, Action.name?, ho, Operation.change?, Operation.name?, Object.name?, hm]
  all_goals cases h

end Deed

namespace Tracker

variable {t t' : Tracker} {k : Key} {o : Object} {d : Deed}

def perform (t : Tracker) : Deed → Except Error Tracker
  | .add resource o => t.add resource o
  | .create resource ns o => t.create resource ns o
  | .update resource ns o => t.update resource ns o
  | .delete k => t.delete k
  | .apply a => (t.apply a).map (·.2)

def done (t : Tracker) (d : Deed) : Tracker :=
  match t.perform d with
  | .ok t' => t'
  | .error _ => t

def doneAll (t : Tracker) (ds : List Deed) : Tracker := ds.foldl done t

def news (t : Tracker) : Deed → List WatchEvent
  | .apply a =>
    match t.apply a with
    | .ok _ => a.event?.toList
    | .error _ => []
  | .add .. | .create .. | .update .. | .delete _ => []

def newsAll : Tracker → List Deed → List WatchEvent
  | _, [] => []
  | t, d :: rest => t.news d ++ (t.done d).newsAll rest

theorem doneAll_append (t : Tracker) (ds es : List Deed) :
    t.doneAll (ds ++ es) = (t.doneAll ds).doneAll es := List.foldl_append ..

theorem newsAll_append (t : Tracker) (ds es : List Deed) :
    t.newsAll (ds ++ es) = t.newsAll ds ++ (t.doneAll ds).newsAll es := by
  induction ds generalizing t with
  | nil => rfl
  | cons d rest ih =>
    rw [List.cons_append, newsAll, newsAll, ih, List.append_assoc]
    rfl

theorem add_ok {resource : Resource} (h : t.add resource o = .ok t') :
    ∃ m, o.metadata = some m ∧ t' = t.insert ⟨resource, m.ns, m.name⟩ o := by
  unfold add at h
  split at h
  · cases h
  next m hm =>
    cases h
    exact ⟨m, Object.accessor_eq_ok.1 hm, rfl⟩

theorem mem_insert {k' : Key} {o' : Object} (h : (k, o) ∈ (t.insert k' o').entries) :
    (k', o') = (k, o) ∨ (k, o) ∈ t.entries :=
  (mem_insertEntry h).imp_left Eq.symm

theorem mem_erase {k' : Key} (h : (k, o) ∈ (t.erase k').entries) : (k, o) ∈ t.entries :=
  (List.mem_filter.1 h).1

theorem Accepts.stored {a : Action} {response : Response} (h : t.Accepts a response t')
    (hm : (k, o) ∈ t'.entries) : (Deed.apply a).stored? = some (k, o) ∨ (k, o) ∈ t.entries := by
  cases h with
  | create ho _ hmeta | update ho hmeta => simpa [Deed.stored?, ho, hmeta] using mem_insert hm
  | delete => exact .inr (mem_erase hm)
  | get | list => exact .inr hm

theorem stored_of_perform (h : t.perform d = .ok t') (hm : (k, o) ∈ t'.entries) :
    d.stored? = some (k, o) ∨ (k, o) ∈ t.entries := by
  cases d with
  | add resource o' =>
    obtain ⟨m, hmeta, rfl⟩ := add_ok h
    simpa [Deed.stored?, hmeta] using mem_insert hm
  | create resource ns o' =>
    obtain ⟨m, hmeta, -, rfl⟩ := create_ok h
    simpa [Deed.stored?, hmeta] using mem_insert hm
  | update resource ns o' =>
    obtain ⟨m, hmeta, -, rfl⟩ := update_ok h
    simpa [Deed.stored?, hmeta] using mem_insert hm
  | delete k' =>
    obtain ⟨-, rfl⟩ := delete_ok h
    exact .inr (mem_erase hm)
  | apply a =>
    obtain ⟨⟨response, t''⟩, happly, rfl⟩ := map_eq_ok h
    exact (accepts_of_apply happly).stored hm

/-- The deed that stored an object, and since then the object has been where it is. -/
structure Origin (t : Tracker) (ds : List Deed) (k : Key) (o : Object) (earlier : List Deed) (d : Deed)
    (later : List Deed) : Prop where
  split : ds = earlier ++ d :: later
  accepted : (t.doneAll earlier).perform d = .ok (t.doneAll (earlier ++ [d]))
  stored : d.stored? = some (k, o)
  kept : ∀ rest, rest <+: later → (k, o) ∈ (t.doneAll (earlier ++ d :: rest)).entries

theorem Origin.concat {ds earlier later : List Deed} (h : t.Origin ds k o earlier d later) {d' : Deed}
    (hm : (k, o) ∈ (t.doneAll (ds ++ [d'])).entries) :
    t.Origin (ds ++ [d']) k o earlier d (later ++ [d']) where
  split := by rw [h.split, List.append_assoc, List.cons_append]
  accepted := h.accepted
  stored := h.stored
  kept rest hr := by
    rcases List.prefix_concat_iff.1 hr with rfl | hr
    · rwa [h.split, List.append_assoc, List.cons_append] at hm
    · exact h.kept rest hr

theorem exists_origin {ds : List Deed} (hm : (k, o) ∈ (t.doneAll ds).entries) :
    (k, o) ∈ t.entries ∨ ∃ earlier d later, t.Origin ds k o earlier d later := by
  induction ds using List.reverseRecOn with
  | nil => exact .inl hm
  | append_singleton ds d ih =>
    have hdone : t.doneAll (ds ++ [d]) = (t.doneAll ds).done d := doneAll_append ..
    have carry (hold : (k, o) ∈ (t.doneAll ds).entries) :
        (k, o) ∈ t.entries ∨ ∃ earlier d' later, t.Origin (ds ++ [d]) k o earlier d' later := by
      rcases ih hold with hinit | ⟨earlier, d', later, horigin⟩
      · exact .inl hinit
      · exact .inr ⟨earlier, d', later ++ [d], horigin.concat hm⟩
    cases hp : (t.doneAll ds).perform d with
    | error e =>
      have hsame : (t.doneAll ds).done d = t.doneAll ds := by simp only [done, hp]
      exact carry (hsame ▸ hdone ▸ hm)
    | ok t' =>
      have hnew : (t.doneAll ds).done d = t' := by simp only [done, hp]
      rcases stored_of_perform hp (hnew ▸ hdone ▸ hm) with hstored | hold
      · refine .inr ⟨ds, d, [], rfl, ?_, hstored, fun rest hr => ?_⟩
        · rw [hp, hdone, hnew]
        · rwa [List.prefix_nil.1 hr]
      · exact carry hold

end Tracker

end ControllerBench
