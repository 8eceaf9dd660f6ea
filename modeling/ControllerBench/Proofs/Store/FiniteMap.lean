import Mathlib.Data.Finmap
import ControllerBench.Proofs.Store.ByteOrder
import ControllerBench.Proofs.Store.Entries

namespace ControllerBench

abbrev Holdings := Finmap fun _ : Key => Object

inductive Query where
  | add (resource : Resource) (o : Object)
  | create (resource : Resource) (ns : String) (o : Object)
  | update (resource : Resource) (ns : String) (o : Object)
  | delete (k : Key)
  | get (k : Key)
  | list (resource : Resource) (ns : String)
  | apply (a : Action)

namespace Query

def object? : Query → Option Object
  | add _ o | create _ _ o | update _ _ o => some o
  | delete _ | get _ | list .. | apply _ => none

def key? : Query → Option Key
  | add resource o => o.metadata.map fun d => ⟨resource, d.ns, d.name⟩
  | create resource ns o | update resource ns o => o.metadata.map fun d => ⟨resource, ns, d.name⟩
  | delete k => some k
  | get _ | list .. => none
  | apply a =>
    match a.operation with
    | .create o | .update o => o.metadata.map fun d => ⟨a.resource, a.ns, d.name⟩
    | .delete name => some ⟨a.resource, a.ns, name⟩
    | .get _ | .list | .generic .. => none

/-- An update or a read of a subresource is one of the parent. -/
def ofAction (a : Action) : Except Error Query :=
  match a.operation with
  | .create o =>
    if a.sub = "" then .ok (.create a.resource a.ns o) else .error (.unsupported (Tracker.subject a))
  | .update o => .ok (.update a.resource a.ns o)
  | .delete name =>
    if a.sub = "" then .ok (.delete ⟨a.resource, a.ns, name⟩)
    else .error (.unsupported (Tracker.subject a))
  | .get name => .ok (.get ⟨a.resource, a.ns, name⟩)
  | .list => .ok (.list a.resource a.ns)
  | .generic .. => .error (.unsupported (Tracker.subject a))

theorem key?_ofAction {a : Action} {q : Query} (h : ofAction a = .ok q) : (apply a).key? = q.key? := by
  unfold ofAction at h
  cases ho : a.operation with
  | create o | delete name =>
    simp only [ho] at h
    split at h
    · cases h
      simp [key?, ho]
    · cases h
  | update o | get name | list =>
    simp only [ho] at h
    cases h
    simp [key?, ho]
  | generic verb o =>
    simp only [ho] at h
    cases h

theorem ofAction_ne_apply {a : Action} {q : Query} (h : ofAction a = .ok q) (a' : Action) :
    q ≠ .apply a' := by
  rintro rfl
  unfold ofAction at h
  split at h
  · split at h <;> cases h
  · cases h
  · split at h <;> cases h
  · cases h
  · cases h
  · cases h

end Query

namespace Holdings

def Before (j k : Key) : Prop :=
  bytes j.ns < bytes k.ns ∨ j.ns = k.ns ∧ bytes j.name < bytes k.name

/-- The keys of a resource in a namespace, in all of them if it is empty, in order. -/
structure Listing (m : Holdings) (resource : Resource) (ns : String) (ks : List Key) : Prop where
  mem : ∀ k, k ∈ ks ↔ k ∈ m ∧ k.resource = resource ∧ (ns = "" ∨ k.ns = ns)
  increasing : ks.Pairwise Before

inductive Answers (m : Holdings) : Query → Except Error Response → Holdings → Prop
  | unnamed {q o} : q.object? = some o → o.metadata = none →
      Answers m q (.error (.missingMetadata o.kind.typeName)) m
  | added {resource o d} : o.metadata = some d →
      Answers m (.add resource o) (.ok .empty) (m.insert ⟨resource, d.ns, d.name⟩ o)
  | created {resource ns o d} : o.metadata = some d → ⟨resource, ns, d.name⟩ ∉ m →
      Answers m (.create resource ns o) (.ok (.object o)) (m.insert ⟨resource, ns, d.name⟩ o)
  | clashes {resource ns o d} : o.metadata = some d → ⟨resource, ns, d.name⟩ ∈ m →
      Answers m (.create resource ns o) (.error (.alreadyExists resource.groupResource d.name)) m
  | updated {resource ns o d} : o.metadata = some d → ⟨resource, ns, d.name⟩ ∈ m →
      Answers m (.update resource ns o) (.ok (.object o)) (m.insert ⟨resource, ns, d.name⟩ o)
  | stale {resource ns o d} : o.metadata = some d → ⟨resource, ns, d.name⟩ ∉ m →
      Answers m (.update resource ns o) (.error (.notFound resource.groupResource d.name)) m
  | deleted {k} : k ∈ m → Answers m (.delete k) (.ok .empty) (m.erase k)
  | gone {k} : k ∉ m →
      Answers m (.delete k) (.error (.notFound k.resource.groupResource k.name)) m
  | found {k o} : m.lookup k = some o → Answers m (.get k) (.ok (.object o)) m
  | missing {k} : k ∉ m →
      Answers m (.get k) (.error (.notFound k.resource.groupResource k.name)) m
  | listed {resource ns ks os} : m.Listing resource ns ks → ks.map m.lookup = os.map some →
      Answers m (.list resource ns) (.ok (.list os)) m
  | applied {a q x n} : Query.ofAction a = .ok q → Answers m q x n → Answers m (.apply a) x n
  | unsupported {a e} : Query.ofAction a = .error e → Answers m (.apply a) (.error e) m

inductive Converses : Holdings → List Query → List (Except Error Response) → Holdings → Prop
  | nil {m} : Converses m [] [] m
  | cons {m n p q x qs xs} : Answers m q x n → Converses n qs xs p →
      Converses m (q :: qs) (x :: xs) p

end Holdings

namespace Tracker

/-- A query that fails leaves the tracker as it is. -/
def conclude (t : Tracker) (x : Except Error (Response × Tracker)) : Except Error Response × Tracker :=
  match x with
  | .ok (response, t') => (.ok response, t')
  | .error e => (.error e, t)

def serve (t : Tracker) : Query → Except Error Response × Tracker
  | .add resource o => t.conclude ((t.add resource o).map ((.empty, ·)))
  | .create resource ns o => t.conclude ((t.create resource ns o).map ((.object o, ·)))
  | .update resource ns o => t.conclude ((t.update resource ns o).map ((.object o, ·)))
  | .delete k => t.conclude ((t.delete k).map ((.empty, ·)))
  | .get k => t.conclude ((t.get k).map ((.object ·, t)))
  | .list resource ns => (.ok (.list (t.list resource ns)), t)
  | .apply a => t.conclude (t.apply a)

def serveAll (t : Tracker) : List Query → List (Except Error Response) × Tracker
  | [] => ([], t)
  | q :: rest => ((t.serve q).1 :: ((t.serve q).2.serveAll rest).1, ((t.serve q).2.serveAll rest).2)

def holdings (t : Tracker) : Holdings :=
  (t.entries.map fun e => (⟨e.1, e.2⟩ : Sigma fun _ : Key => Object)).toFinmap

theorem lookup_holdings (t : Tracker) (k : Key) : t.holdings.lookup k = t.find? k := by
  rw [holdings, Finmap.dlookup_list_toFinmap, find?]
  induction t.entries with
  | nil => rfl
  | cons e rest ih =>
    obtain ⟨k', o⟩ := e
    by_cases hk : k = k'
    · subst hk
      rw [List.map_cons, List.dlookup_cons_eq, List.lookup_cons_self]
    · rw [List.map_cons, List.dlookup_cons_ne _ _ hk, ih, List.lookup_cons, beq_false_of_ne hk]

theorem mem_holdings {t : Tracker} {k : Key} : k ∈ t.holdings ↔ (t.find? k).isSome = true := by
  rw [← Finmap.lookup_isSome, lookup_holdings]

theorem holdings_insert (t : Tracker) (k : Key) (o : Object) :
    (t.insert k o).holdings = t.holdings.insert k o := by
  refine Finmap.ext_lookup fun k' => ?_
  rw [lookup_holdings]
  by_cases hk : k' = k
  · rw [hk, find?_insert_self, Finmap.lookup_insert]
  · rw [find?_insert_of_ne hk, Finmap.lookup_insert_of_ne _ hk, lookup_holdings]

theorem holdings_erase (t : Tracker) (k : Key) : (t.erase k).holdings = t.holdings.erase k := by
  refine Finmap.ext_lookup fun k' => ?_
  rw [lookup_holdings]
  by_cases hk : k' = k
  · rw [hk, find?_erase_self, Finmap.lookup_erase]
  · rw [find?_erase_of_ne hk, Finmap.lookup_erase_ne hk, lookup_holdings]

theorem serve_apply (t : Tracker) (a : Action) :
    t.serve (.apply a) =
      match Query.ofAction a with
      | .ok q => t.serve q
      | .error e => (.error e, t) := by
  cases ho : a.operation with
  | create o | delete name =>
    by_cases hs : a.sub = ""
    · simp [serve, apply, Query.ofAction, ho, hs]
    · simp [serve, apply, Query.ofAction, ho, hs, conclude]
  | update o | get name | list | generic verb o =>
    simp [serve, apply, Query.ofAction, ho, conclude]

section Serves

variable {t : Tracker} {k : Key} {resource : Resource} {ns : String} {o : Object} {d : ObjectMeta}

theorem serve_unnamed {q : Query} (hq : q.object? = some o) (ho : o.metadata = none) :
    t.serve q = (.error (.missingMetadata o.kind.typeName), t) := by
  cases q with
  | add | create | update =>
    cases hq
    simp [serve, add, create, update, Object.accessor, ho, Except.map, conclude]
  | delete | get | list | apply => cases hq

theorem serve_add (ho : o.metadata = some d) :
    t.serve (.add resource o) = (.ok .empty, t.insert ⟨resource, d.ns, d.name⟩ o) := by
  simp [serve, add, Object.accessor, ho, Except.map, conclude]

theorem serve_create (ho : o.metadata = some d) :
    t.serve (.create resource ns o) =
      if ⟨resource, ns, d.name⟩ ∈ t.holdings then
        (.error (.alreadyExists resource.groupResource d.name), t)
      else (.ok (.object o), t.insert ⟨resource, ns, d.name⟩ o) := by
  simp only [serve, create, Object.accessor, ho, mem_holdings]
  split <;> rfl

theorem serve_update (ho : o.metadata = some d) :
    t.serve (.update resource ns o) =
      if ⟨resource, ns, d.name⟩ ∈ t.holdings then
        (.ok (.object o), t.insert ⟨resource, ns, d.name⟩ o)
      else (.error (.notFound resource.groupResource d.name), t) := by
  simp only [serve, update, Object.accessor, ho, mem_holdings]
  split <;> rfl

theorem serve_delete (t : Tracker) (k : Key) :
    t.serve (.delete k) =
      if k ∈ t.holdings then (.ok .empty, t.erase k)
      else (.error (.notFound k.resource.groupResource k.name), t) := by
  simp only [serve, delete, mem_holdings]
  split <;> rfl

theorem serve_get (t : Tracker) (k : Key) :
    t.serve (.get k) =
      match t.holdings.lookup k with
      | some o => (.ok (.object o), t)
      | none => (.error (.notFound k.resource.groupResource k.name), t) := by
  simp only [serve, get, lookup_holdings]
  cases t.find? k <;> rfl

theorem before_of_lt {j k : Key} (h : j < k) (hr : j.resource = k.resource) :
    Holdings.Before j k := by
  obtain ⟨⟨group, version, plural⟩, ns, name⟩ := j
  obtain ⟨_, ns', name'⟩ := k
  cases hr
  have hparts : [ns, name] < [ns', name'] := by
    simpa [Key.lt_def, Key.parts, List.cons_lt_cons_iff] using h
  simpa [Holdings.Before, bytes_lt_iff, List.cons_lt_cons_iff] using hparts

theorem listing_holdings (t : Tracker) (resource : Resource) (ns : String) :
    ∃ ks, t.holdings.Listing resource ns ks ∧
      ks.map t.holdings.lookup = (t.list resource ns).map some := by
  let es := t.entries.filter fun e => e.1.resource = resource ∧ (ns.isEmpty ∨ e.1.ns = ns)
  have hes {e : Key × Object} :
      e ∈ es ↔ e ∈ t.entries ∧ e.1.resource = resource ∧ (ns = "" ∨ e.1.ns = ns) := by
    simp [es, String.isEmpty_iff]
  refine ⟨es.map (·.1), ⟨fun k => ?_, ?_⟩, ?_⟩
  · simp only [mem_holdings, isSome_find?, mem_keys, List.mem_map, hes]
    constructor
    · rintro ⟨e, ⟨he, hr⟩, rfl⟩
      exact ⟨⟨e, he, rfl⟩, hr⟩
    · rintro ⟨⟨e, he, rfl⟩, hr⟩
      exact ⟨e, ⟨he, hr⟩, rfl⟩
  · refine List.pairwise_map.2 ((t.sorted.filter _).imp_of_mem fun {e e'} he he' hlt => ?_)
    exact before_of_lt hlt ((hes.1 he).2.1.trans (hes.1 he').2.1.symm)
  · rw [list, List.map_map, List.map_map]
    refine List.map_congr_left fun e he => ?_
    exact (lookup_holdings t e.1).trans (find?_eq_some.2 (hes.1 he).1)

end Serves

end Tracker

namespace Holdings

theorem Before.irrefl (k : Key) : ¬ Before k k := by
  rintro (h | ⟨-, h⟩) <;> exact List.lt_irrefl _ h

theorem Before.asymm {j k : Key} (h : Before j k) : ¬ Before k j := by
  simp only [Before, bytes_lt_iff] at h ⊢
  rintro (h' | ⟨he', h'⟩)
  · rcases h with h | ⟨he, -⟩
    · exact String.lt_asymm h h'
    · exact String.ne_of_lt h' he.symm
  · rcases h with h | ⟨-, h⟩
    · exact String.ne_of_lt h he'.symm
    · exact String.lt_asymm h h'

theorem Listing.unique {m : Holdings} {resource : Resource} {ns : String} {js ks : List Key}
    (hj : m.Listing resource ns js) (hk : m.Listing resource ns ks) : js = ks := by
  have nodup {l : List Key} (h : l.Pairwise Before) : l.Nodup := by
    refine h.imp fun {j k} hb he => ?_
    exact Before.irrefl k (he ▸ hb)
  have hperm : js.Perm ks :=
    (List.perm_ext_iff_of_nodup (nodup hj.increasing) (nodup hk.increasing)).2 fun k =>
      (hj.mem k).trans (hk.mem k).symm
  exact hperm.eq_of_pairwise (fun _ _ _ _ h h' => absurd h' h.asymm) hj.increasing hk.increasing

theorem Answers.serve_eq {t : Tracker} {q : Query} {x : Except Error Response} {m : Holdings}
    (h : Answers t.holdings q x m) : (t.serve q).1 = x ∧ (t.serve q).2.holdings = m := by
  generalize hm : t.holdings = m₀ at h
  induction h with
  | unnamed hq ho =>
    rw [Tracker.serve_unnamed hq ho]
    exact ⟨rfl, hm⟩
  | added ho =>
    rw [Tracker.serve_add ho, Tracker.holdings_insert, hm]
    exact ⟨rfl, rfl⟩
  | created ho hk =>
    rw [Tracker.serve_create ho, hm, if_neg hk, Tracker.holdings_insert, hm]
    exact ⟨rfl, rfl⟩
  | clashes ho hk =>
    rw [Tracker.serve_create ho, hm, if_pos hk]
    exact ⟨rfl, hm⟩
  | updated ho hk =>
    rw [Tracker.serve_update ho, hm, if_pos hk, Tracker.holdings_insert, hm]
    exact ⟨rfl, rfl⟩
  | stale ho hk =>
    rw [Tracker.serve_update ho, hm, if_neg hk]
    exact ⟨rfl, hm⟩
  | deleted hk =>
    rw [Tracker.serve_delete, hm, if_pos hk, Tracker.holdings_erase, hm]
    exact ⟨rfl, rfl⟩
  | gone hk =>
    rw [Tracker.serve_delete, hm, if_neg hk]
    exact ⟨rfl, hm⟩
  | found hk =>
    rw [Tracker.serve_get, hm, hk]
    exact ⟨rfl, hm⟩
  | missing hk =>
    rw [Tracker.serve_get, hm, Finmap.lookup_eq_none.2 hk]
    exact ⟨rfl, hm⟩
  | @listed resource ns ks os hks hos =>
    obtain ⟨js, hjs, hlist⟩ := t.listing_holdings resource ns
    rw [hm] at hjs hlist
    obtain rfl := hjs.unique hks
    have hsame : t.list resource ns = os :=
      List.map_injective_iff.2 (Option.some_injective _) (hlist.symm.trans hos)
    rw [← hsame]
    exact ⟨rfl, hm⟩
  | applied hq _ ih =>
    rw [Tracker.serve_apply, hq]
    exact ih
  | unsupported hq =>
    rw [Tracker.serve_apply, hq]
    exact ⟨rfl, hm⟩

theorem exists_answers (t : Tracker) (q : Query) : ∃ x m, Answers t.holdings q x m := by
  have direct (q : Query) (hq : ∀ a, q ≠ .apply a) : ∃ x m, Answers t.holdings q x m := by
    cases q with
    | add resource o =>
      cases ho : o.metadata with
      | none => exact ⟨_, _, .unnamed rfl ho⟩
      | some d => exact ⟨_, _, .added ho⟩
    | create resource ns o =>
      cases ho : o.metadata with
      | none => exact ⟨_, _, .unnamed rfl ho⟩
      | some d =>
        by_cases hk : ⟨resource, ns, d.name⟩ ∈ t.holdings
        · exact ⟨_, _, .clashes ho hk⟩
        · exact ⟨_, _, .created ho hk⟩
    | update resource ns o =>
      cases ho : o.metadata with
      | none => exact ⟨_, _, .unnamed rfl ho⟩
      | some d =>
        by_cases hk : ⟨resource, ns, d.name⟩ ∈ t.holdings
        · exact ⟨_, _, .updated ho hk⟩
        · exact ⟨_, _, .stale ho hk⟩
    | delete k =>
      by_cases hk : k ∈ t.holdings
      · exact ⟨_, _, .deleted hk⟩
      · exact ⟨_, _, .gone hk⟩
    | get k =>
      cases hk : t.holdings.lookup k with
      | some o => exact ⟨_, _, .found hk⟩
      | none => exact ⟨_, _, .missing (Finmap.lookup_eq_none.1 hk)⟩
    | list resource ns =>
      obtain ⟨ks, hks, hlist⟩ := t.listing_holdings resource ns
      exact ⟨_, _, .listed hks hlist⟩
    | apply a => exact absurd rfl (hq a)
  by_cases hq : ∃ a, q = .apply a
  · obtain ⟨a, rfl⟩ := hq
    cases hq : Query.ofAction a with
    | error e => exact ⟨_, _, .unsupported hq⟩
    | ok q =>
      obtain ⟨x, m, h⟩ := direct q (Query.ofAction_ne_apply hq)
      exact ⟨x, m, .applied hq h⟩
  · exact direct q fun a ha => hq ⟨a, ha⟩

theorem answers_iff {t : Tracker} {q : Query} {x : Except Error Response} {m : Holdings} :
    Answers t.holdings q x m ↔ x = (t.serve q).1 ∧ m = (t.serve q).2.holdings := by
  constructor
  · intro h
    exact ⟨h.serve_eq.1.symm, h.serve_eq.2.symm⟩
  · rintro ⟨rfl, rfl⟩
    obtain ⟨x, m, h⟩ := exists_answers t q
    rwa [h.serve_eq.1, h.serve_eq.2]

theorem lookup_insert_frame {m : Holdings} {j : Key} {o : Object} {q : Query} (hq : q.key? = some j) (k : Key)
    (hk : q.key? ≠ some k) : (m.insert j o).lookup k = m.lookup k :=
  Finmap.lookup_insert_of_ne _ fun he => hk (he ▸ hq)

theorem Answers.frame {m n : Holdings} {q : Query} {x : Except Error Response}
    (h : Answers m q x n) :
    (∀ e, x = .error e → n = m) ∧ ∀ k, q.key? ≠ some k → n.lookup k = m.lookup k := by
  induction h with
  | unnamed | clashes | stale | gone | found | missing | listed | unsupported =>
    exact ⟨fun _ _ => rfl, fun _ _ => rfl⟩
  | added ho | created ho | updated ho =>
    exact ⟨nofun, lookup_insert_frame (by simp [Query.key?, ho])⟩
  | deleted =>
    refine ⟨nofun, fun k hk => Finmap.lookup_erase_ne fun he => hk ?_⟩
    rw [he, Query.key?]
  | applied hq _ ih =>
    rw [Query.key?_ofAction hq]
    exact ih

def Named (m : Holdings) : Prop :=
  ∀ k o, m.lookup k = some o → ∃ d, o.metadata = some d ∧ d.name = k.name

theorem Named.insert {m : Holdings} {resource : Resource} {ns : String} {o : Object} {d : ObjectMeta}
    (h : m.Named) (ho : o.metadata = some d) : Named (m.insert ⟨resource, ns, d.name⟩ o) := by
  intro k o' hk
  by_cases he : k = ⟨resource, ns, d.name⟩
  · rw [he, Finmap.lookup_insert] at hk
    obtain rfl := Option.some.inj hk
    exact ⟨d, ho, by rw [he]⟩
  · rw [Finmap.lookup_insert_of_ne _ he] at hk
    exact h k o' hk

theorem Named.erase {m : Holdings} (h : m.Named) (j : Key) : Named (m.erase j) := by
  intro k o hk
  by_cases he : k = j
  · rw [he, Finmap.lookup_erase] at hk
    cases hk
  · rw [Finmap.lookup_erase_ne he] at hk
    exact h k o hk

theorem Answers.named {m n : Holdings} {q : Query} {x : Except Error Response}
    (h : Answers m q x n) (hm : m.Named) : n.Named := by
  induction h with
  | unnamed | clashes | stale | gone | found | missing | listed | unsupported => exact hm
  | added ho | created ho | updated ho => exact hm.insert ho
  | deleted => exact hm.erase _
  | applied _ _ ih => exact ih

end Holdings

namespace Tracker

open Holdings (Answers Converses answers_iff)

theorem converses_iff {t : Tracker} {qs : List Query} {xs : List (Except Error Response)}
    {m : Holdings} :
    Converses t.holdings qs xs m ↔ xs = (t.serveAll qs).1 ∧ m = (t.serveAll qs).2.holdings := by
  induction qs generalizing t xs with
  | nil =>
    constructor
    · rintro ⟨⟩
      exact ⟨rfl, rfl⟩
    · rintro ⟨rfl, rfl⟩
      exact .nil
  | cons q rest ih =>
    constructor
    · intro h
      cases h with
      | cons hq hrest =>
        obtain ⟨rfl, rfl⟩ := answers_iff.1 hq
        obtain ⟨rfl, rfl⟩ := ih.1 hrest
        exact ⟨rfl, rfl⟩
    · rintro ⟨rfl, rfl⟩
      exact .cons (answers_iff.2 ⟨rfl, rfl⟩) (ih.2 ⟨rfl, rfl⟩)

theorem named_serveAll {t : Tracker} (h : t.holdings.Named) (qs : List Query) :
    (t.serveAll qs).2.holdings.Named := by
  induction qs generalizing t with
  | nil => exact h
  | cons q rest ih => exact ih ((answers_iff.2 ⟨rfl, rfl⟩ : Answers t.holdings q _ _).named h)

/-- What each request is answered with and leaves behind, by the map alone. -/
theorem answers_as_finite_map (qs : List Query) :
    let t := (empty.serveAll qs).2
    (∀ xs m, Converses ∅ qs xs m ↔ xs = (empty.serveAll qs).1 ∧ m = t.holdings) ∧
      (∀ q, (∀ e, (t.serve q).1 = .error e → (t.serve q).2.holdings = t.holdings) ∧
        ∀ k, q.key? ≠ some k → (t.serve q).2.find? k = t.find? k) ∧
      ∀ k o, t.find? k = some o → ∃ d, o.metadata = some d ∧ d.name = k.name := by
  intro t
  have hempty : empty.holdings = ∅ := rfl
  refine ⟨fun xs m => ?_, fun q => ?_, fun k o hk => ?_⟩
  · rw [← hempty]
    exact converses_iff
  · have hq : Answers t.holdings q (t.serve q).1 (t.serve q).2.holdings := answers_iff.2 ⟨rfl, rfl⟩
    refine ⟨hq.frame.1, fun k hk => ?_⟩
    rw [← lookup_holdings, ← lookup_holdings]
    exact hq.frame.2 k hk
  · have hnamed : t.holdings.Named := by
      refine named_serveAll (fun k o hk => ?_) qs
      rw [hempty, Finmap.lookup_empty] at hk
      cases hk
    exact hnamed k o ((lookup_holdings t k).trans hk)

end Tracker

end ControllerBench
