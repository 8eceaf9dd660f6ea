import ControllerBench.Action
import ControllerBench.Store.Key
import ControllerBench.Store.Response

namespace ControllerBench

structure Tracker where
  entries : List (Key × Object)
  sorted : entries.Pairwise fun a b => a.1 < b.1

namespace Tracker

def insertEntry (k : Key) (o : Object) : List (Key × Object) → List (Key × Object)
  | [] => [(k, o)]
  | e :: rest =>
    if k < e.1 then (k, o) :: e :: rest
    else if k = e.1 then (k, o) :: rest
    else e :: insertEntry k o rest

theorem mem_insertEntry {k : Key} {o : Object} {e : Key × Object} {es : List (Key × Object)}
    (h : e ∈ insertEntry k o es) : e = (k, o) ∨ e ∈ es := by
  induction es with
  | nil => simpa [insertEntry] using h
  | cons e' rest ih =>
    simp only [insertEntry] at h
    split at h
    · simpa using h
    · split at h
      · rcases List.mem_cons.1 h with h | h
        · exact .inl h
        · exact .inr (List.mem_cons_of_mem _ h)
      · rcases List.mem_cons.1 h with h | h
        · exact .inr (h ▸ List.mem_cons_self)
        · exact (ih h).imp_right (List.mem_cons_of_mem _)

theorem sorted_insertEntry {k : Key} {o : Object} {es : List (Key × Object)}
    (h : es.Pairwise fun a b => a.1 < b.1) :
    (insertEntry k o es).Pairwise fun a b => a.1 < b.1 := by
  induction es with
  | nil => simp [insertEntry]
  | cons e rest ih =>
    obtain ⟨he, hrest⟩ := List.pairwise_cons.1 h
    simp only [insertEntry]
    split
    next hlt =>
      refine List.pairwise_cons.2 ⟨fun x hx => ?_, h⟩
      rcases List.mem_cons.1 hx with rfl | hx
      · exact hlt
      · exact Key.lt_trans hlt (he x hx)
    next hlt =>
      split
      next heq => exact List.pairwise_cons.2 ⟨fun x hx => heq ▸ he x hx, hrest⟩
      next hne =>
        refine List.pairwise_cons.2 ⟨fun x hx => ?_, ih hrest⟩
        rcases mem_insertEntry hx with rfl | hx
        · exact Key.lt_of_not_lt hlt hne
        · exact he x hx

def empty : Tracker := ⟨[], .nil⟩

instance : Inhabited Tracker := ⟨empty⟩

def size (t : Tracker) : Nat := t.entries.length

def isEmpty (t : Tracker) : Bool := t.entries.isEmpty

def find? (t : Tracker) (k : Key) : Option Object := t.entries.lookup k

def insert (t : Tracker) (k : Key) (o : Object) : Tracker :=
  ⟨insertEntry k o t.entries, sorted_insertEntry t.sorted⟩

def erase (t : Tracker) (k : Key) : Tracker :=
  ⟨t.entries.filter fun e => e.1 ≠ k, t.sorted.filter _⟩

def missing (k : Key) : Error := .notFound k.resource.groupResource k.name

def add (t : Tracker) (resource : Resource) (o : Object) : Except Error Tracker :=
  match o.accessor with
  | .error e => .error e
  | .ok m => .ok (t.insert ⟨resource, m.ns, m.name⟩ o)

def get (t : Tracker) (k : Key) : Except Error Object :=
  match t.find? k with
  | some o => .ok o
  | none => .error (missing k)

def list (t : Tracker) (resource : Resource) (ns : String) : List Object :=
  (t.entries.filter fun e => e.1.resource = resource ∧ (ns.isEmpty ∨ e.1.ns = ns)).map (·.2)

def create (t : Tracker) (resource : Resource) (ns : String) (o : Object) : Except Error Tracker :=
  match o.accessor with
  | .error e => .error e
  | .ok m =>
    let k : Key := ⟨resource, ns, m.name⟩
    if (t.find? k).isSome then .error (.alreadyExists resource.groupResource m.name)
    else .ok (t.insert k o)

def update (t : Tracker) (resource : Resource) (ns : String) (o : Object) : Except Error Tracker :=
  match o.accessor with
  | .error e => .error e
  | .ok m =>
    let k : Key := ⟨resource, ns, m.name⟩
    if (t.find? k).isSome then .ok (t.insert k o) else .error (missing k)

def delete (t : Tracker) (k : Key) : Except Error Tracker :=
  if (t.find? k).isSome then .ok (t.erase k) else .error (missing k)

def subject (a : Action) : String := if a.sub.isEmpty then a.verb else s!"{a.verb} {a.sub}"

/--
Updates and reads of a subresource address the parent object; a subresource can be neither created nor
deleted.
-/
def apply (t : Tracker) (a : Action) : Except Error (Response × Tracker) :=
  match a.operation with
  | .create o =>
    if a.sub.isEmpty then (t.create a.resource a.ns o).map ((.object o, ·))
    else .error (.unsupported (subject a))
  | .update o => (t.update a.resource a.ns o).map ((.object o, ·))
  | .delete name =>
    if a.sub.isEmpty then (t.delete ⟨a.resource, a.ns, name⟩).map ((.empty, ·))
    else .error (.unsupported (subject a))
  | .get name => (t.get ⟨a.resource, a.ns, name⟩).map ((.object ·, t))
  | .list => .ok (.list (t.list a.resource a.ns), t)
  | .generic .. => .error (.unsupported (subject a))

end Tracker

end ControllerBench
