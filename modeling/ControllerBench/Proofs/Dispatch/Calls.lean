import ControllerBench.Proofs.Dispatch.Invocation
import ControllerBench.Scenario.Session

namespace ControllerBench

/-- A call without an invocation made no action. -/
structure Exchange where
  call : Call
  invocation : Option Invocation
  answer : Except Error Response

def Exchange.Matches (x : Exchange) : Prop :=
  match x.call.action with
  | .error e => x.invocation = none ∧ x.answer = .error e
  | .ok a => ∃ i result, x.invocation = some i ∧ i.action = a ∧ i.answer = some result ∧
      x.answer = result.bind x.call.conclude

def Call.written? : Call → Option Object
  | create _ o | update _ o | updateStatus _ o => some o
  | delete .. | get .. | list .. | invoke _ | fail _ => none

theorem Call.action_of_opaque {c : Call} {o : Object} (hc : c.written? = some o)
    (ho : o.metadata = none) : c.action = .error (.missingMetadata o.kind.typeName) := by
  have hw (operation : Object → Operation) (resource : Resource) (sub : String) :
      Call.write operation resource sub o = .error (.missingMetadata o.kind.typeName) := by
    simp [Call.write, Object.accessor, ho, Except.map]
  cases c with
  | create | update | updateStatus =>
    cases hc
    exact hw ..
  | delete | get | list | invoke | fail => cases hc

namespace Bench

def request (depth : Nat) (b : Bench) (c : Call) : Option (Except Error Response × Bench) :=
  match c.action with
  | .error e => some (.error e, b)
  | .ok a => (b.invoke depth a).map fun r => (r.1.bind c.conclude, r.2)

theorem request_of_session (fuel : Nat) (t : Schedule) (c : Call) :
    (Session.call fuel t c).toOption.map (fun r => (r.1, r.2.bench)) = t.bench.request fuel c := by
  cases hc : c.action with
  | error e =>
    simp only [Session.call, request, hc]
    rfl
  | ok a =>
    cases hi : t.bench.invoke fuel a with
    | none =>
      simp only [Session.call, request, hc, Schedule.invoke, hi]
      rfl
    | some r =>
      simp only [Session.call, request, hc, Schedule.invoke, hi]
      rfl

theorem request_of_script (depth : Nat) (b : Bench) (c : Call)
    (next : Except Error Response → Script) :
    (c.script next).run (Bench.invoke depth) b =
      (b.request depth c).bind fun r => (next r.1).run (Bench.invoke depth) r.2 := by
  cases hc : c.action with
  | error e => simp only [Call.script, request, hc, Option.bind_some]
  | ok a =>
    simp only [Call.script, request, hc, Script.run]
    cases b.invoke depth a <;> rfl

def invoked (depth : Nat) (b : Bench) (c : Call) : Option Invocation :=
  c.action.toOption.map (b.invocation depth)

def transcript (depth : Nat) : List Call → Bench → Option (List Exchange × Bench)
  | [], b => some ([], b)
  | c :: rest, b =>
    match b.request depth c with
    | none => none
    | some (answer, d) =>
      (transcript depth rest d).map fun r => (⟨c, b.invoked depth c, answer⟩ :: r.1, r.2)

theorem transcript_cons {depth : Nat} {c : Call} {rest : List Call} {b e : Bench}
    {xs : List Exchange} (h : b.transcript depth (c :: rest) = some (xs, e)) :
    ∃ answer d ys, b.request depth c = some (answer, d) ∧ d.transcript depth rest = some (ys, e) ∧
      xs = ⟨c, b.invoked depth c, answer⟩ :: ys := by
  simp only [transcript] at h
  split at h
  · cases h
  next answer d hd =>
    obtain ⟨⟨ys, e'⟩, hr, he⟩ := Option.map_eq_some_iff.1 h
    obtain ⟨rfl, rfl⟩ := Prod.mk.inj he
    exact ⟨answer, d, ys, hd, hr, rfl⟩

theorem request_matches {depth : Nat} {b d : Bench} {c : Call} {answer : Except Error Response}
    (h : b.request depth c = some (answer, d)) :
    Exchange.Matches ⟨c, b.invoked depth c, answer⟩ := by
  unfold request at h
  unfold Exchange.Matches invoked
  cases hc : c.action with
  | error e =>
    simp only [hc] at h ⊢
    cases h
    exact ⟨rfl, rfl⟩
  | ok a =>
    simp only [hc] at h ⊢
    obtain ⟨⟨result, d'⟩, hi, he⟩ := Option.map_eq_some_iff.1 h
    obtain ⟨rfl, rfl⟩ := Prod.mk.inj he
    cases depth with
    | zero => cases hi
    | succ depth =>
      exact ⟨b.invocation (depth + 1) a, result, rfl, rfl, by simp [invocation, hi], rfl⟩

theorem transcript_matches {depth : Nat} {b e : Bench} {cs : List Call} {xs : List Exchange}
    (h : b.transcript depth cs = some (xs, e)) :
    xs.map (·.call) = cs ∧ ∀ x ∈ xs, x.Matches := by
  induction cs generalizing b xs with
  | nil =>
    cases h
    exact ⟨rfl, List.forall_mem_nil _⟩
  | cons c rest ih =>
    obtain ⟨answer, d, ys, hd, hr, rfl⟩ := transcript_cons h
    obtain ⟨hcalls, hmatch⟩ := ih hr
    exact ⟨congrArg (c :: ·) hcalls, List.forall_mem_cons.2 ⟨request_matches hd, hmatch⟩⟩

end Bench

namespace Chronicle

variable {R : Bench → List Invocation → Bench → Prop}

theorem request (ch : Chronicle R) {depth : Nat} {b d : Bench} {c : Call}
    {answer : Except Error Response} (h : b.request depth c = some (answer, d)) :
    R b (b.invoked depth c).toList d := by
  unfold Bench.request at h
  unfold Bench.invoked
  cases hc : c.action with
  | error e =>
    simp only [hc] at h
    cases h
    exact ch.refl b
  | ok a =>
    simp only [hc] at h
    obtain ⟨⟨result, d'⟩, hi, he⟩ := Option.map_eq_some_iff.1 h
    obtain ⟨rfl, rfl⟩ := Prod.mk.inj he
    exact ch.invoke depth b a result d' hi

theorem transcript (ch : Chronicle R) {depth : Nat} {b e : Bench} {cs : List Call}
    {xs : List Exchange} (h : b.transcript depth cs = some (xs, e)) :
    R b (xs.filterMap (·.invocation)) e := by
  induction cs generalizing b xs with
  | nil =>
    cases h
    exact ch.refl _
  | cons c rest ih =>
    obtain ⟨answer, d, ys, hd, hr, rfl⟩ := Bench.transcript_cons h
    have hall := ch.trans (ch.request hd) (ih hr)
    rw [List.filterMap_cons]
    cases hi : b.invoked depth c with
    | none => rwa [hi] at hall
    | some i => rwa [hi] at hall

end Chronicle

end ControllerBench
