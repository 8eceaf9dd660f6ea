import ControllerBench.Proofs.Dispatch.Sequential

namespace ControllerBench

abbrev Terms := Option (Reactor Script) → Placement → Prop

inductive Script.Abides (P : Terms) : Script → Prop
  | done {outcome} : Abides P (.done outcome)
  | invoke {action next} : (∀ result, Abides P (next result)) → Abides P (.invoke action next)
  | install {label reactor placement next} :
      P reactor placement →
      (∀ o, reactor = some (.override o) → ∀ n a, Abides P (o.reaction n a)) →
      Abides P next → Abides P (.install label reactor placement next)
  | remove {label next} : (∀ was, Abides P (next was)) → Abides P (.remove label next)
  | pause {next} : Abides P next → Abides P (.pause next)

def Reactor.Abides (P : Terms) : Reactor Script → Prop
  | .override o => ∀ n a, (o.reaction n a).Abides P
  | .verifier .. | .assertion _ => True

namespace Bench

def Abides (P : Terms) (b : Bench) : Prop := ∀ r ∈ b.reactors, r.Abides P

variable {P : Terms}

theorem Abides.setReactor {b : Bench} {r : Reactor Script} (h : b.Abides P) (slot : Nat)
    (hr : r.Abides P) : (b.setReactor slot r).Abides P := by
  intro x hx
  rcases Array.mem_or_eq_of_mem_setIfInBounds hx with hx | rfl
  · exact h x hx
  · exact hr

theorem Abides.keep {b : Bench} {r : Reactor Script} (h : b.Abides P) (hr : r.Abides P) :
    (b.keep r).Abides P := by
  intro x hx
  rcases Array.mem_push.1 hx with hx | rfl
  · exact h x hx
  · exact hr

theorem Abides.inject {b : Bench} (h : b.Abides P) (slot : Nat) (r : Reporter) :
    (b.inject slot r).Abides P := by
  unfold Bench.inject
  split
  · exact h.setReactor slot trivial
  · exact h

theorem Abides.place {b : Bench} (h : b.Abides P) (label : String) (slot : Nat) (p : Placement) :
    (b.place label slot p).Abides P := by
  unfold Bench.place
  split
  next scope _ =>
    have hi := h.inject slot (b.reporter.within scope)
    split <;> exact hi
  · split <;> exact h

theorem Abides.install {b : Bench} (h : b.Abides P) (label : String)
    {reactor : Option (Reactor Script)} (p : Placement)
    (hr : ∀ o, reactor = some (.override o) → ∀ n a, (o.reaction n a).Abides P) :
    (b.install label reactor p).Abides P := by
  unfold Bench.install
  split
  next r =>
    refine (h.keep ?_).place label _ p
    cases r with
    | override o => exact hr o rfl
    | verifier | assertion => trivial
  · split
    · exact h.place label _ p
    · exact h

theorem Abides.remove {b : Bench} (h : b.Abides P) (label : String) :
    (b.remove label).2.Abides P := by
  rw [Abides, remove_reactors]
  exact h

theorem Abides.apply {b : Bench} (h : b.Abides P) (a : Action) : (b.apply a).2.Abides P := by
  unfold Bench.apply
  split
  · exact h
  · unfold publish
    split <;> exact h

theorem Abides.reply {b : Bench} (h : b.Abides P) (slot : Nat) (a : Action) :
    (b.reply slot a).1.Abides P ∧ (b.reply slot a).2.Abides P := by
  unfold Bench.reply
  split
  · exact ⟨.done, h⟩
  · exact ⟨.done, h.setReactor slot trivial⟩
  · exact ⟨.done, h.setReactor slot trivial⟩
  next o ho =>
    have hall : ∀ n a, (o.reaction n a).Abides P := h _ (Array.mem_of_getElem? ho)
    refine ⟨?_, h.setReactor slot hall⟩
    split
    · exact .done
    · exact hall ..

end Bench

/--
An invariant kept by all that abides by the terms. Reactions are asked for at slots in `S` only, and only to
what has been logged since `o`; waiting for a verifier marks it.
-/
structure Kept (o : Bench) (P : Terms) (S : Nat → Prop) (I : Bench → Prop) : Prop where
  reply {b slot a} : S slot → b.handles slot a = true → a ∈ o.since b → I b → I (b.reply slot a).2
  install {b reactor p} (label : String) : P reactor p → I b → I (b.install label reactor p)
  remove {b} (label : String) : I b → I (b.remove label).2
  apply {b} (a : Action) : I b → I (b.apply a).2
  wait {b slot v waited} : b.reactors[slot]? = some (.verifier v waited) → I b →
    I (b.setReactor slot (.verifier v true))

def Invoke.Maintains (invoke : Invoke) (I : Bench → Prop) : Prop :=
  ∀ b a result c, invoke b a = some (result, c) → I b → I c

namespace Kept

variable {o : Bench} {P : Terms} {S : Nat → Prop} {I : Bench → Prop}

section Invoke

variable {invoke : Invoke} (hi : invoke.Maintains fun b => I b ∧ b.Abides P)

include hi

theorem run (kept : Kept o P S I) {s : Script} {b c : Bench} {outcome : Outcome} (hs : s.Abides P)
    (h : s.run invoke b = some (outcome, c)) (hb : I b ∧ b.Abides P) : I c ∧ c.Abides P := by
  induction hs generalizing b with
  | done =>
    cases h
    exact hb
  | invoke _ ih =>
    simp only [Script.run] at h
    split at h
    · cases h
    next result d hd => exact ih result h (hi _ _ _ _ hd hb)
  | install hp hr _ _ ih => exact ih h ⟨kept.install _ hp hb.1, hb.2.install _ _ hr⟩
  | remove _ ih => exact ih _ h ⟨kept.remove _ hb.1, hb.2.remove _⟩
  | pause _ ih => exact ih h hb

theorem consult (kept : Kept o P S I) (hgrows : invoke.Keeps Bench.Grows) {a : Action}
    {slots : List Nat} {b c : Bench} {claim : Option (Except Error Response)}
    (hslots : ∀ slot ∈ slots, S slot) (ha : a ∈ o.since b)
    (h : b.consult invoke a slots = some (claim, c)) (hb : I b ∧ b.Abides P) :
    I c ∧ c.Abides P := by
  induction slots generalizing b with
  | nil =>
    cases h
    exact hb
  | cons slot rest ih =>
    obtain ⟨hslot, hrest⟩ := List.forall_mem_cons.1 hslots
    simp only [Bench.consult] at h
    split at h
    next hh =>
      split at h
      · cases h
      next outcome d hd =>
        have ha' := (Bench.grows_frame.react hgrows hd).since_subset o ha
        rw [Bench.react_eq_reply] at hd
        obtain ⟨hs, hreply⟩ := hb.2.reply slot a
        have hd := kept.run hi hs hd ⟨kept.reply hslot hh ha hb.1, hreply⟩
        split at h
        · cases h
          exact hd
        · exact ih hrest ha' h hd
    · exact ih hrest ha h hb

end Invoke

end Kept

/-- What is left to show for a dispatch is that the action is heard as the invariant wants it. -/
structure Sustained (o : Bench) (P : Terms) (S : Nat → Prop) (I : Bench → Prop) : Prop
    extends Kept o P S I where
  hear {invoke : Invoke} {b c : Bench} {a : Action} {claim : Option (Except Error Response)} :
    invoke.Keeps Bench.Grows → (invoke.Maintains fun b => I b ∧ b.Abides P) →
    (b.record a).consult invoke a (b.chain.map (·.slot)) = some (claim, c) →
    I b ∧ b.Abides P → I c ∧ c.Abides P

theorem Sustained.invoke {o : Bench} {P : Terms} {S : Nat → Prop} {I : Bench → Prop}
    (h : Sustained o P S I) (depth : Nat) : (Bench.invoke depth).Maintains fun b => I b ∧ b.Abides P := by
  -- nested invocations are one level down, where the invariant is kept already
  induction depth with
  | zero =>
    intro b a result c hc
    cases hc
  | succ depth ih =>
    intro b a result c hc hb
    simp only [Bench.invoke] at hc
    split at hc
    · cases hc
    next claimed d hd =>
      cases hc
      exact h.hear (Bench.grows_frame.invoke depth) ih hd hb
    next d hd =>
      obtain ⟨hI, habides⟩ := h.hear (Bench.grows_frame.invoke depth) ih hd hb
      obtain rfl : (d.apply a).2 = c := congrArg Prod.snd (Option.some.inj hc)
      exact ⟨h.apply a hI, habides.apply a⟩

end ControllerBench
