import ControllerBench.Proofs.Dispatch.Calls
import ControllerBench.Proofs.Dispatch.Frame

namespace ControllerBench

namespace Invocation

def accepted (i : Invocation) : Bool :=
  match i.answer with
  | some (.ok _) => true
  | some (.error _) | none => false

end Invocation

namespace Tracker

def after (t : Tracker) (a : Action) : Tracker :=
  match t.apply a with
  | .ok (_, t') => t'
  | .error _ => t

def answer (t : Tracker) (a : Action) : Except Error Response := (t.apply a).map (·.1)

def afterAll (t : Tracker) (as : List Action) : Tracker := as.foldl after t

/-- Each invocation is answered by the tracker that the ones before it leave. -/
def Answers : Tracker → List Invocation → Prop
  | _, [] => True
  | t, i :: rest => i.answer = some (t.answer i.action) ∧ (t.after i.action).Answers rest

theorem answers_append {t : Tracker} {is js : List Invocation} :
    t.Answers (is ++ js) ↔ t.Answers is ∧ (t.afterAll (is.map (·.action))).Answers js := by
  induction is generalizing t with
  | nil => simp [Answers, afterAll]
  | cons i rest ih => simp [Answers, ih, and_assoc, afterAll]

theorem Answers.at {t : Tracker} {earlier later : List Invocation} {i : Invocation}
    (h : t.Answers (earlier ++ i :: later)) :
    i.answer = some ((t.afterAll (earlier.map (·.action))).answer i.action) :=
  (answers_append.1 h).2.1

theorem after_of_rejected {t : Tracker} {a : Action} {e : Error} (h : t.answer a = .error e) :
    t.after a = t := by
  unfold answer at h
  unfold after
  split
  next response t' hr =>
    rw [hr] at h
    cases h
  · rfl

theorem Answers.afterAll_accepted {t : Tracker} {is : List Invocation} (h : t.Answers is) :
    t.afterAll ((is.filter (·.accepted)).map (·.action)) = t.afterAll (is.map (·.action)) := by
  induction is generalizing t with
  | nil => rfl
  | cons i rest ih =>
    obtain ⟨hi, hrest⟩ := h
    have hr := ih hrest
    cases ha : t.answer i.action with
    | error e =>
      have hn : i.accepted = false := by simp [Invocation.accepted, hi, ha]
      have ht := after_of_rejected ha
      rw [ht] at hr
      simpa [hn, afterAll, ht] using hr
    | ok response =>
      have hy : i.accepted = true := by simp [Invocation.accepted, hi, ha]
      simpa [hy, afterAll] using hr

end Tracker

namespace Bench

theorem apply_answer (b : Bench) (a : Action) : (b.apply a).1 = b.tracker.answer a := by
  unfold apply Tracker.answer
  split <;> simp [*, Except.map]

theorem publish_tracker (b : Bench) (a : Action) : (b.publish a).tracker = b.tracker := by
  unfold publish
  split <;> rfl

theorem publish_log (b : Bench) (a : Action) : (b.publish a).log = b.log := by
  unfold publish
  split <;> rfl

theorem apply_tracker (b : Bench) (a : Action) : (b.apply a).2.tracker = b.tracker.after a := by
  unfold apply Tracker.after
  split <;> simp [*, publish_tracker]

theorem apply_log (b : Bench) (a : Action) : (b.apply a).2.log = b.log := by
  unfold apply
  split
  · rfl
  · exact publish_log ..

def Grows (b c : Bench) : Prop := b.log.toList <+: c.log.toList

theorem grows_of_eq {b c : Bench} (h : c.log = b.log) : b.Grows c := by
  simp only [Grows, h, List.prefix_refl]

theorem Grows.trans {b c d : Bench} (h : b.Grows c) (h' : c.Grows d) : b.Grows d :=
  List.IsPrefix.trans h h'

theorem grows_record (b : Bench) (a : Action) : b.Grows (b.record a) := by
  simp [Grows, record]

theorem grows_frame : Frame Grows where
  refl _ := List.prefix_refl _
  trans := Grows.trans
  record := grows_record
  setReactor _ _ _ := grows_of_eq rfl
  report _ _ := grows_of_eq rfl
  install _ _ _ _ := grows_of_eq (rewires_install ..).log
  remove _ _ := grows_of_eq (rewires_remove ..).log
  apply b a := grows_of_eq (apply_log b a)

def since (o b : Bench) : List Action := b.log.toList.drop o.log.size

theorem Grows.since_subset {b c : Bench} (h : b.Grows c) (o : Bench) :
    o.since b ⊆ o.since c := by
  obtain ⟨added, hadded⟩ := h
  rw [since, since, ← hadded, List.drop_append]
  exact List.subset_append_left ..

theorem Grows.mem_since_record {o b : Bench} (h : o.Grows b) (a : Action) :
    a ∈ o.since (b.record a) := by
  have hle : o.log.size ≤ b.log.toList.length := List.IsPrefix.length_le h
  have hlog : (b.record a).log.toList = b.log.toList ++ [a] := Array.toList_push
  rw [since, hlog, List.drop_append_of_le_length hle]
  simp

end Bench

namespace Chronicle

variable {R : Bench → List Invocation → Bench → Prop}

theorem of_sameStore (same : ∀ {b c}, b.SameStore c → R b [] c)
    (trans : ∀ {b c d is js}, R b is c → R c js d → R b (is ++ js) d)
    (claimed : ∀ {b c i result}, R (b.record i.action) i.nested c → i.claim? = some result →
      i.answer = some result → R b [i] c)
    (served : ∀ {b c i}, R (b.record i.action) i.nested c → i.claim? = none →
      i.answer = some (c.apply i.action).1 → R b [i] (c.apply i.action).2) : Chronicle R where
  refl _ := same ⟨rfl, rfl, rfl⟩
  trans := trans
  setReactor _ _ _ := same ⟨rfl, rfl, rfl⟩
  report _ _ := same ⟨rfl, rfl, rfl⟩
  install _ _ _ _ := same (Bench.rewires_install ..).toSameStore
  remove _ _ := same (Bench.rewires_remove ..).toSameStore
  claimed := claimed
  served := served

theorem log : Chronicle fun b is c =>
    c.log.toList = b.log.toList ++ (Invocation.begunAll is).map (·.action) := by
  have step {b c d : Bench} {i : Invocation} (hd : d.log = c.log)
      (h : c.log.toList =
        (b.record i.action).log.toList ++ (Invocation.begunAll i.nested).map (·.action)) :
      d.log.toList = b.log.toList ++ (Invocation.begunAll [i]).map (·.action) := by
    rw [hd, h, Invocation.begunAll_singleton]
    simp [Bench.record]
  refine of_sameStore ?_ ?_ ?_ ?_
  · intro b c h
    simp [h.log, Invocation.begunAll]
  · intro b c d is js h h'
    simp [h, h', Invocation.begunAll_append]
  · intro b c i result h _ _
    exact step rfl h
  · intro b c i h _ _
    exact step (Bench.apply_log c i.action) h

theorem tracker : Chronicle fun b is c =>
    c.tracker = b.tracker.afterAll ((Invocation.servedAll is).map (·.action)) ∧
      b.tracker.Answers (Invocation.servedAll is) := by
  refine of_sameStore ?_ ?_ ?_ ?_
  · intro b c h
    exact ⟨h.tracker, trivial⟩
  · rintro b c d is js ⟨ht, ha⟩ ⟨ht', ha'⟩
    rw [ht] at ht' ha'
    refine ⟨?_, ?_⟩
    · simp [ht', Tracker.afterAll, Invocation.servedAll_append]
    · rw [Invocation.servedAll_append]
      exact Tracker.answers_append.2 ⟨ha, ha'⟩
  · rintro b c i result ⟨ht, ha⟩ hc _
    rw [Invocation.servedAll_claimed hc]
    exact ⟨ht, ha⟩
  · rintro b c i ⟨ht, ha⟩ hc hanswer
    rw [Invocation.servedAll_unclaimed hc]
    rw [Bench.apply_answer, ht] at hanswer
    refine ⟨?_, Tracker.answers_append.2 ⟨ha, hanswer, trivial⟩⟩
    rw [Bench.apply_tracker, ht]
    simp [Tracker.afterAll, Bench.record]

theorem claims : Chronicle fun _ is _ =>
    ∀ i ∈ Invocation.begunAll is, ∀ result, i.claim? = some result → i.answer = some result := by
  refine of_sameStore ?_ ?_ ?_ ?_
  · intro b c _
    exact List.forall_mem_nil _
  · intro b c d is js h h'
    rw [Invocation.begunAll_append]
    exact List.forall_mem_append.2 ⟨h, h'⟩
  · intro b c i result h hc hanswer
    rw [Invocation.begunAll_singleton]
    refine List.forall_mem_cons.2 ⟨fun r hr => ?_, h⟩
    rwa [← hr, hc]
  · intro b c i h hc _
    rw [Invocation.begunAll_singleton]
    refine List.forall_mem_cons.2 ⟨fun r hr => ?_, h⟩
    rw [hc] at hr
    cases hr

end Chronicle

namespace Bench

/--
The log has every invocation in the order in which they began, the tracker has taken the unclaimed ones in
the order in which they reached it, and each of these was answered by the tracker as it was by then.
-/
theorem store_follows_unclaimed_actions {depth : Nat} {b c : Bench} {cs : List Call}
    {xs : List Exchange} (h : b.transcript depth cs = some (xs, c)) :
    let is := xs.filterMap (·.invocation)
    (xs.map (·.call) = cs ∧ ∀ x ∈ xs, x.Matches) ∧
      c.log.toList = b.log.toList ++ (Invocation.begunAll is).map (·.action) ∧
      (∀ call o, call.written? = some o → o.metadata = none → ∀ d : Bench,
        d.request depth call = some (.error (.missingMetadata o.kind.typeName), d) ∧
          d.invoked depth call = none) ∧
      c.tracker = b.tracker.afterAll ((Invocation.servedAll is).map (·.action)) ∧
      c.tracker =
        b.tracker.afterAll (((Invocation.servedAll is).filter (·.accepted)).map (·.action)) ∧
      (Invocation.servedAll is).Perm ((Invocation.begunAll is).filter (·.claim?.isNone)) ∧
      (∀ i ∈ Invocation.begunAll is, ∀ result, i.claim? = some result → i.answer = some result) ∧
      ∀ earlier i later, Invocation.servedAll is = earlier ++ i :: later →
        i.answer = some ((b.tracker.afterAll (earlier.map (·.action))).answer i.action) := by
  obtain ⟨ht, ha⟩ := Chronicle.tracker.transcript h
  refine ⟨transcript_matches h, Chronicle.log.transcript h, ?_, ht, ht.trans ha.afterAll_accepted.symm,
    Invocation.servedAll_perm _, Chronicle.claims.transcript h, ?_⟩
  · intro call o hw ho d
    have hc := Call.action_of_opaque hw ho
    simp [request, invoked, hc, Except.toOption]
  · intro earlier i later hs
    exact (hs ▸ ha).at

def jobs : Resource := .core "v1" "jobs"

def job (name : String) : Object := ⟨⟨"job", "Job"⟩, some ⟨"ns", name⟩, .text ""⟩

def creation (name : String) : Action := ⟨.create (job name), jobs, "", "ns"⟩

def deletion (name : String) : Action := ⟨.delete name, jobs, "", "ns"⟩

def guarded : Bench where
  reporter := ⟨"case"⟩
  reactors :=
    #[.override
        { filter := .ofVerb "create"
          reaction := fun _ _ => .invoke (creation "b") fun _ => .done .pass
          limit := some 1 },
      .override { filter := .ofVerb "delete", reaction := fun _ _ => .done (.answer .empty) }]
  chain := [⟨0, 0⟩, ⟨1, 1⟩]
  issued := 2

def errands : List Call :=
  [.create jobs (job "a"), .create jobs ⟨⟨"raw", "Raw"⟩, none, .text ""⟩, .delete jobs "ns" "a"]

theorem nested_creation_reaches_the_tracker_first :
    ∃ xs c, guarded.transcript 3 errands = some (xs, c) ∧
      c.log.toList = [creation "a", creation "b", deletion "a"] ∧
      c.tracker = Tracker.empty.afterAll [creation "b", creation "a"] := by
  obtain ⟨⟨xs, c⟩, hrun, hp⟩ := (Option.any_eq_true ..).1 (by decide +kernel :
    (guarded.transcript 3 errands).any (fun r =>
      let is := r.1.filterMap (·.invocation)
      decide ((Invocation.begunAll is).map (·.action) = [creation "a", creation "b", deletion "a"] ∧
        (Invocation.servedAll is).map (·.action) = [creation "b", creation "a"])) = true)
  obtain ⟨hbegun, hserved⟩ := of_decide_eq_true hp
  obtain ⟨-, hlog, -, htracker, -⟩ := store_follows_unclaimed_actions hrun
  refine ⟨xs, c, hrun, hlog.trans ?_, htracker.trans ?_⟩
  · rw [hbegun]
    rfl
  · rw [hserved]
    rfl

end Bench

end ControllerBench
