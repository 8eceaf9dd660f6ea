import Mathlib.Data.List.Induction
import Mathlib.Data.List.TakeDrop
import Mathlib.Data.List.TakeWhile
import ControllerBench.Action.Filter

namespace ControllerBench

inductive Narrowing where
  | on (text : String)
  | inNamespace (ns : String)
  | named (name : String)
  deriving DecidableEq, Repr

namespace Filter

def narrow (f : Filter) : Narrowing → Filter
  | .on text => f.on text
  | .inNamespace ns => f.inNamespace ns
  | .named name => f.named name

def build (verb : String) (steps : List Narrowing) : Filter := steps.foldl narrow (ofVerb verb)

def targeted? : Narrowing → Option String
  | .on text => some text
  | .inNamespace _ | .named _ => none

def lastTarget? (steps : List Narrowing) : Option String := (steps.filterMap targeted?).getLast?

theorem toList_cut (resource sub : String) :
    s!"{resource}/{sub}".toList = resource.toList ++ '/' :: sub.toList := by
  simp [toString]

theorem cut_or_whole (text : String) :
    (∃ resource sub : String, '/' ∉ resource.toList ∧ text = s!"{resource}/{sub}") ∨
      '/' ∉ text.toList := by
  by_cases h : '/' ∈ text.toList
  · obtain ⟨resource, sub, hsplit, hfirst⟩ := List.eq_append_cons_of_mem h
    refine .inl ⟨String.ofList resource, String.ofList sub, ?_, ?_⟩
    · rwa [String.toList_ofList]
    · rw [← String.toList_inj, toList_cut, String.toList_ofList, String.toList_ofList, hsplit]
  · exact .inr h

theorem span_cut {before : List Char} (h : '/' ∉ before) (after : List Char) :
    (before ++ '/' :: after).span (fun c => decide (c ≠ '/')) = (before, '/' :: after) := by
  have hbefore : ∀ c ∈ before, decide (c ≠ '/') = true := by
    intro c hc
    exact decide_eq_true fun he => h (he ▸ hc)
  rw [List.span_eq_takeWhile_dropWhile, List.takeWhile_append_of_pos hbefore,
    List.dropWhile_append_of_pos hbefore, List.takeWhile_cons_of_neg (by decide),
    List.dropWhile_cons_of_neg (by decide), List.append_nil]

theorem span_whole {chars : List Char} (h : '/' ∉ chars) :
    chars.span (fun c => decide (c ≠ '/')) = (chars, []) := by
  have hall : ∀ c ∈ chars, decide (c ≠ '/') = true := by
    intro c hc
    exact decide_eq_true fun he => h (he ▸ hc)
  have hdrop := List.dropWhile_eq_nil_iff.2 hall
  rw [List.span_eq_takeWhile_dropWhile, List.takeWhile_eq_self_iff.2 hall, hdrop]

theorem target_cut {resource : String} (h : '/' ∉ resource.toList) (sub : String) :
    target s!"{resource}/{sub}" = (resource, sub) := by
  rw [target, toList_cut, span_cut h]
  simp

theorem target_whole {text : String} (h : '/' ∉ text.toList) :
    target text = if text = wildcard then (wildcard, wildcard) else (text, "") := by
  rw [target, span_whole h]

theorem slash_notMem_target (text : String) : '/' ∉ (target text).1.toList := by
  rcases cut_or_whole text with ⟨resource, sub, h, rfl⟩ | h
  · rwa [target_cut h]
  · rw [target_whole h]
    split
    · decide
    · exact h

/-- Any resource, but no subresource: only a slash with nothing behind it says so. -/
theorem target_eq_primary {text : String} : target text = (wildcard, "") ↔ text = "*/" := by
  constructor
  · intro htarget
    rcases cut_or_whole text with ⟨resource, sub, h, rfl⟩ | h
    · rw [target_cut h] at htarget
      obtain ⟨rfl, rfl⟩ := Prod.mk.inj htarget
      rfl
    · rw [target_whole h] at htarget
      split at htarget
      · exact absurd (Prod.mk.inj htarget).2 (by decide)
      next hne => exact absurd (Prod.mk.inj htarget).1 hne
  · rintro rfl
    have hwild : '/' ∉ wildcard.toList := by decide
    exact target_cut hwild ""

theorem target_build (verb : String) (steps : List Narrowing) :
    ((build verb steps).resource, (build verb steps).sub) =
      (lastTarget? steps).elim (wildcard, wildcard) target := by
  induction steps using List.reverseRecOn with
  | nil => rfl
  | append_singleton steps step ih =>
    have hbuild : build verb (steps ++ [step]) = (build verb steps).narrow step := by simp [build]
    cases step with
    | on text =>
      have hlast : lastTarget? (steps ++ [.on text]) = some text := by simp [lastTarget?, targeted?]
      rw [hbuild, hlast]
      rfl
    | inNamespace ns =>
      have hlast : lastTarget? (steps ++ [.inNamespace ns]) = lastTarget? steps := by
        simp [lastTarget?, targeted?]
      rw [hbuild, hlast, ← ih]
      rfl
    | named name =>
      have hlast : lastTarget? (steps ++ [.named name]) = lastTarget? steps := by
        simp [lastTarget?, targeted?]
      rw [hbuild, hlast, ← ih]
      rfl

theorem slash_notMem_build (verb : String) (steps : List Narrowing) :
    '/' ∉ (build verb steps).resource.toList := by
  have hresource := congrArg Prod.fst (target_build verb steps)
  cases hlast : lastTarget? steps with
  | none =>
    rw [hlast] at hresource
    have hwild : (build verb steps).resource = wildcard := hresource
    rw [hwild]
    decide
  | some text =>
    rw [hlast] at hresource
    have htarget : (build verb steps).resource = (target text).1 := hresource
    rw [htarget]
    exact slash_notMem_target text

theorem build_primary_iff (verb : String) (steps : List Narrowing) :
    (build verb steps).resource = wildcard ∧ (build verb steps).sub = "" ↔
      lastTarget? steps = some "*/" := by
  rw [← Prod.mk.injEq, target_build]
  cases lastTarget? steps with
  | none => simp [wildcard]
  | some text => simp [target_eq_primary]

theorem on_targetText {f : Filter} (h : '/' ∉ f.resource.toList) :
    f.on f.targetText =
      if f.resource = wildcard ∧ f.sub = "" then { f with sub := wildcard } else f := by
  by_cases hsub : f.sub = ""
  · have ht : f.targetText = f.resource := by simp [targetText, hsub]
    rw [ht, on, target_whole h]
    by_cases hwild : f.resource = wildcard
    · simp [hsub, hwild]
    · simp [hwild, ← hsub]
  · have ht : f.targetText = s!"{f.resource}/{f.sub}" := by simp [targetText, hsub]
    rw [ht, on, target_cut h]
    simp [hsub]

/-- A bare wildcard is read as every subresource too, and written where there is none. -/
theorem reads_back_iff_not_primary (verb : String) (steps : List Narrowing) :
    ((build verb steps).on (build verb steps).targetText = build verb steps ↔
        lastTarget? steps ≠ some "*/") ∧
      (build verb steps).on (build verb steps).targetText =
        (if lastTarget? steps = some "*/" then { build verb steps with sub := wildcard }
        else build verb steps) ∧
      (lastTarget? steps = some "*/" ↔
        (build verb steps).resource = wildcard ∧ (build verb steps).sub = "") ∧
      (lastTarget? steps = some "*/" → (build verb steps).targetText = "*") := by
  have hread := on_targetText (slash_notMem_build verb steps)
  have hprimary := build_primary_iff verb steps
  rw [hread]
  simp only [hprimary]
  refine ⟨?_, trivial, trivial, fun hlast => ?_⟩
  · split
    next hlast =>
      have hsub := (hprimary.2 hlast).2
      have hne : ({ build verb steps with sub := wildcard } : Filter) ≠ build verb steps := by
        intro he
        have hwild : wildcard = (build verb steps).sub := congrArg Filter.sub he
        rw [hsub] at hwild
        exact absurd hwild (by decide)
      exact iff_of_false hne (not_not.2 hlast)
    next hlast => exact iff_of_true rfl hlast
  · obtain ⟨hresource, hsub⟩ := hprimary.2 hlast
    simp [targetText, hresource, hsub, wildcard]

theorem primary_target_reads_back_wider :
    (build "get" [.on "*/"]).targetText = "*" ∧
      (build "get" [.on "*/"]).on "*" ≠ build "get" [.on "*/"] := by
  constructor <;> decide +kernel

end Filter

end ControllerBench
