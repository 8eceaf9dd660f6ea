import Mathlib.Logic.Basic
import ControllerBench.Action.Filter

namespace ControllerBench

inductive Dimension where
  | verb
  | resource
  | sub
  | ns
  | name
  deriving DecidableEq, Repr

namespace Action

theorem eq_star_of_toLower {c : Char} (h : c.toLower = '*') : c = '*' := by
  by_cases hc : c.val ≥ 'A'.val ∧ c.val ≤ 'Z'.val
  · have hlower : c.toLower.val = c.val + ('a'.val - 'A'.val) := congrArg Char.val (dif_pos hc)
    rw [h] at hlower
    have hnat := congrArg UInt32.toNat hlower
    have hge : 'A'.val.toNat ≤ c.val.toNat := hc.1
    have hle : c.val.toNat ≤ 'Z'.val.toNat := hc.2
    simp at hge hle hnat
    omega
  · have hsame : c.toLower = c := dif_neg hc
    rwa [hsame] at h

theorem equalsIgnoringCase_wildcard {s : String} :
    equalsIgnoringCase s Filter.wildcard = true ↔ s = Filter.wildcard := by
  constructor
  · intro h
    have hlower : s.toList.map Char.toLower = ['*'] := by
      have hlist := congrArg String.toList (beq_iff_eq.1 h)
      simpa [Filter.wildcard] using hlist
    obtain ⟨c, hs, hc⟩ := List.map_eq_singleton_iff.1 hlower
    rw [eq_star_of_toLower hc] at hs
    exact String.toList_inj.1 hs
  · rintro rfl
    exact beq_self_eq_true _

end Action

namespace Filter

def widen (f : Filter) (dims : List Dimension) : Filter where
  verb := if .verb ∈ dims then wildcard else f.verb
  resource := if .resource ∈ dims then wildcard else f.resource
  sub := if .sub ∈ dims then wildcard else f.sub
  ns := if .ns ∈ dims then wildcard else f.ns
  name := if .name ∈ dims then wildcard else f.name

/--
The wildcard stands beside a verb or a resource that only the coarse test took for the action's, and the
action does not happen to spell the wildcard.
-/
def Orphans (f : Filter) (dims : List Dimension) (a : Action) : Prop :=
  (.verb ∈ dims ∧ .resource ∉ dims ∧ accepts f.resource a.resource.plural = false ∧
      a.verb ≠ wildcard) ∨
    (.resource ∈ dims ∧ .verb ∉ dims ∧ accepts f.verb a.verb = false ∧
      a.resource.plural ≠ wildcard)

variable {f : Filter} {a : Action} {dims : List Dimension}

def Aims (f : Filter) (a : Action) : Prop :=
  a.matchesCoarsely f.verb f.resource = true ∨
    accepts f.verb a.verb = true ∧ accepts f.resource a.resource.plural = true

theorem handles_iff : f.handles a = true ↔
    f.Aims a ∧ accepts f.sub a.sub = true ∧ accepts f.ns a.ns = true ∧ f.acceptsName a = true := by
  simp [handles, Aims, and_assoc]

theorem accepts_widened {wide : Prop} [Decidable wide] {pattern value : String}
    (h : accepts pattern value = true) :
    accepts (if wide then wildcard else pattern) value = true := by
  split
  · exact accepts_wildcard value
  · exact h

theorem acceptsName_widen (h : f.acceptsName a = true) : (f.widen dims).acceptsName a = true := by
  unfold acceptsName at h ⊢
  by_cases hn : .name ∈ dims
  · simp [widen, hn]
  · simpa [widen, hn] using h

theorem matchesCoarsely_iff {verb plural : String} : a.matchesCoarsely verb plural = true ↔
    Action.equalsIgnoringCase a.verb verb = true ∧
      Action.equalsIgnoringCase a.resource.plural plural = true := by
  simp [Action.matchesCoarsely]

theorem aims_anyVerb (h : f.Aims a) : { f with verb := wildcard }.Aims a ↔
    accepts f.resource a.resource.plural = true ∨ a.verb = wildcard := by
  simp only [Aims, matchesCoarsely_iff, Action.equalsIgnoringCase_wildcard, accepts_wildcard, true_and]
  constructor
  · rintro (⟨hverb, -⟩ | hresource)
    · exact .inr hverb
    · exact .inl hresource
  · rintro (hresource | hverb)
    · exact .inr hresource
    · exact h.imp (fun hcoarse => ⟨hverb, (matchesCoarsely_iff.1 hcoarse).2⟩) And.right

theorem aims_anyResource (h : f.Aims a) : { f with resource := wildcard }.Aims a ↔
    accepts f.verb a.verb = true ∨ a.resource.plural = wildcard := by
  simp only [Aims, matchesCoarsely_iff, Action.equalsIgnoringCase_wildcard, accepts_wildcard, and_true]
  constructor
  · rintro (⟨-, hresource⟩ | hverb)
    · exact .inr hresource
    · exact .inl hverb
  · rintro (hverb | hresource)
    · exact .inr hverb
    · exact h.imp (fun hcoarse => ⟨(matchesCoarsely_iff.1 hcoarse).1, hresource⟩) And.left

theorem aims_widen_iff (h : f.Aims a) : (f.widen dims).Aims a ↔ ¬f.Orphans dims a := by
  by_cases hv : .verb ∈ dims <;> by_cases hr : .resource ∈ dims
  · have hany : (f.widen dims).Aims a := by simp [Aims, widen, hv, hr, accepts_wildcard]
    simp [Orphans, hv, hr, hany]
  · have hverb : (f.widen dims).Aims a ↔ { f with verb := wildcard }.Aims a := by
      simp [Aims, widen, hv, hr]
    rw [hverb, aims_anyVerb h]
    simp [Orphans, hv, hr, Decidable.or_iff_not_imp_left]
  · have hresource : (f.widen dims).Aims a ↔ { f with resource := wildcard }.Aims a := by
      simp [Aims, widen, hv, hr]
    rw [hresource, aims_anyResource h]
    simp [Orphans, hv, hr, Decidable.or_iff_not_imp_left]
  · have hsame : (f.widen dims).Aims a ↔ f.Aims a := by simp [Aims, widen, hv, hr]
    simp [hsame, Orphans, hv, hr, h]

/--
What a filter handled it goes on to handle, except where only the coarse test took verb and resource and one
of the two is now the wildcard.
-/
theorem widen_handles_iff_not_orphans (dims : List Dimension) (h : f.handles a = true) :
    (f.widen dims).handles a = true ↔ ¬f.Orphans dims a := by
  obtain ⟨haims, hsub, hns, hname⟩ := handles_iff.1 h
  rw [handles_iff, aims_widen_iff haims]
  constructor
  · exact And.left
  · intro hpaired
    exact ⟨hpaired, accepts_widened hsub, accepts_widened hns, acceptsName_widen hname⟩

def shouted : Filter := { (ofVerb "CREATE").on "Widgets" with ns := "ns", name := "a" }

def creation : Action :=
  ⟨.create ⟨⟨"widget", "Widget"⟩, some ⟨"ns", "a"⟩, .text ""⟩, ⟨"example.com", "v1", "widgets"⟩, "", "ns"⟩

theorem shouted_aims : shouted.Aims creation := by
  have hverb : "create".map Char.toLower = "CREATE".map Char.toLower :=
    (by decide +kernel : _ = "create").trans (by decide +kernel)
  have hresource : "widgets".map Char.toLower = "Widgets".map Char.toLower :=
    (by decide +kernel : _ = "widgets").trans (by decide +kernel)
  have hplural : shouted.resource = "Widgets" := by decide +kernel
  refine .inl (matchesCoarsely_iff.2 ⟨beq_iff_eq.2 hverb, beq_iff_eq.2 ?_⟩)
  rw [hplural]
  exact hresource

theorem shouted_handles : shouted.handles creation = true :=
  handles_iff.2 ⟨shouted_aims, by decide +kernel, by decide +kernel, by decide +kernel⟩

theorem shouted_pair_widened :
    shouted.handles creation = true ∧
      (shouted.widen [.verb, .resource, .name]).handles creation = true := by
  refine ⟨shouted_handles, (widen_handles_iff_not_orphans _ shouted_handles).2 ?_⟩
  simp [Orphans]

theorem shouted_resource_lost :
    shouted.handles creation = true ∧ (shouted.widen [.verb]).handles creation = false := by
  refine ⟨shouted_handles, Bool.eq_false_iff.2 fun h => ?_⟩
  have hwide : { shouted with verb := wildcard }.Aims creation := (handles_iff.1 h).1
  rcases (aims_anyVerb shouted_aims).1 hwide with hresource | hverb
  · exact absurd hresource (by decide +kernel)
  · exact absurd hverb (by decide +kernel)

end Filter

end ControllerBench
