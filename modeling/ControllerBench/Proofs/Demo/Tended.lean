import ControllerBench.Proofs.Demo.Stages

namespace ControllerBench.Demo

namespace Stage

/-- The pass will make the widget ready if it finds it as it is now. -/
def Marks (r : Request) : Stage → Prop
  | reading x | creating x _ | marking x _ => x = r
  | clearing _ | leaving .. => False

/-- The pass will remove the config map if there is no widget. -/
def Clears (r : Request) : Stage → Prop
  | reading x | clearing x => x = r
  | creating .. | marking .. | leaving .. => False

/-- What a pass found may have changed since, but then it is owed another one. -/
def Sound (t : Tracker) (owed : Request → Prop) : Stage → Prop
  | reading _ | leaving .. => True
  | clearing r => ready? t r ≠ some true
  | creating r _ => ready? t r ≠ some true ∧ (ready? t r = none → owed r)
  | marking r _ => ready? t r ≠ some true ∧ (ready? t r = none → owed r) ∧ Mapped t r

end Stage

structure Tended (t : Tracker) (owed : Request → Prop) (st : Option Stage) : Prop where
  mapped : ∀ r, ready? t r = some true → Mapped t r
  unready : ∀ r, ready? t r = some false → owed r ∨ ∃ x ∈ st, x.Marks r
  orphan : ∀ r, ready? t r = none → Mapped t r → owed r ∨ ∃ x ∈ st, x.Clears r
  sound : ∀ x ∈ st, x.Sound t owed

variable {t t' : Tracker} {owed owed' : Request → Prop} {st : Option Stage} {x x' : Stage} {r : Request}
  {e : Option WatchEvent} {marked : Option Request}

theorem Stage.Sound.mono (h : x.Sound t owed) (hle : ∀ r, owed r → owed' r) : x.Sound t owed' := by
  cases x with
  | reading | leaving => trivial
  | clearing r => exact h
  | creating r replicas => exact ⟨h.1, fun hn => hle r (h.2 hn)⟩
  | marking r replicas => exact ⟨h.1, fun hn => hle r (h.2.1 hn), h.2.2⟩

namespace Tended

theorem mono (h : Tended t owed st) (hle : ∀ r, owed r → owed' r) : Tended t owed' st where
  mapped := h.mapped
  unready r hr := (h.unready r hr).imp_left (hle r)
  orphan r hr hm := (h.orphan r hr hm).imp_left (hle r)
  sound x hx := (h.sound x hx).mono hle

/-- A write by someone else is owed a request, and leaves all other widgets as they are. -/
theorem disturb (h : Tended t owed st) (hle : ∀ r, owed r → owed' r) (hr : owed' r)
    (hown : ready? t' r ≠ some true) (hother : ∀ x, x ≠ r → ready? t' x = ready? t x)
    (hmap : ∀ x, Mapped t' x ↔ Mapped t x) : Tended t' owed' st where
  mapped x hx := by
    have hne : x ≠ r := fun he => hown (he ▸ hx)
    exact (hmap x).2 (h.mapped x (hother x hne ▸ hx))
  unready x hx := by
    by_cases he : x = r
    · exact .inl (he ▸ hr)
    · exact (h.unready x (hother x he ▸ hx)).imp_left (hle x)
  orphan x hx hm := by
    by_cases he : x = r
    · exact .inl (he ▸ hr)
    · exact (h.orphan x (hother x he ▸ hx) ((hmap x).1 hm)).imp_left (hle x)
  sound y hy := by
    have hready (z : Request) (hz : ready? t z ≠ some true) : ready? t' z ≠ some true := by
      by_cases he : z = r
      · exact he ▸ hown
      · exact hother z he ▸ hz
    have hgone (z : Request) (hz : ready? t z = none → owed z) (hn : ready? t' z = none) :
        owed' z := by
      by_cases he : z = r
      · exact he ▸ hr
      · exact hle z (hz (hother z he ▸ hn))
    have hsound := h.sound y hy
    cases y with
    | reading | leaving => trivial
    | clearing z => exact hready z hsound
    | creating z => exact ⟨hready z hsound.1, hgone z hsound.2⟩
    | marking z => exact ⟨hready z hsound.1, hgone z hsound.2.1, (hmap z).2 hsound.2.2⟩

theorem drives {op : Op} {ok : Bool} (h : Tended t owed st) (hd : Drives t op ok t' e)
    (hle : ∀ r, owed r → owed' r) (he : ∀ kind r, e = some (change kind r) → owed' r) :
    Tended t' owed' st := by
  cases hd with
  | @written r replicas kind hw =>
    refine h.disturb (r := r) hle (he kind r rfl) ?_ (fun x hx => ?_) fun x => ?_
    · rw [ready?_insert_widget, if_pos rfl]
      exact nofun
    · rw [ready?_insert_widget, if_neg hx]
    · exact mapped_insert_widget ..
  | @deleted r ho =>
    refine h.disturb (r := r) hle (he .deleted r rfl) ?_ (fun x hx => ?_) fun x => ?_
    · rw [ready?_erase_widget, if_pos rfl]
      exact nofun
    · rw [ready?_erase_widget, if_neg hx]
    · exact mapped_erase_widget ..
  | refused => exact h.mono hle

theorem take (h : Tended t owed none) (hle : ∀ x, owed x → x = r ∨ owed' x) :
    Tended t owed' (some (.reading r)) where
  mapped := h.mapped
  unready x hx := by
    rcases h.unready x hx with ho | ⟨y, hy, -⟩
    · exact (hle x ho).symm.imp_right fun he => ⟨_, rfl, he.symm⟩
    · cases hy
  orphan x hx hm := by
    rcases h.orphan x hx hm with ho | ⟨y, hy, -⟩
    · exact (hle x ho).symm.imp_right fun he => ⟨_, rfl, he.symm⟩
    · cases hy
  sound y hy := by
    cases hy
    trivial

theorem conclude {outcome : Outcome} (h : Tended t owed (some (.leaving r outcome))) :
    Tended t owed none where
  mapped := h.mapped
  unready x hx := by
    rcases h.unready x hx with ho | ⟨y, hy, hm⟩
    · exact .inl ho
    · cases hy
      exact hm.elim
  orphan x hx hm := by
    rcases h.orphan x hx hm with ho | ⟨y, hy, hc⟩
    · exact .inl ho
    · cases hy
      exact hc.elim
  sound y hy := by cases hy

theorem advance (h : Tended t owed (some x)) (hle : ∀ r, owed r → owed' r)
    (hready : ∀ r, ready? t' r = ready? t r)
    (hmapped : ∀ r, ready? t r = some true → Mapped t r → Mapped t' r)
    (hmarks : ∀ r, ready? t r = some false → x.Marks r → x'.Marks r)
    (hclears : ∀ r, ready? t r = none → Mapped t' r →
      owed' r ∨ Mapped t r ∧ (x.Clears r → x'.Clears r))
    (hsound : x'.Sound t' owed') : Tended t' owed' (some x') where
  mapped r hr := hmapped r (hready r ▸ hr) (h.mapped r (hready r ▸ hr))
  unready r hr := by
    rcases h.unready r (hready r ▸ hr) with ho | ⟨y, hy, hm⟩
    · exact .inl (hle r ho)
    · cases hy
      exact .inr ⟨x', rfl, hmarks r (hready r ▸ hr) hm⟩
  orphan r hr hm := by
    rcases hclears r (hready r ▸ hr) hm with ho | ⟨hold, hclear⟩
    · exact .inl ho
    · rcases h.orphan r (hready r ▸ hr) hold with ho | ⟨y, hy, hc⟩
      · exact .inl (hle r ho)
      · cases hy
        exact .inr ⟨x', rfl, hclear hc⟩
  sound y hy := by
    cases hy
    exact hsound

theorem mark {replicas : Nat} {outcome : Outcome} (h : Tended t owed (some (.marking r replicas)))
    (hle : ∀ r, owed r → owed' r) :
    Tended (t.insert (widgetKey r) (widgetAt r replicas true)) owed' (some (.leaving r outcome)) where
  mapped y hy := by
    rw [mapped_insert_widget]
    rw [ready?_insert_widget] at hy
    split at hy
    next he => exact he ▸ (h.sound _ rfl).2.2
    next => exact h.mapped y hy
  unready y hy := by
    rw [ready?_insert_widget] at hy
    split at hy
    · cases hy
    next hne =>
      rcases h.unready y hy with ho | ⟨z, hz, hm⟩
      · exact .inl (hle y ho)
      · cases hz
        exact absurd hm.symm hne
  orphan y hy hm := by
    rw [mapped_insert_widget] at hm
    rw [ready?_insert_widget] at hy
    split at hy
    · cases hy
    · rcases h.orphan y hy hm with ho | ⟨z, hz, hc⟩
      · exact .inl (hle y ho)
      · cases hz
        exact hc.elim
  sound y hy := by
    cases hy
    trivial

theorem asks (h : Tended t owed (some x)) (hs : Stocked t) (ha : Asks t x t' e marked x')
    (hle : ∀ r, owed r → owed' r) : Tended t' owed' (some x') := by
  have hx := h.sound x rfl
  cases ha with
  | @ready r hr =>
    refine h.advance hle (fun _ => rfl) (fun _ _ hm => hm) ?_ ?_ trivial
    · rintro y hy rfl
      exact absurd (hr.symm.trans hy) (by decide)
    · refine fun y hy hm => .inr ⟨hm, ?_⟩
      rintro rfl
      exact absurd (hr.symm.trans hy) (by decide)
  | @unready r replicas hf =>
    have hr : ready? t r = some false := hs.ready?_eq_some.2 ⟨replicas, hf⟩
    refine h.advance hle (fun _ => rfl) (fun _ _ hm => hm) (fun _ _ hm => hm) ?_ ?_
    · refine fun y hy hm => .inr ⟨hm, ?_⟩
      rintro rfl
      exact absurd (hr.symm.trans hy) (by decide)
    · exact ⟨by rw [hr]; decide, fun hn => absurd (hr.symm.trans hn) (by decide)⟩
  | @gone r hr =>
    refine h.advance hle (fun _ => rfl) (fun _ _ hm => hm) ?_ (fun _ _ hm => .inr ⟨hm, id⟩) ?_
    · rintro y hy rfl
      exact absurd (hr.symm.trans hy) (by decide)
    · change ready? t r ≠ some true
      rw [hr]
      decide
  | @cleared r hm =>
    refine h.advance hle (ready?_erase_config t r) (fun y hy hmap => ?_) nofun ?_ trivial
    · have hne : y ≠ r := fun he => hx (he ▸ hy)
      exact (mapped_erase_config t r y).2 ⟨hne, hmap⟩
    · intro y _ hmap
      obtain ⟨hne, hmap⟩ := (mapped_erase_config t r y).1 hmap
      exact .inr ⟨hmap, fun he => absurd he.symm hne⟩
  | @clear r hm =>
    refine h.advance hle (fun _ => rfl) (fun _ _ hm => hm) nofun ?_ trivial
    refine fun y _ hmap => .inr ⟨hmap, ?_⟩
    rintro rfl
    exact absurd hmap hm
  | @made r replicas hm =>
    refine h.advance hle (ready?_insert_config t r · _) (fun y _ hmap => ?_) (fun _ _ hm => hm) ?_ ?_
    · exact (mapped_insert_config t r y _).2 (.inr hmap)
    · intro y hy hmap
      rcases (mapped_insert_config t r y _).1 hmap with rfl | hmap
      · exact .inl (hle y (hx.2 hy))
      · exact .inr ⟨hmap, False.elim⟩
    · refine ⟨?_, fun hn => hle r (hx.2 ?_), (mapped_insert_config t r r _).2 (.inl rfl)⟩
      · rw [ready?_insert_config]
        exact hx.1
      · rwa [ready?_insert_config] at hn
  | @kept r replicas hm =>
    refine h.advance hle (fun _ => rfl) (fun _ _ hm => hm) (fun _ _ hm => hm) ?_ ?_
    · exact fun y _ hmap => .inr ⟨hmap, False.elim⟩
    · exact ⟨hx.1, fun hn => hle r (hx.2 hn), hm⟩
  | @marked r replicas hn => exact h.mark hle
  | @lost r replicas outcome hr =>
    refine h.advance hle (fun _ => rfl) (fun _ _ hm => hm) ?_ ?_ trivial
    · rintro y hy rfl
      exact absurd (hr.symm.trans hy) (by decide)
    · exact fun y _ hmap => .inr ⟨hmap, False.elim⟩

theorem unready_of_marked (h : Tended t owed (some x)) (ha : Asks t x t' e marked x')
    (hr : marked = some r) : ready? t r = some false := by
  cases ha with
  | ready | unready | gone | cleared | clear | made | kept | lost => cases hr
  | marked hn =>
    cases hr
    have hx := (h.sound _ rfl).1
    cases hr : ready? t r with
    | none => exact absurd hr hn
    | some ready =>
      cases ready with
      | false => rfl
      | true => exact absurd hr hx

theorem settled (h : Tended t owed none) (hn : ∀ r, ¬ owed r) (r : Request) :
    ready? t r ≠ some false ∧ (Mapped t r ↔ ready? t r ≠ none) := by
  have hunready : ready? t r ≠ some false := by
    intro hr
    rcases h.unready r hr with ho | ⟨y, hy, -⟩
    · exact hn r ho
    · cases hy
  refine ⟨hunready, fun hm hr => ?_, fun hr => ?_⟩
  · rcases h.orphan r hr hm with ho | ⟨y, hy, -⟩
    · exact hn r ho
    · cases hy
  · cases hb : ready? t r with
    | none => exact absurd hb hr
    | some ready =>
      cases ready with
      | false => exact absurd hb hunready
      | true => exact h.mapped r hb

end Tended

end ControllerBench.Demo
