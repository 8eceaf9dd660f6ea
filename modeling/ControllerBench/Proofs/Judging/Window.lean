import ControllerBench.Proofs.Judging.Course
import ControllerBench.Proofs.Judging.Upheld

namespace ControllerBench

namespace Bench

/-- Since `o` the actions `as` were logged; the observers come first in the chain. -/
structure Window (o : Bench) (observers : List (Reactor Script)) (n : Nat) (as : List Action)
    (seen : Nat → List Action) (b : Bench) : Prop where
  observing : Observing o observers n seen b
  log : b.log.toList = o.log.toList ++ as
  chain : ∃ rest, b.chain = o.seats observers.length ++ rest ∧
    ∀ x ∈ rest, x.slot < o.reactors.size ∨ o.reactors.size + observers.length ≤ x.slot

def Watched (o : Bench) (observers : List (Reactor Script)) (n : Nat) (b : Bench) : Prop :=
  ∃ as, Window o observers n as (fun _ => as) b

variable {o b c d : Bench} {observers : List (Reactor Script)} {n : Nat} {as : List Action}
  {seen : Nat → List Action}

namespace Observing

theorem congr {now : Nat → List Action} (h : Observing o observers n seen b)
    (hnow : ∀ k < observers.length, now k = seen k) : Observing o observers n now b where
  orderly := h.orderly
  count := h.count
  observers k x hx := by
    rw [hnow k (List.getElem?_eq_some_iff.1 hx).1]
    exact h.observers k x hx
  slots := h.slots
  ids := h.ids
  chain := h.chain
  size := h.size
  issued := h.issued

theorem ignore {slot : Nat} {a : Action} (h : Observing o observers n seen b)
    (ha : b.handles slot a = false) : Observing o observers n (hear o slot a seen) b := by
  refine h.altered (.refl slot b) (fun k hk => if_neg hk) fun k x hk hx => ?_
  obtain ⟨y, hy, hs⟩ := h.observers k x hx
  rw [hk] at hy
  refine ⟨y, hy, ?_⟩
  rw [hear, if_pos hk]
  simp only [handles, hy] at ha
  exact hs.ignore ha

end Observing

theorem place_chain {p : Placement} (hp : p.front = false) (label : String) (slot : Nat) :
    (b.place label slot p).chain = b.chain ∨
      (b.place label slot p).chain = b.chain ++ [⟨b.issued, slot⟩] := by
  unfold place
  cases p.scope with
  | none => cases p.idle <;> simp [attach, hp]
  | some scope =>
    have hi := altersAt_inject b slot (b.reporter.within scope)
    cases p.idle <;> simp [attach, hp, hi.chain, hi.issued]

theorem install_chain {p : Placement} (hp : p.front = false) (label : String)
    (reactor : Option (Reactor Script)) :
    ∃ more, (b.install label reactor p).chain = b.chain ++ more ∧ ∀ x ∈ more, x.id = b.issued := by
  have hplace (d : Bench) (slot : Nat) :
      ∃ more, (d.place label slot p).chain = d.chain ++ more ∧ ∀ x ∈ more, x.id = d.issued := by
    rcases place_chain hp label slot (b := d) with h | h
    · exact ⟨[], by rw [h, List.append_nil], List.forall_mem_nil _⟩
    · exact ⟨_, h, by simp⟩
  unfold install
  split
  next r => exact hplace (b.keep r) _
  · split
    · exact hplace b _
    · exact ⟨[], (List.append_nil _).symm, List.forall_mem_nil _⟩

namespace Window

theorem install (h : Window o observers n as seen b) {p : Placement} (hp : p.front = false)
    (label : String) (reactor : Option (Reactor Script)) :
    Window o observers n as seen (b.install label reactor p) where
  observing := h.observing.install label reactor p
  log := by rw [(rewires_install b label reactor p).log, h.log]
  chain := by
    have hafter := h.observing.install label reactor p
    obtain ⟨rest, hchain, hrest⟩ := h.chain
    obtain ⟨more, hmore, hids⟩ := install_chain hp label reactor (b := b)
    refine ⟨rest ++ more, by rw [hmore, hchain, List.append_assoc], ?_⟩
    rw [List.forall_mem_append]
    refine ⟨hrest, fun x hx => ?_⟩
    -- a new installation has a new number, so it is not one of the observers' own
    have hown := hafter.chain x (by rw [hmore]; exact List.mem_append_right _ hx)
    have hid := hids x hx
    have hissued := h.observing.issued
    have hcount := h.observing.count
    omega

theorem remove (h : Window o observers n as seen b) (label : String) :
    Window o observers n as seen (b.remove label).2 where
  observing := h.observing.remove label
  log := by rw [(rewires_remove b label).log, h.log]
  chain := by
    obtain ⟨rest, hchain, hrest⟩ := h.chain
    unfold Bench.remove
    split
    next id hid =>
      obtain ⟨l, hl, hi⟩ := Option.bind_eq_some_iff.1 hid
      -- no label leads to an observer's own installation, so all of them stay
      have hforeign := ((h.observing.installed hl).2.2 id hi).1
      have hcount := h.observing.count
      have hseats : (o.seats observers.length).filter (·.id != id) = o.seats observers.length := by
        refine List.filter_eq_self.2 fun x hx => ?_
        obtain ⟨k, hk, rfl⟩ := mem_seats.1 hx
        simp only [bne_iff_ne, ne_eq]
        omega
      refine ⟨rest.filter (·.id != id), ?_, fun x hx => hrest x (List.mem_filter.1 hx).1⟩
      simp only [detach, hchain, List.filter_append, hseats]
    · exact ⟨rest, hchain, hrest⟩

theorem wait {slot : Nat} {v : Verifier} {waited : Bool} (h : Window o observers n as seen b)
    (hv : b.reactors[slot]? = some (.verifier v waited)) :
    Window o observers n as seen (b.setReactor slot (.verifier v true)) :=
  ⟨h.observing.wait hv, h.log, h.chain⟩

theorem report (h : Window o observers n as seen b) (fs : List Failure) :
    Window o observers n as seen (b.report fs) :=
  ⟨h.observing.report fs, h.log, h.chain⟩

theorem record (h : Window o observers n as seen b) (a : Action) :
    Window o observers n (as ++ [a]) seen (b.record a) where
  observing := h.observing.record a
  log := by
    have hlog : (b.record a).log.toList = b.log.toList ++ [a] := Array.toList_push
    rw [hlog, h.log, List.append_assoc]
  chain := h.chain

theorem reply {slot : Nat} {a : Action} (h : Window o observers n as seen b)
    (ha : b.handles slot a = true) :
    Window o observers n as (Observing.hear o slot a seen) (b.reply slot a).2 where
  observing := h.observing.reply ha
  log := by rw [(altersAt_reply b slot a).log, h.log]
  chain := by rw [(altersAt_reply b slot a).chain]; exact h.chain

end Window

end Bench

namespace TestEvent

variable {e : TestEvent} {r : Reporter} {fuel : Nat} {config : Config} {t : Schedule}

end TestEvent

end ControllerBench
