import ControllerBench.Proofs.Delivery.Moves

namespace ControllerBench

namespace Controller

/-- A controller that has stopped keeps what it took, and its queue is gone. -/
structure Served (c : Controller) (sent inFlight : List Request) : Prop where
  balance : c.phase.isEnded = false → c.taken.toList ++ c.queue ++ inFlight = sent
  emptied : c.phase.isEnded = true → c.queue = []
  inOrder : c.taken.toList <+: sent

namespace Served

variable {c : Controller} {sent inFlight : List Request}

theorem of_balance (he : c.phase.isEnded = false)
    (h : c.taken.toList ++ c.queue ++ inFlight = sent) : c.Served sent inFlight where
  balance _ := h
  emptied hn := by rw [he] at hn; cases hn
  inOrder := by
    rw [← h, List.append_assoc]
    exact List.prefix_append _ _

theorem of_ended (he : c.phase.isEnded = true) (hq : c.queue = []) (h : c.taken.toList <+: sent) :
    c.Served sent inFlight where
  balance hn := by rw [he] at hn; cases hn
  emptied _ := hq
  inOrder := h

theorem stop (h : c.Served sent inFlight) (result : Except Error Unit) :
    (c.stop result).Served sent inFlight :=
  .of_ended rfl rfl h.inOrder

theorem take {r : Request} {rest : List Request} (h : c.Served sent inFlight)
    (he : c.phase.isEnded = false) (hq : c.queue = r :: rest) :
    ({ c with queue := rest, taken := c.taken.push r }).Served sent inFlight := by
  refine .of_balance he ?_
  have hb := h.balance he
  rw [hq] at hb
  simpa using hb

theorem conclude (h : c.Served sent inFlight) (r : Request) (outcome : Outcome) :
    (c.conclude r outcome).Served sent inFlight := by
  unfold Controller.conclude
  split
  · exact h
  · split
    · exact h
    · exact ⟨h.balance, h.emptied, h.inOrder⟩
    · exact .of_ended rfl rfl h.inOrder

theorem receive {r : Request} (h : c.Served sent [r]) (he : c.phase.isEnded = false) :
    ({ c with queue := c.queue ++ [r] }).Served sent [] := by
  refine .of_balance he ?_
  have hb := h.balance he
  simpa using hb

theorem announce (h : c.Served sent []) (more : List Request) : c.Served (sent ++ more) more := by
  cases he : c.phase.isEnded with
  | true => exact .of_ended he (h.emptied he) (h.inOrder.trans (List.prefix_append _ _))
  | false =>
    refine .of_balance he ?_
    have hb := h.balance he
    rw [List.append_nil] at hb
    rw [hb]

theorem skip (h : c.Served sent inFlight) (he : c.phase.isEnded = true) (later : List Request) :
    c.Served sent later :=
  .of_ended he (h.emptied he) h.inOrder

end Served

theorem conclude_watches (c : Controller) (r : Request) (outcome : Outcome) :
    (c.conclude r outcome).watches = c.watches := by
  unfold conclude
  split
  · rfl
  · split <;> rfl

end Controller

namespace Router

def sent (r : Router) (b : Bench) : List (Resource × Request) :=
  r.found.toList.take r.announced ++ b.published.take r.cursor

/-- The announcement under way, for a controller that is still to be given it. -/
def inFlight (r : Router) (i : Nat) : List Request :=
  match r.delivery with
  | some d => if i ∈ d.targets then [d.request] else []
  | none => []

theorem inFlight_none {r : Router} (h : r.delivery = none) (i : Nat) : r.inFlight i = [] := by
  simp [inFlight, h]

theorem inFlight_some {r : Router} {d : Delivery} (h : r.delivery = some d) (i : Nat) :
    r.inFlight i = if i ∈ d.targets then [d.request] else [] := by
  simp [inFlight, h]

theorem sent_extends {r : Router} {b b' : Bench} (h : b.Extends b') (hc : r.cursor ≤ b.events.size) :
    r.sent b' = r.sent b := by
  obtain ⟨more, hm⟩ := h.published
  rw [sent, sent, ← hm, List.take_append_of_le_length (by rwa [Bench.published_length])]

end Router

namespace Simulation

@[simp]
theorem setRouter_router (s : Simulation) (r : Router) : (s.setRouter r).router = r := rfl

theorem sent_announceFound {s : Simulation} {f : Resource × Request} (hc : s.router.cursor = 0)
    (hf : s.router.found[s.router.announced]? = some f) :
    (s.announceFound f).router.sent s.bench = s.router.sent s.bench ++ [f] := by
  have hl : s.router.found.toList[s.router.announced]? = some f := by simpa using hf
  simp [announceFound, Simulation.announce, Router.sent, hc, List.take_add_one, hl]

theorem sent_announceEvent {s : Simulation} {e : WatchEvent}
    (he : s.bench.events[s.router.cursor]? = some e) :
    (s.announceEvent e).router.sent s.bench =
      s.router.sent s.bench ++ [(e.resource, ⟨e.ns, e.name⟩)] := by
  have hl : s.bench.events.toList[s.router.cursor]? = some e := by simpa using he
  simp [announceEvent, Simulation.announce, Router.sent, Bench.published, List.take_add_one, hl]

theorem sent_listNext {s : Simulation} (h : s.router.announced ≤ s.router.found.size) (r : Resource)
    (rest : List Resource) : (s.listNext r rest).router.sent s.bench = s.router.sent s.bench := by
  simp [listNext, Router.sent, List.take_append_of_le_length, h]

def Served (s : Simulation) : Prop :=
  ∀ (i : Nat) (c : Controller), s.controllers[i]? = some c →
    c.Served (c.share (s.router.sent s.bench)) (s.router.inFlight i)

theorem mem_watchers {s : Simulation} {r : Resource} {i : Nat} :
    i ∈ s.watchers r ↔ ∃ c, s.controllers[i]? = some c ∧ c.watches.contains r = true := by
  simp only [watchers, List.mem_filter, List.mem_range, Option.any_eq_true]
  constructor
  · rintro ⟨-, c, hc, hw⟩
    exact ⟨c, hc, hw⟩
  · rintro ⟨c, hc, hw⟩
    exact ⟨(List.getElem?_eq_some_iff.1 hc).1, c, hc, hw⟩

theorem watchers_nodup (s : Simulation) (r : Resource) : (s.watchers r).Nodup :=
  List.nodup_range.filter _

theorem Served.setController {s : Simulation} (h : s.Served) {i : Nat} {c : Controller}
    (hc : c.Served (c.share (s.router.sent s.bench)) (s.router.inFlight i)) :
    (s.setController i c).Served := by
  intro j c' hj
  change (s.controllers.set i c)[j]? = some c' at hj
  by_cases hij : i = j
  · subst hij
    rw [List.getElem?_set_self'] at hj
    obtain ⟨-, -, rfl⟩ := Option.map_eq_some_iff.1 hj
    exact hc
  · rw [List.getElem?_set_ne hij] at hj
    exact h j c' hj

theorem Served.extend {s : Simulation} (h : s.Served) {b : Bench} (hb : s.bench.Extends b)
    (hc : s.router.cursor ≤ s.bench.events.size) : Served { s with bench := b } := by
  intro i c hi
  change c.Served (c.share (s.router.sent b)) (s.router.inFlight i)
  rw [Router.sent_extends hb hc]
  exact h i c hi

theorem Served.announce {s : Simulation} (h : s.Served) (hd : s.router.delivery = none) {r : Router}
    {f : Resource × Request} (hs : r.sent s.bench = s.router.sent s.bench ++ [f])
    (hr : r.delivery = some ⟨f.2, s.watchers f.1, false⟩) : (s.setRouter r).Served := by
  intro i c hi
  change c.Served (c.share (r.sent s.bench)) (r.inFlight i)
  have hw : i ∈ s.watchers f.1 ↔ c.watches.contains f.1 = true := by
    rw [mem_watchers]
    constructor
    · rintro ⟨c', hc', hw⟩
      obtain rfl : c = c' := Option.some.inj (hi.symm.trans hc')
      exact hw
    · exact fun hw => ⟨c, hi, hw⟩
  have hc := h i c hi
  rw [Router.inFlight_none hd] at hc
  rw [hs, Controller.share_append, Controller.share_singleton, Router.inFlight_some hr]
  simp only [hw]
  exact hc.announce _

theorem Served.advance {s t : Simulation} (h : s.Served) {d : Delivery} {i : Nat} {rest : List Nat}
    (hd : s.router.delivery = some d) (ht : d.targets = i :: rest) (hn : d.targets.Nodup)
    (hb : t.bench = s.bench) (hne : ∀ j, j ≠ i → t.controllers[j]? = s.controllers[j]?)
    (hi : ∀ c, t.controllers[i]? = some c → c.Served (c.share (s.router.sent s.bench)) []) :
    (t.setRouter { s.router with delivery := some ⟨d.request, rest, false⟩ }).Served := by
  intro j c hj
  change c.Served (c.share (s.router.sent t.bench)) (if j ∈ rest then [d.request] else [])
  rw [ht, List.nodup_cons] at hn
  rw [hb]
  by_cases hji : j = i
  · subst hji
    rw [if_neg hn.1]
    exact hi c hj
  · have hc := h j c ((hne j hji).symm.trans hj)
    rw [Router.inFlight_some hd, ht] at hc
    simpa [hji] using hc

end Simulation

end ControllerBench
