import ControllerBench.Proofs.Dispatch.Sequential
import ControllerBench.Proofs.Store.Keys

namespace ControllerBench

namespace WatchEvent

def key (e : WatchEvent) : Key := ⟨e.resource, e.ns, e.name⟩

/-- The keys after an event, none if there can be no such event. -/
def replay (keys : Finset Key) (e : WatchEvent) : Option (Finset Key) :=
  match e.change with
  | .added => if e.key ∈ keys then none else some (insert e.key keys)
  | .modified => if e.key ∈ keys then some keys else none
  | .deleted => if e.key ∈ keys then some (keys.erase e.key) else none

end WatchEvent

namespace Invocation

def wrote (i : Invocation) : Bool := i.accepted && i.action.operation.change?.isSome

end Invocation

namespace Tracker

variable {t t' : Tracker} {a : Action} {response : Response}

theorem Accepts.replay (h : t.Accepts a response t') {change : Change}
    (hc : a.operation.change? = some change) :
    ∃ e, a.event? = some e ∧ WatchEvent.replay t.keys e = some t'.keys := by
  cases h with
  | @create o m ho _ hm hk =>
    have hn : a.name? = some m.name := by simp [Action.name?, ho, Operation.name?, Object.name?, hm]
    refine ⟨⟨change, a.resource, a.ns, m.name⟩, by simp [Action.event?, hc, hn], ?_⟩
    obtain rfl : Change.added = change := by simpa [ho, Operation.change?] using hc
    simp [WatchEvent.replay, WatchEvent.key, hk, keys_insert]
  | @update o m ho hm hk =>
    have hn : a.name? = some m.name := by simp [Action.name?, ho, Operation.name?, Object.name?, hm]
    refine ⟨⟨change, a.resource, a.ns, m.name⟩, by simp [Action.event?, hc, hn], ?_⟩
    obtain rfl : Change.modified = change := by simpa [ho, Operation.change?] using hc
    simp [WatchEvent.replay, WatchEvent.key, hk, keys_insert]
  | @delete name ho _ hk =>
    have hn : a.name? = some name := by simp [Action.name?, ho, Operation.name?]
    refine ⟨⟨change, a.resource, a.ns, name⟩, by simp [Action.event?, hc, hn], ?_⟩
    obtain rfl : Change.deleted = change := by simpa [ho, Operation.change?] using hc
    simp [WatchEvent.replay, WatchEvent.key, hk, keys_erase]
  | get ho | list ho => simp [ho, Operation.change?] at hc

theorem Accepts.eq_of_read (h : t.Accepts a response t') (hc : a.operation.change? = none) :
    t' = t := by
  cases h with
  | create ho | update ho | delete ho => simp [ho, Operation.change?] at hc
  | get | list => rfl

end Tracker

theorem Action.event?_of_read {a : Action} (hc : a.operation.change? = none) : a.event? = none := by
  simp [Action.event?, hc]

namespace Bench

/-- What is published tells of every write that was taken, in turn, and of nothing else. -/
structure Published (b : Bench) (is : List Invocation) (c : Bench) (news : List WatchEvent) : Prop where
  events : c.events.toList = b.events.toList ++ news
  writes : ((Invocation.servedAll is).filter (·.wrote)).map (·.action.event?) = news.map some
  legal : news.foldlM WatchEvent.replay b.tracker.keys = some c.tracker.keys

theorem Published.nil {b c : Bench} (h : b.SameStore c) : Published b [] c [] where
  events := by rw [h.events, List.append_nil]
  writes := rfl
  legal := by rw [h.tracker]; rfl

theorem Published.append {b c d : Bench} {is js : List Invocation} {news more : List WatchEvent}
    (h : Published b is c news) (h' : Published c js d more) :
    Published b (is ++ js) d (news ++ more) where
  events := by rw [h'.events, h.events, List.append_assoc]
  writes := by
    rw [Invocation.servedAll_append, List.filter_append, List.map_append, List.map_append, h.writes,
      h'.writes]
  legal := by
    rw [List.foldlM_append, h.legal]
    exact h'.legal

theorem Published.claimed {b c : Bench} {i : Invocation} {news : List WatchEvent}
    {result : Except Error Response} (h : Published (b.record i.action) i.nested c news)
    (hc : i.claim? = some result) : Published b [i] c news where
  events := h.events
  writes := by
    rw [Invocation.servedAll_claimed hc]
    exact h.writes
  legal := h.legal

theorem apply_news (c : Bench) {i : Invocation} (ha : i.answer = some (c.apply i.action).1) :
    ∃ news, (c.apply i.action).2.events.toList = c.events.toList ++ news ∧
      ([i].filter (·.wrote)).map (·.action.event?) = news.map some ∧
      news.foldlM WatchEvent.replay c.tracker.keys = some (c.apply i.action).2.tracker.keys := by
  unfold Bench.apply at ha ⊢
  split at ha
  next e _ =>
    have hn : i.wrote = false := by simp [Invocation.wrote, Invocation.accepted, ha]
    exact ⟨[], by simp, by simp [hn], rfl⟩
  next response t' ht =>
    have hacc := Tracker.accepts_of_apply ht
    have hw : i.wrote = i.action.operation.change?.isSome := by
      simp [Invocation.wrote, Invocation.accepted, ha]
    cases hch : i.action.operation.change? with
    | none =>
      obtain rfl := hacc.eq_of_read hch
      have hev := Action.event?_of_read hch
      exact ⟨[], by simp [publish, hev], by simp [hw, hch], by simp [publish, hev]⟩
    | some change =>
      obtain ⟨e, hev, hr⟩ := hacc.replay hch
      exact ⟨[e], by simp [publish, hev], by simp [hw, hch, hev], by simp [publish, hev, hr]⟩

theorem Published.served {b c : Bench} {i : Invocation} {news : List WatchEvent}
    (h : Published (b.record i.action) i.nested c news) (hc : i.claim? = none)
    (ha : i.answer = some (c.apply i.action).1) :
    ∃ more, Published b [i] (c.apply i.action).2 (news ++ more) := by
  obtain ⟨more, hevents, hwrites, hlegal⟩ := apply_news c ha
  refine ⟨more, ?_, ?_, ?_⟩
  · rw [hevents, h.events, List.append_assoc]
    rfl
  · rw [Invocation.servedAll_unclaimed hc, List.filter_append, List.map_append, h.writes, hwrites,
      List.map_append]
  · have hnested : news.foldlM WatchEvent.replay b.tracker.keys = some c.tracker.keys := h.legal
    rw [List.foldlM_append, hnested]
    exact hlegal

end Bench

theorem Chronicle.published : Chronicle fun b is c => ∃ news, b.Published is c news := by
  refine of_sameStore ?_ ?_ ?_ ?_
  · exact fun h => ⟨[], .nil h⟩
  · rintro b c d is js ⟨news, h⟩ ⟨more, h'⟩
    exact ⟨news ++ more, h.append h'⟩
  · rintro b c i result ⟨news, h⟩ hc _
    exact ⟨news, h.claimed hc⟩
  · rintro b c i ⟨news, h⟩ hc ha
    obtain ⟨more, h⟩ := h.served hc ha
    exact ⟨news ++ more, h⟩

namespace Bench

/--
Replayed one after the other the published events are all legal, and they end in the keys of the tracker.
-/
theorem events_replay_to_keys {depth : Nat} {b c : Bench} {cs : List Call} {xs : List Exchange}
    (h : b.transcript depth cs = some (xs, c)) :
    let is := xs.filterMap (·.invocation)
    ∃ news, c.events.toList = b.events.toList ++ news ∧
      news.foldlM WatchEvent.replay b.tracker.keys = some c.tracker.keys ∧
      ((Invocation.servedAll is).filter (·.wrote)).map (·.action.event?) = news.map some ∧
      (Invocation.servedAll is).Perm ((Invocation.begunAll is).filter (·.claim?.isNone)) ∧
      b.tracker.Answers (Invocation.servedAll is) := by
  obtain ⟨news, hnews⟩ := Chronicle.published.transcript h
  exact ⟨news, hnews.events, hnews.legal, hnews.writes, Invocation.servedAll_perm _,
    (Chronicle.tracker.transcript h).2⟩

theorem claimed_deletion_publishes_nothing :
    ∃ xs c, guarded.transcript 3 errands = some (xs, c) ∧
      c.events.toList = [⟨.added, jobs, "ns", "b"⟩, ⟨.added, jobs, "ns", "a"⟩] ∧
      c.tracker.keys = {⟨jobs, "ns", "a"⟩, ⟨jobs, "ns", "b"⟩} := by
  obtain ⟨⟨xs, c⟩, hrun, hp⟩ := (Option.any_eq_true ..).1 (by decide +kernel :
    (guarded.transcript 3 errands).any (fun r =>
      decide (r.2.events.toList = [⟨.added, jobs, "ns", "b"⟩, ⟨.added, jobs, "ns", "a"⟩])) = true)
  have hevents := of_decide_eq_true hp
  obtain ⟨news, hnews, hlegal, -⟩ := events_replay_to_keys hrun
  have hall : news = [⟨.added, jobs, "ns", "b"⟩, ⟨.added, jobs, "ns", "a"⟩] :=
    hnews.symm.trans hevents
  rw [hall] at hlegal
  exact ⟨xs, c, hrun, hevents, (Option.some.inj (hlegal.symm.trans (by decide +kernel)))⟩

end Bench

end ControllerBench
