import Neighbor.Proofs.Report

/-!
# The order in which a tick visits the entries

What a tick does to an address depends on the entry of that address alone. So ticks that visit the
entries in different orders leave the same cache and report the same numbers, and they name the same
addresses and send the same items, in other orders. `Cache.Reached.tick_any_order` states it.
-/

namespace Neighbor

variable {α : Type}

/-- Time does one thing to an entry. -/
theorem Entry.Passes.unique {cfg : Config} {now : Nat} {e : Entry α} {x y : Aged α}
    (hx : e.Passes cfg now x) (hy : e.Passes cfg now y) : y = x := by
  -- what is due, the status and the probes that are left tell the seven cases apart
  cases hx <;> cases hy <;> grind [state, probes, Status.state, Status.probes]

section Share

variable {a : Address} {xs ys : List (Address × Outbound α)}

/-- A share lists the items of its address. -/
theorem map_share : (share a xs).map (a, ·) = xs.filter (·.1 = a) := by
  unfold share
  rw [List.map_map]
  refine (List.map_congr_left fun x hx => ?_).trans (List.map_id _)
  rw [← of_decide_eq_true (List.mem_filter.mp hx).2]
  rfl

/-- Lists in which every address has the same share differ in their order only. -/
theorem perm_of_share_eq (h : ∀ a, share a xs = share a ys) : xs.Perm ys := by
  classical
  refine List.perm_iff_count.mpr fun x => ?_
  have hcount (zs : List (Address × Outbound α)) :
      (zs.filter (·.1 = x.1)).count x = zs.count x := by
    rw [List.count_filter]
    exact decide_eq_true rfl
  rw [← hcount xs, ← hcount ys, ← map_share, ← map_share, h]

end Share

/-- A tally does not depend on the order of the items. -/
theorem handedTally_perm {xs ys : List (Outbound α)} (h : xs.Perm ys) :
    handedTally xs = handedTally ys := by
  funext k
  cases k with
  | broadcastProbes => exact h.countP_eq _
  | unicastProbes => exact h.countP_eq _
  | packetsFlushed => exact (h.filterMap _).length_eq
  | packetsQueued | packetsRejected | pendingDropped | resolvesDropped | resolutionsFailed
  | evictions | entries => rfl

namespace Cache

variable {c d d' : Cache α} {r : Responder} {now : Nat} {a : Address} {xs ys : List Address}

/-- What a tick does to an address is determined by its entry. -/
theorem Ages.unique {x y : TickReport} {after after' : Option (Entry α)}
    {sent sent' : List (Outbound α)} (hx : Ages r c now a x after sent)
    (hy : Ages r c now a y after' sent') :
    after' = after ∧ sent' = sent ∧ (a ∈ y.failed ↔ a ∈ x.failed) := by
  cases hx with
  | absent hfind hx =>
    cases hy with
    | absent _ hy => exact ⟨rfl, rfl, iff_of_false hy hx⟩
    | aged hfind' => cases hfind.symm.trans hfind'
  | aged hfind hpasses hx =>
    cases hy with
    | absent hfind' => cases hfind.symm.trans hfind'
    | aged hfind' hpasses' hy =>
      cases hfind.symm.trans hfind'
      cases hpasses.unique hpasses'
      exact ⟨rfl, rfl, hy.trans hx.symm⟩

/-- Caches that are ahead of `c` by the same count and show their sizes agree in all counters if
they are of one size. -/
theorem Counts.metrics_eq {n : Tally} (h : c.Counts d n) (h' : c.Counts d' n) (hd : d.Gauged)
    (hd' : d'.Gauged) (hsize : d'.size = d.size) : d'.metrics = d.metrics := by
  refine Metrics.ext_get fun k => ?_
  by_cases hk : k = .entries
  · subst hk
    exact hd'.trans ((congrArg UInt64.ofNat hsize).trans hd.symm)
  · rw [h k hk, h' k hk]

/-- Reports on the same change give the same numbers. -/
theorem Reports.numbers_eq {x y : TickReport} {sent sent' : List (Outbound α)}
    (hx : c.Reports x sent d) (hy : c.Reports y sent' d') (hstore : d'.store = d.store)
    (hsent : sent'.Perm sent) : y = { x with failed := y.failed } := by
  have htransitions : y.transitions = x.transitions := by
    rw [hy.transitions_eq, hx.transitions_eq]
    unfold state?
    rw [hstore]
  have hprobes : y.probes = x.probes := by rw [hy.probes_eq, hx.probes_eq, hsent.length_eq]
  have hexpired : y.expired + d.size = x.expired + d.size := by
    rw [hx.expired_eq, ← hy.expired_eq, size, size, hstore]
  have hdropped : y.droppedPending + d.pending = x.droppedPending + d.pending := by
    rw [hx.droppedPending_eq, ← hy.droppedPending_eq, pending, pending, hstore]
  cases x
  cases y
  simp_all

/-- What two outcomes of a tick share that differ in the order of visits only. -/
structure SameUpToOrder (o o' : Outcome α TickReport) : Prop where
  cache_eq : o'.cache = o.cache
  /-- The reports agree in all numbers. -/
  answer_eq : o'.answer = { o.answer with failed := o'.answer.failed }
  failed_perm : o'.answer.failed.Perm o.answer.failed
  sent_perm : o'.sent.Perm o.sent

section Ticks

variable {o o' : Outcome α TickReport}

/-- In whatever order a tick visits the entries, each address is left with the same entry and gets
its share of the same items. -/
theorem store_eq_of_ticks (hc : c.Coherent) (hxs : xs.Perm c.store.addresses)
    (hys : ys.Perm c.store.addresses) (h : c.tickInOrder r now xs = .ok o)
    (h' : c.tickInOrder r now ys = .ok o') :
    o'.cache.config = o.cache.config ∧ o'.cache.store = o.cache.store ∧
      o'.answer.failed.Perm o.answer.failed ∧ o'.sent.Perm o.sent := by
  have hs := hc.wellFormed
  obtain ⟨hconfig, hedits, sent, hsent, hages⟩ := tickInOrder_ages hs hc.dynamic hxs h
  obtain ⟨hconfig', hedits', sent', hsent', hages'⟩ := tickInOrder_ages hs hc.dynamic hys h'
  have hunique (a : Address) := (hages a).unique (hages' a)
  obtain ⟨hnodup, _⟩ := failed_of_tick hc hxs h
  obtain ⟨hnodup', _⟩ := failed_of_tick hc hys h'
  have hordered := (hedits.wellFormed hs).ordered
  have hordered' := (hedits'.wellFormed hs).ordered
  obtain ⟨hcapacity, hqueue, htie⟩ := hedits.bounds
  obtain ⟨hcapacity', hqueue', htie'⟩ := hedits'.bounds
  have hnext := nextGeneration_of_tick hc hxs h
  have hnext' := nextGeneration_of_tick hc hys h'
  refine ⟨hconfig'.trans hconfig.symm, ?_, ?_, ?_⟩
  · exact hordered.eq_of_find? hordered' (fun a => (hunique a).1)
      ⟨hcapacity'.trans hcapacity.symm, hqueue'.trans hqueue.symm, htie'.trans htie.symm⟩
      (hnext'.trans hnext.symm)
  · exact (List.perm_ext_iff_of_nodup hnodup' hnodup).mpr fun a => (hunique a).2.2
  · rw [← hsent, ← hsent']
    exact (perm_of_share_eq fun a => (hunique a).2.1).map _

/-- In whatever order a tick visits the entries, it reports the same numbers. The probes are counted
before they are answered, so it is enough to look at ticks without answers. -/
theorem answer_eq_of_ticks (hc : c.Coherent) (hxs : xs.Perm c.store.addresses)
    (hys : ys.Perm c.store.addresses) (h : c.tickInOrder r now xs = .ok o)
    (h' : c.tickInOrder r now ys = .ok o') :
    o'.answer = { o.answer with failed := o'.answer.failed } := by
  obtain ⟨first, _, hfirst, _, hanswer, _⟩ := tickInOrder_replies hc hxs h
  obtain ⟨first', _, hfirst', _, hanswer', _⟩ := tickInOrder_replies hc hys h'
  obtain ⟨_, hstore, _, hsent⟩ := store_eq_of_ticks hc hxs hys hfirst hfirst'
  rw [hanswer, hanswer']
  exact (tick_reports hc hxs hfirst).numbers_eq (tick_reports hc hys hfirst') hstore hsent

/-- The outcomes of a tick differ by the order of visits in the order of lists only. -/
theorem sameUpToOrder_of_ticks (hc : c.Coherent) (hxs : xs.Perm c.store.addresses)
    (hys : ys.Perm c.store.addresses) (h : c.tickInOrder r now xs = .ok o)
    (h' : c.tickInOrder r now ys = .ok o') : SameUpToOrder o o' := by
  obtain ⟨hconfig, hstore, hfailed, hsent⟩ := store_eq_of_ticks hc hxs hys h h'
  have hanswer := answer_eq_of_ticks hc hxs hys h h'
  obtain ⟨haccounts, hgauged⟩ := tick_accounts hc hxs h
  obtain ⟨haccounts', hgauged'⟩ := tick_accounts hc hys h'
  have hdropped : o'.answer.droppedPending = o.answer.droppedPending := by rw [hanswer]
  rw [hfailed.length_eq, hdropped, handedTally_perm hsent] at haccounts'
  have hmetrics : o'.cache.metrics = o.cache.metrics :=
    haccounts.counts.metrics_eq haccounts'.counts hgauged hgauged' (by rw [size, size, hstore])
  refine ⟨?_, hanswer, hfailed, hsent⟩
  calc
    o'.cache = ⟨o'.cache.config, o'.cache.store, o'.cache.metrics⟩ := rfl
    _ = o.cache := by rw [hconfig, hstore, hmetrics]

/-- A tick sends at most one probe for an address. -/
theorem nodup_targets_of_tick (hc : c.Coherent) (hxs : xs.Perm c.store.addresses)
    (h : c.tickInOrder r now xs = .ok o) :
    ((o.sent.filter (·.isProbe)).map (·.target?)).Nodup := by
  obtain ⟨first, _, hfirst, _, _, hprobes⟩ := tickInOrder_replies hc hxs h
  rw [hprobes]
  exact (tick_reports hc hxs hfirst).nodup_targets

/-- A tick whose transmitter only records sends probes and nothing else. -/
theorem isProbe_of_silent (hc : c.Coherent) (hxs : xs.Perm c.store.addresses)
    (h : c.tickInOrder .silent now xs = .ok o) : ∀ item ∈ o.sent, item.isProbe = true := by
  intro item hitem
  obtain ⟨_, _, _, htarget, _⟩ := (tick_reports hc hxs h).probed item hitem
  exact Outbound.isProbe_of_target htarget

end Ticks

/-- A tick on a cache that calls lead to comes out the same in whatever order it visits the entries:
if it goes through in one order, it does in any other, leaves the same cache and reports the same
numbers, and the addresses that failed and the items sent differ in their order only. There is at
most one probe for an address, and nothing else is sent unless a probe is answered. -/
theorem Reached.tick_any_order {cfg : Config} {start : Nat} {calls : List (Call α)}
    {o : Outcome α TickReport} (hreached : c.Reached cfg start calls)
    (hxs : xs.Perm c.store.addresses) (hys : ys.Perm c.store.addresses)
    (h : c.tickInOrder r now xs = .ok o) :
    (∃ o', c.tickInOrder r now ys = .ok o' ∧ SameUpToOrder o o') ∧
      ((o.sent.filter (·.isProbe)).map (·.target?)).Nodup ∧
      (r = .silent → ∀ item ∈ o.sent, item.isProbe = true) := by
  have hc := hreached.coherent.1
  obtain ⟨o', h'⟩ := (exists_tickInOrder_iff hc hys).mpr ((exists_tickInOrder_iff hc hxs).mp ⟨o, h⟩)
  refine ⟨⟨o', h', sameUpToOrder_of_ticks hc hxs hys h h'⟩, nodup_targets_of_tick hc hxs h, ?_⟩
  rintro rfl
  exact isProbe_of_silent hc hxs h

/-- Visited in descending order, the entries of `bustle` are probed the other way round. -/
theorem Reached.tick_any_order_of_bustle :
    ∃ x ∈ (Cache.create { Config.brief with capacity := 5 } 0 : Outcome Nat Unit).cache.trace .silent
        bustle,
      ∃ o o', x.2.tickInOrder .silent 30 x.2.store.addresses = .ok o ∧
        x.2.tickInOrder .silent 30 x.2.store.addresses.reverse = .ok o' ∧
        o.sent = [.unicastProbe ⟨10, 0, 0, 1⟩ ⟨2, 0, 0, 0, 0, 1⟩, .broadcastProbe ⟨10, 0, 0, 2⟩] ∧
        o'.sent ≠ o.sent ∧ SameUpToOrder o o' := by
  have hbustle : ∃ x ∈ (Cache.create { Config.brief with capacity := 5 } 0 :
        Outcome Nat Unit).cache.trace .silent bustle,
      ∃ o ∈ (x.2.tickInOrder .silent 30 x.2.store.addresses).toOption,
      ∃ o' ∈ (x.2.tickInOrder .silent 30 x.2.store.addresses.reverse).toOption,
        o.sent = [.unicastProbe ⟨10, 0, 0, 1⟩ ⟨2, 0, 0, 0, 0, 1⟩, .broadcastProbe ⟨10, 0, 0, 2⟩] ∧
        o'.sent ≠ o.sent := by
    decide +kernel
  obtain ⟨x, hx, o, ho, o', ho', hsent, hne⟩ := hbustle
  obtain ⟨hlog, _⟩ := history_of_trace hx
  have htick := Attempt.eq_ok_of_mem ho
  have htick' := Attempt.eq_ok_of_mem ho'
  obtain ⟨⟨o'', htick'', hsame⟩, _⟩ :=
    Reached.tick_any_order hlog.reached (.refl _) (List.reverse_perm _) htick
  cases htick'.symm.trans htick''
  exact ⟨x, hx, o, o', htick, htick', hsent, hne, hsame⟩

end Cache

end Neighbor
