import Neighbor.Proofs.Generation
import Neighbor.Proofs.Renewal
import Neighbor.Proofs.Replies

/-!
# What the report of a tick says

A tick notes entry by entry what time does and reports the sums. `Cache.Reports` says what each part
of a report means for the cache before and after the tick: which states differ, which entries are
gone, how many packets no longer wait and which probes went out. `Cache.Reached.tick_reported` shows
that every report means just that, in whatever order the tick visits the entries. Whoever answers
the probes does so after the report is made.
-/

namespace Neighbor

variable {α : Type}

namespace Entry

variable {cfg : Config} {now : Nat} {e e' : Entry α} {aged : Aged α} {item : Outbound α}

/-- An entry before and after a probe is sent for it: it has sent one more, or the first one of a
check. -/
inductive Probed (e e' : Entry α) : Prop
  | again (hstate : e.state = .incomplete ∨ e.state = .probe) (hsame : e'.state = e.state)
      (hprobes : e'.probes = e.probes + 1)
  | first (hstate : e.state = .delay) (hafter : e'.state = .probe) (hprobes : e'.probes = 1)

/-- An entry for which a probe is due stays and counts the probe. -/
theorem Passes.probed (h : e.Passes cfg now aged) (hprobe : aged.probe = some item) :
    aged.aging.isExpiry = false ∧ e.Probed aged.entry := by
  cases h with
  | idle | staled | gaveUp | expired => cases hprobe
  | reprobed _ hstatus =>
    refine ⟨rfl, .again (.inl (congrArg Status.state hstatus)) ?_ ?_⟩
    · exact (congrArg Status.state hstatus).symm
    · rw [probes, probes, hstatus]
      rfl
  | rechecked _ hstatus =>
    refine ⟨rfl, .again (.inr (congrArg Status.state hstatus)) ?_ ?_⟩
    · exact (congrArg Status.state hstatus).symm
    · rw [probes, probes, hstatus]
      rfl
  | checked _ hstatus => exact ⟨rfl, .first (congrArg Status.state hstatus) rfl rfl⟩

/-- A change is noted exactly for an entry that stays in another state, failures apart. -/
theorem Passes.isChange_iff (h : e.Passes cfg now aged) :
    aged.aging.isChange = true ↔
      aged.aging.isExpiry = false ∧ aged.entry.state ≠ .failed ∧ e.state ≠ aged.entry.state := by
  cases h with
  | idle | expired => simp [Aging.isChange]
  | gaveUp => simp [Aging.isChange, state, Status.state]
  | reprobed _ hstatus | rechecked _ hstatus | checked _ hstatus | staled _ hstatus =>
    simp [Aging.isChange, Aging.isExpiry, state, hstatus, Status.state]

end Entry

/-- The entries that are gone and those that are left make up a store, if none is new. -/
theorem Store.Ordered.countP_gone {s t : Store α} (hs : s.Ordered) (ht : t.Ordered)
    (h : ∀ a, s.find? a = none → t.find? a = none) :
    s.addresses.countP (fun a => (t.find? a).isNone) + t.size = s.size := by
  have hleft : t.addresses.Perm (s.addresses.filter fun a => (t.find? a).isSome) := by
    refine (List.perm_ext_iff_of_nodup (Cache.nodup_addresses ht)
      ((Cache.nodup_addresses hs).filter _)).mpr fun a => ?_
    rw [List.mem_filter, mem_addresses_iff, mem_addresses_iff]
    refine ⟨fun ha => ⟨?_, ha⟩, fun ha => ha.2⟩
    rw [← Option.ne_none_iff_isSome] at ha ⊢
    exact fun hnone => ha (h a hnone)
  have hsize : t.size = s.addresses.countP fun a => (t.find? a).isSome := by
    rw [List.countP_eq_length_filter, ← hleft.length_eq, addresses, List.length_map]
  have hall := s.addresses.length_eq_countP_add_countP (fun a => (t.find? a).isNone)
  have hlength : s.addresses.length = s.size := List.length_map _
  simp only [Bool.not_eq_true, Option.isNone_eq_false_iff] at hall
  rw [hsize, ← hlength, hall]
  simp

namespace Sweep

variable {cfg : Config} {now : Nat} {t : Sweep α} {order : List Address} {store : Store α}
  {seen : List (Address × Entry.Aged α)}

/-- What is counted over the visits of a whole sweep can be counted over the addresses. -/
theorem Sees.countP_eq {p : Entry.Aging → Bool} {q : Address → Bool}
    (h : Sees cfg now { store } order t seen) (horder : order.Perm store.addresses)
    (hnodup : order.Nodup) (hpq : ∀ x ∈ seen, p x.2.aging = q x.1) :
    seen.countP (p ·.2.aging) = store.addresses.countP q :=
  calc
    seen.countP (p ·.2.aging) = seen.countP (q ·.1) :=
      List.countP_congr fun x hx => by rw [hpq x hx]
    _ = (seen.map (·.1)).countP q := by rw [List.countP_map]; rfl
    _ = store.addresses.countP q := by rw [h.map_fst_eq horder hnodup, horder.countP_eq]

end Sweep

/-- Without what the answers let out, the probes are left. -/
theorem Responder.filter_weave {r : Responder} {items : List (Outbound α)}
    {outcomes : List (Outcome α Answer)} (hprobes : ∀ item ∈ items, item.isProbe = true)
    (hquiet : ∀ o ∈ outcomes, Quiet o.sent) :
    (r.weave items outcomes).filter (·.isProbe) = items := by
  induction items generalizing outcomes with
  | nil => rfl
  | cons item rest ih =>
    obtain ⟨hfirst, hrest⟩ := List.forall_mem_cons.mp hprobes
    unfold weave
    split
    · next o later _ =>
      obtain ⟨ho, hlater⟩ := List.forall_mem_cons.mp hquiet
      have hnone : o.sent.filter (·.isProbe) = [] :=
        List.filter_eq_nil_iff.mpr fun x hx => by simp [ho x hx]
      rw [List.filter_cons_of_pos hfirst, List.filter_append, hnone, List.nil_append,
        ih hrest hlater]
    · rw [List.filter_cons_of_pos hfirst, ih hrest hquiet]

namespace Cache

variable {c d : Cache α} {r : Responder} {now : Nat} {order : List Address}

/-- The meaning of a report: a tick that makes `d` of `c` and sends `sent` reports this. -/
structure Reports (c : Cache α) (report : TickReport) (sent : List (Outbound α)) (d : Cache α) :
    Prop where
  /-- Transitions are the addresses whose entry stays in another state, failures apart. -/
  transitions_eq : report.transitions = c.store.addresses.countP fun a =>
    (d.state? a).any fun s => s ≠ .failed ∧ c.state? a ≠ some s
  /-- The failed addresses are those whose entry fails, each once. -/
  nodup_failed : report.failed.Nodup
  mem_failed : ∀ a, a ∈ report.failed ↔
    a ∈ c.store.addresses ∧ c.state? a ≠ some .failed ∧ d.state? a = some .failed
  expired_eq : report.expired + d.size = c.size
  droppedPending_eq : report.droppedPending + d.pending = c.pending
  probes_eq : report.probes = sent.length
  /-- At most one item is sent for an address. -/
  nodup_targets : (sent.map (·.target?)).Nodup
  /-- Every item is a probe, and the entry of its target counts it. -/
  probed : ∀ item ∈ sent, ∃ a e e', item.target? = some a ∧ c.store.find? a = some e ∧
    d.store.find? a = some e' ∧ e'.generation = e.generation ∧ e.Probed e'

section Swept

variable {t : Sweep α} {seen : List (Address × Entry.Aged α)}

/-- A tick counts the addresses whose entry it moves to another state than FAILED. -/
theorem transitions_of_sees (h : Sweep.Sees c.config now { store := c.store } order t seen)
    (horder : order.Perm c.store.addresses) (hnodup : order.Nodup)
    (hstore : d.store = t.remaining) :
    t.transitions = c.store.addresses.countP fun a =>
      (d.state? a).any fun s => s ≠ .failed ∧ c.state? a ≠ some s := by
  rw [h.transitions_eq, Nat.zero_add]
  refine h.countP_eq horder hnodup fun x hx => ?_
  obtain ⟨e, hfind, hpasses, _⟩ := h.passes x hx
  rw [Bool.eq_iff_iff, hpasses.isChange_iff, state?, state?, hstore, h.find?_remaining hnodup hx,
    hfind]
  cases x.2.aging.isExpiry <;> simp

/-- A tick makes the cache smaller by the entries that it reports as expired. -/
theorem expired_of_sees (h : Sweep.Sees c.config now { store := c.store } order t seen)
    (hs : c.store.WellFormed) (horder : order.Perm c.store.addresses) (hnodup : order.Nodup)
    (hstore : d.store = t.remaining) : t.expired.length + d.size = c.size := by
  have hleft : t.remaining.Ordered := ((edits_swept h).wellFormed hs).ordered
  have hnone (a : Address) (ha : c.store.find? a = none) : t.remaining.find? a = none := by
    have hunseen : a ∉ seen.map (·.1) := by
      rw [h.map_fst_eq horder hnodup, horder.mem_iff, ← Store.find?_eq_none_iff]
      exact ha
    rw [Sweep.find?_remaining, h.unseen a hunseen, ha, ite_self]
  have hexpired : t.expired.length =
      c.store.addresses.countP fun a => (t.remaining.find? a).isNone := by
    rw [h.expired_eq, List.nil_append, List.length_map, ← List.countP_eq_length_filter]
    refine h.countP_eq horder hnodup fun x hx => ?_
    rw [h.find?_remaining hnodup hx]
    cases x.2.aging.isExpiry <;> rfl
  rw [hexpired, size, hstore]
  exact hs.ordered.countP_gone hleft hnone

/-- Every probe of a tick is for an entry that was there and has stayed the same one. -/
theorem probed_of_sees (h : Sweep.Sees c.config now { store := c.store } order t seen)
    (hnodup : order.Nodup) (hstore : d.store = t.remaining) :
    ∀ item ∈ t.probes, ∃ a e e', item.target? = some a ∧ c.store.find? a = some e ∧
      d.store.find? a = some e' ∧ e'.generation = e.generation ∧ e.Probed e' := by
  intro item hitem
  rw [h.probes_eq_due] at hitem
  obtain ⟨y, hy, rfl⟩ := List.mem_map.mp hitem
  obtain ⟨x, hx, hxy, hprobe⟩ := Sweep.mem_due hy
  obtain ⟨e, hfind, hpasses, _⟩ := h.passes x hx
  obtain ⟨hstays, hprobed⟩ := hpasses.probed hprobe
  refine ⟨y.1, e, x.2.entry, h.target hy, hxy ▸ hfind, ?_, hpasses.generation_eq, hprobed⟩
  rw [hstore, ← hxy, h.find?_remaining hnodup hx, hstays]
  rfl

/-- A tick sends no two probes for one address. -/
theorem nodup_targets_of_sees (h : Sweep.Sees c.config now { store := c.store } order t seen)
    (hnodup : order.Nodup) : (t.probes.map (·.target?)).Nodup := by
  have htargets : (Sweep.due seen).map (·.2.target?) = ((Sweep.due seen).map (·.1)).map some := by
    rw [List.map_map]
    exact List.map_congr_left fun y hy => h.target hy
  rw [h.probes_eq_due, List.map_map]
  change ((Sweep.due seen).map (·.2.target?)).Nodup
  rw [htargets]
  exact ((Sweep.sublist_due seen).nodup (h.nodup hnodup)).map fun _ _ => Option.some.inj

end Swept

/-- A report on no change is quiet. -/
theorem Reports.isQuiet_of_unchanged {report : TickReport} {sent : List (Outbound α)}
    (h : c.Reports report sent d) (hstore : d.store = c.store) (hsent : sent = []) :
    report.isQuiet = true := by
  have hstate (a : Address) : d.state? a = c.state? a := by rw [state?, state?, hstore]
  have htransitions : report.transitions = 0 := by
    rw [h.transitions_eq, List.countP_eq_zero]
    intro a _
    rw [hstate]
    cases c.state? a <;> simp
  have hfailed : report.failed = [] := by
    refine List.eq_nil_iff_forall_not_mem.mpr fun a ha => ?_
    obtain ⟨_, hbefore, hafter⟩ := (h.mem_failed a).mp ha
    exact hbefore (hstate a ▸ hafter)
  have hsize : d.size = c.size := congrArg Store.size hstore
  have hexpired : report.expired + c.size = c.size := hsize ▸ h.expired_eq
  have hpending : d.pending = c.pending := congrArg Store.pending hstore
  have hdropped : report.droppedPending + c.pending = c.pending := hpending ▸ h.droppedPending_eq
  have hprobes : report.probes = 0 := by rw [h.probes_eq, hsent, List.length_nil]
  cases report
  simp_all [TickReport.isQuiet]

/-- What a tick reports is what it does, if the transmitter only records. -/
theorem tick_reports {o : Outcome α TickReport} (hc : c.Coherent)
    (horder : order.Perm c.store.addresses) (h : c.tickInOrder .silent now order = .ok o) :
    c.Reports o.answer o.sent o.cache := by
  have hs := hc.wellFormed
  have hnodup := nodup_order hs.ordered horder
  obtain ⟨hnodupFailed, hmemFailed⟩ := failed_of_tick hc horder h
  obtain ⟨t, seen, o', hvisit, hsees, hhand, hcache, hanswer, hsent⟩ := sweeps_of_tick hnodup h
  obtain ⟨d, hsilent, hkept⟩ := (c.swept t).handOver_silent now t.probes
  cases hhand.symm.trans hsilent
  have hstore : o.cache.store = t.remaining := by
    rw [hcache]
    exact hkept
  have hprobes : o.sent = t.probes := hsent
  have hpending : t.droppedPending + o.cache.pending = c.pending := by
    rw [pending, hstore, Nat.add_comm]
    exact hsees.pending_eq hs.ordered hvisit
  have htransitions := transitions_of_sees hsees horder hnodup hstore
  have hexpired := expired_of_sees hsees hs horder hnodup hstore
  have htargets := nodup_targets_of_sees hsees hnodup
  have hprobed := probed_of_sees hsees hnodup hstore
  rw [hanswer] at hnodupFailed hmemFailed ⊢
  rw [hprobes]
  exact ⟨htransitions, hnodupFailed, hmemFailed, hexpired, hpending, rfl, htargets, hprobed⟩

/-- A report is quiet exactly if no entry was changed and nothing was sent. -/
theorem isQuiet_iff_of_tick {o : Outcome α TickReport} (hc : c.Coherent)
    (horder : order.Perm c.store.addresses) (h : c.tickInOrder .silent now order = .ok o) :
    o.answer.isQuiet = true ↔ o.cache.store = c.store ∧ o.sent = [] := by
  have hs := hc.wellFormed
  have hnodup := nodup_order hs.ordered horder
  have hreports := tick_reports hc horder h
  refine ⟨fun hquiet => ⟨?_, ?_⟩, fun ⟨hstore, hsent⟩ => hreports.isQuiet_of_unchanged hstore hsent⟩
  · -- the same is found under every address, and no entry was made
    obtain ⟨_, hedits, _⟩ :=
      tickInOrder_ages hs hc.dynamic horder h
    exact hs.ordered.eq_of_find? (hedits.wellFormed hs).ordered
      (find?_of_quiet_inOrder hnodup h hquiet) hedits.bounds (nextGeneration_of_tick hc horder h)
  · have hlength := hreports.probes_eq
    rw [TickReport.isQuiet, beq_iff_eq] at hquiet
    rw [hquiet] at hlength
    exact List.length_eq_zero_iff.mp hlength.symm

/-- A tick whose probes are answered at once reports what one does whose transmitter only records.
It sends the same probes, and what it leaves is what the answers, learned one after the other, make
of what the other leaves. -/
theorem tickInOrder_replies {o : Outcome α TickReport} (hc : c.Coherent)
    (horder : order.Perm c.store.addresses) (h : c.tickInOrder r now order = .ok o) :
    ∃ first outcomes, c.tickInOrder .silent now order = .ok first ∧
      first.cache.run .silent (r.replies now first.sent) = .ok (o.cache, outcomes) ∧
      o.answer = first.answer ∧ o.sent.filter (·.isProbe) = first.sent := by
  have hnodup := nodup_order hc.wellFormed.ordered horder
  obtain ⟨t, seen, o', hvisit, hsees, hhand, hcache, hanswer, hsent⟩ := sweeps_of_tick hnodup h
  obtain ⟨last, outcomes, hrun, rfl⟩ := (handOver_replies r now t.probes o').mp hhand
  have hsilent := (c.swept t).handOver_silent_eq now t.probes
  unfold swept at hsilent
  refine ⟨⟨(c.swept t).counted t.probes, t.report, t.probes, t.warnings⟩, outcomes, ?_, ?_,
    hanswer, ?_⟩
  · unfold tickInOrder
    simp only [hvisit, hsilent]
    simp [Attempt.mapAnswer, Attempt.warnedAfter, Outcome.map, Outcome.warnedAfter, swept]
  · rw [hcache]
    exact hrun
  · rw [hsent]
    exact Responder.filter_weave hsees.isProbe (quiet_of_replies hrun)

/-- A tick on a cache that calls lead to goes through exactly if the clock holds the deadlines that
it sets, in whatever order it visits the entries, and its report is exact. If its probes are
answered at once, it reports the same, and the answers are learned after what is reported. -/
theorem Reached.tick_reported {cfg : Config} {start : Nat} {calls : List (Call α)}
    (h : c.Reached cfg start calls) (horder : order.Perm c.store.addresses) (now : Nat) :
    (∀ r, (∃ o, c.tickInOrder r now order = .ok o) ↔ c.FitsTick r now) ∧
    (∀ o, c.tickInOrder .silent now order = .ok o → c.Reports o.answer o.sent o.cache ∧
      (o.answer.isQuiet = true ↔ o.cache.store = c.store ∧ o.sent = [])) ∧
    ∀ r o, c.tickInOrder r now order = .ok o → ∃ first outcomes,
      c.tickInOrder .silent now order = .ok first ∧
      first.cache.run .silent (r.replies now first.sent) = .ok (o.cache, outcomes) ∧
      o.answer = first.answer ∧ o.sent.filter (·.isProbe) = first.sent :=
  have hc := h.coherent.1
  ⟨fun _ => exists_tickInOrder_iff hc horder,
    fun _ ho => ⟨tick_reports hc horder ho, isQuiet_iff_of_tick hc horder ho⟩,
    fun _ _ => tickInOrder_replies hc horder⟩

/-- What makes a tick at 30 find an entry of each kind: one that is checked, one that is asked for
again, one that fails, one that expires and one that is not due. -/
def bustle : List (Nat × Call Nat) :=
  [(0, .observe ⟨10, 0, 0, 1⟩ ⟨2, 0, 0, 0, 0, 1⟩), (0, .observe ⟨10, 0, 0, 4⟩ ⟨2, 0, 0, 0, 0, 4⟩),
    (5, .resolve ⟨10, 0, 0, 3⟩ 7), (10, .tick), (15, .resolve ⟨10, 0, 0, 1⟩ 8),
    (28, .resolve ⟨10, 0, 0, 2⟩ 9), (29, .observe ⟨10, 0, 0, 5⟩ ⟨2, 0, 0, 0, 0, 5⟩)]

/-- The tick reports each of them, here in descending order of addresses. -/
theorem Reached.tick_reported_of_bustle :
    ∃ x ∈ (Cache.create { Config.brief with capacity := 5 } 0 : Outcome Nat Unit).cache.trace .silent
        bustle,
      ∃ o, x.2.tickInOrder .silent 30 x.2.store.addresses.reverse = .ok o ∧
        o.answer =
          { transitions := 1, probes := 2, failed := [⟨10, 0, 0, 3⟩], expired := 1
            droppedPending := 1 } ∧
        x.2.Reports o.answer o.sent o.cache := by
  have hbustle : ∃ x ∈ (Cache.create { Config.brief with capacity := 5 } 0 :
        Outcome Nat Unit).cache.trace .silent bustle,
      ∃ o ∈ (x.2.tickInOrder .silent 30 x.2.store.addresses.reverse).toOption,
        o.answer =
          { transitions := 1, probes := 2, failed := [⟨10, 0, 0, 3⟩], expired := 1
            droppedPending := 1 } := by
    decide +kernel
  obtain ⟨x, hx, o, ho, hanswer⟩ := hbustle
  obtain ⟨hlog, _⟩ := history_of_trace hx
  have htick := Attempt.eq_ok_of_mem ho
  obtain ⟨_, hreports, _⟩ := Reached.tick_reported hlog.reached (List.reverse_perm _) 30
  exact ⟨x, hx, o, htick, hanswer, (hreports o htick).1⟩

end Cache

end Neighbor
