import Neighbor.Proofs.Idle

/-!
# The deadlines that a tick sets

Time gives an entry on which it acts a new deadline, or removes it. A tick goes through exactly if
the clock holds the new deadlines and those of the bindings that answers to its probes make, in
whatever order it visits the entries (`Cache.exists_tickInOrder_iff`). If no wait is empty, all of
these deadlines are later than the tick, and another tick that is no later finds nothing to do
(`History.again_quiet`).
-/

namespace Neighbor

variable {α : Type}

namespace Entry

variable {cfg : Config} {r : Responder} {now : Nat} {e e' : Entry α} {aged : Aged α}

/-- Whether time lets an entry ask all stations once more. -/
def asks (cfg : Config) (now : Nat) (e : Entry α) : Bool :=
  match e.status with
  | .incomplete n _ => e.isDue now && n < cfg.maxProbes
  | _ => false

/-- A broadcast probe is due exactly for the entries that ask all stations. -/
theorem Passes.probe_eq_iff (h : e.Passes cfg now aged) :
    aged.probe = some (.broadcastProbe e.address) ↔ e.asks cfg now = true := by
  unfold asks
  cases h with
  | idle hdue => cases e.status <;> simp [hdue]
  | reprobed hdue hstatus hleft => simp [hstatus, hdue, hleft]
  | rechecked _ hstatus | checked _ hstatus | staled _ hstatus => simp [hstatus]
  | gaveUp _ _ hspent =>
    rw [probes] at hspent
    cases hstatus : e.status with
    | incomplete n =>
      rw [hstatus] at hspent
      have hnone : ¬n < cfg.maxProbes := Nat.not_lt.mpr hspent
      simp [hnone]
    | reachable | stale | delay | probe | failed => simp
  | expired _ hstate =>
    rw [state] at hstate
    cases hstatus : e.status with
    | incomplete => simp [hstatus, Status.state] at hstate
    | reachable | stale | delay | probe | failed => simp

/-- Time removes an entry, leaves it until its deadline or sets it a new one. -/
theorem Passes.renewed (h : e.Passes cfg now aged) :
    aged.aging.isExpiry = true ∨ (aged.entry = e ∧ e.isDue now = false) ∨
      ∃ d ∈ e.renewal? cfg, aged.entry.deadline = some (now + d.nanos) := by
  cases h with
  | idle hdue => exact .inr (.inl ⟨rfl, hdue⟩)
  | expired => exact .inl rfl
  | reprobed _ hstatus hleft | rechecked _ hstatus hleft =>
    exact .inr (.inr ⟨_, by simp [renewal?, hstatus, Nat.not_le.mpr hleft], rfl⟩)
  | checked _ hstatus | staled _ hstatus =>
    exact .inr (.inr ⟨_, by simp [renewal?, hstatus], rfl⟩)
  | gaveUp _ hstate hspent =>
    refine .inr (.inr ⟨cfg.failedGrace, ?_, rfl⟩)
    rw [state] at hstate
    rw [probes] at hspent
    unfold renewal?
    cases hstatus : e.status with
    | incomplete | probe =>
      rw [hstatus] at hspent
      exact congrArg some (if_pos hspent)
    | reachable | stale | delay | failed => simp [hstatus, Status.state] at hstate

end Entry

/-- No wait that a tick sets is empty. -/
structure Config.Paced (cfg : Config) : Prop where
  reachable : 0 < cfg.reachable.nanos
  initial : 0 < cfg.retry.initial.nanos
  max : 0 < cfg.retry.max.nanos
  failedGrace : 0 < cfg.failedGrace.nanos
  stale : 0 < cfg.stale.nanos

/-- The factor is never zero, so neither is a wait between probes if the first and the longest are
not. -/
theorem Backoff.delay_pos {b : Backoff} (hinitial : 0 < b.initial.nanos) (hmax : 0 < b.max.nanos)
    (n : Nat) : 0 < (b.delay n).nanos := by
  have hpow : 0 < b.base.pow (n - 1) := Nat.pow_pos b.base_pos
  have hfactor : 0 < b.factor n := by
    rw [factor_eq]
    exact Nat.lt_min.mpr ⟨hpow, by decide⟩
  have hproduct := Nat.mul_pos hinitial hfactor
  have hlongest : 0 < Duration.maxNanos := by decide
  rw [nanos_delay]
  omega

namespace Entry

variable {cfg : Config} {r : Responder} {now t : Nat} {e e' : Entry α} {aged : Aged α}

/-- An entry is not due before its deadline. -/
theorem isDue_eq_false_iff : e.isDue now = false ↔ ∀ t, e.deadline = some t → now < t := by
  unfold isDue
  cases e.deadline <;> simp

/-- What is not due now was not due before. -/
theorem not_isDue_of_le (h : e.isDue now = false) (ht : t ≤ now) : e.isDue t = false := by
  rw [isDue_eq_false_iff] at h ⊢
  exact fun u hu => Nat.lt_of_le_of_lt ht (h u hu)

/-- If no wait is empty, what a tick leaves of an entry is due later. -/
theorem Passes.not_isDue (hcfg : cfg.Paced) (h : e.Passes cfg now aged)
    (hafter : (aged.settled cfg r now).1 = some e') : e'.isDue now = false := by
  have hlater {x : Entry α} {d : Duration} (hdeadline : x.deadline = some (now + d.nanos))
      (hd : 0 < d.nanos) : x.isDue now = false := by
    rw [isDue_eq_false_iff, hdeadline]
    rintro _ ⟨⟩
    omega
  rcases Aged.settled_cases hafter with rfl | ⟨_, mac, _, rfl⟩
  · rcases h.renewed with hexpiry | ⟨hsame, hdue⟩ | ⟨d, hd, hdeadline⟩
    · unfold Aged.settled at hafter
      rw [hexpiry] at hafter
      cases hafter
    · rw [hsame]
      exact hdue
    · exact hlater hdeadline (of_mem_renewal? (P := fun d => 0 < d.nanos)
        (Backoff.delay_pos hcfg.initial hcfg.max) hcfg.failedGrace hcfg.stale d hd)
  · exact hlater rfl hcfg.reachable

end Entry

/-- What holds of all that is found under the addresses of a store holds of all entries. -/
theorem Store.Ordered.forall_find?_iff {s : Store α} {order : List Address} {P : Entry α → Prop}
    (hs : s.Ordered) (horder : order.Perm s.addresses) :
    (∀ a ∈ order, ∀ e, s.find? a = some e → P e) ↔ ∀ e ∈ s.entries, P e := by
  constructor
  · intro h e he
    have hfind := (hs.mem_iff e).mp he
    refine h e.address (horder.mem_iff.mpr ?_) e hfind
    rw [mem_addresses_iff, hfind]
    rfl
  · exact fun h a _ e hfind => h e (mem_of_find? hfind)

/-- Putting an entry back where it was found changes nothing. -/
theorem Store.Ordered.put_of_find? {s : Store α} {a : Address} {e : Entry α} (hs : s.Ordered)
    (hfind : s.find? a = some e) : s.put e = s := by
  refine hs.eq_of_find? (hs.put e) (fun b => ?_) ⟨rfl, rfl, rfl⟩ rfl
  rw [find?_put, address_of_find? hfind]
  split
  · next hb => rw [hb, hfind]
  · rfl

namespace Sweep

variable {cfg : Config} {now : Nat} {s t : Sweep α} {a b : Address} {store : Store α}
  {order : List Address} {seen : List (Address × Entry.Aged α)}

/-- A visit goes through exactly if the clock holds the deadline that it sets. -/
theorem exists_visit_iff :
    (∃ t, visit cfg now s a = .ok t) ↔ ∀ e, s.store.find? a = some e → e.Fits cfg now := by
  unfold visit
  cases hfind : s.store.find? a with
  | none => simp
  | some e =>
    simp only [Option.some.injEq, forall_eq', ← Entry.exists_age_iff]
    cases e.age cfg now <;> simp

/-- A visit leaves the other addresses alone. -/
theorem find?_of_visit (h : visit cfg now s a = .ok t) (hb : b ≠ a) :
    t.store.find? b = s.store.find? b := by
  rcases visit_cases cfg now s a with
    ⟨_, hfirst⟩ | ⟨e, aged, hfind, hpasses, hfirst | ⟨_, hfirst⟩⟩
  · cases h.symm.trans hfirst
    rfl
  · cases h.symm.trans hfirst
    have haddress := hpasses.address_eq.trans (Store.address_of_find? hfind)
    rw [store_note, Store.find?_put_of_ne _ haddress hb]
  · cases h.symm.trans hfirst

/-- A sweep along distinct addresses goes through exactly if the clock holds the deadlines that it
sets for their entries. -/
theorem exists_visitAll_iff (hnodup : order.Nodup) :
    (∃ t, s.visitAll cfg now order = .ok t) ↔
      ∀ a ∈ order, ∀ e, s.store.find? a = some e → e.Fits cfg now := by
  induction order generalizing s with
  | nil => exact ⟨fun _ => List.forall_mem_nil _, fun _ => ⟨s, rfl⟩⟩
  | cons a rest ih =>
    obtain ⟨hnotin, hrest⟩ := List.nodup_cons.mp hnodup
    rw [List.forall_mem_cons, ← exists_visit_iff, visitAll, List.foldlM_cons]
    cases hvisit : visit cfg now s a with
    | error x =>
      refine ⟨fun h => ?_, fun h => ?_⟩
      · obtain ⟨_, hgoes⟩ := h
        cases hgoes
      · obtain ⟨⟨_, hgoes⟩, _⟩ := h
        cases hgoes
    | ok s' =>
      have hsame (b : Address) (hb : b ∈ rest) : s'.store.find? b = s.store.find? b :=
        find?_of_visit hvisit fun heq => hnotin (heq ▸ hb)
      have hlater := ih (s := s') hrest
      constructor
      · intro h
        refine ⟨⟨s', rfl⟩, fun b hb e hfind => hlater.mp h b hb e ?_⟩
        rw [hsame b hb, hfind]
      · rintro ⟨_, h⟩
        refine hlater.mpr fun b hb e hfind => h b hb e ?_
        rw [← hsame b hb, hfind]

/-- The broadcast probes of a whole sweep are for the entries that ask all stations. -/
theorem Sees.mem_due_iff (h : Sees cfg now { store } order t seen)
    (horder : order.Perm store.addresses) (hnodup : order.Nodup) :
    (a, .broadcastProbe a) ∈ due seen ↔
      ∃ e, store.find? a = some e ∧ e.asks cfg now = true := by
  constructor
  · intro hdue
    obtain ⟨x, hx, rfl, hprobe⟩ := mem_due hdue
    obtain ⟨e, hfind, hpasses, _⟩ := h.passes x hx
    refine ⟨e, hfind, hpasses.probe_eq_iff.mp ?_⟩
    rw [Store.address_of_find? hfind]
    exact hprobe
  · rintro ⟨e, hfind, hasks⟩
    have ha : a ∈ seen.map (·.1) := by
      rw [h.map_fst_eq horder hnodup, horder.mem_iff, Store.mem_addresses_iff, hfind]
      rfl
    obtain ⟨x, hx, rfl⟩ := List.mem_map.mp ha
    obtain ⟨e', hfind', hpasses, _⟩ := h.passes x hx
    cases hfind.symm.trans hfind'
    have hprobe := hpasses.probe_eq_iff.mpr hasks
    rw [Store.address_of_find? hfind] at hprobe
    exact List.mem_flatMap.mpr ⟨x, hx, by simp [hprobe]⟩

/-- A sweep of a store in which nothing is due notes nothing. -/
theorem visitAll_of_not_due (hs : s.store.Ordered)
    (h : ∀ e ∈ s.store.entries, e.isDue now = false) (order : List Address) :
    s.visitAll cfg now order = .ok s := by
  have hvisit (a : Address) : visit cfg now s a = .ok s := by
    unfold visit
    cases hfind : s.store.find? a with
    | none => rfl
    | some e =>
      have hdue := h e (Store.mem_of_find? hfind)
      simp [Entry.age, hdue, note, hs.put_of_find? hfind]
  induction order with
  | nil => rfl
  | cons a rest ih =>
    rw [visitAll, List.foldlM_cons, hvisit]
    exact ih

end Sweep

namespace Cache

variable {c : Cache α} {r : Responder} {now : Nat} {order : List Address}

/-- Probes with distinct targets, the broadcast ones for entries without a link address, are handed
over exactly if the clock holds the deadlines of the answers. -/
theorem exists_handOver_iff {items : List (Address × Outbound α)} (hs : c.store.WellFormed)
    (htarget : ∀ x ∈ items, x.2.target? = some x.1) (hnodup : (items.map (·.1)).Nodup)
    (hopen : ∀ x ∈ items, x.2 = .broadcastProbe x.1 →
      ∃ e, c.store.find? x.1 = some e ∧ e.kind = .dynamic ∧ e.mac? = none) :
    (∃ o, handOver r now c (items.map (·.2)) = .ok o) ↔
      ∀ x ∈ items, x.2 = .broadcastProbe x.1 → (r.heard? x.1).isSome →
        now + c.config.reachable.nanos < Clock.limit := by
  induction items generalizing c with
  | nil => exact ⟨fun _ => List.forall_mem_nil _, fun _ => ⟨_, rfl⟩⟩
  | cons x rest ih =>
    obtain ⟨hfirst, hlater⟩ := List.forall_mem_cons.mp htarget
    obtain ⟨hnotin, hrest⟩ := List.nodup_cons.mp hnodup
    obtain ⟨hopenFirst, hopenLater⟩ := List.forall_mem_cons.mp hopen
    rw [List.map_cons, List.forall_mem_cons]
    rcases handOver_cons_cases r now x.2 (rest.map (·.2)) hs hfirst hopenFirst with
      ⟨d, flushed, hcons, _, hconfig, hedits, hothers, hclock⟩ |
        ⟨_, mac, _, hcons, hitem, _, hheard, _, _, _, hlimit⟩
    · -- handing over the first probe leaves the entries of the others as they are
      have hopen' : ∀ y ∈ rest, y.2 = .broadcastProbe y.1 →
          ∃ e, d.store.find? y.1 = some e ∧ e.kind = .dynamic ∧ e.mac? = none := by
        intro y hy hitem
        have hne : y.1 ≠ x.1 := fun heq => hnotin (List.mem_map.mpr ⟨y, hy, heq⟩)
        rw [hothers _ hne]
        exact hopenLater y hy hitem
      have hgoes := ih (hedits.wellFormed hs) hlater hrest hopen'
      rw [hconfig] at hgoes
      rw [hcons]
      constructor
      · rintro ⟨o, ho⟩
        obtain ⟨o', ho', _⟩ := Attempt.sentAfter_eq_ok ho
        exact ⟨hclock, hgoes.mp ⟨o', ho'⟩⟩
      · rintro ⟨_, hfit⟩
        exact Attempt.exists_sentAfter (hgoes.mpr hfit) _
    · rw [hcons]
      refine ⟨nofun, fun ⟨hfit, _⟩ => ?_⟩
      exact absurd (hfit hitem (by rw [hheard]; rfl)) (Nat.not_lt.mpr hlimit)

/-- The clock holds the deadlines that a tick at `now` sets: those of the entries on which time acts
and those of the bindings that answers to its probes make. -/
def FitsTick (r : Responder) (c : Cache α) (now : Nat) : Prop :=
  ∀ e ∈ c.store.entries, e.Fits c.config now ∧
    (e.asks c.config now = true → (r.heard? e.address).isSome →
      now + c.config.reachable.nanos < Clock.limit)

instance (r : Responder) (c : Cache α) (now : Nat) : Decidable (c.FitsTick r now) :=
  inferInstanceAs (Decidable (∀ e ∈ c.store.entries, _ ∧ _))

/-- The probes of a sweep are handed over exactly if the clock holds the deadlines of the answers. -/
theorem exists_handOver_swept_iff {t : Sweep α} {seen : List (Address × Entry.Aged α)}
    (hc : c.Coherent) (horder : order.Perm c.store.addresses)
    (hsees : Sweep.Sees c.config now { store := c.store } order t seen) :
    (∃ o, handOver r now (c.swept t) t.probes = .ok o) ↔
      ∀ e ∈ c.store.entries, e.asks c.config now = true → (r.heard? e.address).isSome →
        now + c.config.reachable.nanos < Clock.limit := by
  have hs := hc.wellFormed
  have hnodup := nodup_order hs.ordered horder
  rw [hsees.probes_eq_due, exists_handOver_iff ((edits_swept hsees).wellFormed hs)
    (fun y hy => hsees.target hy) ((Sweep.sublist_due seen).nodup (hsees.nodup hnodup))
    fun y hy => hsees.unresolved hnodup hc.dynamic hy]
  constructor
  · intro h e he hasks
    have hdue := (hsees.mem_due_iff horder hnodup).mpr ⟨e, (hs.ordered.mem_iff e).mp he, hasks⟩
    exact h _ hdue rfl
  · intro h y hy hitem hheard
    have hdue : (y.1, .broadcastProbe y.1) ∈ Sweep.due seen := hitem ▸ hy
    obtain ⟨e, hfind, hasks⟩ := (hsees.mem_due_iff horder hnodup).mp hdue
    rw [← Store.address_of_find? hfind] at hheard
    exact h e (Store.mem_of_find? hfind) hasks hheard

/-- A tick goes through exactly if the clock holds the deadlines that it sets, in whatever order it
visits the entries. -/
theorem exists_tickInOrder_iff (hc : c.Coherent) (horder : order.Perm c.store.addresses) :
    (∃ o, c.tickInOrder r now order = .ok o) ↔ c.FitsTick r now := by
  have hnodup := nodup_order hc.wellFormed.ordered horder
  have hvisits : (∃ t, Sweep.visitAll c.config now { store := c.store } order = .ok t) ↔
      ∀ e ∈ c.store.entries, e.Fits c.config now :=
    (Sweep.exists_visitAll_iff hnodup).trans (hc.wellFormed.ordered.forall_find?_iff horder)
  unfold FitsTick tickInOrder
  simp only [forall_and]
  rw [← hvisits]
  cases hvisit : Sweep.visitAll c.config now { store := c.store } order with
  | error => exact ⟨nofun, fun ⟨h, _⟩ => nomatch h⟩
  | ok t =>
    obtain ⟨seen, hsees⟩ := Sweep.sees_of_visitAll hnodup hvisit
    rw [← exists_handOver_swept_iff hc horder hsees]
    constructor
    · rintro ⟨o, ho⟩
      obtain ⟨o', hmapped, _⟩ := Attempt.warnedAfter_eq_ok ho
      obtain ⟨o'', hhand, _⟩ := Attempt.mapAnswer_eq_ok hmapped
      exact ⟨⟨t, rfl⟩, o'', hhand⟩
    · rintro ⟨_, hhand⟩
      exact Attempt.exists_warnedAfter (Attempt.exists_mapAnswer hhand _) _

/-- Counting nothing changes nothing. -/
@[simp] theorem count_zero (c : Cache α) (k : Counter) : c.count k 0 = c := by
  have hsame : c.metrics.add k (UInt64.ofNat 0) = c.metrics := by
    refine Metrics.ext_get fun j => ?_
    rw [Metrics.get_add]
    split
    · next hj => simp [hj]
    · rfl
  unfold count
  rw [hsame]

/-- A tick at which nothing is due sets the gauge and does nothing else. -/
theorem tickInOrder_of_not_due (hs : c.store.Ordered)
    (h : ∀ e ∈ c.store.entries, e.isDue now = false) (order : List Address) :
    c.tickInOrder r now order = .ok { cache := c.gauge, answer := {} } := by
  unfold tickInOrder
  rw [Sweep.visitAll_of_not_due (s := { store := c.store }) hs h order]
  simp [handOver, Attempt.mapAnswer, Attempt.warnedAfter, Outcome.map, Outcome.warnedAfter,
    Sweep.remaining, Sweep.report]

/-- If no wait is empty, no entry is due after a tick. -/
theorem Sound.not_due_of_tick {o : Outcome α TickReport} (hc : c.Sound) (hcfg : c.config.Paced)
    (horder : order.Perm c.store.addresses) (h : c.tickInOrder r now order = .ok o) :
    o.cache.store.Ordered ∧
      ∀ e ∈ o.cache.store.entries, e.isDue now = false ∧ e.Sound c.config := by
  obtain ⟨_, hedits, sent, _, hages⟩ :=
    tickInOrder_ages hc.wellFormed hc.coherent.dynamic horder h
  have hordered := (hedits.wellFormed hc.wellFormed).ordered
  refine ⟨hordered, fun e he => ?_⟩
  -- the entry is what time and an answer left of the one before
  have hage := hages e.address
  rw [(hordered.mem_iff e).mp he] at hage
  generalize hafter : some e = after at hage
  generalize share e.address sent = items at hage
  cases hage with
  | absent => cases hafter
  | aged hfind hpasses =>
    exact ⟨hpasses.not_isDue hcfg hafter.symm,
      (hc.of_find? hfind).settled hpasses hafter.symm⟩

end Cache

namespace History

variable {cfg : Config} {start now : Nat} {log : List (Step α)} {c : Cache α} {r : Responder}
  {order : List Address}

/-- If no wait is empty and the clock holds the deadlines that a tick sets, the tick leaves every
dynamic entry with a deadline that is later. So another tick that is no later changes nothing, sends
nothing and has nothing to report, whoever answers and in whatever order the ticks visit the
entries. -/
theorem again_quiet (hcfg : cfg.Paced)
    (h : History (Cache.create cfg start : Outcome α Unit).cache log c)
    (horder : order.Perm c.store.addresses) (hfits : c.FitsTick r now) :
    ∃ o, c.tickInOrder r now order = .ok o ∧
      (∀ e ∈ o.cache.store.entries, e.kind = .dynamic → ∃ t, e.deadline = some t ∧ now < t) ∧
      ∀ r' t order', t ≤ now → ∃ o', o.cache.tickInOrder r' t order' = .ok o' ∧
        o'.cache = o.cache ∧ o'.sent = [] ∧ o'.answer.isQuiet = true := by
  obtain ⟨hcreate, hcreated⟩ := Cache.create_sound (α := α) cfg start
  obtain ⟨hsound, hconfig⟩ := h.sound hcreate
  rw [hcreated] at hconfig
  have hc := hsound.coherent
  obtain ⟨o, ho⟩ := (Cache.exists_tickInOrder_iff hc horder).mpr hfits
  obtain ⟨hordered, hleft⟩ := hsound.not_due_of_tick (hconfig ▸ hcfg) horder ho
  refine ⟨o, ho, fun e he hkind => ?_, fun r' t order' ht => ?_⟩
  · obtain ⟨hdue, he⟩ := hleft e he
    obtain ⟨t, hdeadline⟩ := he.dynamic hkind
    exact ⟨t, hdeadline, Entry.lt_of_not_isDue hdue hdeadline⟩
  · have hgauged := (Cache.tick_accounts hc horder ho).2
    have hidle := Cache.tickInOrder_of_not_due (r := r') hordered
      (fun e he => Entry.not_isDue_of_le (hleft e he).1 ht) order'
    rw [hgauged.gauge_eq] at hidle
    exact ⟨_, hidle, rfl, rfl, rfl⟩

/-- The tick that starts to check a woken binding does so once. -/
theorem again_quiet_of_waking :
    ∃ x ∈ Cache.briefTrace waking, x.2.FitsTick .silent 17 ∧ ∃ o,
      x.2.tick .silent 17 = .ok o ∧
      o.sent = [.unicastProbe ⟨10, 0, 0, 1⟩ ⟨2, 0, 0, 0, 0, 1⟩] ∧
      ∃ o', o.cache.tick .silent 17 = .ok o' ∧ o'.sent = [] ∧ o'.answer.isQuiet = true := by
  have hwaking : ∃ x ∈ Cache.briefTrace waking, x.2.FitsTick .silent 17 ∧
      ∃ o ∈ (x.2.tick .silent 17).toOption,
        o.sent = [.unicastProbe ⟨10, 0, 0, 1⟩ ⟨2, 0, 0, 0, 0, 1⟩] := by
    decide +kernel
  obtain ⟨x, hx, hfits, o, ho, hsent⟩ := hwaking
  obtain ⟨hlog, _⟩ := Cache.history_of_trace hx
  have hpaced : Config.brief.Paced := ⟨by decide, by decide, by decide, by decide, by decide⟩
  obtain ⟨o', ho', _, hquiet⟩ := again_quiet hpaced hlog (.refl _) hfits
  have htick : x.2.tick .silent 17 = .ok o := Attempt.eq_ok_of_mem ho
  cases htick.symm.trans ho'
  obtain ⟨o'', ho'', _, hsent', hreport⟩ :=
    hquiet .silent 17 o.cache.store.addresses (Nat.le_refl _)
  exact ⟨x, hx, hfits, o, htick, hsent, o'', ho'', hsent', hreport⟩

end History

end Neighbor
