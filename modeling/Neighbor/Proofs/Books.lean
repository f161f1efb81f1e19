import Mathlib.Algebra.Group.Pi.Basic
import Neighbor.Proofs.Pending
import Neighbor.Proofs.Reach

/-!
# What an operation counts

A tally says how many of each kind there were. `Cache.Accounts` ties what an operation leaves to its
tally: each counter is ahead by as much, the packets that wait are those that waited or were queued
less those that were let out or dropped, and the gauge still shows the number of entries. Every
operation accounts for what it hands over and answers.
-/

namespace Neighbor

variable {α β : Type}

/-- How many there are of each kind that is counted. -/
abbrev Tally := Counter → Nat

namespace Outbound

/-- Whether an item asks all stations. -/
def isBroadcast : Outbound α → Bool
  | broadcastProbe _ => true
  | _ => false

/-- Whether an item asks one station. -/
def isUnicast : Outbound α → Bool
  | unicastProbe _ _ => true
  | _ => false

end Outbound

/-- The tally of items that are handed over. Their packets have all waited. -/
def handedTally (sent : List (Outbound α)) : Tally
  | .broadcastProbes => sent.countP (·.isBroadcast)
  | .unicastProbes => sent.countP (·.isUnicast)
  | .packetsFlushed => (deliveries sent).length
  | _ => 0

/-- Nothing is counted if nothing is handed over. -/
@[simp] theorem handedTally_nil : handedTally ([] : List (Outbound α)) = 0 := by
  funext k
  cases k <;> rfl

/-- Items handed over one after the other are counted together. -/
@[simp] theorem handedTally_append (xs ys : List (Outbound α)) :
    handedTally (xs ++ ys) = handedTally xs + handedTally ys := by
  funext k
  cases k <;> simp [handedTally, deliveries]

/-- Packets handed over count as flushed. -/
@[simp] theorem handedTally_packets (packets : List α) (mac : Mac) :
    handedTally (packets.map (.packet · mac)) = Pi.single .packetsFlushed packets.length := by
  have hbroadcast : (packets.map (Outbound.packet · mac)).countP (·.isBroadcast) = 0 := by
    simp [List.countP_map, Function.comp_def, Outbound.isBroadcast]
  have hunicast : (packets.map (Outbound.packet · mac)).countP (·.isUnicast) = 0 := by
    simp [List.countP_map, Function.comp_def, Outbound.isUnicast]
  funext k
  cases k <;> simp [handedTally, hbroadcast, hunicast]

/-- A broadcast probe counts as one. -/
@[simp] theorem handedTally_broadcastProbe (a : Address) :
    handedTally [(.broadcastProbe a : Outbound α)] = Pi.single .broadcastProbes 1 := by
  funext k
  cases k <;> rfl

/-- A unicast probe counts as one. -/
@[simp] theorem handedTally_unicastProbe (a : Address) (mac : Mac) :
    handedTally [(.unicastProbe a mac : Outbound α)] = Pi.single .unicastProbes 1 := by
  funext k
  cases k <;> rfl

/-- The tally of a packet that was placed as `resolution` says while `sent` was handed over. A
packet that goes through at once has not waited. -/
def placedTally (resolution : Resolution) (sent : List (Outbound α)) : Tally :=
  match resolution with
  | .resolved _ => Function.update (handedTally sent) .packetsFlushed 0
  | .queued => Pi.single .packetsQueued 1 + handedTally sent
  | .rejectedFull => Pi.single .packetsRejected 1 + handedTally sent
  | .dropped _ => Pi.single .resolvesDropped 1 + handedTally sent

/-- A packet for an address that is being resolved is queued unless there is no room for it. -/
theorem placedTally_offered (full : Prop) [Decidable full] (sent : List (Outbound α)) :
    placedTally (if full then .rejectedFull else .queued) sent =
      Pi.single (if full then .packetsRejected else .packetsQueued) 1 + handedTally sent := by
  split <;> rfl

/-- An entry is given up if it was not failed and is in the end. -/
theorem Entry.Passes.isFailure_iff {cfg : Config} {now : Nat} {e : Entry α} {aged : Aged α}
    (h : e.Passes cfg now aged) (r : Responder) :
    aged.aging.isFailure = true ↔
      e.state ≠ .failed ∧ (aged.settled cfg r now).1.map (·.state) = some .failed := by
  cases h with
  | gaveUp _ hstate =>
    refine ⟨fun _ => ⟨?_, rfl⟩, fun _ => rfl⟩
    rcases hstate with hstate | hstate <;> rw [hstate] <;> nofun
  | idle => exact ⟨nofun, fun ⟨hbefore, hafter⟩ => absurd (Option.some.inj hafter) hbefore⟩
  | rechecked | checked | staled | expired => exact ⟨nofun, fun ⟨_, hafter⟩ => nomatch hafter⟩
  | @reprobed n queue =>
    -- whether or not its probe is answered, the entry has not failed
    refine ⟨nofun, fun ⟨_, hafter⟩ => ?_⟩
    change some (Entry.answered cfg r now _).1.state = some .failed at hafter
    rcases @Entry.answered_cases α cfg r now
      { e with
        status := .incomplete (n + 1) queue
        deadline := some (now + (cfg.retry.delay (n + 1)).nanos) } with
      ⟨_, hanswered⟩ | ⟨mac, _, hanswered⟩
    · rw [hanswered] at hafter
      cases hafter
    · rw [hanswered] at hafter
      cases hafter

namespace Cache

variable {c d e : Cache α} {m n : Tally} {r : Responder} {now : Nat} {a : Address} {mac : Mac}
  {order : List Address}

/-- How many packets wait in all entries. -/
def pending (c : Cache α) : Nat := c.store.pending

/-- Whether the gauge shows the number of entries. -/
def Gauged (c : Cache α) : Prop := c.metrics.entries = UInt64.ofNat c.size

/-- Each counter of `d` is ahead of that of `c` by what the tally says. -/
def Counts (c d : Cache α) (n : Tally) : Prop :=
  ∀ k, k ≠ .entries → d.metrics.get k = c.metrics.get k + UInt64.ofNat (n k)

namespace Counts

/-- If the metrics are the same, nothing was counted. -/
theorem of_metrics_eq (h : d.metrics = c.metrics) : c.Counts d 0 := by
  intro k _
  simp [h]

/-- Counting adds to the tally. -/
theorem count (h : c.Counts d n) (k : Counter) (i : Nat) :
    c.Counts (d.count k i) (n + Pi.single k i) := by
  intro j hj
  change (d.metrics.add k (UInt64.ofNat i)).get j = _
  rw [Metrics.get_add, Pi.add_apply]
  by_cases hjk : j = k
  · subst hjk
    rw [if_pos rfl, h j hj, Pi.single_eq_same, UInt64.ofNat_add, UInt64.add_assoc]
  · rw [if_neg hjk, h j hj, Pi.single_eq_of_ne hjk, Nat.add_zero]

/-- Setting the gauge counts nothing. -/
theorem gauge (h : c.Counts d n) : c.Counts d.gauge n := by
  intro j hj
  change (d.metrics.set .entries _).get j = _
  rw [Metrics.get_set, if_neg hj, h j hj]

/-- An entry in which nothing waited makes room. -/
theorem settle {evicted : Option Evicted} (h : c.Counts d n)
    (hempty : ∀ ev, evicted = some ev → ev.droppedPending = 0) :
    c.Counts (d.settle evicted) (n + Pi.single .evictions (if evicted.isSome then 1 else 0)) := by
  cases evicted with
  | none => simpa [Cache.settle] using h.gauge
  | some ev =>
    have hcounted := ((h.count .evictions 1).count .pendingDropped ev.droppedPending).gauge
    rw [hempty ev rfl, Pi.single_zero, add_zero] at hcounted
    unfold Cache.settle
    dsimp only
    rw [hempty ev rfl]
    exact hcounted

/-- What two steps count is what they count together. -/
theorem trans (h : c.Counts d m) (h' : d.Counts e n) : c.Counts e (m + n) := by
  intro k hk
  rw [h' k hk, h k hk, Pi.add_apply, UInt64.ofNat_add, UInt64.add_assoc]

end Counts

/-- The gauge shows the number of entries once it is set. -/
theorem gauged_gauge (c : Cache α) : c.gauge.Gauged := rfl

/-- The gauge shows the number of entries once an operation on one address is settled. -/
theorem gauged_settle (c : Cache α) (evicted : Option Evicted) : (c.settle evicted).Gauged := by
  cases evicted <;> rfl

/-- Other counters do not move the gauge. -/
theorem Gauged.count {k : Counter} {i : Nat} (h : c.Gauged) (hk : .entries ≠ k) :
    (c.count k i).Gauged := by
  change (c.metrics.add k (UInt64.ofNat i)).get .entries = _
  rw [Metrics.get_add, if_neg hk]
  exact h

/-- The books of an operation that made `d` of `c` with the tally `n`. -/
structure Accounts (c d : Cache α) (n : Tally) : Prop where
  counts : c.Counts d n
  balanced : n .packetsQueued + c.pending = n .packetsFlushed + n .pendingDropped + d.pending
  gauged : c.Gauged → d.Gauged

namespace Accounts

/-- The books of an operation that does nothing are empty. -/
theorem refl (c : Cache α) : c.Accounts c 0 := ⟨.of_metrics_eq rfl, by simp, id⟩

/-- The books of two operations are added up. -/
theorem trans (h : c.Accounts d m) (h' : d.Accounts e n) : c.Accounts e (m + n) := by
  refine ⟨h.counts.trans h'.counts, ?_, fun hgauged => h'.gauged (h.gauged hgauged)⟩
  have hfirst := h.balanced
  have hsecond := h'.balanced
  simp only [Pi.add_apply]
  omega

/-- Only the counters matter to the books, and the gauge is none of them. -/
theorem congr (h : c.Accounts d m) (hn : ∀ k, k ≠ .entries → m k = n k) : c.Accounts d n := by
  refine ⟨fun k hk => ?_, ?_, h.gauged⟩
  · rw [h.counts k hk, hn k hk]
  · have hbalanced := h.balanced
    rwa [hn .packetsQueued nofun, hn .packetsFlushed nofun, hn .pendingDropped nofun] at hbalanced

/-- Setting the gauge needs no entry in the books. -/
theorem gauge (h : c.Accounts d n) : c.Accounts d.gauge n :=
  ⟨h.counts.gauge, h.balanced, fun _ => gauged_gauge d⟩

/-- Counting what has nothing to do with packets that wait. -/
theorem count {k : Counter} (h : c.Accounts d n) (i : Nat) (hentries : .entries ≠ k)
    (hqueued : .packetsQueued ≠ k) (hflushed : .packetsFlushed ≠ k)
    (hdropped : .pendingDropped ≠ k) : c.Accounts (d.count k i) (n + Pi.single k i) := by
  refine ⟨h.counts.count k i, ?_, fun hgauged => (h.gauged hgauged).count hentries⟩
  rw [Pi.add_apply, Pi.add_apply, Pi.add_apply, Pi.single_eq_of_ne hqueued,
    Pi.single_eq_of_ne hflushed, Pi.single_eq_of_ne hdropped]
  exact h.balanced

/-- An entry is changed and put back, and what waits in it is what waited or was queued, less what
was let out or dropped. -/
theorem of_put {x y : Entry α} (hs : c.store.WellFormed) (hfind : c.store.find? a = some x)
    (haddress : y.address = x.address) (hstore : d.store = c.store.put y) (hcounts : c.Counts d n)
    (hgauge : d.metrics.entries = c.metrics.entries ∨ d.Gauged)
    (hbalanced : n .packetsQueued + x.waiting.length =
      n .packetsFlushed + n .pendingDropped + y.waiting.length) : c.Accounts d n := by
  refine ⟨hcounts, ?_, fun hgauged => hgauge.elim (fun hsame => ?_) id⟩
  · have hput := hs.ordered.pending_replace hfind haddress
    rw [pending, pending, hstore]
    omega
  · have hpresent : c.store.find? y.address = some x := by
      rw [haddress, Store.address_of_find? hfind, hfind]
    have hsize : (c.store.put y).size = c.store.size := hs.ordered.size_put_of_some hpresent
    rw [Gauged, hsame, hgauged, size, size, hstore, hsize]

/-- What waited in a claimed entry is let out. -/
theorem of_release {x : Store.Claimed α} {y : Entry α} (hs : c.store.WellFormed)
    (hclaims : c.store.Claims a now x) (haddress : y.address = x.entry.address)
    (hwaiting : y.waiting = []) (mac : Mac) :
    c.Accounts
      ((settle { c with store := x.store.put y } x.evicted).count .packetsFlushed
        x.entry.waiting.length)
      (Pi.single .evictions (if x.evicted.isSome then 1 else 0) +
        handedTally (x.entry.waiting.map (.packet · mac))) := by
  have hsame : y.address = a := haddress.trans hclaims.address_eq
  have housts := hclaims.ousts hs.ordered hsame
  have hkept : c.Counts { c with store := x.store.put y } 0 := .of_metrics_eq rfl
  refine ⟨?_, ?_, fun _ => (gauged_settle _ _).count nofun⟩
  · rw [handedTally_packets]
    simpa using (hkept.settle housts.droppedPending_eq_zero).count .packetsFlushed
      x.entry.waiting.length
  · have hput := hclaims.pending_put hs.ordered hsame
    rw [hwaiting, List.length_nil] at hput
    simp only [pending, store_count, store_settle, handedTally_packets, Pi.add_apply,
      Pi.single_apply, reduceCtorEq, if_false, if_true]
    omega

end Accounts

/-- What an operation on `a` ousts is what it says, and an entry of `a` stays. -/
structure MakesRoom (c : Cache α) (a : Address) (evicted : Option Evicted) (d : Cache α) :
    Prop where
  ousts : c.store.Ousts a evicted d.store
  stays : (c.store.find? a).isSome → (d.store.find? a).isSome

namespace MakesRoom

variable {evicted : Option Evicted}

/-- An operation that leaves the store as it is ousts nothing. -/
theorem of_store_eq (h : d.store = c.store) : c.MakesRoom a none d :=
  ⟨.of_eq fun b _ => by rw [h], fun hpresent => h ▸ hpresent⟩

/-- An operation that claims an entry and writes it back ousts what the claim evicts. -/
theorem of_claims {x : Store.Claimed α} {y : Entry α} (hs : c.store.WellFormed)
    (hclaims : c.store.Claims a now x) (haddress : y.address = x.entry.address)
    (hstore : d.store = x.store.put y) : c.MakesRoom a x.evicted d := by
  have hsame : y.address = a := haddress.trans hclaims.address_eq
  refine ⟨hstore ▸ hclaims.ousts hs.ordered hsame, fun _ => ?_⟩
  rw [hstore, Store.find?_put, if_pos hsame.symm]
  rfl

/-- An operation that rewrites the entry of an address ousts nothing. -/
theorem of_put {x y : Entry α} (hfind : c.store.find? a = some x) (haddress : y.address = x.address)
    (hstore : d.store = c.store.put y) : c.MakesRoom a none d := by
  have hsame : y.address = a := haddress.trans (Store.address_of_find? hfind)
  refine ⟨hstore ▸ .of_put hsame, fun _ => ?_⟩
  rw [hstore, Store.find?_put, if_pos hsame.symm]
  rfl

/-- What leaves the other addresses alone afterwards ousts none of them. -/
theorem trans (h : c.MakesRoom a evicted d)
    (hothers : ∀ b, b ≠ a → e.store.find? b = d.store.find? b)
    (hstays : (e.store.find? a).isSome) : c.MakesRoom a evicted e := by
  refine ⟨⟨fun b hb => ?_, h.ousts.evictable⟩, fun _ => hstays⟩
  rw [hothers b hb]
  exact h.ousts.find?_eq b hb

/-- No room is made for an address that has an entry. -/
theorem eq_none (h : c.MakesRoom a evicted d) (ha : (c.store.find? a).isSome) :
    evicted = none := by
  cases hevicted : evicted with
  | none => rfl
  | some ev =>
    have hnone := (h.ousts.evictable ev hevicted).1
    rw [hnone] at ha
    cases ha

/-- An entry of another address stays if none is ousted. -/
theorem isSome_find? {b : Address} (h : c.MakesRoom a none d)
    (hb : (c.store.find? b).isSome) : (d.store.find? b).isSome := by
  by_cases hba : b = a
  · rw [hba] at hb ⊢
    exact h.stays hb
  · rw [h.ousts.find?_eq b hba]
    exact hb

/-- The entries that go are those that are ousted. -/
theorem countP_gone (h : c.MakesRoom a evicted d) (hs : c.store.Ordered) :
    c.store.addresses.countP (fun b => (d.store.find? b).isNone) =
      if evicted.isSome then 1 else 0 := by
  cases evicted with
  | none =>
    refine List.countP_eq_zero.mpr fun b hb => ?_
    rw [Option.isNone_iff_eq_none]
    exact Option.isSome_iff_ne_none.mp (h.isSome_find? (Store.mem_addresses_iff.mp hb))
  | some ev =>
    obtain ⟨hnone, _, v, hfind, _⟩ := h.ousts.evictable ev rfl
    have hmem : ev.address ∈ c.store.addresses := by
      rw [Store.mem_addresses_iff, hfind]
      rfl
    have hgone : ∀ b ∈ c.store.addresses,
        (d.store.find? b).isNone = true ↔ (b == ev.address) = true := by
      intro b hb
      have hpresent := Store.mem_addresses_iff.mp hb
      have hba : b ≠ a := by
        rintro rfl
        rw [hnone] at hpresent
        cases hpresent
      rw [h.ousts.find?_eq b hba, beq_iff_eq, Option.isNone_iff_eq_none]
      by_cases hev : ev.address = b
      · simp [hev]
      · have hsome := Option.isSome_iff_ne_none.mp hpresent
        simp [hev, hsome, Ne.symm hev]
    rw [List.countP_congr hgone]
    exact List.count_eq_one_of_mem (nodup_addresses hs) hmem

end MakesRoom

/-- Evidence lets out what it releases, and makes room as it says. -/
theorem observe_accounts {o : Outcome α (Option Evicted)} (hs : c.store.WellFormed)
    (h : c.observe now a mac = .ok o) :
    c.Accounts o.cache
        (Pi.single .evictions (if o.answer.isSome then 1 else 0) + handedTally o.sent) ∧
      c.MakesRoom a o.answer o.cache := by
  have hobserved := c.observe_observed now a mac
  rw [h] at hobserved
  cases hobserved with
  | @ignored d _ hleft =>
    have hstore : d.store = c.store := by rcases hleft with rfl | rfl <;> rfl
    refine ⟨?_, .of_store_eq hstore⟩
    rcases hleft with rfl | rfl
    · simpa using Accounts.refl d
    · simpa using (Accounts.refl c).gauge
  | @learned x _ hclaims =>
    exact ⟨.of_release (y := x.entry.bound c.config mac now) hs hclaims rfl rfl mac,
      .of_claims (y := x.entry.bound c.config mac now) hs hclaims rfl (by simp)⟩

/-- A permanent binding lets out what it releases, and makes room as it says. -/
theorem pin_accounts (hs : c.store.WellFormed) :
    ∃ evicted, c.Accounts (c.pin now a mac).cache
        (Pi.single .evictions (if evicted.isSome then 1 else 0) +
          handedTally (c.pin now a mac).sent) ∧
      c.MakesRoom a evicted (c.pin now a mac).cache := by
  have hpinned := c.pin_pinned now a mac
  generalize c.pin now a mac = o at hpinned ⊢
  cases hpinned with
  | refused => exact ⟨none, by simpa using Accounts.refl c, .of_store_eq rfl⟩
  | @pinned x hclaims =>
    exact ⟨x.evicted, .of_release (y := (x.entry.pin mac now).1) hs hclaims rfl rfl mac,
      .of_claims (y := (x.entry.pin mac now).1) hs hclaims rfl (by simp)⟩

/-- A hint counts nothing. -/
theorem confirm_accounts {o : Outcome α Bool} (hs : c.store.WellFormed)
    (h : c.confirm now a = .ok o) : c.Accounts o.cache (handedTally o.sent) := by
  have hhinted := c.confirm_hinted now a
  rw [h] at hhinted
  cases hhinted with
  | ignored => simpa using Accounts.refl c
  | @counted x mac hfind hmac =>
    have hcounts : c.Counts
        (count { c with store := c.store.put (x.bound c.config mac now) } .packetsFlushed 0) 0 := by
      have hkept : c.Counts { c with store := c.store.put (x.bound c.config mac now) } 0 :=
        .of_metrics_eq rfl
      simpa using hkept.count .packetsFlushed 0
    rw [handedTally_nil]
    refine .of_put (y := x.bound c.config mac now) hs hfind rfl rfl hcounts (.inl rfl) ?_
    rw [Entry.waiting_of_mac? hmac]
    rfl

/-- A probe that is handed over is counted. -/
theorem countItem_accounts {item : Outbound α} (hprobe : item.isProbe = true) :
    c.Accounts (c.countItem item) (handedTally [item]) := by
  cases item with
  | packet => cases hprobe
  | broadcastProbe =>
    unfold countItem
    simpa using (Accounts.refl c).count (k := .broadcastProbes) 1 nofun nofun nofun nofun
  | unicastProbe =>
    unfold countItem
    simpa using (Accounts.refl c).count (k := .unicastProbes) 1 nofun nofun nofun nofun

/-- Handing probes over counts them and what their answers let out. The addresses for which all
stations are asked have entries, so no answer makes room. -/
theorem handOver_accounts {items : List (Outbound α)} {o : Outcome α Unit}
    (hs : c.store.WellFormed) (hprobes : ∀ x ∈ items, x.isProbe = true)
    (hopen : ∀ b, .broadcastProbe b ∈ items → (c.store.find? b).isSome)
    (h : handOver r now c items = .ok o) : c.Accounts o.cache (handedTally o.sent) := by
  induction items generalizing c o with
  | nil =>
    cases h
    simpa using Accounts.refl c
  | cons item rest ih =>
    have hcounted := c.countItem_accounts (hprobes item List.mem_cons_self)
    have hrest : ∀ x ∈ rest, x.isProbe = true := fun x hx => hprobes x (List.mem_cons_of_mem _ hx)
    simp only [handOver] at h
    split at h
    · obtain ⟨o', hhand, rfl⟩ := Attempt.sentAfter_eq_ok h
      have hopen' (b : Address) (hb : .broadcastProbe b ∈ rest) :
          ((c.countItem item).store.find? b).isSome := by
        rw [store_countItem]
        exact hopen b (List.mem_cons_of_mem _ hb)
      have hafter := ih (store_countItem c item ▸ hs) hrest hopen' hhand
      have htotal := hcounted.trans hafter
      rw [← handedTally_append] at htotal
      exact htotal
    · next target mac hreply =>
      cases item with
      | packet | unicastProbe => cases hreply
      | broadcastProbe b =>
        have htarget : target = b := by
          obtain ⟨_, _, heq⟩ := Option.map_eq_some_iff.mp hreply
          cases heq
          rfl
        subst htarget
        split at h
        · cases h
        · next learned hobserve =>
          obtain ⟨o', hhand, rfl⟩ := Attempt.sentAfter_eq_ok h
          -- the address has an entry, so its answer makes no room that would go uncounted
          have hpresent := hopen target List.mem_cons_self
          obtain ⟨hlearned, hroom⟩ :=
            observe_accounts (c := c.countItem (.broadcastProbe target)) hs hobserve
          have hnone := hroom.eq_none hpresent
          rw [hnone] at hlearned hroom
          have hopen' (b : Address) (hb : .broadcastProbe b ∈ rest) :
              (learned.cache.store.find? b).isSome :=
            hroom.isSome_find? (hopen b (List.mem_cons_of_mem _ hb))
          have hworks :=
            (observe_learns (c := c.countItem (.broadcastProbe target)) hs hobserve).2
          have hafter := ih (hworks.edits.wellFormed hs) hrest hopen' hhand
          have htotal := (hcounted.trans hlearned).trans hafter
          rw [Option.isSome_none, if_neg Bool.false_ne_true, Pi.single_zero, zero_add,
            ← handedTally_append, ← handedTally_append, List.singleton_append] at htotal
          exact htotal

/-- Nothing waits in the failed entry that makes way for a new one. -/
theorem pending_withoutFailed (hs : c.store.WellFormed) :
    (withoutFailed c.store a).pending = c.store.pending := by
  cases hfind : c.store.find? a with
  | none => rw [withoutFailed_of_none hfind]
  | some x =>
    by_cases hstate : x.state = .failed
    · have hsplit := hs.ordered.pending_eq a
      rw [hfind, waitingIn_some, Entry.waiting_of_state (by rw [hstate]; nofun), List.length_nil,
        Nat.zero_add] at hsplit
      rw [withoutFailed_of_failed hfind hstate, hsplit]
    · rw [withoutFailed_of_found hfind hstate]

/-- The entry that starts a resolution is counted with its packet and what makes room for it. -/
theorem opened_accounts {x : Store.Claimed α} (packet : α) (hs : c.store.WellFormed)
    (hvacant : c.Vacant now a) (hclaims : (withoutFailed c.store a).Claims a now x) :
    c.Accounts
        (settle
          (Cache.count { c with store := x.store.put (c.opening now a packet) }
            (if c.store.queueCapacity = 0 then .packetsRejected else .packetsQueued) 1)
          x.evicted)
        (Pi.single .evictions (if x.evicted.isSome then 1 else 0) +
          Pi.single (if c.store.queueCapacity = 0 then .packetsRejected else .packetsQueued)
            1) := by
  have housts := hvacant.ousts (e := c.opening now a packet) hs hclaims rfl
  have hkept : c.Counts { c with store := x.store.put (c.opening now a packet) } 0 :=
    .of_metrics_eq rfl
  refine ⟨?_, ?_, fun _ => gauged_settle _ _⟩
  · rw [add_comm]
    simpa using (hkept.count _ 1).settle housts.droppedPending_eq_zero
  · have hput := hclaims.pending_put (e := c.opening now a packet)
      (withoutFailed_wellFormed hs).ordered rfl
    have hfresh : x.entry.waiting = [] := by
      rw [hvacant.entry_eq hclaims]
      rfl
    rw [hfresh, List.length_nil, pending_withoutFailed hs, waiting_opening] at hput
    simp only [pending, store_settle, store_count]
    by_cases hcapacity : c.store.queueCapacity = 0
    · simp [hcapacity] at hput ⊢
      omega
    · simp [hcapacity] at hput ⊢
      omega

/-- A packet for an address that is being resolved is counted as queued or rejected. -/
theorem parked_accounts {x : Entry α} {i : Nat} {queue : PendingQueue α} {packet : α}
    (hs : c.store.WellFormed) (hfind : c.store.find? a = some x)
    (hstatus : x.status = .incomplete i queue) :
    let d := gauge (Cache.count
      { c with
        store := c.store.put
          { x with usedAt := now, status := .incomplete i (queue.offer packet).1 } }
      (if queue.isFull then .packetsRejected else .packetsQueued) 1)
    c.Accounts d (Pi.single .evictions 0 +
        placedTally (if queue.isFull then .rejectedFull else .queued) ([] : List (Outbound α))) ∧
      c.MakesRoom a none d := by
  generalize hy : ({ x with usedAt := now, status := .incomplete i (queue.offer packet).1 } :
    Entry α) = y
  intro d
  have haddress : y.address = x.address := by rw [← hy]
  have hbefore : x.waiting = queue.packets := by
    rw [Entry.waiting, hstatus]
    rfl
  have hafter : y.waiting = if queue.isFull then queue.packets else queue.packets ++ [packet] := by
    rw [← hy]
    change (queue.offer packet).1.packets = _
    rw [PendingQueue.packets_offer]
    simp only [PendingQueue.isFull_iff]
  have hkept : c.Counts { c with store := c.store.put y } 0 := .of_metrics_eq rfl
  rw [placedTally_offered, handedTally_nil, Pi.single_zero, zero_add, add_zero]
  refine ⟨.of_put hs hfind haddress rfl ?_ (.inr (gauged_gauge _)) ?_, .of_put hfind haddress rfl⟩
  · simpa [d] using (hkept.count _ 1).gauge
  · rw [hbefore, hafter]
    by_cases hfull : queue.isFull = true
    · simp [hfull]
    · simp [hfull, Nat.add_comm]

/-- The probe of a new entry is counted with what its answer lets out. Whoever answers it, the room
was made for that entry. -/
theorem handOver_opening_accounts {x : Store.Claimed α} {packet : α} {o : Outcome α Unit}
    (hs : c.store.WellFormed) (hvacant : c.Vacant now a)
    (hclaims : (withoutFailed c.store a).Claims a now x)
    (hstore : d.store = x.store.put (c.opening now a packet))
    (h : handOver r now d [.broadcastProbe a] = .ok o) :
    d.Accounts o.cache (handedTally o.sent) ∧ c.MakesRoom a x.evicted o.cache := by
  have hd : d.store.WellFormed := by
    rw [hstore]
    exact (hvacant.edits hs hclaims rfl rfl).wellFormed hs
  have hfind : d.store.find? a = some (c.opening now a packet) := by
    rw [hstore, Store.find?_put]
    exact if_pos rfl
  have hroom : c.MakesRoom a x.evicted d := by
    refine ⟨hstore ▸ hvacant.ousts hs hclaims rfl, fun _ => ?_⟩
    rw [hfind]
    rfl
  constructor
  · refine handOver_accounts hd (by simp [Outbound.isProbe]) (fun b hb => ?_) h
    cases List.mem_singleton.mp hb
    rw [hfind]
    rfl
  · obtain ⟨hhanded, _, _, hothers⟩ := handOver_probe hd rfl (fun _ => ⟨_, hfind, rfl, rfl⟩) h
    refine hroom.trans hothers ?_
    rw [(hhanded.eq_answered hfind).1]
    rfl

/-- A packet is counted as it was placed, with what its probe let out and what made room. -/
theorem resolve_accounts {packet : α} {o : Outcome α (Resolution × Option Evicted)}
    (hs : c.store.WellFormed) (h : c.resolve r now a packet = .ok o) :
    c.Accounts o.cache (Pi.single .evictions (if o.answer.2.isSome then 1 else 0) +
        placedTally o.answer.1 o.sent) ∧
      c.MakesRoom a o.answer.2 o.cache := by
  have hplaced := resolve_placed hs r now a packet
  rw [h] at hplaced
  generalize hattempt : (.ok o : Attempt α (Resolution × Option Evicted)) = attempt at hplaced
  cases hplaced with
  | refused =>
    cases hattempt
    refine ⟨?_, .of_store_eq rfl⟩
    simpa [placedTally] using
      (Accounts.refl c).count (k := .resolvesDropped) 1 nofun nofun nofun nofun
  | noRoom =>
    cases hattempt
    refine ⟨?_, .of_store_eq rfl⟩
    simpa [placedTally] using
      ((Accounts.refl c).count (k := .resolvesDropped) 1 nofun nofun nofun nofun).gauge
  | @opened x hvacant hclaims =>
    obtain ⟨o', hhand, rfl⟩ := Attempt.mapAnswer_eq_ok hattempt.symm
    have hopened := opened_accounts packet hs hvacant hclaims
    generalize hd : settle _ _ = d at hhand hopened
    have hstore : d.store = x.store.put (c.opening now a packet) := by simp [← hd]
    obtain ⟨hhanded, hroom⟩ := handOver_opening_accounts hs hvacant hclaims hstore hhand
    refine ⟨?_, hroom⟩
    have htotal := hopened.trans hhanded
    rw [add_assoc, ← placedTally_offered] at htotal
    exact htotal
  | unopened => cases hattempt
  | unused => cases hattempt
  | @passed x mac hfind hmac =>
    cases hattempt
    have hkept : c.Counts { c with store := c.store.put (x.used c.config now) } 0 :=
      .of_metrics_eq rfl
    refine ⟨?_, .of_put hfind Entry.address_used rfl⟩
    have hnone : placedTally (.resolved mac) [(.packet packet mac : Outbound α)] = 0 := by
      funext k
      cases k <;> rfl
    rw [hnone]
    refine .of_put hs hfind Entry.address_used rfl (by simpa using hkept.gauge)
      (.inr (gauged_gauge _)) ?_
    rw [Entry.waiting_used]
    simp
  | parked hfind hstatus =>
    cases hattempt
    exact parked_accounts hs hfind hstatus

/-- A finished sweep sets the gauge. -/
theorem gauged_swept (c : Cache α) (t : Sweep α) : (c.swept t).Gauged := by
  have hgauged : (gauge { c with store := t.remaining }).Gauged := gauged_gauge _
  unfold swept
  exact Gauged.count (hgauged.count nofun) nofun

/-- A finished sweep counts the entries it gave up and the packets it dropped. -/
theorem swept_accounts {t : Sweep α} {seen : List (Address × Entry.Aged α)}
    (hs : c.store.WellFormed) (hsees : Sweep.Sees c.config now { store := c.store } order t seen)
    (hvisit : Sweep.visitAll c.config now { store := c.store } order = .ok t) :
    c.Accounts (c.swept t) (Pi.single .resolutionsFailed t.failed.length +
      Pi.single .pendingDropped t.droppedPending) := by
  have hkept : c.Counts { c with store := t.remaining } 0 := .of_metrics_eq rfl
  refine ⟨?_, ?_, fun _ => gauged_swept c t⟩
  · unfold swept
    simpa using (hkept.gauge.count .resolutionsFailed t.failed.length).count .pendingDropped
      t.droppedPending
  · have hpending := hsees.pending_eq hs.ordered hvisit
    change t.remaining.pending + t.droppedPending = c.pending at hpending
    change _ = _ + t.remaining.pending
    simp
    omega

/-- A tick counts the probes it sends, what their answers let out, the entries it gave up and the
packets it dropped, and sets the gauge. -/
theorem tick_accounts {o : Outcome α TickReport} (hc : c.Coherent)
    (horder : order.Perm c.store.addresses) (h : c.tickInOrder r now order = .ok o) :
    c.Accounts o.cache (Pi.single .resolutionsFailed o.answer.failed.length +
      Pi.single .pendingDropped o.answer.droppedPending + handedTally o.sent) ∧
    o.cache.Gauged := by
  have hs := hc.wellFormed
  have hnodup := nodup_order hs.ordered horder
  obtain ⟨t, seen, o', hvisit, hsees, hhand, hcache, hanswer, hsent⟩ := sweeps_of_tick hnodup h
  rw [hcache, hanswer, hsent]
  have hhanded : (c.swept t).Accounts o'.cache (handedTally o'.sent) :=
    handOver_accounts ((edits_swept hsees).wellFormed hs) hsees.isProbe
      (fun _ hitem => hsees.asked hnodup hc.dynamic hitem) hhand
  exact ⟨(swept_accounts hs hsees hvisit).trans hhanded, hhanded.gauged (gauged_swept c t)⟩

/-- The report of a tick lists each address once that failed in it. -/
theorem failed_of_tick {o : Outcome α TickReport} (hc : c.Coherent)
    (horder : order.Perm c.store.addresses) (h : c.tickInOrder r now order = .ok o) :
    o.answer.failed.Nodup ∧ ∀ b, b ∈ o.answer.failed ↔
      b ∈ c.store.addresses ∧ c.state? b ≠ some .failed ∧ o.cache.state? b = some .failed := by
  have hnodup := nodup_order hc.wellFormed.ordered horder
  obtain ⟨t, seen, _, _, hsees, _, _, hanswer, _⟩ := sweeps_of_tick hnodup h
  refine ⟨?_, fun b => ?_⟩
  · rw [hanswer]
    change t.failed.Nodup
    rw [hsees.failed_eq, List.nil_append]
    exact (hsees.nodup hnodup).sublist (List.filter_sublist.map _)
  · obtain ⟨_, _, sent, _, hages⟩ :=
      tickInOrder_ages hc.wellFormed hc.dynamic horder h
    have hage := hages b
    unfold state?
    generalize o.cache.store.find? b = after at hage ⊢
    generalize share b sent = items at hage
    cases hage with
    | absent hfind hnotin => simp [hnotin]
    | aged hfind hpasses hiff =>
      have hmem : b ∈ c.store.addresses := by
        rw [Store.mem_addresses_iff, hfind]
        rfl
      rw [hiff, hpasses.isFailure_iff r, hfind]
      simp [hmem]

/-- The report of a tick lists as many addresses as failed in it. -/
theorem length_failed {o : Outcome α TickReport} (hc : c.Coherent) (h : c.tick r now = .ok o) :
    o.answer.failed.length = c.store.addresses.countP fun b =>
      c.state? b ≠ some .failed ∧ o.cache.state? b = some .failed := by
  obtain ⟨hfailed, hmem⟩ := failed_of_tick hc (.refl _) h
  have hnodup := nodup_addresses hc.wellFormed.ordered
  -- both lists are without repetition, so it is enough that they have the same members
  rw [List.countP_eq_length_filter]
  refine List.Perm.length_eq
    ((List.perm_ext_iff_of_nodup hfailed (hnodup.filter _)).mpr fun b => ?_)
  rw [hmem, List.mem_filter, decide_eq_true_eq]

/-- Removing an entry drops what waits in it. -/
theorem invalidate_accounts (hs : c.store.WellFormed) :
    c.Accounts (c.invalidate a).cache
      (Pi.single .pendingDropped ((c.invalidate a).answer.getD 0)) := by
  have hsplit := hs.ordered.pending_eq a
  have hkept : c.Counts (gauge { c with store := c.store.erase a }) 0 :=
    (Counts.of_metrics_eq rfl).gauge
  have hgauged : (gauge { c with store := c.store.erase a }).Gauged := gauged_gauge _
  unfold invalidate
  dsimp only
  cases hfind : c.store.find? a with
  | none =>
    rw [hfind, waitingIn_none, List.length_nil] at hsplit
    refine ⟨by simpa using hkept, ?_, fun _ => hgauged⟩
    simpa [pending] using hsplit
  | some x =>
    rw [hfind, waitingIn_some] at hsplit
    refine ⟨by simpa using hkept.count .pendingDropped x.waiting.length, ?_,
      fun _ => hgauged.count nofun⟩
    simpa [pending] using hsplit

/-- Removing all entries drops everything that waits. -/
theorem invalidateAll_accounts (c : Cache α) :
    c.Accounts c.invalidateAll.cache (Pi.single .pendingDropped c.invalidateAll.answer) := by
  have hkept : c.Counts (gauge { c with store := c.store.clear }) 0 :=
    (Counts.of_metrics_eq rfl).gauge
  have hgauged : (gauge { c with store := c.store.clear }).Gauged := gauged_gauge _
  have hcounts := hkept.count .pendingDropped c.invalidateAll.answer
  rw [zero_add] at hcounts
  refine ⟨hcounts, ?_, fun _ => hgauged.count nofun⟩
  simp [pending, Store.pending, invalidateAll, Store.clear, List.length_flatMap]

end Cache

end Neighbor
