import Neighbor.Proofs.Generation
import Neighbor.Proofs.Ledger

/-!
# What an operation on one address depends on

Most operations are about the one address that their caller names. Where there is room for its
entry, such an operation depends on the configuration and on what the cache holds for that address,
and on nothing else: it does the same there, and sends and answers the same, in every cache that
shows the same (`Cache.determined`). All that comes from outside is the generation of a new entry,
and the number that the gauge is set to.
-/

namespace Neighbor

variable {α : Type}

/-- The address that the caller of an operation names. -/
def Call.address? : Call α → Option Address
  | .resolve a _ => some a
  | .observe a _ => some a
  | .confirm a => some a
  | .pin a _ => some a
  | .invalidate a => some a
  | .tick | .invalidateAll | .receive _ _ => none

/-- The entry with another generation. -/
def Entry.numbered (e : Entry α) (n : Nat) : Entry α := { e with generation := n }

/-- What an operation does at the address that it names. -/
structure Deed (α : Type) where
  answer : Answer
  sent : List (Outbound α) := []
  /-- The entry that it leaves, but for the generation of a new one. -/
  entry : Option (Entry α)
  /-- Whether the entry is new. -/
  isNew : Bool := false
  /-- Whether the gauge is set. -/
  isGauged : Bool := true

/-- The entry that is left if a new one takes the generation `n`. -/
def Deed.entryAt (d : Deed α) (n : Nat) : Option (Entry α) :=
  if d.isNew then d.entry.map (·.numbered n) else d.entry

/-- What an answer and the items that were handed over say of the counters. -/
def Answer.tally (answer : Answer) (sent : List (Outbound α)) : Tally :=
  match answer with
  | .resolution placed evicted =>
    Pi.single .evictions (if evicted.isSome then 1 else 0) + placedTally placed sent
  | .observed evicted | .pinned (.ok evicted) =>
    Pi.single .evictions (if evicted.isSome then 1 else 0) + handedTally sent
  | .invalidated dropped => Pi.single .pendingDropped (dropped.getD 0)
  | _ => handedTally sent

namespace Cache

variable {c k : Cache α} {r : Responder} {now : Nat} {a b : Address} {mac : Mac} {packet : α}
  {call : Call α} {cfg : Config} {queueCapacity : Nat} {found : Option (Entry α)}
  {o : Outcome α Answer}

/-- An operation works on the address that it names. -/
theorem perform_worksOn (hs : c.store.WellFormed) (hcall : call.address? = some a)
    (h : c.perform r now call = .ok o) : c.WorksOn a o.cache := by
  cases call with
  | resolve b packet =>
    cases hcall
    obtain ⟨o', hresolve, rfl⟩ := Attempt.mapAnswer_eq_ok h
    exact (resolve_resolves hs hresolve).2
  | observe b mac =>
    cases hcall
    obtain ⟨o', hobserve, rfl⟩ := Attempt.mapAnswer_eq_ok h
    exact (observe_learns hs hobserve).2
  | confirm b =>
    cases hcall
    obtain ⟨o', hconfirm, rfl⟩ := Attempt.mapAnswer_eq_ok h
    exact (confirm_hints hconfirm).2.2
  | pin b mac =>
    cases hcall
    cases h
    exact (pin_pins hs).2
  | invalidate b =>
    cases hcall
    cases h
    refine ⟨config_invalidate, ?_, fun b hb => .inl ?_⟩
    · change Store.Edits c.store (c.invalidate a).cache.store
      rw [store_invalidate]
      exact .single (.erase a)
    · change (c.invalidate a).cache.store.find? b = _
      rw [store_invalidate, Store.find?_erase, if_neg hb]
  | tick | invalidateAll | receive => cases hcall

/-- An operation on one address counts what its answer and its items say. -/
theorem perform_counts (hs : c.store.WellFormed) (hcall : call.address? = some a)
    (h : c.perform r now call = .ok o) : c.Counts o.cache (o.answer.tally o.sent) := by
  cases call with
  | resolve b packet =>
    obtain ⟨o', hresolve, rfl⟩ := Attempt.mapAnswer_eq_ok h
    exact (resolve_accounts hs hresolve).1.counts
  | observe b mac =>
    obtain ⟨o', hobserve, rfl⟩ := Attempt.mapAnswer_eq_ok h
    exact (observe_accounts hs hobserve).1.counts
  | confirm b =>
    obtain ⟨o', hconfirm, rfl⟩ := Attempt.mapAnswer_eq_ok h
    exact (confirm_accounts hs hconfirm).counts
  | pin b mac =>
    cases h
    change c.Counts (c.pin now b mac).cache
      ((Answer.pinned (c.pin now b mac).answer).tally (c.pin now b mac).sent)
    have hpinned := c.pin_pinned now b mac
    generalize c.pin now b mac = o at hpinned ⊢
    cases hpinned with
    | refused =>
      change c.Counts c (handedTally [])
      rw [handedTally_nil]
      exact .of_metrics_eq rfl
    | @pinned x hclaims =>
      exact (Accounts.of_release (y := (x.entry.pin mac now).1) hs hclaims rfl rfl mac).counts
  | invalidate b =>
    cases h
    exact (c.invalidate_accounts hs).counts
  | tick | invalidateAll | receive => cases hcall

/-- What a cache holds for an address, and that it has room for an entry if it holds none. -/
structure Shows (c : Cache α) (cfg : Config) (queueCapacity : Nat) (a : Address)
    (found : Option (Entry α)) : Prop where
  wellFormed : c.store.WellFormed
  config_eq : c.config = cfg
  queueCapacity_eq : c.store.queueCapacity = queueCapacity
  find?_eq : c.store.find? a = found
  room : found = none → c.store.size < c.store.capacity

/-- Between `c` and `k`, an operation did `d` at the address `a`. -/
structure Does (c : Cache α) (a : Address) (d : Deed α) (k : Cache α) : Prop where
  find?_eq : k.store.find? a = d.entryAt c.store.nextGeneration
  nextGeneration_eq : k.store.nextGeneration = c.store.nextGeneration + d.isNew.toNat
  gauged : d.isGauged = true → k.Gauged
  ungauged : d.isGauged = false → k.metrics.entries = c.metrics.entries ∧ k.size = c.size

/-- In all caches that show the same for `a`, an operation does the same there, or in all of them it
stops. -/
def Determined (cfg : Config) (queueCapacity : Nat) (a : Address) (found : Option (Entry α))
    (op : Cache α → Attempt α Answer) : Prop :=
  (∃ d, ∀ c, c.Shows cfg queueCapacity a found →
    ∃ k, op c = .ok { cache := k, answer := d.answer, sent := d.sent } ∧ c.Does a d k) ∨
    ∀ c, c.Shows cfg queueCapacity a found → ∃ h, op c = .error h

/-- The entry that is claimed for an address that shows `found`, but for the generation of a new
one. -/
def claimedFor (queueCapacity : Nat) (a : Address) (now : Nat) (found : Option (Entry α)) :
    Entry α :=
  found.getD (.fresh a 0 queueCapacity now)

namespace Shows

/-- With room for it, an entry is found or made, and nothing is evicted. -/
theorem exists_claim (h : c.Shows cfg queueCapacity a found) (now : Nat) :
    ∃ x, c.store.claim a now = .ok x ∧ c.store.Claims a now x ∧ x.evicted = none := by
  cases hfound : found with
  | none =>
    have hfind := h.find?_eq.trans hfound
    have hroom := h.room hfound
    exact ⟨_, Store.claim_of_room hfind hroom, .roomy hfind hroom, rfl⟩
  | some e =>
    have hfind := h.find?_eq.trans hfound
    exact ⟨_, Store.claim_of_some hfind, .found hfind, rfl⟩

/-- The entry that is claimed is `claimedFor`, a new one but for its generation. -/
theorem entry_cases {x : Store.Claimed α} (h : c.Shows cfg queueCapacity a found)
    (hclaims : c.store.Claims a now x) :
    found.isNone = false ∧ x.entry = claimedFor queueCapacity a now found ∨
      found.isNone = true ∧
        x.entry = (claimedFor queueCapacity a now found).numbered c.store.nextGeneration := by
  rw [hclaims.entry_eq]
  cases hfound : found with
  | none =>
    refine .inr ⟨rfl, ?_⟩
    rw [Store.entryFor_of_none (h.find?_eq.trans hfound), h.queueCapacity_eq]
    rfl
  | some e => exact .inl ⟨rfl, Store.entryFor_of_some (h.find?_eq.trans hfound)⟩

/-- What does not depend on the generation is the same of the claimed entry in all caches. -/
theorem congr_entry {x : Store.Claimed α} {β : Type} (h : c.Shows cfg queueCapacity a found)
    (hclaims : c.store.Claims a now x) (f : Entry α → β) (hf : ∀ e n, f (e.numbered n) = f e) :
    f x.entry = f (claimedFor queueCapacity a now found) := by
  rcases h.entry_cases hclaims with ⟨_, hentry⟩ | ⟨_, hentry⟩
  · rw [hentry]
  · rw [hentry, hf]

/-- An operation that changes the claimed entry, whatever its generation, and sets the gauge. -/
theorem does_claimed {x : Store.Claimed α} {d : Deed α} {f : Entry α → Entry α}
    (h : c.Shows cfg queueCapacity a found) (hclaims : c.store.Claims a now x)
    (hf : ∀ e n, f (e.numbered n) = (f e).numbered n) (haddress : (f x.entry).address = a)
    (hentry : d.entry = some (f (claimedFor queueCapacity a now found)))
    (hnew : d.isNew = found.isNone) (hset : d.isGauged = true)
    (hstore : k.store = x.store.put (f x.entry)) (hgauged : k.Gauged) : c.Does a d k := by
  refine ⟨?_, ?_, fun _ => hgauged, fun hnot => ?_⟩
  · rw [hstore, Store.find?_put_of_address _ haddress, Deed.entryAt, hnew, hentry]
    rcases h.entry_cases hclaims with ⟨hfound, heq⟩ | ⟨hfound, heq⟩
    · rw [hfound, heq]
      rfl
    · rw [hfound, heq, hf]
      rfl
  · rw [hstore, hnew, ← h.find?_eq, ← hclaims.created_eq]
    cases hclaims with
    | found | roomy | evicting => rfl
  · cases hset.symm.trans hnot

/-- An operation that changes the entry that is there. -/
theorem does_put {e e' : Entry α} {d : Deed α} (h : c.Shows cfg queueCapacity a (some e))
    (hentry : d.entry = some e') (haddress : e'.address = e.address) (hnew : d.isNew = false)
    (hstore : k.store = c.store.put e') (hgauged : d.isGauged = true → k.Gauged)
    (hungauged : d.isGauged = false → k.metrics.entries = c.metrics.entries) : c.Does a d k := by
  have hsame : e'.address = a := haddress.trans (Store.address_of_find? h.find?_eq)
  refine ⟨?_, ?_, hgauged, fun hnot => ⟨hungauged hnot, ?_⟩⟩
  · rw [hstore, Store.find?_put_of_address _ hsame, Deed.entryAt, hnew, hentry]
    rfl
  · rw [hstore, hnew]
    rfl
  · rw [size, hstore]
    exact h.wellFormed.ordered.size_put_of_some (hsame ▸ h.find?_eq)

/-- An operation that leaves the store alone. -/
theorem does_nothing {d : Deed α} (h : c.Shows cfg queueCapacity a found) (hentry : d.entry = found)
    (hnew : d.isNew = false) (hstore : k.store = c.store) (hgauged : d.isGauged = true → k.Gauged)
    (hungauged : d.isGauged = false → k.metrics.entries = c.metrics.entries) : c.Does a d k := by
  refine ⟨?_, ?_, hgauged, fun hnot => ⟨hungauged hnot, by rw [size, hstore, size]⟩⟩
  · rw [hstore, Deed.entryAt, hnew, hentry]
    exact h.find?_eq
  · rw [hstore, hnew]
    rfl

end Shows

/-- A hint does the same in all caches that show the same. -/
theorem determined_confirm :
    Determined cfg queueCapacity a found fun c => c.perform r now (.confirm a) := by
  by_cases h : ∃ e mac, found = some e ∧ e.mac? = some mac ∧ e.accepts now = true
  · obtain ⟨e, mac, rfl, hmac, haccepts⟩ := h
    have hconfirm {c : Cache α} (hc : c.Shows cfg queueCapacity a (some e)) :=
      hc.config_eq ▸ confirm_of_accepts hc.find?_eq hmac haccepts
    by_cases hclock : now + cfg.reachable.nanos < Clock.limit
    · refine .inl ⟨{ answer := .confirmed true
                     entry := some (e.bound cfg mac now)
                     isGauged := false }, fun c hc => ?_⟩
      have hok := hconfirm hc
      rw [if_pos hclock] at hok
      exact ⟨_, congrArg (Attempt.mapAnswer Answer.confirmed) hok,
        hc.does_put rfl rfl rfl rfl nofun fun _ => rfl⟩
    · refine .inr fun c hc => ?_
      have hstops := hconfirm hc
      rw [if_neg hclock] at hstops
      exact ⟨_, congrArg (Attempt.mapAnswer Answer.confirmed) hstops⟩
  · refine .inl ⟨{ answer := .confirmed false, entry := found, isGauged := false }, fun c hc => ?_⟩
    have hok := confirm_of_not_accepts (hc.find?_eq.symm ▸ h)
    exact ⟨_, congrArg (Attempt.mapAnswer Answer.confirmed) hok,
      hc.does_nothing rfl rfl rfl nofun fun _ => rfl⟩

/-- Evidence does the same in all caches that show the same. -/
theorem determined_observe :
    Determined cfg queueCapacity a found fun c => c.perform r now (.observe a mac) := by
  by_cases husable : isUsableBinding a mac = true
  · have haccepts_eq {c : Cache α} {x : Store.Claimed α} (hc : c.Shows cfg queueCapacity a found)
        (hclaims : c.store.Claims a now x) :
        x.entry.accepts now = (claimedFor queueCapacity a now found).accepts now :=
      hc.congr_entry hclaims (·.accepts now) fun _ _ => rfl
    by_cases haccepts : (claimedFor queueCapacity a now found).accepts now = true
    · by_cases hclock : now + cfg.reachable.nanos < Clock.limit
      · refine .inl ⟨{ answer := .observed none
                       sent := (claimedFor queueCapacity a now found).waiting.map (.packet · mac)
                       entry := some ((claimedFor queueCapacity a now found).bound cfg mac now)
                       isNew := found.isNone }, fun c hc => ?_⟩
        obtain ⟨x, hclaim, hclaims, hnone⟩ := hc.exists_claim now
        have hok := observe_of_claim husable hclaim
        rw [haccepts_eq hc hclaims, if_pos haccepts, hc.config_eq, if_pos hclock, hnone,
          hc.congr_entry hclaims (·.waiting) fun _ _ => rfl] at hok
        refine ⟨_, congrArg (Attempt.mapAnswer Answer.observed) hok,
          hc.does_claimed (f := (·.bound cfg mac now)) hclaims (fun _ _ => rfl)
            hclaims.address_eq rfl rfl rfl (by simp) ((gauged_settle _ _).count nofun)⟩
      · refine .inr fun c hc => ?_
        obtain ⟨x, hclaim, hclaims, hnone⟩ := hc.exists_claim now
        have hstops := observe_of_claim husable hclaim
        rw [haccepts_eq hc hclaims, if_pos haccepts, hc.config_eq, if_neg hclock] at hstops
        exact ⟨_, congrArg (Attempt.mapAnswer Answer.observed) hstops⟩
    · refine .inl ⟨{ answer := .observed none, entry := found }, fun c hc => ?_⟩
      obtain ⟨x, hclaim, hclaims, hnone⟩ := hc.exists_claim now
      have hok := observe_of_claim husable hclaim
      rw [haccepts_eq hc hclaims, if_neg haccepts, hnone] at hok
      refine ⟨_, congrArg (Attempt.mapAnswer Answer.observed) hok,
        hc.does_nothing rfl rfl ?_ (fun _ => gauged_settle _ _) nofun⟩
      -- a new entry accepts anything, so the entry was there
      cases hclaims with
      | found => rfl
      | roomy hfind | evicting hfind =>
        cases hc.find?_eq.symm.trans hfind
        exact absurd rfl haccepts
  · refine .inl ⟨{ answer := .observed none, entry := found, isGauged := false }, fun c hc => ?_⟩
    have hok : c.observe now a mac = .ok { cache := c, answer := none } := if_neg husable
    exact ⟨_, congrArg (Attempt.mapAnswer Answer.observed) hok,
      hc.does_nothing rfl rfl rfl nofun fun _ => rfl⟩

/-- A permanent binding does the same in all caches that show the same. -/
theorem determined_pin :
    Determined cfg queueCapacity a found fun c => c.perform r now (.pin a mac) := by
  refine .inl ⟨{ answer := .pinned (.ok none)
                 sent := (claimedFor queueCapacity a now found).waiting.map (.packet · mac)
                 entry := some ((claimedFor queueCapacity a now found).pin mac now).1
                 isNew := found.isNone }, fun c hc => ?_⟩
  obtain ⟨x, hclaim, hclaims, hnone⟩ := hc.exists_claim now
  have hpin : c.pin now a mac = _ := pin_of_claim hclaim
  rw [hnone, hc.congr_entry hclaims (·.waiting) fun _ _ => rfl] at hpin
  have hok : c.perform r now (.pin a mac) = .ok ((c.pin now a mac).map .pinned) := rfl
  rw [hpin] at hok
  exact ⟨_, hok, hc.does_claimed (f := fun e => (e.pin mac now).1) hclaims (fun _ _ => rfl)
    hclaims.address_eq rfl rfl rfl (by simp) ((gauged_settle _ _).count nofun)⟩

/-- A removal does the same in all caches that show the same. -/
theorem determined_invalidate :
    Determined cfg queueCapacity a found fun c => c.perform r now (.invalidate a) := by
  refine .inl ⟨{ answer := .invalidated (found.map (·.waiting.length)), entry := none },
    fun c hc => ⟨(c.invalidate a).cache, ?_, ?_, ?_, fun _ => ?_, nofun⟩⟩
  · have hinvalidate : c.invalidate a =
        { cache := (c.invalidate a).cache, answer := found.map (·.waiting.length) } := by
      unfold invalidate
      simp only [hc.find?_eq]
      cases found <;> rfl
    exact congrArg (fun o => (.ok (o.map Answer.invalidated) : Attempt α Answer)) hinvalidate
  · rw [store_invalidate, Store.find?_erase, if_pos rfl]
    rfl
  · rw [store_invalidate]
    rfl
  · have hgauged : (gauge { c with store := c.store.erase a }).Gauged := gauged_gauge _
    unfold invalidate
    dsimp only
    split
    · exact hgauged
    · exact hgauged.count nofun

/-- A new entry is answered in the same way whatever its generation. -/
theorem answered_numbered (e : Entry α) (n : Nat) :
    (e.numbered n).answered cfg r now =
      ((e.answered cfg r now).1.numbered n, (e.answered cfg r now).2) := by
  have haddress : (e.numbered n).address = e.address := rfl
  unfold Entry.answered
  rw [haddress]
  cases r.heard? e.address <;> rfl

/-- A probe goes out, and its answer is learned if the clock holds the end of the binding. -/
theorem handOver_probe_cases {e : Entry α} (hfind : c.store.find? a = some e)
    (hkind : e.kind = .dynamic) (hmac : e.mac? = none) :
    ((∀ mac, r.heard? a = some mac → now + c.config.reachable.nanos < Clock.limit) →
      ∃ k sent, handOver r now c [.broadcastProbe a] = .ok { cache := k, answer := (), sent }) ∧
    ∀ mac, r.heard? a = some mac → Clock.limit ≤ now + c.config.reachable.nanos →
      ∃ h, handOver r now c [.broadcastProbe a] = .error h := by
  cases hr : r a with
  | none =>
    have hreply : r.reply? (.broadcastProbe a : Outbound α) = none := by
      rw [Responder.reply?, hr]
      rfl
    refine ⟨fun _ => ?_, fun mac hheard => ?_⟩
    · simp only [handOver, hreply]
      exact ⟨_, _, rfl⟩
    · simp [Responder.heard?, hr] at hheard
  | some mac =>
    have hreply : r.reply? (.broadcastProbe a : Outbound α) = some (a, mac) := by
      rw [Responder.reply?, hr]
      rfl
    have hlearns : (c.countItem (.broadcastProbe a)).learns now a mac = isUsableBinding a mac := by
      simp [learns, Store.admits, hfind, Store.entryFor_of_some hfind, Entry.accepts, hkind, hmac]
    have hheard : r.heard? a = if isUsableBinding a mac then some mac else none := by
      rw [Responder.heard?, hr, Option.filter]
    simp only [handOver, hreply]
    have hobserved := (c.countItem (.broadcastProbe a)).observe_observed now a mac
    generalize (c.countItem (.broadcastProbe a)).observe now a mac = attempt at hobserved ⊢
    rw [hheard]
    cases hobserved with
    | ignored hignored =>
      rw [hlearns] at hignored
      refine ⟨fun _ => ⟨_, _, rfl⟩, fun mac' hheard' => ?_⟩
      rw [hignored] at hheard'
      cases hheard'
    | learned _ _ hclock =>
      exact ⟨fun _ => ⟨_, _, rfl⟩, fun _ _ hlimit => absurd hclock (Nat.not_lt.mpr hlimit)⟩
    | halted hlearned _ hlimit =>
      rw [hlearns] at hlearned
      rw [hlearned]
      exact ⟨fun hclock => absurd (hclock mac rfl) (Nat.not_lt.mpr hlimit), fun _ _ _ => ⟨_, rfl⟩⟩

/-- The entry that starts a resolution, but for its generation. -/
def openedFor (cfg : Config) (queueCapacity : Nat) (a : Address) (now : Nat) (packet : α) :
    Entry α :=
  .opened cfg a 0 now ((PendingQueue.empty queueCapacity).offer packet).1

/-- What a packet does at a vacant address. -/
def openingDeed (cfg : Config) (queueCapacity : Nat) (r : Responder) (a : Address) (now : Nat)
    (packet : α) : Deed α where
  answer := .resolution (if queueCapacity = 0 then .rejectedFull else .queued) none
  sent := .broadcastProbe a :: ((openedFor cfg queueCapacity a now packet).answered cfg r now).2
  entry := some ((openedFor cfg queueCapacity a now packet).answered cfg r now).1
  isNew := true

namespace Shows

/-- The entry that begins a resolution depends on the cache by its generation only. -/
theorem opening_eq (h : c.Shows cfg queueCapacity a found) :
    c.opening now a packet =
      (openedFor cfg queueCapacity a now packet).numbered c.store.nextGeneration := by
  rw [opening, h.config_eq, h.queueCapacity_eq]
  rfl

/-- A packet for a vacant address makes an entry, and nothing is evicted. -/
theorem exists_claim_of_vacant (h : c.Shows cfg queueCapacity a found) (hvacant : c.Vacant now a) :
    ∃ x, (withoutFailed c.store a).claim a now = .ok x ∧
      (withoutFailed c.store a).Claims a now x ∧ x.evicted = none ∧
      x.store.nextGeneration = c.store.nextGeneration + 1 := by
  have hnone := hvacant.find?_withoutFailed
  have hroom : (withoutFailed c.store a).size < (withoutFailed c.store a).capacity := by
    cases hfound : found with
    | none =>
      rw [withoutFailed_of_none (h.find?_eq.trans hfound)]
      exact h.room hfound
    | some e =>
      have hfind := h.find?_eq.trans hfound
      rw [withoutFailed_of_failed hfind (hvacant e hfind).1]
      exact Nat.lt_of_lt_of_le (Store.size_erase_lt hfind) h.wellFormed.size_le
  exact ⟨_, Store.claim_of_room hnone hroom, .roomy hnone hroom, rfl,
    congrArg (· + 1) nextGeneration_withoutFailed⟩

/-- The probe of a new entry goes out, and its answer changes the entry. -/
theorem does_opening {x : Store.Claimed α} {c' : Cache α} {sent : List (Outbound α)}
    (h : c.Shows cfg queueCapacity a found) (hvacant : c.Vacant now a)
    (hclaims : (withoutFailed c.store a).Claims a now x)
    (hnext : x.store.nextGeneration = c.store.nextGeneration + 1) (hconfig : c'.config = cfg)
    (hstore : c'.store = x.store.put (c.opening now a packet)) (hgauged : c'.Gauged)
    (hhand : handOver r now c' [.broadcastProbe a] = .ok { cache := k, answer := (), sent }) :
    sent = (openingDeed cfg queueCapacity r a now packet).sent ∧
      c.Does a (openingDeed cfg queueCapacity r a now packet) k := by
  have hfind : c'.store.find? a = some (c.opening now a packet) := by
    rw [hstore]
    exact Store.find?_put_of_address _ rfl
  have hs : c'.store.WellFormed := by
    rw [hstore]
    exact (hvacant.edits h.wellFormed hclaims rfl rfl).wellFormed h.wellFormed
  obtain ⟨hhanded, _⟩ := handOver_probe hs rfl (fun _ => ⟨_, hfind, rfl, rfl⟩) hhand
  obtain ⟨hafter, hsent⟩ := hhanded.eq_answered hfind
  rw [hconfig, h.opening_eq, answered_numbered] at hafter hsent
  obtain ⟨haccounts, _⟩ :=
    handOver_opening_accounts h.wellFormed hvacant hclaims hstore hhand
  have hsame : c'.SameEntries (handOver r now c' [.broadcastProbe a]).left :=
    .handOver r now fun target hmem => by
      cases List.mem_singleton.mp hmem
      rw [hfind]
      rfl
  rw [hhand] at hsame
  refine ⟨hsent, hafter, ?_, fun _ => haccounts.gauged hgauged, nofun⟩
  refine hsame.nextGeneration_eq.trans ?_
  rw [hstore]
  exact hnext

end Shows

/-- To perform the call of a packet is to resolve its address. -/
theorem perform_resolve_of_ok {o : Outcome α (Resolution × Option Evicted)}
    (h : c.resolve r now a packet = .ok o) :
    c.perform r now (.resolve a packet) = .ok (o.map fun x => .resolution x.1 x.2) :=
  congrArg (Attempt.mapAnswer fun x : Resolution × Option Evicted => Answer.resolution x.1 x.2) h

/-- A packet for a vacant address does the same in all caches that show the same. -/
theorem determined_resolve_of_vacant
    (hvacant : ∀ e, found = some e → e.state = .failed ∧ ∀ t, e.deadline = some t → t ≤ now) :
    Determined cfg queueCapacity a found fun c => c.perform r now (.resolve a packet) := by
  have hempty {c : Cache α} (hc : c.Shows cfg queueCapacity a found) :
      c.Vacant now a ∧ ¬c.refuses now a = true := by
    have hvacant' : c.Vacant now a := fun e hfind => hvacant e (hc.find?_eq.symm.trans hfind)
    refine ⟨hvacant', fun hrefuses => ?_⟩
    obtain ⟨e, t, hfind, _, hdeadline, hlt⟩ := refuses_eq_true_iff.mp hrefuses
    exact absurd ((hvacant' e hfind).2 t hdeadline) (Nat.not_le.mpr hlt)
  by_cases hclock : now + (cfg.retry.delay 1).nanos < Clock.limit
  · have hresolve {c : Cache α} (hc : c.Shows cfg queueCapacity a found) :
        ∃ x c', (withoutFailed c.store a).Claims a now x ∧
          x.store.nextGeneration = c.store.nextGeneration + 1 ∧ c'.config = cfg ∧
          c'.store = x.store.put (c.opening now a packet) ∧ c'.Gauged ∧
          c.resolve r now a packet = (handOver r now c' [.broadcastProbe a]).mapAnswer fun _ =>
            (if queueCapacity = 0 then .rejectedFull else .queued, none) := by
      obtain ⟨hvacant, hrefuses⟩ := hempty hc
      obtain ⟨x, hclaim, hclaims, hnone, hnext⟩ := hc.exists_claim_of_vacant hvacant
      have hok : c.resolve r now a packet = _ := resolve_of_claim hrefuses hvacant hclaim
      rw [if_pos (hc.config_eq ▸ hclock), hnone, hc.queueCapacity_eq] at hok
      exact ⟨x, _, hclaims, hnext, by simpa using hc.config_eq, by simp, gauged_settle _ _, hok⟩
    have hopening {c c' : Cache α} {x : Store.Claimed α}
        (hstore : c'.store = x.store.put (c.opening now a packet)) :
        c'.store.find? a = some (c.opening now a packet) := by
      rw [hstore]
      exact Store.find?_put_of_address _ rfl
    by_cases hanswer : ∀ mac, r.heard? a = some mac → now + cfg.reachable.nanos < Clock.limit
    · refine .inl ⟨openingDeed cfg queueCapacity r a now packet, fun c hc => ?_⟩
      obtain ⟨x, c', hclaims, hnext, hconfig, hstore, hgauged, hok⟩ := hresolve hc
      obtain ⟨k, sent, hhand⟩ :=
        (handOver_probe_cases (hopening hstore) rfl rfl).1 (hconfig ▸ hanswer)
      obtain ⟨rfl, hdoes⟩ :=
        hc.does_opening (hempty hc).1 hclaims hnext hconfig hstore hgauged hhand
      rw [hhand] at hok
      exact ⟨k, perform_resolve_of_ok hok, hdoes⟩
    · obtain ⟨mac, hanswer⟩ := not_forall.mp hanswer
      obtain ⟨hheard, hlimit⟩ := Classical.not_imp.mp hanswer
      refine .inr fun c hc => ?_
      obtain ⟨x, c', _, _, hconfig, hstore, _, hok⟩ := hresolve hc
      obtain ⟨h, hhand⟩ := (handOver_probe_cases (hopening hstore) rfl rfl).2 mac hheard
        (hconfig ▸ Nat.not_lt.mp hlimit)
      rw [hhand] at hok
      exact ⟨h, congrArg (Attempt.mapAnswer _) hok⟩
  · refine .inr fun c hc => ?_
    obtain ⟨hvacant, hrefuses⟩ := hempty hc
    obtain ⟨x, hclaim, _⟩ := hc.exists_claim_of_vacant hvacant
    have hstops : c.resolve r now a packet = _ := resolve_of_claim hrefuses hvacant hclaim
    rw [hc.config_eq, if_neg hclock] at hstops
    exact ⟨_, congrArg (Attempt.mapAnswer _) hstops⟩

/-- A packet for an entry that is there does the same in all caches that show the same. -/
theorem determined_resolve_of_entry {e : Entry α}
    (hkept : e.state = .failed → ∃ t, e.deadline = some t ∧ now < t) :
    Determined cfg queueCapacity a (some e) fun c => c.perform r now (.resolve a packet) := by
  cases hmac : e.mac? with
  | some mac =>
    by_cases hclock : e.state = .stale ∧ Clock.limit ≤ now + cfg.delay.nanos
    · refine .inr fun c hc => ?_
      have hstops : c.resolve r now a packet = _ := resolve_of_mac hc.find?_eq hmac
      rw [if_pos (hc.config_eq ▸ hclock)] at hstops
      exact ⟨_, congrArg (Attempt.mapAnswer _) hstops⟩
    · refine .inl ⟨{ answer := .resolution (.resolved mac) none
                     sent := [.packet packet mac]
                     entry := some (e.used cfg now) }, fun c hc => ?_⟩
      have hok : c.resolve r now a packet = _ := resolve_of_mac hc.find?_eq hmac
      rw [if_neg (hc.config_eq ▸ hclock), hc.config_eq] at hok
      exact ⟨_, perform_resolve_of_ok hok,
        hc.does_put rfl Entry.address_used rfl rfl (fun _ => gauged_gauge _) nofun⟩
  | none =>
    cases hs : e.status with
    | incomplete n queue =>
      refine .inl ⟨{ answer := .resolution (if queue.isFull then .rejectedFull else .queued) none
                     entry := some
                      { e with usedAt := now, status := .incomplete n (queue.offer packet).1 } },
        fun c hc => ?_⟩
      have hok : c.resolve r now a packet = _ := resolve_of_incomplete hc.find?_eq hs
      exact ⟨_, perform_resolve_of_ok hok,
        hc.does_put rfl rfl rfl rfl (fun _ => gauged_gauge _) nofun⟩
    | failed =>
      have hstate : e.state = .failed := congrArg Status.state hs
      obtain ⟨t, hdeadline, hgrace⟩ := hkept hstate
      refine .inl ⟨{ answer := .resolution (.dropped .unreachable) none
                     entry := some e
                     isGauged := false }, fun c hc => ?_⟩
      have hok : c.resolve r now a packet = .ok
          { cache := c.count .resolvesDropped 1, answer := (.dropped .unreachable, none) } :=
        if_pos (refuses_eq_true_iff.mpr ⟨e, t, hc.find?_eq, hstate, hdeadline, hgrace⟩)
      exact ⟨_, perform_resolve_of_ok hok, hc.does_nothing rfl rfl rfl nofun fun _ => rfl⟩
    | reachable | stale | delay | probe => simp [Entry.mac?, hs, Status.mac?] at hmac

/-- An operation on one address does the same there in all caches that show the same for it. -/
theorem determined (hcall : call.address? = some a) :
    Determined cfg queueCapacity a found fun c => c.perform r now call := by
  cases call with
  | resolve b packet =>
    cases hcall
    cases found with
    | none => exact determined_resolve_of_vacant nofun
    | some e =>
      by_cases hvacant : e.state = .failed ∧ ∀ t, e.deadline = some t → t ≤ now
      · exact determined_resolve_of_vacant fun _ he => Option.some.inj he ▸ hvacant
      · refine determined_resolve_of_entry fun hstate => ?_
        simpa [hstate] using hvacant
  | observe b mac =>
    cases hcall
    exact determined_observe
  | confirm b =>
    cases hcall
    exact determined_confirm
  | pin b mac =>
    cases hcall
    exact determined_pin
  | invalidate b =>
    cases hcall
    exact determined_invalidate
  | tick | invalidateAll | receive => cases hcall

end Cache

end Neighbor
