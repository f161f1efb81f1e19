import Neighbor.Proofs.Transmit

/-!
# What resolving does to one address

A packet for an address meets one of five situations: the address failed lately, it is new and there
is no room, it is new or has done its time as failed, it is bound, or it is being resolved.
`Cache.Resolves` lists what becomes of the packet and of the entry in each; other addresses are
spared. `Cache.Placed` lists all results, with the whole cache that is left, those that stop at the
clock included.
-/

namespace Neighbor.Cache

variable {α : Type} {c : Cache α} {r : Responder} {now : Nat} {a : Address} {packet : α}

/-- The entry that starts the resolution of `a` for a packet, before any answer. -/
def opening (c : Cache α) (now : Nat) (a : Address) (packet : α) : Entry α :=
  .opened c.config a c.store.nextGeneration now
    ((PendingQueue.empty c.store.queueCapacity).offer packet).1

/-- Whether an address has no entry, or one that failed and whose grace has ended. -/
def Vacant (c : Cache α) (now : Nat) (a : Address) : Prop :=
  ∀ e, c.store.find? a = some e → e.state = .failed ∧ ∀ t, e.deadline = some t → t ≤ now

/-- What resolving `a` for a packet does to `a`: the answer, the entry afterwards and what is sent.
-/
inductive Resolves (r : Responder) (c : Cache α) (now : Nat) (a : Address) (packet : α) :
    Resolution → Option (Entry α) → List (Outbound α) → Prop
  | refused {e : Entry α} {t : Nat} (hfind : c.store.find? a = some e) (hstate : e.state = .failed)
      (hdeadline : e.deadline = some t) (hgrace : now < t) :
      Resolves r c now a packet (.dropped .unreachable) (some e) []
  | noRoom (hfind : c.store.find? a = none) (hadmits : c.store.admits a = false) :
      Resolves r c now a packet (.dropped .noSpace) none []
  | opened (hvacant : c.Vacant now a) :
      Resolves r c now a packet (if c.store.queueCapacity = 0 then .rejectedFull else .queued)
        (some ((c.opening now a packet).answered c.config r now).1)
        (.broadcastProbe a :: ((c.opening now a packet).answered c.config r now).2)
  | passed {e : Entry α} {mac : Mac} (hfind : c.store.find? a = some e) (hmac : e.mac? = some mac) :
      Resolves r c now a packet (.resolved mac) (some (e.used c.config now)) [.packet packet mac]
  | parked {e : Entry α} {n : Nat} {queue : PendingQueue α} (hfind : c.store.find? a = some e)
      (hstatus : e.status = .incomplete n queue) :
      Resolves r c now a packet (if queue.isFull then .rejectedFull else .queued)
        (some { e with usedAt := now, status := .incomplete n (queue.offer packet).1 }) []

/-- A packet is refused at once exactly if its address failed and the grace has not ended. -/
theorem refuses_eq_true_iff :
    c.refuses now a = true ↔
      ∃ e t, c.store.find? a = some e ∧ e.state = .failed ∧ e.deadline = some t ∧ now < t := by
  unfold refuses
  cases hfind : c.store.find? a with
  | none => simp
  | some e => cases hdeadline : e.deadline <;> simp [hdeadline]

/-- A packet for an entry with a link address is sent there. -/
theorem place_of_mac {e : Entry α} {mac : Mac} (h : e.mac? = some mac) :
    place e packet = (.resolved mac, e, [.packet packet mac], none) := by
  unfold place
  rw [h]

/-- A packet for an entry that is searched for is queued if there is room. -/
theorem place_of_incomplete {e : Entry α} {n : Nat} {queue : PendingQueue α}
    (h : e.status = .incomplete n queue) :
    place e packet =
      (if queue.isFull then .rejectedFull else .queued,
        { e with status := .incomplete n (queue.offer packet).1 }, [],
        some (if queue.isFull then .packetsRejected else .packetsQueued)) := by
  have hmac : e.mac? = none := by simp [Entry.mac?, h, Status.mac?]
  unfold place
  rw [hmac, h]
  by_cases hfull : queue.isFull = true <;> simp [PendingQueue.offer, hfull]

/-- What is placed in the entry of a new address starts its resolution. -/
theorem place_opened :
    place ((Entry.opened c.config a c.store.nextGeneration now
        (.empty c.store.queueCapacity)).used c.config now) packet =
      (if c.store.queueCapacity = 0 then .rejectedFull else .queued, c.opening now a packet, [],
        some (if c.store.queueCapacity = 0 then .packetsRejected else .packetsQueued)) := by
  rw [Entry.used_of_incomplete rfl, place_of_incomplete rfl]
  simp [PendingQueue.isFull, PendingQueue.size, PendingQueue.empty, Entry.opened, opening]

/-- A failed entry that no longer refuses packets has had its grace. -/
theorem vacant_of_failed {e : Entry α} (hrefuses : ¬c.refuses now a = true)
    (hfind : c.store.find? a = some e) (hstate : e.state = .failed) : c.Vacant now a := by
  intro x hx
  rw [hfind] at hx
  cases hx
  refine ⟨hstate, fun t ht => Nat.le_of_not_lt fun hlt => ?_⟩
  exact hrefuses (refuses_eq_true_iff.mpr ⟨e, t, hfind, hstate, ht, hlt⟩)

/-- Nothing is removed for an address without an entry. -/
theorem withoutFailed_of_none (hfind : c.store.find? a = none) :
    withoutFailed c.store a = c.store := by
  simp [withoutFailed, hfind]

/-- A failed entry is removed before its address is resolved anew. -/
theorem withoutFailed_of_failed {e : Entry α} (hfind : c.store.find? a = some e)
    (hstate : e.state = .failed) : withoutFailed c.store a = c.store.erase a := by
  simp [withoutFailed, hfind, hstate]

/-- An entry that has not failed stays for its address to be resolved. -/
theorem withoutFailed_of_found {e : Entry α} (hfind : c.store.find? a = some e)
    (hstate : e.state ≠ .failed) : withoutFailed c.store a = c.store := by
  simp [withoutFailed, hfind, hstate]

/-- A packet for a vacant address finds no entry. -/
theorem Vacant.find?_withoutFailed (h : c.Vacant now a) :
    (withoutFailed c.store a).find? a = none := by
  cases hfind : c.store.find? a with
  | none => rw [withoutFailed_of_none hfind, hfind]
  | some e => rw [withoutFailed_of_failed hfind (h e hfind).1, Store.find?_erase, if_pos rfl]

/-- The entry of a vacant address is made at the expense of no other that the claim does not tell.
-/
theorem Vacant.ousts {x : Store.Claimed α} {e : Entry α} (hs : c.store.WellFormed)
    (h : c.Vacant now a) (hclaims : (withoutFailed c.store a).Claims a now x)
    (haddress : e.address = a) : c.store.Ousts a x.evicted (x.store.put e) := by
  cases hfind : c.store.find? a with
  | none =>
    rw [withoutFailed_of_none hfind] at hclaims
    exact hclaims.ousts hs.ordered haddress
  | some old =>
    rw [withoutFailed_of_failed hfind (h old hfind).1] at hclaims
    have housts := hclaims.ousts (hs.ordered.erase a) haddress
    -- the failed entry has left room for the new one
    have hnone : x.evicted = none := by
      cases hevicted : x.evicted with
      | none => rfl
      | some ev =>
        have hsmaller := Store.size_erase_lt hfind
        have hsize := hs.size_le
        have hfull : c.store.capacity ≤ (c.store.erase a).size :=
          (housts.evictable ev hevicted).2.1
        omega
    rw [hnone] at housts ⊢
    refine .of_eq fun b hb => ?_
    rw [housts.find?_eq b hb, Store.find?_erase, if_neg hb]
    rfl

/-- Removing a failed entry edits the store. -/
theorem edits_withoutFailed : Store.Edits c.store (withoutFailed c.store a) := by
  unfold withoutFailed
  split
  · split
    · exact .single (.erase a)
    · exact .refl
  · exact .refl

/-- The store in which a packet finds its entry is well formed. -/
theorem withoutFailed_wellFormed (hs : c.store.WellFormed) :
    (withoutFailed c.store a).WellFormed :=
  Store.Edits.wellFormed edits_withoutFailed hs

/-- Removing a failed entry leaves the counter of generations alone. -/
@[simp] theorem nextGeneration_withoutFailed :
    (withoutFailed c.store a).nextGeneration = c.store.nextGeneration := by
  unfold withoutFailed
  split
  · split <;> rfl
  · rfl

/-- Removing a failed entry leaves the length of new queues alone. -/
@[simp] theorem queueCapacity_withoutFailed :
    (withoutFailed c.store a).queueCapacity = c.store.queueCapacity := by
  unfold withoutFailed
  split
  · split <;> rfl
  · rfl

/-- The entry claimed for a vacant address is a fresh one. -/
theorem Vacant.entry_eq {x : Store.Claimed α} (h : c.Vacant now a)
    (hclaims : (withoutFailed c.store a).Claims a now x) :
    x.entry = .fresh a c.store.nextGeneration c.store.queueCapacity now := by
  rw [hclaims.entry_eq, Store.entryFor_of_none h.find?_withoutFailed, nextGeneration_withoutFailed,
    queueCapacity_withoutFailed]

/-- Making the entry of a vacant address is a sequence of edits. -/
theorem Vacant.edits {x : Store.Claimed α} {e : Entry α} (hs : c.store.WellFormed)
    (h : c.Vacant now a) (hclaims : (withoutFailed c.store a).Claims a now x)
    (haddress : e.address = a) (hgeneration : e.generation = c.store.nextGeneration) :
    Store.Edits c.store (x.store.put e) := by
  refine edits_withoutFailed.trans (hclaims.edits (withoutFailed_wellFormed hs) haddress ?_)
  rw [hgeneration, h.entry_eq hclaims]
  rfl

/-- What resolving `a` for a packet comes to. -/
inductive Placed (r : Responder) (c : Cache α) (now : Nat) (a : Address) (packet : α) :
    Attempt α (Resolution × Option Evicted) → Prop
  | refused {e : Entry α} {t : Nat} (hfind : c.store.find? a = some e) (hstate : e.state = .failed)
      (hdeadline : e.deadline = some t) (hgrace : now < t) :
      Placed r c now a packet (.ok
        { cache := c.count .resolvesDropped 1, answer := (.dropped .unreachable, none) })
  | noRoom (hfind : c.store.find? a = none) (hadmits : c.store.admits a = false) :
      Placed r c now a packet (.ok
        { cache := (c.count .resolvesDropped 1).gauge
          answer := (.dropped .noSpace, none)
          warnings := [.cacheFull a] })
  | opened {x : Store.Claimed α} (hvacant : c.Vacant now a)
      (hclaims : (withoutFailed c.store a).Claims a now x) :
      Placed r c now a packet
        ((handOver r now
          (settle
            (count { c with store := x.store.put (c.opening now a packet) }
              (if c.store.queueCapacity = 0 then .packetsRejected else .packetsQueued) 1)
            x.evicted)
          [.broadcastProbe a]).mapAnswer fun _ =>
            (if c.store.queueCapacity = 0 then .rejectedFull else .queued, x.evicted))
  /-- The clock cannot hold the instant of the next probe. -/
  | unopened {x : Store.Claimed α} (hvacant : c.Vacant now a)
      (hclaims : (withoutFailed c.store a).Claims a now x) :
      Placed r c now a packet (.error
        { cache :=
            { c with
              store := x.store.put
                ((Entry.opened c.config a c.store.nextGeneration now
                  (.empty c.store.queueCapacity)).withDeadlineOf x.entry) }
          answer := () })
  | passed {e : Entry α} {mac : Mac} (hfind : c.store.find? a = some e)
      (hmac : e.mac? = some mac) :
      Placed r c now a packet (.ok
        { cache := gauge { c with store := c.store.put (e.used c.config now) }
          answer := (.resolved mac, none)
          sent := [.packet packet mac] })
  | parked {e : Entry α} {n : Nat} {queue : PendingQueue α} (hfind : c.store.find? a = some e)
      (hstatus : e.status = .incomplete n queue) :
      Placed r c now a packet (.ok
        { cache := gauge (count
            { c with
              store := c.store.put
                { e with usedAt := now, status := .incomplete n (queue.offer packet).1 } }
            (if queue.isFull then .packetsRejected else .packetsQueued) 1)
          answer := (if queue.isFull then .rejectedFull else .queued, none) })
  /-- The clock cannot hold the end of the wait for a confirmation. -/
  | unused {e : Entry α} (hfind : c.store.find? a = some e) (hstate : e.state = .stale) :
      Placed r c now a packet (.error
        { cache := { c with store := c.store.put ((e.used c.config now).withDeadlineOf e) }
          answer := () })

/-- A new entry starts with its first probe if the clock holds the instant of the next. -/
theorem startIfNew_eq {x : Store.Claimed α} {cfg : Config} {generation queueCapacity : Nat}
    (hcreated : x.created = true) (hentry : x.entry = .fresh a generation queueCapacity now) :
    startIfNew cfg now x =
      if now + (cfg.retry.delay 1).nanos < Clock.limit then
        .ok (.opened cfg a generation now (.empty queueCapacity), [.broadcastProbe a])
      else
        .error ((Entry.opened cfg a generation now (.empty queueCapacity)).withDeadlineOf
          x.entry) := by
  unfold startIfNew Entry.start
  rw [if_pos hcreated, hentry, Entry.arm_eq]
  split <;> rfl

/-- An entry that has not failed refuses nothing. -/
theorem not_refuses_of_state {e : Entry α} (hfind : c.store.find? a = some e)
    (hstate : e.state ≠ .failed) : ¬c.refuses now a = true := by
  intro hrefuses
  obtain ⟨e', _, hfind', hfailed, _⟩ := refuses_eq_true_iff.mp hrefuses
  cases hfind.symm.trans hfind'
  exact hstate hfailed

/-- A packet for a vacant address whose entry can be claimed. -/
theorem resolve_of_claim {x : Store.Claimed α} (hrefuses : ¬c.refuses now a = true)
    (hvacant : c.Vacant now a) (hclaim : (withoutFailed c.store a).claim a now = .ok x) :
    c.resolve r now a packet =
      if now + (c.config.retry.delay 1).nanos < Clock.limit then
        (handOver r now
          (settle
            (count { c with store := x.store.put (c.opening now a packet) }
              (if c.store.queueCapacity = 0 then .packetsRejected else .packetsQueued) 1)
            x.evicted)
          [.broadcastProbe a]).mapAnswer fun _ =>
            (if c.store.queueCapacity = 0 then .rejectedFull else .queued, x.evicted)
      else .error
        { cache :=
            { c with
              store := x.store.put
                ((Entry.opened c.config a c.store.nextGeneration now
                  (.empty c.store.queueCapacity)).withDeadlineOf x.entry) }
          answer := () } := by
  have hclaims := Store.claims_of_claim hclaim
  have hcreated : x.created = true := by
    rw [hclaims.created_eq, hvacant.find?_withoutFailed]
    rfl
  unfold resolve
  rw [if_neg hrefuses]
  simp only [hclaim, startIfNew_eq hcreated (hvacant.entry_eq hclaims)]
  by_cases hclock : now + (c.config.retry.delay 1).nanos < Clock.limit
  · have hunused : ¬((Entry.opened c.config a c.store.nextGeneration now
        (.empty c.store.queueCapacity) : Entry α).state = .stale ∧
          Clock.limit ≤ now + c.config.delay.nanos) := fun hstale => nomatch hstale.1
    simp only [if_pos hclock, Entry.markUsed_eq, if_neg hunused, place_opened, List.append_nil]
  · simp only [if_neg hclock]

/-- A packet for an entry that is bound. -/
theorem resolve_of_mac {e : Entry α} {mac : Mac} (hfind : c.store.find? a = some e)
    (hmac : e.mac? = some mac) :
    c.resolve r now a packet =
      if e.state = .stale ∧ Clock.limit ≤ now + c.config.delay.nanos then .error
        { cache := { c with store := c.store.put ((e.used c.config now).withDeadlineOf e) }
          answer := () }
      else .ok
        { cache := gauge { c with store := c.store.put (e.used c.config now) }
          answer := (.resolved mac, none)
          sent := [.packet packet mac] } := by
  have hstate : e.state ≠ .failed := by
    intro hfailed
    have hnone : e.mac? = none := Entry.mac?_eq_none_iff.mpr (congrArg State.isResolved hfailed)
    cases hmac.symm.trans hnone
  unfold resolve
  rw [if_neg (not_refuses_of_state hfind hstate), withoutFailed_of_found hfind hstate]
  simp only [Store.claim_of_some hfind, startIfNew, Bool.false_eq_true, if_false,
    Entry.markUsed_eq]
  by_cases hclock : e.state = .stale ∧ Clock.limit ≤ now + c.config.delay.nanos
  · simp only [if_pos hclock]
  · have hused : (e.used c.config now).mac? = some mac := Entry.mac?_used.trans hmac
    simp only [if_neg hclock, place_of_mac hused]
    rfl

/-- A packet for an entry that is being resolved. -/
theorem resolve_of_incomplete {e : Entry α} {n : Nat} {queue : PendingQueue α}
    (hfind : c.store.find? a = some e) (hstatus : e.status = .incomplete n queue) :
    c.resolve r now a packet = .ok
      { cache := gauge (count
          { c with
            store := c.store.put
              { e with usedAt := now, status := .incomplete n (queue.offer packet).1 } }
          (if queue.isFull then .packetsRejected else .packetsQueued) 1)
        answer := (if queue.isFull then .rejectedFull else .queued, none) } := by
  have hstate : e.state = .incomplete := congrArg Status.state hstatus
  have hfailed : e.state ≠ .failed := by
    rw [hstate]
    nofun
  have hunused : ¬(e.state = .stale ∧ Clock.limit ≤ now + c.config.delay.nanos) :=
    fun hstale => nomatch hstate.symm.trans hstale.1
  have hused : ({ e with usedAt := now } : Entry α).status = .incomplete n queue := hstatus
  unfold resolve
  rw [if_neg (not_refuses_of_state hfind hfailed), withoutFailed_of_found hfind hfailed]
  simp only [Store.claim_of_some hfind, startIfNew, Bool.false_eq_true, if_false,
    Entry.markUsed_eq, if_neg hunused, Entry.used_of_incomplete hstatus,
    place_of_incomplete hused]
  rfl

/-- A packet for a vacant address makes an entry, finds no room for one, or stops at the clock. -/
theorem resolve_of_vacant (hrefuses : ¬c.refuses now a = true) (hvacant : c.Vacant now a)
    (hroom : ∀ reason, (withoutFailed c.store a).claim a now = .error reason →
      c.store.find? a = none) :
    Placed r c now a packet (c.resolve r now a packet) := by
  cases hclaim : (withoutFailed c.store a).claim a now with
  | error reason =>
    have hfind := hroom reason hclaim
    unfold resolve
    rw [if_neg hrefuses]
    rw [withoutFailed_of_none hfind] at hclaim ⊢
    obtain ⟨rfl, hadmits⟩ := Store.admits_eq_false_of_claim hclaim
    simp only [hclaim]
    exact .noRoom hfind hadmits
  | ok x =>
    have hclaims := Store.claims_of_claim hclaim
    rw [resolve_of_claim hrefuses hvacant hclaim]
    split
    · exact .opened hvacant hclaims
    · exact .unopened hvacant hclaims

/-- A packet for an entry that has not failed is parked or passed on, or stops at the clock. -/
theorem resolve_of_found {e : Entry α} (hfind : c.store.find? a = some e)
    (hstate : e.state ≠ .failed) : Placed r c now a packet (c.resolve r now a packet) := by
  cases hmac : e.mac? with
  | some mac =>
    rw [resolve_of_mac hfind hmac]
    split
    · next hclock => exact .unused hfind hclock.1
    · exact .passed hfind hmac
  | none =>
    cases hs : e.status with
    | incomplete n queue =>
      rw [resolve_of_incomplete hfind hs]
      exact .parked hfind hs
    | failed => exact absurd (congrArg Status.state hs) hstate
    | reachable | stale | delay | probe => simp [Entry.mac?, hs, Status.mac?] at hmac

/-- Where the packet of an address that is resolved ends up, whether that goes through or stops. -/
theorem resolve_placed (hs : c.store.WellFormed) (r : Responder) (now : Nat) (a : Address)
    (packet : α) : Placed r c now a packet (c.resolve r now a packet) := by
  by_cases hrefuses : c.refuses now a = true
  · obtain ⟨e, t, hfind, hstate, hdeadline, hgrace⟩ := refuses_eq_true_iff.mp hrefuses
    unfold resolve
    rw [if_pos hrefuses]
    exact .refused hfind hstate hdeadline hgrace
  · cases hfind : c.store.find? a with
    | none => exact resolve_of_vacant hrefuses (by simp [Vacant, hfind]) fun _ _ => hfind
    | some e =>
      by_cases hstate : e.state = .failed
      · refine resolve_of_vacant hrefuses (vacant_of_failed hrefuses hfind hstate) ?_
        intro reason hclaim
        -- a store that has just lost an entry has room
        have hroom : (c.store.erase a).size < (c.store.erase a).capacity :=
          Nat.lt_of_lt_of_le (Store.size_erase_lt hfind) hs.size_le
        rw [withoutFailed_of_failed hfind hstate] at hclaim
        obtain ⟨_, hadmits⟩ := Store.admits_eq_false_of_claim hclaim
        simp [Store.admits, hroom] at hadmits
      · exact resolve_of_found hfind hstate

/-- A packet for a vacant address makes an entry and sends the first probe. -/
theorem resolves_of_vacant {x : Store.Claimed α} {d : Cache α} {o : Outcome α Unit}
    (hs : c.store.WellFormed) (hvacant : c.Vacant now a)
    (hclaims : (withoutFailed c.store a).Claims a now x) (hconfig : d.config = c.config)
    (hstore : d.store = x.store.put (c.opening now a packet))
    (hhand : handOver r now d [.broadcastProbe a] = .ok o) :
    Resolves r c now a packet (if c.store.queueCapacity = 0 then .rejectedFull else .queued)
      (o.cache.store.find? a) o.sent ∧ WorksOn c a o.cache := by
  have hfind : d.store.find? a = some (c.opening now a packet) := by
    rw [hstore, Store.find?_put]
    exact if_pos rfl
  have hedits : Store.Edits c.store d.store := by
    rw [hstore]
    exact hvacant.edits hs hclaims rfl rfl
  obtain ⟨hhanded, hconfig', hedits', hothers⟩ :=
    handOver_probe (hedits.wellFormed hs) rfl (fun _ => ⟨_, hfind, rfl, rfl⟩) hhand
  refine ⟨?_, hconfig'.trans hconfig, hedits.trans hedits', fun b hb => ?_⟩
  · obtain ⟨hafter, hsent⟩ := hhanded.eq_answered hfind
    rw [hafter, hsent, hconfig]
    exact .opened hvacant
  · rw [hothers b hb, hstore]
    exact (hvacant.ousts hs hclaims rfl).spared hb

/-- Putting a changed entry back works on its address. -/
theorem WorksOn.of_put {e e' : Entry α} {d : Cache α} (hfind : c.store.find? a = some e)
    (hconfig : d.config = c.config) (hstore : d.store = c.store.put e')
    (haddress : e'.address = e.address) (hgeneration : e'.generation = e.generation) :
    WorksOn c a d := by
  have hsame : e'.address = a := haddress.trans (Store.address_of_find? hfind)
  refine ⟨hconfig, ?_, fun b hb => .inl ?_⟩
  · rw [hstore]
    exact .single (.replace (hsame ▸ hfind) hgeneration)
  · rw [hstore, Store.find?_put, hsame, if_neg hb]

/-- A packet for `a` resolves `a` and works on it alone. -/
theorem resolve_resolves {o : Outcome α (Resolution × Option Evicted)} (hs : c.store.WellFormed)
    (h : c.resolve r now a packet = .ok o) :
    Resolves r c now a packet o.answer.1 (o.cache.store.find? a) o.sent ∧ WorksOn c a o.cache := by
  have hplaced := resolve_placed hs r now a packet
  rw [h] at hplaced
  generalize hattempt : (.ok o : Attempt α (Resolution × Option Evicted)) = attempt at hplaced
  cases hplaced with
  | refused hfind hstate hdeadline hgrace =>
    cases hattempt
    refine ⟨?_, .of_store_eq rfl rfl⟩
    rw [store_count, hfind]
    exact .refused hfind hstate hdeadline hgrace
  | noRoom hfind hadmits =>
    cases hattempt
    refine ⟨?_, .of_store_eq rfl rfl⟩
    rw [store_gauge, store_count, hfind]
    exact .noRoom hfind hadmits
  | opened hvacant hclaims =>
    obtain ⟨o', hhand, rfl⟩ := Attempt.mapAnswer_eq_ok hattempt.symm
    exact resolves_of_vacant hs hvacant hclaims (by simp) (by simp) hhand
  | unopened => cases hattempt
  | unused => cases hattempt
  | @passed e mac hfind hmac =>
    cases hattempt
    refine ⟨?_, .of_put hfind rfl rfl (by simp) (by simp)⟩
    have haddress := Store.address_of_find? hfind
    have hafter : (c.store.put (e.used c.config now)).find? a = some (e.used c.config now) := by
      simp [haddress]
    rw [store_gauge, hafter]
    exact .passed hfind hmac
  | @parked e n queue hfind hstatus =>
    cases hattempt
    refine ⟨?_, .of_put hfind rfl rfl rfl rfl⟩
    rw [store_gauge, store_count, Store.find?_put, if_pos (Store.address_of_find? hfind).symm]
    exact .parked hfind hstatus

end Neighbor.Cache
