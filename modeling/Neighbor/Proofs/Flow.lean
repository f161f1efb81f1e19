import Neighbor.Proofs.Evidence

/-!
# The flow of packets through one address

In one turn the packets that wait at an address stay, are joined by the one that is offered, all go
out together to the link address that the turn installs, or are all discarded. A packet for a bound
address goes straight through. `Turn.flow` says that there is nothing else.
-/

namespace Neighbor

variable {α : Type}

/-- The packet of an item and where it goes. -/
def Outbound.delivery? : Outbound α → Option (α × Mac)
  | .packet p mac => some (p, mac)
  | _ => none

/-- The packets that are handed over, with where they go. -/
def deliveries (sent : List (Outbound α)) : List (α × Mac) := sent.filterMap (·.delivery?)

/-- Packets that are sent are delivered. -/
@[simp] theorem deliveries_packets (packets : List α) (mac : Mac) :
    deliveries (packets.map (.packet · mac)) = packets.map (·, mac) := by
  simp [deliveries, List.filterMap_map, Outbound.delivery?]

/-- A broadcast probe delivers nothing. -/
@[simp] theorem deliveries_broadcastProbe (a : Address) (sent : List (Outbound α)) :
    deliveries (.broadcastProbe a :: sent) = deliveries sent := rfl

/-- The packets that wait in an entry, if there is one. -/
def waitingIn (entry : Option (Entry α)) : List α := entry.elim [] Entry.waiting

/-- Nothing waits where there is no entry. -/
@[simp] theorem waitingIn_none : waitingIn (none : Option (Entry α)) = [] := rfl

/-- What waits at an address waits in its entry. -/
@[simp] theorem waitingIn_some (e : Entry α) : waitingIn (some e) = e.waiting := rfl

/-- The packets that wait for `a`, oldest first. -/
def Cache.waitingAt (c : Cache α) (a : Address) : List α := waitingIn (c.store.find? a)

/-- Whether the entry of `a` leaves its resolution bound to `mac`: the turn takes in evidence or a
permanent binding, and the entry stays the same one. -/
structure Releases (r : Responder) (c : Cache α) (now : Nat) (a : Address) (call : Call α)
    (answer : Answer) (after : Option (Entry α)) (sent : List (Outbound α)) (mac : Mac) : Prop where
  installs : Tells r c now a call sent mac ∨ (call = .pin a mac ∧ answer.isPinned = true)
  leaves : ∃ e e', c.store.find? a = some e ∧ e.state = .incomplete ∧ after = some e' ∧
    e'.generation = e.generation ∧ e'.state = .reachable ∧ e'.mac? = some mac

/-- Whether the entry of `a` is given up by a tick or removed by name. -/
def Discards (a : Address) (call : Call α) (answer : Answer) (after : Option (Entry α)) : Prop :=
  (call = .tick ∧ (∃ report, answer = .ticked report ∧ a ∈ report.failed) ∧
      ∃ e, after = some e ∧ e.state = .failed) ∨
    ((call = .invalidate a ∨ call = .invalidateAll) ∧ after = none)

/-- What a turn does to the packets that wait for `a`. The last argument is what it delivers. -/
inductive Flow (r : Responder) (c : Cache α) (now : Nat) (a : Address) (call : Call α)
    (answer : Answer) (after : Option (Entry α)) (sent : List (Outbound α)) : List (α × Mac) → Prop
  /-- Nothing moves; a packet that is offered is turned away. -/
  | kept (hafter : waitingIn after = c.waitingAt a)
      (hcall : ∀ packet, call = .resolve a packet → ∃ resolution evicted,
        answer = .resolution resolution evicted ∧
          (resolution = .rejectedFull ∨ ∃ reason, resolution = .dropped reason)) :
      Flow r c now a call answer after sent []
  /-- The offered packet waits behind the others. -/
  | queued {packet : α} {evicted : Option Evicted} (hcall : call = .resolve a packet)
      (hanswer : answer = .resolution .queued evicted)
      (hafter : waitingIn after = c.waitingAt a ++ [packet]) :
      Flow r c now a call answer after sent []
  /-- The offered packet goes out, and none waits. -/
  | passed {packet : α} {mac : Mac} {evicted : Option Evicted} (hcall : call = .resolve a packet)
      (hanswer : answer = .resolution (.resolved mac) evicted)
      (hbefore : c.waitingAt a = []) (hafter : waitingIn after = []) :
      Flow r c now a call answer after sent [(packet, mac)]
  /-- The offered packet starts the resolution, and its probe is answered at once. -/
  | answered {packet : α} {mac : Mac} {evicted : Option Evicted} {e : Entry α}
      (hcall : call = .resolve a packet) (hanswer : answer = .resolution .queued evicted)
      (hbefore : c.waitingAt a = []) (htells : Tells r c now a call sent mac)
      (hafter : after = some e) (hstate : e.state = .reachable) (hmac : e.mac? = some mac) :
      Flow r c now a call answer after sent [(packet, mac)]
  /-- All waiting packets go out to the link address that is installed. -/
  | released {mac : Mac} (hcall : ∀ packet, call ≠ .resolve a packet)
      (hreleases : Releases r c now a call answer after sent mac) :
      Flow r c now a call answer after sent ((c.waitingAt a).map (·, mac))
  /-- All waiting packets are discarded. -/
  | discarded (hcall : ∀ packet, call ≠ .resolve a packet)
      (hdiscards : Discards a call answer after) : Flow r c now a call answer after sent []

section Entries

variable {cfg : Config} {now : Nat} {e : Entry α}

/-- Nothing waits in an entry that has just been bound. -/
@[simp] theorem Entry.waiting_bound {mac : Mac} : (e.bound cfg mac now).waiting = [] := rfl

/-- Using an entry leaves what waits in it. -/
@[simp] theorem Entry.waiting_used : (e.used cfg now).waiting = e.waiting := by
  unfold used
  split
  · next mac hstatus => rw [waiting, waiting, hstatus]; rfl
  · rfl

/-- An entry that may be evicted holds no packet. -/
theorem Entry.waiting_of_isEvictable (h : e.isEvictable = true) : e.waiting = [] := by
  cases hwaiting : e.waiting with
  | nil => rfl
  | cons packet rest =>
    rw [isEvictable_of_waiting (by rw [hwaiting]; nofun)] at h
    cases h

end Entries

section Turns

variable {r : Responder} {c : Cache α} {now : Nat} {a : Address} {call : Call α} {answer : Answer}
  {after : Option (Entry α)} {sent : List (Outbound α)}

/-- Nothing waits at an address without an entry. -/
theorem Cache.waitingAt_of_none (h : c.store.find? a = none) : c.waitingAt a = [] := by
  rw [waitingAt, h, waitingIn_none]

/-- What waits at an address with an entry waits in that. -/
theorem Cache.waitingAt_of_some {e : Entry α} (h : c.store.find? a = some e) :
    c.waitingAt a = e.waiting := by
  rw [waitingAt, h, waitingIn_some]

/-- The only packet in a new entry is the one that it was made for. -/
theorem Cache.waiting_opening {packet : α} :
    (c.opening now a packet).waiting = if c.store.queueCapacity = 0 then [] else [packet] := by
  change ((PendingQueue.empty c.store.queueCapacity).offer packet).1.packets = _
  rw [PendingQueue.packets_offer]
  simp [PendingQueue.empty]

/-- Nothing waits at an address whose resolution is about to start. -/
theorem Cache.Vacant.waitingAt_eq_nil (h : c.Vacant now a) : c.waitingAt a = [] := by
  cases hfind : c.store.find? a with
  | none => exact waitingAt_of_none hfind
  | some e =>
    obtain ⟨hstate, _⟩ := h e hfind
    rw [waitingAt_of_some hfind]
    exact Entry.waiting_of_state (by rw [hstate]; nofun)

/-- An offered packet waits, is turned away, goes through or goes out with the answer. -/
theorem Cache.Resolves.flow {packet : α} {resolution : Resolution} {evicted : Option Evicted}
    (h : c.Resolves r now a packet resolution after sent) :
    Flow r c now a (.resolve a packet) (.resolution resolution evicted) after sent
      (deliveries sent) := by
  cases h with
  | refused hfind =>
    refine .kept (waitingAt_of_some hfind).symm fun p _ => ?_
    exact ⟨_, evicted, rfl, .inr ⟨_, rfl⟩⟩
  | noRoom hfind =>
    refine .kept (waitingAt_of_none hfind).symm fun p _ => ?_
    exact ⟨_, evicted, rfl, .inr ⟨_, rfl⟩⟩
  | opened hvacant =>
    have hbefore := hvacant.waitingAt_eq_nil
    have hwaiting : (c.opening now a packet).waiting = _ := c.waiting_opening
    rcases (c.opening now a packet).answered_cases with
      ⟨hheard, hanswered⟩ | ⟨mac, hheard, hanswered⟩
    · rw [hanswered]
      by_cases hcapacity : c.store.queueCapacity = 0
      · rw [if_pos hcapacity] at hwaiting ⊢
        refine .kept ?_ fun p _ => ⟨_, evicted, rfl, .inl rfl⟩
        rw [waitingIn_some, hwaiting, hbefore]
      · rw [if_neg hcapacity] at hwaiting ⊢
        refine .queued rfl rfl ?_
        rw [waitingIn_some, hwaiting, hbefore, List.nil_append]
    · rw [hanswered, deliveries_broadcastProbe, deliveries_packets, hwaiting]
      by_cases hcapacity : c.store.queueCapacity = 0
      · rw [if_pos hcapacity, if_pos hcapacity]
        refine .kept ?_ fun p _ => ⟨_, evicted, rfl, .inl rfl⟩
        rw [waitingIn_some, hbefore, Entry.waiting_bound]
      · rw [if_neg hcapacity, if_neg hcapacity]
        exact .answered rfl rfl hbefore (.inr ⟨List.mem_cons_self, hheard⟩) rfl rfl rfl
  | passed hfind hmac =>
    have hwaiting := Entry.waiting_of_mac? hmac
    refine .passed rfl rfl ?_ ?_
    · rw [waitingAt_of_some hfind, hwaiting]
    · rw [waitingIn_some, Entry.waiting_used, hwaiting]
  | @parked e n queue hfind hstatus =>
    have hbefore : c.waitingAt a = queue.packets := by
      rw [waitingAt_of_some hfind, Entry.waiting, hstatus]
      rfl
    have hafter := PendingQueue.packets_offer queue packet
    by_cases hfull : queue.isFull = true
    · rw [if_pos (PendingQueue.isFull_iff.mp hfull)] at hafter
      rw [if_pos hfull]
      exact .kept (hafter.trans hbefore.symm) fun p _ => ⟨_, evicted, rfl, .inl rfl⟩
    · rw [if_neg (mt PendingQueue.isFull_iff.mpr hfull), ← hbefore] at hafter
      rw [if_neg hfull]
      exact .queued rfl rfl hafter

/-- A turn that binds the entry of `a` to `mac` releases what waits, if anything does. -/
theorem flow_of_bound {mac : Mac} {e : Entry α} (hcall : ∀ packet, call ≠ .resolve a packet)
    (hinstalls : Tells r c now a call sent mac ∨ (call = .pin a mac ∧ answer.isPinned = true))
    (hgeneration : e.generation = (c.store.entryFor a now).generation)
    (hstate : e.state = .reachable) (hmac : e.mac? = some mac) :
    Flow r c now a call answer (some e) sent ((c.store.entryFor a now).waiting.map (·, mac)) := by
  have hafter : e.waiting = [] := Entry.waiting_of_mac? hmac
  cases hfind : c.store.find? a with
  | none =>
    rw [Store.entryFor_of_none hfind]
    refine .kept ?_ fun packet hresolve => absurd hresolve (hcall packet)
    rw [waitingIn_some, hafter, Cache.waitingAt_of_none hfind]
  | some old =>
    rw [Store.entryFor_of_some hfind] at hgeneration ⊢
    by_cases hold : old.state = .incomplete
    · rw [← Cache.waitingAt_of_some hfind]
      exact .released hcall ⟨hinstalls, old, e, hfind, hold, rfl, hgeneration, hstate, hmac⟩
    · rw [Entry.waiting_of_state hold]
      refine .kept ?_ fun packet hresolve => absurd hresolve (hcall packet)
      rw [waitingIn_some, hafter, Cache.waitingAt_of_some hfind, Entry.waiting_of_state hold]

/-- Time keeps the packets of an entry, discards them with the resolution, or lets the answer to a
probe release them. -/
theorem Cache.Ages.flow {report : TickReport} (h : c.Ages r now a report after sent) :
    Flow r c now a .tick (.ticked report) after sent (deliveries sent) := by
  cases h with
  | absent hfind => exact .kept (waitingAt_of_none hfind).symm nofun
  | @aged e aged hfind hpasses hfailed =>
    have hbefore := waitingAt_of_some hfind
    cases hpasses with
    | idle => exact .kept hbefore.symm nofun
    | gaveUp =>
      exact .discarded nofun (.inl ⟨rfl, ⟨report, rfl, hfailed.mpr rfl⟩, _, rfl, rfl⟩)
    | expired hdue hstate =>
      refine .kept ?_ nofun
      rw [hbefore]
      refine (Entry.waiting_of_state fun hincomplete => ?_).symm
      rw [hincomplete] at hstate
      rcases hstate with hstate | hstate <;> cases hstate
    | rechecked _ hstatus | checked _ hstatus | staled _ hstatus =>
      refine .kept ?_ nofun
      rw [hbefore, Entry.waiting, hstatus]
      rfl
    | @reprobed n queue hdue hstatus hleft =>
      have hqueue : e.waiting = queue.packets := by
        rw [Entry.waiting, hstatus]
        rfl
      generalize he' : ({ e with
        status := .incomplete (n + 1) queue
        deadline := some (now + (c.config.retry.delay (n + 1)).nanos) } : Entry α) = e'
      have hwaiting : e'.waiting = c.waitingAt a := by
        rw [← he', hbefore, hqueue]
        rfl
      have hsame := Store.address_of_find? hfind
      have haddress : e'.address = a := by
        rw [← he']
        exact hsame
      have hgeneration : e'.generation = e.generation := by rw [← he']
      change Flow r c now a .tick _ (some (e'.answered c.config r now).1)
        (.broadcastProbe e.address :: (e'.answered c.config r now).2)
        (deliveries (.broadcastProbe e.address :: (e'.answered c.config r now).2))
      rcases e'.answered_cases with ⟨hheard, hanswered⟩ | ⟨mac, hheard, hanswered⟩
      · rw [hanswered]
        exact .kept hwaiting nofun
      · rw [hanswered, deliveries_broadcastProbe, deliveries_packets, hwaiting]
        rw [haddress] at hheard
        refine .released nofun
          ⟨.inl (.inr ⟨?_, hheard⟩), e, _, hfind, ?_, rfl, hgeneration, rfl, rfl⟩
        · rw [hsame]
          exact List.mem_cons_self
        · rw [Entry.state, hstatus]
          rfl

/-- In one turn the packets that wait at an address move together, if at all. -/
theorem Turn.flow (h : Turn r c now a call answer after sent) :
    Flow r c now a call answer after sent (deliveries sent) := by
  cases h with
  | resolved hresolves => exact hresolves.flow
  | learned hevidence hlearns =>
    have hcall : ∀ packet, call ≠ .resolve a packet := by
      rintro packet rfl
      cases hevidence
    cases hlearns with
    | ignored => exact .kept rfl fun packet hresolve => absurd hresolve (hcall packet)
    | learned hlearns =>
      rw [deliveries_packets]
      exact flow_of_bound hcall (.inl (.inl ⟨hevidence, hlearns⟩)) rfl rfl rfl
  | hinted hhints =>
    cases hhints with
    | ignored => exact .kept rfl nofun
    | counted hfind hmac =>
      refine .kept ?_ nofun
      rw [waitingIn_some, Entry.waiting_bound, Cache.waitingAt_of_some hfind,
        Entry.waiting_of_mac? hmac]
  | pinned hpins =>
    cases hpins with
    | refused => exact .kept rfl nofun
    | pinned =>
      rw [deliveries_packets]
      exact flow_of_bound nofun (.inr ⟨rfl, rfl⟩) rfl rfl rfl
  | aged hages => exact hages.flow
  | removed => exact .discarded nofun (.inr ⟨.inl rfl, rfl⟩)
  | cleared => exact .discarded nofun (.inr ⟨.inr rfl, rfl⟩)
  | aside hsweeping hsubject hspared =>
    refine .kept ?_ fun packet hresolve => absurd (by rw [hresolve]; rfl) hsubject
    rcases hspared with rfl | ⟨rfl, _, _, e, hfind, hevictable⟩
    · rfl
    · rw [waitingIn_none, Cache.waitingAt_of_some hfind, Entry.waiting_of_isEvictable hevictable]

/-- Nothing waits in an entry that is discarded. -/
theorem Discards.waitingIn_eq_nil (h : Discards a call answer after) : waitingIn after = [] := by
  rcases h with ⟨_, _, e, rfl, hstate⟩ | ⟨_, rfl⟩
  · exact Entry.waiting_of_state (by rw [hstate]; nofun)
  · rfl

/-- An entry that leaves its resolution keeps no packet back. -/
theorem Releases.waitingIn_eq_nil {mac : Mac} (h : Releases r c now a call answer after sent mac) :
    waitingIn after = [] := by
  obtain ⟨_, e, _, _, rfl, _, _, hmac⟩ := h.leaves
  exact Entry.waiting_of_mac? hmac

namespace Flow

variable {delivered : List (α × Mac)} {packet : α}

/-- What goes out and what still waits is taken in order from what waited and was offered. -/
theorem sublist (h : Flow r c now a call answer after sent delivered) :
    (delivered.map (·.1) ++ waitingIn after).Sublist (c.waitingAt a) ∨
      ∃ packet, call = .resolve a packet ∧
        (delivered.map (·.1) ++ waitingIn after).Sublist (c.waitingAt a ++ [packet]) := by
  cases h with
  | kept hafter =>
    rw [hafter]
    exact .inl (List.Sublist.refl _)
  | @queued packet _ hcall hanswer hafter =>
    rw [hafter]
    exact .inr ⟨packet, hcall, List.Sublist.refl _⟩
  | @passed packet mac _ hcall hanswer hbefore hafter =>
    rw [hafter, hbefore]
    exact .inr ⟨packet, hcall, List.Sublist.refl _⟩
  | @answered packet mac _ e hcall hanswer hbefore htells hafter hstate hmac =>
    rw [hafter, waitingIn_some, Entry.waiting_of_mac? hmac, hbefore]
    exact .inr ⟨packet, hcall, List.Sublist.refl _⟩
  | released hcall hreleases =>
    rw [hreleases.waitingIn_eq_nil, List.append_nil, List.map_map]
    exact .inl (by simp [Function.comp_def])
  | discarded hcall hdiscards =>
    rw [hdiscards.waitingIn_eq_nil]
    exact .inl (List.nil_sublist _)

/-- A packet that goes out waited or is the one offered. -/
theorem mem_delivered {d : α × Mac} (h : Flow r c now a call answer after sent delivered)
    (hd : d ∈ delivered) : d.1 ∈ c.waitingAt a ∨ call = .resolve a d.1 := by
  have hmem : d.1 ∈ delivered.map (·.1) ++ waitingIn after :=
    List.mem_append_left _ (List.mem_map.mpr ⟨d, hd, rfl⟩)
  rcases h.sublist with hsub | ⟨packet, hcall, hsub⟩
  · exact .inl (hsub.subset hmem)
  · rcases List.mem_append.mp (hsub.subset hmem) with hwaiting | hoffered
    · exact .inl hwaiting
    · rw [List.mem_singleton.mp hoffered]
      exact .inr hcall

/-- A packet that waits afterwards waited before, or is offered and told to wait. -/
theorem mem_after (h : Flow r c now a call answer after sent delivered)
    (hpacket : packet ∈ waitingIn after) :
    packet ∈ c.waitingAt a ∨
      (call = .resolve a packet ∧ ∃ evicted, answer = .resolution .queued evicted) := by
  cases h with
  | kept hafter => exact .inl (hafter ▸ hpacket)
  | @queued offered evicted hcall hanswer hafter =>
    rw [hafter] at hpacket
    rcases List.mem_append.mp hpacket with hwaiting | hoffered
    · exact .inl hwaiting
    · rw [List.mem_singleton.mp hoffered]
      exact .inr ⟨hcall, evicted, hanswer⟩
  | passed hcall hanswer hbefore hafter =>
    rw [hafter] at hpacket
    cases hpacket
  | answered hcall hanswer hbefore htells hafter hstate hmac =>
    rw [hafter, waitingIn_some, Entry.waiting_of_mac? hmac] at hpacket
    cases hpacket
  | released hcall hreleases =>
    rw [hreleases.waitingIn_eq_nil] at hpacket
    cases hpacket
  | discarded hcall hdiscards =>
    rw [hdiscards.waitingIn_eq_nil] at hpacket
    cases hpacket

end Flow

end Turns

end Neighbor
