import Neighbor.Proofs.Edges
import Neighbor.Proofs.Requests
import Neighbor.Proofs.Stop

/-!
# What a call does to the binding of an address

Whether a call goes through or stops, it does one of eight things to an address: nothing lasting,
with or without a packet or a probe to the station that is bound; it takes a dynamic entry away or
anything that it removes by name; it leaves a dynamic entry without a link address, binds one by
evidence, or binds the address for good. `Effect` lists them with all that is sent for the address.
A binding changes by evidence or for good only, and a permanent one by removal by name.
-/

namespace Neighbor

variable {α : Type}

namespace Entry.Continues

variable {e e' e'' : Entry α}

/-- An entry continues itself. -/
theorem refl (e : Entry α) : e.Continues e := ⟨rfl, rfl, rfl⟩

/-- What continues a continuation continues the first. -/
theorem trans (h : e.Continues e') (h' : e'.Continues e'') : e.Continues e'' :=
  ⟨h'.generation_eq.trans h.generation_eq, h'.kind_eq.trans h.kind_eq, h'.mac?_eq.trans h.mac?_eq⟩

/-- The deadline is nothing that lasts. -/
theorem withDeadlineOf (e old : Entry α) : e.Continues (e.withDeadlineOf old) := ⟨rfl, rfl, rfl⟩

/-- An entry that is used continues itself. -/
theorem used (cfg : Config) (now : Nat) (e : Entry α) : e.Continues (e.used cfg now) :=
  ⟨generation_used, kind_used, mac?_used⟩

end Entry.Continues

/-- What a call does to the binding of `a`, whether it goes through or stops: the entry afterwards
and what is sent for `a`. -/
inductive Effect (r : Responder) (c : Cache α) (now : Nat) (a : Address) (call : Call α) :
    Option (Entry α) → List (Outbound α) → Prop
  | absent (hfind : c.store.find? a = none) : Effect r c now a call none []
  | gone {e : Entry α} (hfind : c.store.find? a = some e)
      (hcause : e.kind = .dynamic ∨ call = .invalidate a ∨ call = .invalidateAll) :
      Effect r c now a call none []
  | kept {e e' : Entry α} (hfind : c.store.find? a = some e) (hcontinues : e.Continues e') :
      Effect r c now a call (some e') []
  | passed {e e' : Entry α} {packet : α} {mac : Mac} (hfind : c.store.find? a = some e)
      (hcontinues : e.Continues e') (hmac : e.mac? = some mac) (hcall : call = .resolve a packet) :
      Effect r c now a call (some e') [.packet packet mac]
  | checked {e e' : Entry α} {mac : Mac} (hfind : c.store.find? a = some e)
      (hcontinues : e.Continues e') (hmac : e.mac? = some mac) (hkind : e.kind = .dynamic) :
      Effect r c now a call (some e') [.unicastProbe a mac]
  /-- A new entry, or one that is asked for again or given up. -/
  | unbound {e' : Entry α} {sent : List (Outbound α)}
      (hbefore : ∀ e, c.store.find? a = some e → e.kind = .dynamic) (hkind : e'.kind = .dynamic)
      (hafter : e'.mac? = none) (hsent : ∀ x ∈ sent, x = .broadcastProbe a) :
      Effect r c now a call (some e') sent
  | bound {e' : Entry α} {mac : Mac} {sent : List (Outbound α)}
      (hbefore : ∀ e, c.store.find? a = some e → e.kind = .dynamic) (hkind : e'.kind = .dynamic)
      (hafter : e'.mac? = some mac) (htells : Tells r c now a call sent mac)
      (hsent : ∀ x ∈ sent, x = .broadcastProbe a ∨
        ∃ packet ∈ c.waitingAt a ++ call.offers a, x = .packet packet mac) :
      Effect r c now a call (some e') sent
  | pinned {e' : Entry α} {mac : Mac} (hcall : call = .pin a mac)
      (hadmits : c.store.admits a = true) (hkind : e'.kind = .permanent)
      (hafter : e'.mac? = some mac) :
      Effect r c now a call (some e') ((c.waitingAt a).map (.packet · mac))

section Effects

variable {r : Responder} {c : Cache α} {now : Nat} {a : Address} {call : Call α}
  {after : Option (Entry α)} {sent : List (Outbound α)}

namespace Effect

/-- An address that is left alone. -/
theorem rest : Effect r c now a call (c.store.find? a) [] := by
  cases hfind : c.store.find? a with
  | none => exact .absent hfind
  | some e => exact .kept hfind (.refl e)

/-- An address that is spared loses at most a dynamic entry. -/
theorem of_spared {b : Address} (h : c.store.Spared b a after) : Effect r c now a call after [] := by
  rcases h with rfl | ⟨rfl, _, _, e, hfind, hevictable⟩
  · exact rest
  · exact .gone hfind (.inl (Entry.dynamic_of_isEvictable hevictable))

/-- An address that is removed by name. -/
theorem removed (hcall : call = .invalidate a ∨ call = .invalidateAll) :
    Effect r c now a call none [] := by
  cases hfind : c.store.find? a with
  | none => exact .absent hfind
  | some e => exact .gone hfind (.inr hcall)

/-- An entry that takes an answer to its broadcast probe, or none, is bound or unbound. -/
theorem of_answered {e : Entry α} (haddress : e.address = a) (hkind : e.kind = .dynamic)
    (hmac : e.mac? = none) (hbefore : ∀ e, c.store.find? a = some e → e.kind = .dynamic)
    (hwaiting : ∀ packet ∈ e.waiting, packet ∈ c.waitingAt a ++ call.offers a) :
    Effect r c now a call (some (e.answered c.config r now).1)
      (.broadcastProbe a :: (e.answered c.config r now).2) := by
  subst haddress
  rcases e.answered_cases with ⟨_, hanswered⟩ | ⟨mac, hheard, hanswered⟩
  · rw [hanswered]
    exact .unbound hbefore hkind hmac (by simp)
  · rw [hanswered]
    refine .bound hbefore hkind rfl (.inr ⟨List.mem_cons_self, hheard⟩) fun x hx => ?_
    rcases List.mem_cons.mp hx with rfl | hx
    · exact .inl rfl
    · obtain ⟨packet, hpacket, rfl⟩ := List.mem_map.mp hx
      exact .inr ⟨packet, hwaiting packet hpacket, rfl⟩

end Effect

/-- What waits in the entry of an address waits at the address. -/
theorem Cache.waiting_entryFor : (c.store.entryFor a now).waiting = c.waitingAt a := by
  cases hfind : c.store.find? a with
  | none =>
    rw [Store.entryFor_of_none hfind, waitingAt_of_none hfind]
    rfl
  | some e => rw [Store.entryFor_of_some hfind, waitingAt_of_some hfind]

/-- Evidence counts for dynamic entries only. -/
theorem Cache.dynamic_of_learns {mac : Mac} (h : c.learns now a mac = true) :
    (c.store.entryFor a now).kind = .dynamic := by
  unfold learns at h
  rw [Bool.and_eq_true] at h
  exact Entry.kind_of_accepts h.2

/-- A cache does not learn of an address with a permanent entry. -/
theorem Cache.dynamic_of_learns_of_find? {mac : Mac} {e : Entry α} (h : c.learns now a mac = true)
    (hfind : c.store.find? a = some e) : e.kind = .dynamic := by
  rw [← Store.entryFor_of_some hfind]
  exact dynamic_of_learns h

/-- The entry of a vacant address is dynamic, if there is one. -/
theorem Cache.Vacant.dynamic {e : Entry α} (h : c.Vacant now a) (hc : c.Coherent)
    (hfind : c.store.find? a = some e) : e.kind = .dynamic :=
  (hc.of_find? hfind).dynamic_of_state ((h e hfind).1.trans_ne (by decide))

/-- What waits in the first entry of a resolution was offered. -/
theorem Cache.mem_waiting_opening {packet p : α} (h : p ∈ (c.opening now a packet).waiting) :
    p ∈ c.waitingAt a ++ (Call.resolve a packet).offers a := by
  rw [waiting_opening] at h
  split at h
  · cases h
  · rw [List.mem_singleton.mp h]
    exact List.mem_append_right _ (by simp [Call.offers])

/-- What resolving an address does to its binding. -/
theorem Cache.Resolves.effect {packet : α} {resolution : Resolution} (hc : c.Coherent)
    (h : c.Resolves r now a packet resolution after sent) :
    Effect r c now a (.resolve a packet) after sent := by
  cases h with
  | refused hfind => exact .kept hfind (.refl _)
  | noRoom hfind => exact .absent hfind
  | opened hvacant =>
    exact .of_answered rfl rfl rfl (fun e hfind => hvacant.dynamic hc hfind)
      fun p hp => mem_waiting_opening hp
  | passed hfind hmac => exact .passed hfind (.used _ _ _) hmac rfl
  | parked hfind hstatus =>
    refine .kept hfind ⟨rfl, rfl, ?_⟩
    rw [Entry.mac?, Entry.mac?, hstatus]
    rfl

/-- What time leaves of an entry either continues it or has no link address. -/
theorem Entry.Passes.continues {cfg : Config} {e : Entry α} {aged : Aged α} (hcoherent : e.Coherent)
    (h : e.Passes cfg now aged) :
    e.Continues aged.entry ∨ e.kind = .dynamic ∧ aged.entry.mac? = none := by
  cases h with
  | idle | expired => exact .inl (.refl e)
  | gaveUp hdue => exact .inr ⟨hcoherent.dynamic_of_due hdue, rfl⟩
  | reprobed hdue => exact .inr ⟨hcoherent.dynamic_of_due hdue, rfl⟩
  | rechecked _ hstatus | checked _ hstatus | staled _ hstatus =>
    refine .inl ⟨rfl, rfl, ?_⟩
    rw [mac?, mac?, hstatus]
    rfl

/-- An entry on which time has acted without sending. -/
theorem Entry.Passes.effect {e e' : Entry α} {aged : Aged α} (hcoherent : e.Coherent)
    (hfind : c.store.find? a = some e) (h : e.Passes c.config now aged)
    (hafter : aged.entry.Continues e') : Effect r c now a call (some e') [] := by
  rcases h.continues hcoherent with hcontinues | ⟨hkind, hmac⟩
  · exact .kept hfind (hcontinues.trans hafter)
  · refine .unbound (fun x hx => ?_) ?_ (hafter.mac?_eq.trans hmac) nofun
    · cases hfind.symm.trans hx
      exact hkind
    · rw [hafter.kind_eq, h.kind_eq, hkind]

/-- An entry on which time has acted in a tick that handed its probe over. -/
theorem Entry.Passes.effect_settled {e : Entry α} {aged : Aged α} (hcoherent : e.Coherent)
    (hfind : c.store.find? a = some e) (h : e.Passes c.config now aged) :
    Effect r c now a call (aged.settled c.config r now).1 (aged.settled c.config r now).2 := by
  have haddress := Store.address_of_find? hfind
  have hpasses := h
  cases h with
  | idle | staled | gaveUp => exact hpasses.effect hcoherent hfind (.refl _)
  | expired hdue => exact .gone hfind (.inl (hcoherent.dynamic_of_due hdue))
  | rechecked hdue hstatus | checked hdue hstatus =>
    have hmac := congrArg Status.mac? hstatus
    subst haddress
    exact .checked hfind ⟨rfl, rfl, hmac.symm⟩ hmac (hcoherent.dynamic_of_due hdue)
  | reprobed hdue hstatus =>
    have hkind := hcoherent.dynamic_of_due hdue
    subst haddress
    refine .of_answered rfl hkind rfl (fun x hx => ?_) fun p hp => ?_
    · cases hfind.symm.trans hx
      exact hkind
    · rw [Cache.waitingAt_of_some hfind, Entry.waiting, hstatus]
      exact List.mem_append_left _ hp

/-- A call that goes through has one of the eight effects on every address. -/
theorem Turn.effect {answer : Answer} (hc : c.Coherent)
    (h : Turn r c now a call answer after sent) : Effect r c now a call after sent := by
  cases h with
  | resolved hresolves => exact hresolves.effect hc
  | learned hevidence hlearns =>
    cases hlearns with
    | ignored => exact .rest
    | learned hlearns =>
      refine .bound (fun e hfind => Cache.dynamic_of_learns_of_find? hlearns hfind)
        (Cache.dynamic_of_learns hlearns) rfl (.inl ⟨hevidence, hlearns⟩) fun x hx => ?_
      obtain ⟨packet, hpacket, rfl⟩ := List.mem_map.mp hx
      rw [Cache.waiting_entryFor] at hpacket
      exact .inr ⟨packet, List.mem_append_left _ hpacket, rfl⟩
  | hinted hhints =>
    cases hhints with
    | ignored => exact .rest
    | counted hfind hmac => exact .kept hfind ⟨rfl, rfl, hmac.symm⟩
  | pinned hpins =>
    cases hpins with
    | refused => exact .rest
    | pinned hadmits =>
      rw [Cache.waiting_entryFor]
      exact .pinned rfl hadmits rfl rfl
  | aged hages =>
    cases hages with
    | absent hfind => exact .absent hfind
    | aged hfind hpasses => exact hpasses.effect_settled (hc.of_find? hfind) hfind
  | removed => exact .removed (.inl rfl)
  | cleared => exact .removed (.inr rfl)
  | aside _ _ hspared => exact .of_spared hspared

/-- A call that stops has had one of the eight effects on every address. -/
theorem Stop.effect (hc : c.Coherent) (h : Stop r c now a call after sent) :
    Effect r c now a call after sent := by
  have hprobe (mac : Mac) : ∀ x ∈ [Outbound.broadcastProbe a], x = .broadcastProbe a ∨
      ∃ packet ∈ c.waitingAt a ++ call.offers a, x = .packet packet mac :=
    fun x hx => .inl (List.mem_singleton.mp hx)
  cases h with
  | unopened hvacant =>
    exact .unbound (fun e hfind => hvacant.dynamic hc hfind) rfl rfl nofun
  | answered hvacant hheard =>
    exact .bound (fun e hfind => hvacant.dynamic hc hfind) rfl rfl
      (.inr ⟨List.mem_cons_self, hheard⟩) (hprobe _)
  | unused hfind => exact .kept hfind ((Entry.Continues.used _ _ _).trans (.withDeadlineOf _ _))
  | unlearned hevidence hlearns =>
    exact .bound (fun e hfind => Cache.dynamic_of_learns_of_find? hlearns hfind)
      (Cache.dynamic_of_learns hlearns) rfl (.inl ⟨hevidence, hlearns⟩) nofun
  | unhinted hfind hmac => exact .kept hfind ⟨rfl, rfl, hmac.symm⟩
  | ticked hticked =>
    cases hticked with
    | untouched => exact .rest
    | visited hfind hpasses => exact hpasses.effect (hc.of_find? hfind) hfind (.refl _)
    | halted hfind hpasses => exact hpasses.effect (hc.of_find? hfind) hfind (.withDeadlineOf _ _)
    | settled hfind hpasses => exact hpasses.effect_settled (hc.of_find? hfind) hfind
    | @answered e aged mac hfind hpasses hdue hheard =>
      have hkind := (hc.of_find? hfind).dynamic_of_mac? (hpasses.unresolved hdue).2.1
      refine .bound (fun x hx => ?_) (hpasses.kind_eq.trans hkind) rfl
        (.inr ⟨List.mem_cons_self, hheard⟩) (hprobe mac)
      cases hfind.symm.trans hx
      exact hkind
  | aside _ _ hspared => exact .of_spared hspared

/-- A call that stops has left any binding that it told. -/
theorem Stop.bound_of_tells {mac : Mac} (h : Stop r c now a call after sent)
    (htells : Tells r c now a call sent mac) : ∃ e, after = some e ∧ e.mac? = some mac := by
  rcases htells with ⟨hevidence, _⟩ | ⟨hprobe, hheard⟩
  · cases h with
    | unlearned hevidence' =>
      cases hevidence.symm.trans hevidence'
      exact ⟨_, rfl, rfl⟩
    | aside _ hsubject => exact absurd (Call.subject?_of_evidence hevidence) hsubject
    | unopened | answered | unused | unhinted | ticked => cases hevidence
  · cases h with
    | answered _ hheard' =>
      cases hheard.symm.trans hheard'
      exact ⟨_, rfl, rfl⟩
    | ticked hticked =>
      cases hticked with
      | settled hfind hpasses =>
        obtain ⟨e, hafter, hmac, _⟩ :=
          hpasses.confirmed_of_heard (Store.address_of_find? hfind) hprobe hheard
        exact ⟨e, hafter, hmac⟩
      | answered _ _ _ hheard' =>
        cases hheard.symm.trans hheard'
        exact ⟨_, rfl, rfl⟩
      | untouched | visited | halted => cases hprobe
    | unopened | unused | unlearned | unhinted | aside => cases hprobe

namespace Effect

/-- A probe that is sent for an address asks for it. -/
theorem target {x : Outbound α} {b : Address} (h : Effect r c now a call after sent)
    (hx : x ∈ sent) (htarget : x.target? = some b) : b = a := by
  cases h with
  | absent | gone | kept => cases hx
  | passed =>
    cases List.mem_singleton.mp hx
    cases htarget
  | checked =>
    cases List.mem_singleton.mp hx
    exact (Option.some.inj htarget).symm
  | unbound _ _ _ hsent =>
    rw [hsent x hx] at htarget
    exact (Option.some.inj htarget).symm
  | bound _ _ _ _ hsent =>
    rcases hsent x hx with rfl | ⟨_, _, rfl⟩
    · exact (Option.some.inj htarget).symm
    · cases htarget
  | pinned =>
    obtain ⟨_, _, rfl⟩ := List.mem_map.mp hx
    cases htarget

/-- A link address comes from evidence, is given for good, or was there before. -/
theorem source {e' : Entry α} {mac : Mac} (h : Effect r c now a call after sent)
    (hafter : after = some e') (hmac : e'.mac? = some mac) :
    Tells r c now a call sent mac ∨
      (call = .pin a mac ∧ c.store.admits a = true ∧ e'.kind = .permanent) ∨
      ∃ e, c.store.find? a = some e ∧ e.Continues e' := by
  cases h with
  | absent | gone => cases hafter
  | kept hfind hcontinues | passed hfind hcontinues | checked hfind hcontinues =>
    cases hafter
    exact .inr (.inr ⟨_, hfind, hcontinues⟩)
  | unbound _ _ hnone =>
    cases hafter
    cases hnone.symm.trans hmac
  | bound _ _ hbound htells =>
    cases hafter
    cases hbound.symm.trans hmac
    exact .inl htells
  | pinned hcall hadmits hkind hbound =>
    cases hafter
    cases hbound.symm.trans hmac
    exact .inr (.inl ⟨hcall, hadmits, hkind⟩)

/-- A unicast probe goes to the station to which a dynamic entry is bound. -/
theorem station_of_probe {b : Address} {mac : Mac} (h : Effect r c now a call after sent)
    (hx : .unicastProbe b mac ∈ sent) :
    ∃ e, c.store.find? a = some e ∧ e.mac? = some mac ∧ e.kind = .dynamic := by
  cases h with
  | absent | gone | kept => cases hx
  | passed => cases List.mem_singleton.mp hx
  | checked hfind _ hmac hkind =>
    cases List.mem_singleton.mp hx
    exact ⟨_, hfind, hmac, hkind⟩
  | unbound _ _ _ hsent => cases hsent _ hx
  | bound _ _ _ _ hsent => rcases hsent _ hx with heq | ⟨_, _, heq⟩ <;> cases heq
  | pinned =>
    obtain ⟨_, _, heq⟩ := List.mem_map.mp hx
    cases heq

/-- A packet that goes out waited at the address or was offered for it, and goes to the station to
which the address is bound then. -/
theorem station_of_packet {packet : α} {mac : Mac} (h : Effect r c now a call after sent)
    (hx : .packet packet mac ∈ sent) :
    packet ∈ c.waitingAt a ++ call.offers a ∧ ∃ e, after = some e ∧ e.mac? = some mac := by
  cases h with
  | absent | gone | kept => cases hx
  | passed hfind hcontinues hmac hcall =>
    cases List.mem_singleton.mp hx
    refine ⟨List.mem_append_right _ ?_, _, rfl, hcontinues.mac?_eq.trans hmac⟩
    rw [hcall]
    simp [Call.offers]
  | checked => cases List.mem_singleton.mp hx
  | unbound _ _ _ hsent => cases hsent _ hx
  | bound _ _ hafter _ hsent =>
    rcases hsent _ hx with heq | ⟨_, hpacket, heq⟩
    · cases heq
    · cases heq
      exact ⟨hpacket, _, rfl, hafter⟩
  | pinned hcall _ _ hafter =>
    obtain ⟨_, hpacket, heq⟩ := List.mem_map.mp hx
    cases heq
    exact ⟨List.mem_append_left _ hpacket, _, rfl, hafter⟩

end Effect

end Effects

namespace Cache

variable {c : Cache α} {q : Request α} {sent : List (Address × Outbound α)}

/-- What a request does to all addresses. All that is sent stands in `sent` with the address for
which it is sent. -/
structure Serves (c : Cache α) (q : Request α) (sent : List (Address × Outbound α)) : Prop where
  sent_eq : sent.map (·.2) = (c.serve q).sent
  effect : ∀ a, Effect q.responder c q.now a q.call ((c.serve q).left.store.find? a) (share a sent)
  bound : ∀ a mac, Tells q.responder c q.now a q.call (share a sent) mac →
    ∃ e, (c.serve q).left.store.find? a = some e ∧ e.mac? = some mac

/-- A request that goes through serves each address by the turn that it takes there. -/
theorem Serves.of_turns {o : Outcome α Answer} (hc : c.Coherent) (hserve : c.serve q = .ok o)
    (hsent : sent.map (·.2) = o.sent)
    (hturn : ∀ a, Turn q.responder c q.now a q.call o.answer (o.cache.store.find? a)
      (share a sent)) : c.Serves q sent := by
  refine ⟨?_, fun a => ?_, fun a mac htells => ?_⟩
  · rw [hserve]
    exact hsent
  · rw [hserve]
    exact (hturn a).effect hc
  · rw [hserve]
    obtain ⟨e, hafter, hmac, _⟩ := (hturn a).bound_of_tells htells
    exact ⟨e, hafter, hmac⟩

/-- A request that stops serves each address by what it has done there. -/
theorem Serves.of_stops {h : Halted α} (hc : c.Coherent) (hserve : c.serve q = .error h)
    (hsent : sent.map (·.2) = h.sent)
    (hstop : ∀ a, Stop q.responder c q.now a q.call (h.cache.store.find? a) (share a sent)) :
    c.Serves q sent := by
  refine ⟨?_, fun a => ?_, fun a mac htells => ?_⟩
  · rw [hserve]
    exact hsent
  · rw [hserve]
    exact (hstop a).effect hc
  · rw [hserve]
    exact (hstop a).bound_of_tells htells

/-- Every request, whether it goes through or stops, has an effect on each address. -/
theorem Coherent.serves (hc : c.Coherent) (q : Request α) : ∃ sent, c.Serves q sent := by
  cases hserve : c.serve q with
  | ok o =>
    obtain ⟨sent, hsent, hturn⟩ := (hc.turns hserve).turns
    exact ⟨sent, .of_turns hc hserve hsent hturn⟩
  | error h =>
    obtain ⟨sent, hsent, hstop⟩ := perform_stops hc hserve
    exact ⟨sent, .of_stops hc hserve hsent hstop⟩

namespace Serves

variable {a : Address} {x : Outbound α}

/-- All that is sent is sent for some address. -/
theorem exists_share (h : c.Serves q sent) (hx : x ∈ (c.serve q).sent) :
    ∃ a, x ∈ share a sent := by
  rw [← h.sent_eq] at hx
  obtain ⟨y, hy, rfl⟩ := List.mem_map.mp hx
  exact ⟨y.1, List.mem_map.mpr ⟨y, List.mem_filter.mpr ⟨hy, by simp⟩, rfl⟩⟩

/-- A probe is sent for the address that it asks for. -/
theorem mem_share (h : c.Serves q sent) (hx : x ∈ (c.serve q).sent) (htarget : x.target? = some a) :
    x ∈ share a sent := by
  obtain ⟨b, hb⟩ := h.exists_share hx
  rw [(h.effect b).target hb htarget]
  exact hb

/-- If nothing is sent for an address, no probe asks for it. -/
theorem unasked_of_share_eq_nil (h : c.Serves q sent) (hquiet : share a sent = []) :
    ∀ x ∈ (c.serve q).sent, x.target? ≠ some a := by
  intro x hx htarget
  have hshare := h.mem_share hx htarget
  rw [hquiet] at hshare
  cases hshare

/-- What a request tells of an address is in what is sent for it. -/
theorem tells_iff {mac : Mac} (h : c.Serves q sent) :
    Tells q.responder c q.now a q.call (c.serve q).sent mac ↔
      Tells q.responder c q.now a q.call (share a sent) mac := by
  constructor
  · rintro (hcall | ⟨hprobe, hheard⟩)
    · exact .inl hcall
    · exact .inr ⟨h.mem_share hprobe rfl, hheard⟩
  · exact fun htells => htells.mono fun x hx => h.sent_eq ▸ mem_of_mem_share hx

end Serves

end Cache

end Neighbor
