import Neighbor.Proofs.Effect

/-!
# Where bindings come from

The link address of an entry passes from state to state and is installed anew by hints, so that it
is where it is says little. `Cache.Warranted` goes back to its source: a request that told the
binding, or gave it for good, since when the address has always had an entry and no request has
bound it to another station. Every binding that a cache shows is warranted, and so is every one by
which a probe or a packet finds its station (`Cache.bindings_backed`).
-/

namespace Neighbor

variable {α : Type}

/-- One host at one station: neither address stands for none, for all, or for a group. -/
structure Individual (a : Address) (mac : Mac) : Prop where
  specified : a ≠ .unspecified
  host : a ≠ .broadcast
  nonzero : mac ≠ .zero
  single : mac.isMulticast = false
  station : mac ≠ .broadcast

/-- A binding that can be learned is for one host at one station. -/
theorem Individual.of_usable {a : Address} {mac : Mac}
    (h : Cache.isUsableBinding a mac = true) : Individual a mac := by
  simp only [Cache.isUsableBinding, Address.isUsable, Mac.isUnicast, Bool.and_eq_true,
    Bool.not_eq_true', bne_iff_ne] at h
  obtain ⟨⟨hspecified, hhost⟩, hsingle, hnonzero⟩ := h
  refine ⟨hspecified, hhost, hnonzero, hsingle, ?_⟩
  rintro rfl
  cases hsingle

/-- The request binds `a` to `mac`, by evidence that counts or for good. -/
def Request.Binds (q : Request α) (c : Cache α) (a : Address) (mac : Mac) : Prop :=
  Tells q.responder c q.now a q.call (c.serve q).sent mac ∨
    (q.call = .pin a mac ∧ ∃ o, c.serve q = .ok o ∧ o.answer.isPinned = true)

/-- Evidence that counts is for one host at one station. -/
theorem Tells.individual {r : Responder} {c : Cache α} {now : Nat} {a : Address} {call : Call α}
    {sent : List (Outbound α)} {mac : Mac} (h : Tells r c now a call sent mac) :
    Individual a mac := by
  apply Individual.of_usable
  rcases h with ⟨_, hlearns⟩ | ⟨_, hheard⟩
  · unfold Cache.learns at hlearns
    rw [Bool.and_eq_true, Bool.and_eq_true] at hlearns
    exact hlearns.1.1
  · exact (Option.filter_eq_some_iff.mp hheard).2

namespace Cache

variable {c : Cache α} {q : Request α} {qs : List (Request α)} {a : Address} {mac : Mac}

/-- A permanent binding is given exactly if there is or can be an entry, and is in force then. -/
theorem serve_pin (hs : c.store.WellFormed) (hcall : q.call = .pin a mac) :
    ∃ o, c.serve q = .ok o ∧ o.answer.isPinned = c.store.admits a ∧
      (o.answer.isPinned = true →
        ∃ e, o.cache.store.find? a = some e ∧ e.mac? = some mac) := by
  refine ⟨(c.pin q.now a mac).map .pinned, by rw [serve, hcall]; rfl, ?_⟩
  have hpins : Pins c q.now a mac (c.pin q.now a mac).answer
      ((c.pin q.now a mac).cache.store.find? a) (c.pin q.now a mac).sent := (pin_pins hs).1
  change (Answer.pinned (c.pin q.now a mac).answer).isPinned = _ ∧
    ((Answer.pinned (c.pin q.now a mac).answer).isPinned = true →
      ∃ e, (c.pin q.now a mac).cache.store.find? a = some e ∧ _)
  generalize (c.pin q.now a mac).answer = answer at hpins ⊢
  generalize (c.pin q.now a mac).cache.store.find? a = after at hpins ⊢
  generalize (c.pin q.now a mac).sent = sent at hpins
  cases hpins with
  | pinned hadmits => exact ⟨hadmits.symm, fun _ => ⟨_, rfl, rfl⟩⟩
  | refused hadmits => exact ⟨hadmits.symm, nofun⟩

/-- A binding is in force when the request that makes it has been served. -/
theorem bound_of_binds (hc : c.Coherent) (h : q.Binds c a mac) :
    ∃ e, (c.serve q).left.store.find? a = some e ∧ e.mac? = some mac := by
  rcases h with htells | ⟨hcall, o, hserve, hpinned⟩
  · obtain ⟨sent, hserves⟩ := hc.serves q
    exact hserves.bound a mac (hserves.tells_iff.mp htells)
  · obtain ⟨o', hserve', _, hbound⟩ := serve_pin hc.wellFormed hcall
    cases hserve.symm.trans hserve'
    rw [hserve]
    exact hbound hpinned

/-- A binding that is in force was made by the request just served, or before. -/
theorem binds_or_continues (hc : c.Coherent) {e' : Entry α}
    (hfind : (c.serve q).left.store.find? a = some e') (hmac : e'.mac? = some mac) :
    (q.Binds c a mac ∧ (e'.kind = .dynamic → Individual a mac)) ∨
      ∃ e, c.store.find? a = some e ∧ e.Continues e' := by
  obtain ⟨sent, hserves⟩ := hc.serves q
  rcases (hserves.effect a).source hfind hmac with
    htells | ⟨hcall, hadmits, hkind⟩ | hcontinues
  · have htells := hserves.tells_iff.mpr htells
    exact .inl ⟨.inl htells, fun _ => htells.individual⟩
  · obtain ⟨o, hserve, hpinned, _⟩ := serve_pin hc.wellFormed hcall
    refine .inl ⟨.inr ⟨hcall, o, hserve, hpinned.trans hadmits⟩, fun hsoft => ?_⟩
    cases hkind.symm.trans hsoft
  · exact .inr hcontinues

/-- A request among `qs` bound `a` to `mac`; since then `a` has always had an entry, and no request
has bound it to another station. -/
def Warranted (c : Cache α) (qs : List (Request α)) (a : Address) (mac : Mac) : Prop :=
  ∃ xs q ys, qs = xs ++ q :: ys ∧ q.Binds (c.serveAll xs) a mac ∧
    (∀ zs, zs <+: ys → ((c.serveAll (xs ++ q :: zs)).store.find? a).isSome) ∧
    ∀ zs q', zs ++ [q'] <+: ys →
      ∀ mac', q'.Binds (c.serveAll (xs ++ q :: zs)) a mac' → mac' = mac

/-- The request that has just made a binding warrants it. -/
theorem Warranted.of_binds (hbinds : q.Binds (c.serveAll qs) a mac)
    (hpresent : ((c.serveAll (qs ++ [q])).store.find? a).isSome) : c.Warranted (qs ++ [q]) a mac := by
  refine ⟨qs, q, [], rfl, hbinds, fun zs hzs => ?_, fun zs q' hzs => ?_⟩
  · rw [List.prefix_nil.mp hzs]
    exact hpresent
  · simp at hzs

/-- A warrant lasts while the address has an entry and is bound to no other station. -/
theorem Warranted.snoc (h : c.Warranted qs a mac)
    (hpresent : ((c.serveAll (qs ++ [q])).store.find? a).isSome)
    (hbinds : ∀ mac', q.Binds (c.serveAll qs) a mac' → mac' = mac) :
    c.Warranted (qs ++ [q]) a mac := by
  obtain ⟨xs, p, ys, rfl, hp, hstays, honly⟩ := h
  refine ⟨xs, p, ys ++ [q], by simp, hp, fun zs hzs => ?_, fun zs q' hzs => ?_⟩
  · rcases List.prefix_concat_iff.mp hzs with rfl | hzs
    · simpa using hpresent
    · exact hstays zs hzs
  · rcases List.prefix_concat_iff.mp hzs with heq | hzs
    · obtain ⟨rfl, hq⟩ := List.append_inj' heq rfl
      cases hq
      exact hbinds
    · exact honly zs q' hzs

/-- The binding of `a` to `mac` is in force after `qs`, it is warranted, and it is for one host at one
station if it was learned. -/
structure Backed (c : Cache α) (qs : List (Request α)) (a : Address) (mac : Mac) : Prop where
  bound : ∃ e, (c.serveAll qs).store.find? a = some e ∧ e.mac? = some mac ∧
    (e.kind = .dynamic → Individual a mac)
  warranted : c.Warranted qs a mac

/-- Every binding that requests make in a cache without entries is backed by one of them. -/
theorem Coherent.backed (hc : c.Coherent) (hempty : ∀ a, c.store.find? a = none) {e : Entry α}
    (hfind : (c.serveAll qs).store.find? a = some e) (hmac : e.mac? = some mac) :
    c.Backed qs a mac := by
  induction qs using List.reverseRecOn generalizing e with
  | nil => cases (hempty a).symm.trans hfind
  | append_singleton qs q ih =>
    obtain ⟨hd, _⟩ := hc.serveAll qs
    have hpresent : ((c.serveAll (qs ++ [q])).store.find? a).isSome := by rw [hfind]; rfl
    have hserved := hfind
    rw [serveAll_snoc] at hserved
    -- the last request made the binding, or found it warranted and bound nothing else
    rcases binds_or_continues hd hserved hmac with ⟨hbinds, hindividual⟩ | ⟨old, hold, hcontinues⟩
    · exact ⟨⟨e, hfind, hmac, hindividual⟩, .of_binds hbinds hpresent⟩
    · obtain ⟨⟨old', hold', _, hindividual⟩, hwarranted⟩ :=
        ih hold (hcontinues.mac?_eq.symm.trans hmac)
      cases hold.symm.trans hold'
      refine ⟨⟨e, hfind, hmac, hcontinues.kind_eq ▸ hindividual⟩,
        hwarranted.snoc hpresent fun mac' hbinds => ?_⟩
      obtain ⟨e', hserved', hmac'⟩ := bound_of_binds hd hbinds
      cases hserved.symm.trans hserved'
      exact Option.some.inj (hmac'.symm.trans hmac)

/-- Bindings come from evidence for their address only. Whatever a configured cache was asked and
told, every binding that it shows is backed, and so are those by which the next request sends its
unicast probes and its packets: a packet that goes out waited at an address, or is offered for one,
that is bound to the station to which it goes. -/
theorem bindings_backed (cfg : Config) (start : Nat) (qs : List (Request α)) :
    let first : Cache α := empty cfg
    let log := installation cfg start ++ qs
    let d := (create cfg start : Outcome α Unit).cache.serveAll qs
    (∀ a mac state, d.lookup a = some (mac, state) → first.Backed log a mac) ∧
    ∀ q : Request α,
      (∀ a mac, .unicastProbe a mac ∈ (d.serve q).sent →
        first.Backed log a mac ∧ Individual a mac) ∧
      ∀ packet mac, .packet packet mac ∈ (d.serve q).sent →
        ∃ a, packet ∈ d.waitingAt a ++ q.call.offers a ∧ first.Backed (log ++ [q]) a mac := by
  intro first log d
  have hfirst : first.Coherent := empty_coherent cfg
  have hd : d = first.serveAll log := by rw [serveAll_append, ← create_eq]
  have hbacked {a : Address} {e : Entry α} {mac : Mac} (hfind : d.store.find? a = some e)
      (hmac : e.mac? = some mac) : first.Backed log a mac :=
    hfirst.backed (fun _ => rfl) (hd ▸ hfind) hmac
  refine ⟨fun a mac state hlookup => ?_, fun q => ?_⟩
  · obtain ⟨e, hfind, hshown⟩ := Option.bind_eq_some_iff.mp hlookup
    obtain ⟨mac', hmac, heq⟩ := Option.map_eq_some_iff.mp hshown
    cases heq
    exact hbacked hfind hmac
  · have hcoherent : d.Coherent := hd ▸ (hfirst.serveAll log).1
    obtain ⟨sent, hserves⟩ := hcoherent.serves q
    refine ⟨fun a mac hprobe => ?_, fun packet mac hpacket => ?_⟩
    · obtain ⟨e, hfind, hmac, hkind⟩ :=
        (hserves.effect a).station_of_probe (hserves.mem_share hprobe rfl)
      have hback := hbacked hfind hmac
      obtain ⟨e', hfind', _, hindividual⟩ := hback.bound
      rw [← hd, hfind] at hfind'
      cases hfind'
      exact ⟨hback, hindividual hkind⟩
    · obtain ⟨a, hshare⟩ := hserves.exists_share hpacket
      obtain ⟨hsource, e, hafter, hmac⟩ := (hserves.effect a).station_of_packet hshare
      refine ⟨a, hsource, hfirst.backed (fun _ => rfl) ?_ hmac⟩
      rw [serveAll_snoc, ← hd]
      exact hafter

/-- A packet that waits for an address goes to the station that claims the address. -/
theorem bindings_backed_of_claim :
    let a : Address := ⟨10, 0, 0, 5⟩
    let mac : Mac := ⟨2, 0, 0, 0, 0, 1⟩
    let asks : Request Nat := ⟨.silent, 1, .resolve a 7⟩
    let claims : Request Nat := ⟨.silent, 2, .observe a mac⟩
    (empty .brief : Cache Nat).Backed [asks, claims] a mac ∧
      ∃ b, (empty .brief : Cache Nat).Backed [asks, claims] b mac ∧
        7 ∈ ((create .brief 0 : Outcome Nat Unit).cache.serveAll [asks]).waitingAt b := by
  intro a mac asks claims
  obtain ⟨hbound, _⟩ := bindings_backed .brief 0 [asks, claims]
  obtain ⟨_, hsends⟩ := bindings_backed .brief 0 [asks]
  obtain ⟨b, hwaits, hbacked⟩ := (hsends claims).2 7 mac (by decide +kernel)
  exact ⟨hbound a mac .reachable (by decide +kernel), b, hbacked,
    (List.mem_append.mp hwaits).resolve_right nofun⟩

end Cache

end Neighbor
