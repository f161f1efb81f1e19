import Neighbor.Proofs.Exchange

/-!
# What the network can do

Whoever sends a message chooses all its bytes. Only a message that the cache heeds can change it,
and only as evidence for the binding of its sender does; only a request for our own address draws a
reply, and the reply tells our binding. So traffic between others makes no entry for a new sender,
and nothing that the network sends binds our own address (`Cache.Reached.guarded`).
-/

namespace Neighbor.Cache

variable {α : Type} {c : Cache α} {now : Nat} {host : Host} {m : Message} {bytes : List UInt8}

/-- Evidence for a binding of `a`, whether it is taken in or stops at the end of the clock, works on
`a` alone. -/
theorem observe_worksOn (hs : c.store.WellFormed) (now : Nat) (a : Address) (mac : Mac) :
    c.WorksOn a (c.observe now a mac).left := by
  have hobserved := c.observe_observed now a mac
  generalize c.observe now a mac = attempt at hobserved ⊢
  cases hobserved with
  | ignored _ hleft => rcases hleft with rfl | rfl <;> exact .of_store_eq rfl rfl
  | @learned x _ hclaims =>
    exact .of_claims (e := x.entry.bound c.config mac now) hs hclaims hclaims.address_eq rfl
      (by simp) (by simp)
  | @halted x _ hclaims =>
    exact .of_claims (e := (x.entry.bound c.config mac now).withDeadlineOf x.entry) hs hclaims
      hclaims.address_eq rfl rfl rfl

/-- Bytes from the network change a cache as evidence does or not at all. -/
theorem receive_left (now : Nat) (host : Host) (bytes : List UInt8) :
    (c.receive now host bytes).left = c ∨
      ∃ a mac, a ≠ host.ip ∧ (c.receive now host bytes).left = (c.observe now a mac).left := by
  rcases c.heeds_cases host bytes with ⟨m, hdecode, hheeds⟩ | hunheeded
  · refine .inr ⟨m.senderIp, m.senderMac, hheeds.foreign, ?_⟩
    rw [receive_of_heeds hdecode hheeds, Attempt.left_mapAnswer]
  · obtain ⟨o, hreceive, hcache, _⟩ := receive_of_unheeded now hunheeded
    rw [hreceive]
    exact .inl hcache

/-- What bytes from the network can do to a cache. -/
structure Guarded (c : Cache α) (now : Nat) (host : Host) (bytes : List UInt8) : Prop where
  /-- A message that is heeded does exactly what evidence for the binding of its sender does. -/
  heeded : ∀ m, Message.decode bytes = .ok m → c.Heeds host m →
    ∃ answer, c.receive now host bytes =
      (c.observe now m.senderIp m.senderMac).mapAnswer fun _ => .ok answer
  /-- Anything else changes nothing and sends nothing. -/
  unheeded : (∀ m, Message.decode bytes = .ok m → ¬c.Heeds host m) →
    ∃ o, c.receive now host bytes = .ok o ∧ o.cache = c ∧ o.sent = [] ∧
      o.answer = (Message.decode bytes).map fun _ => .none
  /-- Unless the call stops at the end of the clock, a request for our address from another host is
  answered with our binding, in bytes that can be read; nothing else is answered by a reply. -/
  answered : (c.receive now host bytes).Yields now c.config.reachable fun o =>
    ∀ reply, o.answer = .ok (.reply reply) ↔
      ∃ m, Message.decode bytes = .ok m ∧ m.senderIp ≠ .unspecified ∧ m.senderIp ≠ host.ip ∧
        m.operation = .request ∧ m.targetIp = host.ip ∧
        reply = ⟨.reply, host.mac, host.ip, m.senderMac, m.senderIp⟩ ∧
        Message.decode reply.encode = .ok reply
  /-- Traffic between others makes no entry for a sender that has none. -/
  stranger : ∀ m, Message.decode bytes = .ok m → m.targetIp ≠ host.ip →
    m.senderIp ≠ m.targetIp → c.store.find? m.senderIp = none →
      (c.receive now host bytes).left = c
  /-- An entry for our own address is one that was there before. -/
  own : ∀ e, (c.receive now host bytes).left.store.find? host.ip = some e →
    c.store.find? host.ip = some e

/-- Whatever the network sends to a cache that calls lead to, only a message that is heeded can
change it, and only as evidence for its sender does; only requests for our address are answered,
with our binding; traffic between others makes no entry for a new sender, and nothing binds our own
address. -/
theorem Reached.guarded {cfg : Config} {start : Nat} {calls : List (Call α)}
    (h : c.Reached cfg start calls) (now : Nat) (host : Host) (bytes : List UInt8) :
    c.Guarded now host bytes where
  heeded m hdecode hheeds := ⟨_, receive_of_heeds hdecode hheeds⟩
  unheeded := receive_of_unheeded now
  answered := by
    refine receive_yields fun o hreceive reply => ?_
    have htold : Reaction.reply reply ≠ .none := nofun
    have hreadable : Message.decode reply.encode = .ok reply := by
      simpa using Message.decode_encode reply []
    rw [answer_eq_iff hreceive htold]
    simp only [reaction_eq_reply_iff]
    constructor
    · rintro ⟨m, hdecode, hheeds, hrequest, hus, hreply⟩
      exact ⟨m, hdecode, hheeds.specified, hheeds.foreign, hrequest, hus, hreply, hreadable⟩
    · rintro ⟨m, hdecode, hspecified, hforeign, hrequest, hus, hreply, _⟩
      exact ⟨m, hdecode, ⟨hspecified, hforeign, .inl hus⟩, hrequest, hus, hreply⟩
  stranger m hdecode hus hannounces hfind := by
    have hunheeded : ∀ m', Message.decode bytes = .ok m' → ¬c.Heeds host m' := by
      intro m' hdecode' hheeds
      cases hdecode.symm.trans hdecode'
      rcases hheeds.relevant with hus' | hannounces' | ⟨e, hfind'⟩
      · exact hus hus'
      · exact hannounces hannounces'
      · cases hfind.symm.trans hfind'
    obtain ⟨o, hreceive, hcache, _⟩ := receive_of_unheeded now hunheeded
    rw [hreceive]
    exact hcache
  own e hfind := by
    rcases c.receive_left now host bytes with hleft | ⟨a, mac, hforeign, hleft⟩
    · rwa [hleft] at hfind
    · rw [hleft] at hfind
      have hworks := observe_worksOn h.coherent.1.wellFormed now a mac
      rcases hworks.spared host.ip hforeign.symm with hsame | ⟨hnone, _⟩
      · rwa [← hsame]
      · cases hfind.symm.trans hnone

/-- In a cache with room for one, a stranger that asks for our address is answered, and it takes the
place of an entry for our own address that somebody else had told. -/
theorem Reached.guarded_of_stranger :
    let host : Host := ⟨⟨192, 168, 1, 1⟩, ⟨2, 0, 0, 0, 0, 1⟩⟩
    let m := Message.request ⟨2, 0, 0, 0, 0, 34⟩ ⟨10, 0, 0, 5⟩ host.ip
    let c : Cache Nat := ((Cache.create .brief 0 : Outcome Nat Unit).cache.perform .silent 1
      (.observe host.ip ⟨2, 0, 0, 0, 0, 9⟩)).left
    c.Reached .brief 0 [.observe host.ip ⟨2, 0, 0, 0, 0, 9⟩] ∧ c.Heeds host m ∧
      ∃ o o', c.receive 2 host (m.encode ++ [0, 0]) = .ok o ∧
        o.answer = .ok (.reply ⟨.reply, host.mac, host.ip, m.senderMac, m.senderIp⟩) ∧
        c.observe 2 m.senderIp m.senderMac = .ok o' ∧ o.cache = o'.cache ∧
        c.lookup host.ip = some (⟨2, 0, 0, 0, 0, 9⟩, .reachable) ∧
        o.cache.store.find? host.ip = none := by
  intro host m c
  have hreached : c.Reached .brief 0 [.observe host.ip ⟨2, 0, 0, 0, 0, 9⟩] :=
    .perform .create .silent 1 _
  have hheeds : c.Heeds host m := ⟨by decide, by decide, .inl rfl⟩
  have hdecode := Message.decode_encode m [0, 0]
  have hguarded := Reached.guarded hreached 2 host (m.encode ++ [0, 0])
  obtain ⟨answer, hreceive⟩ := hguarded.heeded m hdecode hheeds
  obtain ⟨o, ho, hanswers⟩ := hguarded.answered.exists_ok (by decide +kernel)
  obtain ⟨o', hobserve, rfl⟩ := Attempt.mapAnswer_eq_ok (hreceive.symm.trans ho)
  have hreply := (hanswers ⟨.reply, host.mac, host.ip, m.senderMac, m.senderIp⟩).mpr
    ⟨m, hdecode, hheeds.specified, hheeds.foreign, rfl, rfl, rfl, by decide +kernel⟩
  have hafter : (c.observe 2 m.senderIp m.senderMac).left.store.find? host.ip = none := by
    decide +kernel
  rw [hobserve] at hafter
  exact ⟨hreached, hheeds, _, o', ho, hreply, hobserve, rfl, by decide +kernel, hafter⟩

end Neighbor.Cache
