import Neighbor.Proofs.Reach
import Neighbor.Proofs.Wire

/-!
# A probe and its reply

Two stations that hear each other resolve each other's address: the probe of one, read by the other,
draws a reply, and the reply, read by the first, binds the address and lets out all packets that
waited for it, in the order in which they were offered (`Cache.Reached.exchange`). Nothing but the
end of the clock prevents it, whatever follows the messages on the wire.
-/

namespace Neighbor

variable {α β : Type}

/-- The attempt goes through with an outcome as `P` says, unless the clock cannot hold the instant
`d` after `now`. -/
def Attempt.Yields (x : Attempt α β) (now : Nat) (d : Duration) (P : Outcome α β → Prop) : Prop :=
  match x with
  | .ok o => P o
  | .error _ => Clock.limit ≤ now + d.nanos

/-- While the clock holds the instant, the attempt goes through. -/
theorem Attempt.Yields.exists_ok {x : Attempt α β} {now : Nat} {d : Duration}
    {P : Outcome α β → Prop} (h : x.Yields now d P) (hclock : now + d.nanos < Clock.limit) :
    ∃ o, x = .ok o ∧ P o := by
  cases x with
  | ok o => exact ⟨o, rfl, h⟩
  | error => exact absurd hclock (Nat.not_lt.mpr h)

/-- The probe by which the entry `e` asks for its link address, if an answer at `now` would count.
-/
inductive Entry.Asks (e : Entry α) (now : Nat) : Outbound α → Prop
  | broadcast (hstate : e.state = .incomplete) : Asks e now (.broadcastProbe e.address)
  | unicast {mac : Mac} (hstate : e.state = .delay ∨ e.state = .probe) (hmac : e.mac? = some mac)
      (hconfirmed : e.confirmedAt ≤ now) : Asks e now (.unicastProbe e.address mac)

namespace Cache

variable {c : Cache α} {now : Nat} {a : Address} {mac : Mac} {host : Host}

/-- Evidence stops at the end of the clock only. -/
theorem observe_yields {f : Option Evicted → β} {P : Outcome α β → Prop}
    (h : ∀ o, c.observe now a mac = .ok o → P (o.map f)) :
    ((c.observe now a mac).mapAnswer f).Yields now c.config.reachable P := by
  have hobserved := c.observe_observed now a mac
  generalize c.observe now a mac = attempt at h hobserved ⊢
  cases hobserved with
  | ignored => exact h _ rfl
  | learned => exact h _ rfl
  | halted _ _ hclock => exact hclock

/-- A message stops at the end of the clock only. -/
theorem receive_yields {bytes : List UInt8}
    {P : Outcome α (Except Message.DecodeError Reaction) → Prop}
    (h : ∀ o, c.receive now host bytes = .ok o → P o) :
    (c.receive now host bytes).Yields now c.config.reachable P := by
  rcases c.heeds_cases host bytes with ⟨m, hdecode, hheeds⟩ | hunheeded
  · rw [receive_of_heeds hdecode hheeds] at h ⊢
    refine observe_yields fun o hobserve => h _ ?_
    rw [hobserve]
    rfl
  · obtain ⟨o, hreceive, _⟩ := receive_of_unheeded now hunheeded
    rw [hreceive] at h ⊢
    exact h o rfl

/-- A message from which the cache learns is evidence, whatever follows it on the wire. -/
theorem receive_encode {m : Message} (hspecified : m.senderIp ≠ .unspecified)
    (hother : m.senderIp ≠ host.ip) (hlearns : c.learnsFrom host m = true)
    (padding : List UInt8) :
    c.receive now host (m.encode ++ padding) =
      (c.observe now m.senderIp m.senderMac).mapAnswer fun _ => .ok (c.reaction host m) :=
  receive_of_heeds (Message.decode_encode m padding)
    ⟨hspecified, hother, learnsFrom_iff.mp hlearns⟩

/-- A request for our own address is evidence for its sender and is answered. -/
theorem receive_request (hspecified : a ≠ .unspecified) (hother : a ≠ host.ip)
    (padding : List UInt8) :
    c.receive now host ((Message.request mac a host.ip).encode ++ padding) =
      (c.observe now a mac).mapAnswer fun _ =>
        .ok (.reply (.reply host.mac host.ip mac a)) := by
  have hreaction : c.reaction host (.request mac a host.ip) =
      .reply (.reply host.mac host.ip mac a) := by
    simp [reaction, Message.request]
  have hlearns : c.learnsFrom host (.request mac a host.ip) = true := by
    simp [learnsFrom, Message.request]
  rw [receive_encode hspecified hother hlearns, hreaction]
  rfl

/-- A reply to us is evidence for its sender. -/
theorem receive_reply (hspecified : a ≠ .unspecified) (hother : a ≠ host.ip)
    (padding : List UInt8) :
    c.receive now host ((Message.reply mac a host.mac host.ip).encode ++ padding) =
      (c.observe now a mac).mapAnswer fun _ => .ok .learned := by
  have hlearns : c.learnsFrom host (.reply mac a host.mac host.ip) = true := by
    simp [learnsFrom, Message.reply]
  have hreaction : c.reaction host (.reply mac a host.mac host.ip) = .learned := by
    unfold reaction
    rw [if_neg (by simp [Message.reply]), if_pos hlearns]
  rw [receive_encode hspecified hother hlearns, hreaction]
  rfl

/-- An entry that asks takes the answer. -/
theorem learns_of_asks {e : Entry α} {item : Outbound α} (hc : c.Coherent)
    (hfind : c.store.find? a = some e) (hasks : e.Asks now item) (ha : a.isUsable = true)
    (hmac : mac.isUnicast = true) : c.learns now a mac = true := by
  have haccepts : e.accepts now = true := by
    have hcoherent := hc.of_find? hfind
    rw [Entry.accepts_iff]
    cases hasks with
    | broadcast hstate =>
      have hnone := Entry.mac?_eq_none_iff.mpr (congrArg State.isResolved hstate)
      exact ⟨hcoherent.dynamic_of_mac? hnone, .inl hnone⟩
    | unicast hstate _ hconfirmed =>
      refine ⟨?_, .inr hconfirmed⟩
      rcases hstate with hstate | hstate
      · exact hcoherent.dynamic_of_state (hstate.trans_ne (by decide))
      · exact hcoherent.dynamic_of_state (hstate.trans_ne (by decide))
  simp [learns, isUsableBinding, ha, hmac, Store.admits, hfind, Store.entryFor_of_some hfind,
    haccepts]

/-- The reply to a probe binds the address that was asked for and lets out all that waited for it.
-/
theorem reply_binds {e : Entry α} {item : Outbound α} {y : Host} (hc : c.Coherent)
    (hdistinct : y.ip ≠ host.ip) (hy : y.ip.isUsable = true) (hmac : y.mac.isUnicast = true)
    (hfind : c.store.find? y.ip = some e) (hasks : e.Asks now item) (padding : List UInt8) :
    (c.receive now host ((Message.reply y.mac y.ip host.mac host.ip).encode ++ padding)).Yields now
      c.config.reachable fun o => o.answer = .ok .learned ∧
        o.cache.lookup y.ip = some (y.mac, .reachable) ∧ o.cache.waitingAt y.ip = [] ∧
        o.sent = (c.waitingAt y.ip).map (.packet · y.mac) := by
  have hspecified : y.ip ≠ .unspecified := by
    rintro h
    rw [h] at hy
    cases hy
  rw [receive_reply hspecified hdistinct]
  refine observe_yields fun o hobserve => ?_
  have hlearns := learns_of_asks hc hfind hasks hy hmac
  obtain ⟨hlearned, _⟩ := observe_learns hc.wellFormed hobserve
  have hentry : c.store.entryFor y.ip now = e := Store.entryFor_of_some hfind
  change _ ∧ o.cache.lookup y.ip = _ ∧ o.cache.waitingAt y.ip = [] ∧ o.sent = _
  rw [lookup, waitingAt, waitingAt_of_some hfind]
  generalize o.cache.store.find? y.ip = after at hlearned ⊢
  generalize o.sent = sent at hlearned ⊢
  cases hlearned with
  | ignored hignored => cases hlearns.symm.trans hignored
  | learned =>
    rw [hentry]
    exact ⟨rfl, rfl, rfl, rfl⟩

/-- A probe draws a reply, and the reply resolves the address: it is bound to the station that sent
the reply, and what waited for it goes there in the order in which it was offered. -/
theorem Reached.exchange {cfg : Config} {start : Nat} {calls : List (Call α)} {cX : Cache α}
    {cY : Cache β} {x y : Host} {e : Entry α} {item : Outbound α} {tX tY : Nat}
    (hX : cX.Reached cfg start calls) (hdistinct : x.ip ≠ y.ip) (hx : x.ip ≠ .unspecified)
    (hy : y.ip.isUsable = true) (hmac : y.mac.isUnicast = true)
    (hfind : cX.store.find? y.ip = some e) (hasks : e.Asks tX item)
    (padding padding' : List UInt8) :
    ∃ station request, item.request? x = some (station, request) ∧
      (cY.receive tY y (request.encode ++ padding)).Yields tY cY.config.reachable fun oY =>
        ∃ reply, oY.answer = .ok (.reply reply) ∧
          (cX.receive tX x (reply.encode ++ padding')).Yields tX cX.config.reachable fun oX =>
            oX.answer = .ok .learned ∧ oX.cache.lookup y.ip = some (y.mac, .reachable) ∧
            oX.cache.waitingAt y.ip = [] ∧
            oX.sent = (cX.waitingAt y.ip).map (.packet · y.mac) ∧
            (cX.waitingAt y.ip).Sublist (offered y.ip calls) := by
  obtain ⟨hcoherent, _, hwaiting⟩ := hX.coherent
  have haddress := Store.address_of_find? hfind
  have hrequest : ∃ station, item.request? x = some (station, .request x.mac x.ip y.ip) := by
    cases hasks with
    | broadcast => exact ⟨.broadcast, by rw [← haddress]; rfl⟩
    | @unicast mac => exact ⟨mac, by rw [← haddress]; rfl⟩
  obtain ⟨station, hrequest⟩ := hrequest
  refine ⟨station, _, hrequest, ?_⟩
  rw [receive_request hx hdistinct]
  refine observe_yields fun oY _ => ⟨_, rfl, ?_⟩
  have hbinds := reply_binds hcoherent hdistinct.symm hy hmac hfind hasks padding'
  unfold Attempt.Yields at hbinds ⊢
  split
  · next oX hreceive =>
    rw [hreceive] at hbinds
    obtain ⟨hanswer, hlookup, hempty, hsent⟩ := hbinds
    exact ⟨hanswer, hlookup, hempty, hsent, hwaiting y.ip⟩
  · next hreceive =>
    rw [hreceive] at hbinds
    exact hbinds

/-- A station that looks for another one, with a packet waiting, finds it. -/
theorem Reached.exchange_of_two :
    let x : Host := ⟨⟨10, 0, 0, 1⟩, ⟨2, 0, 0, 0, 0, 1⟩⟩
    let y : Host := ⟨⟨10, 0, 0, 2⟩, ⟨2, 0, 0, 0, 0, 2⟩⟩
    let cX : Cache Nat := ((Cache.create .brief 0 : Outcome Nat Unit).cache.perform .silent 1
      (.resolve y.ip 7)).left
    let cY : Cache Nat := (Cache.create .brief 0 : Outcome Nat Unit).cache
    ∃ oY oX reply, cY.receive 2 y ((Message.request x.mac x.ip y.ip).encode ++ [0]) = .ok oY ∧
      oY.answer = .ok (.reply reply) ∧ cX.receive 3 x (reply.encode ++ [0, 0]) = .ok oX ∧
      oX.cache.lookup y.ip = some (y.mac, .reachable) ∧ oX.sent = [.packet 7 y.mac] := by
  intro x y cX cY
  have hwaits : ∃ e ∈ cX.store.find? y.ip,
      e.address = y.ip ∧ e.state = .incomplete ∧ e.waiting = [7] := by
    decide +kernel
  obtain ⟨e, hfind, haddress, hstate, hwaiting⟩ := hwaits
  have hasks : e.Asks 3 (.broadcastProbe e.address) := .broadcast hstate
  obtain ⟨station, request, hrequest, hyields⟩ := @Reached.exchange Nat Nat .brief 0 _ cX cY x y e
    _ 3 2 (.perform .create .silent 1 (.resolve y.ip 7)) (by decide) (by decide) (by decide)
    (by decide) hfind hasks [0] [0, 0]
  obtain ⟨oY, hasked, reply, hanswer, hyields⟩ := hyields.exists_ok (by decide +kernel)
  obtain ⟨oX, hreplied, _, hlookup, _, hsent, _⟩ := hyields.exists_ok (by decide +kernel)
  rw [haddress] at hrequest
  cases hrequest
  refine ⟨oY, oX, reply, hasked, hanswer, hreplied, hlookup, ?_⟩
  rw [hsent, waitingAt_of_some hfind, hwaiting]
  rfl

end Cache

end Neighbor
