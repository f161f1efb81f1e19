import Neighbor.Proofs.Refusal
import Neighbor.Proofs.Wire

/-!
# Messages answered as learned

Whether a message is answered as learned is decided by the message and by what the cache held
before it, whatever becomes of the evidence. So the answer alone does not tell that the binding of
the sender was recorded: it was unless the evidence is disregarded
(`Cache.Reached.recorded_of_learned`), and a host that announces an address with another permanent
binding is answered as learned all the same (`Cache.unrecorded_of_conflict`).
-/

namespace Neighbor

variable {α : Type}

namespace Cache

variable {c : Cache α} {now : Nat} {host : Host} {bytes : List UInt8}

/-- What is answered as learned was evidence. -/
theorem observe_of_learned {o : Outcome α (Except Message.DecodeError Reaction)}
    (h : c.receive now host bytes = .ok o) (hanswer : o.answer = .ok .learned) :
    ∃ m, Message.decode bytes = .ok m ∧
      ∃ o', c.observe now m.senderIp m.senderMac = .ok o' ∧ o'.cache = o.cache := by
  have htold : Reaction.learned ≠ .none := nofun
  obtain ⟨m, hdecode, hheeds, _⟩ := (answer_eq_iff h htold).mp hanswer
  rw [receive_of_heeds hdecode hheeds] at h
  obtain ⟨o', ho', rfl⟩ := Attempt.mapAnswer_eq_ok h
  exact ⟨m, hdecode, o', ho', rfl⟩

/-- After a message that is answered as learned, its sender is reachable at its link address, unless
the evidence is disregarded: then the cache is what it was. -/
theorem Reached.recorded_of_learned {cfg : Config} {start : Nat} {calls : List (Call α)}
    {o : Outcome α (Except Message.DecodeError Reaction)} (h : c.Reached cfg start calls)
    (hreceive : c.receive now host bytes = .ok o) (hanswer : o.answer = .ok .learned) :
    ∃ m, Message.decode bytes = .ok m ∧
      (¬c.Disregards now m.senderIp m.senderMac →
        o.cache.lookup m.senderIp = some (m.senderMac, .reachable)) ∧
      (c.Disregards now m.senderIp m.senderMac → c.Keeps o.cache) := by
  obtain ⟨m, hdecode, o', hobserve, hcache⟩ := observe_of_learned hreceive hanswer
  have hrefusals := h.bounded.refusals h.coherent.1
  refine ⟨m, hdecode, fun hregards => ?_, fun hdisregards => ?_⟩
  · rw [← hcache]
    exact hrefusals.recorded _ _ _ o' hregards hobserve
  · obtain ⟨d, hignored, hkeeps⟩ := hrefusals.disregarded _ _ _ hdisregards
    cases hobserve.symm.trans hignored
    rwa [← hcache]

/-- A host that announces itself to a new cache is answered as learned, and it is reachable at once.
-/
theorem Reached.recorded_of_announcement :
    let c := (Cache.create .standard 0 : Outcome Nat Unit).cache
    let m := Message.gratuitous ⟨2, 0, 0, 0, 0, 34⟩ ⟨10, 0, 0, 5⟩
    ∃ o, c.receive 1 ⟨⟨192, 168, 1, 1⟩, ⟨2, 0, 0, 0, 0, 1⟩⟩ m.encode = .ok o ∧
      o.answer = .ok .learned ∧ o.cache.lookup m.senderIp = some (m.senderMac, .reachable) := by
  intro c m
  have hlearned : ∃ o ∈ (c.receive 1 ⟨⟨192, 168, 1, 1⟩, ⟨2, 0, 0, 0, 0, 1⟩⟩ m.encode).toOption,
      o.answer = .ok .learned := by
    decide +kernel
  obtain ⟨o, ho, hanswer⟩ := hlearned
  have hreceive := Attempt.eq_ok_of_mem ho
  have hcounts : c.learns 1 m.senderIp m.senderMac = true := by decide +kernel
  have hregards : ¬c.Disregards 1 m.senderIp m.senderMac := fun hdisregards => by
    cases hcounts.symm.trans (learns_eq_false_iff.mpr hdisregards)
  obtain ⟨m', hdecode, hrecorded, _⟩ := Reached.recorded_of_learned .create hreceive hanswer
  have hsame : Message.decode m.encode = .ok m := by
    simpa using Message.decode_encode m []
  cases hsame.symm.trans hdecode
  exact ⟨o, hreceive, hanswer, hrecorded hregards⟩

/-- A host that announces an address with another permanent binding is answered as learned, and the
permanent binding stands. -/
theorem unrecorded_of_conflict :
    let a : Address := ⟨10, 0, 0, 5⟩
    let c := ((create .standard 0 : Outcome Nat Unit).cache.perform .silent 1
      (.pin a ⟨2, 0, 0, 0, 0, 17⟩)).left
    let m := Message.gratuitous ⟨2, 0, 0, 0, 0, 34⟩ a
    c.Reached .standard 0 [.pin a ⟨2, 0, 0, 0, 0, 17⟩] ∧
      ∃ o ∈ (c.receive 2 ⟨⟨192, 168, 1, 1⟩, ⟨2, 0, 0, 0, 0, 1⟩⟩ m.encode).toOption,
        o.answer = .ok .learned ∧
          o.cache.lookup m.senderIp = some (⟨2, 0, 0, 0, 0, 17⟩, .reachable) ∧
          o.cache.lookup m.senderIp ≠ some (m.senderMac, .reachable) := by
  intro a c m
  exact ⟨.perform .create .silent 1 (.pin a ⟨2, 0, 0, 0, 0, 17⟩), by decide +kernel⟩

end Cache

end Neighbor
