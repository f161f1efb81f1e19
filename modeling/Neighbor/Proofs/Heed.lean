import Neighbor.Cache.Receive
import Neighbor.Proofs.Transmit

/-!
# Messages that are heeded

A cache heeds a message only if another host sends it under an address of its own and the message is
for us, announces its sender, or comes from an address that is cached already. A message that is
heeded does to the cache what evidence for the binding of its sender does (`receive_of_heeds`); any
other leaves the cache as it is (`receive_of_unheeded`).
-/

namespace Neighbor.Cache

variable {α : Type} {c : Cache α} {now : Nat} {host : Host} {m : Message} {bytes : List UInt8}

/-- The message comes from another host with an address of its own, and it is for us, announces its
sender, or its sender is cached. -/
structure Heeds (c : Cache α) (host : Host) (m : Message) : Prop where
  specified : m.senderIp ≠ .unspecified
  foreign : m.senderIp ≠ host.ip
  relevant : m.targetIp = host.ip ∨ m.senderIp = m.targetIp ∨
    ∃ e, c.store.find? m.senderIp = some e

/-- A sender is learned from if the message is for us, announces the sender, or the sender is
cached. -/
theorem learnsFrom_iff : c.learnsFrom host m = true ↔
    m.targetIp = host.ip ∨ m.senderIp = m.targetIp ∨
      ∃ e, c.store.find? m.senderIp = some e := by
  simp only [learnsFrom, Message.isGratuitous, state?, Bool.or_eq_true, beq_iff_eq,
    Option.isSome_map, Option.isSome_iff_exists, or_assoc]

/-- A message that is heeded is evidence for the binding of its sender. -/
theorem receive_of_heeds (hdecode : Message.decode bytes = .ok m) (h : c.Heeds host m) :
    c.receive now host bytes =
      (c.observe now m.senderIp m.senderMac).mapAnswer fun _ => .ok (c.reaction host m) := by
  have hlearns := learnsFrom_iff.mpr h.relevant
  unfold receive receiveMessage
  rw [hdecode]
  simp only [if_neg h.specified, if_neg h.foreign, if_pos hlearns]
  cases c.observe now m.senderIp m.senderMac <;> rfl

/-- What is not heeded, be it a message or not, changes nothing and draws no reaction. -/
theorem receive_of_unheeded (now : Nat)
    (h : ∀ m, Message.decode bytes = .ok m → ¬c.Heeds host m) :
    ∃ o, c.receive now host bytes = .ok o ∧ o.cache = c ∧ o.sent = [] ∧
      o.answer = (Message.decode bytes).map fun _ => .none := by
  unfold receive
  cases hdecode : Message.decode bytes with
  | error e => exact ⟨_, rfl, rfl, rfl, rfl⟩
  | ok m =>
    unfold receiveMessage
    by_cases hunspecified : m.senderIp = .unspecified
    · simp only [if_pos hunspecified]
      exact ⟨_, rfl, rfl, rfl, rfl⟩
    · by_cases hown : m.senderIp = host.ip
      · simp only [if_neg hunspecified, if_pos hown]
        exact ⟨_, rfl, rfl, rfl, rfl⟩
      · have hirrelevant : ¬c.learnsFrom host m = true := fun hlearns =>
          h m hdecode ⟨hunspecified, hown, learnsFrom_iff.mp hlearns⟩
        have hother : m.targetIp ≠ host.ip := fun hus =>
          hirrelevant (learnsFrom_iff.mpr (.inl hus))
        simp only [if_neg hunspecified, if_neg hown, if_neg hirrelevant]
        refine ⟨_, rfl, rfl, rfl, ?_⟩
        simp [Outcome.map, Except.map, reaction, hother, hirrelevant]

/-- Bytes are a message that is heeded or not. -/
theorem heeds_cases (c : Cache α) (host : Host) (bytes : List UInt8) :
    (∃ m, Message.decode bytes = .ok m ∧ c.Heeds host m) ∨
      ∀ m, Message.decode bytes = .ok m → ¬c.Heeds host m := by
  by_cases h : ∃ m, Message.decode bytes = .ok m ∧ c.Heeds host m
  · exact .inl h
  · exact .inr fun m hdecode hheeds => h ⟨m, hdecode, hheeds⟩

/-- A message is answered by a reply exactly if it asks for our address. -/
theorem reaction_eq_reply_iff {reply : Message} :
    c.reaction host m = .reply reply ↔
      m.operation = .request ∧ m.targetIp = host.ip ∧
        reply = .reply host.mac host.ip m.senderMac m.senderIp := by
  unfold reaction
  split
  · next hasks => simp [hasks.1, hasks.2, eq_comm]
  · next hasks =>
    refine iff_of_false ?_ fun ⟨hrequest, hus, _⟩ => hasks ⟨hrequest, hus⟩
    split <;> exact nofun

/-- Any reaction but none is the reaction to a message that is heeded. -/
theorem answer_eq_iff {o : Outcome α (Except Message.DecodeError Reaction)} {told : Reaction}
    (h : c.receive now host bytes = .ok o) (htold : told ≠ .none) :
    o.answer = .ok told ↔
      ∃ m, Message.decode bytes = .ok m ∧ c.Heeds host m ∧ c.reaction host m = told := by
  rcases c.heeds_cases host bytes with ⟨m, hdecode, hheeds⟩ | hunheeded
  · rw [receive_of_heeds hdecode hheeds] at h
    obtain ⟨_, _, rfl⟩ := Attempt.mapAnswer_eq_ok h
    constructor
    · intro hanswer
      exact ⟨m, hdecode, hheeds, Except.ok.inj hanswer⟩
    · rintro ⟨m', hdecode', _, hreaction⟩
      cases hdecode.symm.trans hdecode'
      exact congrArg Except.ok hreaction
  · obtain ⟨o', hreceive, _, _, hanswer⟩ := receive_of_unheeded now hunheeded
    cases h.symm.trans hreceive
    refine iff_of_false (fun hsame => ?_) fun ⟨m, hdecode, hheeds, _⟩ =>
      hunheeded m hdecode hheeds
    rw [hanswer] at hsame
    cases hdecode : Message.decode bytes with
    | error e =>
      rw [hdecode] at hsame
      cases hsame
    | ok m =>
      rw [hdecode] at hsame
      exact htold (Except.ok.inj hsame).symm

end Neighbor.Cache
