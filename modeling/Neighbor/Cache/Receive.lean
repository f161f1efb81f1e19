import Neighbor.Cache.Learn

/-!
# Messages from the network

The sender of a message is learned when the message is addressed to our interface, announces its
sender, or comes from an address that has an entry already. A request for our own address is
answered. Nothing is learned from a sender without an address or under our own.
-/

namespace Neighbor

/-- What to do after a message. -/
inductive Reaction
  | none
  /-- The binding of the sender was taken as evidence. -/
  | learned
  /-- Send this answer to the sender. -/
  | reply (m : Message)
deriving DecidableEq

namespace Cache

variable {α : Type}

/-- Whether the sender of a message from another host is taken as evidence. -/
def learnsFrom (c : Cache α) (host : Host) (m : Message) : Bool :=
  m.targetIp == host.ip || m.isGratuitous || (c.state? m.senderIp).isSome

/-- What to do after a message from another host. -/
def reaction (c : Cache α) (host : Host) (m : Message) : Reaction :=
  if m.operation = .request ∧ m.targetIp = host.ip then
    .reply (.reply host.mac host.ip m.senderMac m.senderIp)
  else if c.learnsFrom host m then .learned
  else .none

/-- Takes a message in. -/
def receiveMessage (c : Cache α) (now : Nat) (host : Host) (m : Message) :
    Attempt α Reaction :=
  if m.senderIp = .unspecified then .ok { cache := c, answer := .none }
  else if m.senderIp = host.ip then
    let warnings :=
      if m.senderMac = host.mac then [] else [.addressConflict host.ip m.senderMac]
    .ok { cache := c, answer := .none, warnings }
  else if c.learnsFrom host m then
    (c.observe now m.senderIp m.senderMac).mapAnswer fun _ => c.reaction host m
  else .ok { cache := c, answer := c.reaction host m }

/-- Takes the bytes of a message in. -/
def receive (c : Cache α) (now : Nat) (host : Host) (bytes : List UInt8) :
    Attempt α (Except Message.DecodeError Reaction) :=
  match Message.decode bytes with
  | .error e => .ok { cache := c, answer := .error e }
  | .ok m => (c.receiveMessage now host m).mapAnswer .ok

end Cache

end Neighbor
