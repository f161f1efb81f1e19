import Neighbor.Message

/-!
# What the cache hands to the transmitter

The cache sends probes, which ask for a link address, and the packets that were given to it. The
type of packets is a parameter: the cache never looks into one.
-/

namespace Neighbor

/-- The binding of the interface that a cache serves. -/
structure Host where
  ip : Address
  mac : Mac
deriving DecidableEq

/-- One item for the transmitter. -/
inductive Outbound (α : Type)
  /-- Ask all stations for the link address of `target`. -/
  | broadcastProbe (target : Address)
  /-- Ask the last known station of `target` whether it is still there. -/
  | unicastProbe (target : Address) (mac : Mac)
  /-- Send a packet to a station. -/
  | packet (packet : α) (mac : Mac)
deriving DecidableEq

namespace Outbound

variable {α : Type}

/-- Whether an item is a probe. -/
def isProbe : Outbound α → Bool
  | broadcastProbe _ => true
  | unicastProbe _ _ => true
  | packet _ _ => false

/-- The message of a probe, with the station it goes to. -/
def request? (host : Host) : Outbound α → Option (Mac × Message)
  | broadcastProbe target => some (.broadcast, .request host.mac host.ip target)
  | unicastProbe target mac => some (mac, .request host.mac host.ip target)
  | packet _ _ => none

end Outbound

/-- A transmitter that keeps what it is handed, oldest first. -/
structure Outbox (α : Type) where
  items : List (Outbound α) := []

namespace Outbox

variable {α : Type}

/-- Keeps one more item. -/
def push (box : Outbox α) (item : Outbound α) : Outbox α := ⟨box.items ++ [item]⟩

/-- Takes all items out, oldest first. -/
def drain (box : Outbox α) : Outbox α × List (Outbound α) := (⟨[]⟩, box.items)

end Outbox

end Neighbor
