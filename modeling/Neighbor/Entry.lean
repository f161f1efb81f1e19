import Neighbor.Time
import Neighbor.Address
import Neighbor.Mac
import Neighbor.Queue

/-!
# Cache entries

An entry is what the cache knows about one address. Its status carries the packets that wait, the
probes sent and the link address exactly in the states that have them.
-/

namespace Neighbor

/-- The reachability of an address. -/
inductive State
  /-- Resolution is under way and there is no link address yet. -/
  | incomplete
  /-- The binding was confirmed recently. -/
  | reachable
  /-- The confirmation has aged out; the binding is checked when it is next used. -/
  | stale
  /-- Used while stale, waiting for a confirmation before probing. -/
  | delay
  /-- The binding is being checked with unicast probes. -/
  | probe
  /-- Resolution gave up. -/
  | failed
deriving DecidableEq

namespace State

/-- All states in the order in which they are listed. -/
def all : List State := [incomplete, reachable, stale, delay, probe, failed]

/-- Whether entries of this state hold a link address. -/
def isResolved : State → Bool
  | incomplete => false
  | failed => false
  | _ => true

/-- The name of a state. -/
def text : State → String
  | incomplete => "INCOMPLETE"
  | reachable => "REACHABLE"
  | stale => "STALE"
  | delay => "DELAY"
  | probe => "PROBE"
  | failed => "FAILED"

end State

/-- A state together with what is known in it. -/
inductive Status (α : Type)
  | incomplete (probes : Nat) (queue : PendingQueue α)
  | reachable (mac : Mac)
  | stale (mac : Mac)
  | delay (mac : Mac)
  | probe (mac : Mac) (probes : Nat)
  | failed
deriving DecidableEq

namespace Status

variable {α : Type}

/-- The state of a status. -/
def state : Status α → State
  | incomplete _ _ => .incomplete
  | reachable _ => .reachable
  | stale _ => .stale
  | delay _ => .delay
  | probe _ _ => .probe
  | failed => .failed

/-- The link address of a status that has one. -/
def mac? : Status α → Option Mac
  | incomplete _ _ => none
  | reachable mac => some mac
  | stale mac => some mac
  | delay mac => some mac
  | probe mac _ => some mac
  | failed => none

/-- The probes sent in the resolution or check that is under way. -/
def probes : Status α → Nat
  | incomplete probes _ => probes
  | probe _ probes => probes
  | _ => 0

/-- The packets that wait, oldest first. -/
def waiting : Status α → List α
  | incomplete _ queue => queue.packets
  | _ => []

/-- A link address is known exactly in the resolved states. -/
theorem isSome_mac? (s : Status α) : s.mac?.isSome = s.state.isResolved := by
  cases s <;> rfl

end Status

/-- Where an entry comes from. -/
inductive Kind
  /-- Learned; ages and may be evicted. -/
  | dynamic
  /-- Installed; neither ages nor is evicted. -/
  | permanent
deriving DecidableEq

/-- What a cache knows about one address. -/
structure Entry (α : Type) where
  address : Address
  kind : Kind
  /-- Tells this entry from earlier ones for the same address. -/
  generation : Nat
  createdAt : Nat
  /-- When the binding was last confirmed, or the entry created. -/
  confirmedAt : Nat
  /-- When a packet was last sent through the entry, or the entry created. -/
  usedAt : Nat
  /-- When time next changes the entry. -/
  deadline : Option Nat
  status : Status α
deriving DecidableEq

namespace Entry

variable {α : Type}

/-- An entry for an address of which nothing is known. -/
def fresh (address : Address) (generation queueCapacity : Nat) (now : Nat) : Entry α where
  address := address
  kind := .dynamic
  generation := generation
  createdAt := now
  confirmedAt := now
  usedAt := now
  deadline := none
  status := .incomplete 0 (.empty queueCapacity)

/-- The state of an entry. -/
def state (e : Entry α) : State := e.status.state

/-- The link address, known in the resolved states. -/
def mac? (e : Entry α) : Option Mac := e.status.mac?

/-- The probes sent in the resolution or check that is under way. -/
def probes (e : Entry α) : Nat := e.status.probes

/-- The packets that wait for the link address, oldest first. -/
def waiting (e : Entry α) : List α := e.status.waiting

/-- Whether an entry is permanent. -/
def isPermanent (e : Entry α) : Bool := e.kind == .permanent

end Entry

end Neighbor
