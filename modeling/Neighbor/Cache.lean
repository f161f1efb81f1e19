import Neighbor.Listing
import Neighbor.Metrics
import Neighbor.Outbound
import Neighbor.Store

/-!
# The cache

A cache is a configuration, a store and the counters. An operation answers its caller, leaves a
cache behind, and shows what it handed to the transmitter and what it warned of. Operations that
set deadlines can find that the clock cannot hold one. They stop there, and what they have done so
far stays done: the error of an `Attempt` holds it.
-/

namespace Neighbor

/-- What an operation warns of. -/
inductive Warning
  /-- The last probe for an address stayed unanswered. -/
  | resolutionFailed (address : Address) (previous : State) (dropped : Nat)
  /-- A packet was dropped because no entry could be made for its address. -/
  | cacheFull (address : Address)
  /-- A configured binding found no room. -/
  | noRoomForPermanent (address : Address)
  /-- Another station claims the address of our interface. -/
  | addressConflict (ip : Address) (mac : Mac)
deriving DecidableEq

/-- The wording of a warning: the event and its values by name. -/
def Warning.text : Warning → String
  | .resolutionFailed address previous dropped =>
    "address resolution failed address=" ++ address.text ++ " from=" ++ previous.text ++
      " dropped_pending=" ++ Text.decimalText dropped
  | .cacheFull address => "ARP cache full, dropping packet address=" ++ address.text
  | .noRoomForPermanent address => "no room for static ARP entry address=" ++ address.text
  | .addressConflict ip mac =>
    "address conflict detected ip=" ++ ip.text ++ " mac=" ++ mac.text

/-- An address-resolution cache for packets of type `α`. -/
structure Cache (α : Type) where
  config : Config
  store : Store α
  metrics : Metrics
deriving DecidableEq

/-- What an operation leaves, answers and shows. -/
structure Outcome (α β : Type) where
  cache : Cache α
  answer : β
  /-- The items handed to the transmitter, in order. -/
  sent : List (Outbound α) := []
  /-- The warnings, in order. -/
  warnings : List Warning := []
deriving DecidableEq

namespace Outcome

variable {α β γ : Type}

/-- The same outcome with another answer. -/
def map (f : β → γ) (o : Outcome α β) : Outcome α γ :=
  { cache := o.cache, answer := f o.answer, sent := o.sent, warnings := o.warnings }

/-- The same outcome with `items` handed over before everything else. -/
def sentAfter (items : List (Outbound α)) (o : Outcome α β) : Outcome α β :=
  { o with sent := items ++ o.sent }

/-- The same outcome with `warnings` before everything else. -/
def warnedAfter (warnings : List Warning) (o : Outcome α β) : Outcome α β :=
  { o with warnings := warnings ++ o.warnings }

end Outcome

/-- What an operation has done when the clock could not hold a deadline. -/
abbrev Halted (α : Type) := Outcome α Unit

/-- The result of an operation that may have to stop at a deadline beyond the clock. -/
abbrev Attempt (α β : Type) := Except (Halted α) (Outcome α β)

namespace Attempt

variable {α β γ : Type}

/-- The same result with another answer. -/
def mapAnswer (f : β → γ) (x : Attempt α β) : Attempt α γ :=
  match x with
  | .error h => .error h
  | .ok o => .ok (o.map f)

/-- The same result with `items` handed over before everything else. -/
def sentAfter (items : List (Outbound α)) (x : Attempt α β) : Attempt α β :=
  match x with
  | .error h => .error (h.sentAfter items)
  | .ok o => .ok (o.sentAfter items)

/-- The same result with `warnings` before everything else. -/
def warnedAfter (warnings : List Warning) (x : Attempt α β) : Attempt α β :=
  match x with
  | .error h => .error (h.warnedAfter warnings)
  | .ok o => .ok (o.warnedAfter warnings)

end Attempt

namespace Cache

variable {α : Type}

/-- A cache with no entries, not even the configured ones. -/
def empty (cfg : Config) : Cache α :=
  ⟨cfg, .empty cfg.capacity cfg.queueCapacity cfg.tieBreak, {}⟩

/-- Counts `n` more of a kind. -/
def count (c : Cache α) (k : Counter) (n : Nat) : Cache α :=
  { c with metrics := c.metrics.add k (UInt64.ofNat n) }

/-- Sets the gauge to the number of entries. -/
def gauge (c : Cache α) : Cache α :=
  { c with metrics := c.metrics.set .entries (UInt64.ofNat c.store.size) }

/-- Counts an eviction, if there was one, and sets the gauge. -/
def settle (c : Cache α) (evicted : Option Evicted) : Cache α :=
  match evicted with
  | some ev => ((c.count .evictions 1).count .pendingDropped ev.droppedPending).gauge
  | none => c.gauge

/-- The number of entries. -/
def size (c : Cache α) : Nat := c.store.size

/-- The link address and state of an address that is bound. -/
def lookup (c : Cache α) (a : Address) : Option (Mac × State) :=
  (c.store.find? a).bind fun e => e.mac?.map fun mac => (mac, e.state)

/-- The state of an address that has an entry. -/
def state? (c : Cache α) (a : Address) : Option State := (c.store.find? a).map (·.state)

/-- The row of an address that has an entry. -/
def row? (c : Cache α) (a : Address) : Option Row := (c.store.find? a).map (·.row)

/-- The whole table. -/
def listing (c : Cache α) : Listing := .ofRows (c.store.entries.map (·.row)) c.store.capacity

/-- Removes the entry of an address. The answer is how many packets waited in it. -/
def invalidate (c : Cache α) (a : Address) : Outcome α (Option Nat) :=
  let left := gauge { c with store := c.store.erase a }
  match c.store.find? a with
  | none => { cache := left, answer := none }
  | some e =>
    { cache := left.count .pendingDropped e.waiting.length, answer := some e.waiting.length }

/-- Removes all entries, permanent ones too. The answer is how many packets waited in them. -/
def invalidateAll (c : Cache α) : Outcome α Nat :=
  let dropped := (c.store.entries.flatMap (·.waiting)).length
  { cache := (gauge { c with store := c.store.clear }).count .pendingDropped dropped
    answer := dropped }

end Cache

end Neighbor
