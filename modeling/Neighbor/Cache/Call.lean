import Neighbor.Cache.Receive
import Neighbor.Cache.Resolve
import Neighbor.Cache.Tick

/-!
# Calls and runs

A call is one operation on the cache with its arguments; a run makes calls one after the other,
each at an instant of its own. Instants need not ascend.
-/

namespace Neighbor

/-- An operation that may change the cache. -/
inductive Call (α : Type)
  | resolve (address : Address) (packet : α)
  | observe (address : Address) (mac : Mac)
  | confirm (address : Address)
  | pin (address : Address) (mac : Mac)
  | tick
  | invalidate (address : Address)
  | invalidateAll
  | receive (host : Host) (bytes : List UInt8)
deriving DecidableEq

/-- What a call answers. -/
inductive Answer
  | resolution (resolution : Resolution) (evicted : Option Evicted)
  | observed (evicted : Option Evicted)
  | confirmed (counted : Bool)
  | pinned (evicted : Except DropReason (Option Evicted))
  | ticked (report : TickReport)
  | invalidated (dropped : Option Nat)
  | cleared (dropped : Nat)
  | received (reaction : Except Message.DecodeError Reaction)

namespace Cache

variable {α : Type}

/-- Makes one call. -/
def perform (r : Responder) (c : Cache α) (now : Nat) : Call α → Attempt α Answer
  | .resolve a packet => (c.resolve r now a packet).mapAnswer fun x => .resolution x.1 x.2
  | .observe a mac => (c.observe now a mac).mapAnswer .observed
  | .confirm a => (c.confirm now a).mapAnswer .confirmed
  | .pin a mac => .ok ((c.pin now a mac).map .pinned)
  | .tick => (c.tick r now).mapAnswer .ticked
  | .invalidate a => .ok ((c.invalidate a).map .invalidated)
  | .invalidateAll => .ok (c.invalidateAll.map .cleared)
  | .receive host bytes => (c.receive now host bytes).mapAnswer .received

/-- Makes calls one after the other. The result is the cache they leave and the outcome of each. -/
def run (r : Responder) (c : Cache α) :
    List (Nat × Call α) → Except (Halted α) (Cache α × List (Outcome α Answer))
  | [] => .ok (c, [])
  | (now, call) :: rest =>
    match c.perform r now call with
    | .error h => .error h
    | .ok o => (run r o.cache rest).map fun (last, outcomes) => (last, o :: outcomes)

end Cache

end Neighbor
