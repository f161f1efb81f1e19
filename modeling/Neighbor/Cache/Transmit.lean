import Neighbor.Cache.Learn

/-!
# Handing items to the transmitter

A transmitter may answer a broadcast probe while it is being handed over: the cache then learns
the answer before the next item goes out. Learning sends packets only and never a probe, so there
is nothing in turn to answer.
-/

namespace Neighbor

/-- The stations that answer a broadcast probe at once. -/
abbrev Responder := Address → Option Mac

/-- No station answers: the transmitter only records. -/
def Responder.silent : Responder := fun _ => none

/-- The binding that the answer to an item tells, if there is an answer. -/
def Responder.reply? {α : Type} (r : Responder) : Outbound α → Option (Address × Mac)
  | .broadcastProbe target => (r target).map fun mac => (target, mac)
  | _ => none

namespace Cache

variable {α : Type}

/-- Counts an item that is handed over. -/
def countItem (c : Cache α) : Outbound α → Cache α
  | .broadcastProbe _ => c.count .broadcastProbes 1
  | .unicastProbe _ _ => c.count .unicastProbes 1
  | .packet _ _ => c

/-- Hands items over in order and learns each answer before the next item. The answer is empty; the
outcome shows the items and, behind each answered probe, what its answer let out. -/
def handOver (r : Responder) (now : Nat) (c : Cache α) :
    List (Outbound α) → Attempt α Unit
  | [] => .ok { cache := c, answer := () }
  | item :: rest =>
    match r.reply? item with
    | none => (handOver r now (c.countItem item) rest).sentAfter [item]
    | some (target, mac) =>
      match (c.countItem item).observe now target mac with
      | .error h => .error (h.sentAfter [item])
      | .ok learned => (handOver r now learned.cache rest).sentAfter (item :: learned.sent)

end Cache

end Neighbor
