/-!
# Packets that wait for a link address

A queue holds the packets for one unresolved address, oldest first, up to its capacity. A packet
offered to a full queue is refused, and refusals are counted.
-/

namespace Neighbor

/-- The packets that wait for one address. -/
structure PendingQueue (α : Type) where
  /-- The most packets held at once. -/
  capacity : Nat
  /-- The waiting packets, oldest first. -/
  packets : List α
  /-- How many packets have been refused so far, no more than were offered. -/
  refused : Nat
deriving DecidableEq

namespace PendingQueue

variable {α : Type}

/-- A queue with nothing in it. -/
def empty (capacity : Nat) : PendingQueue α := ⟨capacity, [], 0⟩

/-- The number of waiting packets. -/
abbrev size (q : PendingQueue α) : Nat := q.packets.length

/-- Whether no packet waits. -/
def isEmpty (q : PendingQueue α) : Bool := q.packets.isEmpty

/-- Whether there is no room for another packet. -/
def isFull (q : PendingQueue α) : Bool := q.capacity ≤ q.size

/-- Adds a packet behind the others and tells whether there was room for it. -/
def offer (q : PendingQueue α) (packet : α) : PendingQueue α × Bool :=
  if q.isFull then ({ q with refused := q.refused + 1 }, false)
  else ({ q with packets := q.packets ++ [packet] }, true)

/-- Takes all packets out, oldest first. -/
def drain (q : PendingQueue α) : PendingQueue α × List α :=
  ({ q with packets := [] }, q.packets)

/-- A queue is full once it holds as many packets as it can. -/
theorem isFull_iff {q : PendingQueue α} : q.isFull = true ↔ q.capacity ≤ q.packets.length := by
  simp [isFull, size]

/-- A full queue notes an offer and keeps its packets. -/
theorem offer_of_isFull {q : PendingQueue α} (h : q.isFull = true) (packet : α) :
    q.offer packet = ({ q with refused := q.refused + 1 }, false) := if_pos h

/-- A queue with room takes a packet behind the others. -/
theorem offer_of_room {q : PendingQueue α} (h : ¬q.isFull = true) (packet : α) :
    q.offer packet = ({ q with packets := q.packets ++ [packet] }, true) := if_neg h

/-- What an offer does to the waiting packets. -/
theorem packets_offer (q : PendingQueue α) (packet : α) :
    (q.offer packet).1.packets =
      if q.capacity ≤ q.packets.length then q.packets else q.packets ++ [packet] := by
  simp only [offer, isFull, size, decide_eq_true_eq]
  split <;> rfl

end PendingQueue

end Neighbor
