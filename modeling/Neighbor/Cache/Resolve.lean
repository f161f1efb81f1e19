import Neighbor.Cache.Transmit

/-!
# Resolving an address for a packet

A packet for a bound address goes out at once. A packet for an address that is being resolved
waits, and the first one starts the resolution. A failed address refuses packets until its grace
ends; after that it counts as absent.
-/

namespace Neighbor

/-- What became of a packet. -/
inductive Resolution
  /-- The address is bound to `mac`, and the packet was handed over. -/
  | resolved (mac : Mac)
  /-- The packet waits. -/
  | queued
  /-- Too many packets wait; this one was dropped. -/
  | rejectedFull
  | dropped (reason : DropReason)
deriving DecidableEq

namespace Cache

variable {α : Type}

/-- Whether packets for `a` are refused because resolution failed lately. -/
def refuses (c : Cache α) (now : Nat) (a : Address) : Bool :=
  match c.store.find? a with
  | some e => e.state == .failed && e.deadline.any fun t => now < t
  | none => false

/-- The store without the entry of `a` if that is a failed one. -/
def withoutFailed (s : Store α) (a : Address) : Store α :=
  match s.find? a with
  | some e => if e.state = .failed then s.erase a else s
  | none => s

/-- Starts the resolution of a fresh entry; another entry stays as it is. The second part of the
result is the probe to send. -/
def startIfNew (cfg : Config) (now : Nat) (claimed : Store.Claimed α) :
    Except (Entry α) (Entry α × List (Outbound α)) :=
  if claimed.created then
    (claimed.entry.start cfg now).map fun e => (e, [.broadcastProbe e.address])
  else .ok (claimed.entry, [])

/-- What becomes of a packet for the address of `e`: the answer, the entry, what is to be sent, and
the counter that notes it. -/
def place (e : Entry α) (packet : α) :
    Resolution × Entry α × List (Outbound α) × Option Counter :=
  match e.mac?, e.status with
  | some mac, _ => (.resolved mac, e, [.packet packet mac], none)
  | none, .incomplete probes queue =>
    let (queue, accepted) := queue.offer packet
    let e' := { e with status := .incomplete probes queue }
    if accepted then (.queued, e', [], some .packetsQueued)
    else (.rejectedFull, e', [], some .packetsRejected)
  | none, _ => (.dropped .unreachable, e, [], none)

/-- Resolves `a` for a packet. The answer is what became of the packet and what was evicted to
make room for the address. -/
def resolve (r : Responder) (c : Cache α) (now : Nat) (a : Address) (packet : α) :
    Attempt α (Resolution × Option Evicted) :=
  if c.refuses now a then
    .ok { cache := c.count .resolvesDropped 1, answer := (.dropped .unreachable, none) }
  else
    let store := withoutFailed c.store a
    match store.claim a now with
    | .error reason =>
      .ok { cache := gauge (count { c with store } .resolvesDropped 1)
            answer := (.dropped reason, none)
            warnings := [.cacheFull a] }
    | .ok claimed =>
      match startIfNew c.config now claimed with
      | .error e => .error { cache := { c with store := claimed.store.put e }, answer := () }
      | .ok (started, probes) =>
        match started.markUsed c.config now with
        | .error e => .error { cache := { c with store := claimed.store.put e }, answer := () }
        | .ok used =>
          let (resolution, e, items, counter) := place used packet
          let kept := { c with store := claimed.store.put e }
          let noted := match counter with
            | some k => kept.count k 1
            | none => kept
          (handOver r now (noted.settle claimed.evicted) (probes ++ items)).mapAnswer fun _ =>
            (resolution, claimed.evicted)

end Cache

end Neighbor
