/-!
# Counters

Nine counters and one gauge describe what a cache has done. Each holds a 64-bit word, and counting
past the largest word starts again at zero.
-/

namespace Neighbor

/-- The things that are counted, in the order in which they are listed. -/
inductive Counter
  | broadcastProbes
  | unicastProbes
  | packetsQueued
  | packetsFlushed
  | packetsRejected
  | pendingDropped
  | resolvesDropped
  | resolutionsFailed
  | evictions
  /-- The number of entries in the cache: set, not counted. -/
  | entries
deriving DecidableEq

namespace Counter

/-- All counters in their order. -/
def all : List Counter :=
  [broadcastProbes, unicastProbes, packetsQueued, packetsFlushed, packetsRejected,
    pendingDropped, resolvesDropped, resolutionsFailed, evictions, entries]

/-- The name under which a counter is listed. -/
def label : Counter → String
  | broadcastProbes => "arp_broadcast_probes"
  | unicastProbes => "arp_unicast_probes"
  | packetsQueued => "arp_packets_queued"
  | packetsFlushed => "arp_packets_flushed"
  | packetsRejected => "arp_packets_rejected"
  | pendingDropped => "arp_pending_dropped"
  | resolvesDropped => "arp_resolves_dropped"
  | resolutionsFailed => "arp_resolutions_failed"
  | evictions => "arp_evictions"
  | entries => "arp_entries"

end Counter

/-- The values of all counters. -/
structure Metrics where
  broadcastProbes : UInt64 := 0
  unicastProbes : UInt64 := 0
  packetsQueued : UInt64 := 0
  packetsFlushed : UInt64 := 0
  packetsRejected : UInt64 := 0
  pendingDropped : UInt64 := 0
  resolvesDropped : UInt64 := 0
  resolutionsFailed : UInt64 := 0
  evictions : UInt64 := 0
  entries : UInt64 := 0
deriving DecidableEq

namespace Metrics

/-- The value of one counter. -/
def get (m : Metrics) : Counter → UInt64
  | .broadcastProbes => m.broadcastProbes
  | .unicastProbes => m.unicastProbes
  | .packetsQueued => m.packetsQueued
  | .packetsFlushed => m.packetsFlushed
  | .packetsRejected => m.packetsRejected
  | .pendingDropped => m.pendingDropped
  | .resolvesDropped => m.resolvesDropped
  | .resolutionsFailed => m.resolutionsFailed
  | .evictions => m.evictions
  | .entries => m.entries

/-- Replaces the value of one counter. -/
def set (m : Metrics) (c : Counter) (v : UInt64) : Metrics :=
  match c with
  | .broadcastProbes => { m with broadcastProbes := v }
  | .unicastProbes => { m with unicastProbes := v }
  | .packetsQueued => { m with packetsQueued := v }
  | .packetsFlushed => { m with packetsFlushed := v }
  | .packetsRejected => { m with packetsRejected := v }
  | .pendingDropped => { m with pendingDropped := v }
  | .resolvesDropped => { m with resolvesDropped := v }
  | .resolutionsFailed => { m with resolutionsFailed := v }
  | .evictions => { m with evictions := v }
  | .entries => { m with entries := v }

/-- Counts `n` more, modulo `2^64`. -/
def add (m : Metrics) (c : Counter) (n : UInt64) : Metrics := m.set c (m.get c + n)

/-- Every counter with its name, in order. -/
def listing (m : Metrics) : List (String × UInt64) :=
  Counter.all.map fun c => (c.label, m.get c)

/-- Setting a counter leaves the others alone. -/
@[simp] theorem get_set (m : Metrics) (c d : Counter) (v : UInt64) :
    (m.set c v).get d = if d = c then v else m.get d := by
  cases c <;> cases d <;> rfl

/-- Adding to a counter leaves the others alone. -/
@[simp] theorem get_add (m : Metrics) (c d : Counter) (n : UInt64) :
    (m.add c n).get d = if d = c then m.get c + n else m.get d := by
  simp [add]

/-- Metrics with the same value of every counter are equal. -/
theorem ext_get {m n : Metrics} (h : ∀ c, m.get c = n.get c) : m = n := by
  have h1 := h .broadcastProbes
  have h2 := h .unicastProbes
  have h3 := h .packetsQueued
  have h4 := h .packetsFlushed
  have h5 := h .packetsRejected
  have h6 := h .pendingDropped
  have h7 := h .resolvesDropped
  have h8 := h .resolutionsFailed
  have h9 := h .evictions
  have h10 := h .entries
  cases m
  cases n
  simp_all [get]

end Metrics

end Neighbor
