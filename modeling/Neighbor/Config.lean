import Neighbor.Address
import Neighbor.Mac
import Neighbor.Backoff

/-!
# The configuration of a cache

A configuration fixes the sizes, the timeouts and the permanent bindings of a cache. It does not
change while the cache is in use.
-/

namespace Neighbor

/-- Which of two equally dispensable entries is evicted first. -/
inductive TieBreak
  /-- The one whose binding was confirmed longest ago. -/
  | oldestConfirmed
  /-- The one that was created first. -/
  | oldestCreated
deriving DecidableEq

/-- The name of a tie-break rule in settings. -/
def TieBreak.label : TieBreak → String
  | oldestConfirmed => "oldest-confirmed"
  | oldestCreated => "oldest-created"

/-- The tie-break rule of a name. -/
def TieBreak.ofLabel? (s : String) : Option TieBreak :=
  if s = "oldest-confirmed" then some oldestConfirmed
  else if s = "oldest-created" then some oldestCreated
  else none

/-- The waits between probes unless told otherwise: one, two, four, then eight seconds. -/
def Backoff.standard : Backoff := ⟨.ofMillis 1000, 2, .ofMillis 8000⟩

/-- The configuration of a cache. -/
structure Config where
  /-- The most entries held at once. -/
  capacity : Nat := 64
  /-- The most packets that wait for one address. -/
  queueCapacity : Nat := 3
  /-- How long a confirmed binding is trusted. -/
  reachable : Duration := .ofSecs 30
  /-- How long an entry that was used while stale waits for a confirmation before it probes. -/
  delay : Duration := .ofSecs 5
  /-- How many probes are sent before an address counts as failed; `0` counts as `1`. -/
  maxRetries : Nat := 3
  /-- The waits between probes. -/
  retry : Backoff := .standard
  /-- How long a failed address is answered with a refusal. -/
  failedGrace : Duration := .ofSecs 20
  /-- How long an unused stale entry is kept. -/
  stale : Duration := .ofSecs 1200
  /-- How often a schedule ages the cache. -/
  tick : Duration := .ofMillis 1000
  tieBreak : TieBreak := .oldestConfirmed
  /-- The permanent bindings, in the order in which they are installed. -/
  permanent : List (Address × Mac) := []
deriving DecidableEq

namespace Config

/-- The configuration used unless told otherwise. -/
def standard : Config := {}

/-- The largest capacity that settings may ask for. -/
def maxCapacity : Nat := 1024 * 1024

/-- The largest queue capacity that settings may ask for. -/
def maxQueueCapacity : Nat := 1024

/-- The number of probes sent before an address counts as failed. -/
def maxProbes (c : Config) : Nat := max c.maxRetries 1

end Config

end Neighbor
