import Neighbor.Settings
import Neighbor.Text.Decimal
import Neighbor.Time.Text

/-!
# Checking settings

A problem makes settings unusable; a caution only points out an odd choice. The sizes and counts
are checked as they are written, the relations between them after what is left out has been filled
in, and the permanent bindings one by one.
-/

namespace Neighbor

/-- Why settings cannot be used. -/
inductive Problem
  | zeroCapacity
  | largeCapacity (capacity : Nat)
  | largeQueue (capacity : Nat)
  | zeroRetries
  | zeroMultiplier
  | zeroInterval
  /-- The first wait between probes is longer than the longest one. -/
  | retryAboveMax (initial longest : Duration)
  /-- There are more permanent bindings than the cache holds. -/
  | bindingsExceedCapacity (count capacity : Nat)
  | duplicateAddress (address : Address)
  | unusableAddress (address : Address)
  | groupMac (address : Address) (mac : Mac)
  | badMac (error : BindingError)
deriving DecidableEq

/-- The wording of a problem. -/
def Problem.message : Problem → String
  | .zeroCapacity => "cache.capacity: must be at least 1"
  | .largeCapacity n =>
    "cache.capacity: " ++ Text.decimalText n ++ " exceeds the limit of " ++
      Text.decimalText Config.maxCapacity
  | .largeQueue n =>
    "cache.queue_capacity: " ++ Text.decimalText n ++ " exceeds the limit of " ++
      Text.decimalText Config.maxQueueCapacity
  | .zeroRetries => "cache.max_retries: must be at least 1"
  | .zeroMultiplier => "cache.backoff_multiplier: must be at least 1"
  | .zeroInterval => "cache: retry_interval_ms and tick_interval_ms must be non-zero"
  | .retryAboveMax initial longest =>
    "cache.retry_interval_ms: " ++ initial.text ++ " exceeds max_retry_interval_ms " ++
      longest.text
  | .bindingsExceedCapacity count capacity =>
    "static: " ++ Text.decimalText count ++ " entries do not fit in cache.capacity " ++
      Text.decimalText capacity
  | .duplicateAddress a => "static." ++ a.text ++ ": duplicate address"
  | .unusableAddress a => "static." ++ a.text ++ ": not a unicast address"
  | .groupMac a mac => "static." ++ a.text ++ ": " ++ mac.text ++ " is not a unicast MAC"
  | .badMac e => e.message

/-- What is odd about settings. -/
inductive Caution
  | zeroQueue
  | fastGrowth (multiplier : Nat)
  /-- The cache is aged less often than entries ask to be probed. -/
  | lateProbes (tick delay : Duration)
deriving DecidableEq

/-- The wording of a caution. -/
def Caution.message : Caution → String
  | .zeroQueue =>
    "cache.queue_capacity: 0 rejects every packet sent to an unresolved address"
  | .fastGrowth n =>
    "cache.backoff_multiplier: " ++ Text.decimalText n ++ " grows the retry interval very quickly"
  | .lateProbes tick delay =>
    "cache.tick_interval_ms: " ++ tick.text ++ " is longer than delay_timeout " ++ delay.text ++
      ", probes will be late"

namespace CacheSettings

/-- The problems with single members of the cache section. -/
def problems (c : CacheSettings) : List Problem :=
  (if c.capacity = some 0 then [.zeroCapacity] else []) ++
  (match c.capacity with
    | some n => if Config.maxCapacity < n.toNat then [.largeCapacity n.toNat] else []
    | none => []) ++
  (match c.queueCapacity with
    | some n => if Config.maxQueueCapacity < n.toNat then [.largeQueue n.toNat] else []
    | none => []) ++
  (if c.maxRetries = some 0 then [.zeroRetries] else []) ++
  (if c.multiplier = some 0 then [.zeroMultiplier] else []) ++
  (if c.retryMillis = some 0 ∨ c.tickMillis = some 0 then [.zeroInterval] else [])

/-- The cautions about single members of the cache section. -/
def cautions (c : CacheSettings) : List Caution :=
  (if c.queueCapacity = some 0 then [.zeroQueue] else []) ++
  (match c.multiplier with
    | some n => if 16 < n.toNat then [.fastGrowth n.toNat] else []
    | none => [])

end CacheSettings

namespace Config

/-- The problems with how the values of a configuration go together. -/
def problems (c : Config) : List Problem :=
  (if c.retry.max < c.retry.initial then [.retryAboveMax c.retry.initial c.retry.max] else []) ++
  (if c.capacity < c.permanent.length then
    [.bindingsExceedCapacity c.permanent.length c.capacity] else [])

/-- The cautions about how the values of a configuration go together. -/
def cautions (c : Config) : List Caution :=
  if c.delay < c.tick then [.lateProbes c.tick c.delay] else []

end Config

namespace BindingSettings

/-- The problems with one permanent binding behind others for the addresses `seen`. -/
def problems (seen : List Address) (b : BindingSettings) : List Problem :=
  (if b.address ∈ seen then [.duplicateAddress b.address] else []) ++
  (if b.address.isUsable then [] else [.unusableAddress b.address]) ++
  (match b.resolve with
    | .ok (_, mac) => if mac.isUnicast then [] else [.groupMac b.address mac]
    | .error e => [.badMac e])

/-- The problems with permanent bindings behind others for the addresses `seen`. -/
def allProblems (seen : List Address) : List BindingSettings → List Problem
  | [] => []
  | b :: rest => b.problems seen ++ allProblems (b.address :: seen) rest

end BindingSettings

namespace Settings

/-- Everything that makes settings unusable, in the order in which it is reported. -/
def problems (s : Settings) : List Problem :=
  s.cache.problems ++
  (match s.resolve with
    | .ok c => c.problems
    | .error _ => []) ++
  BindingSettings.allProblems [] s.bindings

/-- Everything that is odd about settings, in the order in which it is reported. -/
def cautions (s : Settings) : List Caution :=
  s.cache.cautions ++
  match s.resolve with
    | .ok c => c.cautions
    | .error _ => []

/-- Whether settings can be used. -/
def isValid (s : Settings) : Bool := s.problems.isEmpty

/-- What is logged about settings: the cautions, then the problems. -/
def diagnostics (s : Settings) : List (Level × String) :=
  s.cautions.map (fun c => (.warn, c.message)) ++ s.problems.map fun p => (.error, p.message)

end Settings

end Neighbor
