import Neighbor.Config
import Neighbor.Logging
import Neighbor.Mac.Text

/-!
# Settings

Settings are what a user writes down. Every member of the cache section is optional; what is left
out has the value of the standard configuration. Permanent bindings name the link address as text,
which need not be one, so settings can fail to make a configuration.
-/

namespace Neighbor

/-- The settings of the cache itself. -/
structure CacheSettings where
  capacity : Option UInt64 := none
  queueCapacity : Option UInt64 := none
  reachableSecs : Option UInt64 := none
  delaySecs : Option UInt64 := none
  maxRetries : Option UInt32 := none
  retryMillis : Option UInt64 := none
  multiplier : Option UInt32 := none
  maxRetryMillis : Option UInt64 := none
  failedGraceSecs : Option UInt64 := none
  staleSecs : Option UInt64 := none
  tickMillis : Option UInt64 := none
  tieBreak : Option TieBreak := none
deriving DecidableEq

/-- The settings of the log. -/
structure LoggingSettings where
  level : Option String := none
  format : Option String := none
deriving DecidableEq

/-- A permanent binding as it is written down. -/
structure BindingSettings where
  address : Address
  mac : String
deriving DecidableEq

/-- All settings. -/
structure Settings where
  cache : CacheSettings := {}
  logging : Option LoggingSettings := none
  /-- The permanent bindings. -/
  bindings : List BindingSettings := []
deriving DecidableEq

/-- Why settings make no configuration: the text of a permanent binding is no link address. -/
structure BindingError where
  address : Address
  cause : Mac.ReadError
deriving DecidableEq

/-- The wording of a faulty binding. -/
def BindingError.message (e : BindingError) : String :=
  "static." ++ e.address.text ++ ": " ++ e.cause.message

namespace BindingSettings

/-- The binding that is written down. -/
def resolve (b : BindingSettings) : Except BindingError (Address × Mac) :=
  match Mac.read b.mac with
  | .ok mac => .ok (b.address, mac)
  | .error cause => .error ⟨b.address, cause⟩

end BindingSettings

namespace Settings

/-- The configuration that settings make. The first binding that is at fault is reported. -/
def resolve (s : Settings) : Except BindingError Config :=
  let c := s.cache
  let std := Config.standard
  (s.bindings.mapM BindingSettings.resolve).map fun permanent =>
    { capacity := (c.capacity.map UInt64.toNat).getD std.capacity
      queueCapacity := (c.queueCapacity.map UInt64.toNat).getD std.queueCapacity
      reachable := (c.reachableSecs.map Duration.ofSecs).getD std.reachable
      delay := (c.delaySecs.map Duration.ofSecs).getD std.delay
      maxRetries := (c.maxRetries.map UInt32.toNat).getD std.maxRetries
      retry :=
        { initial := (c.retryMillis.map Duration.ofMillis).getD std.retry.initial
          multiplier := c.multiplier.getD std.retry.multiplier
          max := (c.maxRetryMillis.map Duration.ofMillis).getD std.retry.max }
      failedGrace := (c.failedGraceSecs.map Duration.ofSecs).getD std.failedGrace
      stale := (c.staleSecs.map Duration.ofSecs).getD std.stale
      tick := (c.tickMillis.map Duration.ofMillis).getD std.tick
      tieBreak := c.tieBreak.getD std.tieBreak
      permanent }

/-- The wishes for the log that settings make. -/
def logSettings (s : Settings) : LogSettings :=
  match s.logging with
  | none => {}
  | some wishes =>
    let std : LogSettings := {}
    { level := wishes.level.getD std.level
      format := wishes.format.getD std.format }

end Settings

end Neighbor
