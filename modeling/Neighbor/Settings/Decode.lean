import Neighbor.Settings
import Neighbor.Value

/-!
# Settings from a tree of values

A section is a table of named members, of which unknown ones are ignored, or a list of its members
in their order. The notations differ in three points: TOML takes a list with more items than the
section has members, takes a moment as a table of unknown members, and writes a bare name in front
of an empty value where JSON writes it in front of a null.
-/

namespace Neighbor

/-- The notation in which a tree of settings was written. -/
inductive Format
  | toml
  | json
deriving DecidableEq

namespace Value

/-- Reads an integer from zero up to, not including, `bound`. -/
def natBelow? (bound : Nat) : Value → Option Nat
  | integer n => if 0 ≤ n ∧ n < bound then some n.toNat else none
  | _ => none

/-- Reads a 64-bit number. -/
def word64? (v : Value) : Option UInt64 := (v.natBelow? UInt64.size).map UInt64.ofNat

/-- Reads a 32-bit number. -/
def word32? (v : Value) : Option UInt32 := (v.natBelow? UInt32.size).map UInt32.ofNat

/-- Reads a text. -/
def text? : Value → Option String
  | text s => some s
  | _ => none

/-- Reads a member that may be missing or null. -/
def optional? {β : Type} (read : Value → Option β) : Option Value → Option (Option β)
  | none => some none
  | some null => some none
  | some v => (read v).map some

/-- Whether a value says nothing beyond the name in front of it. -/
def isBareName (f : Format) : Value → Bool
  | null => f == .json
  | v => f == .toml && v.isEmpty

/-- Reads one name out of a choice: a text, or a table that holds the name and nothing more. -/
def choice? (f : Format) : Value → Option String
  | text s => some s
  | table [(name, v)] => if v.isBareName f then some name else none
  | _ => none

/-- Reads a tie-break rule. -/
def tieBreak? (f : Format) (v : Value) : Option TieBreak := (v.choice? f).bind TieBreak.ofLabel?

/-- The members of a section by their names, or by their places in a list that has all of them. -/
def members? (f : Format) (names : List String) : Value → Option (List (Option Value))
  | table members => some (names.map fun name => member? name members)
  | moment => if f = .toml then some (names.map fun _ => none) else none
  | list items =>
    if names.length ≤ items.length ∧ (f = .toml ∨ items.length ≤ names.length) then
      some ((items.take names.length).map some)
    else none
  | _ => none

end Value

namespace CacheSettings

/-- The names of the members of the cache section. -/
def names : List String :=
  ["capacity", "queue_capacity", "reachable_timeout_secs", "delay_timeout_secs", "max_retries",
    "retry_interval_ms", "backoff_multiplier", "max_retry_interval_ms", "failed_grace_secs",
    "stale_timeout_secs", "tick_interval_ms", "tie_break"]

/-- Reads the cache section. -/
def ofValue? (f : Format) (v : Value) : Option CacheSettings :=
  let word64 := Value.optional? Value.word64?
  let word32 := Value.optional? Value.word32?
  match v.members? f names with
  | some [m1, m2, m3, m4, m5, m6, m7, m8, m9, m10, m11, m12] => do
    let capacity ← word64 m1
    let queueCapacity ← word64 m2
    let reachableSecs ← word64 m3
    let delaySecs ← word64 m4
    let maxRetries ← word32 m5
    let retryMillis ← word64 m6
    let multiplier ← word32 m7
    let maxRetryMillis ← word64 m8
    let failedGraceSecs ← word64 m9
    let staleSecs ← word64 m10
    let tickMillis ← word64 m11
    let tieBreak ← Value.optional? (Value.tieBreak? f) m12
    return { capacity, queueCapacity, reachableSecs, delaySecs, maxRetries, retryMillis,
             multiplier, maxRetryMillis, failedGraceSecs, staleSecs, tickMillis, tieBreak }
  | _ => none

end CacheSettings

/-- Reads the logging section. -/
def LoggingSettings.ofValue? (f : Format) (v : Value) : Option LoggingSettings :=
  match v.members? f ["level", "format"] with
  | some [level, format] => do
    let level ← Value.optional? Value.text? level
    let format ← Value.optional? Value.text? format
    return { level, format }
  | _ => none

/-- Reads one permanent binding. -/
def BindingSettings.ofValue? (f : Format) (v : Value) : Option BindingSettings :=
  match v.members? f ["address", "mac"] with
  | some [some address, some mac] => do
    let address ← address.text?.bind Address.ofText?
    let mac ← mac.text?
    return { address, mac }
  | _ => none

/-- Reads the permanent bindings. -/
def BindingSettings.listOfValue? (f : Format) : Value → Option (List BindingSettings)
  | .list items => items.mapM (ofValue? f)
  | _ => none

namespace Settings

/-- Reads settings from their three parts, of which missing ones are empty. -/
def ofParts? (f : Format) (cache logging bindings : Option Value) : Option Settings := do
  let cache ← match cache with
    | some v => CacheSettings.ofValue? f v
    | none => some {}
  let logging ← Value.optional? (LoggingSettings.ofValue? f) logging
  let bindings ← match bindings with
    | some v => BindingSettings.listOfValue? f v
    | none => some []
  return { cache, logging, bindings }

/-- Reads settings from a table, or from a list of the three parts from which the last ones may be
missing. -/
def ofValue? (f : Format) : Value → Option Settings
  | .table members =>
    let part (name : String) := Value.member? name members
    ofParts? f (part "cache") (part "logging") (part "static")
  | .list items =>
    if items.length ≤ 3 then ofParts? f items[0]? items[1]? items[2]? else none
  | _ => none

end Settings

end Neighbor
