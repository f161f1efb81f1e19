import Neighbor.Config
import Neighbor.Entry

/-!
# The table of entries

A store holds at most `capacity` entries, one for an address, in ascending order of addresses. An
entry for a new address takes the place of the most dispensable one when the store is full:
`Entry.evictionKey` says which entries may be evicted and in which order.
-/

namespace Neighbor

/-- Why the packet of a caller is dropped or a binding not installed. -/
inductive DropReason
  /-- The address did not answer lately. -/
  | unreachable
  /-- The store is full and nothing may be evicted. -/
  | noSpace
deriving DecidableEq

/-- An entry that was removed to make room. -/
structure Evicted where
  address : Address
  /-- How many packets waited for its link address. -/
  droppedPending : Nat
deriving DecidableEq

/-- The place of an entry in the order of eviction. -/
structure EvictionKey where
  /-- The rank of its state. -/
  tier : Nat
  /-- The instant that breaks ties. -/
  time : Nat
  address : Address
deriving DecidableEq

instance : LT EvictionKey := ⟨fun x y =>
  x.tier < y.tier ∨ (x.tier = y.tier ∧
    (x.time < y.time ∨ (x.time = y.time ∧ x.address < y.address)))⟩

instance (x y : EvictionKey) : Decidable (x < y) :=
  inferInstanceAs (Decidable (x.tier < y.tier ∨ (x.tier = y.tier ∧
    (x.time < y.time ∨ (x.time = y.time ∧ x.address < y.address)))))

namespace Entry

variable {α : Type}

/-- How dispensable an entry is, the least first: failed, stale, unresolved with no packet
waiting, reachable. A permanent entry, one that is being checked and one with packets waiting is
not dispensable. -/
def evictionTier? (e : Entry α) : Option Nat :=
  match e.kind, e.status with
  | .permanent, _ => none
  | .dynamic, .failed => some 0
  | .dynamic, .stale _ => some 1
  | .dynamic, .incomplete _ queue => if queue.isEmpty then some 2 else none
  | .dynamic, .reachable _ => some 3
  | .dynamic, .delay _ => none
  | .dynamic, .probe _ _ => none

/-- Whether an entry may be evicted. -/
def isEvictable (e : Entry α) : Bool := e.evictionTier?.isSome

/-- The place of an entry in the order of eviction, if it may be evicted. -/
def evictionKey? (rule : TieBreak) (e : Entry α) : Option EvictionKey :=
  e.evictionTier?.map fun tier =>
    let time := match rule with
      | .oldestConfirmed => e.confirmedAt
      | .oldestCreated => e.createdAt
    ⟨tier, time, e.address⟩

end Entry

/-- A bounded table from addresses to entries. -/
structure Store (α : Type) where
  /-- The most entries held at once. -/
  capacity : Nat
  /-- The capacity of the queues of new entries. -/
  queueCapacity : Nat
  tieBreak : TieBreak
  /-- The entries in ascending order of addresses. -/
  entries : List (Entry α)
  /-- The generation of the next new entry, one more than the number of entries made so far. -/
  nextGeneration : Nat
deriving DecidableEq

namespace Store

variable {α : Type}

/-- A store with no entries. -/
def empty (capacity queueCapacity : Nat) (tieBreak : TieBreak) : Store α :=
  ⟨capacity, queueCapacity, tieBreak, [], 1⟩

/-- The number of entries. -/
abbrev size (s : Store α) : Nat := s.entries.length

/-- The addresses that have entries, ascending. -/
def addresses (s : Store α) : List Address := s.entries.map (·.address)

/-- The entry of an address. -/
def find? (s : Store α) (a : Address) : Option (Entry α) :=
  s.entries.find? fun e => e.address == a

/-- Puts an entry in front of the first one with a greater address, in place of one with the same
address. -/
def insertSorted (e : Entry α) : List (Entry α) → List (Entry α)
  | [] => [e]
  | x :: rest =>
    if e.address < x.address then e :: x :: rest
    else if e.address = x.address then e :: rest
    else x :: insertSorted e rest

/-- Puts an entry in the place of its address. -/
def put (s : Store α) (e : Entry α) : Store α :=
  { s with entries := insertSorted e s.entries }

/-- Removes the entry of an address. -/
def erase (s : Store α) (a : Address) : Store α :=
  { s with entries := s.entries.filter fun e => e.address != a }

/-- Removes all entries. -/
def clear (s : Store α) : Store α := { s with entries := [] }

/-- Of two entries, the one to evict first; one that may not be evicted never goes before
another. -/
def moreDispensable (rule : TieBreak) (best : Option (Entry α)) (e : Entry α) :
    Option (Entry α) :=
  match e.evictionKey? rule, best.bind (·.evictionKey? rule) with
  | none, _ => best
  | some _, none => some e
  | some k, some b => if k < b then some e else best

/-- The entry to evict next, if any may be evicted. -/
def victim? (s : Store α) : Option (Entry α) :=
  s.entries.foldl (moreDispensable s.tieBreak) none

/-- Removes the entry to evict next. -/
def evict? (s : Store α) : Option (Store α × Evicted) :=
  s.victim?.map fun e => (s.erase e.address, ⟨e.address, e.waiting.length⟩)

/-- The result of looking for an entry and making one if there is none. -/
structure Claimed (α : Type) where
  store : Store α
  entry : Entry α
  /-- Whether the entry is new. -/
  created : Bool
  /-- What was removed to make room. -/
  evicted : Option Evicted
deriving DecidableEq

/-- Makes an entry for an address that has none, in a store that has room. -/
def create (s : Store α) (a : Address) (now : Nat) (evicted : Option Evicted) : Claimed α :=
  let e := Entry.fresh a s.nextGeneration s.queueCapacity now
  { store := { s.put e with nextGeneration := s.nextGeneration + 1 }
    entry := e
    created := true
    evicted }

/-- The entry of an address, or a new one. A full store first evicts; if it cannot, the answer is
that there is no space. -/
def claim (s : Store α) (a : Address) (now : Nat) : Except DropReason (Claimed α) :=
  match s.find? a with
  | some e => .ok ⟨s, e, false, none⟩
  | none =>
    if s.capacity ≤ s.size then
      match s.evict? with
      | none => .error .noSpace
      | some (s', evicted) => .ok (s'.create a now (some evicted))
    else .ok (s.create a now none)

end Store

end Neighbor
