import Neighbor.Cache.Transmit

/-!
# The passing of time

A tick visits the entries one by one, lets time act on each, then removes the expired ones and
hands over the probes that are due. The order of visits is a parameter of `tickInOrder`; `tick`
visits in ascending order of addresses.
-/

namespace Neighbor

/-- What a tick did. -/
structure TickReport where
  /-- How many entries changed state, failures and removals apart. -/
  transitions : Nat := 0
  /-- How many probes were sent. -/
  probes : Nat := 0
  /-- The addresses whose last probe stayed unanswered, in the order of visits. -/
  failed : List Address := []
  /-- How many entries were removed. -/
  expired : Nat := 0
  /-- How many packets had waited for the failed addresses. -/
  droppedPending : Nat := 0
deriving DecidableEq

/-- Whether a tick did nothing. -/
def TickReport.isQuiet (r : TickReport) : Bool := r == {}

/-- What the visits of a tick have led to so far. -/
structure Sweep (α : Type) where
  store : Store α
  transitions : Nat := 0
  probes : List (Outbound α) := []
  failed : List Address := []
  droppedPending : Nat := 0
  expired : List Address := []
  warnings : List Warning := []
deriving DecidableEq

namespace Sweep

variable {α : Type}

/-- Notes what time did to one entry. -/
def note (s : Sweep α) (aged : Entry.Aged α) : Sweep α :=
  let s := { s with
    store := s.store.put aged.entry
    probes := s.probes ++ aged.probe.toList }
  match aged.aging with
  | .idle => s
  | .reprobed => s
  | .changed => { s with transitions := s.transitions + 1 }
  | .failed previous dropped =>
    { s with
      failed := s.failed ++ [aged.entry.address]
      droppedPending := s.droppedPending + dropped
      warnings := s.warnings ++ [.resolutionFailed aged.entry.address previous dropped] }
  | .expired => { s with expired := s.expired ++ [aged.entry.address] }

/-- Lets time act on the entry of one address. -/
def visit (cfg : Config) (now : Nat) (s : Sweep α) (a : Address) :
    Except (Sweep α) (Sweep α) :=
  match s.store.find? a with
  | none => .ok s
  | some e =>
    match e.age cfg now with
    | .error e' => .error { s with store := s.store.put e' }
    | .ok aged => .ok (s.note aged)

/-- Visits addresses in order. -/
def visitAll (cfg : Config) (now : Nat) (s : Sweep α) (order : List Address) :
    Except (Sweep α) (Sweep α) :=
  order.foldlM (visit cfg now) s

/-- The store without the expired entries. -/
def remaining (s : Sweep α) : Store α := s.expired.foldl Store.erase s.store

/-- The report of a finished sweep. -/
def report (s : Sweep α) : TickReport where
  transitions := s.transitions
  probes := s.probes.length
  failed := s.failed
  expired := s.expired.length
  droppedPending := s.droppedPending

end Sweep

namespace Cache

variable {α : Type}

/-- Lets time act on the entries of `order`, one after the other. -/
def tickInOrder (r : Responder) (c : Cache α) (now : Nat) (order : List Address) :
    Attempt α TickReport :=
  match Sweep.visitAll c.config now { store := c.store } order with
  | .error s =>
    .error { cache := { c with store := s.store }, answer := (), warnings := s.warnings }
  | .ok s =>
    let kept := gauge { c with store := s.remaining }
    let noted := (kept.count .resolutionsFailed s.failed.length).count .pendingDropped
      s.droppedPending
    ((handOver r now noted s.probes).mapAnswer fun _ => s.report).warnedAfter s.warnings

/-- Lets time act on every entry. -/
def tick (r : Responder) (c : Cache α) (now : Nat) : Attempt α TickReport :=
  c.tickInOrder r now c.store.addresses

end Cache

end Neighbor
