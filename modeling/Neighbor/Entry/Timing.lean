import Neighbor.Config
import Neighbor.Entry
import Neighbor.Outbound

/-!
# How an entry changes

An entry changes when its resolution starts, when evidence for its binding arrives, when a packet
is sent through it, and when its deadline passes. Each change that sets a deadline can find that
the clock cannot hold it; then it stops, and its `error` is the entry as it stands at that point:
in its new state but with its old deadline.
-/

namespace Neighbor.Entry

variable {α : Type}

/-- Sets the deadline of an entry to `d` after `now`. -/
def arm (e : Entry α) (now : Nat) (d : Duration) : Except (Entry α) (Entry α) :=
  match Clock.after? now d with
  | some t => .ok { e with deadline := some t }
  | none => .error e

/-- Counts the first probe of a fresh entry, which asks all stations. -/
def start (cfg : Config) (now : Nat) (e : Entry α) : Except (Entry α) (Entry α) :=
  let status := match e.status with
    | .incomplete _ queue => .incomplete 1 queue
    | other => other
  arm { e with status } now (cfg.retry.delay 1)

/-- Whether evidence stamped `now` counts: a permanent entry takes none, and a resolved entry none
that is older than its last confirmation. -/
def accepts (e : Entry α) (now : Nat) : Bool :=
  e.kind == .dynamic && (e.mac?.isNone || e.confirmedAt ≤ now)

/-- Binds the address to `mac` until the binding ages out. The second part of the result is what
waited for the binding. -/
def confirm (cfg : Config) (mac : Mac) (now : Nat) (e : Entry α) :
    Except (Entry α) (Entry α × List α) :=
  (arm { e with status := .reachable mac, confirmedAt := max e.confirmedAt now } now
    cfg.reachable).map fun bound => (bound, e.waiting)

/-- Binds the address to `mac` for good. The second part of the result is what waited for the
binding. -/
def pin (mac : Mac) (now : Nat) (e : Entry α) : Entry α × List α :=
  ({ e with status := .reachable mac, kind := .permanent, confirmedAt := now, deadline := none },
    e.waiting)

/-- Notes that a packet is sent. The first use of a stale entry starts the wait for a
confirmation. -/
def markUsed (cfg : Config) (now : Nat) (e : Entry α) : Except (Entry α) (Entry α) :=
  match e.status with
  | .stale mac => arm { e with usedAt := now, status := .delay mac } now cfg.delay
  | _ => .ok { e with usedAt := now }

/-- What time did to an entry. -/
inductive Aging
  /-- The deadline has not passed. -/
  | idle
  /-- One more probe is sent and the state stays. -/
  | reprobed
  /-- The entry entered the stale or the probe state. -/
  | changed
  /-- The last probe stayed unanswered; `dropped` packets had waited. -/
  | failed (previous : State) (dropped : Nat)
  /-- The entry has had its time and is to be removed. -/
  | expired
deriving DecidableEq

/-- An entry after the passing of time, with the probe that is due. -/
structure Aged (α : Type) where
  entry : Entry α
  aging : Aging
  probe : Option (Outbound α) := none
deriving DecidableEq

/-- Whether the deadline of an entry has passed. -/
def isDue (e : Entry α) (now : Nat) : Bool :=
  match e.deadline with
  | some t => t ≤ now
  | none => false

/-- Gives up on an address after its last probe. -/
def giveUp (cfg : Config) (now : Nat) (e : Entry α) : Except (Entry α) (Aged α) :=
  (arm { e with status := .failed } now cfg.failedGrace).map fun e' =>
    { entry := e', aging := .failed e.state e.waiting.length }

/-- Sends unicast probe number `n` of a check. -/
def probeAgain (cfg : Config) (now : Nat) (e : Entry α) (mac : Mac) (n : Nat) (aging : Aging) :
    Except (Entry α) (Aged α) :=
  (arm { e with status := .probe mac n } now (cfg.retry.delay n)).map fun e' =>
    { entry := e', aging, probe := some (.unicastProbe e.address mac) }

/-- What time does to an entry: nothing before its deadline, one step after it. -/
def age (cfg : Config) (now : Nat) (e : Entry α) : Except (Entry α) (Aged α) :=
  if e.isDue now then
    match e.status with
    | .incomplete n queue =>
      if cfg.maxProbes ≤ n then e.giveUp cfg now
      else
        (arm { e with status := .incomplete (n + 1) queue } now (cfg.retry.delay (n + 1))).map
          fun e' => { entry := e', aging := .reprobed, probe := some (.broadcastProbe e.address) }
    | .probe mac n =>
      if cfg.maxProbes ≤ n then e.giveUp cfg now
      else e.probeAgain cfg now mac (n + 1) .reprobed
    | .delay mac => e.probeAgain cfg now mac 1 .changed
    | .reachable mac =>
      (arm { e with status := .stale mac } now cfg.stale).map fun e' =>
        { entry := e', aging := .changed }
    | .stale _ => .ok { entry := e, aging := .expired }
    | .failed => .ok { entry := e, aging := .expired }
  else .ok { entry := e, aging := .idle }

end Neighbor.Entry
