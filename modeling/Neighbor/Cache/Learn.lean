import Neighbor.Cache
import Neighbor.Entry.Timing

/-!
# Bindings from evidence

A cache learns a binding from a message of the station itself, is told by the layer above that a
binding still works, or is given a permanent one. Packets that waited for the binding are handed
to the transmitter in the order in which they came; nothing else is sent.
-/

namespace Neighbor.Cache

variable {α : Type}

/-- Counts packets that waited for `mac` and hands them to the transmitter. -/
def flush (c : Cache α) (packets : List α) (mac : Mac) : Cache α × List (Outbound α) :=
  (c.count .packetsFlushed packets.length, packets.map (.packet · mac))

/-- Whether a binding can be learned: one host at one station. -/
def isUsableBinding (a : Address) (mac : Mac) : Bool := a.isUsable && mac.isUnicast

/-- Learns that `a` is at `mac`. An unusable binding, one for which there is no room and one that
the entry does not accept change nothing. The answer is what was evicted to make room. -/
def observe (c : Cache α) (now : Nat) (a : Address) (mac : Mac) :
    Attempt α (Option Evicted) :=
  if isUsableBinding a mac then
    match c.store.claim a now with
    | .error _ => .ok { cache := c.gauge, answer := none }
    | .ok claimed =>
      if claimed.entry.accepts now then
        match claimed.entry.confirm c.config mac now with
        | .error e => .error { cache := { c with store := claimed.store.put e }, answer := () }
        | .ok (e, packets) =>
          let kept := settle { c with store := claimed.store.put e } claimed.evicted
          let (flushed, sent) := kept.flush packets mac
          .ok { cache := flushed, answer := claimed.evicted, sent }
      else
        .ok { cache := settle { c with store := claimed.store } claimed.evicted
              answer := claimed.evicted }
  else .ok { cache := c, answer := none }

/-- Takes a hint from the layer above that the binding of `a` works. The answer is whether the
hint counted. -/
def confirm (c : Cache α) (now : Nat) (a : Address) : Attempt α Bool :=
  match c.store.find? a with
  | none => .ok { cache := c, answer := false }
  | some e =>
    match e.mac? with
    | none => .ok { cache := c, answer := false }
    | some mac =>
      if e.accepts now then
        match e.confirm c.config mac now with
        | .error e' => .error { cache := { c with store := c.store.put e' }, answer := () }
        | .ok (e', packets) =>
          let (flushed, sent) := flush { c with store := c.store.put e' } packets mac
          .ok { cache := flushed, answer := true, sent }
      else .ok { cache := c, answer := false }

/-- Binds `a` to `mac` for good, whatever the cache knew of it. The answer is what was evicted to
make room, or why there is none. -/
def pin (c : Cache α) (now : Nat) (a : Address) (mac : Mac) :
    Outcome α (Except DropReason (Option Evicted)) :=
  match c.store.claim a now with
  | .error reason => { cache := c, answer := .error reason }
  | .ok claimed =>
    let (e, packets) := claimed.entry.pin mac now
    let kept := settle { c with store := claimed.store.put e } claimed.evicted
    let (flushed, sent) := kept.flush packets mac
    { cache := flushed, answer := .ok claimed.evicted, sent }

/-- Installs one configured binding, with a warning if there is no room. -/
def install (now : Nat) (o : Outcome α Unit) (binding : Address × Mac) : Outcome α Unit :=
  let next := o.cache.pin now binding.1 binding.2
  let warnings := match next.answer with
    | .ok _ => []
    | .error _ => [.noRoomForPermanent binding.1]
  { cache := next.cache
    answer := ()
    sent := o.sent ++ next.sent
    warnings := o.warnings ++ warnings }

/-- A cache with the configured bindings installed. -/
def create (cfg : Config) (now : Nat) : Outcome α Unit :=
  cfg.permanent.foldl (install now) { cache := .empty cfg, answer := () }

end Neighbor.Cache
