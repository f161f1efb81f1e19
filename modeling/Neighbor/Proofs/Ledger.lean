import Neighbor.Proofs.Books

/-!
# The ledger of a history

`Step.tally` says what happened in a step, by its call, its answer, what it handed over and the
caches before and after it. `History.ledger` says that the counters are the sums of these tallies,
that every packet that was queued was let out, was dropped or waits, and that the gauge shows the
number of entries.
-/

namespace Neighbor

variable {α : Type}

/-- Whether a packet was dropped. -/
def Resolution.isDropped : Resolution → Bool
  | .dropped _ => true
  | _ => false

/-- How many packets that waited were dropped, as an answer says. -/
def Answer.lost : Answer → Nat
  | .ticked report => report.droppedPending
  | .invalidated dropped => dropped.getD 0
  | .cleared dropped => dropped
  | _ => 0

namespace Step

/-- How many entries a tick moved to the failed state. -/
def failures (s : Step α) : Nat :=
  match s.call with
  | .tick => s.before.store.addresses.countP fun a =>
      s.before.state? a ≠ some .failed ∧ s.outcome.cache.state? a = some .failed
  | _ => 0

/-- How many entries a call that may make one removed. -/
def evictions (s : Step α) : Nat :=
  if s.call.isClaiming then
    s.before.store.addresses.countP fun a => (s.outcome.cache.store.find? a).isNone
  else 0

/-- How many packets that waited were handed over. -/
def flushed (s : Step α) : Nat :=
  match s.outcome.answer with
  | .resolution (.resolved _) _ => 0
  | _ => (deliveries s.outcome.sent).length

/-- What happened in a step, by kind. -/
def tally (s : Step α) : Tally
  | .broadcastProbes => s.outcome.sent.countP (·.isBroadcast)
  | .unicastProbes => s.outcome.sent.countP (·.isUnicast)
  | .packetsQueued => if s.outcome.answer.resolution? = some .queued then 1 else 0
  | .packetsFlushed => s.flushed
  | .packetsRejected => if s.outcome.answer.resolution? = some .rejectedFull then 1 else 0
  | .pendingDropped => s.outcome.answer.lost
  | .resolvesDropped => if s.outcome.answer.resolution?.any (·.isDropped) then 1 else 0
  | .resolutionsFailed => s.failures
  | .evictions => s.evictions
  | .entries => 0

/-- The tally of a step in which no packet was offered. -/
theorem tally_of_unoffered {s : Step α} (h : s.outcome.answer.resolution? = none) :
    s.tally = Pi.single .evictions s.evictions + (Pi.single .resolutionsFailed s.failures +
      Pi.single .pendingDropped s.outcome.answer.lost + handedTally s.outcome.sent) := by
  have hflushed : s.flushed = (deliveries s.outcome.sent).length := by
    unfold flushed
    split
    · next hanswer =>
      rw [hanswer] at h
      cases h
    · rfl
  funext k
  cases k <;> simp [tally, h, hflushed, handedTally]

/-- The tally of a step in which a packet was offered. -/
theorem tally_of_offered {s : Step α} {resolution : Resolution} {evicted : Option Evicted}
    (h : s.outcome.answer = .resolution resolution evicted) (hfailures : s.failures = 0) :
    s.tally = Pi.single .evictions s.evictions + placedTally resolution s.outcome.sent := by
  funext k
  cases resolution <;> cases k <;>
    simp [tally, flushed, h, hfailures, placedTally, handedTally, Answer.resolution?, Answer.lost,
      Resolution.isDropped]

/-- The tally of a step that at most lets packets out. -/
theorem tally_of_lossless {s : Step α} (hanswer : s.outcome.answer.resolution? = none)
    (hlost : s.outcome.answer.lost = 0) (hfailures : s.failures = 0) :
    s.tally = Pi.single .evictions s.evictions + handedTally s.outcome.sent := by
  rw [tally_of_unoffered hanswer, hlost, hfailures, Pi.single_zero, Pi.single_zero, zero_add,
    zero_add]

/-- What a call that may make an entry removes is what it ousts. -/
theorem evictions_eq {s : Step α} {a : Address} {evicted : Option Evicted}
    (hclaiming : s.call.isClaiming = true) (hs : s.before.store.Ordered)
    (hroom : s.before.MakesRoom a evicted s.outcome.cache) :
    s.evictions = if evicted.isSome then 1 else 0 := by
  rw [evictions, if_pos hclaiming]
  exact hroom.countP_gone hs

/-- Any other call makes no room. -/
theorem evictions_eq_zero {s : Step α} (h : s.call.isClaiming = false) : s.evictions = 0 := by
  rw [evictions, h]
  rfl

end Step

namespace Cache

variable {r : Responder} {c : Cache α} {now : Nat} {call : Call α} {o : Outcome α Answer}

/-- A message is accounted for like the evidence that it gives, if it gives any. -/
theorem receive_accounts {host : Host} {bytes : List UInt8}
    {o : Outcome α (Except Message.DecodeError Reaction)} (hs : c.store.WellFormed)
    (h : c.receive now host bytes = .ok o) :
    ∃ a evicted, c.Accounts o.cache
        (Pi.single .evictions (if evicted.isSome then 1 else 0) + handedTally o.sent) ∧
      c.MakesRoom a evicted o.cache := by
  rcases c.receive_cases now host bytes with
    ⟨a, mac, f, _, hreceive⟩ | ⟨_, o', hreceive, hcache, hsent⟩
  · rw [hreceive] at h
    obtain ⟨learned, hobserve, rfl⟩ := Attempt.mapAnswer_eq_ok h
    exact ⟨a, learned.answer, observe_accounts hs hobserve⟩
  · cases h.symm.trans hreceive
    refine ⟨host.ip, none, ?_, .of_store_eq (by rw [hcache])⟩
    rw [hcache, hsent]
    simpa using Accounts.refl c

/-- Every call that goes through accounts for what happened in it. -/
theorem perform_accounts (hc : c.Coherent) (h : c.perform r now call = .ok o) :
    c.Accounts o.cache (Step.tally ⟨r, now, call, c, o⟩) := by
  have hs := hc.wellFormed
  cases call with
  | resolve a packet =>
    obtain ⟨o', hresolve, rfl⟩ := Attempt.mapAnswer_eq_ok h
    obtain ⟨haccounts, hroom⟩ := resolve_accounts hs hresolve
    rw [Step.tally_of_offered rfl rfl, Step.evictions_eq rfl hs.ordered hroom]
    exact haccounts
  | observe a mac =>
    obtain ⟨o', hobserve, rfl⟩ := Attempt.mapAnswer_eq_ok h
    obtain ⟨haccounts, hroom⟩ := observe_accounts hs hobserve
    rw [Step.tally_of_lossless rfl rfl rfl, Step.evictions_eq rfl hs.ordered hroom]
    exact haccounts
  | confirm a =>
    obtain ⟨o', hconfirm, rfl⟩ := Attempt.mapAnswer_eq_ok h
    rw [Step.tally_of_lossless rfl rfl rfl, Step.evictions_eq_zero rfl, Pi.single_zero, zero_add]
    exact confirm_accounts hs hconfirm
  | pin a mac =>
    cases h
    obtain ⟨evicted, haccounts, hroom⟩ := @pin_accounts α c now a mac hs
    rw [Step.tally_of_lossless rfl rfl rfl, Step.evictions_eq rfl hs.ordered hroom]
    exact haccounts
  | tick =>
    obtain ⟨o', htick, rfl⟩ := Attempt.mapAnswer_eq_ok h
    have hfailures : Step.failures ⟨r, now, .tick, c, o'.map .ticked⟩ = o'.answer.failed.length :=
      (length_failed hc htick).symm
    rw [Step.tally_of_unoffered rfl, Step.evictions_eq_zero rfl, hfailures, Pi.single_zero,
      zero_add]
    exact (tick_accounts hc (.refl _) htick).1
  | invalidate a =>
    cases h
    have hsent : ((c.invalidate a).map Answer.invalidated).sent = [] := sent_invalidate
    refine (c.invalidate_accounts hs).congr fun k _ => ?_
    rw [Step.tally_of_unoffered rfl, Step.evictions_eq_zero rfl, hsent]
    simp [Step.failures, Answer.lost, Outcome.map]
  | invalidateAll =>
    cases h
    exact c.invalidateAll_accounts.congr fun k _ => by cases k <;> rfl
  | receive host bytes =>
    obtain ⟨o', hreceive, rfl⟩ := Attempt.mapAnswer_eq_ok h
    obtain ⟨a, evicted, haccounts, hroom⟩ := receive_accounts hs hreceive
    rw [Step.tally_of_lossless rfl rfl rfl, Step.evictions_eq rfl hs.ordered hroom]
    exact haccounts

/-- A cache in which nothing has been counted, nothing waits and no entry may be evicted. -/
structure Blank (c : Cache α) : Prop where
  wellFormed : c.store.WellFormed
  uncounted : ∀ k, k ≠ .entries → c.metrics.get k = 0
  pending_eq : c.pending = 0
  gauged : c.Gauged
  kept : ∀ a e, c.store.find? a = some e → e.isEvictable = false

/-- Installing a permanent binding counts nothing as long as nothing waits. -/
theorem Blank.pin {a : Address} {mac : Mac} (h : c.Blank) : (c.pin now a mac).cache.Blank := by
  have hpinned := c.pin_pinned now a mac
  generalize c.pin now a mac = o at hpinned ⊢
  cases hpinned with
  | refused => exact h
  | @pinned x hclaims =>
    have hs := h.wellFormed
    have haccounts :=
      Accounts.of_release (y := (x.entry.pin mac now).1) hs hclaims rfl rfl mac
    have haddress : (x.entry.pin mac now).1.address = a := hclaims.address_eq
    have housts := hclaims.ousts hs.ordered haddress
    have hnone : x.evicted = none := by
      cases hevicted : x.evicted with
      | none => rfl
      | some ev =>
        obtain ⟨_, _, v, hfind, hevictable, _⟩ := housts.evictable ev hevicted
        cases (h.kept _ v hfind).symm.trans hevictable
    rw [hnone, Option.isSome_none, if_neg nofun, Pi.single_zero, zero_add,
      handedTally_packets] at haccounts
    rw [hnone] at housts ⊢
    generalize hd : Cache.count _ _ _ = d at haccounts ⊢
    change d.Blank
    have hstore : d.store = x.store.put (x.entry.pin mac now).1 := by simp [← hd]
    have hbalanced := haccounts.balanced
    simp only [h.pending_eq, Pi.single_apply, reduceCtorEq, if_false, if_true] at hbalanced
    -- nothing waited in the cache, so the binding lets nothing out
    have hempty : x.entry.waiting.length = 0 := by omega
    refine ⟨?_, fun k hk => ?_, by omega, haccounts.gauged h.gauged, fun b e hfind => ?_⟩
    · rw [hstore]
      exact (hclaims.edits hs haddress rfl).wellFormed hs
    · rw [haccounts.counts k hk, h.uncounted k hk, hempty, Pi.single_zero]
      rfl
    · rw [hstore] at hfind
      by_cases hb : b = a
      · rw [Store.find?_put, if_pos (hb.trans haddress.symm)] at hfind
        cases hfind
        rfl
      · rw [housts.find?_eq b hb] at hfind
        exact h.kept b e hfind

/-- The configured cache is blank. -/
theorem create_blank (cfg : Config) (start : Nat) :
    (create cfg start : Outcome α Unit).cache.Blank :=
  create_induction ⟨(empty_sound cfg).wellFormed, fun k _ => by cases k <;> rfl, rfl, rfl, nofun⟩
    fun _ _ _ h => h.pin

/-- What the counters of a cache say of the steps that led to it. -/
structure Ledger (log : List (Step α)) (c : Cache α) : Prop where
  /-- Each counter is the number of times that its kind happened. -/
  counted : ∀ k, k ≠ .entries → c.metrics.get k = UInt64.ofNat (log.map (·.tally k)).sum
  /-- Every packet that was queued was let out, was dropped or waits. -/
  balanced : c.metrics.packetsQueued =
    c.metrics.packetsFlushed + c.metrics.pendingDropped + UInt64.ofNat c.pending
  gauged : c.metrics.entries = UInt64.ofNat c.size

end Cache

namespace History

variable {first last : Cache α} {log : List (Step α)}

/-- A history accounts for the sum of what happened in its steps. -/
theorem accounts (h : History first log last) (hfirst : first.Coherent) :
    last.Coherent ∧ first.Accounts last fun k => (log.map (·.tally k)).sum := by
  induction h with
  | nil => exact ⟨hfirst, .refl first⟩
  | @snoc log c r now call o _ hperform ih =>
    obtain ⟨hcoherent, haccounts⟩ := ih
    have hfollows := Cache.perform_follows hcoherent r now call
    rw [hperform] at hfollows
    refine ⟨hfollows.coherent hcoherent, ?_⟩
    refine (haccounts.trans (Cache.perform_accounts hcoherent hperform)).congr fun k _ => ?_
    simp

/-- The counters of a cache are an exact ledger of its history, modulo `2^64`. -/
theorem ledger {cfg : Config} {start : Nat}
    (h : History (Cache.create cfg start : Outcome α Unit).cache log last) : last.Ledger log := by
  obtain ⟨_, haccounts⟩ := h.accounts (Cache.create_coherent cfg start).1
  have hblank : (Cache.create cfg start : Outcome α Unit).cache.Blank :=
    Cache.create_blank cfg start
  have hcounted (k : Counter) (hk : k ≠ .entries) :
      last.metrics.get k = UInt64.ofNat (log.map (·.tally k)).sum := by
    rw [haccounts.counts k hk, hblank.uncounted k hk, UInt64.zero_add]
  refine ⟨hcounted, ?_, haccounts.gauged hblank.gauged⟩
  have hbalanced := haccounts.balanced
  rw [hblank.pending_eq, Nat.add_zero] at hbalanced
  change last.metrics.get .packetsQueued =
    last.metrics.get .packetsFlushed + last.metrics.get .pendingDropped + _
  rw [hcounted .packetsQueued nofun, hcounted .packetsFlushed nofun,
    hcounted .pendingDropped nofun, hbalanced, UInt64.ofNat_add, UInt64.ofNat_add]

/-- Calls in which everything that is counted happens. -/
def rivals : List (Nat × Call Nat) :=
  [(1, .resolve ⟨10, 0, 0, 1⟩ 7), (1, .resolve ⟨10, 0, 0, 1⟩ 8), (2, .tick), (4, .tick),
    (5, .resolve ⟨10, 0, 0, 1⟩ 9), (6, .resolve ⟨10, 0, 0, 2⟩ 10),
    (6, .observe ⟨10, 0, 0, 2⟩ ⟨2, 0, 0, 0, 0, 2⟩), (16, .tick), (17, .resolve ⟨10, 0, 0, 2⟩ 11),
    (19, .tick)]

/-- The first address is given up and makes room for the second, which answers and is then checked.
-/
theorem ledger_of_rivals :
    ∃ x ∈ Cache.briefTrace rivals, x.2.Ledger x.1 ∧
      x.2.metrics = ⟨3, 1, 2, 1, 1, 1, 1, 1, 1, 1⟩ := by
  have hrun : ∃ x ∈ Cache.briefTrace rivals, x.2.metrics = ⟨3, 1, 2, 1, 1, 1, 1, 1, 1, 1⟩ := by
    decide +kernel
  obtain ⟨x, hx, hmetrics⟩ := hrun
  exact ⟨x, hx, ledger (Cache.history_of_trace hx).1, hmetrics⟩

end History

end Neighbor
