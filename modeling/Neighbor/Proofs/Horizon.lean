import Neighbor.Proofs.Requests
import Neighbor.Settings.Check

/-!
# Deadlines that the clock holds

An operation stops only where the clock cannot hold the deadline that it sets. A configuration
`Config.Fits` an instant if the clock holds each deadline that an operation at that instant can set,
and then every operation goes through. Checked settings make a configuration that bounds the waits
between probes but not the four timeouts: if these stay below `Clock.half`, no operation in the first
half of the clock stops, and the check alone does not see to that (`Settings.halts_of_isValid`).
-/

namespace Neighbor

variable {α : Type}

/-- The instant in the middle of the clock. -/
def Clock.half : Nat := Clock.limit / 2

/-- The clock holds every deadline that an operation at `now` can set. -/
structure Config.Fits (cfg : Config) (now : Nat) : Prop where
  reachable : now + cfg.reachable.nanos < Clock.limit
  stale : now + cfg.stale.nanos < Clock.limit
  delay : now + cfg.delay.nanos < Clock.limit
  retry : now + cfg.retry.max.nanos < Clock.limit
  failedGrace : now + cfg.failedGrace.nanos < Clock.limit

/-- Every wait between probes fits if the longest one does. -/
theorem Config.Fits.backoff {cfg : Config} {now : Nat} (h : cfg.Fits now) (n : Nat) :
    now + (cfg.retry.delay n).nanos < Clock.limit := by
  have hretry := h.retry
  rw [Backoff.nanos_delay]
  omega

namespace Entry

variable {cfg : Config} {now : Nat} {e : Entry α}

/-- A timer can be set if the clock holds its deadline. -/
theorem arm_of_lt {d : Duration} (h : now + d.nanos < Clock.limit) :
    e.arm now d = .ok { e with deadline := some (now + d.nanos) } := by
  rw [arm_eq, if_pos h]

/-- Time acts on any entry if the clock holds the deadlines. -/
theorem exists_age (h : cfg.Fits now) : ∃ aged, e.age cfg now = .ok aged :=
  exists_age_iff.mpr fun _ => of_mem_renewal? h.backoff h.failedGrace h.stale

end Entry

/-- A sweep visits every address if the clock holds the deadlines. -/
theorem Sweep.exists_visitAll {cfg : Config} {now : Nat} (h : cfg.Fits now) (s : Sweep α)
    (order : List Address) : ∃ t, s.visitAll cfg now order = .ok t := by
  induction order generalizing s with
  | nil => exact ⟨s, rfl⟩
  | cons a rest ih =>
    obtain ⟨s', hvisit⟩ : ∃ s', visit cfg now s a = .ok s' := by
      unfold visit
      split
      · exact ⟨s, rfl⟩
      · next e _ =>
        obtain ⟨aged, hage⟩ := e.exists_age h
        exact ⟨s.note aged, by rw [hage]⟩
    obtain ⟨t, hrest⟩ := ih s'
    refine ⟨t, ?_⟩
    rw [visitAll, List.foldlM_cons, hvisit]
    exact hrest

namespace Attempt

variable {β γ : Type} {x : Attempt α β}

/-- An attempt goes through with another answer if it does with its own. -/
theorem exists_mapAnswer (h : ∃ o, x = .ok o) (f : β → γ) : ∃ o, x.mapAnswer f = .ok o := by
  obtain ⟨o, rfl⟩ := h
  exact ⟨o.map f, rfl⟩

/-- What was handed over before does not stop an attempt. -/
theorem exists_sentAfter (h : ∃ o, x = .ok o) (items : List (Outbound α)) :
    ∃ o, x.sentAfter items = .ok o := by
  obtain ⟨o, rfl⟩ := h
  exact ⟨o.sentAfter items, rfl⟩

/-- What was warned of before does not stop an attempt. -/
theorem exists_warnedAfter (h : ∃ o, x = .ok o) (warnings : List Warning) :
    ∃ o, x.warnedAfter warnings = .ok o := by
  obtain ⟨o, rfl⟩ := h
  exact ⟨o.warnedAfter warnings, rfl⟩

end Attempt

namespace Cache

variable {c : Cache α} {now : Nat}

/-- Evidence leaves the configuration alone, whether it is taken in or stops. -/
theorem config_observe (c : Cache α) (now : Nat) (a : Address) (mac : Mac) :
    (c.observe now a mac).left.config = c.config := by
  have hobserved := c.observe_observed now a mac
  generalize c.observe now a mac = attempt at hobserved ⊢
  cases hobserved with
  | ignored _ hleft => rcases hleft with rfl | rfl <;> rfl
  | learned => simp
  | halted => rfl

/-- Items are handed over if the clock holds the deadline of a binding, whoever answers. -/
theorem exists_handOver (hclock : now + c.config.reachable.nanos < Clock.limit) (r : Responder)
    (items : List (Outbound α)) : ∃ o, handOver r now c items = .ok o := by
  induction items generalizing c with
  | nil => exact ⟨_, rfl⟩
  | cons item rest ih =>
    have hcounted : now + (c.countItem item).config.reachable.nanos < Clock.limit := by
      rwa [config_countItem]
    unfold handOver
    split
    · exact Attempt.exists_sentAfter (ih hcounted) _
    · next target mac _ =>
      obtain ⟨learned, hobserve⟩ : ∃ o, (c.countItem item).observe now target mac = .ok o :=
        exists_observe hcounted
      rw [hobserve]
      refine Attempt.exists_sentAfter (ih ?_) _
      have hkept := (c.countItem item).config_observe now target mac
      rw [hobserve, Attempt.left_ok] at hkept
      rwa [hkept]

/-- A hint goes through if the clock holds the new deadline. -/
theorem exists_confirm (hclock : now + c.config.reachable.nanos < Clock.limit) (a : Address) :
    ∃ o, c.confirm now a = .ok o := by
  have hhinted := c.confirm_hinted now a
  generalize c.confirm now a = attempt at hhinted ⊢
  cases hhinted with
  | ignored => exact ⟨_, rfl⟩
  | counted => exact ⟨_, rfl⟩
  | halted _ _ _ hlimit => exact absurd hclock (Nat.not_lt.mpr hlimit)

/-- A tick goes through if the clock holds every deadline that it can set. -/
theorem exists_tick (h : c.config.Fits now) (r : Responder) : ∃ o, c.tick r now = .ok o := by
  obtain ⟨t, hvisit⟩ := Sweep.exists_visitAll h { store := c.store } c.store.addresses
  unfold tick tickInOrder
  rw [hvisit]
  dsimp only
  refine Attempt.exists_warnedAfter (Attempt.exists_mapAnswer (exists_handOver ?_ r _) _) _
  exact h.reachable

/-- A packet is taken or refused if the clock holds the deadlines. -/
theorem exists_resolve (h : c.config.Fits now) (r : Responder) (a : Address) (packet : α) :
    ∃ o, c.resolve r now a packet = .ok o := by
  unfold resolve
  split
  · exact ⟨_, rfl⟩
  · dsimp only
    split
    · exact ⟨_, rfl⟩
    · next x _ =>
      have hstart : ∃ y, startIfNew c.config now x = .ok y := by
        unfold startIfNew Entry.start
        split
        · rw [Entry.arm_of_lt (h.backoff 1)]
          exact ⟨_, rfl⟩
        · exact ⟨_, rfl⟩
      obtain ⟨⟨started, probes⟩, hstarted⟩ := hstart
      have hused := started.markUsed_eq c.config now
      rw [if_neg fun hlate => Nat.not_le.mpr h.delay hlate.2] at hused
      simp only [hstarted, hused]
      refine Attempt.exists_mapAnswer (exists_handOver ?_ r _) _
      split <;> simpa using h.reachable

/-- A message goes through if the clock holds the deadline of what is learned from it. -/
theorem exists_receive (hclock : now + c.config.reachable.nanos < Clock.limit) (host : Host)
    (bytes : List UInt8) : ∃ o, c.receive now host bytes = .ok o := by
  rcases c.receive_cases now host bytes with ⟨a, mac, f, _, hreceive⟩ | ⟨_, o, hreceive, _⟩
  · rw [hreceive]
    exact Attempt.exists_mapAnswer (exists_observe hclock) f
  · exact ⟨o, hreceive⟩

/-- Every call goes through if the clock holds the deadlines. -/
theorem exists_perform (h : c.config.Fits now) (r : Responder) (call : Call α) :
    ∃ o, c.perform r now call = .ok o := by
  cases call with
  | resolve a packet => exact Attempt.exists_mapAnswer (exists_resolve h r a packet) _
  | observe a mac => exact Attempt.exists_mapAnswer (exists_observe h.reachable) _
  | confirm a => exact Attempt.exists_mapAnswer (exists_confirm h.reachable a) _
  | tick => exact Attempt.exists_mapAnswer (exists_tick h r) _
  | receive host bytes => exact Attempt.exists_mapAnswer (exists_receive h.reachable host bytes) _
  | pin | invalidate | invalidateAll => exact ⟨_, rfl⟩

end Cache

/-- Checked bindings can be read. -/
theorem BindingSettings.exists_resolve {seen : List Address} {bindings : List BindingSettings}
    (h : allProblems seen bindings = []) : ∃ permanent, bindings.mapM resolve = .ok permanent := by
  induction bindings generalizing seen with
  | nil => exact ⟨[], rfl⟩
  | cons b rest ih =>
    obtain ⟨hfirst, hrest⟩ := List.append_eq_nil_iff.mp h
    obtain ⟨permanent, hpermanent⟩ := ih hrest
    cases hread : b.resolve with
    | error e => simp [problems, hread] at hfirst
    | ok binding =>
      refine ⟨binding :: permanent, ?_⟩
      rw [List.mapM_cons, hread, hpermanent]
      rfl

namespace Settings

variable {s : Settings}

/-- Checked settings make a configuration. -/
theorem exists_resolve (h : s.isValid = true) : ∃ cfg, s.resolve = .ok cfg := by
  unfold isValid problems at h
  simp only [List.isEmpty_iff, List.append_eq_nil_iff] at h
  obtain ⟨permanent, hpermanent⟩ := BindingSettings.exists_resolve h.2
  exact ⟨_, by rw [resolve, hpermanent]; rfl⟩

/-- Settings write the longest wait between probes in milliseconds, too few to reach the middle of
the clock. -/
theorem retry_lt_half {cfg : Config} (h : s.resolve = .ok cfg) :
    cfg.retry.max.nanos < Clock.half := by
  have hmillis (ms : UInt64) : (Duration.ofMillis ms).nanos < Clock.half := by
    have hsize := ms.toNat_lt
    change ms.toNat * nanosPerMilli < Clock.half
    unfold Clock.half Clock.limit nanosPerMilli nanosPerSec UInt64.size
    omega
  unfold resolve at h
  cases hbindings : s.bindings.mapM BindingSettings.resolve with
  | error e =>
    rw [hbindings] at h
    cases h
  | ok permanent =>
    rw [hbindings] at h
    cases h
    cases s.cache.maxRetryMillis with
    | none => exact hmillis 8000
    | some ms => exact hmillis ms

/-- Checked settings make a configuration. If its four timeouts end in the first half of the clock,
no call in that half stops, whatever requests came before it. -/
theorem goes_through_of_isValid (h : s.isValid = true) :
    ∃ cfg, s.resolve = .ok cfg ∧
      (cfg.reachable.nanos < Clock.half → cfg.stale.nanos < Clock.half →
        cfg.delay.nanos < Clock.half → cfg.failedGrace.nanos < Clock.half →
        ∀ (start : Nat) (qs : List (Request α)) (q : Request α), q.now ≤ Clock.half →
          ∃ o, ((Cache.create cfg start : Outcome α Unit).cache.serveAll qs).serve q = .ok o) := by
  obtain ⟨cfg, hresolve⟩ := exists_resolve h
  refine ⟨cfg, hresolve, fun hreachable hstale hdelay hgrace start qs q hnow => ?_⟩
  have hretry := retry_lt_half hresolve
  have hfits : cfg.Fits q.now := by
    have htwice : Clock.half + Clock.half = Clock.limit := rfl
    constructor <;> omega
  obtain ⟨hcreate, hcfg, _⟩ := Cache.create_coherent (α := α) cfg start
  obtain ⟨_, hconfig⟩ := hcreate.serveAll qs
  refine Cache.exists_perform ?_ q.responder q.call
  rw [hconfig, hcfg]
  exact hfits

/-- A packet has been sent, its address confirmed and aged by a tick. With the longest timeout that
ends in the first half of the clock, the address can still be confirmed in the middle of it. -/
theorem goes_through_of_long_timeout :
    let s : Settings :=
      { cache :=
          { reachableSecs := some 4611686018427387903
            delaySecs := some 3
            failedGraceSecs := some 15
            staleSecs := some 600 } }
    let a : Address := ⟨10, 0, 0, 5⟩
    let earlier : List (Request Nat) :=
      [⟨.silent, 1 * nanosPerSec, .resolve a 7⟩,
        ⟨.silent, 2 * nanosPerSec, .observe a ⟨2, 0, 0, 0, 0, 17⟩⟩,
        ⟨.silent, 30 * nanosPerSec, .tick⟩]
    ∃ cfg, s.resolve = .ok cfg ∧
      ∃ o, ((Cache.create cfg 0 : Outcome Nat Unit).cache.serveAll earlier).serve
        ⟨.silent, Clock.half, .observe a ⟨2, 0, 0, 0, 0, 17⟩⟩ = .ok o := by
  intro s a earlier
  obtain ⟨cfg, hresolve, hgoes⟩ := goes_through_of_isValid (s := s) (α := Nat) (by decide)
  refine ⟨cfg, hresolve, hgoes ?_ ?_ ?_ ?_ 0 earlier _ (Nat.le_refl _)⟩
  all_goals
    cases hresolve
    decide

/-- The check lets a timeout through that the clock cannot hold one second after its origin: the
first evidence then stops the call. -/
theorem halts_of_isValid :
    let s : Settings := { cache := { reachableSecs := some 9223372036854775807 } }
    let q : Request Nat := ⟨.silent, nanosPerSec, .observe ⟨10, 0, 0, 5⟩ ⟨2, 0, 0, 0, 0, 17⟩⟩
    s.isValid = true ∧ q.now ≤ Clock.half ∧ ∃ cfg ∈ s.resolve.toOption,
      ((Cache.create cfg 0 : Outcome Nat Unit).cache.serve q).isOk = false := by
  decide +kernel

end Settings

end Neighbor
