import Mathlib.Algebra.Group.Nat.Defs
import Neighbor.Settings.Check

/-!
# Which settings can be used

The check looks at some members as they are written, at others after what is left out has been
filled in, and at the permanent bindings one by one. What it lets through can be said of the
configuration alone: a configuration is `Config.Usable` if its values are in range, go together, and
its permanent bindings can be installed. Settings are valid exactly if they make such a
configuration (`Settings.isValid_iff_usable`).
-/

namespace Neighbor

/-- Each value of a configuration that settings bound is within its bounds. -/
structure Config.InRange (c : Config) : Prop where
  capacity_pos : 1 ≤ c.capacity
  capacity_le : c.capacity ≤ 2 ^ 20
  queueCapacity_le : c.queueCapacity ≤ 1024
  maxRetries_pos : 1 ≤ c.maxRetries
  multiplier_pos : 1 ≤ c.retry.multiplier.toNat
  initial_pos : 0 < c.retry.initial.nanos
  tick_pos : 0 < c.tick.nanos

/-- The waits between probes grow from the first one to the longest one, and there is room for the
permanent bindings. -/
structure Config.Consistent (c : Config) : Prop where
  initial_le_max : c.retry.initial.nanos ≤ c.retry.max.nanos
  permanent_le_capacity : c.permanent.length ≤ c.capacity

/-- Bindings that can all be installed: no address has two of them, and each binds an address of one
host to a link address of one station. -/
structure Installable (bindings : List (Address × Mac)) : Prop where
  distinct : (bindings.map Prod.fst).Nodup
  address_ne_unspecified : ∀ b ∈ bindings, b.1 ≠ ⟨0, 0, 0, 0⟩
  address_ne_broadcast : ∀ b ∈ bindings, b.1 ≠ ⟨255, 255, 255, 255⟩
  isUnicast : ∀ b ∈ bindings, b.2.isUnicast = true

/-- A configuration that a cache can work with. -/
structure Config.Usable (c : Config) : Prop extends c.InRange, c.Consistent where
  permanent : Installable c.permanent

/-- No binding can always be installed. -/
theorem installable_nil : Installable [] := by
  constructor <;> simp

/-- One more binding can be installed if it is a good one for an address that has none yet. -/
theorem installable_cons {a : Address} {mac : Mac} {bindings : List (Address × Mac)} :
    Installable ((a, mac) :: bindings) ↔
      a.isUsable = true ∧ mac.isUnicast = true ∧ (∀ b ∈ bindings, b.1 ≠ a) ∧
        Installable bindings := by
  have husable : a.isUsable = true ↔ a ≠ ⟨0, 0, 0, 0⟩ ∧ a ≠ ⟨255, 255, 255, 255⟩ := by
    simp [Address.isUsable, Address.unspecified, Address.broadcast]
  have hnodup : (((a, mac) :: bindings).map Prod.fst).Nodup ↔
      (∀ b ∈ bindings, b.1 ≠ a) ∧ (bindings.map Prod.fst).Nodup := by
    rw [List.map_cons, List.nodup_cons, List.mem_map, not_exists]
    simp only [not_and]
  rw [husable]
  constructor
  · rintro ⟨hdistinct, hunspecified, hbroadcast, hunicast⟩
    obtain ⟨hnew, hrest⟩ := hnodup.1 hdistinct
    rw [List.forall_mem_cons] at hunspecified hbroadcast hunicast
    exact ⟨⟨hunspecified.1, hbroadcast.1⟩, hunicast.1, hnew,
      hrest, hunspecified.2, hbroadcast.2, hunicast.2⟩
  · rintro ⟨⟨hunspecified, hbroadcast⟩, hunicast, hnew, hrest⟩
    exact ⟨hnodup.2 ⟨hnew, hrest.distinct⟩,
      List.forall_mem_cons.2 ⟨hunspecified, hrest.address_ne_unspecified⟩,
      List.forall_mem_cons.2 ⟨hbroadcast, hrest.address_ne_broadcast⟩,
      List.forall_mem_cons.2 ⟨hunicast, hrest.isUnicast⟩⟩

namespace BindingSettings

/-- A binding keeps its address when its link address is read. -/
theorem address_of_resolve {b : BindingSettings} {a : Address} {mac : Mac}
    (h : b.resolve = .ok (a, mac)) : a = b.address := by
  unfold resolve at h
  split at h
  · cases h
    rfl
  · cases h

/-- A binding is without problems if it can be read, is a good one, and its address is new. -/
theorem problems_eq_nil_iff (seen : List Address) (b : BindingSettings) :
    b.problems seen = [] ↔
      ∃ mac, b.resolve = .ok (b.address, mac) ∧
        b.address.isUsable = true ∧ mac.isUnicast = true ∧ b.address ∉ seen := by
  cases hread : b.resolve with
  | error e => simp [problems, hread]
  | ok binding =>
    obtain ⟨a, mac⟩ := binding
    obtain rfl := address_of_resolve hread
    simp only [problems, hread, List.append_eq_nil_iff, ite_eq_left_iff, ite_eq_right_iff,
      List.cons_ne_nil, imp_false, Decidable.not_not, Except.ok.injEq, Prod.mk.injEq, true_and,
      exists_eq_left']
    exact ⟨fun ⟨⟨hnew, husable⟩, hunicast⟩ => ⟨husable, hunicast, hnew⟩,
      fun ⟨husable, hunicast, hnew⟩ => ⟨⟨hnew, husable⟩, hunicast⟩⟩

/-- Bindings are without problems if all can be read and installed, behind others for the addresses
`seen`. -/
theorem allProblems_eq_nil_iff (seen : List Address) (bindings : List BindingSettings) :
    allProblems seen bindings = [] ↔
      ∃ permanent, bindings.mapM resolve = .ok permanent ∧ Installable permanent ∧
        ∀ b ∈ permanent, b.1 ∉ seen := by
  induction bindings generalizing seen with
  | nil =>
    refine ⟨fun _ => ⟨[], rfl, installable_nil, by simp⟩, fun _ => rfl⟩
  | cons b rest ih =>
    rw [allProblems, List.append_eq_nil_iff, problems_eq_nil_iff, ih, List.mapM_cons]
    constructor
    · rintro ⟨⟨mac, hread, husable, hunicast, hnew⟩, permanent, hrest, hinstall, hseen⟩
      refine ⟨(b.address, mac) :: permanent, by rw [hread, hrest]; rfl, ?_, ?_⟩
      · exact installable_cons.2
          ⟨husable, hunicast, fun x hx hsame => hseen x hx (by simp [hsame]), hinstall⟩
      · exact List.forall_mem_cons.2
          ⟨hnew, fun x hx hold => hseen x hx (List.mem_cons_of_mem _ hold)⟩
    · rintro ⟨all, hall, hinstall, hseen⟩
      cases hread : b.resolve with
      | error e => rw [hread] at hall; cases hall
      | ok binding =>
        cases hrest : rest.mapM resolve with
        | error e => rw [hread, hrest] at hall; cases hall
        | ok permanent =>
          rw [hread, hrest] at hall
          cases hall
          obtain ⟨a, mac⟩ := binding
          obtain rfl := address_of_resolve hread
          obtain ⟨husable, hunicast, hnew, hinstall⟩ := installable_cons.1 hinstall
          obtain ⟨hfirst, hlater⟩ := List.forall_mem_cons.1 hseen
          refine ⟨⟨mac, rfl, husable, hunicast, hfirst⟩, permanent, rfl, hinstall, fun x hx => ?_⟩
          rw [List.mem_cons, not_or]
          exact ⟨hnew x hx, hlater x hx⟩

end BindingSettings

/-- The values of a configuration go together if the check finds no problem between them. -/
theorem Config.consistent_iff (c : Config) : c.Consistent ↔ c.problems = [] := by
  simp only [problems, List.append_eq_nil_iff, ite_eq_right_iff, List.cons_ne_nil, imp_false,
    Duration.lt_def, Nat.not_lt]
  exact ⟨fun ⟨hretry, hroom⟩ => ⟨hretry, hroom⟩, fun ⟨hretry, hroom⟩ => ⟨hretry, hroom⟩⟩

/-- A member of the cache section that is a number is not zero if what is written is at least
one. -/
private theorem ne_some_zero_iff {β : Type} {zero : β} {toNat : β → Nat}
    (hzero : ∀ n, toNat n = 0 ↔ n = zero) (member : Option β) :
    member ≠ some zero ↔ ∀ n ∈ member, 1 ≤ toNat n := by
  cases member with
  | none => simp
  | some n =>
    have hn := hzero n
    simp only [ne_eq, Option.some.injEq, Option.mem_def, forall_eq', ← hn]
    omega

/-- The cache section is without problems if each member that is written is within its bounds. -/
theorem CacheSettings.problems_eq_nil_iff (c : CacheSettings) :
    c.problems = [] ↔
      ((∀ n ∈ c.capacity, 1 ≤ n.toNat) ∧ ∀ n ∈ c.capacity, n.toNat ≤ 2 ^ 20) ∧
      (∀ n ∈ c.queueCapacity, n.toNat ≤ 1024) ∧ (∀ n ∈ c.maxRetries, 1 ≤ n.toNat) ∧
      (∀ n ∈ c.multiplier, 1 ≤ n.toNat) ∧ (∀ n ∈ c.retryMillis, 1 ≤ n.toNat) ∧
      ∀ n ∈ c.tickMillis, 1 ≤ n.toNat := by
  have hcapacity : Config.maxCapacity = 2 ^ 20 := rfl
  have hqueue : Config.maxQueueCapacity = 1024 := rfl
  have hword64 (n : UInt64) : n.toNat = 0 ↔ n = 0 := UInt64.toNat_inj (b := 0)
  have hword32 (n : UInt32) : n.toNat = 0 ↔ n = 0 := UInt32.toNat_inj (b := 0)
  rw [← hcapacity, ← hqueue]
  unfold problems
  simp only [List.append_eq_nil_iff]
  rw [ite_eq_right_iff, ite_eq_right_iff, ite_eq_right_iff, ite_eq_right_iff]
  simp only [List.cons_ne_nil, imp_false, not_or, ne_some_zero_iff hword64,
    ne_some_zero_iff hword32, and_assoc]
  cases c.capacity <;> cases c.queueCapacity <;> simp

namespace Settings

/-- The configuration that settings make together with permanent bindings. -/
def filled (s : Settings) (permanent : List (Address × Mac)) : Config :=
  let c := s.cache
  let std := Config.standard
  { capacity := (c.capacity.map UInt64.toNat).getD std.capacity
    queueCapacity := (c.queueCapacity.map UInt64.toNat).getD std.queueCapacity
    reachable := (c.reachableSecs.map Duration.ofSecs).getD std.reachable
    delay := (c.delaySecs.map Duration.ofSecs).getD std.delay
    maxRetries := (c.maxRetries.map UInt32.toNat).getD std.maxRetries
    retry :=
      { initial := (c.retryMillis.map Duration.ofMillis).getD std.retry.initial
        multiplier := c.multiplier.getD std.retry.multiplier
        max := (c.maxRetryMillis.map Duration.ofMillis).getD std.retry.max }
    failedGrace := (c.failedGraceSecs.map Duration.ofSecs).getD std.failedGrace
    stale := (c.staleSecs.map Duration.ofSecs).getD std.stale
    tick := (c.tickMillis.map Duration.ofMillis).getD std.tick
    tieBreak := c.tieBreak.getD std.tieBreak
    permanent }

/-- Only the permanent bindings can keep settings from making a configuration. -/
theorem resolve_eq (s : Settings) :
    s.resolve = (s.bindings.mapM BindingSettings.resolve).map s.filled := rfl

/-- A bound that the standard value keeps holds of a value if it holds of what is written. -/
private theorem bound_getD {β γ : Type} {f : β → γ} {standard : γ} (p : γ → Prop)
    (hstandard : p standard) (member : Option β) :
    p ((member.map f).getD standard) ↔ ∀ n ∈ member, p (f n) := by
  cases member with
  | none => simpa using hstandard
  | some n => simp

/-- What is left out has a value within its bounds, so the values of a configuration are in range
if what is written is. -/
theorem filled_inRange_iff (s : Settings) (permanent : List (Address × Mac)) :
    (s.filled permanent).InRange ↔ s.cache.problems = [] := by
  have hmillis (ms : UInt64) : 0 < (Duration.ofMillis ms).nanos ↔ 1 ≤ ms.toNat := by
    simp only [Duration.ofMillis, nanosPerMilli]
    omega
  have hcapacity_pos : 1 ≤ (s.filled permanent).capacity ↔
      ∀ n ∈ s.cache.capacity, 1 ≤ n.toNat := bound_getD (1 ≤ ·) (by decide) _
  have hcapacity_le : (s.filled permanent).capacity ≤ 2 ^ 20 ↔
      ∀ n ∈ s.cache.capacity, n.toNat ≤ 2 ^ 20 := bound_getD (· ≤ 2 ^ 20) (by decide) _
  have hqueue : (s.filled permanent).queueCapacity ≤ 1024 ↔
      ∀ n ∈ s.cache.queueCapacity, n.toNat ≤ 1024 := bound_getD (· ≤ 1024) (by decide) _
  have hretries : 1 ≤ (s.filled permanent).maxRetries ↔
      ∀ n ∈ s.cache.maxRetries, 1 ≤ n.toNat := bound_getD (1 ≤ ·) (by decide) _
  have hmultiplier : 1 ≤ (s.filled permanent).retry.multiplier.toNat ↔
      ∀ n ∈ s.cache.multiplier, 1 ≤ n.toNat := by
    have hstandard : 1 ≤ Config.standard.retry.multiplier.toNat := by decide
    have hbound := bound_getD (f := id) (1 ≤ UInt32.toNat ·) hstandard s.cache.multiplier
    rwa [Option.map_id] at hbound
  have hinitial : 0 < (s.filled permanent).retry.initial.nanos ↔
      ∀ n ∈ s.cache.retryMillis, 0 < (Duration.ofMillis n).nanos :=
    bound_getD (0 < Duration.nanos ·) (by decide) _
  have htick : 0 < (s.filled permanent).tick.nanos ↔
      ∀ n ∈ s.cache.tickMillis, 0 < (Duration.ofMillis n).nanos :=
    bound_getD (0 < Duration.nanos ·) (by decide) _
  simp only [hmillis] at hinitial htick
  rw [CacheSettings.problems_eq_nil_iff, ← hcapacity_pos, ← hcapacity_le, ← hqueue, ← hretries,
    ← hmultiplier, ← hinitial, ← htick]
  constructor
  · rintro ⟨hpos, hle, hqueue, hretries, hmultiplier, hinitial, htick⟩
    exact ⟨⟨hpos, hle⟩, hqueue, hretries, hmultiplier, hinitial, htick⟩
  · rintro ⟨⟨hpos, hle⟩, hqueue, hretries, hmultiplier, hinitial, htick⟩
    exact ⟨hpos, hle, hqueue, hretries, hmultiplier, hinitial, htick⟩

/-- Settings are valid exactly if they make a configuration that can be used. -/
theorem isValid_iff_usable (s : Settings) :
    s.isValid = true ↔ ∃ c, s.resolve = .ok c ∧ c.Usable := by
  rw [isValid, List.isEmpty_iff, problems, List.append_eq_nil_iff, List.append_eq_nil_iff,
    BindingSettings.allProblems_eq_nil_iff]
  constructor
  · rintro ⟨⟨hcache, hrelations⟩, permanent, hread, hinstall, -⟩
    have hresolve : s.resolve = .ok (s.filled permanent) := by
      rw [resolve_eq, hread]
      rfl
    rw [hresolve] at hrelations
    exact ⟨_, hresolve,
      { toInRange := (s.filled_inRange_iff permanent).2 hcache
        toConsistent := (Config.consistent_iff _).2 hrelations
        permanent := hinstall }⟩
  · rintro ⟨c, hresolve, hrange, hconsistent, hinstall⟩
    rw [hresolve]
    rw [resolve_eq] at hresolve
    cases hread : s.bindings.mapM BindingSettings.resolve with
    | error e => rw [hread] at hresolve; cases hresolve
    | ok permanent =>
      rw [hread] at hresolve
      cases hresolve
      exact ⟨⟨(s.filled_inRange_iff permanent).1 hrange, (Config.consistent_iff _).1 hconsistent⟩,
        permanent, rfl, hinstall, by simp⟩

end Settings

end Neighbor
