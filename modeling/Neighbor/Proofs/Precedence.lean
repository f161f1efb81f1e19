import Neighbor.Proofs.Reach

/-!
# Two observations of one address

Two stations may report one address at almost the same time, and the later report may be taken in
first. The newer report should win in either order, unless the address was confirmed later still:
only reports older than the last confirmation are out of date. `Cache.Reached.observations_commute`
says what is left in each order, and that the order does not matter unless the address is without a
link address and counts as confirmed after both reports. There the report that is taken in first
wins although it is the older one: an address without a link address accepts any report, but what
counts as its last confirmation is not set back to that of the report, and it counts as confirmed
when its resolution began even if it never was (`Cache.Reached.observations_disagree`).
-/

namespace Neighbor

variable {α : Type}

namespace Entry

variable {cfg : Config} {e : Entry α} {m₁ m₂ : Mac} {t₁ t₂ : Nat}

/-- What can be told of an entry at an address: its link address, its state and its deadline. -/
def standing (e : Entry α) : Option Mac × State × Option Nat := (e.mac?, e.state, e.deadline)

/-- The standing of an entry that was bound to `mac` by evidence stamped `now`. -/
def boundStanding (cfg : Config) (mac : Mac) (now : Nat) : Option Mac × State × Option Nat :=
  (some mac, .reachable, some (now + cfg.reachable.nanos))

/-- An entry after evidence for a usable binding. -/
def hearing (cfg : Config) (mac : Mac) (now : Nat) (e : Entry α) : Entry α :=
  if e.accepts now then e.bound cfg mac now else e

/-- The newer evidence taken in last wins unless the entry was confirmed later still. -/
theorem standing_newer_last (hkind : e.kind = .dynamic) (ht : t₁ < t₂) :
    ((e.hearing cfg m₁ t₁).hearing cfg m₂ t₂).standing =
      if e.confirmedAt ≤ t₂ then boundStanding cfg m₂ t₂
      else if e.mac? = none then boundStanding cfg m₁ t₁ else e.standing := by
  by_cases hfirst : e.accepts t₁ = true
  · have hsecond : (e.bound cfg m₁ t₁).accepts t₂ = true ↔ e.confirmedAt ≤ t₂ := by
      rw [accepts_iff]
      change e.kind = .dynamic ∧ (some m₁ = none ∨ max e.confirmedAt t₁ ≤ t₂) ↔ _
      simp only [hkind, reduceCtorEq, false_or, true_and]
      omega
    rw [hearing, hearing, if_pos hfirst]
    by_cases hnewer : e.confirmedAt ≤ t₂
    · rw [if_pos (hsecond.mpr hnewer), if_pos hnewer]
      rfl
    · -- evidence older than the last confirmation is accepted without a link address only
      have hnone : e.mac? = none := by
        rcases (accepts_iff.mp hfirst).2 with hnone | hconfirmed
        · exact hnone
        · omega
      rw [if_neg (mt hsecond.mp hnewer), if_neg hnewer, if_pos hnone]
      rfl
  · have hsome : e.mac? ≠ none := fun hnone => hfirst (accepts_iff.mpr ⟨hkind, .inl hnone⟩)
    have hsecond : e.accepts t₂ = true ↔ e.confirmedAt ≤ t₂ := by
      rw [accepts_iff]
      simp [hkind, hsome]
    rw [hearing, hearing, if_neg hfirst]
    by_cases hnewer : e.confirmedAt ≤ t₂
    · rw [if_pos (hsecond.mpr hnewer), if_pos hnewer]
      rfl
    · rw [if_neg (mt hsecond.mp hnewer), if_neg hnewer, if_neg hsome]

/-- The newer evidence taken in first wins if the entry accepts it. -/
theorem standing_newer_first (hkind : e.kind = .dynamic) (ht : t₁ < t₂) :
    ((e.hearing cfg m₂ t₂).hearing cfg m₁ t₁).standing =
      if e.mac? = none ∨ e.confirmedAt ≤ t₂ then boundStanding cfg m₂ t₂ else e.standing := by
  have haccepts : e.accepts t₂ = true ↔ e.mac? = none ∨ e.confirmedAt ≤ t₂ := by
    rw [accepts_iff]
    simp [hkind]
  by_cases hfirst : e.accepts t₂ = true
  · have hsecond : ¬(e.bound cfg m₂ t₂).accepts t₁ = true := by
      rw [accepts_iff]
      change ¬(e.kind = .dynamic ∧ (some m₂ = none ∨ max e.confirmedAt t₂ ≤ t₁))
      simp only [reduceCtorEq, false_or, not_and]
      omega
    rw [hearing, hearing, if_pos hfirst, if_neg hsecond, if_pos (haccepts.mp hfirst)]
    rfl
  · have hsecond : ¬e.accepts t₁ = true := by
      rw [accepts_iff]
      rw [haccepts] at hfirst
      rintro ⟨_, hnone | hconfirmed⟩
      · exact hfirst (.inl hnone)
      · exact hfirst (.inr (by omega))
    rw [hearing, hearing, if_neg hfirst, if_neg hsecond, if_neg (mt haccepts.mpr hfirst)]

end Entry

namespace Cache

variable {c : Cache α} {r : Responder} {now : Nat} {a : Address} {mac m₁ m₂ : Mac} {t₁ t₂ : Nat}

/-- The standing of an address, if it has an entry. -/
def standing (c : Cache α) (a : Address) : Option (Option Mac × State × Option Nat) :=
  (c.store.find? a).map (·.standing)

/-- Whether `a` is without a link address but was confirmed after `now`. -/
def Outdates (c : Cache α) (a : Address) (now : Nat) : Prop :=
  ∃ e ∈ c.store.find? a, e.mac? = none ∧ now < e.confirmedAt

instance (c : Cache α) (a : Address) (now : Nat) : Decidable (c.Outdates a now) :=
  inferInstanceAs (Decidable (∃ e ∈ c.store.find? a, e.mac? = none ∧ now < e.confirmedAt))

/-- Evidence for a usable binding is heard by the entry of its address. -/
theorem find?_of_observe {o : Outcome α (Option Evicted)} (hc : c.Coherent)
    (husable : isUsableBinding a mac = true) (hadmits : c.store.admits a = true)
    (h : c.observe now a mac = .ok o) :
    o.cache.Coherent ∧ o.cache.config = c.config ∧
      o.cache.store.find? a = some ((c.store.entryFor a now).hearing c.config mac now) := by
  have hfollows := (Follows.refl hc (.observe a mac)).observe hc.wellFormed now a mac
  rw [h] at hfollows
  refine ⟨hfollows.coherent hc, hfollows.config_eq, ?_⟩
  have hlearned := (observe_learns hc.wellFormed h).1
  generalize o.cache.store.find? a = after at hlearned ⊢
  generalize o.sent = sent at hlearned
  cases hlearned with
  | learned hlearns =>
    simp only [learns, husable, hadmits, Bool.true_and] at hlearns
    rw [Entry.hearing, if_pos hlearns]
  | ignored hlearns =>
    simp only [learns, husable, hadmits, Bool.true_and] at hlearns
    cases hfind : c.store.find? a with
    | some e =>
      rw [Store.entryFor_of_some hfind] at hlearns ⊢
      simp [Entry.hearing, hlearns]
    | none =>
      -- a new entry accepts anything
      rw [Store.entryFor_of_none hfind] at hlearns
      cases hlearns

/-- A run of two observations is one after the other. -/
theorem run_observations {x : Cache α × List (Outcome α Answer)}
    (h : c.run r [(t₁, .observe a m₁), (t₂, .observe a m₂)] = .ok x) :
    ∃ o o', c.observe t₁ a m₁ = .ok o ∧ o.cache.observe t₂ a m₂ = .ok o' ∧ x.1 = o'.cache := by
  simp only [run, perform] at h
  cases hfirst : c.observe t₁ a m₁ with
  | error halted =>
    rw [hfirst] at h
    cases h
  | ok o =>
    rw [hfirst] at h
    cases hsecond : o.cache.observe t₂ a m₂ with
    | error halted =>
      simp only [Attempt.mapAnswer, Outcome.map, hsecond] at h
      cases h
    | ok o' =>
      simp only [Attempt.mapAnswer, Outcome.map, hsecond] at h
      cases h
      exact ⟨o, o', rfl, hsecond, rfl⟩

/-- While the clock holds both deadlines, a run of two observations goes through. -/
theorem exists_run_observations (hc : c.Coherent)
    (h₁ : t₁ + c.config.reachable.nanos < Clock.limit)
    (h₂ : t₂ + c.config.reachable.nanos < Clock.limit) :
    ∃ x, c.run r [(t₁, .observe a m₁), (t₂, .observe a m₂)] = .ok x := by
  obtain ⟨o, hobserve⟩ : ∃ o, c.observe t₁ a m₁ = .ok o := c.exists_observe h₁
  have hconfig : o.cache.config = c.config := (observe_learns hc.wellFormed hobserve).2.config_eq
  rw [← hconfig] at h₂
  obtain ⟨o', hobserve'⟩ : ∃ o', o.cache.observe t₂ a m₂ = .ok o' := o.cache.exists_observe h₂
  refine ⟨(o'.cache, [o.map .observed, o'.map .observed]), ?_⟩
  simp [run, perform, hobserve, Attempt.mapAnswer, Outcome.map, hobserve', Except.map]

/-- A run of two observations has the entry of the address hear both. -/
theorem standing_of_run {x : Cache α × List (Outcome α Answer)} (hc : c.Coherent)
    (h₁ : isUsableBinding a m₁ = true) (h₂ : isUsableBinding a m₂ = true)
    (hadmits : c.store.admits a = true)
    (h : c.run r [(t₁, .observe a m₁), (t₂, .observe a m₂)] = .ok x) :
    x.1.standing a =
      some (((c.store.entryFor a t₁).hearing c.config m₁ t₁).hearing c.config m₂ t₂).standing := by
  obtain ⟨o, o', hfirst, hsecond, hlast⟩ := run_observations h
  obtain ⟨hcoherent, hconfig, hfind⟩ := find?_of_observe hc h₁ hadmits hfirst
  have hadmits' : o.cache.store.admits a = true := by simp [Store.admits, hfind]
  obtain ⟨_, _, hfind'⟩ := find?_of_observe hcoherent h₂ hadmits' hsecond
  rw [hlast, standing, hfind', Store.entryFor_of_some hfind, hconfig]
  rfl

/-- Two observations of one address leave it with the standing of the newer one in either order, or
with the one it had if it has a link address that was confirmed later still. The exception is an
address without a link address that was confirmed, or for which resolution began, after both: it is
bound by the observation that is taken in first. -/
theorem Reached.observations_commute {cfg : Config} {start : Nat} {calls : List (Call α)}
    (hreached : c.Reached cfg start calls) (ha : a.isUsable = true) (h₁ : m₁.isUnicast = true)
    (h₂ : m₂.isUnicast = true) (ht : t₁ < t₂)
    (hplace : (c.store.find? a = none ∧ c.store.size < c.store.capacity) ∨
      ∃ e, c.store.find? a = some e ∧ e.kind = .dynamic) (r : Responder) :
    (t₂ + cfg.reachable.nanos < Clock.limit →
      (∃ x, c.run r [(t₁, .observe a m₁), (t₂, .observe a m₂)] = .ok x) ∧
        ∃ y, c.run r [(t₂, .observe a m₂), (t₁, .observe a m₁)] = .ok y) ∧
    ∀ x y, c.run r [(t₁, .observe a m₁), (t₂, .observe a m₂)] = .ok x →
      c.run r [(t₂, .observe a m₂), (t₁, .observe a m₁)] = .ok y →
      (c.store.find? a = none →
        x.1.standing a = some (Entry.boundStanding cfg m₂ t₂) ∧
        y.1.standing a = some (Entry.boundStanding cfg m₂ t₂)) ∧
      (∀ e ∈ c.store.find? a,
        x.1.standing a = some (if e.confirmedAt ≤ t₂ then Entry.boundStanding cfg m₂ t₂
          else if e.mac? = none then Entry.boundStanding cfg m₁ t₁ else e.standing) ∧
        y.1.standing a = some (if e.mac? = none ∨ e.confirmedAt ≤ t₂
          then Entry.boundStanding cfg m₂ t₂ else e.standing)) ∧
      (¬c.Outdates a t₂ → x.1.standing a = y.1.standing a) ∧
      (c.Outdates a t₂ → x.1.standing a = some (Entry.boundStanding cfg m₁ t₁) ∧
        y.1.standing a = some (Entry.boundStanding cfg m₂ t₂)) := by
  obtain ⟨hcoherent, rfl, _⟩ := hreached.coherent
  have husable₁ : isUsableBinding a m₁ = true := by simp [isUsableBinding, ha, h₁]
  have husable₂ : isUsableBinding a m₂ = true := by simp [isUsableBinding, ha, h₂]
  refine ⟨fun hclock => ⟨?_, ?_⟩, fun x y hx hy => ?_⟩
  · exact exists_run_observations hcoherent (by omega) hclock
  · exact exists_run_observations hcoherent hclock (by omega)
  have hadmits : c.store.admits a = true := by
    obtain ⟨_, hroom⟩ | ⟨e, hfind, _⟩ := hplace
    · simp [Store.admits, hroom]
    · simp [Store.admits, hfind]
  rw [standing_of_run hcoherent husable₁ husable₂ hadmits hx,
    standing_of_run hcoherent husable₂ husable₁ hadmits hy]
  obtain ⟨hfind, _⟩ | ⟨e, hfind, hkind⟩ := hplace
  · rw [Store.entryFor_of_none hfind, Store.entryFor_of_none hfind, Entry.standing_newer_last rfl ht,
      Entry.standing_newer_first rfl ht]
    -- a new entry counts as confirmed by the observation that makes it
    have hlast : (Entry.fresh a c.store.nextGeneration c.store.queueCapacity t₁ :
        Entry α).confirmedAt ≤ t₂ := Nat.le_of_lt ht
    have hnone : (Entry.fresh a c.store.nextGeneration c.store.queueCapacity t₂ :
        Entry α).mac? = none := rfl
    rw [if_pos hlast, if_pos (.inl hnone)]
    have habsent : ∀ e, e ∉ c.store.find? a := fun e hpresent => by cases hfind.symm.trans hpresent
    refine ⟨fun _ => ⟨rfl, rfl⟩, fun e he => absurd he (habsent e), fun _ => rfl, ?_⟩
    rintro ⟨e, hpresent, _⟩
    exact absurd hpresent (habsent e)
  · rw [Store.entryFor_of_some hfind, Store.entryFor_of_some hfind,
      Entry.standing_newer_last hkind ht, Entry.standing_newer_first hkind ht]
    have houtdates : c.Outdates a t₂ ↔ e.mac? = none ∧ t₂ < e.confirmedAt := by
      simp [Outdates, hfind]
    rw [houtdates]
    refine ⟨fun habsent => ?_, fun e' he' => ?_, fun hcounts => ?_, fun hstale => ?_⟩
    · cases habsent.symm.trans hfind
    · cases hfind.symm.trans he'
      exact ⟨rfl, rfl⟩
    · by_cases hnewer : e.confirmedAt ≤ t₂
      · rw [if_pos hnewer, if_pos (.inr hnewer)]
      · have hsome : e.mac? ≠ none := fun hnone => hcounts ⟨hnone, Nat.lt_of_not_le hnewer⟩
        rw [if_neg hnewer, if_neg hsome, if_neg (not_or.mpr ⟨hsome, hnewer⟩)]
    · obtain ⟨hnone, hnewer⟩ := hstale
      rw [if_neg (Nat.not_le.mpr hnewer), if_pos hnone, if_pos (.inl hnone)]
      exact ⟨rfl, rfl⟩

/-- Two observations commute at an address whose resolution began before both: the newer wins. -/
theorem Reached.observations_commute_of_search :
    let a : Address := ⟨10, 0, 0, 5⟩
    let m₁ : Mac := ⟨2, 0, 0, 0, 0, 1⟩
    let m₂ : Mac := ⟨2, 0, 0, 0, 0, 2⟩
    let c : Cache Nat :=
      ((Cache.create .brief 0 : Outcome Nat Unit).cache.perform .silent 1 (.resolve a 7)).left
    ∃ x y, c.run .silent [(2, .observe a m₁), (3, .observe a m₂)] = .ok x ∧
      c.run .silent [(3, .observe a m₂), (2, .observe a m₁)] = .ok y ∧
      x.1.standing a = some (Entry.boundStanding .brief m₂ 3) ∧
      y.1.standing a = some (Entry.boundStanding .brief m₂ 3) := by
  intro a m₁ m₂ c
  have hreached : c.Reached .brief 0 [.resolve a 7] := .perform .create .silent 1 _
  have hdynamic : ∃ e ∈ c.store.find? a, e.kind = .dynamic ∧ e.confirmedAt ≤ 3 := by
    decide +kernel
  obtain ⟨e, hfind, hkind, hconfirmed⟩ := hdynamic
  obtain ⟨hruns, hstanding⟩ := @Reached.observations_commute Nat c a m₁ m₂ 2 3 .brief 0 _ hreached
    (by decide) (by decide) (by decide) (by decide) (.inr ⟨e, hfind, hkind⟩) .silent
  obtain ⟨⟨x, hx⟩, y, hy⟩ := hruns (by decide +kernel)
  obtain ⟨_, hpresent, _⟩ := hstanding x y hx hy
  obtain ⟨hleft, hright⟩ := hpresent e hfind
  rw [if_pos hconfirmed] at hleft
  rw [if_pos (.inr hconfirmed)] at hright
  exact ⟨x, y, hx, hy, hleft, hright⟩

/-- An address whose resolution began after both observations is bound by the one taken in first. -/
theorem Reached.observations_disagree :
    let a : Address := ⟨10, 0, 0, 5⟩
    let m₁ : Mac := ⟨2, 0, 0, 0, 0, 1⟩
    let m₂ : Mac := ⟨2, 0, 0, 0, 0, 2⟩
    let c : Cache Nat :=
      ((Cache.create .brief 0 : Outcome Nat Unit).cache.perform .silent 10 (.resolve a 7)).left
    c.Reached .brief 0 [.resolve a 7] ∧ a.isUsable = true ∧ m₁.isUnicast = true ∧
      m₂.isUnicast = true ∧ (∃ e ∈ c.store.find? a, e.kind = .dynamic) ∧
      (c.run .silent [(1, .observe a m₁), (2, .observe a m₂)]).toOption.map (·.1.standing a) =
        some (some (Entry.boundStanding .brief m₁ 1)) ∧
      (c.run .silent [(2, .observe a m₂), (1, .observe a m₁)]).toOption.map (·.1.standing a) =
        some (some (Entry.boundStanding .brief m₂ 2)) ∧
      Entry.boundStanding .brief m₁ 1 ≠ Entry.boundStanding .brief m₂ 2 :=
  ⟨.perform .create .silent 10 _, by decide, by decide, by decide, by decide +kernel,
    by decide +kernel, by decide +kernel, by decide⟩

end Cache

end Neighbor
