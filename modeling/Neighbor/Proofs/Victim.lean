import Neighbor.Store

/-!
# The entry to evict

The entries that may be evicted stand in an order: by the rank of their states, then by age, then by
address. The search for the entry to evict goes through a store in the order in which its entries
are listed, and what it comes to does not depend on that order: an entry before which no other goes.
-/

namespace Neighbor

variable {α : Type}

/-- The rank of a state in the order of eviction; entries of the last two are never evicted. -/
def State.evictionRank : State → Nat
  | .failed => 0
  | .stale => 1
  | .incomplete => 2
  | .reachable => 3
  | .delay => 4
  | .probe => 5

namespace Entry

/-- An entry that may be evicted: a learned one that is neither being checked nor waited for. -/
structure Dispensable (e : Entry α) : Prop where
  kind_eq : e.kind = .dynamic
  state_eq : e.state = .failed ∨ e.state = .stale ∨ e.state = .reachable ∨
    e.state = .incomplete ∧ e.waiting = []

/-- The instant by which entries of one rank are told apart. -/
def tieInstant (e : Entry α) : TieBreak → Nat
  | .oldestConfirmed => e.confirmedAt
  | .oldestCreated => e.createdAt

/-- The order of eviction: by rank, then the older one first, then the lower address first. -/
def GoesBefore (rule : TieBreak) (x y : Entry α) : Prop :=
  x.state.evictionRank < y.state.evictionRank ∨
    x.state.evictionRank = y.state.evictionRank ∧
      (x.tieInstant rule < y.tieInstant rule ∨
        x.tieInstant rule = y.tieInstant rule ∧ x.address < y.address)

instance (rule : TieBreak) (x y : Entry α) : Decidable (x.GoesBefore rule y) :=
  inferInstanceAs (Decidable (_ ∨ _))

variable {rule : TieBreak} {x y z : Entry α}

/-- The order of eviction is transitive. -/
theorem GoesBefore.trans (hxy : x.GoesBefore rule y) (hyz : y.GoesBefore rule z) :
    x.GoesBefore rule z := by
  unfold GoesBefore at *
  simp only [Address.lt_def] at *
  omega

/-- No entry is evicted before itself. -/
theorem GoesBefore.irrefl : ¬ x.GoesBefore rule x := by
  unfold GoesBefore
  simp only [Address.lt_def]
  omega

/-- Of two entries for different addresses, one goes before the other. -/
theorem GoesBefore.total (h : x.address ≠ y.address) :
    x.GoesBefore rule y ∨ y.GoesBefore rule x := by
  have hvalue : x.address.toNat ≠ y.address.toNat := fun g => h (Address.toNat_inj.1 g)
  unfold GoesBefore
  simp only [Address.lt_def]
  omega

/-- The rank is the one in the order, and exactly the dispensable entries have one. -/
theorem evictionTier?_eq_some_iff {tier : Nat} :
    x.evictionTier? = some tier ↔ x.Dispensable ∧ x.state.evictionRank = tier := by
  have hdispensable : x.Dispensable ↔ x.kind = .dynamic ∧
      (x.state = .failed ∨ x.state = .stale ∨ x.state = .reachable ∨
        x.state = .incomplete ∧ x.waiting = []) :=
    ⟨fun h => ⟨h.kind_eq, h.state_eq⟩, fun ⟨hkind, hstate⟩ => ⟨hkind, hstate⟩⟩
  rw [hdispensable]
  unfold evictionTier? state waiting
  cases x.kind with
  | permanent => simp
  | dynamic =>
    cases x.status with
    | incomplete probes queue =>
      cases hqueue : queue.packets with
      | nil => simp [PendingQueue.isEmpty, Status.state, Status.waiting, State.evictionRank, hqueue]
      | cons packet rest => simp [PendingQueue.isEmpty, Status.state, Status.waiting, hqueue]
    | _ => simp [Status.state, State.evictionRank]

/-- The key of an entry is its place in the order, and exactly the dispensable entries have one. -/
theorem evictionKey?_eq_some_iff {k : EvictionKey} :
    x.evictionKey? rule = some k ↔
      x.Dispensable ∧ k = ⟨x.state.evictionRank, x.tieInstant rule, x.address⟩ := by
  unfold evictionKey?
  rw [Option.map_eq_some_iff]
  simp only [evictionTier?_eq_some_iff]
  constructor
  · rintro ⟨tier, ⟨hspare, rfl⟩, rfl⟩
    exact ⟨hspare, by cases rule <;> rfl⟩
  · rintro ⟨hspare, rfl⟩
    exact ⟨_, ⟨hspare, rfl⟩, by cases rule <;> rfl⟩

/-- Exactly the dispensable entries may be evicted. -/
theorem isEvictable_iff : x.isEvictable = true ↔ x.Dispensable := by
  unfold isEvictable
  rw [Option.isSome_iff_exists]
  simp only [evictionTier?_eq_some_iff, exists_and_left, exists_eq', and_true]

/-- An entry has no place in the order of eviction exactly if it may not be evicted. -/
theorem evictionKey?_eq_none_iff : x.evictionKey? rule = none ↔ ¬ x.Dispensable := by
  rw [← Option.not_isSome_iff_eq_none, Option.isSome_iff_exists]
  simp only [evictionKey?_eq_some_iff, exists_and_left, exists_eq, and_true]

/-- No packet waits for an entry that may be evicted. -/
theorem Dispensable.waiting_eq_nil (h : x.Dispensable) : x.waiting = [] := by
  have hstate := h.state_eq
  unfold Entry.state at hstate
  unfold waiting
  cases hstatus : x.status with
  | incomplete probes queue => simpa [waiting, Status.state, hstatus] using hstate
  | _ => rfl

end Entry

namespace Store

/-- What the search for the entry to evict knows after some entries: none of them may be evicted, or
one that may and before which no other of them goes. -/
inductive Leads (rule : TieBreak) (es : List (Entry α)) : Option (Entry α) → Prop
  | none (hkeep : ∀ e ∈ es, ¬ e.Dispensable) : Leads rule es none
  | some {b : Entry α} (hmem : b ∈ es) (hspare : b.Dispensable)
      (hfirst : ∀ e ∈ es, e.Dispensable → ¬ e.GoesBefore rule b) : Leads rule es (some b)

variable {rule : TieBreak} {b e : Entry α}

/-- An entry that may not be evicted does not become the victim. -/
theorem moreDispensable_of_not {best : Option (Entry α)} (h : ¬ e.Dispensable) :
    moreDispensable rule best e = best := by
  unfold moreDispensable
  rw [Entry.evictionKey?_eq_none_iff.2 h]

/-- The first entry that may be evicted becomes the victim. -/
theorem moreDispensable_none (h : e.Dispensable) : moreDispensable rule none e = some e := by
  unfold moreDispensable
  rw [Entry.evictionKey?_eq_some_iff.2 ⟨h, rfl⟩]
  rfl

/-- A later entry becomes the victim exactly if it goes before the one so far. -/
theorem moreDispensable_some (hb : b.Dispensable) (h : e.Dispensable) :
    moreDispensable rule (some b) e = if e.GoesBefore rule b then some e else some b := by
  unfold moreDispensable
  rw [Option.bind_some, Entry.evictionKey?_eq_some_iff.2 ⟨h, rfl⟩,
    Entry.evictionKey?_eq_some_iff.2 ⟨hb, rfl⟩]
  rfl

/-- The search goes on to one more entry. -/
theorem Leads.snoc {es : List (Entry α)} {best : Option (Entry α)} (h : Leads rule es best)
    (e : Entry α) : Leads rule (es ++ [e]) (moreDispensable rule best e) := by
  by_cases hspare : e.Dispensable
  · have hlast : e ∈ es ++ [e] := List.mem_append_right _ List.mem_cons_self
    cases h with
    | none hkeep =>
      rw [moreDispensable_none hspare]
      refine .some hlast hspare (List.forall_mem_append.2 ⟨fun x hx hx' => ?_, ?_⟩)
      · exact absurd hx' (hkeep x hx)
      · simpa using fun _ => Entry.GoesBefore.irrefl
    | @some b hmem hspareb hfirst =>
      rw [moreDispensable_some hspareb hspare]
      split
      · next hbefore =>
        refine .some hlast hspare (List.forall_mem_append.2 ⟨fun x hx hx' hxe => ?_, ?_⟩)
        · exact hfirst x hx hx' (hxe.trans hbefore)
        · simpa using fun _ => Entry.GoesBefore.irrefl
      · next hbehind =>
        refine .some (List.mem_append_left _ hmem) hspareb (List.forall_mem_append.2 ⟨hfirst, ?_⟩)
        simpa using fun _ => hbehind
  · rw [moreDispensable_of_not hspare]
    cases h with
    | none hkeep => exact .none (List.forall_mem_append.2 ⟨hkeep, by simpa using hspare⟩)
    | some hmem hspareb hfirst =>
      refine .some (List.mem_append_left _ hmem) hspareb (List.forall_mem_append.2 ⟨hfirst, ?_⟩)
      simpa using fun hspare' => absurd hspare' hspare

/-- The search goes through all entries. -/
theorem Leads.foldl {es : List (Entry α)} {best : Option (Entry α)} (h : Leads rule es best)
    (rest : List (Entry α)) : Leads rule (es ++ rest) (rest.foldl (moreDispensable rule) best) := by
  induction rest generalizing es best with
  | nil => simpa using h
  | cons e rest ih =>
    rw [List.append_cons]
    exact ih (h.snoc e)

/-- The search leads to the entry to evict next. -/
theorem leads_victim? (s : Store α) : Leads s.tieBreak s.entries s.victim? := by
  have hstart : Leads s.tieBreak ([] : List (Entry α)) none := .none nofun
  exact hstart.foldl s.entries

/-- There is none to evict exactly if no entry may be evicted. -/
theorem victim?_eq_none_iff {s : Store α} :
    s.victim? = none ↔ ∀ e ∈ s.entries, ¬ e.Dispensable := by
  have hleads := s.leads_victim?
  generalize s.victim? = best at hleads
  cases hleads with
  | none hkeep => exact ⟨fun _ => hkeep, fun _ => rfl⟩
  | some hmem hspare _ => exact ⟨nofun, fun hkeep => absurd hspare (hkeep _ hmem)⟩

end Store

end Neighbor
