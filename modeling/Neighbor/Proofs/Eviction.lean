import Neighbor.Proofs.Claim
import Neighbor.Store.Table

/-!
# The order of eviction

A store is a table: no two of its entries are for one address, and nothing depends on the order in
which they are listed. A full table makes room by the first of its dispensable entries. So a new
address gets an entry unless nothing may be evicted, the only other entry to change is the one that
goes, and evictions one after the other take the dispensable entries in their order until none is
left (`Store.claims_in_order`).
-/

namespace Neighbor

variable {α : Type}

namespace Store

variable {s t : Store α}

/-- The same table with its entries listed in another order. -/
structure Relisted (s t : Store α) : Prop where
  perm : s.entries.Perm t.entries
  rest_eq : t = { s with entries := t.entries }

/-- `v` is the first of the dispensable entries of a table, and `rest` are all its other entries. -/
structure Next (s : Store α) (v : Entry α) (rest : List (Entry α)) : Prop where
  perm : s.entries.Perm (v :: rest)
  dispensable : v.Dispensable
  goesBefore : ∀ e ∈ rest, e.Dispensable → v.GoesBefore s.tieBreak e

/-- `x` comes from making an entry for `a` in a table that holds the entries `kept` besides. -/
structure Makes (s : Store α) (a : Address) (now : Nat) (kept : List (Entry α)) (x : Claimed α) :
    Prop where
  created : x.created = true
  entry_eq : x.entry = .fresh a s.nextGeneration s.queueCapacity now
  perm : x.store.entries.Perm (x.entry :: kept)
  rest_eq : x.store =
    { s with entries := x.store.entries, nextGeneration := s.nextGeneration + 1 }

/-- Evictions one after the other. Before each one the entries may be listed anew. -/
inductive Evictions : Store α → List Evicted → Store α → Prop
  | nil {s t : Store α} (hlist : s.Relisted t) : Evictions s [] t
  | cons {s t u last : Store α} {ev : Evicted} {evs : List Evicted} (hlist : s.Relisted t)
      (hevict : t.evict? = some (u, ev)) (hrest : Evictions u evs last) :
      Evictions s (ev :: evs) last

/-- Evictions of the entries `order` that turn `s` into `t`: they are dispensable and ascend
strictly, none that is left goes before one of them, and nothing waited for them. -/
structure Drains (s : Store α) (evs : List Evicted) (t : Store α) (order : List (Entry α)) :
    Prop where
  evicted_eq : evs = order.map fun e => ⟨e.address, 0⟩
  dispensable : ∀ e ∈ order, e.Dispensable
  ascending : order.Pairwise (Entry.GoesBefore s.tieBreak)
  goesBefore : ∀ e ∈ order, ∀ x ∈ t.entries, x.Dispensable → e.GoesBefore s.tieBreak x
  perm : s.entries.Perm (order ++ t.entries)
  rest_eq : t = { s with entries := t.entries }

/-- A store is one of its own relistings. -/
theorem Relisted.refl (s : Store α) : s.Relisted s := ⟨.refl _, rfl⟩

/-- Addresses stay distinct when entries are listed anew or removed. -/
theorem nodup_of_perm (others : List (Entry α)) (hs : s.addresses.Nodup)
    (h : s.entries.Perm (others ++ t.entries)) : t.addresses.Nodup := by
  have hall := (h.map Entry.address).nodup_iff.1 hs
  rw [List.map_append] at hall
  exact (List.nodup_append.1 hall).2.1

/-- There is none to evict exactly if no entry may be evicted. -/
theorem evict?_eq_none_iff : s.evict? = none ↔ ∀ e ∈ s.entries, ¬ e.Dispensable := by
  unfold evict?
  rw [Option.map_eq_none_iff, victim?_eq_none_iff]

/-- The entry to evict next is the first of the dispensable entries. -/
theorem next_of_victim? {v : Entry α} (hs : s.addresses.Nodup) (h : s.victim? = some v) :
    s.Next v (s.erase v.address).entries := by
  have hleads := s.leads_victim?
  rw [h] at hleads
  cases hleads with
  | some hmem hspare hfirst =>
    refine ⟨perm_erase hs hmem, hspare, fun x hx hspare' => ?_⟩
    obtain ⟨hin, hne⟩ := List.mem_filter.1 hx
    have hne : v.address ≠ x.address := fun g => by simp [g] at hne
    exact (Entry.GoesBefore.total hne).resolve_right (hfirst x hin hspare')

/-- An eviction takes the first of the dispensable entries. -/
theorem next_of_evict? {ev : Evicted} (hs : s.addresses.Nodup) (h : s.evict? = some (t, ev)) :
    ∃ v, s.Next v t.entries ∧ ev = ⟨v.address, 0⟩ ∧ t = { s with entries := t.entries } := by
  unfold evict? at h
  obtain ⟨v, hvictim, hout⟩ := Option.map_eq_some_iff.1 h
  cases hout
  have hnext := next_of_victim? hs hvictim
  exact ⟨v, hnext, by rw [hnext.dispensable.waiting_eq_nil]; rfl, rfl⟩

/-- Making an entry adds it and keeps the others. -/
theorem create_makes {a : Address} (ha : a ∉ s.addresses) (now : Nat) (evicted : Option Evicted) :
    s.Makes a now s.entries (s.create a now evicted) where
  created := rfl
  entry_eq := rfl
  perm := perm_insertSorted fun x hx (g : a = x.address) => ha (g ▸ List.mem_map_of_mem hx)
  rest_eq := rfl

/-- Evictions one after the other take dispensable entries in their order. -/
theorem Evictions.drains {evs : List Evicted} (h : s.Evictions evs t) (hs : s.addresses.Nodup) :
    ∃ order, s.Drains evs t order := by
  induction h with
  | nil hlist =>
    exact ⟨[], rfl, nofun, .nil, nofun, hlist.perm, hlist.rest_eq⟩
  | @cons s t u last ev evs hlist hevict _ ih =>
    have ht : t.addresses.Nodup := nodup_of_perm [] hs hlist.perm
    obtain ⟨v, hnext, rfl, hu⟩ := next_of_evict? ht hevict
    obtain ⟨order, hdrains⟩ := ih (nodup_of_perm [v] ht hnext.perm)
    have hrule : u.tieBreak = s.tieBreak := by rw [hu, hlist.rest_eq]
    have hrule' : t.tieBreak = s.tieBreak := by rw [hlist.rest_eq]
    have hmem {x : Entry α} : x ∈ u.entries ↔ x ∈ order ∨ x ∈ last.entries := by
      rw [hdrains.perm.mem_iff, List.mem_append]
    refine ⟨v :: order, ?_, ?_, ?_, ?_, ?_, ?_⟩
    · rw [List.map_cons, ← hdrains.evicted_eq]
    · exact List.forall_mem_cons.2 ⟨hnext.dispensable, hdrains.dispensable⟩
    · refine List.pairwise_cons.2 ⟨fun x hx => ?_, hrule ▸ hdrains.ascending⟩
      exact hrule' ▸ hnext.goesBefore x (hmem.2 (.inl hx)) (hdrains.dispensable x hx)
    · refine List.forall_mem_cons.2 ⟨fun x hx hspare => ?_, hrule ▸ hdrains.goesBefore⟩
      exact hrule' ▸ hnext.goesBefore x (hmem.2 (.inr hx)) hspare
    · exact hlist.perm.trans (hnext.perm.trans (hdrains.perm.cons v))
    · rw [hdrains.rest_eq, hu, hlist.rest_eq]

/-- Evictions come to an end. -/
theorem exists_evictions (hs : s.addresses.Nodup) :
    ∃ evs t, s.Evictions evs t ∧ t.evict? = none := by
  generalize hsize : s.size = n
  induction n generalizing s with
  | zero =>
    have hempty : s.entries = [] := List.length_eq_zero_iff.1 hsize
    exact ⟨[], s, .nil (.refl s), evict?_eq_none_iff.2 (by simp [hempty])⟩
  | succ n ih =>
    cases hevict : s.evict? with
    | none => exact ⟨[], s, .nil (.refl s), hevict⟩
    | some out =>
      obtain ⟨u, ev⟩ := out
      obtain ⟨v, hnext, -, -⟩ := next_of_evict? hs hevict
      have hsmaller : s.size = u.size + 1 := hnext.perm.length_eq
      have hu : u.addresses.Nodup := nodup_of_perm [v] hs hnext.perm
      obtain ⟨evs, t, hrest, hend⟩ := ih hu (by omega)
      exact ⟨ev :: evs, t, .cons (.refl s) hevict hrest, hend⟩

/-- A claim gives the entry that there is, or makes one, for which it evicts the first of the
dispensable entries of a full table; it fails exactly if there is none. No other entry changes.
Evictions one after the other come to an end, and they take all dispensable entries, each once and
in their order, however the table lists its entries. -/
theorem claims_in_order (hs : s.addresses.Nodup) (a : Address) (now : Nat) :
    (∀ e ∈ s.entries, e.address = a → s.claim a now = .ok ⟨s, e, false, none⟩) ∧
    (a ∉ s.addresses → s.size < s.capacity →
      ∃ x, s.claim a now = .ok x ∧ x.evicted = none ∧ s.Makes a now s.entries x) ∧
    (a ∉ s.addresses → s.capacity ≤ s.size →
      (s.claim a now = .error .noSpace ↔ ∀ e ∈ s.entries, ¬ e.Dispensable) ∧
      ((∃ e ∈ s.entries, e.Dispensable) →
        ∃ v rest x, s.Next v rest ∧ s.claim a now = .ok x ∧ x.evicted = some ⟨v.address, 0⟩ ∧
          s.Makes a now rest x)) ∧
    (∃ evs t, s.Evictions evs t ∧ t.evict? = none) ∧
    ∀ evs t, s.Evictions evs t → ∃ order, s.Drains evs t order ∧
      (t.evict? = none → ∀ e ∈ t.entries, ¬ e.Dispensable) := by
  refine ⟨?_, ?_, ?_, exists_evictions hs, ?_⟩
  · rintro e hmem rfl
    exact claim_of_some (find?_of_mem_of_nodup hs hmem)
  · intro ha hroom
    exact ⟨_, claim_of_room (find?_eq_none_iff.2 ha) hroom, rfl, create_makes ha now none⟩
  · intro ha hfull
    have hfind := find?_eq_none_iff.2 ha
    cases hvictim : s.victim? with
    | none =>
      have hkeep := victim?_eq_none_iff.1 hvictim
      exact ⟨⟨fun _ => hkeep, fun _ => claim_of_stuck hfind hfull hvictim⟩,
        fun ⟨e, hmem, hspare⟩ => absurd hspare (hkeep e hmem)⟩
    | some v =>
      have hnext := next_of_victim? hs hvictim
      have hclaim : s.claim a now = _ := claim_of_victim hfind hfull hvictim
      have hin : v ∈ s.entries := hnext.perm.mem_iff.2 List.mem_cons_self
      refine ⟨⟨fun hnone => ?_, fun hkeep => absurd hnext.dispensable (hkeep v hin)⟩,
        fun _ => ⟨v, _, _, hnext, hclaim, ?_, ?_⟩⟩
      · cases hclaim.symm.trans hnone
      · rw [hnext.dispensable.waiting_eq_nil]
        rfl
      · have hleft : a ∉ (s.erase v.address).addresses := fun hmem =>
          ha ((hnext.perm.map Entry.address).mem_iff.2 (List.mem_cons_of_mem _ hmem))
        have hmakes := create_makes hleft now (some ⟨v.address, v.waiting.length⟩)
        exact ⟨hmakes.created, hmakes.entry_eq, hmakes.perm, hmakes.rest_eq⟩
  · intro evs t hevictions
    obtain ⟨order, hdrains⟩ := hevictions.drains hs
    exact ⟨order, hdrains, t.evict?_eq_none_iff.1⟩

/-- A full table of a confirmed binding and an older stale one: the stale one makes room, although
its address is the higher one. -/
theorem claims_in_order_of_full :
    let confirmed : Entry Nat := ⟨⟨10, 0, 0, 1⟩, .dynamic, 1, 0, 0, 0, some 30, .reachable .zero⟩
    let aged : Entry Nat := ⟨⟨10, 0, 0, 2⟩, .dynamic, 2, 5, 5, 5, some 90, .stale .zero⟩
    let s : Store Nat := ⟨2, 3, .oldestConfirmed, [confirmed, aged], 3⟩
    s.addresses.Nodup ∧ ⟨10, 0, 0, 3⟩ ∉ s.addresses ∧ s.capacity ≤ s.size ∧
      (∃ v rest x, s.Next v rest ∧ s.claim ⟨10, 0, 0, 3⟩ 7 = .ok x ∧
        x.evicted = some ⟨v.address, 0⟩ ∧ s.Makes ⟨10, 0, 0, 3⟩ 7 rest x) ∧
      s.evict?.map (·.2) = some ⟨aged.address, 0⟩ := by
  intro confirmed aged s
  have hs : s.addresses.Nodup := by decide
  have hspare : aged.Dispensable := ⟨rfl, .inr (.inl rfl)⟩
  obtain ⟨-, -, hclaim, -, -⟩ := claims_in_order hs ⟨10, 0, 0, 3⟩ 7
  exact ⟨hs, by decide, by decide,
    (hclaim (by decide) (by decide)).2 ⟨aged, List.mem_cons_of_mem _ List.mem_cons_self, hspare⟩,
    by decide⟩

end Store

end Neighbor
