import Neighbor.Store.Lookup
import Mathlib.Logic.Relation

/-!
# The edits of a store

Whatever an operation does, it edits the store in four ways: it replaces an entry by one of the same
generation, it makes an entry where there is room, it erases one, or it clears all. A store stays
well formed under each edit, so it does under every operation that is a sequence of edits.
-/

namespace Neighbor.Store

variable {α : Type} {s t : Store α}

/-- A store that never holds two entries of one address, more entries than its capacity, or an entry
as young as the next one. -/
structure WellFormed (s : Store α) : Prop where
  ordered : s.Ordered
  size_le : s.size ≤ s.capacity
  generation_lt : ∀ e ∈ s.entries, e.generation < s.nextGeneration

/-- One edit. A new entry takes the next generation and needs room. -/
inductive Edit (s : Store α) : Store α → Prop
  | replace {e old : Entry α} (hfind : s.find? e.address = some old)
      (hgeneration : e.generation = old.generation) : Edit s (s.put e)
  | create {e : Entry α} (hfind : s.find? e.address = none) (hroom : s.size < s.capacity)
      (hgeneration : e.generation = s.nextGeneration) :
      Edit s { s.put e with nextGeneration := s.nextGeneration + 1 }
  | erase (a : Address) : Edit s (s.erase a)
  | clear : Edit s s.clear

/-- Any number of edits, one after the other. -/
abbrev Edits : Store α → Store α → Prop := Relation.ReflTransGen Edit

/-- An empty store is well formed. -/
theorem empty_wellFormed (capacity queueCapacity : Nat) (tieBreak : TieBreak) :
    (empty capacity queueCapacity tieBreak : Store α).WellFormed :=
  ⟨List.Pairwise.nil, Nat.zero_le _, nofun⟩

/-- Inserting an entry makes the list longer unless it replaces one. -/
private theorem length_insertSorted (e : Entry α) {es : List (Entry α)}
    (h : es.Pairwise fun x y => x.address < y.address) :
    (insertSorted e es).length =
      if (es.find? fun x => x.address == e.address).isSome then es.length else es.length + 1 := by
  induction es with
  | nil => rfl
  | cons x rest ih =>
    obtain ⟨hx, hrest⟩ := List.pairwise_cons.mp h
    unfold insertSorted
    by_cases hlt : e.address < x.address
    · have hnone : ((x :: rest).find? fun y => y.address == e.address) = none := by
        rw [List.find?_eq_none]
        intro y hy heq
        have heq : y.address = e.address := by simpa using heq
        rcases List.mem_cons.mp hy with rfl | hy
        · exact Nat.lt_irrefl _ (heq ▸ hlt)
        · exact Nat.lt_irrefl _ (heq ▸ Nat.lt_trans hlt (hx y hy))
      rw [if_pos hlt, hnone]
      rfl
    · rw [if_neg hlt]
      by_cases heq : e.address = x.address
      · simp [heq]
      · have hne : (x.address == e.address) = false := by simpa using fun g => heq g.symm
        rw [if_neg heq, List.length_cons, ih hrest, List.find?_cons, hne]
        split <;> rfl

/-- Replacing an entry keeps the number of entries. -/
theorem Ordered.size_put_of_some {e old : Entry α} (h : s.Ordered)
    (hfind : s.find? e.address = some old) : (s.put e).size = s.size := by
  have hlength := length_insertSorted e h
  unfold find? at hfind
  rw [hfind] at hlength
  exact hlength

/-- An entry for a new address is one more. -/
theorem Ordered.size_put_of_none {e : Entry α} (h : s.Ordered)
    (hfind : s.find? e.address = none) : (s.put e).size = s.size + 1 := by
  have hlength := length_insertSorted e h
  unfold find? at hfind
  rw [hfind] at hlength
  exact hlength

/-- Removing an address makes no store larger. -/
theorem size_erase_le (s : Store α) (a : Address) : (s.erase a).size ≤ s.size :=
  List.length_filter_le _ _

/-- Erasing an address that has an entry makes room. -/
theorem size_erase_lt {a : Address} {e : Entry α} (h : s.find? a = some e) :
    (s.erase a).size < s.size := by
  refine List.length_filter_lt_length_iff_exists.mpr ⟨e, mem_of_find? h, ?_⟩
  simp [address_of_find? h]

/-- An edit leaves the bounds of the store alone. -/
theorem Edit.bounds (h : Edit s t) :
    t.capacity = s.capacity ∧ t.queueCapacity = s.queueCapacity ∧ t.tieBreak = s.tieBreak := by
  cases h <;> exact ⟨rfl, rfl, rfl⟩

/-- Generations are given out in ascending order. -/
theorem Edit.nextGeneration_le (h : Edit s t) : s.nextGeneration ≤ t.nextGeneration := by
  cases h with
  | create => exact Nat.le_succ _
  | replace | erase | clear => exact Nat.le_refl _

/-- An edit keeps a store well formed. -/
theorem Edit.wellFormed (h : Edit s t) (hs : s.WellFormed) : t.WellFormed := by
  cases h with
  | @replace e old hfind hgeneration =>
    refine ⟨hs.ordered.put e, ?_, ?_⟩
    · rw [hs.ordered.size_put_of_some hfind]
      exact hs.size_le
    · intro x hx
      rcases mem_put hx with rfl | hx
      · rw [hgeneration]
        exact hs.generation_lt old (mem_of_find? hfind)
      · exact hs.generation_lt x hx
  | @create e hfind hroom hgeneration =>
    refine ⟨hs.ordered.put e, ?_, ?_⟩
    · have hsize := hs.ordered.size_put_of_none hfind
      change (s.put e).size ≤ s.capacity
      omega
    · intro x hx
      change x.generation < s.nextGeneration + 1
      rcases mem_put hx with rfl | hx
      · omega
      · have := hs.generation_lt x hx
        omega
  | erase a =>
    refine ⟨hs.ordered.erase a, ?_, ?_⟩
    · have hsize := s.size_erase_le a
      exact Nat.le_trans hsize hs.size_le
    · intro x hx
      exact hs.generation_lt x ((List.mem_filter.mp hx).1)
  | clear => exact ⟨List.Pairwise.nil, Nat.zero_le _, nofun⟩

/-- Edits keep a store well formed. -/
theorem Edits.wellFormed (h : Edits s t) (hs : s.WellFormed) : t.WellFormed := by
  induction h with
  | refl => exact hs
  | tail _ hedit ih => exact hedit.wellFormed ih

/-- Edits leave the bounds of a store and its order of eviction alone. -/
theorem Edits.bounds (h : Edits s t) :
    t.capacity = s.capacity ∧ t.queueCapacity = s.queueCapacity ∧ t.tieBreak = s.tieBreak := by
  induction h with
  | refl => exact ⟨rfl, rfl, rfl⟩
  | tail _ hedit ih =>
    obtain ⟨h1, h2, h3⟩ := hedit.bounds
    exact ⟨h1.trans ih.1, h2.trans ih.2.1, h3.trans ih.2.2⟩

/-- Edits do not set the counter of generations back. -/
theorem Edits.nextGeneration_le (h : Edits s t) : s.nextGeneration ≤ t.nextGeneration := by
  induction h with
  | refl => exact Nat.le_refl _
  | tail _ hedit ih => exact Nat.le_trans ih hedit.nextGeneration_le

end Neighbor.Store
