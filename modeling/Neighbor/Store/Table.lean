import Neighbor.Store.Lookup

/-!
# Stores as tables

A store is a table if no two of its entries are for one address. What a table holds does not depend
on the order in which its entries are listed: every entry is found under its address, and erasing or
making one leaves all others.
-/

namespace Neighbor.Store

variable {α : Type} {s : Store α} {a : Address} {e v : Entry α}

/-- The addresses under which nothing is found have no entry. -/
theorem find?_eq_none_iff : s.find? a = none ↔ a ∉ s.addresses := by
  rw [mem_addresses_iff, Option.not_isSome_iff_eq_none]

/-- A table gives each entry that it holds under its address. -/
theorem find?_of_mem_of_nodup (hs : s.addresses.Nodup) (hmem : e ∈ s.entries) :
    s.find? e.address = some e := by
  obtain ⟨before, behind, hsplit⟩ := List.append_of_mem hmem
  unfold addresses at hs
  rw [hsplit, List.map_append, List.map_cons, List.nodup_append] at hs
  unfold find?
  rw [hsplit, List.find?_append, List.find?_eq_none.2, Option.none_or]
  · simp
  · intro x hx
    simpa using hs.2.2 x.address (List.mem_map_of_mem hx) e.address List.mem_cons_self

/-- Erasing an address removes its entry from a table and keeps the others. -/
theorem perm_erase (hs : s.addresses.Nodup) (hmem : v ∈ s.entries) :
    s.entries.Perm (v :: (s.erase v.address).entries) := by
  obtain ⟨before, behind, hsplit⟩ := List.append_of_mem hmem
  unfold addresses at hs
  rw [hsplit, List.map_append, List.map_cons, List.nodup_append, List.nodup_cons] at hs
  obtain ⟨-, ⟨hbehind, -⟩, hbefore⟩ := hs
  have hkept : (s.erase v.address).entries = before ++ behind := by
    change s.entries.filter (fun x => x.address != v.address) = before ++ behind
    rw [hsplit, List.filter_append, List.filter_cons_of_neg (by simp)]
    congr 1
    · refine List.filter_eq_self.2 fun x hx => ?_
      simpa using hbefore x.address (List.mem_map_of_mem hx) v.address List.mem_cons_self
    · refine List.filter_eq_self.2 fun x hx => ?_
      simpa using fun (g : x.address = v.address) => hbehind (g ▸ List.mem_map_of_mem hx)
  rw [hkept, hsplit]
  exact List.perm_middle

/-- An entry for a new address is put in among the others. -/
theorem perm_insertSorted {es : List (Entry α)} (h : ∀ x ∈ es, e.address ≠ x.address) :
    (insertSorted e es).Perm (e :: es) := by
  induction es with
  | nil => exact .refl _
  | cons x rest ih =>
    obtain ⟨hx, hrest⟩ := List.forall_mem_cons.1 h
    unfold insertSorted
    split
    · exact .refl _
    · exact ((ih hrest).cons x).trans (.swap e x rest)

end Neighbor.Store
