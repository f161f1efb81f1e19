import Neighbor.Store

/-!
# What a store holds

A store is known by its look-ups: each change is described by what `find?` gives after it. The
entries of an ordered store ascend strictly, so no address has two, and a look-up finds exactly
the entries that the store holds.
-/

namespace Neighbor.Store

variable {α : Type}

/-- Addresses ascend strictly along the entries. -/
def Ordered (s : Store α) : Prop := s.entries.Pairwise fun x y => x.address < y.address

/-- An entry that is found is in the store. -/
theorem mem_of_find? {s : Store α} {a : Address} {e : Entry α} (h : s.find? a = some e) :
    e ∈ s.entries := List.mem_of_find?_eq_some h

/-- An entry that is found has the address that was looked for. -/
theorem address_of_find? {s : Store α} {a : Address} {e : Entry α} (h : s.find? a = some e) :
    e.address = a := by
  simpa using List.find?_some h

/-- The addresses of a store are those under which something is found. -/
theorem mem_addresses_iff {s : Store α} {a : Address} :
    a ∈ s.addresses ↔ (s.find? a).isSome := by
  simp [addresses, find?, List.find?_isSome]

/-- Nothing is found in an empty store. -/
@[simp] theorem find?_empty (capacity queueCapacity : Nat) (tieBreak : TieBreak) (a : Address) :
    (empty capacity queueCapacity tieBreak : Store α).find? a = none := rfl

/-- Nothing is found in a store that was cleared. -/
@[simp] theorem find?_clear (s : Store α) (a : Address) : s.clear.find? a = none := rfl

/-- Inserting an entry leaves other addresses alone. -/
private theorem find?_insertSorted (e : Entry α) (es : List (Entry α)) (a : Address) :
    (insertSorted e es).find? (fun x => x.address == a) =
      if a = e.address then some e else es.find? fun x => x.address == a := by
  have he : (e.address == a) = decide (a = e.address) := by
    rw [Bool.beq_eq_decide_eq]
    exact decide_eq_decide.2 eq_comm
  induction es with
  | nil => by_cases h : a = e.address <;> simp [insertSorted, he, h]
  | cons x rest ih =>
    unfold insertSorted
    split
    · by_cases h : a = e.address <;> simp [List.find?_cons, he, h]
    · split
      · next hx => by_cases h : a = e.address <;> simp [he, h, ← hx]
      · next hx =>
        by_cases h : a = e.address
        · have hxa : (x.address == a) = false := by simpa [h] using fun g => hx g.symm
          rw [List.find?_cons, hxa, ih, if_pos h, if_pos h]
        · simp [List.find?_cons, ih, h]

/-- Putting an entry in changes what is found under its own address only. -/
@[simp] theorem find?_put (s : Store α) (e : Entry α) (a : Address) :
    (s.put e).find? a = if a = e.address then some e else s.find? a :=
  find?_insertSorted e s.entries a

/-- An entry is found under its address once it is put there. -/
theorem find?_put_of_address (s : Store α) {e : Entry α} {a : Address} (h : e.address = a) :
    (s.put e).find? a = some e := by
  rw [find?_put, if_pos h.symm]

/-- Putting an entry leaves other addresses alone. -/
theorem find?_put_of_ne (s : Store α) {e : Entry α} {a b : Address} (h : e.address = a)
    (hb : b ≠ a) : (s.put e).find? b = s.find? b := by
  rw [find?_put, h, if_neg hb]

/-- Erasing an address changes what is found under that address only. -/
@[simp] theorem find?_erase (s : Store α) (a b : Address) :
    (s.erase a).find? b = if b = a then none else s.find? b := by
  simp only [erase, find?, List.find?_filter]
  by_cases h : b = a
  · subst h
    rw [if_pos rfl, List.find?_eq_none]
    simp
  · rw [if_neg h]
    congr 1
    funext x
    by_cases hx : x.address = b
    · simp [hx, h]
    · simp [hx]

/-- Inserting an entry adds no other. -/
private theorem mem_insertSorted {e x : Entry α} {es : List (Entry α)}
    (h : x ∈ insertSorted e es) : x = e ∨ x ∈ es := by
  induction es with
  | nil => simpa [insertSorted] using h
  | cons y rest ih =>
    unfold insertSorted at h
    grind

/-- Entries stay in order when one is inserted. -/
private theorem pairwise_insertSorted (e : Entry α) {es : List (Entry α)}
    (h : es.Pairwise fun x y => x.address < y.address) :
    (insertSorted e es).Pairwise fun x y => x.address < y.address := by
  induction es with
  | nil => simp [insertSorted]
  | cons x rest ih =>
    obtain ⟨hx, hrest⟩ := List.pairwise_cons.1 h
    unfold insertSorted
    split
    · next hlt =>
      refine List.pairwise_cons.2 ⟨fun y hy => ?_, h⟩
      rcases List.mem_cons.1 hy with rfl | hy
      · exact hlt
      · exact Nat.lt_trans hlt (hx y hy)
    · next hlt =>
      split
      · next heq => exact List.pairwise_cons.2 ⟨fun y hy => heq ▸ hx y hy, hrest⟩
      · next hne =>
        refine List.pairwise_cons.2 ⟨fun y hy => ?_, ih hrest⟩
        rcases mem_insertSorted hy with rfl | hy
        · exact Nat.lt_of_le_of_ne (Nat.le_of_not_lt hlt) fun g =>
            hne (Address.toNat_inj.1 g).symm
        · exact hx y hy

/-- Putting an entry in adds no other. -/
theorem mem_put {s : Store α} {e x : Entry α} (h : x ∈ (s.put e).entries) :
    x = e ∨ x ∈ s.entries := mem_insertSorted h

/-- Putting an entry in keeps the order. -/
theorem Ordered.put {s : Store α} (h : s.Ordered) (e : Entry α) : (s.put e).Ordered :=
  pairwise_insertSorted e h

/-- Erasing an address keeps the order. -/
theorem Ordered.erase {s : Store α} (h : s.Ordered) (a : Address) : (s.erase a).Ordered :=
  List.Pairwise.filter _ h

/-- In an ordered list an entry is found under its address. -/
private theorem find?_of_mem {e : Entry α} {es : List (Entry α)}
    (h : es.Pairwise fun x y => x.address < y.address) (hmem : e ∈ es) :
    es.find? (fun x => x.address == e.address) = some e := by
  induction es with
  | nil => simp at hmem
  | cons x rest ih =>
    obtain ⟨hx, hrest⟩ := List.pairwise_cons.1 h
    rcases List.mem_cons.1 hmem with rfl | hmem
    · simp
    · have hne : (x.address == e.address) = false := by
        have hlt : x.address.toNat < e.address.toNat := hx e hmem
        simpa using fun g => Nat.ne_of_lt hlt (congrArg Address.toNat g)
      rw [List.find?_cons, hne]
      exact ih hrest hmem

/-- An ordered store holds an entry exactly if it is found under its address. -/
theorem Ordered.mem_iff {s : Store α} (h : s.Ordered) (e : Entry α) :
    e ∈ s.entries ↔ s.find? e.address = some e :=
  ⟨find?_of_mem h, mem_of_find?⟩

end Neighbor.Store
