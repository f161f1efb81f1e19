import Neighbor.Proofs.Edit
import Neighbor.Proofs.Victim

/-!
# The entry for an address

A claim finds the entry of an address or makes one, and a full store evicts at most one entry for
it. Every other address keeps its entry unless that is the evicted one (`Claims.ousts`), and an
evicted entry was evictable.
-/

namespace Neighbor.Store

variable {α : Type} {s t : Store α} {a : Address} {now : Nat}

/-- What an operation on `a` may do to the entry of another address `b`: nothing or, if it makes an
entry in a full store, evict it. -/
def Spared (s : Store α) (a b : Address) (after : Option (Entry α)) : Prop :=
  after = s.find? b ∨
    after = none ∧ s.find? a = none ∧ s.capacity ≤ s.size ∧
      ∃ e, s.find? b = some e ∧ e.isEvictable = true

/-- The entry that a claim gives: the one there is, or a fresh one. -/
def entryFor (s : Store α) (a : Address) (now : Nat) : Entry α :=
  (s.find? a).getD (.fresh a s.nextGeneration s.queueCapacity now)

/-- Whether an address has an entry or can get one. -/
def admits (s : Store α) (a : Address) : Bool :=
  (s.find? a).isSome || s.size < s.capacity || s.victim?.isSome

/-- The entry for an address that has one is that one. -/
theorem entryFor_of_some {e : Entry α} (h : s.find? a = some e) : s.entryFor a now = e := by
  simp [entryFor, h]

/-- The entry for an address that has none is a new one. -/
theorem entryFor_of_none (h : s.find? a = none) :
    s.entryFor a now = .fresh a s.nextGeneration s.queueCapacity now := by
  simp [entryFor, h]

/-- The entry for an address is one of that address. -/
@[simp] theorem address_entryFor : (s.entryFor a now).address = a := by
  cases h : s.find? a with
  | none => rw [entryFor_of_none h]; rfl
  | some e => rw [entryFor_of_some h]; exact address_of_find? h

/-- The entry to evict next is one of those that may be evicted. -/
theorem victim?_mem {v : Entry α} (h : s.victim? = some v) :
    v ∈ s.entries ∧ v.isEvictable = true := by
  have hleads := s.leads_victim?
  rw [h] at hleads
  cases hleads with
  | some hmem hspare => exact ⟨hmem, Entry.isEvictable_iff.mpr hspare⟩

/-- If there is none to evict next, no entry may be evicted. -/
theorem not_evictable_of_victim? (h : s.victim? = none) :
    ∀ e ∈ s.entries, e.isEvictable = false := by
  intro e he
  rw [← Bool.not_eq_true, Entry.isEvictable_iff]
  exact victim?_eq_none_iff.mp h e he

/-- An address that gets no entry has none, and the store is full of entries to keep. -/
theorem stuck_of_admits (h : s.admits a = false) :
    s.find? a = none ∧ s.capacity ≤ s.size ∧ ∀ e ∈ s.entries, e.isEvictable = false := by
  simp only [admits, Bool.or_eq_false_iff, Option.isSome_eq_false_iff, Option.isNone_iff_eq_none,
    decide_eq_false_iff_not, Nat.not_lt] at h
  exact ⟨h.1.1, h.1.2, not_evictable_of_victim? h.2⟩

/-- The three ways in which a claim succeeds. -/
inductive Claims (s : Store α) (a : Address) (now : Nat) : Claimed α → Prop
  | found {e : Entry α} (hfind : s.find? a = some e) : Claims s a now ⟨s, e, false, none⟩
  | roomy (hfind : s.find? a = none) (hroom : s.size < s.capacity) :
      Claims s a now (s.create a now none)
  | evicting {v : Entry α} (hfind : s.find? a = none) (hfull : s.capacity ≤ s.size)
      (hvictim : s.victim? = some v) :
      Claims s a now ((s.erase v.address).create a now (some ⟨v.address, v.waiting.length⟩))

/-- Claiming an address that has an entry changes nothing. -/
theorem claim_of_some {e : Entry α} (hfind : s.find? a = some e) :
    s.claim a now = .ok ⟨s, e, false, none⟩ := by
  unfold claim
  rw [hfind]

/-- Claiming an address that has none makes an entry if there is room. -/
theorem claim_of_room (hfind : s.find? a = none) (hroom : s.size < s.capacity) :
    s.claim a now = .ok (s.create a now none) := by
  unfold claim
  rw [hfind]
  exact if_neg (Nat.not_le.mpr hroom)

/-- Claiming one in a full store evicts the victim, whose packets are dropped. -/
theorem claim_of_victim {v : Entry α} (hfind : s.find? a = none) (hfull : s.capacity ≤ s.size)
    (hvictim : s.victim? = some v) :
    s.claim a now =
      .ok ((s.erase v.address).create a now (some ⟨v.address, v.waiting.length⟩)) := by
  unfold claim evict?
  rw [hfind, hvictim]
  exact if_pos hfull

/-- Claiming one in a full store fails if there is no victim. -/
theorem claim_of_stuck (hfind : s.find? a = none) (hfull : s.capacity ≤ s.size)
    (hvictim : s.victim? = none) : s.claim a now = .error .noSpace := by
  unfold claim evict?
  rw [hfind, hvictim]
  exact if_pos hfull

/-- A claim succeeds in one of these ways, or the store is full of entries to keep. -/
theorem claim_cases (s : Store α) (a : Address) (now : Nat) :
    (∃ x, s.claim a now = .ok x ∧ Claims s a now x) ∨
      s.claim a now = .error .noSpace ∧ s.admits a = false := by
  cases hfind : s.find? a with
  | some e => exact .inl ⟨_, claim_of_some hfind, .found hfind⟩
  | none =>
    by_cases hfull : s.capacity ≤ s.size
    · cases hvictim : s.victim? with
      | some v => exact .inl ⟨_, claim_of_victim hfind hfull hvictim, .evicting hfind hfull hvictim⟩
      | none =>
        exact .inr ⟨claim_of_stuck hfind hfull hvictim, by simp [admits, hfind, hvictim, hfull]⟩
    · have hroom : s.size < s.capacity := Nat.lt_of_not_le hfull
      exact .inl ⟨_, claim_of_room hfind hroom, .roomy hfind hroom⟩

/-- A claim that succeeds does so in one of the three ways. -/
theorem claims_of_claim {x : Claimed α} (h : s.claim a now = .ok x) : Claims s a now x := by
  rcases s.claim_cases a now with ⟨x', hclaim, hclaims⟩ | ⟨hclaim, _⟩
  · cases h.symm.trans hclaim
    exact hclaims
  · cases h.symm.trans hclaim

/-- A claim fails only for a new address in a full store without an evictable entry. -/
theorem admits_eq_false_of_claim {reason : DropReason} (h : s.claim a now = .error reason) :
    reason = .noSpace ∧ s.admits a = false := by
  rcases s.claim_cases a now with ⟨x, hclaim, _⟩ | ⟨hclaim, hadmits⟩
  · cases h.symm.trans hclaim
  · cases h.symm.trans hclaim
    exact ⟨rfl, hadmits⟩

/-- An address that can be claimed is admitted. -/
theorem Claims.admits {x : Claimed α} (h : Claims s a now x) : s.admits a = true := by
  cases h with
  | found hfind => simp [Store.admits, hfind]
  | roomy hfind hroom => simp [Store.admits, hroom]
  | evicting hfind hfull hvictim => simp [Store.admits, hvictim]

/-- What is claimed is the entry for the address. -/
theorem Claims.entry_eq {x : Claimed α} (h : Claims s a now x) : x.entry = s.entryFor a now := by
  cases h with
  | found hfind => exact (entryFor_of_some hfind).symm
  | roomy hfind => exact (entryFor_of_none hfind).symm
  | evicting hfind => exact (entryFor_of_none hfind).symm

/-- What is claimed is an entry of the address. -/
theorem Claims.address_eq {x : Claimed α} (h : Claims s a now x) : x.entry.address = a := by
  rw [h.entry_eq, address_entryFor]

/-- A claim makes an entry exactly if there was none. -/
theorem Claims.created_eq {x : Claimed α} (h : Claims s a now x) :
    x.created = (s.find? a).isNone := by
  cases h with
  | found hfind => rw [hfind]; rfl
  | roomy hfind => rw [hfind]; rfl
  | evicting hfind => rw [hfind]; rfl

/-- Making an entry leaves other addresses alone. -/
private theorem find?_create (evicted : Option Evicted) (b : Address) :
    (s.create a now evicted).store.find? b =
      if b = a then some (.fresh a s.nextGeneration s.queueCapacity now) else s.find? b :=
  find?_put s (.fresh a s.nextGeneration s.queueCapacity now) b

/-- What a claim gives is what the store then holds. -/
theorem Claims.find?_store {x : Claimed α} (h : Claims s a now x) :
    x.store.find? a = some x.entry := by
  cases h with
  | found hfind => exact hfind
  | roomy | evicting =>
    rw [find?_create, if_pos rfl]
    rfl

/-- What an operation on `a` does to the other addresses: it makes room by `evicted`, if by
anything, and leaves all others alone. Room is made only for a new entry in a full store. -/
structure Ousts (s : Store α) (a : Address) (evicted : Option Evicted) (t : Store α) : Prop where
  find?_eq : ∀ b, b ≠ a →
    t.find? b = if evicted.map (·.address) = some b then none else s.find? b
  evictable : ∀ ev, evicted = some ev → s.find? a = none ∧ s.capacity ≤ s.size ∧
    ∃ v, s.find? ev.address = some v ∧ v.isEvictable = true ∧ ev.droppedPending = v.waiting.length

/-- An operation that leaves the other addresses alone ousts none. -/
theorem Ousts.of_eq (h : ∀ b, b ≠ a → t.find? b = s.find? b) : s.Ousts a none t :=
  ⟨fun b hb => by simpa using h b hb, nofun⟩

/-- Putting an entry back ousts none. -/
theorem Ousts.of_put {e : Entry α} (haddress : e.address = a) : s.Ousts a none (s.put e) :=
  .of_eq fun b hb => by rw [find?_put, haddress, if_neg hb]

/-- What is not ousted is spared, and so is what is. -/
theorem Ousts.spared {evicted : Option Evicted} {b : Address} (h : s.Ousts a evicted t)
    (hb : b ≠ a) : s.Spared a b (t.find? b) := by
  rw [h.find?_eq b hb]
  split
  · next hout =>
    obtain ⟨ev, hevicted, rfl⟩ := Option.map_eq_some_iff.mp hout
    obtain ⟨hfind, hfull, v, hv, hevictable, _⟩ := h.evictable ev hevicted
    exact .inr ⟨rfl, hfind, hfull, v, hv, hevictable⟩
  · exact .inl rfl

/-- A claim ousts what it says. -/
theorem Claims.ousts {x : Claimed α} {e : Entry α} (h : Claims s a now x) (hs : s.Ordered)
    (haddress : e.address = a) : s.Ousts a x.evicted (x.store.put e) := by
  have hput {b : Address} (hb : b ≠ a) : (x.store.put e).find? b = x.store.find? b := by
    rw [find?_put, haddress, if_neg hb]
  cases h with
  | found => exact .of_eq fun b hb => hput hb
  | roomy => exact .of_eq fun b hb => by rw [hput hb, find?_create, if_neg hb]
  | @evicting v hfind hfull hvictim =>
    obtain ⟨hmem, hevictable⟩ := victim?_mem hvictim
    refine ⟨fun b hb => ?_, fun ev hev => ?_⟩
    · rw [hput hb, find?_create, if_neg hb, find?_erase]
      simp [create, eq_comm]
    · cases hev
      exact ⟨hfind, hfull, v, (hs.mem_iff v).mp hmem, hevictable, rfl⟩

/-- A claim and a change to its entry are edits of the store. -/
theorem Claims.edits {x : Claimed α} {e : Entry α} (h : Claims s a now x) (hs : s.WellFormed)
    (haddress : e.address = a) (hgeneration : e.generation = x.entry.generation) :
    Edits s (x.store.put e) := by
  have hcreate {s' : Store α} (evicted : Option Evicted) (hfind : s'.find? a = none)
      (hroom : s'.size < s'.capacity) (he : e.generation = s'.nextGeneration) :
      Edits s' ((s'.create a now evicted).store.put e) := by
    have hmake : Edit s' (s'.create a now evicted).store :=
      .create (e := .fresh a s'.nextGeneration s'.queueCapacity now) hfind hroom rfl
    have hnew : (s'.create a now evicted).store.find? e.address =
        some (.fresh a s'.nextGeneration s'.queueCapacity now) := by
      rw [find?_create, if_pos haddress]
    exact (Relation.ReflTransGen.single hmake).tail (.replace hnew he)
  cases h with
  | @found old hfind => exact .single (.replace (haddress ▸ hfind) hgeneration)
  | roomy hfind hroom => exact hcreate none hfind hroom hgeneration
  | @evicting v hfind hfull hvictim =>
    have hmem := (victim?_mem hvictim).1
    have hsmaller := size_erase_lt ((hs.ordered.mem_iff v).mp hmem)
    have hsize := hs.size_le
    refine .head (.erase v.address) (hcreate _ ?_ ?_ hgeneration)
    · rw [find?_erase, hfind, ite_self]
    · change (s.erase v.address).size < s.capacity
      omega

end Neighbor.Store
