import Mathlib.Algebra.BigOperators.Group.List.Basic
import Mathlib.Algebra.GroupWithZero.Nat
import Neighbor.Proofs.Flow
import Neighbor.Store.Table

/-!
# The packets that wait in a store

`Store.pending` counts the packets that wait in all entries. Putting an entry in, erasing one and
making room change the count by what the entries in question hold; an entry that makes room holds
nothing. In a sweep of time, what no longer waits is what was dropped with the entries that were
given up.
-/

namespace Neighbor

variable {α : Type}

namespace Store

variable {s t : Store α} {a : Address} {now : Nat}

/-- How many packets wait in the entries. -/
def pending (s : Store α) : Nat := (s.entries.map (·.waiting.length)).sum

/-- No entry is twice in a store. -/
theorem Ordered.nodup (h : s.Ordered) : s.entries.Nodup := (Cache.nodup_addresses h).of_map _

/-- Ordered stores with the same members hold the same entries. -/
theorem Ordered.entries_eq_of_mem (hs : s.Ordered) (ht : t.Ordered)
    (h : ∀ e, e ∈ t.entries ↔ e ∈ s.entries) : t.entries = s.entries := by
  have hperm := (List.perm_ext_iff_of_nodup ht.nodup hs.nodup).mpr h
  refine hperm.eq_of_pairwise (fun x y _ _ hxy hyx => ?_) ht hs
  exact absurd hyx (Nat.lt_asymm hxy)

/-- Ordered stores in which the same is found hold the same entries. -/
theorem Ordered.entries_eq (hs : s.Ordered) (ht : t.Ordered) (h : ∀ a, t.find? a = s.find? a) :
    t.entries = s.entries :=
  hs.entries_eq_of_mem ht fun e => by rw [ht.mem_iff, hs.mem_iff, h]

/-- Ordered stores in which the same is found, and which agree in all else, are equal. -/
theorem Ordered.eq_of_find? (hs : s.Ordered) (ht : t.Ordered) (h : ∀ a, t.find? a = s.find? a)
    (hbounds : t.capacity = s.capacity ∧ t.queueCapacity = s.queueCapacity ∧
      t.tieBreak = s.tieBreak) (hnext : t.nextGeneration = s.nextGeneration) : t = s := by
  have hentries := hs.entries_eq ht h
  obtain ⟨hcapacity, hqueue, htie⟩ := hbounds
  cases s
  cases t
  simp_all

/-- An ordered store holds the entry that was put in and those of other addresses. -/
theorem Ordered.perm_put (h : s.Ordered) (e : Entry α) :
    (s.put e).entries.Perm (e :: (s.erase e.address).entries) := by
  have hnotin : e ∉ (s.erase e.address).entries := by simp [Store.erase]
  refine (List.perm_ext_iff_of_nodup (h.put e).nodup
    (List.nodup_cons.mpr ⟨hnotin, (h.erase e.address).nodup⟩)).mpr fun x => ?_
  rw [List.mem_cons, (h.put e).mem_iff, (h.erase e.address).mem_iff, find?_put, find?_erase]
  by_cases hx : x.address = e.address
  · simp [hx, eq_comm]
  · have hne : x ≠ e := fun heq => hx (congrArg _ heq)
    simp [hx, hne]

/-- An ordered store holds the entry of an address and those of the others. -/
theorem Ordered.perm_of_find? {e : Entry α} (h : s.Ordered) (hfind : s.find? a = some e) :
    s.entries.Perm (e :: (s.erase a).entries) := by
  obtain rfl := address_of_find? hfind
  exact perm_erase (Cache.nodup_addresses h) (mem_of_find? hfind)

/-- Erasing an address without an entry changes nothing. -/
theorem entries_erase_of_none (h : s.find? a = none) : (s.erase a).entries = s.entries := by
  refine List.filter_eq_self.mpr fun x hx => ?_
  have hx' := List.find?_eq_none.mp h x hx
  simpa using hx'

/-- Putting an entry in leaves what waits in the others. -/
theorem Ordered.pending_put (h : s.Ordered) (e : Entry α) :
    (s.put e).pending = e.waiting.length + (s.erase e.address).pending := by
  unfold pending
  rw [((h.perm_put e).map _).sum_eq, List.map_cons, List.sum_cons]

/-- What waits in a store waits for one address or for the others. -/
theorem Ordered.pending_eq (h : s.Ordered) (a : Address) :
    s.pending = (waitingIn (s.find? a)).length + (s.erase a).pending := by
  cases hfind : s.find? a with
  | none =>
    simp [pending, entries_erase_of_none hfind]
  | some e =>
    unfold pending
    rw [((h.perm_of_find? hfind).map _).sum_eq, List.map_cons, List.sum_cons, waitingIn_some]

/-- A new entry holds nothing. -/
private theorem pending_create (hs : s.Ordered) (hfind : s.find? a = none)
    (evicted : Option Evicted) : (s.create a now evicted).store.pending = s.pending := by
  have hput := hs.pending_put (.fresh a s.nextGeneration s.queueCapacity now)
  have hsplit := hs.pending_eq a
  rw [hfind, waitingIn_none, List.length_nil] at hsplit
  exact hput.trans hsplit.symm

/-- Neither the entry that is made nor the one that makes room for it holds anything. -/
theorem Claims.pending_eq {x : Claimed α} (h : s.Claims a now x) (hs : s.Ordered) :
    x.store.Ordered ∧ x.store.pending = s.pending := by
  cases h with
  | found => exact ⟨hs, rfl⟩
  | roomy hfind => exact ⟨hs.put _, pending_create hs hfind none⟩
  | @evicting v hfind _ hvictim =>
    obtain ⟨hmem, hevictable⟩ := victim?_mem hvictim
    have hsplit := hs.pending_eq v.address
    rw [(hs.mem_iff v).mp hmem, waitingIn_some, Entry.waiting_of_isEvictable hevictable,
      List.length_nil, Nat.zero_add] at hsplit
    have hfind' : (s.erase v.address).find? a = none := by rw [find?_erase, hfind, ite_self]
    exact ⟨(hs.erase _).put _, (pending_create (hs.erase _) hfind' _).trans hsplit.symm⟩

/-- Nothing waits in an entry that makes room. -/
theorem Ousts.droppedPending_eq_zero {t : Store α} {evicted : Option Evicted}
    (h : s.Ousts a evicted t) : ∀ ev, evicted = some ev → ev.droppedPending = 0 := by
  intro ev hev
  obtain ⟨_, _, v, _, hevictable, hdropped⟩ := h.evictable ev hev
  rw [hdropped, Entry.waiting_of_isEvictable hevictable, List.length_nil]

/-- A claimed entry that is changed and put back changes the count by what it held and holds. -/
theorem Claims.pending_put {x : Claimed α} {e : Entry α} (h : s.Claims a now x) (hs : s.Ordered)
    (haddress : e.address = a) :
    (x.store.put e).pending + x.entry.waiting.length = s.pending + e.waiting.length := by
  obtain ⟨hordered, hsame⟩ := h.pending_eq hs
  have hsplit := hordered.pending_eq a
  rw [h.find?_store, waitingIn_some] at hsplit
  rw [hordered.pending_put, haddress]
  omega

/-- An entry that is changed and put back changes the count by what it held and holds. -/
theorem Ordered.pending_replace {e e' : Entry α} (hs : s.Ordered) (hfind : s.find? a = some e)
    (haddress : e'.address = e.address) :
    (s.put e').pending + e.waiting.length = s.pending + e'.waiting.length := by
  have hsplit := hs.pending_eq a
  rw [hfind, waitingIn_some] at hsplit
  rw [hs.pending_put, haddress, address_of_find? hfind]
  omega

end Store

/-- How many packets were dropped with an entry that time acted on. -/
def Entry.Aging.dropped : Entry.Aging → Nat
  | .failed _ n => n
  | _ => 0

/-- What time takes from an entry is dropped. -/
theorem Entry.Passes.waiting_length {cfg : Config} {now : Nat} {e : Entry α} {aged : Aged α}
    (h : e.Passes cfg now aged) :
    aged.entry.waiting.length + aged.aging.dropped = e.waiting.length := by
  cases h with
  | idle | expired => rfl
  | gaveUp => exact Nat.zero_add _
  | reprobed _ hstatus | rechecked _ hstatus | checked _ hstatus | staled _ hstatus =>
    rw [waiting, waiting, hstatus]
    rfl

namespace Sweep

variable {cfg : Config} {now : Nat} {s t : Sweep α}

/-- A visit adds the packets that its entry drops. -/
@[simp] theorem droppedPending_note (aged : Entry.Aged α) :
    (s.note aged).droppedPending = s.droppedPending + aged.aging.dropped := by
  unfold note
  cases aged.aging <;> rfl

/-- In a sweep, what no longer waits has been dropped. -/
theorem pending_visitAll {order : List Address} (hs : s.store.Ordered)
    (h : s.visitAll cfg now order = .ok t) :
    t.store.Ordered ∧
      t.store.pending + t.droppedPending = s.store.pending + s.droppedPending := by
  induction order generalizing s with
  | nil =>
    cases h
    exact ⟨hs, rfl⟩
  | cons a rest ih =>
    rw [visitAll, List.foldlM_cons] at h
    rcases visit_cases cfg now s a with
      ⟨_, hfirst⟩ | ⟨e, aged, hfind, hpasses, hfirst | ⟨_, hfirst⟩⟩
    · rw [hfirst] at h
      exact ih hs h
    · rw [hfirst] at h
      have hnoted : (s.note aged).store.Ordered := store_note ▸ hs.put aged.entry
      obtain ⟨hordered, hrest⟩ := ih hnoted h
      have hput := hs.pending_replace hfind hpasses.address_eq
      have hlength := hpasses.waiting_length
      rw [store_note, droppedPending_note] at hrest
      exact ⟨hordered, by omega⟩
    · rw [hfirst] at h
      cases h

/-- Removing entries in which nothing waits leaves the count alone. -/
theorem pending_remaining (hs : s.store.Ordered)
    (h : ∀ a ∈ s.expired, waitingIn (s.store.find? a) = []) :
    s.remaining.pending = s.store.pending := by
  unfold remaining
  generalize s.expired = expired at h
  generalize s.store = store at hs h ⊢
  induction expired generalizing store with
  | nil => rfl
  | cons a rest ih =>
    have hsplit := hs.pending_eq a
    rw [h a List.mem_cons_self, List.length_nil, Nat.zero_add] at hsplit
    rw [List.foldl_cons, ih _ (hs.erase a) fun b hb => ?_, hsplit]
    rw [Store.find?_erase]
    split
    · rfl
    · exact h b (List.mem_cons_of_mem _ hb)

/-- Nothing waits in an expired entry. -/
theorem Sees.waitingIn_expired {order : List Address} {seen : List (Address × Entry.Aged α)}
    {store : Store α} {a : Address} (h : Sees cfg now { store } order t seen)
    (ha : a ∈ t.expired) : waitingIn (t.store.find? a) = [] := by
  rw [h.expired_eq] at ha
  obtain ⟨x, hx, rfl⟩ := List.mem_map.mp ha
  obtain ⟨hx, hexpiry⟩ := List.mem_filter.mp hx
  obtain ⟨e, _, hpasses, hafter⟩ := h.passes x hx
  rw [hafter, waitingIn_some]
  generalize x.2 = aged at hexpiry hpasses ⊢
  cases hpasses with
  | expired _ hstate =>
    refine Entry.waiting_of_state ?_
    rcases hstate with hstate | hstate <;> rw [hstate] <;> nofun
  | idle | reprobed | rechecked | checked | staled | gaveUp => cases hexpiry

/-- After a whole sweep, what no longer waits has been dropped. -/
theorem Sees.pending_eq {order : List Address} {seen : List (Address × Entry.Aged α)}
    {store : Store α} (h : Sees cfg now { store } order t seen) (hs : store.Ordered)
    (hvisit : visitAll cfg now { store } order = .ok t) :
    t.remaining.pending + t.droppedPending = store.pending := by
  obtain ⟨hordered, hpending⟩ := pending_visitAll (s := { store }) hs hvisit
  rw [pending_remaining hordered fun a ha => h.waitingIn_expired ha]
  exact hpending

end Sweep

end Neighbor
