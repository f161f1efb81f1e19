import Mathlib.Algebra.GroupWithZero.Nat
import Neighbor.Listing
import Neighbor.Proofs.Requests

/-!
# The listing shows the cache

A listing is made of the rows of all entries, in whatever order they come, and sorted by address.
The halving search looks each address up correctly because no two rows are for one address, which
holds of every cache that calls lead to. `Cache.Reached.listing_shows` says that a listing and the
cache it was made of agree on every address, and what can be read off a row.
-/

namespace Neighbor

variable {α : Type}

namespace Listing

variable {rows : Array Row} {row : Row} {a : Address} {lo hi : Nat}

/-- Addresses ascend strictly along the rows. -/
def Ascending (rows : List Row) : Prop := rows.Pairwise fun x y => x.address < y.address

/-- A later row has a greater address. -/
theorem Ascending.lt (h : Ascending rows.toList) {i j : Nat} (hj : j < rows.size) (hij : i < j) :
    rows[i].address < rows[j].address :=
  List.pairwise_iff_getElem.mp h i j (by simpa using Nat.lt_trans hij hj) (by simpa using hj) hij

/-- A row with a smaller address comes earlier. -/
theorem Ascending.lt_of_lt (h : Ascending rows.toList) {i j : Nat} (hi : i < rows.size)
    (hj : j < rows.size) (hlt : rows[i].address < rows[j].address) : i < j := by
  refine Nat.lt_of_not_le fun hle => ?_
  rcases Nat.lt_or_eq_of_le hle with hless | rfl
  · exact Nat.lt_asymm hlt (h.lt hi hless)
  · exact Nat.lt_irrefl _ hlt

/-- There is one row for an address. -/
theorem Ascending.eq_of_address_eq {x y : Row} (h : Ascending rows.toList) (hx : x ∈ rows)
    (hy : y ∈ rows) (haddress : x.address = y.address) : x = y := by
  obtain ⟨i, hi, rfl⟩ := Array.mem_iff_getElem.mp hx
  obtain ⟨j, hj, rfl⟩ := Array.mem_iff_getElem.mp hy
  have hvalue : rows[i].address.toNat = rows[j].address.toNat := congrArg Address.toNat haddress
  rcases Nat.lt_trichotomy i j with hij | rfl | hji
  · exact absurd hvalue (Nat.ne_of_lt (h.lt hj hij))
  · rfl
  · exact absurd hvalue.symm (Nat.ne_of_lt (h.lt hi hji))

/-- The search finds the row of an address if all rows of the address are between its positions. -/
theorem search_eq_some_iff (hs : Ascending rows.toList) (hhi : hi ≤ rows.size)
    (hinside : ∀ i (h : i < rows.size), rows[i].address = a → lo ≤ i ∧ i < hi) :
    search rows a lo hi = some row ↔ row ∈ rows ∧ row.address = a := by
  fun_induction search rows a lo hi with
  | case1 lo hi hlt mid hnone =>
    -- there is a row in the middle
    have hmid : rows.size ≤ mid := Array.getElem?_eq_none_iff.mp hnone
    omega
  | case2 lo hi hlt mid r hsome heq =>
    have hmem := Array.mem_of_getElem? hsome
    constructor
    · intro hfound
      cases hfound
      exact ⟨hmem, heq⟩
    · rintro ⟨hrow, haddress⟩
      rw [hs.eq_of_address_eq hmem hrow (heq.trans haddress.symm)]
  | case3 lo hi hlt mid r hsome hne hless ih =>
    obtain ⟨hmid, rfl⟩ := Array.getElem?_eq_some_iff.mp hsome
    refine ih hhi fun i hi haddress => ⟨?_, (hinside i hi haddress).2⟩
    exact hs.lt_of_lt hmid hi (haddress ▸ hless)
  | case4 lo hi hlt mid r hsome hne hless ih =>
    obtain ⟨hmid, rfl⟩ := Array.getElem?_eq_some_iff.mp hsome
    refine ih (by omega) fun i hi haddress => ⟨(hinside i hi haddress).1, ?_⟩
    have hgreater : a < rows[mid].address :=
      Nat.lt_of_le_of_ne (Nat.le_of_not_lt hless) fun h => hne (Address.toNat_inj.mp h).symm
    exact hs.lt_of_lt hi hmid (haddress ▸ hgreater)
  | case5 lo hi hlt =>
    refine iff_of_false nofun ?_
    rintro ⟨hmem, haddress⟩
    obtain ⟨i, hi, rfl⟩ := Array.mem_iff_getElem.mp hmem
    have hbetween := hinside i hi haddress
    omega

/-- A listing in which addresses ascend strictly gives the row of each address. -/
theorem find?_eq_some_iff {l : Listing} (hs : Ascending l.rows.toList) :
    l.find? a = some row ↔ row ∈ l.rows ∧ row.address = a :=
  search_eq_some_iff hs (Nat.le_refl _) fun i hi _ => ⟨Nat.zero_le i, hi⟩

/-- Every row is counted in one state. -/
theorem sum_count (l : Listing) : (State.all.map l.count).sum = l.rows.toList.length := by
  have hcount (rows : List Row) :
      (State.all.map fun s => (rows.filter fun r => r.state == s).length).sum = rows.length := by
    induction rows with
    | nil => rfl
    | cons r rest ih =>
      simp only [State.all, List.map_cons, List.map_nil, List.sum_cons, List.sum_nil] at ih ⊢
      cases hstate : r.state <;> simp [hstate] <;> omega
  exact hcount l.rows.toList

section OfRows

variable {entries entries' : List Row} {capacity : Nat}

/-- A listing has the rows of which it is made. -/
theorem ofRows_perm : (ofRows entries capacity).rows.toList.Perm entries :=
  List.mergeSort_perm entries _

/-- Rows for different addresses ascend strictly in a listing. -/
theorem ascending_ofRows (h : (entries.map (·.address)).Nodup) :
    Ascending (ofRows entries capacity).rows.toList := by
  have hsorted : (ofRows entries capacity).rows.toList.Pairwise
      fun x y => x.address ≤ y.address := by
    have hmerged : (entries.mergeSort fun x y => x.address ≤ y.address).Pairwise
        fun x y => decide (x.address ≤ y.address) = true := by
      refine List.pairwise_mergeSort (fun x y z hxy hyz => ?_) (fun x y => ?_) entries
      · simp only [decide_eq_true_eq, Address.le_def] at hxy hyz ⊢
        omega
      · simp only [Bool.or_eq_true, decide_eq_true_eq, Address.le_def]
        omega
    simpa [ofRows] using hmerged
  have hdistinct : (ofRows entries capacity).rows.toList.Pairwise
      fun x y => x.address ≠ y.address :=
    List.pairwise_map.mp ((ofRows_perm.map Row.address).nodup_iff.mpr h)
  exact hsorted.imp₂ (fun x y hle hne => Nat.lt_of_le_of_ne hle fun heq =>
    hne (Address.toNat_inj.mp heq)) hdistinct

/-- The order in which the rows come makes no difference. -/
theorem ofRows_eq (hperm : entries.Perm entries') (h : (entries.map (·.address)).Nodup) :
    ofRows entries capacity = ofRows entries' capacity := by
  have h' : (entries'.map (·.address)).Nodup := (hperm.map _).nodup_iff.mp h
  have hrows : (ofRows entries capacity).rows.toList = (ofRows entries' capacity).rows.toList := by
    refine List.Perm.eq_of_pairwise (fun x y _ _ hxy hyx => ?_) (ascending_ofRows h)
      (ascending_ofRows h') ((ofRows_perm.trans hperm).trans ofRows_perm.symm)
    exact absurd hxy (Nat.lt_asymm hyx)
  exact congrArg (Listing.mk · capacity) (Array.toList_inj.mp hrows)

end OfRows

/-- A listing shows a cache: it agrees with the cache on every address, and its rows are those of
the entries. -/
structure Shows (l : Listing) (c : Cache α) : Prop where
  find?_eq : ∀ a, l.find? a = c.row? a
  ascending : l.rows.toList.Pairwise fun x y => x.address.toNat < y.address.toNat
  rows_perm : l.rows.toList.Perm (c.store.entries.map (·.row))
  count_eq : (State.all.map l.count).sum = c.size
  bound_iff : ∀ row ∈ l.rows.toList,
    row.mac?.isSome = true ↔ row.state ∈ [.reachable, .stale, .delay, .probe]
  unresolved : ∀ row ∈ l.rows.toList, 0 < row.pending → row.state = .incomplete

end Listing

/-- The row of an entry shows a link address exactly in the resolved states. -/
theorem Entry.mac?_row_iff {e : Entry α} :
    e.row.mac?.isSome = true ↔ e.row.state ∈ [.reachable, .stale, .delay, .probe] := by
  change e.status.mac?.isSome = true ↔ e.status.state ∈ _
  rw [Status.isSome_mac?]
  cases e.status.state <;> decide

/-- Packets wait in unresolved entries only. -/
theorem Entry.state_of_pending {e : Entry α} (h : 0 < e.row.pending) :
    e.row.state = .incomplete := by
  by_contra hstate
  have hwaiting : e.waiting = [] := waiting_of_state hstate
  have hnone : e.row.pending = 0 := by simp [row, hwaiting]
  omega

namespace Cache

variable {c : Cache α} {a : Address} {row : Row}

/-- The row of an address is the one row for it. -/
theorem row?_eq_some_iff (hs : c.store.Ordered) :
    c.row? a = some row ↔ row ∈ c.store.entries.map (·.row) ∧ row.address = a := by
  rw [row?, Option.map_eq_some_iff, List.mem_map]
  constructor
  · rintro ⟨e, hfind, rfl⟩
    exact ⟨⟨e, Store.mem_of_find? hfind, rfl⟩, Store.address_of_find? hfind⟩
  · rintro ⟨⟨e, hmem, rfl⟩, rfl⟩
    exact ⟨e, (hs.mem_iff e).mp hmem, rfl⟩

/-- A listing made of the rows of all entries shows the cache. -/
theorem shows_ofRows {rows : List Row} {capacity : Nat} (hs : c.store.Ordered)
    (hrows : rows.Perm (c.store.entries.map (·.row))) :
    (Listing.ofRows rows capacity).Shows c := by
  have haddresses : (rows.map (·.address)).Nodup := by
    rw [(hrows.map (·.address)).nodup_iff, List.map_map]
    exact nodup_addresses hs
  have hascending : Listing.Ascending (Listing.ofRows rows capacity).rows.toList :=
    Listing.ascending_ofRows haddresses
  have hperm : (Listing.ofRows rows capacity).rows.toList.Perm (c.store.entries.map (·.row)) :=
    Listing.ofRows_perm.trans hrows
  refine ⟨fun a => ?_, hascending, hperm, ?_, fun row hrow => ?_, fun row hrow hpending => ?_⟩
  · ext row
    rw [Listing.find?_eq_some_iff hascending, row?_eq_some_iff hs, ← hperm.mem_iff,
      Array.mem_toList_iff]
  · rw [Listing.sum_count, hperm.length_eq, List.length_map]
    rfl
  · obtain ⟨e, _, rfl⟩ := List.mem_map.mp (hperm.mem_iff.mp hrow)
    exact Entry.mac?_row_iff
  · obtain ⟨e, _, rfl⟩ := List.mem_map.mp (hperm.mem_iff.mp hrow)
    exact Entry.state_of_pending hpending

/-- The listing of a cache that calls lead to shows it, and it is the same in whatever order the
entries come: it gives the row of every address, ascends strictly, holds the rows of the entries and
no others, and counts each in one state. A row has a link address exactly in the states that are
reachable, stale, in delay or under check, and packets that wait only while it is incomplete. -/
theorem Reached.listing_shows {cfg : Config} {start : Nat} {calls : List (Call α)}
    (h : c.Reached cfg start calls) :
    c.listing.Shows c ∧ ∀ rows : List Row, rows.Perm (c.store.entries.map (·.row)) →
      Listing.ofRows rows c.store.capacity = c.listing := by
  obtain ⟨hcoherent, _⟩ := h.coherent
  have hs := hcoherent.wellFormed.ordered
  refine ⟨shows_ofRows hs (.refl _), fun rows hrows => Listing.ofRows_eq hrows ?_⟩
  rw [(hrows.map (·.address)).nodup_iff, List.map_map]
  exact nodup_addresses hs

/-- A permanent binding, one learned, and an address for which a packet waits, out of order. -/
def assortment : List (Request Nat) :=
  [⟨.silent, 1, .observe ⟨10, 0, 0, 200⟩ ⟨2, 0, 0, 0, 0, 1⟩⟩,
    ⟨.silent, 2, .resolve ⟨10, 0, 0, 9⟩ 7⟩, ⟨.silent, 3, .pin ⟨9, 255, 0, 0⟩ ⟨2, 0, 0, 0, 0, 2⟩⟩]

/-- The row of the address that is being resolved is found between the others. -/
theorem Reached.listing_shows_of_assortment :
    let cfg : Config := { Config.brief with capacity := 3 }
    let c : Cache Nat := (Cache.create cfg 0 : Outcome Nat Unit).cache.serveAll assortment
    ∃ row, c.listing.find? ⟨10, 0, 0, 9⟩ = some row ∧ row.state = .incomplete ∧ row.pending = 1 ∧
      (State.all.map c.listing.count).sum = 3 := by
  intro cfg c
  have hreached : c.Reached cfg 0 (assortment.map (·.call)) :=
    reached_iff.mpr ⟨assortment, rfl, rfl⟩
  obtain ⟨hshows, _⟩ := Reached.listing_shows hreached
  obtain ⟨row, hrow, hstate, hpending⟩ :
      ∃ row ∈ c.row? ⟨10, 0, 0, 9⟩, row.state = .incomplete ∧ row.pending = 1 := by
    decide +kernel
  have hsize : c.size = 3 := by decide +kernel
  exact ⟨row, (hshows.find?_eq _).trans hrow, hstate, hpending, hshows.count_eq.trans hsize⟩

end Cache

end Neighbor
