import Neighbor.Proofs.Generation
import Neighbor.Proofs.Parcel

/-!
# The incarnations of an address

An address may lose its entry and get another one. The generation tells the two apart: no two
entries ever have the same one, and an address has entries of one generation at two points exactly
if its entry was not removed in between. What waited in a removed entry is gone for good: after a
removal by name, no packet that was offered before goes out. `Cache.incarnations` says all this of
every list of requests.
-/

namespace Neighbor

variable {α β : Type}

namespace Cache

variable {c : Cache α} {a b : Address} {q : Request α} {qs : List (Request α)} {e e' : Entry α}

/-- Whether a request takes the entry of `a` away, or puts a new one in its place. -/
def Removes (c : Cache α) (q : Request α) (a : Address) : Prop :=
  (c.store.find? a).isSome ∧
    ((c.serve q).left.store.find? a = none ∨ q.call.Renews c q.now a)

/-- No two addresses have entries of one generation. -/
def Distinct (c : Cache α) : Prop :=
  ∀ a b e e', c.store.find? a = some e → c.store.find? b = some e' →
    e.generation = e'.generation → a = b

/-- A request that makes an entry gives it a generation that no other has. -/
theorem Distinct.serve (h : c.Distinct) (hc : c.Coherent) (q : Request α) :
    (c.serve q).left.Distinct := by
  have hlt {a : Address} {e : Entry α} (hfind : c.store.find? a = some e) :
      e.generation < c.store.nextGeneration :=
    hc.wellFormed.generation_lt e (Store.mem_of_find? hfind)
  intro a b e e' ha hb hsame
  by_cases hanew : a ∈ c.newcomers q
  · obtain ⟨hgeneration, hsubject⟩ := hc.of_newcomer hanew ha
    by_cases hbnew : b ∈ c.newcomers q
    · exact Option.some.inj (hsubject.symm.trans (hc.of_newcomer hbnew hb).2)
    · obtain ⟨old, hold, hkept, _⟩ := hc.of_not_newcomer hbnew hb
      have := hlt hold
      omega
  · obtain ⟨old, hold, hkept, _⟩ := hc.of_not_newcomer hanew ha
    have := hlt hold
    by_cases hbnew : b ∈ c.newcomers q
    · have := (hc.of_newcomer hbnew hb).1
      omega
    · obtain ⟨old', hold', hkept', _⟩ := hc.of_not_newcomer hbnew hb
      exact h a b old old' hold hold' (by omega)

/-- Entries that are there at the same time have distinct generations. -/
theorem distinct_serveAll (cfg : Config) (qs : List (Request α)) :
    ((empty cfg : Cache α).serveAll qs).Distinct := by
  refine (serveAll_induction (P := fun d : Cache α => d.Coherent ∧ d.Distinct)
    (fun d q _ hd => ?_) ⟨empty_coherent cfg, fun _ _ _ _ hfind => by cases hfind⟩).2
  exact ⟨(hd.1.serve q).1, hd.2.serve hd.1 q⟩

/-- An entry that no request removes keeps its generation. -/
theorem Coherent.generation_kept (hc : c.Coherent) (hfind : c.store.find? a = some e)
    (hkeep : ∀ xs q ys, qs = xs ++ q :: ys → ¬(c.serveAll xs).Removes q a) :
    ∃ e', (c.serveAll qs).store.find? a = some e' ∧ e'.generation = e.generation := by
  induction qs generalizing c e with
  | nil => exact ⟨e, hfind, rfl⟩
  | cons q rest ih =>
    have hfirst : ¬c.Removes q a := hkeep [] q rest rfl
    rw [Removes, hfind, not_and, not_or] at hfirst
    obtain ⟨hstays, hrenews⟩ := hfirst rfl
    obtain ⟨e₁, hfind₁⟩ := Option.ne_none_iff_exists'.mp hstays
    have hnotnew : a ∉ c.newcomers q := by
      rw [mem_newcomers_iff, hfind]
      rintro ⟨_, hnone | hnew⟩
      · cases hnone
      · exact hrenews hnew
    obtain ⟨old, hold, hgeneration, _⟩ := hc.of_not_newcomer hnotnew hfind₁
    cases hfind.symm.trans hold
    obtain ⟨e', hfind', hkept⟩ := ih (hc.serve q).1 hfind₁ fun xs q' ys hsplit =>
      hkeep (q :: xs) q' ys (by rw [hsplit, List.cons_append])
    exact ⟨e', hfind', hkept.trans hgeneration⟩

/-- Every entry that `a` has or will have is of generation `n` or later. -/
structure Since (c : Cache α) (n : Nat) (a : Address) : Prop where
  next : n ≤ c.store.nextGeneration
  entry : ∀ e, c.store.find? a = some e → n ≤ e.generation

/-- A request gives an address no entry of an earlier generation. -/
theorem Since.serve {n : Nat} (h : c.Since n a) (hc : c.Coherent) (q : Request α) :
    (c.serve q).left.Since n a := by
  refine ⟨?_, fun e hafter => ?_⟩
  · rw [hc.nextGeneration_serve q]
    exact Nat.le_add_right_of_le h.next
  · by_cases hnew : a ∈ c.newcomers q
    · rw [(hc.of_newcomer hnew hafter).1]
      exact h.next
    · obtain ⟨old, hold, hgeneration, _⟩ := hc.of_not_newcomer hnew hafter
      rw [hgeneration]
      exact h.entry old hold

/-- No list of requests gives an address an entry of an earlier generation. -/
theorem Since.serveAll {n : Nat} (h : c.Since n a) (hc : c.Coherent) (qs : List (Request α)) :
    (c.serveAll qs).Since n a := by
  refine (serveAll_induction (P := fun d : Cache α => d.Coherent ∧ d.Since n a)
    (fun d q _ hd => ?_) ⟨hc, h⟩).2
  exact ⟨(hd.1.serve q).1, hd.2.serve hd.1 q⟩

/-- Once an entry is removed, its address has later generations only. -/
theorem Coherent.since_of_removes (hc : c.Coherent) (h : c.Removes q a) :
    (c.serve q).left.Since c.store.nextGeneration a := by
  have hnext := hc.nextGeneration_serve q
  refine ⟨by omega, fun e hafter => ?_⟩
  rcases h.2 with hgone | hrenews
  · cases hafter.symm.trans hgone
  · have hnew := mem_newcomers_iff.mpr ⟨⟨e, hafter⟩, .inr hrenews⟩
    exact Nat.le_of_eq (hc.of_newcomer hnew hafter).1.symm

/-- The generation of an address is the same at two points exactly if its entry was not removed in
between. -/
theorem Coherent.generation_eq_iff (hc : c.Coherent) (hfind : c.store.find? a = some e)
    (hfind' : (c.serveAll qs).store.find? a = some e') :
    e.generation = e'.generation ↔
      ∀ xs q ys, qs = xs ++ q :: ys → ¬(c.serveAll xs).Removes q a := by
  constructor
  · rintro hsame xs q ys rfl hremoves
    obtain ⟨hd, _⟩ := hc.serveAll xs
    have hsince := (hd.since_of_removes hremoves).serveAll (hd.serve q).1 ys
    rw [serveAll_append, serveAll_cons] at hfind'
    have hlater := hsince.entry e' hfind'
    have hearlier := hc.wellFormed.generation_lt e (Store.mem_of_find? hfind)
    have hmoved := hc.nextGeneration_serveAll xs
    omega
  · intro hkeep
    obtain ⟨e'', hfind'', hgeneration⟩ := hc.generation_kept hfind hkeep
    cases hfind'.symm.trans hfind''
    exact hgeneration.symm

/-- What waits after some requests waited before them or was offered by one of them. -/
theorem Coherent.waitingAt_serveAll (hc : c.Coherent) (qs : List (Request α)) (a : Address) :
    ((c.serveAll qs).waitingAt a).Sublist (c.waitingAt a ++ offered a (qs.map (·.call))) := by
  induction qs generalizing c with
  | nil => simp [offered]
  | cons q rest ih =>
    have hfirst := (perform_follows hc q.responder q.now q.call).waitingAt_sublist a
    refine (ih (hc.serve q).1).trans ?_
    change List.Sublist _ (c.waitingAt a ++ (q.call.offers a ++ offered a (rest.map (·.call))))
    rw [← List.append_assoc]
    exact hfirst.append_right _

/-- A packet that goes out waited for an address or is offered for it. -/
theorem Coherent.packet_source (hc : c.Coherent) {packet : α} {mac : Mac}
    (h : .packet packet mac ∈ (c.serve q).sent) :
    ∃ a, packet ∈ c.waitingAt a ++ q.call.offers a := by
  obtain ⟨sent, hserves⟩ := hc.serves q
  obtain ⟨a, hshare⟩ := hserves.exists_share h
  exact ⟨a, ((hserves.effect a).station_of_packet hshare).1⟩

end Cache

/-- The call removes the entry of `a` by name. -/
def Call.clears (a : Address) : Call α → Bool
  | .invalidate b => b == a
  | .invalidateAll => true
  | _ => false

/-- Nothing waits for an address after its removal. -/
theorem Cache.waitingAt_of_clears {c : Cache α} {q : Request α} {a : Address}
    (h : q.call.clears a = true) : (c.serve q).left.waitingAt a = [] := by
  obtain ⟨r, now, call⟩ := q
  apply waitingAt_of_none
  cases call with
  | invalidate b =>
    have hsame : b = a := by simpa [Call.clears] using h
    subst hsame
    change (c.invalidate b).cache.store.find? b = none
    rw [store_invalidate, Store.find?_erase, if_pos rfl]
  | invalidateAll => rfl
  | resolve | observe | confirm | pin | tick | receive => cases h

/-- The same request with its packet marked as offered by request number `i`. -/
def Request.mark (i : Nat) (q : Request β) : Request (Parcel β) :=
  ⟨q.responder, q.now, q.call.mark i⟩

/-- Requests with their packets marked. -/
def markedRequests (qs : List (Request β)) : List (Request (Parcel β)) := qs.mapIdx Request.mark

/-- A marked packet is offered for its address by the request of its position. -/
theorem of_mem_offered_marked {qs : List (Request β)} {xs ys : List (Request (Parcel β))}
    {a : Address} {p : Parcel β} (hsplit : markedRequests qs = xs ++ ys)
    (h : p ∈ offered a (ys.map (·.call))) : xs.length ≤ p.position ∧ p.address = a := by
  obtain ⟨call, hcall, hoffers⟩ := List.mem_flatMap.mp h
  obtain ⟨q, hq, rfl⟩ := List.mem_map.mp hcall
  obtain ⟨i, hi⟩ := List.mem_iff_getElem?.mp hq
  have hget : (markedRequests qs)[xs.length + i]? = some q := by
    rw [hsplit, List.getElem?_append_right (Nat.le_add_right _ _), Nat.add_sub_cancel_left, hi]
  rw [markedRequests, List.getElem?_mapIdx] at hget
  obtain ⟨⟨r, now, call⟩, _, rfl⟩ := Option.map_eq_some_iff.mp hget
  cases call with
  | resolve b packet =>
    simp only [Request.mark, Call.mark, Call.offers] at hoffers
    split at hoffers
    · next hb =>
      rw [List.mem_singleton.mp hoffers]
      exact ⟨Nat.le_add_right _ _, hb⟩
    · cases hoffers
  | observe | confirm | pin | tick | invalidate | invalidateAll | receive => cases hoffers

/-- After the removal of its address by name, a packet that goes out was offered later. -/
theorem offered_after_clears {cfg : Config} {qs : List (Request β)}
    {xs ys zs : List (Request (Parcel β))} {q t : Request (Parcel β)} {p : Parcel β} {mac : Mac}
    (hsplit : markedRequests qs = xs ++ q :: (ys ++ t :: zs))
    (hclears : q.call.clears p.address = true)
    (hsent : .packet p mac ∈
      (((Cache.empty cfg : Cache (Parcel β)).serveAll (xs ++ q :: ys)).serve t).sent) :
    xs.length < p.position := by
  have hempty := Cache.empty_coherent (α := Parcel β) cfg
  obtain ⟨hcleared, _⟩ := (hempty.serveAll xs).1.serve q
  obtain ⟨a, hmem⟩ := (hempty.serveAll (xs ++ q :: ys)).1.packet_source hsent
  have hlater {rs : List (Request (Parcel β))} (h : p ∈ offered a (rs.map (·.call)) ∨
      p ∈ t.call.offers a) : p ∈ offered a ((rs ++ t :: zs).map (·.call)) := by
    rw [List.map_append, offered, List.flatMap_append, List.map_cons, List.flatMap_cons]
    rcases h with h | h
    · exact List.mem_append_left _ h
    · exact List.mem_append_right _ (List.mem_append_left _ h)
  -- the packet was offered for the address for which it goes out, so that is the one removed
  have haddress : p.address = a := by
    have hall : markedRequests qs = [] ++ ((xs ++ q :: ys) ++ t :: zs) := by simpa using hsplit
    refine (of_mem_offered_marked hall (hlater ?_)).2
    rcases List.mem_append.mp hmem with hwaiting | hoffers
    · exact .inl ((hempty.waitingAt_serveAll (xs ++ q :: ys) a).subset hwaiting)
    · exact .inr hoffers
  rw [haddress] at hclears
  have hrest : markedRequests qs = (xs ++ [q]) ++ (ys ++ t :: zs) := by simpa using hsplit
  have hposition := (of_mem_offered_marked hrest (hlater ?_)).1
  · rw [List.length_append, List.length_singleton] at hposition
    omega
  · rcases List.mem_append.mp hmem with hwaiting | hoffers
    · rw [Cache.serveAll_append, Cache.serveAll_cons] at hwaiting
      have hmem := (hcleared.waitingAt_serveAll ys a).subset hwaiting
      rw [Cache.waitingAt_of_clears hclears, List.nil_append] at hmem
      exact .inl hmem
    · exact .inr hoffers

/-- What the generations of entries tell in any list of requests, those that install the configured
bindings included. The counter is one more than the number of entries made; a new entry has a
greater generation than every entry so far; entries that are there together have distinct ones; an
address has the same one at two points exactly if its entry was not removed in between; and a packet
that goes out after the removal of its address by name was offered after it. -/
theorem Cache.incarnations (cfg : Config) :
    (∀ qs : List (Request α),
      ((empty cfg).serveAll qs).store.nextGeneration = 1 + (empty cfg).creations qs) ∧
    (∀ (xs ys : List (Request α)) (q : Request α) (a : Address) (e : Entry α),
      a ∈ ((empty cfg).serveAll (xs ++ ys)).newcomers q →
      (((empty cfg).serveAll (xs ++ ys)).serve q).left.store.find? a = some e →
      ∀ b e', ((empty cfg).serveAll xs).store.find? b = some e' → e'.generation < e.generation) ∧
    (∀ (qs : List (Request α)) (a b : Address) (e e' : Entry α), a ≠ b →
      ((empty cfg).serveAll qs).store.find? a = some e →
      ((empty cfg).serveAll qs).store.find? b = some e' → e.generation ≠ e'.generation) ∧
    (∀ (xs ys : List (Request α)) (a : Address) (e e' : Entry α),
      ((empty cfg).serveAll xs).store.find? a = some e →
      ((empty cfg).serveAll (xs ++ ys)).store.find? a = some e' →
      (e.generation = e'.generation ↔ ∀ vs q ws, ys = vs ++ q :: ws →
        ¬((empty cfg).serveAll (xs ++ vs)).Removes q a)) ∧
    ∀ (qs : List (Request α)) (xs ys zs : List (Request (Parcel α)))
      (q t : Request (Parcel α)) (p : Parcel α) (mac : Mac),
      markedRequests qs = xs ++ q :: (ys ++ t :: zs) → q.call.clears p.address = true →
      .packet p mac ∈ (((empty cfg).serveAll (xs ++ q :: ys)).serve t).sent →
      xs.length < p.position := by
  have hempty := empty_coherent (α := α) cfg
  refine ⟨fun qs => hempty.nextGeneration_serveAll qs, fun xs ys q a e hnew hfind b e' hfind' => ?_,
    fun qs a b e e' hne hfind hfind' hsame => ?_, fun xs ys a e e' hfind hfind' => ?_,
    fun qs xs ys zs q t p mac hsplit hclears hsent => offered_after_clears hsplit hclears hsent⟩
  · obtain ⟨hearlier, _⟩ := hempty.serveAll xs
    have hgeneration := ((hempty.serveAll (xs ++ ys)).1.of_newcomer hnew hfind).1
    rw [serveAll_append, hearlier.nextGeneration_serveAll ys] at hgeneration
    have hlt := hearlier.wellFormed.generation_lt e' (Store.mem_of_find? hfind')
    omega
  · exact hne (distinct_serveAll cfg qs a b e e' hfind hfind' hsame)
  · rw [serveAll_append] at hfind'
    rw [(hempty.serveAll xs).1.generation_eq_iff hfind hfind']
    simp only [serveAll_append]

/-- An address that is resolved, removed by name and learned again has another generation, and the
packet that waited before the removal is gone. -/
theorem Cache.incarnations_of_return :
    let a : Address := ⟨10, 0, 0, 1⟩
    let before : List (Request Nat) := [⟨.silent, 1, .resolve a 7⟩]
    let removal : Request Nat := ⟨.silent, 2, .invalidate a⟩
    let after : List (Request Nat) := [⟨.silent, 3, .observe a ⟨2, 0, 0, 0, 0, 1⟩⟩]
    ∃ e ∈ ((empty .brief).serveAll before).store.find? a,
      ∃ e' ∈ ((empty .brief).serveAll (before ++ removal :: after)).store.find? a,
        e.waiting = [7] ∧ e'.waiting = [] ∧ e.generation ≠ e'.generation := by
  intro a before removal after
  obtain ⟨_, _, _, hkept, _⟩ := incarnations (α := Nat) .brief
  have hentries : ∃ e ∈ ((empty .brief).serveAll before).store.find? a,
      ∃ e' ∈ ((empty .brief).serveAll (before ++ removal :: after)).store.find? a,
        e.waiting = [7] ∧ e'.waiting = [] := by
    decide +kernel
  have hremoves : ((empty .brief).serveAll (before ++ [])).Removes removal a :=
    ⟨by decide +kernel, .inl (by decide +kernel)⟩
  obtain ⟨e, he, e', he', hbefore, hafter⟩ := hentries
  refine ⟨e, he, e', he', hbefore, hafter, fun hsame => ?_⟩
  exact (hkept before (removal :: after) a e e' he he').mp hsame [] removal after rfl hremoves

end Neighbor
