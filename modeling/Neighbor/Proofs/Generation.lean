import Neighbor.Proofs.Descent

/-!
# The numbering of entries

The counter of generations moves by one for each new entry and for nothing else: not when a claim
fails, not when an answer to a probe is learned, and not when time passes. So the counter is ahead
of its start by the number of entries made so far (`Coherent.nextGeneration_serveAll`), and as long
as these are fewer than `2^64 - 1` a 64-bit word holds it.
-/

namespace Neighbor

variable {α : Type}

/-- The generation of a claimed entry that is new is the next one. -/
theorem Store.Claims.numbers {s : Store α} {a : Address} {now : Nat} {x : Claimed α}
    (h : s.Claims a now x) :
    x.store.nextGeneration = s.nextGeneration ∨
      x.store.nextGeneration = s.nextGeneration + 1 ∧ x.entry.generation = s.nextGeneration := by
  cases h with
  | found => exact .inl rfl
  | roomy | evicting => exact .inr ⟨rfl, rfl⟩

namespace Sweep

variable {cfg : Config} {now : Nat} {s t : Sweep α}

/-- A sweep makes no entry. -/
theorem nextGeneration_visitAll {order : List Address}
    (h : s.visitAll cfg now order = .ok t ∨ s.visitAll cfg now order = .error t) :
    t.store.nextGeneration = s.store.nextGeneration := by
  induction order generalizing s with
  | nil =>
    rcases h with h | h <;> cases h
    rfl
  | cons a rest ih =>
    rw [visitAll, List.foldlM_cons] at h
    rcases visit_cases cfg now s a with
      ⟨_, hfirst⟩ | ⟨e, aged, _, _, hfirst | ⟨_, hfirst⟩⟩
    · rw [hfirst] at h
      exact ih h
    · rw [hfirst] at h
      rw [ih h, store_note]
      rfl
    · rw [hfirst] at h
      rcases h with h | h <;> cases h
      rfl

/-- The removals at the end of a tick leave the counter of generations alone. -/
@[simp] theorem nextGeneration_remaining :
    s.remaining.nextGeneration = s.store.nextGeneration := by
  unfold remaining
  generalize s.expired = expired
  generalize s.store = store
  induction expired generalizing store with
  | nil => rfl
  | cons a rest ih => exact ih (store.erase a)

end Sweep

namespace Cache

variable {c d d' : Cache α} {r : Responder} {now : Nat} {a : Address} {mac : Mac}
  {q : Request α} {qs : List (Request α)}

/-- No entry was made or removed between `c` and `d`. -/
structure SameEntries (c d : Cache α) : Prop where
  nextGeneration_eq : d.store.nextGeneration = c.store.nextGeneration
  generation_eq : ∀ a, (d.store.find? a).map (·.generation) = (c.store.find? a).map (·.generation)

namespace SameEntries

/-- No entry is made or removed if the store is the same. -/
theorem of_store_eq (h : d.store = c.store) : c.SameEntries d := ⟨by rw [h], fun _ => by rw [h]⟩

/-- No entry is made or removed by two steps that make and remove none. -/
theorem trans (h : c.SameEntries d) (h' : d.SameEntries d') : c.SameEntries d' :=
  ⟨h'.nextGeneration_eq.trans h.nextGeneration_eq,
    fun a => (h'.generation_eq a).trans (h.generation_eq a)⟩

/-- An address that has an entry still has one. -/
theorem isSome_find? (h : c.SameEntries d) (ha : (c.store.find? a).isSome) :
    (d.store.find? a).isSome := by
  have hgeneration := congrArg Option.isSome (h.generation_eq a)
  rw [Option.isSome_map, Option.isSome_map] at hgeneration
  exact hgeneration.trans ha

/-- An entry that is changed and put back. -/
theorem of_put {old e : Entry α} (hfind : c.store.find? a = some old)
    (haddress : e.address = old.address) (hgeneration : e.generation = old.generation)
    (hstore : d.store = c.store.put e) : c.SameEntries d := by
  refine ⟨by rw [hstore]; rfl, fun b => ?_⟩
  rw [hstore, Store.find?_put, haddress, Store.address_of_find? hfind]
  split
  · next hb =>
    rw [hb, hfind]
    exact congrArg some hgeneration
  · rfl

/-- Evidence for an address that has an entry. -/
theorem observe (h : (c.store.find? a).isSome) (now : Nat) (mac : Mac) :
    c.SameEntries (c.observe now a mac).left := by
  obtain ⟨e, hfind⟩ := Option.isSome_iff_exists.mp h
  have hobserved := c.observe_observed now a mac
  generalize c.observe now a mac = attempt at hobserved ⊢
  cases hobserved with
  | ignored _ hleft => rcases hleft with rfl | rfl <;> exact .of_store_eq rfl
  | learned _ hclaims =>
    cases hclaims with
    | found hfind' =>
      cases hfind.symm.trans hfind'
      exact of_put (e := e.bound c.config mac now) hfind rfl rfl (by simp)
    | roomy hnone | evicting hnone => cases hfind.symm.trans hnone
  | halted _ hclaims =>
    cases hclaims with
    | found hfind' =>
      cases hfind.symm.trans hfind'
      exact of_put (e := (e.bound c.config mac now).withDeadlineOf e) hfind rfl rfl rfl
    | roomy hnone | evicting hnone => cases hfind.symm.trans hnone

/-- Items are handed over whose targets have entries. -/
theorem handOver (r : Responder) (now : Nat) {items : List (Outbound α)}
    (h : ∀ target, .broadcastProbe target ∈ items → (c.store.find? target).isSome) :
    c.SameEntries (handOver r now c items).left := by
  induction items generalizing c with
  | nil => exact .of_store_eq rfl
  | cons item rest ih =>
    have hcounted : c.SameEntries (c.countItem item) := .of_store_eq (by simp)
    unfold Cache.handOver
    split
    · rw [Attempt.left_sentAfter]
      exact hcounted.trans (ih fun target hmem =>
        hcounted.isSome_find? (h target (List.mem_cons_of_mem _ hmem)))
    · next target mac hreply =>
      have htarget : item = .broadcastProbe target := by
        cases item with
        | broadcastProbe b =>
          obtain ⟨_, _, heq⟩ := Option.map_eq_some_iff.mp hreply
          cases heq
          rfl
        | unicastProbe | packet => cases hreply
      have hlearned := hcounted.trans
        (observe (hcounted.isSome_find? (h target (htarget ▸ List.mem_cons_self))) now mac)
      split
      · next hobserve =>
        rw [hobserve] at hlearned
        exact hlearned
      · next hobserve =>
        rw [hobserve] at hlearned
        rw [Attempt.left_sentAfter]
        exact hlearned.trans (ih fun b hmem =>
          hlearned.isSome_find? (h b (List.mem_cons_of_mem _ hmem)))

/-- The probes of a sweep are handed over. -/
theorem handOver_swept {order : List Address} {t : Sweep α}
    {seen : List (Address × Entry.Aged α)} (hc : c.Coherent) (hnodup : order.Nodup)
    (hsees : Sweep.Sees c.config now { store := c.store } order t seen) (r : Responder) :
    (c.swept t).SameEntries (Cache.handOver r now (c.swept t) t.probes).left :=
  handOver r now fun _ hitem =>
    hsees.asked hnodup hc.dynamic hitem

end SameEntries

/-- A tick makes no entry. -/
theorem nextGeneration_of_tick {order : List Address} {o : Outcome α TickReport}
    (hc : c.Coherent) (horder : order.Perm c.store.addresses)
    (h : c.tickInOrder r now order = .ok o) :
    o.cache.store.nextGeneration = c.store.nextGeneration := by
  have hnodup := nodup_order hc.wellFormed.ordered horder
  obtain ⟨t, seen, o', hvisit, hsees, hhand, hcache, _⟩ := sweeps_of_tick hnodup h
  have hsame := SameEntries.handOver_swept hc hnodup hsees r
  rw [hhand] at hsame
  rw [hcache]
  exact hsame.nextGeneration_eq.trans
    (Sweep.nextGeneration_remaining.trans (Sweep.nextGeneration_visitAll (.inl hvisit)))

/-- Between `c` and `d` the counter of generations stayed, or moved by one for an entry that is
there. -/
def Numbers (c d : Cache α) : Prop :=
  d.store.nextGeneration = c.store.nextGeneration ∨
    d.store.nextGeneration = c.store.nextGeneration + 1 ∧
      ∃ a e, d.store.find? a = some e ∧ e.generation = c.store.nextGeneration

namespace Numbers

/-- The counter of generations stays if the store does. -/
theorem of_store_eq (h : d.store = c.store) : c.Numbers d := .inl (by rw [h])

/-- A step that makes no entry adds nothing to what the counter of generations says. -/
theorem sameEntries (h : c.Numbers d) (h' : d.SameEntries d') : c.Numbers d' := by
  rcases h with hsame | ⟨hnext, a, e, hfind, hgeneration⟩
  · exact .inl (h'.nextGeneration_eq.trans hsame)
  · refine .inr ⟨h'.nextGeneration_eq.trans hnext, a, ?_⟩
    have hafter := h'.generation_eq a
    rw [hfind] at hafter
    obtain ⟨e', hfind', hgeneration'⟩ := Option.map_eq_some_iff.mp hafter
    exact ⟨e', hfind', hgeneration'.trans hgeneration⟩

/-- A claimed entry that is changed and put back. -/
theorem of_claims {s : Store α} {x : Store.Claimed α} {e : Entry α} (hclaims : s.Claims a now x)
    (hs : s.nextGeneration = c.store.nextGeneration) (haddress : e.address = x.entry.address)
    (hgeneration : e.generation = x.entry.generation) (hstore : d.store = x.store.put e) :
    c.Numbers d := by
  rw [Numbers, hstore, ← hs]
  rcases hclaims.numbers with hsame | ⟨hnext, hnew⟩
  · exact .inl hsame
  · refine .inr ⟨hnext, a, e, ?_, hgeneration.trans hnew⟩
    exact Store.find?_put_of_address _ (haddress.trans hclaims.address_eq)

/-- Evidence moves the counter of generations for a new entry only. -/
theorem observe (c : Cache α) (now : Nat) (a : Address) (mac : Mac) :
    c.Numbers (c.observe now a mac).left := by
  have hobserved := c.observe_observed now a mac
  generalize c.observe now a mac = attempt at hobserved ⊢
  cases hobserved with
  | ignored _ hleft => rcases hleft with rfl | rfl <;> exact .of_store_eq rfl
  | @learned x _ hclaims =>
    exact of_claims (e := x.entry.bound c.config mac now) hclaims rfl rfl rfl (by simp)
  | @halted x _ hclaims =>
    exact of_claims (e := (x.entry.bound c.config mac now).withDeadlineOf x.entry) hclaims rfl rfl
      rfl rfl

/-- A hint moves the counter of generations for a new entry only. -/
theorem confirm (c : Cache α) (now : Nat) (a : Address) :
    c.Numbers (c.confirm now a).left := by
  have hhinted := c.confirm_hinted now a
  generalize c.confirm now a = attempt at hhinted ⊢
  cases hhinted with
  | ignored | counted | halted => exact .inl rfl

/-- A permanent binding moves the counter of generations for a new entry only. -/
theorem pin (c : Cache α) (now : Nat) (a : Address) (mac : Mac) :
    c.Numbers (c.pin now a mac).cache := by
  have hpinned := c.pin_pinned now a mac
  generalize c.pin now a mac = o at hpinned ⊢
  cases hpinned with
  | refused => exact .of_store_eq rfl
  | @pinned x hclaims =>
    exact of_claims (e := (x.entry.pin mac now).1) hclaims rfl rfl rfl (by simp)

/-- Resolving an address moves the counter of generations for a new entry only. -/
theorem resolve (hs : c.store.WellFormed) (r : Responder) (now : Nat) (a : Address) (packet : α) :
    c.Numbers (c.resolve r now a packet).left := by
  have hplaced := resolve_placed hs r now a packet
  generalize c.resolve r now a packet = attempt at hplaced ⊢
  cases hplaced with
  | refused | noRoom | passed | parked | unused => exact .inl rfl
  | @opened x hvacant hclaims =>
    rw [Attempt.left_mapAnswer]
    have hopened : (c.opening now a packet).generation = x.entry.generation := by
      rw [hvacant.entry_eq hclaims]
      rfl
    have hmade (d : Cache α) (hstore : d.store = x.store.put (c.opening now a packet)) :
        c.Numbers d :=
      of_claims hclaims nextGeneration_withoutFailed hclaims.address_eq.symm hopened hstore
    refine (hmade _ (by simp)).sameEntries (.handOver r now fun target hmem => ?_)
    cases List.mem_singleton.mp hmem
    have haddress : (c.opening now a packet).address = a := rfl
    simp [haddress]
  | @unopened x hvacant hclaims =>
    refine of_claims hclaims nextGeneration_withoutFailed hclaims.address_eq.symm ?_ rfl
    rw [hvacant.entry_eq hclaims]
    rfl

/-- A tick moves the counter of generations for a new entry only. -/
theorem tick (hc : c.Coherent) (r : Responder) (now : Nat) : c.Numbers (c.tick r now).left := by
  have hnodup := nodup_addresses hc.wellFormed.ordered
  unfold Cache.tick tickInOrder
  split
  · next t hvisit => exact .inl (Sweep.nextGeneration_visitAll (.inr hvisit))
  · next t hvisit =>
    rw [Attempt.left_warnedAfter, Attempt.left_mapAnswer]
    obtain ⟨seen, hsees⟩ := Sweep.sees_of_visitAll hnodup hvisit
    have hswept : c.Numbers (c.swept t) :=
      .inl (Sweep.nextGeneration_remaining.trans (Sweep.nextGeneration_visitAll (.inl hvisit)))
    exact hswept.sameEntries (.handOver_swept hc hnodup hsees r)

end Numbers

/-- A request moves the counter of generations at most by one. -/
theorem Coherent.numbers (hc : c.Coherent) (q : Request α) : c.Numbers (c.serve q).left := by
  obtain ⟨r, now, call⟩ := q
  unfold Cache.serve
  cases call with
  | resolve a packet =>
    change c.Numbers (Attempt.mapAnswer _ (c.resolve r now a packet)).left
    rw [Attempt.left_mapAnswer]
    exact .resolve hc.wellFormed r now a packet
  | observe a mac =>
    change c.Numbers (Attempt.mapAnswer _ (c.observe now a mac)).left
    rw [Attempt.left_mapAnswer]
    exact .observe c now a mac
  | confirm a =>
    change c.Numbers (Attempt.mapAnswer _ (c.confirm now a)).left
    rw [Attempt.left_mapAnswer]
    exact .confirm c now a
  | pin a mac => exact .pin c now a mac
  | tick =>
    change c.Numbers (Attempt.mapAnswer _ (c.tick r now)).left
    rw [Attempt.left_mapAnswer]
    exact .tick hc r now
  | invalidate a =>
    refine .inl ?_
    change (c.invalidate a).cache.store.nextGeneration = _
    rw [store_invalidate]
    rfl
  | invalidateAll => exact .inl rfl
  | receive host bytes =>
    change c.Numbers (Attempt.mapAnswer _ (c.receive now host bytes)).left
    rw [Attempt.left_mapAnswer]
    rcases c.receive_cases now host bytes with ⟨a, mac, f, _, hreceive⟩ | ⟨_, o, hreceive, hsame, _⟩
    · rw [hreceive, Attempt.left_mapAnswer]
      exact .observe c now a mac
    · rw [hreceive]
      exact .of_store_eq (congrArg store hsame)

instance (c : Cache α) (now : Nat) (a : Address) : Decidable (c.Vacant now a) :=
  inferInstanceAs (Decidable (∀ e ∈ c.store.find? a,
    e.state = .failed ∧ ∀ t ∈ e.deadline, t ≤ now))

instance (c : Cache α) (now : Nat) (a : Address) (call : Call α) :
    Decidable (call.Renews c now a) :=
  match call with
  | .resolve b packet =>
    if h : b = a ∧ c.Vacant now a then .isTrue ⟨packet, by rw [h.1], h.2⟩
    else .isFalse fun ⟨_, hcall, hvacant⟩ => h ⟨by cases hcall; rfl, hvacant⟩
  | .observe _ _ | .confirm _ | .pin _ _ | .tick | .invalidate _ | .invalidateAll | .receive _ _ =>
    .isFalse nofun

/-- The addresses for which a request makes entries. -/
def newcomers (c : Cache α) (q : Request α) : List Address :=
  (c.serve q).left.store.addresses.filter fun a =>
    (c.store.find? a).isNone || decide (q.call.Renews c q.now a)

/-- How many entries requests make. -/
def creations (c : Cache α) : List (Request α) → Nat
  | [] => 0
  | q :: rest => (c.newcomers q).length + (c.serve q).left.creations rest

/-- An address gets a new entry exactly if it has one afterwards that it did not have before. -/
theorem mem_newcomers_iff :
    a ∈ c.newcomers q ↔ (∃ e, (c.serve q).left.store.find? a = some e) ∧
      (c.store.find? a = none ∨ q.call.Renews c q.now a) := by
  rw [newcomers, List.mem_filter, Store.mem_addresses_iff, Option.isSome_iff_exists,
    Bool.or_eq_true, Option.isNone_iff_eq_none, decide_eq_true_eq]

/-- A new entry takes the next generation, and the request is about its address. -/
theorem Coherent.of_newcomer (hc : c.Coherent) {e : Entry α} (ha : a ∈ c.newcomers q)
    (hafter : (c.serve q).left.store.find? a = some e) :
    e.generation = c.store.nextGeneration ∧ q.call.subject? c = some a := by
  obtain ⟨_, hnew⟩ := mem_newcomers_iff.mp ha
  cases hc.descends hafter with
  | fresh _ hsubject hgeneration => exact ⟨hgeneration, hsubject⟩
  | same hfind hrenews =>
    rcases hnew with hnone | hnew
    · cases hfind.symm.trans hnone
    · exact absurd hnew hrenews

/-- An entry that is not new has the generation that it had. -/
theorem Coherent.of_not_newcomer (hc : c.Coherent) {e : Entry α} (ha : a ∉ c.newcomers q)
    (hafter : (c.serve q).left.store.find? a = some e) :
    ∃ old, c.store.find? a = some old ∧ e.generation = old.generation ∧
      ¬q.call.Renews c q.now a := by
  cases hc.descends hafter with
  | fresh hnew => exact absurd (mem_newcomers_iff.mpr ⟨⟨e, hafter⟩, hnew⟩) ha
  | same hfind hrenews hgeneration => exact ⟨_, hfind, hgeneration, hrenews⟩

/-- A request makes at most one entry. -/
theorem Coherent.newcomers_eq (hc : c.Coherent) (q : Request α) :
    c.newcomers q = [] ∨ ∃ a, c.newcomers q = [a] := by
  have hafter := (hc.serve q).1.wellFormed.ordered
  have hnodup : (c.newcomers q).Nodup := (nodup_addresses hafter).filter _
  have hsubject : ∀ a ∈ c.newcomers q, q.call.subject? c = some a := by
    intro a ha
    obtain ⟨⟨e, hfind⟩, _⟩ := mem_newcomers_iff.mp ha
    exact (hc.of_newcomer ha hfind).2
  generalize c.newcomers q = addresses at hnodup hsubject
  match addresses with
  | [] => exact .inl rfl
  | [a] => exact .inr ⟨a, rfl⟩
  | a :: b :: rest =>
    have hsame : a = b := Option.some.inj ((hsubject a (by simp)).symm.trans (hsubject b (by simp)))
    subst hsame
    simp at hnodup

/-- The counter of generations moves by the number of entries that a request makes. -/
theorem Coherent.nextGeneration_serve (hc : c.Coherent) (q : Request α) :
    (c.serve q).left.store.nextGeneration = c.store.nextGeneration + (c.newcomers q).length := by
  have hafter := (hc.serve q).1.wellFormed
  rcases hc.newcomers_eq q with hnone | ⟨a, hone⟩
  · rw [hnone]
    rcases hc.numbers q with hsame | ⟨_, a, e, hfind, hgeneration⟩
    · exact hsame
    · -- the entry that has the next generation cannot have been there before
      have hmem : a ∉ c.newcomers q := by simp [hnone]
      obtain ⟨old, hold, hsame, _⟩ := hc.of_not_newcomer hmem hfind
      have hlt := hc.wellFormed.generation_lt old (Store.mem_of_find? hold)
      omega
  · have hmem : a ∈ c.newcomers q := by simp [hone]
    obtain ⟨⟨e, hfind⟩, _⟩ := mem_newcomers_iff.mp hmem
    have hgeneration := (hc.of_newcomer hmem hfind).1
    have hlt := hafter.generation_lt e (Store.mem_of_find? hfind)
    rw [hone, List.length_singleton]
    rcases hc.numbers q with hsame | ⟨hnext, _⟩
    · omega
    · exact hnext

/-- The counter of generations moves by the number of entries that requests make. -/
theorem Coherent.nextGeneration_serveAll (hc : c.Coherent) (qs : List (Request α)) :
    (c.serveAll qs).store.nextGeneration = c.store.nextGeneration + c.creations qs := by
  induction qs generalizing c with
  | nil => rfl
  | cons q rest ih =>
    rw [serveAll_cons, ih (hc.serve q).1, hc.nextGeneration_serve q, creations, Nat.add_assoc]

end Cache

end Neighbor
