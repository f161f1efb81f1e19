import Mathlib.Logic.Equiv.Basic
import Neighbor.Proofs.Local

/-!
# Operations on different addresses

Where there is room for two more entries, two operations on different addresses do not notice each
other: in either order each answers and sends the same, and the caches that are left differ at most
in the generations of the entries that are new, which go to them in the order in which they are made
(`Cache.Reached.commutes`). Neither operation takes the room that the other needs, so each finds the
same in both orders and does the same.
-/

namespace Neighbor

variable {α : Type}

/-- The entry with the generations `n` and `n + 1` exchanged. -/
def Entry.exchange (n : Nat) (e : Entry α) : Entry α :=
  e.numbered (Equiv.swap n (n + 1) e.generation)

/-- The cache with the generations `n` and `n + 1` exchanged. -/
def Cache.exchange (n : Nat) (c : Cache α) : Cache α :=
  { c with store := { c.store with entries := c.store.entries.map (·.exchange n) } }

section

variable {e : Entry α} {d : Deed α} {n : Nat}

/-- An entry with the first of two exchanged generations gets the second. -/
@[simp] theorem Entry.exchange_numbered : (e.numbered n).exchange n = e.numbered (n + 1) := by
  rw [exchange]
  exact congrArg e.numbered (Equiv.swap_apply_left n (n + 1))

/-- An entry with the second of two exchanged generations gets the first. -/
@[simp] theorem Entry.exchange_numbered_succ :
    (e.numbered (n + 1)).exchange n = e.numbered n := by
  rw [exchange]
  exact congrArg e.numbered (Equiv.swap_apply_right n (n + 1))

/-- Older generations stay. -/
theorem Entry.exchange_of_lt (h : e.generation < n) : e.exchange n = e := by
  rw [exchange, Equiv.swap_apply_of_ne_of_ne (by omega) (by omega)]
  rfl

/-- The new entry of a deed done first is, after the exchange, that of one done second. -/
theorem Deed.exchange_entryAt (h : d.isNew = true) :
    (d.entryAt n).map (·.exchange n) = d.entryAt (n + 1) := by
  simp [entryAt, h, Function.comp_def]

/-- The new entry of a deed done second is, after the exchange, that of one done first. -/
theorem Deed.exchange_entryAt_succ (h : d.isNew = true) :
    (d.entryAt (n + 1)).map (·.exchange n) = d.entryAt n := by
  simp [entryAt, h, Function.comp_def]

/-- Only a new entry depends on the generation. -/
theorem Deed.entryAt_eq (h : d.isNew = false) (m n : Nat) : d.entryAt m = d.entryAt n := by
  simp [entryAt, h]

end

namespace Store

variable {s t : Store α} {a : Address}

/-- A store that differs from another in what it holds for one address has at most one entry more.
-/
theorem Ordered.size_le_succ (hs : s.Ordered) (ht : t.Ordered)
    (h : ∀ b, b ≠ a → t.find? b = s.find? b) : t.size ≤ s.size + 1 := by
  have hrest : (t.erase a).entries = (s.erase a).entries := by
    refine (hs.erase a).entries_eq (ht.erase a) fun b => ?_
    rw [find?_erase, find?_erase]
    split
    · rfl
    · next hb => exact h b hb
  have hle : (t.erase a).entries.length ≤ s.size := by
    rw [hrest]
    exact s.size_erase_le a
  cases hfind : t.find? a with
  | none =>
    rw [entries_erase_of_none hfind] at hle
    exact Nat.le_succ_of_le hle
  | some e =>
    have hlength := (ht.perm_of_find? hfind).length_eq
    rw [size, hlength]
    exact Nat.succ_le_succ hle

end Store

namespace Cache

variable {c k k₁ k₂ k₁₂ k₂₁ : Cache α} {a b : Address} {d d₁ d₂ : Deed α} {n : Nat}
  {cfg : Config} {queueCapacity : Nat} {found : Option (Entry α)} {q : Request α}
  {o : Outcome α Answer}

/-- To exchange generations is to do so in every entry that is found. -/
@[simp] theorem find?_exchange (c : Cache α) (n : Nat) (a : Address) :
    (c.exchange n).store.find? a = (c.store.find? a).map (·.exchange n) :=
  List.find?_map

/-- Exchanging generations leaves the addresses in order. -/
theorem ordered_exchange (h : c.store.Ordered) : (c.exchange n).store.Ordered :=
  List.pairwise_map.mpr h

/-- Between `c` and `k`, an operation did `d` at the address `a` and nothing elsewhere. -/
structure Acts (c : Cache α) (a : Address) (d : Deed α) (k : Cache α) : Prop
    extends c.Does a d k where
  config_eq : k.config = c.config
  edits : Store.Edits c.store k.store
  others : ∀ b, b ≠ a → k.store.find? b = c.store.find? b
  counts : c.Counts k (d.answer.tally d.sent)

/-- An operation that goes through in one cache goes through in all that show the same, and acts in
the same way. -/
theorem Shows.exists_deed (h : c.Shows cfg queueCapacity a found) (ha : q.call.address? = some a)
    (ho : c.serve q = .ok o) :
    ∃ d : Deed α, ∀ k : Cache α, k.Shows cfg queueCapacity a found →
      ∃ k', k.serve q = .ok { o with cache := k' } ∧ k.Acts a d k' := by
  have hdetermined : Determined cfg queueCapacity a found (·.serve q) := determined ha
  rcases hdetermined with ⟨d, hd⟩ | hstops
  · obtain ⟨k₀, hk₀, _⟩ := hd c h
    cases ho.symm.trans hk₀
    refine ⟨d, fun k hk => ?_⟩
    obtain ⟨k', hok, hdoes⟩ := hd k hk
    have hworks := perform_worksOn hk.wellFormed ha hok
    refine ⟨k', hok, hdoes, hworks.config_eq, hworks.edits, fun b hb => ?_,
      perform_counts hk.wellFormed ha hok⟩
    rcases hworks.spared b hb with hsame | ⟨_, hnone, hfull, _⟩
    · exact hsame
    · exact absurd (hk.room (hk.find?_eq.symm.trans hnone)) (Nat.not_lt.mpr hfull)
  · obtain ⟨h, hstop⟩ := hstops c h
    cases ho.symm.trans hstop

namespace Acts

/-- Another address finds what it found before, and room if there was some to spare. -/
theorem shows (h : c.Acts a d k) (hs : c.store.WellFormed)
    (hroom : c.store.size + 2 ≤ c.store.capacity) (hb : b ≠ a) :
    k.Shows c.config c.store.queueCapacity b (c.store.find? b) := by
  obtain ⟨hcapacity, hqueueCapacity, _⟩ := h.edits.bounds
  have hk := h.edits.wellFormed hs
  have hsize := hs.ordered.size_le_succ hk.ordered h.others
  exact ⟨hk, h.config_eq, hqueueCapacity, h.others b hb, fun _ => by omega⟩

/-- The gauge is in step if it was or is set. -/
theorem gauged_of (h : c.Acts a d k) (hgauged : d.isGauged = true ∨ c.Gauged) : k.Gauged := by
  cases hset : d.isGauged with
  | true => exact h.gauged hset
  | false =>
    obtain ⟨hentries, hsize⟩ := h.ungauged hset
    rcases hgauged with hgauged | hgauged
    · cases hset.symm.trans hgauged
    · rw [Gauged, hentries, hsize]
      exact hgauged

/-- The counters do not tell the order of two operations. -/
theorem metrics_eq (h₁ : c.Acts a d₁ k₁) (h₁₂ : k₁.Acts b d₂ k₁₂) (h₂ : c.Acts b d₂ k₂)
    (h₂₁ : k₂.Acts a d₁ k₂₁) (hsize : k₂₁.size = k₁₂.size) : k₂₁.metrics = k₁₂.metrics := by
  refine Metrics.ext_get fun i => ?_
  by_cases hi : i = .entries
  · subst hi
    by_cases hgauged : d₁.isGauged = true ∨ d₂.isGauged = true
    · have hfirst : k₁₂.Gauged := h₁₂.gauged_of (hgauged.symm.imp_right fun h => h₁.gauged h)
      have hsecond : k₂₁.Gauged := h₂₁.gauged_of (hgauged.imp_right fun h => h₂.gauged h)
      refine Eq.trans hsecond ?_
      rw [hsize]
      exact hfirst.symm
    · rw [not_or, Bool.not_eq_true, Bool.not_eq_true] at hgauged
      obtain ⟨hfirst, hsecond⟩ := hgauged
      calc k₂₁.metrics.entries
          = k₂.metrics.entries := (h₂₁.ungauged hfirst).1
        _ = c.metrics.entries := (h₂.ungauged hsecond).1
        _ = k₁.metrics.entries := (h₁.ungauged hfirst).1.symm
        _ = k₁₂.metrics.entries := (h₁₂.ungauged hsecond).1.symm
  · rw [(h₁.counts.trans h₁₂.counts) i hi, (h₂.counts.trans h₂₁.counts) i hi,
      add_comm (d₁.answer.tally d₁.sent)]

/-- What two operations leave is the same in either order, but for the generations of new entries.
-/
theorem find?_eq_exchange (h₁ : c.Acts a d₁ k₁) (h₁₂ : k₁.Acts b d₂ k₁₂) (h₂ : c.Acts b d₂ k₂)
    (h₂₁ : k₂.Acts a d₁ k₂₁) (hab : a ≠ b) (hs : c.store.WellFormed) (x : Address) :
    k₂₁.store.find? x = if d₁.isNew = true ∧ d₂.isNew = true
      then (k₁₂.store.find? x).map (·.exchange c.store.nextGeneration)
      else k₁₂.store.find? x := by
  have hkept {d d' : Deed α} (hnew : ¬(d.isNew = true ∧ d'.isNew = true)) :
      d.entryAt (c.store.nextGeneration + d'.isNew.toNat) = d.entryAt c.store.nextGeneration := by
    cases hd : d.isNew with
    | false => exact Deed.entryAt_eq hd _ _
    | true =>
      have hd' : d'.isNew = false := Bool.not_eq_true _ ▸ fun hd' => hnew ⟨hd, hd'⟩
      rw [hd']
      rfl
  by_cases hxa : x = a
  · subst hxa
    rw [h₂₁.find?_eq, h₁₂.others x hab, h₁.find?_eq, h₂.nextGeneration_eq]
    split
    · next hnew =>
      rw [Deed.exchange_entryAt hnew.1, hnew.2]
      rfl
    · next hnew => exact hkept hnew
  · by_cases hxb : x = b
    · subst hxb
      rw [h₂₁.others x hxa, h₂.find?_eq, h₁₂.find?_eq, h₁.nextGeneration_eq]
      split
      · next hnew =>
        rw [hnew.1]
        exact (Deed.exchange_entryAt_succ hnew.2).symm
      · next hnew => exact (hkept fun h => hnew h.symm).symm
    · rw [h₂₁.others x hxa, h₂.others x hxb, h₁₂.others x hxb, h₁.others x hxa]
      split
      · cases hfind : c.store.find? x with
        | none => rfl
        | some e =>
          -- an entry that was there before is older than both new ones
          have holder := hs.generation_lt e (Store.mem_of_find? hfind)
          rw [Option.map_some, Entry.exchange_of_lt holder]
      · rfl

/-- The caches that are left are the same in either order, but for the generations of new entries.
-/
theorem eq_exchange (h₁ : c.Acts a d₁ k₁) (h₁₂ : k₁.Acts b d₂ k₁₂) (h₂ : c.Acts b d₂ k₂)
    (h₂₁ : k₂.Acts a d₁ k₂₁) (hab : a ≠ b) (hs : c.store.WellFormed) :
    k₂₁ = if d₁.isNew = true ∧ d₂.isNew = true then k₁₂.exchange c.store.nextGeneration
      else k₁₂ := by
  have hfind := h₁.find?_eq_exchange h₁₂ h₂ h₂₁ hab hs
  have hedits₁₂ : Store.Edits c.store k₁₂.store := h₁.edits.trans h₁₂.edits
  have hedits₂₁ : Store.Edits c.store k₂₁.store := h₂.edits.trans h₂₁.edits
  have hordered₁₂ := (hedits₁₂.wellFormed hs).ordered
  have hordered₂₁ := (hedits₂₁.wellFormed hs).ordered
  obtain ⟨hcapacity₁₂, hqueue₁₂, htie₁₂⟩ := hedits₁₂.bounds
  obtain ⟨hcapacity₂₁, hqueue₂₁, htie₂₁⟩ := hedits₂₁.bounds
  have hconfig : k₂₁.config = k₁₂.config := by
    rw [h₂₁.config_eq, h₂.config_eq, h₁₂.config_eq, h₁.config_eq]
  have hnext : k₂₁.store.nextGeneration = k₁₂.store.nextGeneration := by
    rw [h₂₁.nextGeneration_eq, h₂.nextGeneration_eq, h₁₂.nextGeneration_eq, h₁.nextGeneration_eq]
    omega
  have hstore {s : Store α} (hs : s.Ordered) (hfind : ∀ x, k₂₁.store.find? x = s.find? x)
      (hbounds : s.capacity = k₁₂.store.capacity ∧ s.queueCapacity = k₁₂.store.queueCapacity ∧
        s.tieBreak = k₁₂.store.tieBreak)
      (hnext' : s.nextGeneration = k₁₂.store.nextGeneration) : k₂₁.store = s := by
    obtain ⟨hcapacity, hqueue, htie⟩ := hbounds
    refine hs.eq_of_find? hordered₂₁ hfind ⟨?_, ?_, ?_⟩ (hnext.trans hnext'.symm)
    · rw [hcapacity, hcapacity₁₂, hcapacity₂₁]
    · rw [hqueue, hqueue₁₂, hqueue₂₁]
    · rw [htie, htie₁₂, htie₂₁]
  split
  · next hnew =>
    have hsame : k₂₁.store = (k₁₂.exchange c.store.nextGeneration).store := by
      refine hstore (ordered_exchange hordered₁₂) (fun x => ?_) ⟨rfl, rfl, rfl⟩ rfl
      rw [hfind, if_pos hnew, find?_exchange]
    have hsize : k₂₁.size = k₁₂.size := by
      rw [size, hsame]
      exact List.length_map _
    have hmetrics := h₁.metrics_eq h₁₂ h₂ h₂₁ hsize
    obtain ⟨config, store, metrics⟩ := k₂₁
    cases hsame
    cases hconfig
    cases hmetrics
    rfl
  · next hnew =>
    have hsame : k₂₁.store = k₁₂.store :=
      hstore hordered₁₂ (fun x => (hfind x).trans (if_neg hnew)) ⟨rfl, rfl, rfl⟩ rfl
    have hmetrics := h₁.metrics_eq h₁₂ h₂ h₂₁ (by rw [size, hsame, size])
    obtain ⟨config, store, metrics⟩ := k₂₁
    cases hsame
    cases hconfig
    cases hmetrics
    rfl

end Acts

/-- A request makes an entry exactly if its deed says so. -/
theorem Acts.newcomers_ne_nil_iff (hc : c.Coherent) (ho : c.serve q = .ok o)
    (h : c.Acts a d o.cache) : c.newcomers q ≠ [] ↔ d.isNew = true := by
  have hmoved := hc.nextGeneration_serve q
  rw [ho, Attempt.left_ok, h.nextGeneration_eq] at hmoved
  rw [← List.length_pos_iff_ne_nil, ← Nat.add_left_cancel hmoved]
  cases d.isNew <;> simp

/-- Where there is room for two more entries, two operations on different addresses that go through
in one order go through in the other. Each answers and sends the same and warns of the same; the
counters are the same in the end, and so is the cache, except that two new entries have exchanged
their generations. -/
theorem Reached.commutes {cfg : Config} {start : Nat} {calls : List (Call α)}
    (h : c.Reached cfg start calls) (hroom : c.size + 2 ≤ cfg.capacity) {q₁ q₂ : Request α}
    (h₁ : q₁.call.address? = some a) (h₂ : q₂.call.address? = some b) (hab : a ≠ b)
    {o₁ o₁₂ : Outcome α Answer} (ho₁ : c.serve q₁ = .ok o₁) (ho₁₂ : o₁.cache.serve q₂ = .ok o₁₂) :
    ∃ o₂ o₂₁, c.serve q₂ = .ok o₂ ∧ o₂.cache.serve q₁ = .ok o₂₁ ∧
      (o₂₁.answer = o₁.answer ∧ o₂₁.sent = o₁.sent ∧ o₂₁.warnings = o₁.warnings) ∧
      (o₂.answer = o₁₂.answer ∧ o₂.sent = o₁₂.sent ∧ o₂.warnings = o₁₂.warnings) ∧
      o₂₁.cache.metrics = o₁₂.cache.metrics ∧
      o₂₁.cache = if c.newcomers q₁ ≠ [] ∧ c.newcomers q₂ ≠ []
        then o₁₂.cache.exchange c.store.nextGeneration else o₁₂.cache := by
  obtain ⟨hc, hconfig, _⟩ := h.coherent
  have hs := hc.wellFormed
  have hspare : c.store.size + 2 ≤ c.store.capacity := by
    rw [h.bounded.capacity_eq, hconfig]
    exact hroom
  have hshows (x : Address) :
      c.Shows c.config c.store.queueCapacity x (c.store.find? x) :=
    ⟨hs, rfl, rfl, rfl, fun _ => by omega⟩
  -- the first operation leaves what the second finds, so the second does the same before it
  obtain ⟨d₁, hd₁⟩ := (hshows a).exists_deed h₁ ho₁
  obtain ⟨k₁, hk₁, hacts₁⟩ := hd₁ c (hshows a)
  obtain rfl : o₁.cache = k₁ := congrArg Outcome.cache (Except.ok.inj (ho₁.symm.trans hk₁))
  have hshows₁ := hacts₁.shows hs hspare hab.symm
  obtain ⟨d₂, hd₂⟩ := hshows₁.exists_deed h₂ ho₁₂
  obtain ⟨k₁₂, hk₁₂, hacts₁₂⟩ := hd₂ o₁.cache hshows₁
  obtain rfl : o₁₂.cache = k₁₂ := congrArg Outcome.cache (Except.ok.inj (ho₁₂.symm.trans hk₁₂))
  obtain ⟨k₂, ho₂, hacts₂⟩ := hd₂ c (hshows b)
  obtain ⟨k₂₁, ho₂₁, hacts₂₁⟩ := hd₁ k₂ (hacts₂.shows hs hspare hab)
  have heq := hacts₁.eq_exchange hacts₁₂ hacts₂ hacts₂₁ hab hs
  refine ⟨_, _, ho₂, ho₂₁, ⟨rfl, rfl, rfl⟩, ⟨rfl, rfl, rfl⟩, ?_, ?_⟩
  · change k₂₁.metrics = _
    rw [heq]
    split <;> rfl
  · change k₂₁ = _
    rw [heq]
    simp only [Acts.newcomers_ne_nil_iff hc ho₁ hacts₁, Acts.newcomers_ne_nil_iff hc ho₂ hacts₂]

/-- A packet for one address and evidence for another, each of which makes an entry: the entries
take their generations in the order of the operations. -/
theorem Reached.commutes_of_two :
    let c : Cache Nat := (Cache.create { Config.brief with capacity := 2 } 0).cache
    let q₁ : Request Nat := ⟨.silent, 1, .resolve ⟨10, 0, 0, 1⟩ 7⟩
    let q₂ : Request Nat := ⟨.silent, 2, .observe ⟨10, 0, 0, 2⟩ ⟨2, 0, 0, 0, 0, 2⟩⟩
    ∃ o₁ o₁₂ o₂ o₂₁, c.serve q₁ = .ok o₁ ∧ o₁.cache.serve q₂ = .ok o₁₂ ∧ c.serve q₂ = .ok o₂ ∧
      o₂.cache.serve q₁ = .ok o₂₁ ∧ o₁.sent = [.broadcastProbe ⟨10, 0, 0, 1⟩] ∧
      o₂₁.sent = o₁.sent ∧ o₁₂.cache.store.entries.map (·.generation) = [1, 2] ∧
      o₂₁.cache = o₁₂.cache.exchange 1 := by
  intro c q₁ q₂
  have hrun : ∃ o₁ ∈ (c.serve q₁).toOption, ∃ o₁₂ ∈ (o₁.cache.serve q₂).toOption,
      o₁.sent = [.broadcastProbe ⟨10, 0, 0, 1⟩] ∧
        o₁₂.cache.store.entries.map (·.generation) = [1, 2] := by
    decide +kernel
  have hnew : c.newcomers q₁ ≠ [] ∧ c.newcomers q₂ ≠ [] := by decide +kernel
  obtain ⟨o₁, ho₁, o₁₂, ho₁₂, hsent, hgenerations⟩ := hrun
  have ho₁ := Attempt.eq_ok_of_mem ho₁
  have ho₁₂ := Attempt.eq_ok_of_mem ho₁₂
  have hreached : c.Reached { Config.brief with capacity := 2 } 0 [] := .create
  have h₁ : q₁.call.address? = some ⟨10, 0, 0, 1⟩ := rfl
  have h₂ : q₂.call.address? = some ⟨10, 0, 0, 2⟩ := rfl
  obtain ⟨o₂, o₂₁, ho₂, ho₂₁, hsame, _, _, hcache⟩ :=
    Reached.commutes hreached (by decide +kernel) h₁ h₂ (by decide) ho₁ ho₁₂
  rw [if_pos hnew] at hcache
  exact ⟨o₁, o₁₂, o₂, o₂₁, ho₁, ho₁₂, ho₂, ho₂₁, hsent, hsame.2.1, hgenerations, hcache⟩

end Cache

end Neighbor
