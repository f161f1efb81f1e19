import Neighbor.Proofs.Claim
import Neighbor.Proofs.Passage

/-!
# What learning does to one address

Evidence for a binding, a hint from above and a permanent binding each change the entry of their own
address and spare the others. Evidence counts exactly when `Cache.learns` says so; it then releases
what waited for the address.

Each of the three goes through or stops at a deadline that the clock cannot hold. The relations
`Cache.Observed`, `Cache.Hinted` and `Cache.Pinned` list all results, each with the whole cache that
is left.
-/

namespace Neighbor

variable {α β : Type}

/-- The answer of `a` to a broadcast probe that comes at once and is usable. -/
def Responder.heard? (r : Responder) (a : Address) : Option Mac :=
  (r a).filter (Cache.isUsableBinding a)

/-- An entry after its broadcast probe is handed over, with the packets that an answer releases. -/
def Entry.answered (cfg : Config) (r : Responder) (now : Nat) (e : Entry α) :
    Entry α × List (Outbound α) :=
  match r.heard? e.address with
  | some mac => (e.bound cfg mac now, e.waiting.map (.packet · mac))
  | none => (e, [])

/-- An answer to its probe leaves an entry at its address. -/
@[simp] theorem Entry.address_answered {cfg : Config} {r : Responder} {now : Nat} {e : Entry α} :
    (e.answered cfg r now).1.address = e.address := by
  unfold answered
  split <;> rfl

/-- An answer to its probe makes no new entry. -/
@[simp] theorem Entry.generation_answered {cfg : Config} {r : Responder} {now : Nat} {e : Entry α} :
    (e.answered cfg r now).1.generation = e.generation := by
  unfold answered
  split <;> rfl

namespace Cache

variable {c : Cache α} {now : Nat} {a : Address} {mac : Mac}

/-- Counting leaves the store alone. -/
@[simp] theorem store_count (c : Cache α) (k : Counter) (n : Nat) :
    (c.count k n).store = c.store := rfl

/-- Counting leaves the configuration alone. -/
@[simp] theorem config_count (c : Cache α) (k : Counter) (n : Nat) :
    (c.count k n).config = c.config := rfl

/-- Setting the gauge leaves the store alone. -/
@[simp] theorem store_gauge (c : Cache α) : c.gauge.store = c.store := rfl

/-- Setting the gauge leaves the configuration alone. -/
@[simp] theorem config_gauge (c : Cache α) : c.gauge.config = c.config := rfl

/-- Settling the metrics leaves the store alone. -/
@[simp] theorem store_settle (c : Cache α) (evicted : Option Evicted) :
    (c.settle evicted).store = c.store := by
  cases evicted <;> rfl

/-- Settling the metrics leaves the configuration alone. -/
@[simp] theorem config_settle (c : Cache α) (evicted : Option Evicted) :
    (c.settle evicted).config = c.config := by
  cases evicted <;> rfl

/-- An operation that left `d` works on `a` alone: it edits the store and spares the other
addresses. -/
structure WorksOn (c : Cache α) (a : Address) (d : Cache α) : Prop where
  config_eq : d.config = c.config
  edits : Store.Edits c.store d.store
  spared : ∀ b, b ≠ a → c.store.Spared a b (d.store.find? b)

/-- A cache whose store and configuration are as before. -/
theorem WorksOn.of_store_eq {d : Cache α} (hconfig : d.config = c.config)
    (hstore : d.store = c.store) : WorksOn c a d :=
  ⟨hconfig, hstore ▸ .refl, fun _ _ => .inl (by rw [hstore])⟩

/-- Claiming the entry of an address and changing it works on that address. -/
theorem WorksOn.of_claims {x : Store.Claimed α} {e : Entry α} {d : Cache α}
    (hs : c.store.WellFormed) (hclaims : Store.Claims c.store a now x) (haddress : e.address = a)
    (hgeneration : e.generation = x.entry.generation) (hconfig : d.config = c.config)
    (hstore : d.store = x.store.put e) : WorksOn c a d := by
  refine ⟨hconfig, ?_, fun b hb => ?_⟩
  · rw [hstore]
    exact hclaims.edits hs haddress hgeneration
  · rw [hstore]
    exact (hclaims.ousts hs.ordered haddress).spared hb

/-- Whether evidence stamped `now` that `a` is at `mac` counts: the binding is usable, there is or
can be an entry, and the entry accepts it. -/
def learns (c : Cache α) (now : Nat) (a : Address) (mac : Mac) : Bool :=
  isUsableBinding a mac && c.store.admits a && (c.store.entryFor a now).accepts now

/-- What an attempt to learn that `a` is at `mac` comes to. -/
inductive Observed (c : Cache α) (now : Nat) (a : Address) (mac : Mac) :
    Attempt α (Option Evicted) → Prop
  /-- The evidence does not count; at most the gauge is set. -/
  | ignored {d : Cache α} (hlearns : c.learns now a mac = false) (hleft : d = c ∨ d = c.gauge) :
      Observed c now a mac (.ok { cache := d, answer := none })
  | learned {x : Store.Claimed α} (hlearns : c.learns now a mac = true)
      (hclaims : c.store.Claims a now x) (hclock : now + c.config.reachable.nanos < Clock.limit) :
      Observed c now a mac (.ok
        { cache :=
            (settle { c with store := x.store.put (x.entry.bound c.config mac now) }
              x.evicted).count .packetsFlushed x.entry.waiting.length
          answer := x.evicted
          sent := x.entry.waiting.map (.packet · mac) })
  | halted {x : Store.Claimed α} (hlearns : c.learns now a mac = true)
      (hclaims : c.store.Claims a now x) (hclock : Clock.limit ≤ now + c.config.reachable.nanos) :
      Observed c now a mac (.error
        { cache :=
            { c with
              store := x.store.put ((x.entry.bound c.config mac now).withDeadlineOf x.entry) }
          answer := () })

/-- Evidence for a usable binding whose entry is claimed. -/
theorem observe_of_claim {x : Store.Claimed α} (husable : isUsableBinding a mac = true)
    (hclaim : c.store.claim a now = .ok x) :
    c.observe now a mac =
      if x.entry.accepts now then
        if now + c.config.reachable.nanos < Clock.limit then .ok
          { cache :=
              (settle { c with store := x.store.put (x.entry.bound c.config mac now) }
                x.evicted).count .packetsFlushed x.entry.waiting.length
            answer := x.evicted
            sent := x.entry.waiting.map (.packet · mac) }
        else .error
          { cache :=
              { c with
                store := x.store.put ((x.entry.bound c.config mac now).withDeadlineOf x.entry) }
            answer := () }
      else .ok
        { cache := settle { c with store := x.store } x.evicted
          answer := x.evicted } := by
  simp only [observe, if_pos husable, hclaim, Entry.confirm_eq]
  by_cases haccepts : x.entry.accepts now = true
  · by_cases hclock : now + c.config.reachable.nanos < Clock.limit
    · simp only [if_pos haccepts, if_pos hclock]
      rfl
    · simp only [if_pos haccepts, if_neg hclock]
  · simp only [if_neg haccepts]

/-- Evidence is ignored, learned from, or stops where the clock cannot hold the deadline. -/
theorem observe_observed (c : Cache α) (now : Nat) (a : Address) (mac : Mac) :
    Observed c now a mac (c.observe now a mac) := by
  by_cases husable : isUsableBinding a mac = true
  · cases hclaim : c.store.claim a now with
    | error reason =>
      obtain ⟨_, hadmits⟩ := Store.admits_eq_false_of_claim hclaim
      unfold observe
      rw [if_pos husable, hclaim]
      exact .ignored (by simp [learns, hadmits]) (.inr rfl)
    | ok x =>
      have hclaims := Store.claims_of_claim hclaim
      have hlearns : c.learns now a mac = x.entry.accepts now := by
        simp [learns, husable, hclaims.admits, ← hclaims.entry_eq]
      rw [observe_of_claim husable hclaim]
      split
      · next haccepts =>
        split
        · next hclock => exact .learned (hlearns.trans haccepts) hclaims hclock
        · next hclock => exact .halted (hlearns.trans haccepts) hclaims (Nat.not_lt.mp hclock)
      · next haccepts =>
        have hignored : c.learns now a mac = false := hlearns.trans (by simpa using haccepts)
        -- a new entry accepts anything, so the entry was there
        cases hclaims with
        | found hfind => exact .ignored hignored (.inr rfl)
        | roomy => exact absurd rfl haccepts
        | evicting => exact absurd rfl haccepts
  · unfold observe
    rw [if_neg husable]
    exact .ignored (by simp [learns, husable]) (.inl rfl)

/-- Evidence that counts is taken in exactly if the clock holds the deadline. -/
theorem exists_observe_iff :
    (∃ o, c.observe now a mac = .ok o) ↔
      (c.learns now a mac = true → now + c.config.reachable.nanos < Clock.limit) := by
  have hobserved := c.observe_observed now a mac
  generalize c.observe now a mac = attempt at hobserved ⊢
  cases hobserved with
  | ignored hlearns => simp [hlearns]
  | learned _ _ hclock => exact ⟨fun _ _ => hclock, fun _ => ⟨_, rfl⟩⟩
  | halted hlearns _ hlimit =>
    exact ⟨nofun, fun hclock => absurd (hclock hlearns) (Nat.not_lt.mpr hlimit)⟩

/-- While the clock holds the deadline, evidence is taken in. -/
theorem exists_observe (hclock : now + c.config.reachable.nanos < Clock.limit) :
    ∃ o, c.observe now a mac = .ok o := exists_observe_iff.mpr fun _ => hclock

/-- Any usable evidence counts for a dynamic entry without a link address. -/
theorem learns_of_unresolved {e : Entry α} (hfind : c.store.find? a = some e)
    (hkind : e.kind = .dynamic) (hmac : e.mac? = none) :
    c.learns now a mac = isUsableBinding a mac := by
  simp [learns, Store.admits, hfind, Store.entryFor_of_some hfind, Entry.accepts, hkind, hmac]

/-- What evidence for a binding of `a` does to `a`: the entry afterwards and what is sent. -/
inductive Learns (c : Cache α) (now : Nat) (a : Address) (mac : Mac) :
    Option (Entry α) → List (Outbound α) → Prop
  | learned (hlearns : c.learns now a mac = true) :
      Learns c now a mac (some ((c.store.entryFor a now).bound c.config mac now))
        ((c.store.entryFor a now).waiting.map (.packet · mac))
  | ignored (hlearns : c.learns now a mac = false) : Learns c now a mac (c.store.find? a) []

/-- What evidence that goes through does to its address; it leaves the others but for what it
evicts. -/
theorem observe_learns {o : Outcome α (Option Evicted)} (hs : c.store.WellFormed)
    (h : c.observe now a mac = .ok o) :
    Learns c now a mac (o.cache.store.find? a) o.sent ∧ WorksOn c a o.cache := by
  have hobserved := c.observe_observed now a mac
  rw [h] at hobserved
  cases hobserved with
  | ignored hlearns hleft =>
    rcases hleft with rfl | rfl
    · exact ⟨.ignored hlearns, .of_store_eq rfl rfl⟩
    · exact ⟨.ignored hlearns, .of_store_eq rfl rfl⟩
  | @learned x hlearns hclaims =>
    have haddress := hclaims.address_eq
    have hafter : (x.store.put (x.entry.bound c.config mac now)).find? a =
        some (x.entry.bound c.config mac now) := by
      simp [haddress]
    refine ⟨?_, .of_claims (e := x.entry.bound c.config mac now) hs hclaims haddress rfl (by simp)
      (by simp)⟩
    simp only [store_count, store_settle, hafter]
    rw [hclaims.entry_eq]
    exact .learned hlearns

/-- What a hint that the binding of `a` works comes to. -/
inductive Hinted (c : Cache α) (now : Nat) (a : Address) : Attempt α Bool → Prop
  | ignored : Hinted c now a (.ok { cache := c, answer := false })
  | counted {e : Entry α} {mac : Mac} (hfind : c.store.find? a = some e)
      (hmac : e.mac? = some mac) (haccepts : e.accepts now = true)
      (hclock : now + c.config.reachable.nanos < Clock.limit) :
      Hinted c now a (.ok
        { cache :=
            count { c with store := c.store.put (e.bound c.config mac now) } .packetsFlushed 0
          answer := true })
  | halted {e : Entry α} {mac : Mac} (hfind : c.store.find? a = some e)
      (hmac : e.mac? = some mac) (haccepts : e.accepts now = true)
      (hclock : Clock.limit ≤ now + c.config.reachable.nanos) :
      Hinted c now a (.error
        { cache :=
            { c with store := c.store.put ((e.bound c.config mac now).withDeadlineOf e) }
          answer := () })

/-- A hint for a binding that accepts it. -/
theorem confirm_of_accepts {e : Entry α} (hfind : c.store.find? a = some e)
    (hmac : e.mac? = some mac) (haccepts : e.accepts now = true) :
    c.confirm now a =
      if now + c.config.reachable.nanos < Clock.limit then .ok
        { cache :=
            count { c with store := c.store.put (e.bound c.config mac now) } .packetsFlushed 0
          answer := true }
      else .error
        { cache := { c with store := c.store.put ((e.bound c.config mac now).withDeadlineOf e) }
          answer := () } := by
  simp only [confirm, hfind, hmac, haccepts, if_true, Entry.confirm_eq, Entry.waiting_of_mac? hmac]
  by_cases hclock : now + c.config.reachable.nanos < Clock.limit
  · simp only [if_pos hclock]
    rfl
  · simp only [if_neg hclock]

/-- A hint for anything else. -/
theorem confirm_of_not_accepts
    (h : ¬∃ e mac, c.store.find? a = some e ∧ e.mac? = some mac ∧ e.accepts now = true) :
    c.confirm now a = .ok { cache := c, answer := false } := by
  unfold confirm
  split
  · rfl
  · next e hfind =>
    split
    · rfl
    · next mac hmac => exact if_neg fun haccepts => h ⟨e, mac, hfind, hmac, haccepts⟩

/-- A hint is ignored, counts, or stops where the clock cannot hold the deadline. -/
theorem confirm_hinted (c : Cache α) (now : Nat) (a : Address) :
    Hinted c now a (c.confirm now a) := by
  by_cases h : ∃ e mac, c.store.find? a = some e ∧ e.mac? = some mac ∧ e.accepts now = true
  · obtain ⟨e, mac, hfind, hmac, haccepts⟩ := h
    rw [confirm_of_accepts hfind hmac haccepts]
    split
    · next hclock => exact .counted hfind hmac haccepts hclock
    · next hclock => exact .halted hfind hmac haccepts (Nat.not_lt.mp hclock)
  · rw [confirm_of_not_accepts h]
    exact .ignored

/-- What a hint that the binding of `a` works does to `a`. It counts like evidence for the link
address that the entry holds. -/
inductive Hints (c : Cache α) (now : Nat) (a : Address) : Bool → Option (Entry α) → Prop
  | counted {e : Entry α} {mac : Mac} (hfind : c.store.find? a = some e)
      (hmac : e.mac? = some mac) (haccepts : e.accepts now = true) :
      Hints c now a true (some (e.bound c.config mac now))
  | ignored : Hints c now a false (c.store.find? a)

/-- What a hint that goes through does to its address; it sends nothing and leaves the others. -/
theorem confirm_hints {o : Outcome α Bool} (h : c.confirm now a = .ok o) :
    Hints c now a o.answer (o.cache.store.find? a) ∧ o.sent = [] ∧ WorksOn c a o.cache := by
  have hhinted := c.confirm_hinted now a
  rw [h] at hhinted
  cases hhinted with
  | ignored => exact ⟨.ignored, rfl, .of_store_eq rfl rfl⟩
  | @counted e mac hfind hmac haccepts =>
    have haddress := Store.address_of_find? hfind
    have hbefore : c.store.find? (e.bound c.config mac now).address = some e := by
      rw [Entry.address_bound, haddress]
      exact hfind
    have hafter : (c.store.put (e.bound c.config mac now)).find? a =
        some (e.bound c.config mac now) := by
      simp [haddress]
    refine ⟨?_, rfl, rfl, .single (.replace hbefore rfl), fun b hb => .inl ?_⟩
    · simp only [store_count, hafter]
      exact .counted hfind hmac haccepts
    · simp [haddress, hb]

/-- What a permanent binding of `a` comes to. -/
inductive Pinned (c : Cache α) (now : Nat) (a : Address) (mac : Mac) :
    Outcome α (Except DropReason (Option Evicted)) → Prop
  | refused (hadmits : c.store.admits a = false) :
      Pinned c now a mac { cache := c, answer := .error .noSpace }
  | pinned {x : Store.Claimed α} (hclaims : c.store.Claims a now x) :
      Pinned c now a mac
        { cache :=
            (settle { c with store := x.store.put (x.entry.pin mac now).1 }
              x.evicted).count .packetsFlushed x.entry.waiting.length
          answer := .ok x.evicted
          sent := x.entry.waiting.map (.packet · mac) }

/-- A permanent binding whose entry is claimed. -/
theorem pin_of_claim {x : Store.Claimed α} (hclaim : c.store.claim a now = .ok x) :
    c.pin now a mac =
      { cache :=
          (settle { c with store := x.store.put (x.entry.pin mac now).1 }
            x.evicted).count .packetsFlushed x.entry.waiting.length
        answer := .ok x.evicted
        sent := x.entry.waiting.map (.packet · mac) } := by
  simp only [pin, hclaim]
  rfl

/-- A permanent binding is installed unless there is no room for it. -/
theorem pin_pinned (c : Cache α) (now : Nat) (a : Address) (mac : Mac) :
    Pinned c now a mac (c.pin now a mac) := by
  cases hclaim : c.store.claim a now with
  | error reason =>
    obtain ⟨rfl, hadmits⟩ := Store.admits_eq_false_of_claim hclaim
    unfold pin
    rw [hclaim]
    exact .refused hadmits
  | ok x =>
    rw [pin_of_claim hclaim]
    exact .pinned (Store.claims_of_claim hclaim)

/-- What a permanent binding of `a` does to `a`. Only a lack of room prevents it. -/
inductive Pins (c : Cache α) (now : Nat) (a : Address) (mac : Mac) :
    Except DropReason (Option Evicted) → Option (Entry α) → List (Outbound α) → Prop
  | pinned {evicted : Option Evicted} (hadmits : c.store.admits a = true) :
      Pins c now a mac (.ok evicted) (some ((c.store.entryFor a now).pin mac now).1)
        ((c.store.entryFor a now).waiting.map (.packet · mac))
  | refused (hadmits : c.store.admits a = false) :
      Pins c now a mac (.error .noSpace) (c.store.find? a) []

/-- What a permanent binding does to its address; it leaves the others but for what it evicts. -/
theorem pin_pins (hs : c.store.WellFormed) :
    Pins c now a mac (c.pin now a mac).answer ((c.pin now a mac).cache.store.find? a)
        (c.pin now a mac).sent ∧
      WorksOn c a (c.pin now a mac).cache := by
  have hpinned := c.pin_pinned now a mac
  generalize c.pin now a mac = o at hpinned ⊢
  cases hpinned with
  | refused hadmits => exact ⟨.refused hadmits, .of_store_eq rfl rfl⟩
  | @pinned x hclaims =>
    have haddress : (x.entry.pin mac now).1.address = a := hclaims.address_eq
    have hafter : (x.store.put (x.entry.pin mac now).1).find? a = some (x.entry.pin mac now).1 := by
      simp [haddress]
    refine ⟨?_, .of_claims hs hclaims haddress rfl (by simp) (by simp)⟩
    simp only [store_count, store_settle, hafter]
    rw [hclaims.entry_eq]
    exact .pinned hclaims.admits

end Cache

end Neighbor
