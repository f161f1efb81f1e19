import Neighbor.Proofs.Learn

/-!
# Items and the addresses they are for

Every item that an operation hands over is for one address: a probe for its target, a packet for the
address at which it waited. A list of items with their addresses has a share for each address.
Handing probes over adds to the share of a broadcast probe what its answer releases, and changes the
entry of its target alone.
-/

namespace Neighbor

variable {α : Type}

/-- The items that are for `a`, in order. -/
def share (a : Address) (items : List (Address × Outbound α)) : List (Outbound α) :=
  (items.filter fun x => x.1 = a).map (·.2)

section Share

variable {a b : Address}

/-- Nothing of no items is for an address. -/
@[simp] theorem share_nil : share a ([] : List (Address × Outbound α)) = [] := rfl

/-- The share of an address in two lists is made of its shares in both. -/
@[simp] theorem share_append (xs ys : List (Address × Outbound α)) :
    share a (xs ++ ys) = share a xs ++ share a ys := by
  simp [share]

/-- An item is part of the share of its own address only. -/
@[simp] theorem share_cons (x : Address × Outbound α) (xs : List (Address × Outbound α)) :
    share a (x :: xs) = if x.1 = a then x.2 :: share a xs else share a xs := by
  unfold share
  by_cases h : x.1 = a <;> simp [h]

/-- Items that are all for one address are the share of that. -/
@[simp] theorem share_map_mk (items : List (Outbound α)) :
    share a (items.map (b, ·)) = if b = a then items else [] := by
  unfold share
  by_cases h : b = a <;> simp [h, List.filter_map, Function.comp_def]

/-- An address for which there are no items has no share. -/
theorem share_eq_nil {xs : List (Address × Outbound α)} (h : a ∉ xs.map (·.1)) :
    share a xs = [] := by
  simp only [share, List.map_eq_nil_iff, List.filter_eq_nil_iff, decide_eq_true_eq]
  intro x hx hxa
  exact h (List.mem_map.mpr ⟨x, hx, hxa⟩)

end Share

/-- What was handed over before leaves the cache of an outcome. -/
@[simp] theorem Outcome.cache_sentAfter {β : Type} (items : List (Outbound α)) (o : Outcome α β) :
    (o.sentAfter items).cache = o.cache := rfl

/-- What was handed over before is sent first. -/
@[simp] theorem Outcome.sent_sentAfter {β : Type} (items : List (Outbound α)) (o : Outcome α β) :
    (o.sentAfter items).sent = items ++ o.sent := rfl

/-- An attempt that goes through after other items does so without them. -/
theorem Attempt.sentAfter_eq_ok {β : Type} {items : List (Outbound α)} {x : Attempt α β}
    {o : Outcome α β} (h : x.sentAfter items = .ok o) :
    ∃ o', x = .ok o' ∧ o = o'.sentAfter items := by
  cases x with
  | error e => cases h
  | ok o' =>
    cases h
    exact ⟨o', rfl, rfl⟩

/-- An attempt that goes through after other warnings does so without them. -/
theorem Attempt.warnedAfter_eq_ok {β : Type} {warnings : List Warning} {x : Attempt α β}
    {o : Outcome α β} (h : x.warnedAfter warnings = .ok o) :
    ∃ o', x = .ok o' ∧ o = o'.warnedAfter warnings := by
  cases x with
  | error e => cases h
  | ok o' =>
    cases h
    exact ⟨o', rfl, rfl⟩

/-- An attempt that goes through with another answer does so with its own. -/
theorem Attempt.mapAnswer_eq_ok {β γ : Type} {f : β → γ} {x : Attempt α β} {o : Outcome α γ}
    (h : x.mapAnswer f = .ok o) : ∃ o', x = .ok o' ∧ o = o'.map f := by
  cases x with
  | error e => cases h
  | ok o' =>
    cases h
    exact ⟨o', rfl, rfl⟩

/-- An attempt that has an outcome goes through. -/
theorem Attempt.eq_ok_of_mem {β : Type} {x : Attempt α β} {o : Outcome α β}
    (h : o ∈ x.toOption) : x = .ok o := by
  cases x with
  | error => cases h
  | ok => exact congrArg Except.ok (Option.some.inj h)

/-- The cache that an attempt leaves, whether it goes through or stops. -/
def Attempt.left {β : Type} (x : Attempt α β) : Cache α :=
  match x with
  | .ok o => o.cache
  | .error h => h.cache

/-- An attempt that goes through leaves the cache of its outcome. -/
@[simp] theorem Attempt.left_ok {β : Type} (o : Outcome α β) : Attempt.left (.ok o) = o.cache := rfl

/-- An attempt that stops leaves the cache as it was then. -/
@[simp] theorem Attempt.left_error {β : Type} (h : Halted α) :
    Attempt.left (.error h : Attempt α β) = h.cache := rfl

/-- Another answer leaves the same cache. -/
@[simp] theorem Attempt.left_mapAnswer {β γ : Type} (f : β → γ) (x : Attempt α β) :
    (x.mapAnswer f).left = x.left := by
  cases x <;> rfl

/-- Items handed over before leave the same cache. -/
@[simp] theorem Attempt.left_sentAfter {β : Type} (items : List (Outbound α)) (x : Attempt α β) :
    (x.sentAfter items).left = x.left := by
  cases x <;> rfl

/-- Warnings before leave the same cache. -/
@[simp] theorem Attempt.left_warnedAfter {β : Type} (warnings : List Warning) (x : Attempt α β) :
    (x.warnedAfter warnings).left = x.left := by
  cases x <;> rfl

/-- The items that an attempt handed over, whether it went through or stopped. -/
def Attempt.sent {β : Type} (x : Attempt α β) : List (Outbound α) :=
  match x with
  | .ok o => o.sent
  | .error h => h.sent

/-- The address that a probe asks for. -/
def Outbound.target? : Outbound α → Option Address
  | .broadcastProbe target => some target
  | .unicastProbe target _ => some target
  | .packet _ _ => none

/-- An item that asks for an address is a probe. -/
theorem Outbound.isProbe_of_target {item : Outbound α} (h : item.target? = some a) :
    item.isProbe = true := by
  cases item with
  | broadcastProbe | unicastProbe => rfl
  | packet => cases h

namespace Cache

variable {c : Cache α} {r : Responder} {now : Nat} {a : Address}

/-- Counting an item leaves the store alone. -/
@[simp] theorem store_countItem (c : Cache α) (item : Outbound α) :
    (c.countItem item).store = c.store := by
  cases item <;> rfl

/-- Counting an item leaves the configuration alone. -/
@[simp] theorem config_countItem (c : Cache α) (item : Outbound α) :
    (c.countItem item).config = c.config := by
  cases item <;> rfl

/-- If nobody answers, handing items over changes no entry. -/
theorem handOver_silent (c : Cache α) (now : Nat) (items : List (Outbound α)) :
    ∃ d, handOver .silent now c items = .ok { cache := d, answer := (), sent := items } ∧
      d.store = c.store := by
  induction items generalizing c with
  | nil => exact ⟨c, rfl, rfl⟩
  | cons item rest ih =>
    obtain ⟨d, hrest, hstore⟩ := ih (c.countItem item)
    refine ⟨d, ?_, hstore.trans (by simp)⟩
    have hreply : Responder.silent.reply? item = none := by cases item <;> rfl
    simp [handOver, hreply, hrest, Attempt.sentAfter, Outcome.sentAfter]

/-- What handing over the `items` of an address does to it: a broadcast probe may be answered. The
last two arguments are the entry afterwards and all items that went out for the address. -/
inductive Handed (r : Responder) (c : Cache α) (now : Nat) (a : Address) :
    List (Outbound α) → Option (Entry α) → List (Outbound α) → Prop
  | quiet {items : List (Outbound α)} (hitems : .broadcastProbe a ∉ items) :
      Handed r c now a items (c.store.find? a) items
  | asked {e : Entry α} (hfind : c.store.find? a = some e) :
      Handed r c now a [.broadcastProbe a] (some (e.answered c.config r now).1)
        (.broadcastProbe a :: (e.answered c.config r now).2)

/-- Handing over depends on the entry of the address and the configuration only. -/
theorem Handed.congr {d : Cache α} {items sent : List (Outbound α)}
    {after : Option (Entry α)} (h : Handed r d now a items after sent)
    (hconfig : d.config = c.config) (hfind : d.store.find? a = c.store.find? a) :
    Handed r c now a items after sent := by
  cases h with
  | quiet hitems =>
    rw [hfind]
    exact .quiet hitems
  | asked he =>
    rw [hconfig]
    exact .asked (hfind ▸ he)

/-- What is left of an entry that was asked for, and what went out for it. -/
theorem Handed.eq_answered {e : Entry α} {after : Option (Entry α)} {sent : List (Outbound α)}
    (h : Handed r c now a [.broadcastProbe a] after sent) (hfind : c.store.find? a = some e) :
    after = some (e.answered c.config r now).1 ∧
      sent = .broadcastProbe a :: (e.answered c.config r now).2 := by
  cases h with
  | quiet hitems => exact absurd List.mem_cons_self hitems
  | asked hfind' =>
    cases hfind.symm.trans hfind'
    exact ⟨rfl, rfl⟩

/-- A probe that stays unanswered leaves its target as it is. -/
theorem handed_of_no_reply {item : Outbound α} (hreply : r.reply? item = none)
    (htarget : item.target? = some a)
    (hpresent : item = .broadcastProbe a → ∃ e, c.store.find? a = some e) :
    Handed r c now a [item] (c.store.find? a) [item] := by
  cases item with
  | packet => cases htarget
  | unicastProbe target mac => exact .quiet (by simp)
  | broadcastProbe target =>
    cases htarget
    obtain ⟨e, hfind⟩ := hpresent rfl
    have hsilent : r a = none := by simpa [Responder.reply?] using hreply
    have hanswered : e.answered c.config r now = (e, []) := by
      simp [Entry.answered, Responder.heard?, Store.address_of_find? hfind, hsilent]
    have hasked : Handed r c now a _ _ _ := .asked hfind
    rw [hanswered] at hasked
    rw [hfind]
    exact hasked

/-- An answer to a probe is learned by its target, which releases what waits there. -/
theorem handed_of_reply {e : Entry α} {mac : Mac} {o : Outcome α (Option Evicted)}
    (hs : c.store.WellFormed) (hfind : c.store.find? a = some e) (hkind : e.kind = .dynamic)
    (hmac : e.mac? = none) (hr : r a = some mac) (h : c.observe now a mac = .ok o) :
    Handed r c now a [.broadcastProbe a] (o.cache.store.find? a) (.broadcastProbe a :: o.sent) := by
  have hentry : c.store.entryFor a now = e := Store.entryFor_of_some hfind
  have haddress := Store.address_of_find? hfind
  have hlearns : c.learns now a mac = isUsableBinding a mac :=
    learns_of_unresolved hfind hkind hmac
  have hasked : Handed r c now a _ _ _ := .asked hfind
  have hlearned := (observe_learns hs h).1
  generalize o.cache.store.find? a = after at hlearned ⊢
  generalize o.sent = items at hlearned ⊢
  cases hlearned with
  | learned husable =>
    rw [hlearns] at husable
    simpa [Entry.answered, Responder.heard?, haddress, hr, Option.filter, husable, hentry]
      using hasked
  | ignored husable =>
    rw [hlearns] at husable
    simpa [Entry.answered, Responder.heard?, haddress, hr, Option.filter, husable, hfind]
      using hasked

/-- An answer that stops the call has bound its target, but for the deadline. -/
theorem halted_of_reply {e : Entry α} {mac : Mac} {halted : Halted α}
    (hfind : c.store.find? a = some e) (hr : r a = some mac)
    (h : c.observe now a mac = .error halted) :
    r.heard? a = some mac ∧ Clock.limit ≤ now + c.config.reachable.nanos ∧
      halted =
        { cache :=
            { c with store := c.store.put ((e.bound c.config mac now).withDeadlineOf e) }
          answer := () } := by
  have hobserved := c.observe_observed now a mac
  rw [h] at hobserved
  cases hobserved with
  | halted hlearns hclaims hclock =>
    have husable : isUsableBinding a mac = true := by
      unfold learns at hlearns
      rw [Bool.and_eq_true, Bool.and_eq_true] at hlearns
      exact hlearns.1.1
    refine ⟨by rw [Responder.heard?, hr, Option.filter, if_pos husable], hclock, ?_⟩
    cases hclaims with
    | found hfind' =>
      cases hfind.symm.trans hfind'
      rfl
    | roomy hnone => cases hfind.symm.trans hnone
    | evicting hnone => cases hfind.symm.trans hnone

/-- The first of several items changes the entry of its target alone, and the rest follows unless
the clock cannot hold the deadline of its answer. -/
theorem handOver_cons_cases (r : Responder) (now : Nat) (item : Outbound α)
    (rest : List (Outbound α)) (hs : c.store.WellFormed) (htarget : item.target? = some a)
    (hopen : item = .broadcastProbe a →
      ∃ e, c.store.find? a = some e ∧ e.kind = .dynamic ∧ e.mac? = none) :
    (∃ (d : Cache α) (flushed : List (Outbound α)),
      handOver r now c (item :: rest) = (handOver r now d rest).sentAfter (item :: flushed) ∧
      Handed r c now a [item] (d.store.find? a) (item :: flushed) ∧ d.config = c.config ∧
      Store.Edits c.store d.store ∧ (∀ b, b ≠ a → d.store.find? b = c.store.find? b) ∧
      (item = .broadcastProbe a → (r.heard? a).isSome →
        now + c.config.reachable.nanos < Clock.limit)) ∨
    ∃ (e : Entry α) (mac : Mac) (halted : Halted α),
      handOver r now c (item :: rest) = .error halted ∧ item = .broadcastProbe a ∧
      c.store.find? a = some e ∧ r.heard? a = some mac ∧ halted.sent = [item] ∧
      halted.cache.config = c.config ∧
      halted.cache.store = c.store.put ((e.bound c.config mac now).withDeadlineOf e) ∧
      Clock.limit ≤ now + c.config.reachable.nanos := by
  simp only [handOver]
  split
  · next hreply =>
    refine .inl ⟨c.countItem item, [], rfl, ?_, by simp, ?_, by simp, fun hitem hheard => ?_⟩
    · rw [store_countItem]
      refine handed_of_no_reply hreply htarget fun hitem => ?_
      obtain ⟨e, hfind, _⟩ := hopen hitem
      exact ⟨e, hfind⟩
    · rw [store_countItem]
    · have hsilent : r a = none := by simpa [hitem, Responder.reply?] using hreply
      rw [Responder.heard?, hsilent] at hheard
      cases hheard
  · next target mac hreply =>
    cases item with
    | packet => cases htarget
    | unicastProbe => cases hreply
    | broadcastProbe =>
      cases htarget
      obtain ⟨e, hfind, hkind, hmac⟩ := hopen rfl
      obtain ⟨mac', hr, heq⟩ := Option.map_eq_some_iff.mp hreply
      cases heq
      split
      · next halted hobserve =>
        obtain ⟨hheard, hclock, rfl⟩ :=
          halted_of_reply (c := c.countItem (.broadcastProbe a)) hfind hr hobserve
        exact .inr ⟨e, mac, _, rfl, rfl, hfind, hheard, rfl, rfl, rfl, hclock⟩
      · next learned hobserve =>
        have hworks := (observe_learns (c := c.countItem (.broadcastProbe a)) hs hobserve).2
        refine .inl ⟨learned.cache, learned.sent, rfl, ?_, hworks.config_eq, hworks.edits, ?_,
          fun _ hheard => ?_⟩
        · exact (handed_of_reply (c := c.countItem (.broadcastProbe a)) hs hfind hkind hmac hr
            hobserve).congr rfl rfl
        · intro b hb
          rcases hworks.spared b hb with hsame | ⟨_, hnone, _⟩
          · exact hsame
          · rw [store_countItem, hfind] at hnone
            cases hnone
        · have htaken := exists_observe_iff.mp ⟨learned, hobserve⟩
          rw [learns_of_unresolved (c := c.countItem (.broadcastProbe a)) hfind hkind hmac] at htaken
          exact htaken (by simpa [Responder.heard?, hr] using hheard)

/-- The first of several items that are all handed over changes the entry of its target alone. -/
private theorem handOver_cons {item : Outbound α} {rest : List (Outbound α)} {o : Outcome α Unit}
    (hs : c.store.WellFormed) (htarget : item.target? = some a)
    (hopen : item = .broadcastProbe a →
      ∃ e, c.store.find? a = some e ∧ e.kind = .dynamic ∧ e.mac? = none)
    (h : handOver r now c (item :: rest) = .ok o) :
    ∃ (d : Cache α) (flushed : List (Outbound α)) (o' : Outcome α Unit),
      handOver r now d rest = .ok o' ∧ o = o'.sentAfter (item :: flushed) ∧
      Handed r c now a [item] (d.store.find? a) (item :: flushed) ∧
      d.config = c.config ∧ Store.Edits c.store d.store ∧
      ∀ b, b ≠ a → d.store.find? b = c.store.find? b := by
  rcases handOver_cons_cases r now item rest hs htarget hopen with
    ⟨d, flushed, hcons, hhanded, hconfig, hedits, hothers, _⟩ | ⟨e, mac, halted, hhalts, _⟩
  · rw [hcons] at h
    obtain ⟨o', hrest, rfl⟩ := Attempt.sentAfter_eq_ok h
    exact ⟨d, flushed, o', hrest, rfl, hhanded, hconfig, hedits, hothers⟩
  · cases h.symm.trans hhalts

/-- Handing over one probe changes the entry of its target alone. -/
theorem handOver_probe {item : Outbound α} {o : Outcome α Unit} (hs : c.store.WellFormed)
    (htarget : item.target? = some a)
    (hopen : item = .broadcastProbe a →
      ∃ e, c.store.find? a = some e ∧ e.kind = .dynamic ∧ e.mac? = none)
    (h : handOver r now c [item] = .ok o) :
    Handed r c now a [item] (o.cache.store.find? a) o.sent ∧ o.cache.config = c.config ∧
      Store.Edits c.store o.cache.store ∧
      ∀ b, b ≠ a → o.cache.store.find? b = c.store.find? b := by
  obtain ⟨d, flushed, o', hout, rfl, hfirst, hconfig, hedits, hothers⟩ :=
    handOver_cons hs htarget hopen h
  cases hout
  refine ⟨?_, hconfig, hedits, hothers⟩
  simpa using hfirst

/-- Handing over probes with distinct targets, the broadcast ones for entries without a link
address, hands each target its share and changes nothing else. -/
theorem handOver_handed {items : List (Address × Outbound α)} {o : Outcome α Unit}
    (hs : c.store.WellFormed) (htarget : ∀ x ∈ items, x.2.target? = some x.1)
    (hnodup : (items.map (·.1)).Nodup)
    (hopen : ∀ x ∈ items, x.2 = .broadcastProbe x.1 →
      ∃ e, c.store.find? x.1 = some e ∧ e.kind = .dynamic ∧ e.mac? = none)
    (h : handOver r now c (items.map (·.2)) = .ok o) :
    o.cache.config = c.config ∧ Store.Edits c.store o.cache.store ∧
      ∃ sent, sent.map (·.2) = o.sent ∧
        ∀ a, Handed r c now a (share a items) (o.cache.store.find? a) (share a sent) := by
  induction items generalizing c o with
  | nil =>
    cases h
    exact ⟨rfl, .refl, [], rfl, fun a => .quiet (by simp)⟩
  | cons x rest ih =>
    obtain ⟨target, item⟩ := x
    obtain ⟨hnotin, hrest⟩ := List.nodup_cons.mp hnodup
    obtain ⟨d, flushed, o', hout, rfl, hfirst, hconfig, hedits, hothers⟩ :=
      handOver_cons hs (htarget _ List.mem_cons_self) (hopen _ List.mem_cons_self) h
    have hopen' : ∀ x ∈ rest, x.2 = .broadcastProbe x.1 →
        ∃ e, d.store.find? x.1 = some e ∧ e.kind = .dynamic ∧ e.mac? = none := by
      intro x hx hitem
      have hne : x.1 ≠ target := by
        rintro rfl
        exact hnotin (List.mem_map.mpr ⟨x, hx, rfl⟩)
      rw [hothers _ hne]
      exact hopen x (List.mem_cons_of_mem _ hx) hitem
    obtain ⟨hconfig', hedits', sent, hsent, hhanded⟩ :=
      ih (hedits.wellFormed hs) (fun x hx => htarget x (List.mem_cons_of_mem _ hx)) hrest hopen'
        hout
    refine ⟨hconfig'.trans hconfig, hedits.trans hedits',
      (target, item) :: flushed.map (target, ·) ++ sent, by simp [hsent, Function.comp_def], ?_⟩
    intro a
    have hlast := hhanded a
    by_cases ha : target = a
    · subst ha
      rw [share_eq_nil hnotin] at hlast
      simp only [share_eq_nil hnotin, share_cons, share_append, share_map_mk, if_true,
        List.cons_append, Outcome.cache_sentAfter]
      generalize o'.cache.store.find? target = after at hlast ⊢
      generalize share target sent = tail at hlast ⊢
      cases hlast with
      | quiet => simpa using hfirst
    · simp only [share_cons, share_append, share_map_mk, if_neg ha, List.cons_append,
        List.nil_append]
      exact hlast.congr hconfig (hothers a (Ne.symm ha))

end Cache

end Neighbor
