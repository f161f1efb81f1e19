import Mathlib.Data.List.Perm.Subperm
import Neighbor.Proofs.Effect
import Neighbor.Proofs.Horizon
import Neighbor.Proofs.Precedence

/-!
# A tick and an observation

A tick and an observation of one address may be made at almost the same time, and either may be taken
in first. If the observation is as new as the tick and as the binding that it meets, it prevails
(`Cache.Reached.observation_prevails`): a later tick finds the binding fresh, and whatever an earlier
tick made of the entry takes the observation. Two facts carry the second case. An entry that expires
leaves room for another, and an unresolved entry never was confirmed after it is due
(`Entry.Onward`), so that it is older than any answer that the tick may draw.
-/

namespace Neighbor

variable {α : Type}

namespace Entry

variable {cfg : Config} {r : Responder} {now : Nat} {e e' : Entry α} {aged : Aged α}

/-- An unresolved entry was created, or last confirmed, no later than it is due. -/
def Onward (e : Entry α) : Prop :=
  e.state = .incomplete → ∀ t, e.deadline = some t → e.confirmedAt ≤ t

/-- Nothing is asked of an entry that is not searched for. -/
theorem Onward.of_state (h : e.state ≠ .incomplete) : e.Onward := fun hstate => absurd hstate h

/-- Use leaves an entry onward. -/
theorem Onward.used (h : e.Onward) : (e.used cfg now).Onward := by
  unfold Entry.used
  split
  · exact .of_state nofun
  · exact h

/-- A bound entry is resolved. -/
theorem onward_bound {mac : Mac} : (e.bound cfg mac now).Onward := .of_state nofun

/-- Time leaves an entry onward, also where it stops with the old deadline. -/
theorem Passes.onward (h : e.Passes cfg now aged) (he : e.Onward) :
    aged.entry.Onward ∧ (aged.entry.withDeadlineOf e).Onward := by
  cases h with
  | idle | expired => exact ⟨he, he⟩
  | rechecked | checked | staled | gaveUp => exact ⟨.of_state nofun, .of_state nofun⟩
  | reprobed hdue hstatus =>
    have hstate : e.state = .incomplete := congrArg Status.state hstatus
    obtain ⟨t, hdeadline, hle⟩ := isDue_iff.mp hdue
    have hconfirmed := he hstate t hdeadline
    refine ⟨fun _ u hu => ?_, fun _ => he hstate⟩
    cases hu
    change e.confirmedAt ≤ _
    omega

/-- What a tick leaves of an aged entry is the entry, or what the answer to its probe makes of it. -/
theorem Aged.settled_cases (h : (aged.settled cfg r now).1 = some e') :
    e' = aged.entry ∨
      ∃ a mac, aged.probe = some (.broadcastProbe a) ∧ e' = aged.entry.bound cfg mac now := by
  unfold settled at h
  split at h
  · cases h
  · next a _ hprobe =>
    cases h
    rcases aged.entry.answered_cases with ⟨_, hanswered⟩ | ⟨mac, _, hanswered⟩
    · exact .inl (by rw [hanswered])
    · exact .inr ⟨a, mac, hprobe, by rw [hanswered]⟩
  · exact .inl (Option.some.inj h).symm

/-- Time confirms nothing. -/
theorem Passes.confirmedAt_eq (h : e.Passes cfg now aged) :
    aged.entry.confirmedAt = e.confirmedAt := by
  cases h <;> rfl

/-- An entry that asks all stations is older than the tick. -/
theorem Passes.confirmedAt_le {a : Address} (h : e.Passes cfg now aged) (he : e.Onward)
    (hprobe : aged.probe = some (.broadcastProbe a)) : e.confirmedAt ≤ now := by
  cases h with
  | reprobed hdue hstatus =>
    obtain ⟨t, hdeadline, hle⟩ := isDue_iff.mp hdue
    exact Nat.le_trans (he (congrArg Status.state hstatus) t hdeadline) hle
  | idle | rechecked | checked | staled | gaveUp | expired => cases hprobe

/-- Before its deadline time leaves an entry as it is. -/
theorem Passes.of_not_due (h : e.Passes cfg now aged) (hdue : e.isDue now = false) :
    aged = { entry := e, aging := .idle } := by
  cases h with
  | idle => rfl
  | reprobed hlate | rechecked hlate | checked hlate | staled hlate | gaveUp hlate
  | expired hlate => cases hdue.symm.trans hlate

end Entry

section Onward

variable {r : Responder} {c : Cache α} {now : Nat} {a : Address} {call : Call α}
  {after : Option (Entry α)} {sent : List (Outbound α)} {e' : Entry α}

/-- A tick leaves an entry onward. -/
theorem Cache.Ticked.onward (h : c.Ticked r now a after sent)
    (hbefore : ∀ e, c.store.find? a = some e → e.Onward) (hafter : after = some e') :
    e'.Onward := by
  cases h with
  | untouched => exact hbefore e' hafter
  | visited hfind hpasses =>
    cases hafter
    exact (hpasses.onward (hbefore _ hfind)).1
  | halted hfind hpasses =>
    cases hafter
    exact (hpasses.onward (hbefore _ hfind)).2
  | settled hfind hpasses =>
    rcases Entry.Aged.settled_cases hafter with rfl | ⟨_, _, _, rfl⟩
    · exact (hpasses.onward (hbefore _ hfind)).1
    · exact Entry.onward_bound
  | answered =>
    cases hafter
    exact .of_state nofun

/-- A turn leaves an entry onward. -/
theorem Turn.onward {answer : Answer} (h : Turn r c now a call answer after sent)
    (hbefore : ∀ e, c.store.find? a = some e → e.Onward) (hafter : after = some e') :
    e'.Onward := by
  cases h with
  | @resolved packet _ _ _ _ hresolves =>
    cases hresolves with
    | refused hfind =>
      cases hafter
      exact hbefore _ hfind
    | noRoom => cases hafter
    | opened =>
      cases hafter
      rcases (c.opening now a packet).answered_cases with ⟨_, hanswered⟩ | ⟨mac, _, hanswered⟩
      · rw [hanswered]
        intro _ t ht
        cases ht
        exact Nat.le_add_right _ _
      · rw [hanswered]
        exact Entry.onward_bound
    | passed hfind =>
      cases hafter
      exact (hbefore _ hfind).used
    | parked hfind hstatus =>
      cases hafter
      have hold := hbefore _ hfind
      exact fun _ => hold (congrArg Status.state hstatus)
  | learned _ hlearns =>
    cases hlearns with
    | ignored => exact hbefore e' hafter
    | learned =>
      cases hafter
      exact Entry.onward_bound
  | hinted hhints =>
    cases hhints with
    | ignored => exact hbefore e' hafter
    | counted =>
      cases hafter
      exact Entry.onward_bound
  | pinned hpins =>
    cases hpins with
    | refused => exact hbefore e' hafter
    | pinned =>
      cases hafter
      exact .of_state nofun
  | aged hages => exact hages.ticked.onward hbefore hafter
  | removed | cleared => cases hafter
  | aside _ _ hspared =>
    rcases hspared with rfl | ⟨rfl, _⟩
    · exact hbefore e' hafter
    · cases hafter

/-- A call that stops leaves an entry onward. -/
theorem Stop.onward (h : Stop r c now a call after sent)
    (hbefore : ∀ e, c.store.find? a = some e → e.Onward) (hafter : after = some e') :
    e'.Onward := by
  cases h with
  | unopened =>
    -- the new entry has no deadline yet
    cases hafter
    exact fun _ t ht => nomatch ht
  | answered | unlearned | unhinted =>
    cases hafter
    exact .of_state nofun
  | unused _ hstate =>
    cases hafter
    exact .of_state ((Entry.state_used_of_stale hstate).trans_ne (by decide))
  | ticked hticked => exact hticked.onward hbefore hafter
  | aside _ _ hspared =>
    rcases hspared with rfl | ⟨rfl, _⟩
    · exact hbefore e' hafter
    · cases hafter

/-- Every entry of a cache that calls lead to is onward. -/
theorem Cache.Reached.onward {cfg : Config} {start : Nat} {calls : List (Call α)} {e : Entry α}
    (h : c.Reached cfg start calls) (hfind : c.store.find? a = some e) : e.Onward := by
  refine h.induction (P := fun c : Cache α => ∀ a e, c.store.find? a = some e → e.Onward) nofun
    (fun d q hd ih b x hx => ?_) a e hfind
  cases hserve : d.serve q with
  | ok o =>
    rw [hserve] at hx
    obtain ⟨_, _, hturn⟩ := (hd.turns hserve).turns
    exact (hturn b).onward (ih b) hx
  | error h =>
    rw [hserve] at hx
    obtain ⟨_, _, hstop⟩ := perform_stops hd hserve
    exact (hstop b).onward (ih b) hx

end Onward

namespace Cache

variable {c : Cache α} {r : Responder} {now t t' : Nat} {a : Address} {mac : Mac}
  {after : Option (Entry α)} {sent : List (Outbound α)} {e e' : Entry α}

/-- A tick leaves an entry alone that is not due. -/
theorem Ticked.of_not_due (h : Ticked r c now a after sent) (hfind : c.store.find? a = some e)
    (hdue : e.isDue now = false) : after = some e := by
  cases h with
  | untouched => exact hfind
  | visited hfind' hpasses | halted hfind' hpasses | settled hfind' hpasses =>
    cases hfind.symm.trans hfind'
    cases hpasses.of_not_due hdue
    rfl
  | answered hfind' hpasses hprobe =>
    cases hfind.symm.trans hfind'
    cases hpasses.of_not_due hdue
    cases hprobe

/-- A tick makes no entry. -/
theorem Ticked.of_absent (h : Ticked r c now a after sent) (hfind : c.store.find? a = none) :
    after = none := by
  cases h with
  | untouched => exact hfind
  | visited hfind' | halted hfind' | settled hfind' | answered hfind' =>
    cases hfind.symm.trans hfind'

/-- An entry that a tick leaves takes evidence that is as new as the tick and as the binding. -/
theorem Ticked.accepts (h : Ticked r c t a after sent) (hfind : c.store.find? a = some e)
    (hcoherent : e.Coherent) (hkind : e.kind = .dynamic) (honward : e.Onward) (ht : t ≤ t')
    (hnew : e.mac? = none ∨ e.confirmedAt ≤ t') (hafter : after = some e') :
    e'.accepts t' = true := by
  rw [Entry.accepts_iff]
  -- time itself either keeps link address and confirmation or drops the link address
  have haged {aged : Entry.Aged α} (hpasses : e.Passes c.config t aged) :
      aged.entry.kind = .dynamic ∧ (aged.entry.mac? = none ∨ aged.entry.confirmedAt ≤ t') := by
    refine ⟨hpasses.kind_eq.trans hkind, ?_⟩
    rcases hpasses.continues hcoherent with hcontinues | ⟨_, hnone⟩
    · rwa [hcontinues.mac?_eq, hpasses.confirmedAt_eq]
    · exact .inl hnone
  have hbound {aged : Entry.Aged α} {b : Address} (hpasses : e.Passes c.config t aged)
      (hprobe : aged.probe = some (.broadcastProbe b)) : max aged.entry.confirmedAt t ≤ t' := by
    have hold := hpasses.confirmedAt_le honward hprobe
    rw [hpasses.confirmedAt_eq]
    omega
  cases h with
  | untouched =>
    cases hfind.symm.trans hafter
    exact ⟨hkind, hnew⟩
  | visited hfind' hpasses | halted hfind' hpasses =>
    cases hafter
    cases hfind.symm.trans hfind'
    exact haged hpasses
  | settled hfind' hpasses =>
    cases hfind.symm.trans hfind'
    rcases Entry.Aged.settled_cases hafter with rfl | ⟨b, mac, hprobe, rfl⟩
    · exact haged hpasses
    · exact ⟨(haged hpasses).1, .inr (hbound hpasses hprobe)⟩
  | answered hfind' hpasses hprobe =>
    cases hafter
    cases hfind.symm.trans hfind'
    exact ⟨(haged hpasses).1, .inr (hbound hpasses hprobe)⟩

/-- Whatever a tick leaves of an address that had an entry takes evidence that is as new as the tick
and as the binding. -/
theorem accepts_tick (hc : c.Coherent) (r : Responder) (hfind : c.store.find? a = some e)
    (hkind : e.kind = .dynamic) (honward : e.Onward) (ht : t ≤ t')
    (hnew : e.mac? = none ∨ e.confirmedAt ≤ t') :
    ((c.tick r t).left.store.entryFor a t').accepts t' = true := by
  obtain ⟨_, _, hticked⟩ := tick_ticked hc r t
  cases hafter : (c.tick r t).left.store.find? a with
  | none =>
    rw [Store.entryFor_of_none hafter]
    rfl
  | some e' =>
    rw [Store.entryFor_of_some hafter]
    exact (hticked a).accepts hfind (hc.of_find? hfind) hkind honward ht hnew hafter

/-- After a tick there is an entry, or room for one, for an address that had one before. -/
theorem admits_tick (hc : c.Coherent) (r : Responder) (t : Nat) (hfind : c.store.find? a = some e) :
    (c.tick r t).left.store.admits a = true := by
  obtain ⟨sent, _, hticked⟩ := tick_ticked hc r t
  have hfollows := tick_follows hc r t
  generalize (c.tick r t).left = d at hticked hfollows ⊢
  cases hgone : d.store.find? a with
  | some e' => simp [Store.admits, hgone]
  | none =>
    -- the addresses of `d` are among those of `c`, and `a` is one of the latter only
    have hsubset : ∀ b ∈ d.store.addresses, b ∈ c.store.addresses := by
      intro b hb
      rw [Store.mem_addresses_iff] at hb ⊢
      cases hbefore : c.store.find? b with
      | some x => rfl
      | none =>
        rw [(hticked b).of_absent hbefore] at hb
        cases hb
    have hnodup : (a :: d.store.addresses).Nodup := by
      refine List.nodup_cons.mpr ⟨fun hmem => ?_,
        nodup_addresses (hfollows.coherent hc).wellFormed.ordered⟩
      rw [Store.mem_addresses_iff, hgone] at hmem
      cases hmem
    have hall : ∀ b ∈ a :: d.store.addresses, b ∈ c.store.addresses := by
      refine List.forall_mem_cons.mpr ⟨?_, hsubset⟩
      rw [Store.mem_addresses_iff, hfind]
      rfl
    have hlength : d.store.size + 1 ≤ c.store.size := by
      simpa [Store.addresses, Store.size] using (hnodup.subperm hall).length_le
    have hsize := hc.wellFormed.size_le
    have hcapacity := hfollows.edits.bounds.1
    have hroom : d.store.size < d.store.capacity := by omega
    simp [Store.admits, hroom]

/-- Evidence for a usable binding that the entry of its address accepts binds it. -/
theorem observe_binds (hc : c.Coherent) (ha : a.isUsable = true) (hmac : mac.isUnicast = true)
    (hadmits : c.store.admits a = true) (haccepts : (c.store.entryFor a now).accepts now = true)
    (hclock : now + c.config.reachable.nanos < Clock.limit) :
    ∃ o, c.observe now a mac = .ok o ∧
      o.cache.store.find? a = some ((c.store.entryFor a now).bound c.config mac now) := by
  obtain ⟨o, hobserve⟩ : ∃ o, c.observe now a mac = .ok o := exists_observe hclock
  obtain ⟨_, _, hfind⟩ :=
    find?_of_observe hc (by simp [isUsableBinding, ha, hmac]) hadmits hobserve
  rw [Entry.hearing, if_pos haccepts] at hfind
  exact ⟨o, hobserve, hfind⟩

/-- The address `a` is bound to `mac` and reachable until `t`, and no tick before then changes its
entry. -/
def Stands (c : Cache α) (a : Address) (mac : Mac) (t : Nat) : Prop :=
  c.lookup a = some (mac, .reachable) ∧
    ∃ e, c.store.find? a = some e ∧ e.deadline = some t ∧
      ∀ qs : List (Request α), (∀ q ∈ qs, q.call = .tick ∧ q.now < t) →
        (c.serveAll qs).store.find? a = some e

/-- A binding that is due at `t` stands until then. -/
theorem stands_of_deadline (hc : c.Coherent) (hfind : c.store.find? a = some e)
    (hmac : e.mac? = some mac) (hstate : e.state = .reachable) (hdeadline : e.deadline = some t) :
    c.Stands a mac t := by
  refine ⟨by simp [lookup, hfind, hmac, hstate], e, hfind, hdeadline, fun qs hqs => ?_⟩
  refine (serveAll_induction (P := fun d : Cache α => d.Coherent ∧ d.store.find? a = some e)
    (fun d q hq hd => ⟨(hd.1.serve q).1, ?_⟩) ⟨hc, hfind⟩).2
  obtain ⟨hcall, hnow⟩ := hqs q hq
  have hdue : e.isDue q.now = false := by simp [Entry.isDue, hdeadline, hnow]
  obtain ⟨_, _, hticked⟩ := tick_ticked hd.1 q.responder q.now
  rw [serve, hcall, perform, Attempt.left_mapAnswer]
  exact (hticked a).of_not_due hd.2 hdue

/-- Ticks before the deadline leave a binding that stands as it is. -/
theorem Stands.serveAll {qs : List (Request α)} (h : c.Stands a mac t)
    (hqs : ∀ q ∈ qs, q.call = .tick ∧ q.now < t) : (c.serveAll qs).Stands a mac t := by
  obtain ⟨hlookup, e, hfind, hdeadline, hkept⟩ := h
  have hafter := hkept qs hqs
  refine ⟨?_, e, hafter, hdeadline, fun rest hrest => ?_⟩
  · rwa [lookup, hafter, ← hfind]
  · rw [← serveAll_append]
    exact hkept (qs ++ rest) (List.forall_mem_append.mpr ⟨hqs, hrest⟩)

/-- An observation that binds its address stands for the configured time. -/
theorem stands_of_observe {q : Request α} (hc : c.Coherent) (hcall : q.call = .observe a mac)
    (ha : a.isUsable = true) (hmac : mac.isUnicast = true) (hadmits : c.store.admits a = true)
    (haccepts : (c.store.entryFor a q.now).accepts q.now = true)
    (hclock : q.now + c.config.reachable.nanos < Clock.limit) :
    (c.serve q).left.Stands a mac (q.now + c.config.reachable.nanos) := by
  obtain ⟨o, hobserve, hfind⟩ := observe_binds hc ha hmac hadmits haccepts hclock
  have hserved : (c.serve q).left = o.cache := by
    rw [serve, hcall, perform, Attempt.left_mapAnswer, hobserve, Attempt.left_ok]
  rw [← hserved] at hfind
  exact stands_of_deadline (hc.serve q).1 hfind rfl rfl rfl

/-- An observation that is as new as a tick and as the binding that it meets prevails, whichever of
the two is taken in first and whatever the tick would have made of the entry or has made of it. It
stands until the configured time has passed since the observation. -/
theorem Reached.observation_prevails {cfg : Config} {start : Nat} {calls : List (Call α)}
    (h : c.Reached cfg start calls) (hreachable : 0 < cfg.reachable.nanos)
    (ha : a.isUsable = true) (hmac : mac.isUnicast = true) (hfind : c.store.find? a = some e)
    (hkind : e.kind = .dynamic) (ht : t ≤ t') (hnew : e.mac? = none ∨ e.confirmedAt ≤ t')
    (hclock : t' + cfg.reachable.nanos < Clock.limit) (r : Responder) :
    let observes : Request α := ⟨r, t', .observe a mac⟩
    let ticks : Request α := ⟨r, t, .tick⟩
    (c.serveAll [observes, ticks]).Stands a mac (t' + cfg.reachable.nanos) ∧
      (c.serveAll [ticks, observes]).Stands a mac (t' + cfg.reachable.nanos) ∧
      (cfg.Fits t → c.GoesThrough [observes, ticks] ∧ c.GoesThrough [ticks, observes]) := by
  intro observes ticks
  obtain ⟨hcoherent, rfl, _⟩ := h.coherent
  refine ⟨?_, ?_, fun hfits => ?_⟩
  · -- the later tick finds the binding fresh
    have haccepts : (c.store.entryFor a t').accepts t' = true := by
      rw [Store.entryFor_of_some hfind, Entry.accepts_iff]
      exact ⟨hkind, hnew⟩
    have hstands : (c.serve observes).left.Stands a mac (t' + c.config.reachable.nanos) :=
      stands_of_observe hcoherent rfl ha hmac (by simp [Store.admits, hfind]) haccepts hclock
    have hearly : ∀ q ∈ [ticks], q.call = .tick ∧ q.now < t' + c.config.reachable.nanos := by
      intro q hq
      cases List.mem_singleton.mp hq
      exact ⟨rfl, Nat.lt_of_le_of_lt ht (Nat.lt_add_of_pos_right hreachable)⟩
    exact hstands.serveAll hearly
  · -- what the earlier tick leaves takes the observation
    obtain ⟨hserved, hconfig⟩ := hcoherent.serve ticks
    have hticks : (c.serve ticks).left = (c.tick r t).left := Attempt.left_mapAnswer _ _
    have haccepts := accepts_tick hcoherent r hfind hkind (h.onward hfind) ht hnew
    have hadmits := admits_tick hcoherent r t hfind
    rw [← hticks] at haccepts hadmits
    have hstands := stands_of_observe (q := observes) hserved rfl ha hmac hadmits haccepts
      (by rwa [hconfig])
    rwa [hconfig] at hstands
  · have hserves : ∀ q ∈ [observes, ticks], ∀ d : Cache α, d.Coherent → d.config = c.config →
        ∃ o, d.serve q = .ok o := by
      intro q hq d _ hconfig
      rcases List.mem_pair.mp hq with rfl | rfl
      · exact Attempt.exists_mapAnswer (exists_observe (by rwa [hconfig])) _
      · exact exists_perform (by rwa [hconfig]) r .tick
    exact ⟨hcoherent.goesThrough hserves,
      hcoherent.goesThrough fun q hq => hserves q (by simpa [or_comm] using hq)⟩

/-- The observation prevails over a tick that would remove a stale binding from a cache that it
fills. -/
theorem Reached.observation_prevails_of_expiry :
    let a : Address := ⟨10, 0, 0, 5⟩
    let mac : Mac := ⟨2, 0, 0, 0, 0, 2⟩
    let c : Cache Nat := (Cache.create .brief 0 : Outcome Nat Unit).cache.serveAll
      [⟨.silent, 1, .observe a ⟨2, 0, 0, 0, 0, 1⟩⟩, ⟨.silent, 11, .tick⟩]
    let observes : Request Nat := ⟨.silent, 22, .observe a mac⟩
    let ticks : Request Nat := ⟨.silent, 21, .tick⟩
    (c.serveAll [ticks]).store.find? a = none ∧
      (c.serveAll [observes, ticks]).Stands a mac 32 ∧
      (c.serveAll [ticks, observes]).Stands a mac 32 := by
  intro a mac c observes ticks
  have hreached : c.Reached .brief 0 [.observe a ⟨2, 0, 0, 0, 0, 1⟩, .tick] :=
    reached_iff.mpr ⟨_, rfl, rfl⟩
  obtain ⟨e, hfind, hkind, hnew⟩ :
      ∃ e ∈ c.store.find? a, e.kind = .dynamic ∧ e.confirmedAt ≤ 22 := by
    decide +kernel
  obtain ⟨hfirst, hlast, _⟩ := @Reached.observation_prevails Nat c 21 22 a mac e .brief 0 _ hreached
    (by decide) (by decide) (by decide) hfind hkind (by decide) (.inr hnew) (by decide) .silent
  exact ⟨by decide +kernel, hfirst, hlast⟩

end Cache

end Neighbor
