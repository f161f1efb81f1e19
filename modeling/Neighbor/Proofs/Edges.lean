import Neighbor.Proofs.Change
import Neighbor.Proofs.Reach

/-!
# The edges of the state machine

One call whose probes nobody answers moves the entry of an address along one of the edges that
`Edge` lists, and leaves every other address alone but for one that makes room.
`Cache.Reached.only_edges` says so of every call on every cache that calls lead to, whether the call
goes through or stops at the clock.
-/

namespace Neighbor

variable {α : Type}

/-- The edges along which time takes an entry: its state before, and after if it stays. -/
def State.ageing : List (State × Option State) :=
  [(.incomplete, some .incomplete), (.incomplete, some .failed), (.reachable, some .stale),
    (.stale, none), (.delay, some .probe), (.probe, some .probe), (.probe, some .failed),
    (.failed, none)]

/-- Two entries that differ in nothing that lasts: the same generation, kind and link address. -/
structure Entry.Continues (e e' : Entry α) : Prop where
  generation_eq : e'.generation = e.generation
  kind_eq : e'.kind = e.kind
  mac?_eq : e'.mac? = e.mac?

/-- What a call may do to the entry of an address that it works on: the entry before and after. -/
inductive Edge (c : Cache α) (now : Nat) (a : Address) :
    Call α → Option (Entry α) → Option (Entry α) → Prop
  /-- A packet starts the resolution of an address without an entry. -/
  | started {packet : α} {e' : Entry α} (hafter : e'.state = .incomplete)
      (hkind : e'.kind = .dynamic) (hgeneration : e'.generation = c.store.nextGeneration) :
      Edge c now a (.resolve a packet) none (some e')
  | noRoom {packet : α} (hfull : c.store.capacity ≤ c.store.size)
      (hstuck : ∀ e ∈ c.store.entries, e.isEvictable = false) :
      Edge c now a (.resolve a packet) none none
  /-- A packet for a stale binding starts the wait for a confirmation. -/
  | woken {packet : α} {e e' : Entry α} (hbefore : e.state = .stale) (hafter : e'.state = .delay)
      (hcontinues : e.Continues e') : Edge c now a (.resolve a packet) (some e) (some e')
  /-- A packet starts the resolution of a failed address anew once its grace has ended. -/
  | restarted {packet : α} {e e' : Entry α} {t : Nat} (hbefore : e.state = .failed)
      (hdeadline : e.deadline = some t) (hgrace : t ≤ now) (hafter : e'.state = .incomplete)
      (hkind : e'.kind = .dynamic) (hgeneration : e.generation < e'.generation) :
      Edge c now a (.resolve a packet) (some e) (some e')
  /-- Any other packet leaves the entry as it is, but for what waits in it and when it was used. -/
  | held {packet : α} {e e' : Entry α} (hstale : e.state ≠ .stale)
      (hfailed : e.state = .failed → ∃ t, e.deadline = some t ∧ now < t) (halike : e.Alike e')
      (hkind : e'.kind = e.kind) : Edge c now a (.resolve a packet) (some e) (some e')
  /-- Evidence makes any dynamic entry reachable. -/
  | learned {call : Call α} {mac : Mac} {before : Option (Entry α)} {e' : Entry α}
      (hevidence : call.evidence? c = some (a, mac))
      (hbefore : ∀ e, before = some e → e.kind = .dynamic ∧ e'.generation = e.generation)
      (hafter : e'.state = .reachable) (hkind : e'.kind = .dynamic) (hmac : e'.mac? = some mac) :
      Edge c now a call before (some e')
  | ignored {call : Call α} {mac : Mac} {before : Option (Entry α)}
      (hevidence : call.evidence? c = some (a, mac)) : Edge c now a call before before
  /-- A hint makes a dynamic entry with a link address reachable there. -/
  | confirmed {e e' : Entry α} (hbefore : e.state.isResolved = true) (hkind : e.kind = .dynamic)
      (hafter : e'.state = .reachable) (hcontinues : e.Continues e') :
      Edge c now a (.confirm a) (some e) (some e')
  | unconfirmed {before : Option (Entry α)} : Edge c now a (.confirm a) before before
  /-- A permanent binding takes the place of anything. -/
  | pinned {mac : Mac} {before : Option (Entry α)} {e' : Entry α}
      (hbefore : ∀ e, before = some e → e'.generation = e.generation)
      (hafter : e'.state = .reachable) (hkind : e'.kind = .permanent)
      (hmac : e'.mac? = some mac) : Edge c now a (.pin a mac) before (some e')
  | unpinned {mac : Mac} (hfull : c.store.capacity ≤ c.store.size)
      (hstuck : ∀ e ∈ c.store.entries, e.isEvictable = false) :
      Edge c now a (.pin a mac) none none
  /-- Time takes a dynamic entry along one edge once its deadline has passed. -/
  | aged {e : Entry α} {after : Option (Entry α)} {t : Nat} (hkind : e.kind = .dynamic)
      (hdeadline : e.deadline = some t) (hdue : t ≤ now)
      (hedge : (e.state, after.map (·.state)) ∈ State.ageing)
      (hafter : ∀ e', after = some e' → e'.generation = e.generation ∧ e'.kind = e.kind ∧
        ∀ mac, e'.mac? = some mac → e.mac? = some mac) :
      Edge c now a .tick (some e) after
  | rested {before : Option (Entry α)} : Edge c now a .tick before before
  | removed {before : Option (Entry α)} : Edge c now a (.invalidate a) before none
  | cleared {before : Option (Entry α)} : Edge c now a .invalidateAll before none

/-- The cache `d` is what a call may make of `c`: the addresses that it works on move along edges,
and of the others at most one goes, a dynamic entry that makes room for a new one. -/
structure Cache.MovesTo (c : Cache α) (now : Nat) (call : Call α) (d : Cache α) : Prop where
  edges : ∀ a, call.isSweeping = true ∨ call.subject? c = some a →
    Edge c now a call (c.store.find? a) (d.store.find? a)
  others : call.isSweeping = false → ∃ out : Option Address,
    (∀ b, call.subject? c ≠ some b →
      d.store.find? b = if out = some b then none else c.store.find? b) ∧
    ∀ b, out = some b → call.isClaiming = true ∧ c.store.capacity ≤ c.store.size ∧
      (∃ a, call.subject? c = some a ∧ c.store.find? a = none) ∧
      ∃ v, c.store.find? b = some v ∧ v.kind = .dynamic ∧ v.isEvictable = true

/-- Only a dynamic entry may be evicted. -/
theorem Entry.dynamic_of_isEvictable {e : Entry α} (h : e.isEvictable = true) :
    e.kind = .dynamic := by
  unfold isEvictable evictionTier? at h
  cases hkind : e.kind with
  | dynamic => rfl
  | permanent =>
    rw [hkind] at h
    cases h

namespace Cache

variable {c : Cache α} {now : Nat} {a : Address} {call : Call α} {d : Cache α}

/-- A call that works on one address moves it along an edge and ousts what it says. -/
theorem MovesTo.of_ousts {evicted : Option Evicted} (hsweeping : call.isSweeping = false)
    (hsubject : call.subject? c = some a)
    (hedge : Edge c now a call (c.store.find? a) (d.store.find? a))
    (housts : c.store.Ousts a evicted d.store)
    (hclaiming : call.isClaiming = false → evicted = none) : c.MovesTo now call d := by
  refine ⟨fun b hb => ?_, fun _ => ⟨evicted.map (·.address), fun b hb => ?_, fun b hb => ?_⟩⟩
  · rw [hsweeping, hsubject] at hb
    rcases hb with hb | hb <;> cases hb
    exact hedge
  · refine housts.find?_eq b fun hba => hb ?_
    rw [hsubject, hba]
  · obtain ⟨ev, rfl, rfl⟩ := Option.map_eq_some_iff.mp hb
    obtain ⟨hnone, hfull, v, hfind, hevictable, _⟩ := housts.evictable ev rfl
    refine ⟨?_, hfull, ⟨a, hsubject, hnone⟩, v, hfind, Entry.dynamic_of_isEvictable hevictable,
      hevictable⟩
    cases hcall : call.isClaiming with
    | true => rfl
    | false => cases hclaiming hcall

/-- A call that works on all addresses moves each along an edge. -/
theorem MovesTo.of_sweeping (hsweeping : call.isSweeping = true)
    (hedge : ∀ a, Edge c now a call (c.store.find? a) (d.store.find? a)) : c.MovesTo now call d :=
  ⟨fun a _ => hedge a, fun hsingle => by cases hsweeping.symm.trans hsingle⟩

/-- A call that works on no address changes nothing. -/
theorem MovesTo.of_unaddressed (hsweeping : call.isSweeping = false)
    (hsubject : call.subject? c = none) (hstore : d.store = c.store) : c.MovesTo now call d := by
  refine ⟨fun a ha => ?_, fun _ => ⟨none, fun b _ => ?_, fun b hb => ?_⟩⟩
  · rw [hsweeping, hsubject] at ha
    rcases ha with ha | ha <;> cases ha
  · rw [hstore]
    rfl
  · cases hb

/-- A call that changes no entry leaves its address where it is. -/
theorem MovesTo.of_store_eq (hsweeping : call.isSweeping = false)
    (hsubject : call.subject? c = some a) (hstore : d.store = c.store)
    (hedge : Edge c now a call (c.store.find? a) (c.store.find? a)) : c.MovesTo now call d := by
  refine .of_ousts hsweeping hsubject ?_ (.of_eq fun b _ => ?_) fun _ => rfl
  · rw [hstore]
    exact hedge
  · rw [hstore]

/-- A call that changes the entry of its address moves that entry. -/
theorem MovesTo.of_put {e e' : Entry α} (hsweeping : call.isSweeping = false)
    (hsubject : call.subject? c = some a) (hfind : c.store.find? a = some e)
    (hstore : d.store = c.store.put e') (haddress : e'.address = e.address)
    (hedge : Edge c now a call (some e) (some e')) : c.MovesTo now call d := by
  have hsame : e'.address = a := haddress.trans (Store.address_of_find? hfind)
  refine .of_ousts hsweeping hsubject ?_ (hstore ▸ .of_put hsame) fun _ => rfl
  rw [hstore, Store.find?_put, if_pos hsame.symm, hfind]
  exact hedge

/-- A call that claims the entry of its address moves that entry. -/
theorem MovesTo.of_claims {x : Store.Claimed α} {e : Entry α} (hc : c.Coherent)
    (hsweeping : call.isSweeping = false) (hclaiming : call.isClaiming = true)
    (hsubject : call.subject? c = some a) (hclaims : c.store.Claims a now x)
    (hstore : d.store = x.store.put e) (haddress : e.address = x.entry.address)
    (hedge : Edge c now a call (c.store.find? a) (some e)) : c.MovesTo now call d := by
  have hsame : e.address = a := haddress.trans hclaims.address_eq
  refine .of_ousts hsweeping hsubject ?_ (hstore ▸ hclaims.ousts hc.wellFormed.ordered hsame)
    (by rw [hclaiming]; nofun)
  rw [hstore, Store.find?_put, if_pos hsame.symm]
  exact hedge

/-- Evidence that counts moves its address to reachable, whatever the deadline. -/
theorem edge_of_learns {mac : Mac} {x : Store.Claimed α} {e : Entry α}
    (hevidence : call.evidence? c = some (a, mac)) (hlearns : c.learns now a mac = true)
    (hclaims : c.store.Claims a now x) (hgeneration : e.generation = x.entry.generation)
    (hkind : e.kind = x.entry.kind) (hstate : e.state = .reachable) (hmac : e.mac? = some mac) :
    Edge c now a call (c.store.find? a) (some e) := by
  have hentry := hclaims.entry_eq
  have hdynamic : x.entry.kind = .dynamic := by
    unfold learns at hlearns
    rw [Bool.and_eq_true, ← hentry] at hlearns
    exact Entry.kind_of_accepts hlearns.2
  refine .learned hevidence (fun old hold => ?_) hstate (hkind.trans hdynamic) hmac
  rw [Store.entryFor_of_some hold] at hentry
  exact ⟨hentry ▸ hdynamic, hentry ▸ hgeneration⟩

/-- Evidence moves its address along an edge. -/
theorem observe_movesTo {mac : Mac} (hc : c.Coherent) (hsweeping : call.isSweeping = false)
    (hclaiming : call.isClaiming = true) (hsubject : call.subject? c = some a)
    (hevidence : call.evidence? c = some (a, mac)) :
    c.MovesTo now call (c.observe now a mac).left := by
  have hobserved := c.observe_observed now a mac
  generalize c.observe now a mac = attempt at hobserved ⊢
  cases hobserved with
  | @ignored d _ hleft =>
    have hstore : d.store = c.store := by rcases hleft with rfl | rfl <;> rfl
    exact .of_store_eq hsweeping hsubject hstore (.ignored hevidence)
  | @learned x hlearns hclaims =>
    exact .of_claims (e := x.entry.bound c.config mac now) hc hsweeping hclaiming hsubject hclaims
      (by simp) rfl (edge_of_learns hevidence hlearns hclaims rfl rfl rfl rfl)
  | halted hlearns hclaims =>
    exact .of_claims hc hsweeping hclaiming hsubject hclaims rfl rfl
      (edge_of_learns hevidence hlearns hclaims rfl rfl rfl rfl)

/-- A hint moves its address along an edge. -/
theorem confirm_movesTo : c.MovesTo now (.confirm a) (c.confirm now a).left := by
  have hedge {e e' : Entry α} {mac : Mac} (hmac : e.mac? = some mac)
      (haccepts : e.accepts now = true) (hstate : e'.state = .reachable)
      (hcontinues : e.Continues e') : Edge c now a (.confirm a) (some e) (some e') := by
    refine .confirmed ?_ (Entry.kind_of_accepts haccepts) hstate hcontinues
    rw [Entry.state, ← Status.isSome_mac?, show e.status.mac? = some mac from hmac]
    rfl
  have hhinted := c.confirm_hinted now a
  generalize c.confirm now a = attempt at hhinted ⊢
  cases hhinted with
  | ignored => exact .of_store_eq rfl rfl rfl .unconfirmed
  | counted hfind hmac haccepts =>
    exact .of_put rfl rfl hfind rfl rfl (hedge hmac haccepts rfl ⟨rfl, rfl, hmac.symm⟩)
  | halted hfind hmac haccepts =>
    exact .of_put rfl rfl hfind rfl rfl (hedge hmac haccepts rfl ⟨rfl, rfl, hmac.symm⟩)

/-- A permanent binding moves its address along an edge. -/
theorem pin_movesTo {mac : Mac} (hc : c.Coherent) :
    c.MovesTo now (.pin a mac) (c.pin now a mac).cache := by
  have hpinned := c.pin_pinned now a mac
  generalize c.pin now a mac = o at hpinned ⊢
  cases hpinned with
  | refused hadmits =>
    obtain ⟨hnone, hfull, hstuck⟩ := Store.stuck_of_admits hadmits
    refine .of_store_eq (a := a) rfl rfl rfl ?_
    rw [hnone]
    exact .unpinned hfull hstuck
  | @pinned x hclaims =>
    refine .of_claims (e := (x.entry.pin mac now).1) hc rfl rfl rfl hclaims (by simp) rfl
      (.pinned (fun old hold => ?_) rfl rfl rfl)
    have hentry := hclaims.entry_eq
    rw [Store.entryFor_of_some hold] at hentry
    rw [← hentry]
    rfl

/-- A packet for a vacant address moves it to its resolution. -/
theorem MovesTo.of_vacant {packet : α} {x : Store.Claimed α} {e : Entry α} (hc : c.Coherent)
    (hvacant : c.Vacant now a) (hclaims : (withoutFailed c.store a).Claims a now x)
    (hstore : d.store = x.store.put e) (haddress : e.address = a) (hstate : e.state = .incomplete)
    (hkind : e.kind = .dynamic) (hgeneration : e.generation = c.store.nextGeneration) :
    c.MovesTo now (.resolve a packet) d := by
  refine .of_ousts rfl rfl ?_ (hstore ▸ hvacant.ousts hc.wellFormed hclaims haddress) nofun
  rw [hstore, Store.find?_put, if_pos haddress.symm]
  cases hfind : c.store.find? a with
  | none => exact .started hstate hkind hgeneration
  | some old =>
    obtain ⟨hfailed, hgrace⟩ := hvacant old hfind
    obtain ⟨t, hdeadline⟩ := (hc.of_find? hfind).failed hfailed
    refine .restarted hfailed hdeadline (hgrace t hdeadline) hstate hkind ?_
    rw [hgeneration]
    exact hc.wellFormed.generation_lt old (Store.mem_of_find? hfind)

/-- A packet moves its address along an edge, if nobody answers its probe. -/
theorem resolve_movesTo {packet : α} (hc : c.Coherent) :
    c.MovesTo now (.resolve a packet) (c.resolve .silent now a packet).left := by
  have hplaced := resolve_placed hc.wellFormed .silent now a packet
  generalize c.resolve .silent now a packet = attempt at hplaced ⊢
  cases hplaced with
  | @refused e t hfind hstate hdeadline hgrace =>
    refine .of_store_eq rfl rfl rfl ?_
    rw [hfind]
    exact .held (hstate.trans_ne (by decide)) (fun _ => ⟨t, hdeadline, hgrace⟩) (.refl e) rfl
  | noRoom hfind hadmits =>
    obtain ⟨_, hfull, hstuck⟩ := Store.stuck_of_admits hadmits
    refine .of_store_eq rfl rfl rfl ?_
    rw [hfind]
    exact .noRoom hfull hstuck
  | opened hvacant hclaims =>
    generalize hd : settle _ _ = d
    obtain ⟨d', hhand, hstore⟩ := d.handOver_silent now [.broadcastProbe a]
    rw [Attempt.left_mapAnswer, hhand]
    refine .of_vacant (e := c.opening now a packet) hc hvacant hclaims ?_ rfl rfl rfl rfl
    rw [Attempt.left_ok, hstore, ← hd, store_settle, store_count]
  | unopened hvacant hclaims => exact .of_vacant hc hvacant hclaims rfl rfl rfl rfl rfl
  | @passed e mac hfind hmac =>
    refine .of_put rfl rfl hfind rfl Entry.address_used ?_
    by_cases hstale : e.state = .stale
    · exact .woken hstale (Entry.state_used_of_stale hstale)
        ⟨Entry.generation_used, Entry.kind_used, Entry.mac?_used⟩
    · have hfailed : e.state ≠ .failed := by
        intro hfailed
        have hnone := Entry.mac?_eq_none_iff.mpr (congrArg State.isResolved hfailed)
        cases hmac.symm.trans hnone
      rcases e.used_cases c.config now with ⟨hbefore, _⟩ | halike
      · exact absurd hbefore hstale
      · exact .held hstale (fun h => absurd h hfailed) halike Entry.kind_used
  | @parked e n queue hfind hstatus =>
    have hstate : e.state = .incomplete := congrArg Status.state hstatus
    refine .of_put rfl rfl hfind rfl rfl (.held (hstate.trans_ne (by decide))
      (fun hfailed => ?_) ⟨rfl, rfl, hstate.symm, ?_, ?_⟩ rfl)
    · cases hstate.symm.trans hfailed
    · rw [Entry.probes, Entry.probes, hstatus]
      rfl
    · rw [Entry.mac?, Entry.mac?, hstatus]
      rfl
  | @unused e hfind hstate =>
    exact .of_put rfl rfl hfind rfl Entry.address_used (.woken hstate
      (Entry.state_used_of_stale hstate)
      ⟨Entry.generation_used, Entry.kind_used, Entry.mac?_used⟩)

/-- Time moves an entry along an edge or lets it rest, also where it stops. -/
theorem edge_of_passes {e e' : Entry α} {aged : Entry.Aged α} (hcoherent : e.Coherent)
    (hpasses : e.Passes c.config now aged)
    (hafter : e' = aged.entry ∨ e' = aged.entry.withDeadlineOf e) :
    Edge c now a .tick (some e) (some e') := by
  have hmoved (before after : State) (hdue : e.isDue now = true) (hbefore : e.state = before)
      (hthen : aged.entry.state = after) (hedge : (before, some after) ∈ State.ageing)
      (hmac : aged.entry.mac? = none ∨ aged.entry.mac? = e.mac?) :
      Edge c now a .tick (some e) (some e') := by
    obtain ⟨t, hdeadline, hle⟩ := Entry.isDue_iff.mp hdue
    have hstate : e'.state = aged.entry.state := by rcases hafter with rfl | rfl <;> rfl
    have hgeneration : e'.generation = aged.entry.generation := by
      rcases hafter with rfl | rfl <;> rfl
    have hkind : e'.kind = aged.entry.kind := by rcases hafter with rfl | rfl <;> rfl
    have hsame : e'.mac? = aged.entry.mac? := by rcases hafter with rfl | rfl <;> rfl
    refine .aged (hcoherent.dynamic_of_due hdue) hdeadline hle ?_ fun x hx => ?_
    · rw [Option.map_some, hstate, hbefore, hthen]
      exact hedge
    · cases hx
      refine ⟨hgeneration.trans hpasses.generation_eq, hkind.trans hpasses.kind_eq, fun mac h => ?_⟩
      rcases hmac with hnone | hkept
      · cases (hsame.trans hnone).symm.trans h
      · exact (hsame.trans hkept).symm.trans h
  cases hpasses with
  | idle | expired =>
    have hrests : e' = e := by rcases hafter with rfl | rfl <;> rfl
    rw [hrests]
    exact .rested
  | reprobed hdue hstatus =>
    exact hmoved .incomplete .incomplete hdue (congrArg Status.state hstatus) rfl (by decide)
      (.inl rfl)
  | rechecked hdue hstatus =>
    exact hmoved .probe .probe hdue (congrArg Status.state hstatus) rfl (by decide)
      (.inr (congrArg Status.mac? hstatus).symm)
  | checked hdue hstatus =>
    exact hmoved .delay .probe hdue (congrArg Status.state hstatus) rfl (by decide)
      (.inr (congrArg Status.mac? hstatus).symm)
  | staled hdue hstatus =>
    exact hmoved .reachable .stale hdue (congrArg Status.state hstatus) rfl (by decide)
      (.inr (congrArg Status.mac? hstatus).symm)
  | gaveUp hdue hstate =>
    rcases hstate with hstate | hstate
    · exact hmoved .incomplete .failed hdue hstate rfl (by decide) (.inl rfl)
    · exact hmoved .probe .failed hdue hstate rfl (by decide) (.inl rfl)

/-- If nobody answers, an aged entry stays as time left it, unless it has expired. -/
theorem settled_silent {cfg : Config} (aged : Entry.Aged α) :
    (aged.settled cfg .silent now).1 =
      if aged.aging.isExpiry then none else some aged.entry := by
  unfold Entry.Aged.settled
  cases hexpiry : aged.aging.isExpiry with
  | true => rfl
  | false =>
    cases hprobe : aged.probe with
    | none => rfl
    | some item =>
      cases item with
      | broadcastProbe => simp [Entry.answered, Responder.heard?, Responder.silent]
      | unicastProbe | packet => rfl

/-- A tick that goes through moves each address along an edge, if nobody answers its probes. -/
theorem Ages.edge {report : TickReport} {after : Option (Entry α)} {sent : List (Outbound α)}
    (hc : c.Coherent) (h : c.Ages .silent now a report after sent) :
    Edge c now a .tick (c.store.find? a) after := by
  cases h with
  | absent hfind =>
    rw [hfind]
    exact .rested
  | @aged e aged hfind hpasses =>
    have hcoherent := hc.of_find? hfind
    rw [hfind]
    rw [settled_silent]
    split
    · next hexpiry =>
      cases hpasses with
      | expired hdue hstate =>
        obtain ⟨t, hdeadline, hle⟩ := Entry.isDue_iff.mp hdue
        refine .aged (hcoherent.dynamic_of_due hdue) hdeadline hle ?_ nofun
        rcases hstate with hstate | hstate
        · simp [hstate, State.ageing]
        · simp [hstate, State.ageing]
      | idle | reprobed | rechecked | checked | staled | gaveUp => cases hexpiry
    · exact edge_of_passes hcoherent hpasses (.inl rfl)

/-- A tick moves each address along an edge, whether it goes through or stops. -/
theorem tick_movesTo (hc : c.Coherent) : c.MovesTo now .tick (c.tick .silent now).left := by
  refine .of_sweeping rfl fun a => ?_
  cases htick : c.tick .silent now with
  | ok o =>
    obtain ⟨_, _, sent, _, hages⟩ :=
      tick_ages hc.wellFormed hc.dynamic htick
    exact (hages a).edge hc
  | error halted =>
    unfold tick tickInOrder at htick
    split at htick
    · next t hvisit =>
      cases htick
      have hnodup := nodup_addresses hc.wellFormed.ordered
      rcases Sweep.find?_of_visitAll_error hnodup hvisit a with
        hsame | ⟨_, e, aged, e', hfind, hpasses, hafter, hfind'⟩
      · change Edge c now a .tick (c.store.find? a) (t.store.find? a)
        rw [hsame]
        exact .rested
      · change Edge c now a .tick (c.store.find? a) (t.store.find? a)
        have hfind : c.store.find? a = some e := hfind
        rw [hfind, hfind']
        exact edge_of_passes (hc.of_find? hfind) hpasses hafter
    · next t hvisit =>
      -- nobody answers, so handing the probes over cannot stop
      dsimp only at htick
      generalize count (count _ _ _) _ _ = d at htick
      obtain ⟨_, hhand, _⟩ := d.handOver_silent now t.probes
      rw [hhand] at htick
      cases htick

/-- A call moves addresses along edges only, if nobody answers its probes. -/
theorem Coherent.movesTo (hc : c.Coherent) (now : Nat) (call : Call α) :
    c.MovesTo now call (c.perform .silent now call).left := by
  cases call with
  | resolve a packet =>
    change c.MovesTo now _ (Attempt.mapAnswer _ (c.resolve .silent now a packet)).left
    rw [Attempt.left_mapAnswer]
    exact resolve_movesTo hc
  | observe a mac =>
    change c.MovesTo now _ (Attempt.mapAnswer _ (c.observe now a mac)).left
    rw [Attempt.left_mapAnswer]
    exact observe_movesTo hc rfl rfl rfl rfl
  | confirm a =>
    change c.MovesTo now _ (Attempt.mapAnswer _ (c.confirm now a)).left
    rw [Attempt.left_mapAnswer]
    exact confirm_movesTo
  | pin a mac => exact pin_movesTo hc
  | tick =>
    change c.MovesTo now _ (Attempt.mapAnswer _ (c.tick .silent now)).left
    rw [Attempt.left_mapAnswer]
    exact tick_movesTo hc
  | invalidate a =>
    have hstore : (c.perform .silent now (.invalidate a)).left.store = c.store.erase a :=
      store_invalidate
    refine .of_ousts rfl rfl ?_ (.of_eq fun b hb => ?_) fun _ => rfl
    · rw [hstore, Store.find?_erase, if_pos rfl]
      exact .removed
    · rw [hstore, Store.find?_erase, if_neg hb]
  | invalidateAll => exact .of_sweeping rfl fun _ => .cleared
  | receive host bytes =>
    change c.MovesTo now _ (Attempt.mapAnswer _ (c.receive now host bytes)).left
    rw [Attempt.left_mapAnswer]
    rcases c.receive_cases now host bytes with
      ⟨a, mac, f, hevidence, hreceive⟩ | ⟨hevidence, o, hreceive, hcache, _⟩
    · rw [hreceive, Attempt.left_mapAnswer]
      exact observe_movesTo hc rfl rfl (by simp [Call.subject?, hevidence]) hevidence
    · rw [hreceive, Attempt.left_ok]
      exact .of_unaddressed rfl (by simp [Call.subject?, hevidence]) (congrArg Cache.store hcache)

/-- Only the edges of the table occur: on every cache that calls lead to, a call whose probes nobody
answers moves the addresses that it works on along edges, and of the others removes at most one, a
dynamic entry that makes room for a new one. -/
theorem Reached.only_edges {cfg : Config} {start : Nat} {calls : List (Call α)}
    (h : Reached cfg start calls c) (now : Nat) (call : Call α) :
    c.MovesTo now call (c.perform .silent now call).left :=
  h.coherent.1.movesTo now call

/-- In a cache with room for one, what binds a second address ousts the first. -/
theorem Reached.only_edges_of_rivals :
    let c : Cache Nat :=
      ((Cache.create .brief 0 : Outcome Nat Unit).cache.perform .silent 1
        (.observe ⟨10, 0, 0, 1⟩ ⟨2, 0, 0, 0, 0, 1⟩)).left
    let d := (c.perform .silent 2 (.observe ⟨10, 0, 0, 2⟩ ⟨2, 0, 0, 0, 0, 2⟩)).left
    c.MovesTo 2 (.observe ⟨10, 0, 0, 2⟩ ⟨2, 0, 0, 0, 0, 2⟩) d ∧
      (c.state? ⟨10, 0, 0, 1⟩ = some .reachable ∧ d.state? ⟨10, 0, 0, 1⟩ = none) ∧
      c.state? ⟨10, 0, 0, 2⟩ = none ∧ d.state? ⟨10, 0, 0, 2⟩ = some .reachable :=
  ⟨Reached.only_edges (.perform .create .silent 1 _) 2 _, by decide +kernel, by decide +kernel⟩

end Cache

end Neighbor
