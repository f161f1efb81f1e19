import Neighbor.Proofs.Flow

/-!
# The caches that calls lead to

A call that stops at a deadline beyond the clock leaves what it has done so far, and the cache can
still be called. `Cache.Reached` counts what such calls leave among the caches that calls lead to.
In every one of them the store is well formed, a permanent entry is reachable and never due, a
failed one has a deadline, and the packets for an address wait in the order in which they were
offered.
-/

namespace Neighbor

variable {α : Type}

/-- The packet that a call offers for `a`, if it offers one. -/
def Call.offers (a : Address) : Call α → List α
  | .resolve b packet => if b = a then [packet] else []
  | _ => []

/-- The packets that calls offer for `a`, in order. -/
def offered (a : Address) (calls : List (Call α)) : List α := calls.flatMap (·.offers a)

namespace Entry.Coherent

variable {cfg : Config} {now : Nat} {e old : Entry α} {mac : Mac}

/-- A dynamic entry that has not failed is coherent. -/
theorem of_dynamic (hkind : e.kind = .dynamic) (hstate : e.state ≠ .failed) : e.Coherent := by
  refine ⟨fun hpermanent => ?_, fun hfailed => absurd hfailed hstate⟩
  cases hkind.symm.trans hpermanent

/-- A learned entry that has just been bound is coherent. -/
theorem bound (hkind : e.kind = .dynamic) : (e.bound cfg mac now).Coherent :=
  of_dynamic hkind nofun

/-- A bound entry is coherent, whatever its deadline. -/
theorem bound_withDeadlineOf (hkind : e.kind = .dynamic) :
    ((e.bound cfg mac now).withDeadlineOf old).Coherent :=
  of_dynamic hkind nofun

/-- A coherent entry is so after it is used. -/
theorem used (h : e.Coherent) : (e.used cfg now).Coherent := by
  unfold Entry.used
  split
  · next mac hstatus =>
    have hstate : e.state = .stale := congrArg Status.state hstatus
    exact of_dynamic (h.dynamic_of_state (hstate.trans_ne nofun)) nofun
  · exact ⟨h.permanent, h.failed⟩

/-- Time keeps an entry coherent, also where it stops with the old deadline. -/
theorem passes {aged : Aged α} (h : e.Coherent) (hpasses : e.Passes cfg now aged) :
    aged.entry.Coherent ∧ (aged.entry.withDeadlineOf e).Coherent := by
  cases hpasses with
  | idle | expired => exact ⟨h, h⟩
  | gaveUp hdue =>
    have hkind := h.dynamic_of_due hdue
    refine ⟨⟨fun hpermanent => ?_, fun _ => ⟨_, rfl⟩⟩, fun hpermanent => ?_, fun _ => ?_⟩
    · cases hkind.symm.trans hpermanent
    · cases hkind.symm.trans hpermanent
    · -- an entry that is due has a deadline
      change ∃ t, e.deadline = some t
      obtain ⟨t, hdeadline, _⟩ := isDue_iff.mp hdue
      exact ⟨t, hdeadline⟩
  | reprobed hdue | rechecked hdue | checked hdue | staled hdue =>
    have hkind := h.dynamic_of_due hdue
    exact ⟨of_dynamic hkind nofun, of_dynamic hkind nofun⟩

end Entry.Coherent

/-- Time leaves the packets of an entry alone or takes them all. -/
theorem Entry.Passes.waiting_sublist {cfg : Config} {now : Nat} {e : Entry α} {aged : Aged α}
    (h : e.Passes cfg now aged) : aged.entry.waiting.Sublist e.waiting := by
  cases h with
  | idle | expired => exact List.Sublist.refl _
  | gaveUp | rechecked | checked | staled => exact List.nil_sublist _
  | reprobed _ hstatus =>
    rw [waiting, waiting, hstatus]
    exact List.Sublist.refl _

/-- The invariant of every cache that calls lead to. -/
structure Cache.Coherent (c : Cache α) : Prop where
  wellFormed : c.store.WellFormed
  entries : ∀ e ∈ c.store.entries, e.Coherent

namespace Cache

variable {c d : Cache α} {r : Responder} {now : Nat} {a : Address} {call : Call α}

/-- Every entry that is found in a coherent cache is coherent. -/
theorem Coherent.of_find? (h : c.Coherent) {e : Entry α} (hfind : c.store.find? a = some e) :
    e.Coherent := h.entries e (Store.mem_of_find? hfind)

/-- An entry of a coherent cache that has no link address is dynamic. -/
theorem Coherent.dynamic (h : c.Coherent) :
    ∀ e ∈ c.store.entries, e.mac? = none → e.kind = .dynamic :=
  fun e he => (h.entries e he).dynamic_of_mac?

/-- A sound cache is coherent. -/
theorem Sound.coherent (h : c.Sound) : c.Coherent :=
  ⟨h.wellFormed, fun e he => (h.entries e he).coherent⟩

/-- A call that goes through on a coherent cache takes a turn at every address. -/
theorem Coherent.turns (h : c.Coherent) {o : Outcome α Answer}
    (hperform : c.perform r now call = .ok o) : Turns r c now call o :=
  perform_turns h.wellFormed h.dynamic hperform

/-- The cache `d` is `c` after part of a call: its store was edited, its entries are coherent, and
what waits in them is taken in order from what waited and what the call offers. -/
structure Follows (c : Cache α) (call : Call α) (d : Cache α) : Prop where
  config_eq : d.config = c.config
  edits : Store.Edits c.store d.store
  entries : ∀ a e, d.store.find? a = some e →
    e.Coherent ∧ e.waiting.Sublist (c.waitingAt a ++ call.offers a)

namespace Follows

/-- A cache follows from itself before a call has done anything. -/
theorem refl (hc : c.Coherent) (call : Call α) : c.Follows call c := by
  refine ⟨rfl, .refl, fun a e hfind => ⟨hc.of_find? hfind, ?_⟩⟩
  rw [waitingAt_of_some hfind]
  exact List.sublist_append_left _ _

/-- The cache that a call leaves is coherent. -/
theorem coherent (h : c.Follows call d) (hc : c.Coherent) : d.Coherent := by
  have hd := h.edits.wellFormed hc.wellFormed
  exact ⟨hd, fun e he => (h.entries e.address e ((hd.ordered.mem_iff e).mp he)).1⟩

/-- What waits after a call is taken in order from what waited and what the call offers. -/
theorem waitingAt_sublist (h : c.Follows call d) (a : Address) :
    (d.waitingAt a).Sublist (c.waitingAt a ++ call.offers a) := by
  cases hfind : d.store.find? a with
  | none =>
    rw [waitingAt_of_none hfind]
    exact List.nil_sublist _
  | some e =>
    rw [waitingAt_of_some hfind]
    exact (h.entries a e hfind).2

/-- A change of the store that brings in only entries of the right kind keeps following. -/
theorem step {d' : Cache α} (h : c.Follows call d) (hconfig : d'.config = d.config)
    (hedits : Store.Edits d.store d'.store)
    (hentries : ∀ a e, d'.store.find? a = some e → d.store.find? a = some e ∨
      e.Coherent ∧ e.waiting.Sublist (c.waitingAt a ++ call.offers a)) : c.Follows call d' := by
  refine ⟨hconfig.trans h.config_eq, h.edits.trans hedits, fun a e hfind => ?_⟩
  rcases hentries a e hfind with hsame | hnew
  · exact h.entries a e hsame
  · exact hnew

/-- Only the store and the configuration matter to what follows. -/
theorem of_store_eq {d' : Cache α} (h : c.Follows call d) (hconfig : d'.config = d.config)
    (hstore : d'.store = d.store) : c.Follows call d' :=
  h.step hconfig (hstore ▸ .refl) fun _ _ hfind => .inl (hstore ▸ hfind)

/-- Removing an address is part of a call. -/
theorem erase (h : c.Follows call d) (a : Address) :
    c.Follows call { d with store := d.store.erase a } := by
  refine h.step rfl (.single (.erase a)) fun b e hfind => .inl ?_
  rw [Store.find?_erase] at hfind
  split at hfind
  · cases hfind
  · exact hfind

/-- Work on one address that leaves the right kind of entry keeps following. -/
theorem worksOn {d' : Cache α} {e : Entry α} (h : c.Follows call d) (hworks : d.WorksOn a d')
    (hafter : d'.store.find? a = some e) (hcoherent : e.Coherent)
    (hwaiting : e.waiting.Sublist (c.waitingAt a ++ call.offers a)) : c.Follows call d' := by
  refine h.step hworks.config_eq hworks.edits fun b x hfind => ?_
  by_cases hb : b = a
  · subst hb
    cases hfind.symm.trans hafter
    exact .inr ⟨hcoherent, hwaiting⟩
  · rcases hworks.spared b hb with hsame | ⟨hnone, _⟩
    · exact .inl (hsame ▸ hfind)
    · cases hfind.symm.trans hnone

/-- A claimed entry that is changed and put back keeps following. -/
theorem claims {d' : Cache α} {x : Store.Claimed α} {e : Entry α} (h : c.Follows call d)
    (hd : d.store.WellFormed) (hclaims : d.store.Claims a now x) (hconfig : d'.config = d.config)
    (hstore : d'.store = x.store.put e) (haddress : e.address = x.entry.address)
    (hgeneration : e.generation = x.entry.generation) (hcoherent : e.Coherent)
    (hwaiting : e.waiting.Sublist (c.waitingAt a ++ call.offers a)) : c.Follows call d' := by
  have hsame : e.address = a := haddress.trans hclaims.address_eq
  refine h.worksOn (.of_claims hd hclaims hsame hgeneration hconfig hstore) ?_ hcoherent hwaiting
  rw [hstore, Store.find?_put, if_pos hsame.symm]

/-- An entry that is changed and put back keeps following. -/
theorem put {d' : Cache α} {e e' : Entry α} (h : c.Follows call d)
    (hfind : d.store.find? a = some e) (hconfig : d'.config = d.config)
    (hstore : d'.store = d.store.put e') (haddress : e'.address = e.address)
    (hgeneration : e'.generation = e.generation) (hcoherent : e'.Coherent)
    (hwaiting : e'.waiting.Sublist (c.waitingAt a ++ call.offers a)) : c.Follows call d' := by
  refine h.worksOn (.of_put hfind hconfig hstore haddress hgeneration) ?_ hcoherent hwaiting
  rw [hstore, Store.find?_put, if_pos (haddress.trans (Store.address_of_find? hfind)).symm]

/-- Evidence, also where it stops, keeps following. -/
theorem observe (h : c.Follows call d) (hd : d.store.WellFormed) (now : Nat) (a : Address)
    (mac : Mac) : c.Follows call (d.observe now a mac).left := by
  have hdynamic (hlearns : d.learns now a mac = true) :
      (d.store.entryFor a now).kind = .dynamic := by
    unfold learns at hlearns
    rw [Bool.and_eq_true] at hlearns
    exact Entry.kind_of_accepts hlearns.2
  have hobserved := d.observe_observed now a mac
  generalize d.observe now a mac = attempt at hobserved ⊢
  cases hobserved with
  | ignored _ hleft => rcases hleft with rfl | rfl <;> exact h.of_store_eq rfl rfl
  | @learned x hlearns hclaims =>
    exact h.claims (e := x.entry.bound d.config mac now) hd hclaims (by simp) (by simp) rfl rfl
      (.bound (hclaims.entry_eq ▸ hdynamic hlearns)) (List.nil_sublist _)
  | halted hlearns hclaims =>
    exact h.claims hd hclaims rfl rfl rfl rfl
      (.bound_withDeadlineOf (hclaims.entry_eq ▸ hdynamic hlearns)) (List.nil_sublist _)

/-- Handing items over, answered or not, keeps following. -/
theorem handOver (h : c.Follows call d) (hc : c.Coherent) (r : Responder) (now : Nat)
    (items : List (Outbound α)) : c.Follows call (handOver r now d items).left := by
  induction items generalizing d with
  | nil => exact h
  | cons item rest ih =>
    have hcounted : c.Follows call (d.countItem item) := h.of_store_eq (by simp) (by simp)
    unfold Cache.handOver
    split
    · rw [Attempt.left_sentAfter]
      exact ih hcounted
    · next target mac _ =>
      have hlearned := hcounted.observe (hcounted.edits.wellFormed hc.wellFormed) now target mac
      split
      · next hhalted =>
        rw [hhalted] at hlearned
        exact hlearned
      · next hobserve =>
        rw [hobserve] at hlearned
        rw [Attempt.left_sentAfter]
        exact ih hlearned

/-- A visit to one entry, also where it stops, keeps following. -/
theorem visit {s t : Sweep α} (h : c.Follows call { c with store := s.store })
    (hvisit : Sweep.visit c.config now s a = .ok t ∨ Sweep.visit c.config now s a = .error t) :
    c.Follows call { c with store := t.store } := by
  rcases Sweep.visit_cases c.config now s a with
    ⟨_, hfirst⟩ | ⟨e, aged, hfind, hpasses, hfirst⟩
  · rw [hfirst] at hvisit
    rcases hvisit with hvisit | hvisit <;> cases hvisit
    exact h
  · obtain ⟨hcoherent, hstopped⟩ := (h.entries a e hfind).1.passes hpasses
    have hwaiting := hpasses.waiting_sublist.trans (h.entries a e hfind).2
    rcases hfirst with hfirst | ⟨_, hfirst⟩
    · rw [hfirst] at hvisit
      rcases hvisit with hvisit | hvisit <;> cases hvisit
      exact h.put hfind rfl Sweep.store_note hpasses.address_eq hpasses.generation_eq hcoherent
        hwaiting
    · rw [hfirst] at hvisit
      rcases hvisit with hvisit | hvisit <;> cases hvisit
      exact h.put hfind rfl rfl hpasses.address_eq hpasses.generation_eq hstopped hwaiting

/-- A sweep, also where it stops, keeps following. -/
theorem visitAll {s t : Sweep α} {order : List Address}
    (h : c.Follows call { c with store := s.store })
    (hvisit : s.visitAll c.config now order = .ok t ∨ s.visitAll c.config now order = .error t) :
    c.Follows call { c with store := t.store } := by
  induction order generalizing s with
  | nil =>
    rcases hvisit with hvisit | hvisit <;> cases hvisit
    exact h
  | cons a rest ih =>
    rw [Sweep.visitAll, List.foldlM_cons] at hvisit
    cases hfirst : Sweep.visit c.config now s a with
    | error s' =>
      rw [hfirst] at hvisit
      rcases hvisit with hvisit | hvisit <;> cases hvisit
      exact h.visit (.inr hfirst)
    | ok s' =>
      rw [hfirst] at hvisit
      exact ih (h.visit (.inl hfirst)) hvisit

/-- The removals at the end of a tick are part of it. -/
theorem remaining {s : Sweep α} (h : c.Follows call { c with store := s.store }) :
    c.Follows call { c with store := s.remaining } := by
  unfold Sweep.remaining
  generalize s.expired = expired
  generalize s.store = store at h ⊢
  induction expired generalizing store with
  | nil => exact h
  | cons a rest ih => exact ih _ (h.erase a)

end Follows

/-- A tick follows, whether it goes through or stops. -/
theorem tick_follows (hc : c.Coherent) (r : Responder) (now : Nat) :
    c.Follows .tick (c.tick r now).left := by
  have hstart : c.Follows .tick { c with store := ({ store := c.store } : Sweep α).store } :=
    .refl hc .tick
  unfold tick tickInOrder
  split
  · next s hvisit => exact (hstart.visitAll (.inr hvisit)).of_store_eq rfl rfl
  · next s hvisit =>
    have hswept := (hstart.visitAll (.inl hvisit)).remaining
    rw [Attempt.left_warnedAfter, Attempt.left_mapAnswer]
    refine Follows.handOver (hswept.of_store_eq ?_ ?_) hc r now s.probes
    · rfl
    · rfl

/-- A packet follows, whether it is taken or the call stops. -/
theorem resolve_follows (hc : c.Coherent) (r : Responder) (now : Nat) (a : Address) (packet : α) :
    c.Follows (.resolve a packet) (c.resolve r now a packet).left := by
  have hstart := Follows.refl hc (.resolve a packet)
  have hcleared : c.Follows (.resolve a packet)
      { c with store := withoutFailed c.store a } := by
    unfold withoutFailed
    split
    · split
      · exact hstart.erase a
      · exact hstart
    · exact hstart
  have hwellFormed := withoutFailed_wellFormed (a := a) hc.wellFormed
  have hoffers : (Call.resolve a packet).offers a = [packet] := if_pos rfl
  have hplaced := resolve_placed hc.wellFormed r now a packet
  generalize c.resolve r now a packet = attempt at hplaced ⊢
  cases hplaced with
  | refused | noRoom => exact hstart.of_store_eq rfl rfl
  | opened hvacant hclaims =>
    rw [Attempt.left_mapAnswer]
    refine Follows.handOver ?_ hc r now _
    refine hcleared.claims (e := c.opening now a packet) hwellFormed hclaims (by simp) (by simp)
      ?_ ?_ (.of_dynamic rfl nofun) ?_
    · rw [hvacant.entry_eq hclaims]
      rfl
    · rw [hvacant.entry_eq hclaims]
      rfl
    · rw [waiting_opening, hoffers]
      split
      · exact List.nil_sublist _
      · exact List.sublist_append_right _ _
  | unopened hvacant hclaims =>
    refine hcleared.claims hwellFormed hclaims rfl rfl ?_ ?_ (.of_dynamic rfl nofun)
      (List.nil_sublist _)
    · rw [hvacant.entry_eq hclaims]
      rfl
    · rw [hvacant.entry_eq hclaims]
      rfl
  | passed hfind hmac =>
    refine hstart.put hfind rfl rfl (by simp) (by simp) (hc.of_find? hfind).used ?_
    rw [Entry.waiting_used, Entry.waiting_of_mac? hmac]
    exact List.nil_sublist _
  | @parked e n queue hfind hstatus =>
    have hstate : e.state = .incomplete := congrArg Status.state hstatus
    have hkind : e.kind = .dynamic :=
      (hc.of_find? hfind).dynamic_of_state (hstate.trans_ne (by decide))
    refine hstart.put hfind rfl rfl rfl rfl (.of_dynamic hkind nofun) ?_
    have hbefore : c.waitingAt a = queue.packets := by
      rw [waitingAt_of_some hfind, Entry.waiting, hstatus]
      rfl
    change (queue.offer packet).1.packets.Sublist _
    rw [PendingQueue.packets_offer, hbefore, hoffers]
    split
    · exact List.sublist_append_left _ _
    · exact List.Sublist.refl _
  | @unused e hfind hstate =>
    have hkind : e.kind = .dynamic :=
      (hc.of_find? hfind).dynamic_of_state (hstate.trans_ne (by decide))
    refine hstart.put hfind rfl rfl Entry.address_used Entry.generation_used
      (.of_dynamic (Entry.kind_used.trans hkind) ?_) ?_
    · exact (Entry.state_used_of_stale hstate).trans_ne (by decide)
    · change (e.used c.config now).waiting.Sublist _
      rw [Entry.waiting_used, Entry.waiting_of_state (hstate.trans_ne (by decide))]
      exact List.nil_sublist _

/-- A hint follows, whether it counts or the call stops. -/
theorem confirm_follows (hc : c.Coherent) (now : Nat) (a : Address) :
    c.Follows (.confirm a) (c.confirm now a).left := by
  have hstart := Follows.refl hc (.confirm a)
  have hhinted := c.confirm_hinted now a
  generalize c.confirm now a = attempt at hhinted ⊢
  cases hhinted with
  | ignored => exact hstart
  | counted hfind _ haccepts =>
    exact hstart.put hfind rfl rfl rfl rfl (.bound (Entry.kind_of_accepts haccepts))
      (List.nil_sublist _)
  | halted hfind _ haccepts =>
    exact hstart.put hfind rfl rfl rfl rfl (.bound_withDeadlineOf (Entry.kind_of_accepts haccepts))
      (List.nil_sublist _)

/-- A permanent binding leaves what follows from its call. -/
theorem pin_follows (hc : c.Coherent) (now : Nat) (a : Address) (mac : Mac) :
    c.Follows (.pin a mac) (c.pin now a mac).cache := by
  have hstart := Follows.refl hc (.pin a mac)
  have hpinned := c.pin_pinned now a mac
  generalize c.pin now a mac = o at hpinned ⊢
  cases hpinned with
  | refused => exact hstart
  | @pinned x hclaims =>
    exact hstart.claims (e := (x.entry.pin mac now).1) hc.wellFormed hclaims (by simp) (by simp) rfl
      rfl ⟨fun _ => ⟨rfl, rfl⟩, nofun⟩ (List.nil_sublist _)

/-- A message leaves what follows from its call. -/
theorem receive_follows (hc : c.Coherent) (now : Nat) (host : Host) (bytes : List UInt8) :
    c.Follows (.receive host bytes) (c.receive now host bytes).left := by
  have hstart := Follows.refl hc (.receive host bytes)
  rcases c.receive_cases now host bytes with ⟨a, mac, f, _, hreceive⟩ | ⟨_, o, hreceive, hcache, _⟩
  · rw [hreceive, Attempt.left_mapAnswer]
    exact hstart.observe hc.wellFormed now a mac
  · rw [hreceive, Attempt.left_ok, hcache]
    exact hstart

/-- Whatever a call leaves, whether it goes through or stops, follows. -/
theorem perform_follows (hc : c.Coherent) (r : Responder) (now : Nat) (call : Call α) :
    c.Follows call (c.perform r now call).left := by
  have hstart := Follows.refl hc call
  cases call with
  | resolve a packet =>
    change c.Follows _ (Attempt.mapAnswer _ (c.resolve r now a packet)).left
    rw [Attempt.left_mapAnswer]
    exact resolve_follows hc r now a packet
  | observe a mac =>
    change c.Follows _ (Attempt.mapAnswer _ (c.observe now a mac)).left
    rw [Attempt.left_mapAnswer]
    exact hstart.observe hc.wellFormed now a mac
  | confirm a =>
    change c.Follows _ (Attempt.mapAnswer _ (c.confirm now a)).left
    rw [Attempt.left_mapAnswer]
    exact confirm_follows hc now a
  | pin a mac => exact pin_follows hc now a mac
  | tick =>
    change c.Follows _ (Attempt.mapAnswer _ (c.tick r now)).left
    rw [Attempt.left_mapAnswer]
    exact tick_follows hc r now
  | invalidate a => exact (hstart.erase a).of_store_eq config_invalidate store_invalidate
  | invalidateAll => exact hstart.step rfl (.single .clear) fun _ _ hfind => nomatch hfind
  | receive host bytes =>
    change c.Follows _ (Attempt.mapAnswer _ (c.receive now host bytes)).left
    rw [Attempt.left_mapAnswer]
    exact receive_follows hc now host bytes

/-- The caches that calls lead to from a configured one, each call with its own instant and
stations, whether it goes through or stops. -/
inductive Reached (cfg : Config) (start : Nat) : List (Call α) → Cache α → Prop
  | create : Reached cfg start [] (create cfg start : Outcome α Unit).cache
  | perform {calls : List (Call α)} {c : Cache α} (h : Reached cfg start calls c) (r : Responder)
      (now : Nat) (call : Call α) :
      Reached cfg start (calls ++ [call]) (c.perform r now call).left

/-- A new cache is coherent, has its configuration, and no packet waits in it. -/
theorem create_coherent (cfg : Config) (start : Nat) :
    (create cfg start : Outcome α Unit).cache.Coherent ∧
      (create cfg start : Outcome α Unit).cache.config = cfg ∧
      ∀ a, (create cfg start : Outcome α Unit).cache.waitingAt a = [] := by
  refine create_induction
    (P := fun c : Cache α => c.Coherent ∧ c.config = cfg ∧ ∀ a, c.waitingAt a = [])
    ⟨⟨(empty_sound cfg).wellFormed, nofun⟩, rfl, fun _ => rfl⟩ ?_
  rintro c a mac ⟨hcoherent, hconfig, hempty⟩
  have hfollows := pin_follows hcoherent start a mac
  refine ⟨hfollows.coherent hcoherent, hfollows.config_eq.trans hconfig, fun b => ?_⟩
  have hsublist := hfollows.waitingAt_sublist b
  rw [hempty b] at hsublist
  exact List.sublist_nil.mp hsublist

/-- What holds of every cache that calls lead to. -/
theorem Reached.coherent {cfg : Config} {start : Nat} {calls : List (Call α)}
    (h : Reached cfg start calls c) :
    c.Coherent ∧ c.config = cfg ∧ ∀ a, (c.waitingAt a).Sublist (offered a calls) := by
  induction h with
  | create =>
    obtain ⟨hcoherent, hconfig, hempty⟩ := create_coherent (α := α) cfg start
    refine ⟨hcoherent, hconfig, fun a => ?_⟩
    rw [hempty a]
    exact List.nil_sublist _
  | perform _ r now call ih =>
    obtain ⟨hcoherent, hconfig, hwaiting⟩ := ih
    have hfollows := perform_follows hcoherent r now call
    refine ⟨hfollows.coherent hcoherent, hfollows.config_eq.trans hconfig, fun a => ?_⟩
    have hafter := hfollows.waitingAt_sublist a
    rw [offered, List.flatMap_append, List.flatMap_singleton]
    exact hafter.trans ((hwaiting a).append_right _)

end Cache

/-- Histories lead to caches that calls lead to. -/
theorem History.reached {cfg : Config} {start : Nat} {log : List (Step α)} {last : Cache α}
    (h : History (Cache.create cfg start : Outcome α Unit).cache log last) :
    last.Reached cfg start (log.map (·.call)) := by
  induction h with
  | nil => exact .create
  | @snoc log c r now call o _ hperform ih =>
    have hnext := ih.perform r now call
    rw [hperform] at hnext
    rw [List.map_append]
    exact hnext

end Neighbor
