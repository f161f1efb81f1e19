import Neighbor.Proofs.Reach

/-!
# Calls that stop

A call stops where the clock cannot hold a deadline that it sets. What it has done by then stays
done: `Stop` lists what that is for one address, as `Turn` does for calls that go through. The entry
that the call was about is in its new state with its old deadline; a tick may have aged some entries
and not others, and may have handed over some of its probes.
-/

namespace Neighbor

variable {α : Type}

/-- What was handed over before is part of what an attempt leaves that stops. -/
theorem Attempt.sentAfter_eq_error {β : Type} {items : List (Outbound α)} {x : Attempt α β}
    {h : Halted α} (heq : x.sentAfter items = .error h) :
    ∃ h', x = .error h' ∧ h = h'.sentAfter items := by
  cases x with
  | ok o => cases heq
  | error h' =>
    cases heq
    exact ⟨h', rfl, rfl⟩

/-- What was warned of before is part of what an attempt leaves that stops. -/
theorem Attempt.warnedAfter_eq_error {β : Type} {warnings : List Warning} {x : Attempt α β}
    {h : Halted α} (heq : x.warnedAfter warnings = .error h) :
    ∃ h', x = .error h' ∧ h = h'.warnedAfter warnings := by
  cases x with
  | ok o => cases heq
  | error h' =>
    cases heq
    exact ⟨h', rfl, rfl⟩

/-- An attempt that stops has no answer to change. -/
theorem Attempt.mapAnswer_eq_error {β γ : Type} {f : β → γ} {x : Attempt α β} {h : Halted α}
    (heq : x.mapAnswer f = .error h) : x = .error h := by
  cases x with
  | ok o => cases heq
  | error h' =>
    cases heq
    rfl

namespace Cache

variable {c d : Cache α} {r : Responder} {now : Nat} {a : Address} {call : Call α} {h : Halted α}

/-- What handing over the `items` of an address has done to it where an answer stopped the call. -/
inductive Stranded (r : Responder) (c : Cache α) (now : Nat) (a : Address) :
    List (Outbound α) → Option (Entry α) → List (Outbound α) → Prop
  | handed {items sent : List (Outbound α)} {after : Option (Entry α)}
      (hhanded : Handed r c now a items after sent) : Stranded r c now a items after sent
  | pending {items : List (Outbound α)} : Stranded r c now a items (c.store.find? a) []
  /-- It was the answer for this address that stopped the call. -/
  | halted {e : Entry α} {mac : Mac} (hfind : c.store.find? a = some e)
      (hheard : r.heard? a = some mac) :
      Stranded r c now a [.broadcastProbe a]
        (some ((e.bound c.config mac now).withDeadlineOf e)) [.broadcastProbe a]

/-- An address of which nothing was to be handed over keeps its entry. -/
theorem Stranded.of_nil {after : Option (Entry α)} {sent : List (Outbound α)}
    (h : Stranded r c now a [] after sent) : after = c.store.find? a ∧ sent = [] := by
  cases h with
  | handed hhanded => exact hhanded.of_nil
  | pending => exact ⟨rfl, rfl⟩

/-- What is stranded depends on the entry of the address and the configuration only. -/
theorem Stranded.congr {items sent : List (Outbound α)} {after : Option (Entry α)}
    (h : Stranded r d now a items after sent) (hconfig : d.config = c.config)
    (hfind : d.store.find? a = c.store.find? a) : Stranded r c now a items after sent := by
  cases h with
  | handed hhanded => exact .handed (hhanded.congr hconfig hfind)
  | pending =>
    rw [hfind]
    exact .pending
  | halted he hheard =>
    rw [hconfig]
    exact .halted (hfind ▸ he) hheard

/-- Handing over probes with distinct targets, the broadcast ones for entries without a link
address, strands each target somewhere if an answer stops it. -/
theorem handOver_stranded {items : List (Address × Outbound α)} (hs : c.store.WellFormed)
    (htarget : ∀ x ∈ items, x.2.target? = some x.1) (hnodup : (items.map (·.1)).Nodup)
    (hopen : ∀ x ∈ items, x.2 = .broadcastProbe x.1 →
      ∃ e, c.store.find? x.1 = some e ∧ e.kind = .dynamic ∧ e.mac? = none)
    (hhand : handOver r now c (items.map (·.2)) = .error h) :
    ∃ sent, sent.map (·.2) = h.sent ∧
      ∀ a, Stranded r c now a (share a items) (h.cache.store.find? a) (share a sent) := by
  induction items generalizing c h with
  | nil => cases hhand
  | cons x rest ih =>
    obtain ⟨target, item⟩ := x
    obtain ⟨hnotin, hrest⟩ := List.nodup_cons.mp hnodup
    rcases handOver_cons_cases r now item (rest.map (·.2)) hs (htarget _ List.mem_cons_self)
        (hopen _ List.mem_cons_self) with
      ⟨d, flushed, hcons, hfirst, hconfig, hedits, hothers, _⟩ |
        ⟨e, mac, h', hcons, hitem, hfind, hheard, hsent, hconfig, hstore, _⟩
    · -- the first item goes through: its address is settled, and a later one stops the call
      rw [List.map_cons, hcons] at hhand
      obtain ⟨h', hlater, rfl⟩ := Attempt.sentAfter_eq_error hhand
      have hopen' : ∀ x ∈ rest, x.2 = .broadcastProbe x.1 →
          ∃ e, d.store.find? x.1 = some e ∧ e.kind = .dynamic ∧ e.mac? = none := by
        intro x hx hitem
        have hne : x.1 ≠ target := by
          rintro rfl
          exact hnotin (List.mem_map.mpr ⟨x, hx, rfl⟩)
        rw [hothers _ hne]
        exact hopen x (List.mem_cons_of_mem _ hx) hitem
      obtain ⟨sent, hsent, hstranded⟩ := ih (hedits.wellFormed hs)
        (fun x hx => htarget x (List.mem_cons_of_mem _ hx)) hrest hopen' hlater
      refine ⟨(target, item) :: flushed.map (target, ·) ++ sent,
        by simp [hsent, Function.comp_def], fun a => ?_⟩
      have hlast := hstranded a
      by_cases ha : target = a
      · subst ha
        rw [share_eq_nil hnotin] at hlast
        obtain ⟨hafter, hnothing⟩ := hlast.of_nil
        rw [Outcome.cache_sentAfter, hafter]
        simp only [share_eq_nil hnotin, share_cons, share_append, share_map_mk, if_true,
          List.cons_append, hnothing, List.append_nil]
        exact .handed hfirst
      · simp only [share_cons, share_append, share_map_mk, if_neg ha, List.cons_append,
          List.nil_append]
        exact hlast.congr hconfig (hothers a (Ne.symm ha))
    · -- the answer to the first item stops the call: nothing else was handed over
      cases hhand.symm.trans hcons
      have hitem : item = .broadcastProbe target := hitem
      subst hitem
      refine ⟨[(target, .broadcastProbe target)], hsent.symm, fun a => ?_⟩
      have haddress : ((e.bound c.config mac now).withDeadlineOf e).address = target := by
        change e.address = target
        exact Store.address_of_find? hfind
      by_cases ha : target = a
      · subst ha
        simp only [share_cons, share_nil, if_true, share_eq_nil hnotin]
        rw [hstore, Store.find?_put_of_address _ haddress]
        exact .halted hfind hheard
      · simp only [share_cons, share_nil, if_neg ha]
        rw [hstore, Store.find?_put_of_ne _ haddress (Ne.symm ha)]
        exact .pending

/-- What a tick does to `a`, whether it goes through or stops: the entry afterwards and what is sent.
-/
inductive Ticked (r : Responder) (c : Cache α) (now : Nat) (a : Address) :
    Option (Entry α) → List (Outbound α) → Prop
  | untouched : Ticked r c now a (c.store.find? a) []
  /-- The entry has aged, but its probe, if one is due, was not handed over. -/
  | visited {e : Entry α} {aged : Entry.Aged α} (hfind : c.store.find? a = some e)
      (hpasses : e.Passes c.config now aged) : Ticked r c now a (some aged.entry) []
  /-- It was the new deadline of this entry that stopped the call. -/
  | halted {e : Entry α} {aged : Entry.Aged α} (hfind : c.store.find? a = some e)
      (hpasses : e.Passes c.config now aged) :
      Ticked r c now a (some (aged.entry.withDeadlineOf e)) []
  | settled {e : Entry α} {aged : Entry.Aged α} (hfind : c.store.find? a = some e)
      (hpasses : e.Passes c.config now aged) :
      Ticked r c now a (aged.settled c.config r now).1 (aged.settled c.config r now).2
  /-- It was the answer to the probe of this entry that stopped the call. -/
  | answered {e : Entry α} {aged : Entry.Aged α} {mac : Mac} (hfind : c.store.find? a = some e)
      (hpasses : e.Passes c.config now aged) (hprobe : aged.probe = some (.broadcastProbe a))
      (hheard : r.heard? a = some mac) :
      Ticked r c now a (some ((aged.entry.bound c.config mac now).withDeadlineOf aged.entry))
        [.broadcastProbe a]

/-- A tick that goes through ages every address. -/
theorem Ages.ticked {report : TickReport} {after : Option (Entry α)} {sent : List (Outbound α)}
    (h : Ages r c now a report after sent) : Ticked r c now a after sent := by
  cases h with
  | absent hfind => exact hfind ▸ .untouched
  | aged hfind hpasses => exact .settled hfind hpasses

/-- A tick has aged an entry whose probe is stranded. -/
theorem Stranded.ticked {e : Entry α} {aged : Entry.Aged α} {after : Option (Entry α)}
    {sent : List (Outbound α)} (hfind : c.store.find? a = some e)
    (hpasses : e.Passes c.config now aged)
    (hremains : d.store.find? a = if aged.aging.isExpiry then none else some aged.entry)
    (hconfig : d.config = c.config) (h : Stranded r d now a aged.probe.toList after sent) :
    Ticked r c now a after sent := by
  generalize hitems : aged.probe.toList = items at h
  cases h with
  | handed hhanded =>
    subst hitems
    obtain ⟨rfl, rfl⟩ :=
      hhanded.settled hpasses (Store.address_of_find? hfind) hremains hconfig
    exact .settled hfind hpasses
  | pending =>
    rw [hremains]
    split
    · next hexpiry =>
      have hsettled := Ticked.settled (r := r) hfind hpasses
      unfold Entry.Aged.settled at hsettled
      rwa [hexpiry] at hsettled
    · exact .visited hfind hpasses
  | halted hfind' hheard =>
    rw [hremains] at hfind'
    split at hfind'
    · cases hfind'
    · cases hfind'
      rw [hconfig]
      refine .answered hfind hpasses ?_ hheard
      cases hprobe : aged.probe with
      | none =>
        rw [hprobe] at hitems
        cases hitems
      | some item =>
        rw [hprobe] at hitems
        cases hitems
        rfl

/-- A tick that stops has aged some addresses. -/
theorem tick_ticked_of_error (hc : c.Coherent) (htick : c.tick r now = .error h) :
    ∃ sent, sent.map (·.2) = h.sent ∧
      ∀ a, Ticked r c now a (h.cache.store.find? a) (share a sent) := by
  have hnodup := nodup_addresses hc.wellFormed.ordered
  unfold tick tickInOrder at htick
  split at htick
  · next t hvisit =>
    cases htick
    refine ⟨[], rfl, fun a => ?_⟩
    rcases Sweep.find?_of_visitAll_error hnodup hvisit a with
      hsame | ⟨_, e, aged, e', hfind, hpasses, hafter, hfind'⟩
    · change Ticked r c now a (t.store.find? a) []
      rw [hsame]
      exact .untouched
    · change Ticked r c now a (t.store.find? a) []
      rw [hfind']
      rcases hafter with rfl | rfl
      · exact .visited hfind hpasses
      · exact .halted hfind hpasses
  · next t hvisit =>
    obtain ⟨h', hmapped, rfl⟩ := Attempt.warnedAfter_eq_error htick
    have hhand := Attempt.mapAnswer_eq_error hmapped
    change handOver r now (c.swept t) t.probes = .error h' at hhand
    obtain ⟨seen, hsees⟩ := Sweep.sees_of_visitAll hnodup hvisit
    rw [hsees.probes_eq_due] at hhand
    obtain ⟨sent, hsent, hstranded⟩ := handOver_stranded
      ((edits_swept hsees).wellFormed hc.wellFormed)
      (fun y hy => hsees.target hy) ((Sweep.sublist_due seen).nodup (hsees.nodup hnodup))
      (fun y hy => hsees.unresolved hnodup hc.dynamic hy) hhand
    refine ⟨sent, hsent, fun a => ?_⟩
    have hlast := hstranded a
    change Ticked r c now a (h'.cache.store.find? a) (share a sent)
    by_cases ha : a ∈ seen.map (·.1)
    · obtain ⟨x, hx, rfl⟩ := List.mem_map.mp ha
      obtain ⟨e, hfind, hpasses, _⟩ := hsees.passes x hx
      rw [Sweep.share_due (hsees.nodup hnodup) hx] at hlast
      exact hlast.ticked (d := c.swept t) hfind hpasses (hsees.find?_remaining hnodup hx) rfl
    · -- an address without an entry was not visited, and nothing was to be handed over
      have hnotdue : a ∉ (Sweep.due seen).map (·.1) := fun hmem =>
        ha ((Sweep.sublist_due seen).subset hmem)
      rw [share_eq_nil hnotdue] at hlast
      obtain ⟨hafter, hnothing⟩ := hlast.of_nil
      have hsame : (c.swept t).store.find? a = c.store.find? a := by
        change t.remaining.find? a = _
        rw [Sweep.find?_remaining, hsees.unseen a ha, hsees.find?_missed (.refl _) ha, ite_self]
      rw [hafter, hnothing, hsame]
      exact .untouched

/-- What a tick does to each address, whether it goes through or stops. -/
theorem tick_ticked (hc : c.Coherent) (r : Responder) (now : Nat) :
    ∃ sent, sent.map (·.2) = (c.tick r now).sent ∧
      ∀ a, Ticked r c now a ((c.tick r now).left.store.find? a) (share a sent) := by
  cases htick : c.tick r now with
  | ok o =>
    obtain ⟨_, _, sent, hsent, hages⟩ :=
      tick_ages hc.wellFormed hc.dynamic htick
    exact ⟨sent, hsent, fun a => (hages a).ticked⟩
  | error h => exact tick_ticked_of_error hc htick

end Cache

/-- What a call that stops has done to the address `a`: its entry and the items that were sent for
it. -/
inductive Stop (r : Responder) (c : Cache α) (now : Nat) (a : Address) :
    Call α → Option (Entry α) → List (Outbound α) → Prop
  /-- The clock cannot hold the instant of the second probe. -/
  | unopened {packet : α} (hvacant : c.Vacant now a) :
      Stop r c now a (.resolve a packet)
        (some ((Entry.opened c.config a c.store.nextGeneration now
          (.empty c.store.queueCapacity)).withDeadlineOf
            (.fresh a c.store.nextGeneration c.store.queueCapacity now))) []
  /-- The clock cannot hold the deadline of the binding that the answer to the first probe makes. -/
  | answered {packet : α} {mac : Mac} (hvacant : c.Vacant now a) (hheard : r.heard? a = some mac) :
      Stop r c now a (.resolve a packet)
        (some (((c.opening now a packet).bound c.config mac now).withDeadlineOf
          (c.opening now a packet))) [.broadcastProbe a]
  /-- The clock cannot hold the end of the wait for a confirmation. -/
  | unused {packet : α} {e : Entry α} (hfind : c.store.find? a = some e)
      (hstate : e.state = .stale) :
      Stop r c now a (.resolve a packet) (some ((e.used c.config now).withDeadlineOf e)) []
  | unlearned {call : Call α} {mac : Mac} (hevidence : call.evidence? c = some (a, mac))
      (hlearns : c.learns now a mac = true) :
      Stop r c now a call
        (some (((c.store.entryFor a now).bound c.config mac now).withDeadlineOf
          (c.store.entryFor a now))) []
  | unhinted {e : Entry α} {mac : Mac} (hfind : c.store.find? a = some e)
      (hmac : e.mac? = some mac) (haccepts : e.accepts now = true) :
      Stop r c now a (.confirm a) (some ((e.bound c.config mac now).withDeadlineOf e)) []
  | ticked {after : Option (Entry α)} {sent : List (Outbound α)}
      (hticked : c.Ticked r now a after sent) : Stop r c now a .tick after sent
  | aside {call : Call α} {b : Address} {after : Option (Entry α)}
      (hsweeping : call.isSweeping = false) (hsubject : call.subject? c ≠ some a)
      (hspared : c.store.Spared b a after) : Stop r c now a call after []

/-- A call that stops has done to each address what `Stop` lists. -/
def Stops (r : Responder) (c : Cache α) (now : Nat) (call : Call α) (h : Halted α) : Prop :=
  ∃ sent, sent.map (·.2) = h.sent ∧
    ∀ a, Stop r c now a call (h.cache.store.find? a) (share a sent)

namespace Stops

variable {c : Cache α} {r : Responder} {now : Nat} {a : Address} {call : Call α} {h : Halted α}

/-- A call that works on one address stops there and spares the others. -/
theorem of_spared (hsweeping : call.isSweeping = false) (hsubject : call.subject? c = some a)
    (hstop : Stop r c now a call (h.cache.store.find? a) h.sent)
    (hspared : ∀ b, b ≠ a → c.store.Spared a b (h.cache.store.find? b)) :
    Stops r c now call h := by
  refine ⟨h.sent.map (a, ·), by simp [Function.comp_def], fun b => ?_⟩
  rw [share_map_mk]
  by_cases hb : a = b
  · subst hb
    rw [if_pos rfl]
    exact hstop
  · rw [if_neg hb]
    refine .aside hsweeping ?_ (hspared b (Ne.symm hb))
    rw [hsubject]
    exact fun heq => hb (Option.some.inj heq)

/-- Evidence that stops has bound its address, but for the deadline. -/
theorem of_evidence {mac : Mac} (hs : c.store.WellFormed) (hsweeping : call.isSweeping = false)
    (hevidence : call.evidence? c = some (a, mac)) (hstop : c.observe now a mac = .error h) :
    Stops r c now call h := by
  have hobserved := c.observe_observed now a mac
  rw [hstop] at hobserved
  cases hobserved with
  | @halted x hlearns hclaims =>
    have haddress : ((x.entry.bound c.config mac now).withDeadlineOf x.entry).address = a :=
      hclaims.address_eq
    refine of_spared hsweeping (Call.subject?_of_evidence hevidence) ?_ fun b hb =>
      (hclaims.ousts hs.ordered haddress).spared hb
    change Stop r c now a call ((x.store.put _).find? a) []
    rw [Store.find?_put_of_address _ haddress, hclaims.entry_eq]
    exact .unlearned hevidence hlearns

end Stops

namespace Cache

variable {c : Cache α} {r : Responder} {now : Nat} {a : Address} {call : Call α} {h : Halted α}

/-- A packet that stops has made an entry or used one, but for the deadline. -/
theorem resolve_stops {packet : α} (hc : c.Coherent)
    (hstop : c.resolve r now a packet = .error h) : Stops r c now (.resolve a packet) h := by
  have hplaced := resolve_placed hc.wellFormed r now a packet
  rw [hstop] at hplaced
  generalize hattempt : (.error h : Attempt α (Resolution × Option Evicted)) = attempt at hplaced
  cases hplaced with
  | refused => cases hattempt
  | noRoom => cases hattempt
  | passed => cases hattempt
  | parked => cases hattempt
  | @opened x hvacant hclaims =>
    have hhand := Attempt.mapAnswer_eq_error hattempt.symm
    generalize hd : settle _ _ = d at hhand
    have hconfig : d.config = c.config := by simp [← hd]
    have hstore : d.store = x.store.put (c.opening now a packet) := by simp [← hd]
    have hfind : d.store.find? a = some (c.opening now a packet) := by
      rw [hstore]
      exact x.store.find?_put_of_address rfl
    have hs : d.store.WellFormed := by
      rw [hstore]
      exact (hvacant.edits hc.wellFormed hclaims rfl rfl).wellFormed hc.wellFormed
    rcases handOver_cons_cases r now (.broadcastProbe a) [] hs rfl
        (fun _ => ⟨_, hfind, rfl, rfl⟩) with
      ⟨_, _, hcons, _⟩ | ⟨e, mac, halted, hcons, _, hfind', hheard, hsent, _, hleft, _⟩
    · cases hhand.symm.trans hcons
    · cases hhand.symm.trans hcons
      cases hfind.symm.trans hfind'
      have haddress : (((c.opening now a packet).bound d.config mac now).withDeadlineOf
          (c.opening now a packet)).address = a := rfl
      refine .of_spared rfl rfl ?_ fun b hb => ?_
      · rw [hleft, hsent, Store.find?_put_of_address _ haddress, hconfig]
        exact .answered hvacant hheard
      · rw [hleft, Store.find?_put_of_ne _ haddress hb, hstore]
        exact (hvacant.ousts hc.wellFormed hclaims rfl).spared hb
  | @unopened x hvacant hclaims =>
    cases hattempt
    have haddress : ((Entry.opened c.config a c.store.nextGeneration now
        (.empty c.store.queueCapacity)).withDeadlineOf x.entry).address = a := rfl
    refine .of_spared rfl rfl ?_ fun b hb =>
      (hvacant.ousts hc.wellFormed hclaims haddress).spared hb
    change Stop r c now a _ ((x.store.put _).find? a) []
    rw [Store.find?_put_of_address _ haddress, hvacant.entry_eq hclaims]
    exact .unopened hvacant
  | @unused e hfind hstate =>
    cases hattempt
    have haddress : ((e.used c.config now).withDeadlineOf e).address = a :=
      Entry.address_used.trans (Store.address_of_find? hfind)
    refine .of_spared rfl rfl ?_ fun b hb => (Store.Ousts.of_put haddress).spared hb
    change Stop r c now a _ ((c.store.put _).find? a) []
    rw [Store.find?_put_of_address _ haddress]
    exact .unused hfind hstate

/-- A hint that stops has bound its address, but for the deadline. -/
theorem confirm_stops (hstop : c.confirm now a = .error h) : Stops r c now (.confirm a) h := by
  have hhinted := c.confirm_hinted now a
  rw [hstop] at hhinted
  cases hhinted with
  | @halted e mac hfind hmac haccepts =>
    have haddress : ((e.bound c.config mac now).withDeadlineOf e).address = a := by
      change e.address = a
      exact Store.address_of_find? hfind
    refine .of_spared rfl rfl ?_ fun b hb => (Store.Ousts.of_put haddress).spared hb
    change Stop r c now a _ ((c.store.put _).find? a) []
    rw [Store.find?_put_of_address _ haddress]
    exact .unhinted hfind hmac haccepts

/-- Every call that stops has done to each address what `Stop` lists. -/
theorem perform_stops (hc : c.Coherent) (hstop : c.perform r now call = .error h) :
    Stops r c now call h := by
  cases call with
  | resolve a packet => exact resolve_stops hc (Attempt.mapAnswer_eq_error hstop)
  | observe a mac =>
    exact .of_evidence hc.wellFormed rfl rfl (Attempt.mapAnswer_eq_error hstop)
  | confirm a => exact confirm_stops (Attempt.mapAnswer_eq_error hstop)
  | tick =>
    obtain ⟨sent, hsent, hticked⟩ := tick_ticked_of_error hc (Attempt.mapAnswer_eq_error hstop)
    exact ⟨sent, hsent, fun a => .ticked (hticked a)⟩
  | receive host bytes =>
    have hreceived := Attempt.mapAnswer_eq_error hstop
    rcases c.receive_cases now host bytes with ⟨a, mac, f, hevidence, hreceive⟩ | ⟨_, o, hreceive, _⟩
    · rw [hreceive] at hreceived
      exact .of_evidence hc.wellFormed rfl hevidence (Attempt.mapAnswer_eq_error hreceived)
    · cases hreceive.symm.trans hreceived
  | pin | invalidate | invalidateAll => cases hstop

end Cache

end Neighbor
