import Neighbor.Proofs.Evidence

/-!
# The ways in which an entry changes

A turn leaves an entry as it is for all that time can tell, puts a stale one on the way to a check,
binds it, ages it, takes it away, or replaces a failed one by a new entry. `Turn.change` says that
there is nothing else; in particular nothing but time, a binding and the use of a stale entry moves
the deadline of an entry that stays.
-/

namespace Neighbor

variable {α : Type}

/-- Items of which none is a probe. -/
def Quiet (sent : List (Outbound α)) : Prop := ∀ x ∈ sent, x.isProbe = false

/-- No probe is among no items. -/
theorem quiet_nil : Quiet ([] : List (Outbound α)) := nofun

/-- No probe is among packets. -/
theorem quiet_packets (packets : List α) (mac : Mac) : Quiet (packets.map (.packet · mac)) := by
  intro x hx
  obtain ⟨p, _, rfl⟩ := List.mem_map.mp hx
  rfl

/-- Two entries that time does not tell apart: they differ at most in their packets and in when they
were used. -/
structure Entry.Alike (e e' : Entry α) : Prop where
  generation_eq : e'.generation = e.generation
  deadline_eq : e'.deadline = e.deadline
  state_eq : e'.state = e.state
  probes_eq : e'.probes = e.probes
  mac?_eq : e'.mac? = e.mac?

/-- Time does not tell an entry apart from itself. -/
theorem Entry.Alike.refl (e : Entry α) : e.Alike e := ⟨rfl, rfl, rfl, rfl, rfl⟩

/-- Whether a call binds `a`, by evidence, by a hint or for good. -/
def Secures (r : Responder) (c : Cache α) (now : Nat) (a : Address) (call : Call α)
    (answer : Answer) (sent : List (Outbound α)) : Prop :=
  (∃ mac, Tells r c now a call sent mac) ∨ (call = .confirm a ∧ answer.isCounted = true) ∨
    ∃ mac, call = .pin a mac ∧ answer.isPinned = true

/-- What a turn does to the entry `e` of `a`: the entry afterwards and what is sent. -/
inductive Change (r : Responder) (c : Cache α) (now : Nat) (a : Address) (call : Call α)
    (answer : Answer) (e : Entry α) : Option (Entry α) → List (Outbound α) → Prop
  | kept {e' : Entry α} {sent : List (Outbound α)} (halike : e.Alike e') (hquiet : Quiet sent)
      (hcall : call ≠ .tick) : Change r c now a call answer e (some e') sent
  | woken {e' : Entry α} {sent : List (Outbound α)} {packet : α} (hcall : call = .resolve a packet)
      (hbefore : e.state = .stale) (hafter : e'.state = .delay)
      (hgeneration : e'.generation = e.generation)
      (hdeadline : e'.deadline = some (now + c.config.delay.nanos)) (hquiet : Quiet sent) :
      Change r c now a call answer e (some e') sent
  | bound {e' : Entry α} {sent : List (Outbound α)} (hcall : call ≠ .tick)
      (hsecures : Secures r c now a call answer sent) (hafter : e'.state = .reachable)
      (hgeneration : e'.generation = e.generation) (hquiet : Quiet sent) :
      Change r c now a call answer e (some e') sent
  | aged {aged : Entry.Aged α} (hcall : call = .tick) (hpasses : e.Passes c.config now aged) :
      Change r c now a call answer e (aged.settled c.config r now).1
        (aged.settled c.config r now).2
  | gone (hcall : call ≠ .tick) : Change r c now a call answer e none []
  | replaced {packet : α} (hcall : call = .resolve a packet) (hbefore : e.state = .failed) :
      Change r c now a call answer e (some ((c.opening now a packet).answered c.config r now).1)
        (.broadcastProbe a :: ((c.opening now a packet).answered c.config r now).2)

section Turns

variable {r : Responder} {c : Cache α} {now : Nat} {a : Address} {call : Call α} {answer : Answer}
  {after : Option (Entry α)} {sent : List (Outbound α)} {e : Entry α}

/-- Use puts a stale entry on the way to a check and leaves any other as it is. -/
theorem Entry.used_cases (cfg : Config) (now : Nat) (e : Entry α) :
    (e.state = .stale ∧ (e.used cfg now).state = .delay ∧
        (e.used cfg now).deadline = some (now + cfg.delay.nanos)) ∨
      e.Alike (e.used cfg now) := by
  unfold used
  split
  · next mac hstatus =>
    refine .inl ⟨?_, rfl, rfl⟩
    rw [state, hstatus]
    rfl
  · exact .inr ⟨rfl, rfl, rfl, rfl, rfl⟩

/-- Resolving an address that has an entry changes that as a turn may. -/
theorem Cache.Resolves.change {packet : α} {resolution : Resolution}
    (h : c.Resolves r now a packet resolution after sent) (hfind : c.store.find? a = some e) :
    Change r c now a (.resolve a packet) answer e after sent := by
  cases h with
  | refused hfind' =>
    cases hfind.symm.trans hfind'
    exact .kept (.refl e) quiet_nil nofun
  | noRoom hnone => cases hfind.symm.trans hnone
  | opened hvacant => exact .replaced rfl (hvacant e hfind).1
  | @passed e' mac hfind' hmac =>
    cases hfind.symm.trans hfind'
    have hquiet : Quiet [Outbound.packet packet mac] := quiet_packets [packet] mac
    rcases e.used_cases c.config now with ⟨hbefore, hafter, hdeadline⟩ | halike
    · exact .woken rfl hbefore hafter Entry.generation_used hdeadline hquiet
    · exact .kept halike hquiet nofun
  | parked hfind' hstatus =>
    cases hfind.symm.trans hfind'
    refine .kept ⟨rfl, rfl, ?_, ?_, ?_⟩ quiet_nil nofun
    · rw [Entry.state, Entry.state, hstatus]
      rfl
    · rw [Entry.probes, Entry.probes, hstatus]
      rfl
    · rw [Entry.mac?, Entry.mac?, hstatus]
      rfl

/-- A turn changes an entry in one of six ways. -/
theorem Turn.change (h : Turn r c now a call answer after sent)
    (hfind : c.store.find? a = some e) : Change r c now a call answer e after sent := by
  have hentry : c.store.entryFor a now = e := Store.entryFor_of_some hfind
  cases h with
  | resolved hresolves => exact hresolves.change hfind
  | @learned _ _ mac _ _ hevidence hlearns =>
    have hcall : call ≠ .tick := by
      rintro rfl
      cases hevidence
    cases hlearns with
    | ignored =>
      rw [hfind]
      exact .kept (.refl e) quiet_nil hcall
    | learned hlearns =>
      rw [hentry]
      exact .bound hcall (.inl ⟨mac, .inl ⟨hevidence, hlearns⟩⟩) rfl rfl (quiet_packets _ mac)
  | hinted hhints =>
    cases hhints with
    | ignored =>
      rw [hfind]
      exact .kept (.refl e) quiet_nil nofun
    | counted hfind' =>
      cases hfind.symm.trans hfind'
      exact .bound nofun (.inr (.inl ⟨rfl, rfl⟩)) rfl rfl quiet_nil
  | @pinned mac _ _ _ hpins =>
    cases hpins with
    | refused =>
      rw [hfind]
      exact .kept (.refl e) quiet_nil nofun
    | pinned =>
      rw [hentry]
      exact .bound nofun (.inr (.inr ⟨mac, rfl, rfl⟩)) rfl rfl (quiet_packets _ mac)
  | aged hages =>
    cases hages with
    | absent hnone => cases hfind.symm.trans hnone
    | aged hfind' hpasses =>
      cases hfind.symm.trans hfind'
      exact .aged rfl hpasses
  | removed => exact .gone nofun
  | cleared => exact .gone nofun
  | aside hsweeping hsubject hspared =>
    have hcall : call ≠ .tick := by
      rintro rfl
      cases hsweeping
    rcases hspared with rfl | ⟨rfl, _⟩
    · rw [hfind]
      exact .kept (.refl e) quiet_nil hcall
    · exact .gone hcall

/-- An address without an entry stays so, starts a resolution, or is bound. -/
theorem Turn.appears (h : Turn r c now a call answer after sent)
    (hfind : c.store.find? a = none) :
    (after = none ∧ sent = []) ∨
      (∃ packet, call = .resolve a packet ∧
        after = some ((c.opening now a packet).answered c.config r now).1 ∧
        sent = .broadcastProbe a :: ((c.opening now a packet).answered c.config r now).2) ∨
      (Secures r c now a call answer sent ∧ sent = [] ∧
        ∃ e, after = some e ∧ e.state = .reachable) := by
  have hentry : c.store.entryFor a now =
      .fresh a c.store.nextGeneration c.store.queueCapacity now :=
    Store.entryFor_of_none hfind
  cases h with
  | @resolved packet _ _ _ _ hresolves =>
    cases hresolves with
    | refused hfind' | passed hfind' | parked hfind' => cases hfind.symm.trans hfind'
    | noRoom => exact .inl ⟨rfl, rfl⟩
    | opened => exact .inr (.inl ⟨packet, rfl, rfl, rfl⟩)
  | @learned _ _ mac _ _ hevidence hlearns =>
    cases hlearns with
    | ignored => exact .inl ⟨hfind, rfl⟩
    | learned hlearns =>
      rw [hentry]
      exact .inr (.inr ⟨.inl ⟨mac, .inl ⟨hevidence, hlearns⟩⟩, rfl, _, rfl, rfl⟩)
  | hinted hhints =>
    cases hhints with
    | ignored => exact .inl ⟨hfind, rfl⟩
    | counted hfind' => cases hfind.symm.trans hfind'
  | @pinned mac _ _ _ hpins =>
    cases hpins with
    | refused => exact .inl ⟨hfind, rfl⟩
    | pinned =>
      rw [hentry]
      exact .inr (.inr ⟨.inr (.inr ⟨mac, rfl, rfl⟩), rfl, _, rfl, rfl⟩)
  | aged hages =>
    cases hages with
    | absent => exact .inl ⟨rfl, rfl⟩
    | aged hfind' => cases hfind.symm.trans hfind'
  | removed | cleared => exact .inl ⟨rfl, rfl⟩
  | aside hsweeping hsubject hspared =>
    rcases hspared with rfl | ⟨rfl, _⟩
    · exact .inl ⟨hfind, rfl⟩
    · exact .inl ⟨rfl, rfl⟩

/-- Answers release packets only. -/
theorem Entry.quiet_answered (cfg : Config) (r : Responder) (now : Nat) (e : Entry α) :
    Quiet (e.answered cfg r now).2 := by
  unfold answered
  split
  · exact quiet_packets _ _
  · exact quiet_nil

/-- What goes out for an aged entry is its probe and packets. -/
theorem Entry.Aged.mem_settled {cfg : Config} {aged : Entry.Aged α} {item : Outbound α}
    (h : item ∈ (aged.settled cfg r now).2) : aged.probe = some item ∨ item.isProbe = false := by
  unfold settled at h
  split at h
  · cases h
  · next hprobe =>
    rcases List.mem_cons.mp h with rfl | h
    · exact .inl hprobe
    · exact .inr (Entry.quiet_answered cfg r now aged.entry item h)
  · exact .inl (by simpa using h)

/-- The probe of an aged entry that stays goes out. -/
theorem Entry.Aged.probe_mem_settled {cfg : Config} {aged : Entry.Aged α} {x : Outbound α}
    (hstays : aged.aging.isExpiry = false) (hprobe : aged.probe = some x) :
    x ∈ (aged.settled cfg r now).2 := by
  unfold settled
  rw [hstays, hprobe]
  cases x with
  | broadcastProbe => exact List.mem_cons_self
  | unicastProbe | packet => exact List.mem_cons_self

/-- A probe that is sent on behalf of an address asks for that address. -/
theorem Turn.target {item : Outbound α} {b : Address} (h : Turn r c now a call answer after sent)
    (hitem : item ∈ sent) (htarget : item.target? = some b) : b = a := by
  have hloud : item.isProbe ≠ false := by
    cases item with
    | packet => cases htarget
    | broadcastProbe | unicastProbe => nofun
  have hopened {packet : α} (hmem : item ∈ (.broadcastProbe a ::
      ((c.opening now a packet).answered c.config r now).2)) : b = a := by
    rcases List.mem_cons.mp hmem with rfl | hmem
    · exact (Option.some.inj htarget).symm
    · exact absurd (Entry.quiet_answered _ _ _ _ item hmem) hloud
  cases hfind : c.store.find? a with
  | none =>
    rcases h.appears hfind with ⟨_, rfl⟩ | ⟨packet, _, _, rfl⟩ | ⟨_, rfl, _⟩
    · cases hitem
    · exact hopened hitem
    · cases hitem
  | some e =>
    cases h.change hfind with
    | kept _ hquiet | woken _ _ _ _ _ hquiet | bound _ _ _ _ hquiet =>
      exact absurd (hquiet item hitem) hloud
    | aged _ hpasses =>
      rcases Entry.Aged.mem_settled hitem with hprobe | hsilent
      · have haddress := htarget.symm.trans (hpasses.target hprobe)
        rw [Store.address_of_find? hfind] at haddress
        exact Option.some.inj haddress
      · exact absurd hsilent hloud
    | gone => cases hitem
    | replaced => exact hopened hitem

/-- Evidence that counts leaves its binding, good for the configured time. -/
theorem Turn.confirmed_of_evidence {mac : Mac} (h : Turn r c now a call answer after sent)
    (hevidence : call.evidence? c = some (a, mac)) (hcounts : c.learns now a mac = true) :
    ∃ e, after = some e ∧ e.mac? = some mac ∧ e.state = .reachable ∧
      e.deadline = some (now + c.config.reachable.nanos) := by
  cases h with
  | learned hevidence' hlearns =>
    cases hevidence.symm.trans hevidence'
    cases hlearns with
    | learned => exact ⟨_, rfl, rfl, rfl, rfl⟩
    | ignored hignores =>
      rw [hcounts] at hignores
      cases hignores
  | aside _ hsubject => exact absurd (Call.subject?_of_evidence hevidence) hsubject
  | resolved | hinted | pinned | aged | removed | cleared => cases hevidence

/-- An entry whose probe is answered is bound for the configured time. -/
theorem Entry.confirmed_of_heard {cfg : Config} {mac : Mac} (e : Entry α)
    (hheard : r.heard? e.address = some mac) :
    (e.answered cfg r now).1.mac? = some mac ∧ (e.answered cfg r now).1.state = .reachable ∧
      (e.answered cfg r now).1.deadline = some (now + cfg.reachable.nanos) := by
  rcases e.answered_cases with ⟨hnone, _⟩ | ⟨mac', hheard', hanswered⟩
  · rw [hnone] at hheard
    cases hheard
  · cases hheard.symm.trans hheard'
    rw [hanswered]
    exact ⟨rfl, rfl, rfl⟩

/-- An aged entry whose probe went out and is answered is bound for the configured time. -/
theorem Entry.Passes.confirmed_of_heard {cfg : Config} {aged : Entry.Aged α} {mac : Mac}
    (h : e.Passes cfg now aged) (haddress : e.address = a)
    (hprobe : .broadcastProbe a ∈ (aged.settled cfg r now).2) (hheard : r.heard? a = some mac) :
    ∃ e', (aged.settled cfg r now).1 = some e' ∧ e'.mac? = some mac ∧ e'.state = .reachable ∧
      e'.deadline = some (now + cfg.reachable.nanos) := by
  rcases Entry.Aged.mem_settled hprobe with hdue | hsilent
  · obtain ⟨hstays, _, _⟩ := h.unresolved hdue
    have haddress' : aged.entry.address = a := h.address_eq.trans haddress
    refine ⟨(aged.entry.answered cfg r now).1, ?_, ?_⟩
    · simp only [Entry.Aged.settled, hstays, hdue]
    · exact aged.entry.confirmed_of_heard (haddress' ▸ hheard)
  · cases hsilent

/-- The answer to a broadcast probe leaves its binding, good for the configured time. -/
theorem Turn.confirmed_of_answer {mac : Mac} (h : Turn r c now a call answer after sent)
    (hprobe : .broadcastProbe a ∈ sent) (hheard : r.heard? a = some mac) :
    ∃ e, after = some e ∧ e.mac? = some mac ∧ e.state = .reachable ∧
      e.deadline = some (now + c.config.reachable.nanos) := by
  have hopened (p : α) : ((c.opening now a p).answered c.config r now).1.mac? = some mac ∧ _ :=
    Entry.confirmed_of_heard _ hheard
  cases hfind : c.store.find? a with
  | none =>
    rcases h.appears hfind with ⟨_, rfl⟩ | ⟨p, _, rfl, _⟩ | ⟨_, rfl, _⟩
    · cases hprobe
    · exact ⟨_, rfl, hopened p⟩
    · cases hprobe
  | some e =>
    cases h.change hfind with
    | kept _ hquiet | woken _ _ _ _ _ hquiet | bound _ _ _ _ hquiet => cases hquiet _ hprobe
    | gone => cases hprobe
    | @replaced p => exact ⟨_, rfl, hopened p⟩
    | aged _ hpasses =>
      exact hpasses.confirmed_of_heard (Store.address_of_find? hfind) hprobe hheard

/-- A turn that tells a binding leaves it. -/
theorem Turn.bound_of_tells {mac : Mac} (h : Turn r c now a call answer after sent)
    (htells : Tells r c now a call sent mac) :
    ∃ e, after = some e ∧ e.mac? = some mac ∧ e.state = .reachable ∧
      e.deadline = some (now + c.config.reachable.nanos) := by
  rcases htells with ⟨hevidence, hcounts⟩ | ⟨hprobe, hheard⟩
  · exact h.confirmed_of_evidence hevidence hcounts
  · exact h.confirmed_of_answer hprobe hheard

/-- A turn that confirms the binding of `a` leaves it good for the configured time. -/
theorem Turn.confirmed (h : Turn r c now a call answer after sent)
    (hconfirms : (∃ mac, Tells r c now a call sent mac) ∨
      (call = .confirm a ∧ answer.isCounted = true)) :
    ∃ e, after = some e ∧ e.state = .reachable ∧
      e.deadline = some (now + c.config.reachable.nanos) := by
  rcases hconfirms with ⟨mac, htells⟩ | ⟨hcall, hcounted⟩
  · obtain ⟨e, hafter, _, hconfirmed⟩ := h.bound_of_tells htells
    exact ⟨e, hafter, hconfirmed⟩
  · subst hcall
    cases h with
    | hinted hhints =>
      cases hhints with
      | counted => exact ⟨_, rfl, rfl, rfl⟩
      | ignored => cases hcounted
    | learned hevidence => cases hevidence
    | aside _ hsubject => exact absurd rfl hsubject

end Turns

end Neighbor
