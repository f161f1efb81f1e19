import Neighbor.Proofs.Effect

/-!
# Where an entry comes from

An entry that an address has after a request is the one it had, with the same generation and at most
one packet more to wait, or it is new. A new entry takes the next generation. It is made for an
address without an entry, or by a packet in place of an entry that failed and whose grace has ended.
`Coherent.descends` says so of every request, whether it goes through or stops; `Reached.bounded`
reads off the bounds of all caches that calls lead to.
-/

namespace Neighbor

variable {α : Type}

/-- The queue of an entry that is being resolved. -/
def Entry.queue? (e : Entry α) : Option (PendingQueue α) :=
  match e.status with
  | .incomplete _ queue => some queue
  | _ => none

/-- A queue that is left alone or offered one packet. -/
inductive PendingQueue.Continues (queue : PendingQueue α) : PendingQueue α → Prop
  | same : Continues queue queue
  | offered (packet : α) : Continues queue (queue.offer packet).1

/-- A queue that continues one within its bound is within the same bound. -/
theorem PendingQueue.Continues.bounds {n : Nat} {old queue : PendingQueue α}
    (h : old.Continues queue) (hcapacity : old.capacity = n) (hlength : old.packets.length ≤ n) :
    queue.capacity = n ∧ queue.packets.length ≤ n := by
  subst hcapacity
  cases h with
  | same => exact ⟨rfl, hlength⟩
  | offered packet =>
    exact ⟨(PendingQueue.offer_bounds hlength).1, (PendingQueue.offer_bounds hlength).2.1⟩

/-- Whether a call puts a new entry in the place of any that `a` has. -/
def Call.Renews (c : Cache α) (now : Nat) (a : Address) (call : Call α) : Prop :=
  ∃ packet, call = .resolve a packet ∧ c.Vacant now a

/-- Where an entry that `a` has after a call comes from. -/
inductive Cache.Descends (c : Cache α) (now : Nat) (a : Address) (call : Call α)
    (e' : Entry α) : Prop
  | same {e : Entry α} (hfind : c.store.find? a = some e) (hrenews : ¬call.Renews c now a)
      (hgeneration : e'.generation = e.generation)
      (hqueue : ∀ queue, e'.queue? = some queue → ∃ old, e.queue? = some old ∧ old.Continues queue)
  | fresh (hnew : c.store.find? a = none ∨ call.Renews c now a)
      (hsubject : call.subject? c = some a) (hgeneration : e'.generation = c.store.nextGeneration)
      (hqueue : ∀ queue, e'.queue? = some queue →
        (PendingQueue.empty c.store.queueCapacity).Continues queue)

section

variable {r : Responder} {c : Cache α} {now : Nat} {a : Address} {call : Call α} {e e' : Entry α}
  {after : Option (Entry α)} {sent : List (Outbound α)}

/-- An entry with a link address has no queue. -/
theorem Entry.queue?_of_mac? {mac : Mac} (h : e.mac? = some mac) : e.queue? = none := by
  unfold queue?
  cases hstatus : e.status with
  | incomplete => simp [mac?, hstatus, Status.mac?] at h
  | reachable | stale | delay | probe | failed => rfl

/-- The queue that time leaves was there before. -/
theorem Entry.Passes.queue?_eq {cfg : Config} {aged : Aged α} {queue : PendingQueue α}
    (h : e.Passes cfg now aged) (hqueue : aged.entry.queue? = some queue) :
    e.queue? = some queue := by
  cases h with
  | idle | expired => exact hqueue
  | @reprobed n old hdue hstatus =>
    cases hqueue
    rw [queue?, hstatus]
  | rechecked | checked | staled | gaveUp => cases hqueue

/-- The queue that an answered entry has was there before. -/
theorem Entry.queue?_answered {cfg : Config} {queue : PendingQueue α}
    (h : (e.answered cfg r now).1.queue? = some queue) : e.queue? = some queue := by
  rcases e.answered_cases with ⟨_, hanswered⟩ | ⟨mac, _, hanswered⟩
  · rwa [hanswered] at h
  · rw [hanswered] at h
    cases h

namespace Call.Renews

/-- A call that renews an address is about it. -/
theorem subject?_eq (h : call.Renews c now a) : call.subject? c = some a := by
  obtain ⟨packet, rfl, _⟩ := h
  rfl

/-- Only an offered packet renews. -/
theorem not_of_offers (h : call.offers a = []) : ¬call.Renews c now a := by
  rintro ⟨packet, rfl, _⟩
  rw [Call.offers, if_pos rfl] at h
  cases h

/-- An entry that has not failed is not replaced. -/
theorem not_of_state (hfind : c.store.find? a = some e) (hstate : e.state ≠ .failed) :
    ¬call.Renews c now a :=
  fun ⟨_, _, hvacant⟩ => hstate (hvacant e hfind).1

/-- The entry of an address with a link address is not replaced. -/
theorem not_of_mac? {mac : Mac} (hfind : c.store.find? a = some e) (hmac : e.mac? = some mac) :
    ¬call.Renews c now a := by
  refine not_of_state hfind fun hfailed => ?_
  have hnone : e.mac? = none := Entry.mac?_eq_none_iff.mpr (by rw [hfailed]; rfl)
  cases hmac.symm.trans hnone

/-- Evidence of an address does not replace its entry. -/
theorem not_of_evidence {mac : Mac} (h : call.evidence? c = some (a, mac)) :
    ¬call.Renews c now a := by
  rintro ⟨packet, rfl, _⟩
  cases h

end Call.Renews

namespace Cache.Descends

/-- An entry that is left alone. -/
theorem refl (hfind : c.store.find? a = some e) (hrenews : ¬call.Renews c now a) :
    c.Descends now a call e :=
  .same hfind hrenews rfl fun queue hqueue => ⟨queue, hqueue, .same⟩

/-- An entry whose queue is gone. -/
theorem same_of_none (hfind : c.store.find? a = some e) (hrenews : ¬call.Renews c now a)
    (hgeneration : e'.generation = e.generation) (hnone : e'.queue? = none) :
    c.Descends now a call e' := by
  refine .same hfind hrenews hgeneration fun queue hqueue => ?_
  cases hnone.symm.trans hqueue

/-- A new entry whose queue is gone. -/
theorem fresh_of_none (hnew : c.store.find? a = none ∨ call.Renews c now a)
    (hsubject : call.subject? c = some a) (hgeneration : e'.generation = c.store.nextGeneration)
    (hnone : e'.queue? = none) : c.Descends now a call e' := by
  refine .fresh hnew hsubject hgeneration fun queue hqueue => ?_
  cases hnone.symm.trans hqueue

/-- The claimed entry of an address whose queue is then gone. -/
theorem of_entryFor (hsubject : call.subject? c = some a) (hrenews : ¬call.Renews c now a)
    (hgeneration : e'.generation = (c.store.entryFor a now).generation) (hnone : e'.queue? = none) :
    c.Descends now a call e' := by
  cases hfind : c.store.find? a with
  | none =>
    rw [Store.entryFor_of_none hfind] at hgeneration
    exact fresh_of_none (.inl hfind) hsubject hgeneration hnone
  | some e =>
    rw [Store.entryFor_of_some hfind] at hgeneration
    exact same_of_none hfind hrenews hgeneration hnone

/-- An entry on which time has acted. -/
theorem of_passes {aged : Entry.Aged α} (hfind : c.store.find? a = some e)
    (hpasses : e.Passes c.config now aged) (hgeneration : e'.generation = aged.entry.generation)
    (hqueue : ∀ queue, e'.queue? = some queue → aged.entry.queue? = some queue) :
    c.Descends now a .tick e' := by
  refine .same hfind (Call.Renews.not_of_offers rfl) (hgeneration.trans hpasses.generation_eq) ?_
  intro queue hsome
  exact ⟨queue, hpasses.queue?_eq (hqueue queue hsome), .same⟩

/-- An entry that is left by a tick that handed over its probe. -/
theorem of_settled {aged : Entry.Aged α} (hfind : c.store.find? a = some e)
    (hpasses : e.Passes c.config now aged) (hafter : (aged.settled c.config r now).1 = some e') :
    c.Descends now a .tick e' := by
  unfold Entry.Aged.settled at hafter
  split at hafter
  · cases hafter
  · cases hafter
    exact of_passes hfind hpasses Entry.generation_answered fun _ hqueue =>
      Entry.queue?_answered hqueue
  · cases hafter
    exact of_passes hfind hpasses rfl fun _ hqueue => hqueue

/-- An entry that a call on another address spares comes from itself. -/
theorem of_spared {b : Address} (hsubject : call.subject? c ≠ some a)
    (hspared : c.store.Spared b a (some e')) : c.Descends now a call e' := by
  rcases hspared with hsame | ⟨hnone, _⟩
  · exact refl hsame.symm fun hrenews => hsubject hrenews.subject?_eq
  · cases hnone

end Cache.Descends

/-- Where the entry of an address that is resolved comes from. -/
theorem Cache.Resolves.descends {packet : α} {resolution : Resolution}
    (h : c.Resolves r now a packet resolution (some e') sent) :
    c.Descends now a (.resolve a packet) e' := by
  cases h with
  | @refused _ t hfind _ hdeadline hgrace =>
    refine .refl hfind ?_
    rintro ⟨_, _, hvacant⟩
    exact absurd ((hvacant e' hfind).2 t hdeadline) (Nat.not_le.mpr hgrace)
  | opened hvacant =>
    refine .fresh (.inr ⟨packet, rfl, hvacant⟩) rfl Entry.generation_answered fun queue hqueue => ?_
    cases Entry.queue?_answered hqueue
    exact .offered packet
  | passed hfind hmac =>
    exact .same_of_none hfind (Call.Renews.not_of_mac? hfind hmac) Entry.generation_used
      (Entry.queue?_of_mac? (Entry.mac?_used.trans hmac))
  | @parked e n queue hfind hstatus =>
    have hstate : e.state ≠ .failed := by
      intro hfailed
      rw [Entry.state, hstatus] at hfailed
      cases hfailed
    refine .same hfind (Call.Renews.not_of_state hfind hstate) rfl fun queue' hqueue => ?_
    cases hqueue
    exact ⟨queue, by rw [Entry.queue?, hstatus], .offered packet⟩

/-- An entry after a call that goes through. -/
theorem Turn.descends {answer : Answer} (h : Turn r c now a call answer after sent)
    (hafter : after = some e') : c.Descends now a call e' := by
  cases h with
  | resolved hresolves =>
    subst hafter
    exact hresolves.descends
  | learned hevidence hlearns =>
    have hrenews : ¬call.Renews c now a := Call.Renews.not_of_evidence hevidence
    cases hlearns with
    | ignored => exact .refl hafter hrenews
    | learned =>
      cases hafter
      exact .of_entryFor (Call.subject?_of_evidence hevidence) hrenews rfl rfl
  | hinted hhints =>
    have hrenews : ¬(Call.confirm a).Renews c now a := Call.Renews.not_of_offers rfl
    cases hhints with
    | ignored => exact .refl hafter hrenews
    | counted hfind =>
      cases hafter
      exact .same_of_none hfind hrenews rfl rfl
  | @pinned mac _ _ _ hpins =>
    have hrenews : ¬(Call.pin a mac).Renews c now a := Call.Renews.not_of_offers rfl
    cases hpins with
    | refused => exact .refl hafter hrenews
    | pinned =>
      cases hafter
      exact .of_entryFor rfl hrenews rfl rfl
  | aged hages =>
    cases hages with
    | absent => cases hafter
    | aged hfind hpasses => exact .of_settled hfind hpasses hafter
  | removed | cleared => cases hafter
  | aside _ hsubject hspared =>
    subst hafter
    exact .of_spared hsubject hspared

/-- An entry after a call that stops. -/
theorem Stop.descends (h : Stop r c now a call after sent) (hafter : after = some e') :
    c.Descends now a call e' := by
  cases h with
  | @unopened packet hvacant =>
    cases hafter
    refine .fresh (.inr ⟨packet, rfl, hvacant⟩) rfl rfl fun queue hqueue => ?_
    cases hqueue
    exact .same
  | @answered packet mac hvacant =>
    cases hafter
    exact .fresh_of_none (.inr ⟨packet, rfl, hvacant⟩) rfl rfl rfl
  | @unused _ e hfind hstate =>
    cases hafter
    refine .same_of_none hfind (Call.Renews.not_of_state hfind (hstate.trans_ne (by decide)))
      Entry.generation_used ?_
    obtain ⟨mac, hmac⟩ : ∃ mac, e.mac? = some mac := by
      rw [← Option.isSome_iff_exists, Entry.mac?, Status.isSome_mac?]
      exact congrArg State.isResolved hstate
    exact Entry.queue?_of_mac? (e := e.used c.config now) (Entry.mac?_used.trans hmac)
  | unlearned hevidence =>
    cases hafter
    exact .of_entryFor (Call.subject?_of_evidence hevidence)
      (Call.Renews.not_of_evidence hevidence) rfl rfl
  | unhinted hfind =>
    cases hafter
    exact .same_of_none hfind (Call.Renews.not_of_offers rfl) rfl rfl
  | ticked hticked =>
    cases hticked with
    | untouched => exact .refl hafter (Call.Renews.not_of_offers rfl)
    | visited hfind hpasses | halted hfind hpasses =>
      cases hafter
      exact .of_passes hfind hpasses rfl fun _ hqueue => hqueue
    | settled hfind hpasses => exact .of_settled hfind hpasses hafter
    | answered hfind hpasses =>
      cases hafter
      refine .of_passes hfind hpasses rfl fun queue hqueue => ?_
      cases hqueue
  | aside _ hsubject hspared =>
    subst hafter
    exact .of_spared hsubject hspared

end

namespace Cache

variable {c : Cache α} {a : Address}

/-- An entry after a request, whether it goes through or stops. -/
theorem Coherent.descends (hc : c.Coherent) {q : Request α} {e : Entry α}
    (hafter : (c.serve q).left.store.find? a = some e) : c.Descends q.now a q.call e := by
  cases hserve : c.serve q with
  | ok o =>
    rw [hserve] at hafter
    obtain ⟨_, _, hturn⟩ := (hc.turns hserve).turns
    exact (hturn a).descends hafter
  | error h =>
    rw [hserve] at hafter
    obtain ⟨_, _, hstop⟩ := perform_stops hc hserve
    exact (hstop a).descends hafter

/-- The bounds of a cache: those of its store are the configured ones, and every queue is as large
as configured and no longer than that. -/
structure Bounded (c : Cache α) : Prop where
  capacity_eq : c.store.capacity = c.config.capacity
  queueCapacity_eq : c.store.queueCapacity = c.config.queueCapacity
  queue_le : ∀ a e queue, c.store.find? a = some e → e.queue? = some queue →
    queue.capacity = c.config.queueCapacity ∧ queue.packets.length ≤ c.config.queueCapacity

/-- A request keeps a cache within its bounds. -/
theorem Bounded.serve (h : c.Bounded) (hc : c.Coherent) (q : Request α) :
    (c.serve q).left.Bounded := by
  have hfollows := perform_follows hc q.responder q.now q.call
  obtain ⟨hcapacity, hqueueCapacity, _⟩ := hfollows.edits.bounds
  have hconfig : (c.serve q).left.config = c.config := hfollows.config_eq
  refine ⟨?_, ?_, fun a e queue hafter hqueue => ?_⟩
  · rw [hconfig, ← h.capacity_eq]
    exact hcapacity
  · rw [hconfig, ← h.queueCapacity_eq]
    exact hqueueCapacity
  · rw [hconfig]
    cases hc.descends hafter with
    | same hfind _ _ hold =>
      obtain ⟨old, hqueue', hcontinues⟩ := hold queue hqueue
      obtain ⟨hlarge, hlength⟩ := h.queue_le a _ old hfind hqueue'
      exact hcontinues.bounds hlarge hlength
    | fresh _ _ _ hempty =>
      exact (hempty queue hqueue).bounds h.queueCapacity_eq (Nat.zero_le _)

/-- Every cache that calls lead to is within its bounds. -/
theorem Reached.bounded {cfg : Config} {start : Nat} {calls : List (Call α)}
    (h : c.Reached cfg start calls) : c.Bounded :=
  h.induction ⟨rfl, rfl, nofun⟩ fun _ q hd hbounded => hbounded.serve hd q

end Cache

end Neighbor
