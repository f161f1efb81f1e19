import Neighbor.Proofs.Permanent
import Neighbor.Proofs.Prevail

/-!
# The grace of a failed address

An address that fails in a tick refuses packets for the configured grace. Until that has passed its
entry stays as it is, whatever else the cache is asked or told, and no probe asks for it. From then
on a packet finds it as if it had been removed by name: the failed entry leaves room for the new
one, so that nothing is evicted for it. `Cache.Reached.refuses_for_grace` says both.
-/

namespace Neighbor

variable {α : Type}

/-- Two attempts agree if they come to the same outcome, or if both stop and leave the same but for
the gauge, which the next call sets. -/
inductive Attempt.Agree {β : Type} : Attempt α β → Attempt α β → Prop
  | through (o : Outcome α β) : Agree (.ok o) (.ok o)
  | stopped {h h' : Halted α} (hcache : h'.cache.gauge = h.cache.gauge) (hsent : h'.sent = h.sent)
      (hwarnings : h'.warnings = h.warnings) : Agree (.error h) (.error h')

/-- An attempt agrees with itself. -/
theorem Attempt.Agree.refl {β : Type} (x : Attempt α β) : x.Agree x := by
  cases x with
  | ok o => exact .through o
  | error h => exact .stopped rfl rfl rfl

namespace Cache

/-- The entry of `a` goes at a request that is about other addresses. -/
def Evicts (c : Cache α) (q : Request α) (a : Address) : Prop :=
  q.call.isSweeping = false ∧ q.call.subject? c ≠ some a ∧ (c.store.find? a).isSome = true ∧
    (c.serve q).left.store.find? a = none

/-- A request neither observes `a`, nor binds it for good, nor removes it by name, nor evicts it. -/
def LeavesAlone (c : Cache α) (q : Request α) (a : Address) : Prop :=
  (q.call.evidence? c).map (·.1) ≠ some a ∧ q.call.overrides a = false ∧ ¬c.Evicts q a

/-- Requests that are all made before `t` leave `a` alone. -/
def Undisturbed (a : Address) (t : Nat) (c : Cache α) : List (Request α) → Prop
  | [] => True
  | q :: rest => q.now < t ∧ c.LeavesAlone q a ∧ Undisturbed a t (c.serve q).left rest

instance (c : Cache α) (q : Request α) (a : Address) : Decidable (c.Evicts q a) :=
  inferInstanceAs (Decidable (_ ∧ _ ∧ _ ∧ _))

instance (c : Cache α) (q : Request α) (a : Address) : Decidable (c.LeavesAlone q a) :=
  inferInstanceAs (Decidable (_ ∧ _ ∧ _))

instance Undisturbed.instDecidable (a : Address) (t : Nat) :
    (c : Cache α) → (qs : List (Request α)) → Decidable (c.Undisturbed a t qs)
  | _, [] => isTrue trivial
  | c, q :: rest =>
    have := instDecidable a t (c.serve q).left rest
    inferInstanceAs (Decidable (_ ∧ _ ∧ _))

/-- What a request makes of a failed address that stays so: no probe asks for it, and a packet for
it is refused. -/
structure Shuns (c : Cache α) (q : Request α) (a : Address) : Prop where
  failed : (c.serve q).left.state? a = some .failed
  unasked : ∀ x ∈ (c.serve q).sent, x.target? ≠ some a
  refused : ∀ packet, q.call = .resolve a packet →
    ∃ o, c.serve q = .ok o ∧ o.answer = .resolution (.dropped .unreachable) none

/-- A packet for `a` finds it as if it had been removed by name just before. It then starts a
resolution for which nothing is evicted, if the clock holds the deadlines. -/
structure Reopens (r : Responder) (c : Cache α) (now : Nat) (a : Address) (packet : α) : Prop where
  agrees : (c.resolve r now a packet).Agree ((c.invalidate a).cache.resolve r now a packet)
  silent : (c.invalidate a).sent = []
  opened : ∀ o, c.resolve r now a packet = .ok o →
    o.answer.2 = none ∧ ∀ reason, o.answer.1 ≠ .dropped reason
  goesThrough : c.config.Fits now → ∃ o, c.resolve r now a packet = .ok o

end Cache

section

variable {r : Responder} {c : Cache α} {now t : Nat} {a : Address} {call : Call α} {packet : α}
  {e : Entry α} {after : Option (Entry α)} {sent : List (Outbound α)}

/-- A failed entry has no link address. -/
theorem Entry.mac?_of_failed (h : e.state = .failed) : e.mac? = none :=
  mac?_eq_none_iff.mpr (congrArg State.isResolved h)

/-- The address of an entry that is not due is not vacant. -/
theorem Cache.Vacant.isDue (h : c.Vacant now a) (hfind : c.store.find? a = some e)
    (hdeadline : e.deadline = some t) : e.isDue now = true :=
  Entry.isDue_iff.mpr ⟨t, hdeadline, (h e hfind).2 t hdeadline⟩

/-- A tick sends nothing for an entry that is not due. -/
theorem Cache.Ticked.sent_of_not_due (h : c.Ticked r now a after sent)
    (hfind : c.store.find? a = some e) (hdue : e.isDue now = false) : sent = [] := by
  cases h with
  | untouched | visited | halted => rfl
  | settled hfind' hpasses =>
    cases hfind.symm.trans hfind'
    cases hpasses.of_not_due hdue
    rfl
  | answered hfind' hpasses hprobe =>
    cases hfind.symm.trans hfind'
    cases hpasses.of_not_due hdue
    cases hprobe

/-- What a call leaves of an entry: the entry itself, or nothing if the call is about another
address. -/
def Call.Leaves (c : Cache α) (call : Call α) (a : Address) (e : Entry α)
    (after : Option (Entry α)) : Prop :=
  after = some e ∨ after = none ∧ call.isSweeping = false ∧ call.subject? c ≠ some a

/-- What is spared is left. -/
theorem Call.Leaves.of_spared {b : Address} (hsweeping : call.isSweeping = false)
    (hsubject : call.subject? c ≠ some a) (hspared : c.store.Spared b a after)
    (hfind : c.store.find? a = some e) : call.Leaves c a e after := by
  rcases hspared with rfl | ⟨rfl, _⟩
  · exact .inl hfind
  · exact .inr ⟨rfl, hsweeping, hsubject⟩

/-- A call that goes through and tells or orders nothing of a failed address leaves its entry until
its deadline and sends nothing for it. -/
theorem Turn.of_failed {answer : Answer} (h : Turn r c now a call answer after sent)
    (hfind : c.store.find? a = some e) (hfailed : e.state = .failed)
    (hdeadline : e.deadline = some t) (hnow : now < t)
    (hunobserved : (call.evidence? c).map (·.1) ≠ some a) (hkept : call.overrides a = false) :
    sent = [] ∧ call.Leaves c a e after := by
  have hmac := Entry.mac?_of_failed hfailed
  have hdue : e.isDue now = false := by simp [Entry.isDue, hdeadline, hnow]
  cases h with
  | resolved hresolves =>
    cases hresolves with
    | refused hfind' =>
      cases hfind.symm.trans hfind'
      exact ⟨rfl, .inl rfl⟩
    | noRoom hnone => cases hfind.symm.trans hnone
    | opened hvacant => cases hdue.symm.trans (hvacant.isDue hfind hdeadline)
    | passed hfind' hmac' =>
      cases hfind.symm.trans hfind'
      cases hmac.symm.trans hmac'
    | parked hfind' hstatus =>
      cases hfind.symm.trans hfind'
      cases hfailed.symm.trans (congrArg Status.state hstatus)
  | learned hevidence => exact absurd (by rw [hevidence]; rfl) hunobserved
  | hinted hhints =>
    cases hhints with
    | counted hfind' hmac' =>
      cases hfind.symm.trans hfind'
      cases hmac.symm.trans hmac'
    | ignored => exact ⟨rfl, .inl hfind⟩
  | aged hages =>
    exact ⟨hages.ticked.sent_of_not_due hfind hdue, .inl (hages.ticked.of_not_due hfind hdue)⟩
  | pinned | removed => simp [Call.overrides] at hkept
  | cleared => cases hkept
  | aside hsweeping hsubject hspared =>
    exact ⟨rfl, .of_spared hsweeping hsubject hspared hfind⟩

/-- So does a call that stops. -/
theorem Stop.of_failed (h : Stop r c now a call after sent) (hfind : c.store.find? a = some e)
    (hfailed : e.state = .failed) (hdeadline : e.deadline = some t) (hnow : now < t)
    (hunobserved : (call.evidence? c).map (·.1) ≠ some a) :
    sent = [] ∧ call.Leaves c a e after := by
  have hmac := Entry.mac?_of_failed hfailed
  have hdue : e.isDue now = false := by simp [Entry.isDue, hdeadline, hnow]
  cases h with
  | unopened hvacant | answered hvacant => cases hdue.symm.trans (hvacant.isDue hfind hdeadline)
  | unused hfind' hstale =>
    cases hfind.symm.trans hfind'
    cases hfailed.symm.trans hstale
  | unlearned hevidence => exact absurd (by rw [hevidence]; rfl) hunobserved
  | unhinted hfind' hmac' =>
    cases hfind.symm.trans hfind'
    cases hmac.symm.trans hmac'
  | ticked hticked =>
    exact ⟨hticked.sent_of_not_due hfind hdue, .inl (hticked.of_not_due hfind hdue)⟩
  | aside hsweeping hsubject hspared =>
    exact ⟨rfl, .of_spared hsweeping hsubject hspared hfind⟩

namespace Cache

variable {q : Request α} {xs ys : List (Request α)}

/-- A request that leaves a failed address alone before its deadline leaves the entry as it is, and
what it sends asks for other addresses. -/
theorem LeavesAlone.serve (h : c.LeavesAlone q a) (hc : c.Coherent)
    (hfind : c.store.find? a = some e) (hfailed : e.state = .failed)
    (hdeadline : e.deadline = some t) (hnow : q.now < t) :
    (c.serve q).left.store.find? a = some e ∧ ∀ x ∈ (c.serve q).sent, x.target? ≠ some a := by
  obtain ⟨hunobserved, hkept, hunevicted⟩ := h
  have hstays (hleaves : q.call.Leaves c a e ((c.serve q).left.store.find? a)) :
      (c.serve q).left.store.find? a = some e :=
    hleaves.resolve_right fun ⟨hgone, hsweeping, hsubject⟩ =>
      hunevicted ⟨hsweeping, hsubject, by rw [hfind]; rfl, hgone⟩
  cases hserve : c.serve q with
  | ok o =>
    rw [hserve] at hstays
    obtain ⟨sent, hsent, hturn⟩ := (hc.turns hserve).turns
    obtain ⟨hquiet, hleaves⟩ :=
      (hturn a).of_failed hfind hfailed hdeadline hnow hunobserved hkept
    have hserves : c.Serves q sent := .of_turns hc hserve hsent hturn
    exact ⟨hstays hleaves, hserve ▸ hserves.unasked_of_share_eq_nil hquiet⟩
  | error halted =>
    rw [hserve] at hstays
    obtain ⟨sent, hsent, hstop⟩ := perform_stops hc hserve
    obtain ⟨hquiet, hleaves⟩ := (hstop a).of_failed hfind hfailed hdeadline hnow hunobserved
    have hserves : c.Serves q sent := .of_stops hc hserve hsent hstop
    exact ⟨hstays hleaves, hserve ▸ hserves.unasked_of_share_eq_nil hquiet⟩

/-- A packet for a failed address is refused before the deadline. -/
theorem resolve_of_failed (hfind : c.store.find? a = some e) (hfailed : e.state = .failed)
    (hdeadline : e.deadline = some t) (hnow : now < t) :
    c.resolve r now a packet =
      .ok { cache := c.count .resolvesDropped 1, answer := (.dropped .unreachable, none) } := by
  have hrefuses : c.refuses now a = true :=
    refuses_eq_true_iff.mpr ⟨e, t, hfind, hfailed, hdeadline, hnow⟩
  unfold resolve
  exact if_pos hrefuses

/-- A request that leaves a failed address alone before its deadline shuns it. -/
theorem LeavesAlone.shuns (h : c.LeavesAlone q a) (hc : c.Coherent)
    (hfind : c.store.find? a = some e) (hfailed : e.state = .failed)
    (hdeadline : e.deadline = some t) (hnow : q.now < t) : c.Shuns q a := by
  obtain ⟨hafter, hunasked⟩ := h.serve hc hfind hfailed hdeadline hnow
  refine ⟨by simp [state?, hafter, hfailed], hunasked, fun packet hcall => ?_⟩
  unfold Cache.serve
  rw [hcall, perform, resolve_of_failed hfind hfailed hdeadline hnow]
  exact ⟨_, rfl, rfl⟩

/-- Requests that leave a failed address alone before its deadline all shun it. -/
theorem Undisturbed.shuns (h : c.Undisturbed a t (xs ++ q :: ys)) (hc : c.Coherent)
    (hfind : c.store.find? a = some e) (hfailed : e.state = .failed)
    (hdeadline : e.deadline = some t) : (c.serveAll xs).Shuns q a := by
  induction xs generalizing c with
  | nil => exact h.2.1.shuns hc hfind hfailed hdeadline h.1
  | cons x rest ih =>
    obtain ⟨hnow, hleaves, hrest⟩ := h
    exact ih hrest (hc.serve x).1 (hleaves.serve hc hfind hfailed hdeadline hnow).1

/-- An address that fails in a tick is due when the grace that starts with the tick ends. -/
theorem grace_of_tick {o : Outcome α TickReport} (hc : c.Coherent) (htick : c.tick r now = .ok o)
    (hbefore : c.state? a ≠ some .failed) (hafter : o.cache.state? a = some .failed) :
    ∃ e, o.cache.store.find? a = some e ∧ e.state = .failed ∧
      e.deadline = some (now + c.config.failedGrace.nanos) := by
  obtain ⟨e, hfind, hfailed⟩ := Option.map_eq_some_iff.mp hafter
  refine ⟨e, hfind, hfailed, ?_⟩
  obtain ⟨_, _, sent, _, hages⟩ := tick_ages hc.wellFormed hc.dynamic htick
  have hage := hages a
  generalize share a sent = items at hage
  rw [hfind] at hage
  generalize hleft : some e = left at hage
  cases hage with
  | absent => cases hleft
  | @aged old aged hold hpasses =>
    have hnot : old.state ≠ .failed := fun hstate => hbefore (by simp [state?, hold, hstate])
    rcases Entry.Aged.settled_cases hleft.symm with rfl | ⟨_, _, _, rfl⟩
    · cases hpasses with
      | gaveUp => rfl
      | idle | expired => exact absurd hfailed hnot
      | reprobed | rechecked | checked | staled => cases hfailed
    · cases hfailed

/-- Setting the gauge forgets what it was. -/
theorem gauge_congr {d : Cache α} (hconfig : d.config = c.config) (hstore : d.store = c.store)
    (hget : ∀ k, k ≠ .entries → d.metrics.get k = c.metrics.get k) : d.gauge = c.gauge := by
  have hmetrics (v : UInt64) : d.metrics.set .entries v = c.metrics.set .entries v := by
    refine Metrics.ext_get fun k => ?_
    by_cases hk : k = .entries
    · simp [hk]
    · simp [hk, hget k hk]
  simp only [gauge, hconfig, hstore, hmetrics]

/-- Nothing waits in a failed entry, so that its removal is seen in the gauge alone. -/
theorem get_invalidate_of_failed {k : Counter} (hfind : c.store.find? a = some e)
    (hfailed : e.state = .failed) (hk : k ≠ .entries) :
    (c.invalidate a).cache.metrics.get k = c.metrics.get k := by
  have hwaiting : e.waiting = [] := Entry.waiting_of_state (hfailed.trans_ne (by decide))
  by_cases hdropped : k = .pendingDropped
  · simp [invalidate, hfind, hwaiting, gauge, count, hdropped]
  · simp [invalidate, hfind, hwaiting, gauge, count, hk, hdropped]

/-- Nor is it seen once the gauge is set. -/
theorem gauge_count_invalidate (hfind : c.store.find? a = some e) (hfailed : e.state = .failed)
    (s : Store α) (k : Counter) (n : Nat) :
    (count { c with store := s, metrics := (c.invalidate a).cache.metrics } k n).gauge =
      (count { c with store := s } k n).gauge := by
  refine gauge_congr rfl rfl fun l hl => ?_
  simp only [count, Metrics.get_add, get_invalidate_of_failed hfind hfailed hl]
  split
  · next hk => rw [get_invalidate_of_failed hfind hfailed (hk ▸ hl)]
  · rfl

/-- A removal changes nothing of the entry that a packet opens. -/
theorem opening_invalidate :
    (c.invalidate a).cache.opening now a packet = c.opening now a packet := by
  simp only [opening, config_invalidate, store_invalidate]
  rfl

/-- A packet for an address that failed, once the grace has ended, starts a resolution in the place
of the failed entry, and so it does if that entry has been removed. -/
theorem reopens_of_deadline (hc : c.Coherent) (hfind : c.store.find? a = some e)
    (hfailed : e.state = .failed) (hdeadline : e.deadline = some t) (hnow : t ≤ now) :
    c.Reopens r now a packet := by
  have hrefuses : ¬c.refuses now a = true := by
    simp [refuses, hfind, hdeadline, Nat.not_lt.mpr hnow]
  have hremoved : (c.invalidate a).cache.store.find? a = none := by
    rw [store_invalidate, Store.find?_erase, if_pos rfl]
  have hrefuses' : ¬(c.invalidate a).cache.refuses now a = true := by
    simp [refuses]
  -- the failed entry leaves room for the new one
  have hroom : (c.store.erase a).size < (c.store.erase a).capacity :=
    Nat.lt_of_lt_of_le (Store.size_erase_lt hfind) hc.wellFormed.size_le
  obtain ⟨x, hclaim, hevicted⟩ : ∃ x, (c.store.erase a).claim a now = .ok x ∧ x.evicted = none :=
    ⟨_, Store.claim_of_room (by rw [Store.find?_erase, if_pos rfl]) hroom, rfl⟩
  have hresolve : c.resolve r now a packet = _ :=
    resolve_of_claim hrefuses (vacant_of_failed hrefuses hfind hfailed)
      (by rw [withoutFailed_of_failed hfind hfailed, hclaim])
  have hresolve' : (c.invalidate a).cache.resolve r now a packet = _ :=
    resolve_of_claim hrefuses' (by simp [Vacant])
      (by rw [withoutFailed_of_none hremoved, store_invalidate, hclaim])
  refine ⟨?_, sent_invalidate, fun o ho => ?_, fun hfits => exists_resolve hfits r a packet⟩
  · rw [hresolve, hresolve', opening_invalidate, hevicted, config_invalidate, store_invalidate]
    split
    · simp only [settle]
      rw [gauge_count_invalidate hfind hfailed]
      exact .refl _
    · exact .stopped
        (gauge_congr rfl rfl fun k hk => get_invalidate_of_failed hfind hfailed hk) rfl rfl
  · rw [hresolve] at ho
    split at ho
    · obtain ⟨_, _, rfl⟩ := Attempt.mapAnswer_eq_ok ho
      refine ⟨hevicted, fun reason hdropped => ?_⟩
      change (if c.store.queueCapacity = 0 then Resolution.rejectedFull else .queued) = _ at hdropped
      split at hdropped <;> cases hdropped
    · cases ho

/-- A failed address is refused for the configured grace and no longer. If a tick gives it up, then
it stays failed through all requests that are made before the grace has passed and leave it alone:
no probe asks for it, and every packet for it is dropped as unreachable. From the deadline of a
failed entry on, a packet for its address comes to what it would come to if the entry had been
removed by name just before; nothing is evicted for it, and it is not dropped. -/
theorem Reached.refuses_for_grace {cfg : Config} {start : Nat} {calls : List (Call α)}
    (h : c.Reached cfg start calls) :
    (∀ r now o, c.tick r now = .ok o → c.state? a ≠ some .failed →
        o.cache.state? a = some .failed →
      ∀ qs, o.cache.Undisturbed a (now + cfg.failedGrace.nanos) qs →
        ∀ xs q ys, qs = xs ++ q :: ys → (o.cache.serveAll xs).Shuns q a) ∧
      ∀ e, c.store.find? a = some e → e.state = .failed →
        ∃ t, e.deadline = some t ∧ ∀ r now packet, t ≤ now → c.Reopens r now a packet := by
  obtain ⟨hcoherent, rfl, _⟩ := h.coherent
  refine ⟨?_, ?_⟩
  · rintro r now o htick hbefore hafter qs hqs xs q ys rfl
    obtain ⟨e, hfind, hfailed, hdeadline⟩ := grace_of_tick hcoherent htick hbefore hafter
    have hticked : (c.tick r now).left.Coherent := (tick_follows hcoherent r now).coherent hcoherent
    rw [htick] at hticked
    exact hqs.shuns hticked hfind hfailed hdeadline
  · intro e hfind hfailed
    obtain ⟨t, hdeadline⟩ := (hcoherent.of_find? hfind).failed hfailed
    exact ⟨t, hdeadline, fun r now packet hnow =>
      reopens_of_deadline hcoherent hfind hfailed hdeadline hnow⟩

/-- What happens while an address is refused: another one is resolved, which fills a cache with room
for two. -/
def lull : List (Request Nat) :=
  [⟨.silent, 4, .resolve ⟨10, 0, 0, 2⟩ 8⟩, ⟨.silent, 5, .confirm ⟨10, 0, 0, 1⟩⟩,
    ⟨.silent, 6, .tick⟩]

/-- An address that was given up at 3 is refused at 7. At 8 it takes its own place in a cache that
is full otherwise. -/
theorem Reached.refuses_for_grace_of_lull :
    let a : Address := ⟨10, 0, 0, 1⟩
    let cfg : Config := { Config.brief with capacity := 2 }
    let quest : List (Request Nat) := [⟨.silent, 0, .resolve a 7⟩, ⟨.silent, 1, .tick⟩]
    let c : Cache Nat := (Cache.create cfg 0 : Outcome Nat Unit).cache.serveAll quest
    let d : Cache Nat := c.serveAll (⟨.silent, 3, .tick⟩ :: lull)
    (∃ o, c.tick .silent 3 = .ok o ∧ (o.cache.serveAll lull).Shuns ⟨.silent, 7, .resolve a 9⟩ a) ∧
      d.Reopens .silent 8 a 9 := by
  intro a cfg quest c d
  have hreached : c.Reached cfg 0 (quest.map (·.call)) := reached_iff.mpr ⟨quest, rfl, rfl⟩
  have hlast : d.Reached cfg 0 ((quest ++ ⟨.silent, 3, .tick⟩ :: lull).map (·.call)) :=
    reached_iff.mpr ⟨_, rfl, (serveAll_append _ _ _).symm⟩
  have hbefore : c.state? a ≠ some .failed := by decide +kernel
  obtain ⟨o, ho, hafter, hqs⟩ : ∃ o ∈ (c.tick .silent 3).toOption, o.cache.state? a = some .failed ∧
      o.cache.Undisturbed a (3 + cfg.failedGrace.nanos)
        (lull ++ [⟨.silent, 7, .resolve a 9⟩]) := by
    decide +kernel
  obtain ⟨e, hfind, hfailed, hdeadline⟩ :
      ∃ e ∈ d.store.find? a, e.state = .failed ∧ e.deadline = some 8 := by
    decide +kernel
  have htick := Attempt.eq_ok_of_mem ho
  refine ⟨⟨o, htick, ?_⟩, ?_⟩
  · have hshuns := (Reached.refuses_for_grace hreached).1 .silent 3 o htick hbefore hafter _ hqs
    exact hshuns lull _ [] rfl
  · obtain ⟨t, hdeadline', hreopens⟩ := (Reached.refuses_for_grace hlast).2 e hfind hfailed
    cases hdeadline.symm.trans hdeadline'
    exact hreopens .silent 8 9 (Nat.le_refl 8)

end Cache

end

end Neighbor
