import Neighbor.Proofs.Descent
import Neighbor.Proofs.Ledger

/-!
# Operations that refuse

An operation that refuses what it is asked for leaves the cache as it was: it neither removes an
entry nor makes one nor uses up a generation, it sends nothing, and it counts at most the refusal.
`Cache.Refusals` says so operation by operation. It also says when evidence is disregarded and when
a packet finds its queue full.
-/

namespace Neighbor

variable {α : Type}

namespace Cache

variable {c d : Cache α} {r : Responder} {now : Nat} {a : Address} {mac : Mac}

instance (c : Cache α) : Decidable c.Gauged :=
  inferInstanceAs (Decidable (c.metrics.entries = UInt64.ofNat c.size))

/-- Whether `d` is what `c` was. A gauge that a call left out of step when it stopped may have been
set. -/
def Keeps (c d : Cache α) : Prop := d = c ∨ ¬c.Gauged ∧ d = c.gauge

/-- Setting a gauge that is in step changes nothing. -/
theorem Gauged.gauge_eq (h : c.Gauged) : c.gauge = c := by
  have hsame : c.metrics.set .entries (UInt64.ofNat c.store.size) = c.metrics := by
    rw [← show c.metrics.entries = UInt64.ofNat c.store.size from h]
    rfl
  rw [gauge, hsame]

/-- Setting the gauge keeps everything else. -/
theorem keeps_gauge (c : Cache α) : c.Keeps c.gauge := by
  by_cases h : c.Gauged
  · exact .inl h.gauge_eq
  · exact .inr ⟨h, rfl⟩

/-- While the gauge is in step, what is kept is the same. -/
theorem Keeps.eq (h : c.Keeps d) (hgauged : c.Gauged) : d = c := by
  rcases h with hsame | ⟨hgauge, _⟩
  · exact hsame
  · exact absurd hgauged hgauge

/-- Why evidence stamped `now` that `a` is at `mac` is disregarded. -/
inductive Disregards (c : Cache α) (now : Nat) (a : Address) (mac : Mac) : Prop
  | unusable (husable : isUsableBinding a mac = false)
  | noRoom (hfind : c.store.find? a = none) (hfull : c.store.capacity ≤ c.store.size)
      (hkept : ∀ e ∈ c.store.entries, e.isEvictable = false)
  | permanent {e : Entry α} (hfind : c.store.find? a = some e) (hkind : e.kind = .permanent)
  | outdated {e : Entry α} {bound : Mac} (hfind : c.store.find? a = some e)
      (hmac : e.mac? = some bound) (hlater : now < e.confirmedAt)

/-- Evidence counts unless there is a reason to disregard it. -/
theorem learns_eq_false_iff : c.learns now a mac = false ↔ c.Disregards now a mac := by
  constructor
  · intro hlearns
    by_cases husable : isUsableBinding a mac = true
    · by_cases hadmits : c.store.admits a = true
      · have haccepts : ¬(c.store.entryFor a now).accepts now = true := by
          simpa [learns, husable, hadmits] using hlearns
        cases hfind : c.store.find? a with
        | none =>
          -- a new entry accepts anything
          rw [Store.entryFor_of_none hfind] at haccepts
          exact absurd rfl haccepts
        | some e =>
          rw [Store.entryFor_of_some hfind, Entry.accepts_iff, not_and, not_or] at haccepts
          cases hkind : e.kind with
          | permanent => exact .permanent hfind hkind
          | dynamic =>
            obtain ⟨hbound, hlater⟩ := haccepts hkind
            obtain ⟨bound, hmac⟩ := Option.ne_none_iff_exists'.mp hbound
            exact .outdated hfind hmac (Nat.lt_of_not_le hlater)
      · obtain ⟨hfind, hfull, hkept⟩ := Store.stuck_of_admits (by simpa using hadmits)
        exact .noRoom hfind hfull hkept
    · exact .unusable (by simpa using husable)
  · intro h
    rw [← Bool.not_eq_true]
    intro hlearns
    unfold learns at hlearns
    rw [Bool.and_eq_true, Bool.and_eq_true] at hlearns
    obtain ⟨⟨husable, hadmits⟩, haccepts⟩ := hlearns
    cases h with
    | unusable hnot => cases hnot.symm.trans husable
    | noRoom hfind hfull hkept =>
      cases hvictim : c.store.victim? with
      | none => simp [Store.admits, hfind, hvictim, Nat.not_lt.mpr hfull] at hadmits
      | some v =>
        obtain ⟨hmem, hevictable⟩ := Store.victim?_mem hvictim
        cases (hkept v hmem).symm.trans hevictable
    | permanent hfind hkind =>
      rw [Store.entryFor_of_some hfind] at haccepts
      cases hkind.symm.trans (Entry.kind_of_accepts haccepts)
    | outdated hfind hmac hlater =>
      rw [Store.entryFor_of_some hfind] at haccepts
      rcases (Entry.accepts_iff.mp haccepts).2 with hnone | hconfirmed
      · cases hnone.symm.trans hmac
      · omega

/-- What the operations on a cache leave when they refuse. -/
structure Refusals (c : Cache α) : Prop where
  /-- A dropped packet is counted, and that is all. -/
  dropped : ∀ r now a packet o reason, c.resolve r now a packet = .ok o →
    o.answer.1 = .dropped reason →
      (c.count .resolvesDropped 1).Keeps o.cache ∧ o.answer.2 = none ∧ o.sent = []
  /-- A permanent binding without room is not noticed. -/
  unpinned : ∀ now a mac reason, (c.pin now a mac).answer = .error reason →
    (c.pin now a mac).cache = c ∧ (c.pin now a mac).sent = []
  /-- Nor is a hint that does not count. -/
  unconfirmed : ∀ now a o, c.confirm now a = .ok o → o.answer = false → o.cache = c ∧ o.sent = []
  /-- Nor is evidence that is disregarded. -/
  disregarded : ∀ now a mac, c.Disregards now a mac →
    ∃ d, c.observe now a mac = .ok { cache := d, answer := none } ∧ c.Keeps d
  /-- All other evidence that goes through is recorded. -/
  recorded : ∀ now a mac o, ¬c.Disregards now a mac → c.observe now a mac = .ok o →
    o.cache.lookup a = some (mac, .reachable)
  /-- A packet for which there is no room is noted in its entry and counted. -/
  rejected : ∀ r now a packet o e n queue, c.store.find? a = some e →
    e.status = .incomplete n queue → c.resolve r now a packet = .ok o →
    o.answer.1 = .rejectedFull →
      (count
        { c with
          store := c.store.put
            { e with
              usedAt := now
              status := .incomplete n { queue with refused := queue.refused + 1 } } }
        .packetsRejected 1).Keeps o.cache ∧ o.answer.2 = none ∧ o.sent = []
  /-- If queues have room at all, there is none only behind a full queue. -/
  full : 1 ≤ c.config.queueCapacity → ∀ r now a packet o, c.resolve r now a packet = .ok o →
    o.answer.1 = .rejectedFull → ∃ e n queue, c.store.find? a = some e ∧
      e.status = .incomplete n queue ∧ queue.packets.length = c.config.queueCapacity

/-- A packet that finds no room. -/
theorem resolve_rejectedFull {packet : α} {o : Outcome α (Resolution × Option Evicted)}
    (hs : c.store.WellFormed) (h : c.resolve r now a packet = .ok o)
    (hanswer : o.answer.1 = .rejectedFull) :
    c.store.queueCapacity = 0 ∧ c.Vacant now a ∨
      ∃ e n queue, c.store.find? a = some e ∧ e.status = .incomplete n queue ∧
        queue.isFull = true ∧ o.answer.2 = none ∧ o.sent = [] ∧
        o.cache = gauge (count
          { c with
            store := c.store.put
              { e with
                usedAt := now
                status := .incomplete n { queue with refused := queue.refused + 1 } } }
          .packetsRejected 1) := by
  have hplaced := resolve_placed hs r now a packet
  rw [h] at hplaced
  generalize hattempt : (.ok o : Attempt α (Resolution × Option Evicted)) = attempt at hplaced
  cases hplaced with
  | refused | noRoom | passed =>
    cases hattempt
    cases hanswer
  | unopened | unused => cases hattempt
  | opened hvacant =>
    obtain ⟨o', _, rfl⟩ := Attempt.mapAnswer_eq_ok hattempt.symm
    refine .inl ⟨?_, hvacant⟩
    change (if c.store.queueCapacity = 0 then Resolution.rejectedFull else .queued) = _ at hanswer
    split at hanswer
    · assumption
    · cases hanswer
  | @parked e n queue hfind hstatus =>
    cases hattempt
    change (if queue.isFull then Resolution.rejectedFull else .queued) = _ at hanswer
    split at hanswer
    · next hfull =>
      refine .inr ⟨e, n, queue, hfind, hstatus, hfull, rfl, rfl, ?_⟩
      rw [if_pos hfull, PendingQueue.offer_of_isFull hfull]
    · cases hanswer

/-- A cache within its bounds refuses without a trace. -/
theorem Bounded.refusals (hc : c.Coherent) (h : c.Bounded) : c.Refusals where
  dropped r now a packet o reason hresolve hanswer := by
    have hplaced := resolve_placed hc.wellFormed r now a packet
    rw [hresolve] at hplaced
    generalize hattempt : (.ok o : Attempt α (Resolution × Option Evicted)) = attempt at hplaced
    cases hplaced with
    | refused =>
      cases hattempt
      exact ⟨.inl rfl, rfl, rfl⟩
    | noRoom =>
      cases hattempt
      exact ⟨keeps_gauge _, rfl, rfl⟩
    | unopened | unused => cases hattempt
    | passed =>
      cases hattempt
      cases hanswer
    | opened =>
      obtain ⟨o', _, rfl⟩ := Attempt.mapAnswer_eq_ok hattempt.symm
      change (if c.store.queueCapacity = 0 then Resolution.rejectedFull else .queued) = _ at hanswer
      split at hanswer <;> cases hanswer
    | @parked e n queue =>
      cases hattempt
      change (if queue.isFull then Resolution.rejectedFull else .queued) = _ at hanswer
      split at hanswer <;> cases hanswer
  unpinned now a mac reason hanswer := by
    have hpinned := c.pin_pinned now a mac
    generalize c.pin now a mac = o at hpinned hanswer ⊢
    cases hpinned with
    | refused => exact ⟨rfl, rfl⟩
    | pinned => cases hanswer
  unconfirmed now a o hconfirm hanswer := by
    have hhinted := c.confirm_hinted now a
    rw [hconfirm] at hhinted
    cases hhinted with
    | ignored => exact ⟨rfl, rfl⟩
    | counted => cases hanswer
  disregarded now a mac hdisregards := by
    have hignored := learns_eq_false_iff.mpr hdisregards
    have hobserved := c.observe_observed now a mac
    generalize c.observe now a mac = attempt at hobserved ⊢
    cases hobserved with
    | @ignored d _ hleft =>
      refine ⟨d, rfl, ?_⟩
      rcases hleft with rfl | rfl
      · exact .inl rfl
      · exact keeps_gauge c
    | learned hlearns | halted hlearns => cases hignored.symm.trans hlearns
  recorded now a mac o hregards hobserve := by
    have hlearned := (observe_learns hc.wellFormed hobserve).1
    unfold lookup
    generalize o.cache.store.find? a = after at hlearned ⊢
    generalize o.sent = sent at hlearned
    cases hlearned with
    | learned => rfl
    | ignored hignored => exact absurd (learns_eq_false_iff.mp hignored) hregards
  rejected r now a packet o e n queue hfind hstatus hresolve hanswer := by
    rcases resolve_rejectedFull hc.wellFormed hresolve hanswer with
      ⟨_, hvacant⟩ | ⟨e', n', queue', hfind', hstatus', _, hevicted, hsent, hcache⟩
    · have hfailed := (hvacant e hfind).1
      rw [Entry.state, hstatus] at hfailed
      cases hfailed
    · cases hfind.symm.trans hfind'
      cases hstatus.symm.trans hstatus'
      rw [hcache]
      exact ⟨keeps_gauge _, hevicted, hsent⟩
  full hcapacity r now a packet o hresolve hanswer := by
    rcases resolve_rejectedFull hc.wellFormed hresolve hanswer with
      ⟨hnone, _⟩ | ⟨e, n, queue, hfind, hstatus, hfull, _⟩
    · rw [h.queueCapacity_eq] at hnone
      omega
    · obtain ⟨hlarge, hlength⟩ := h.queue_le a e queue hfind (by rw [Entry.queue?, hstatus])
      have hreached := PendingQueue.isFull_iff.mp hfull
      exact ⟨e, n, queue, hfind, hstatus, by omega⟩

end Cache

/-- While no call stops, the gauge is in step. -/
theorem History.gauged {cfg : Config} {start : Nat} {log : List (Step α)} {last : Cache α}
    (h : History (Cache.create cfg start : Outcome α Unit).cache log last) : last.Gauged :=
  (h.accounts (Cache.create_coherent cfg start).1).2.gauged (Cache.create_blank cfg start).gauged

/-- Every cache that calls lead to refuses without a trace, and as long as no call has stopped
nothing at all changes but the counter of the refusal. -/
theorem Cache.Reached.refuses_without_trace {c : Cache α} {cfg : Config} {start : Nat}
    {calls : List (Call α)} (h : c.Reached cfg start calls) :
    c.Refusals ∧
      ∀ log, History (Cache.create cfg start : Outcome α Unit).cache log c → c.Gauged :=
  ⟨h.bounded.refusals h.coherent.1, fun _ hlog => hlog.gauged⟩

/-- With one address being resolved and its queue full, a packet for another address is dropped and
leaves a trace in one counter, and one for the same address is rejected. -/
theorem Cache.Reached.refuses_without_trace_of_crowd :
    ∃ x ∈ briefTrace [(1, .resolve ⟨10, 0, 0, 1⟩ 7)],
      (∃ o ∈ (x.2.resolve .silent 2 ⟨10, 0, 0, 2⟩ 8).toOption,
        o.answer.1 = .dropped .noSpace ∧ o.cache = x.2.count .resolvesDropped 1) ∧
      ∃ o ∈ (x.2.resolve .silent 2 ⟨10, 0, 0, 1⟩ 9).toOption, o.answer.1 = .rejectedFull ∧
        ∃ e n queue, x.2.store.find? ⟨10, 0, 0, 1⟩ = some e ∧ e.status = .incomplete n queue ∧
          queue.packets.length = 1 := by
  have hcrowd : ∃ x ∈ briefTrace [(1, .resolve ⟨10, 0, 0, 1⟩ 7)], x.2.config = .brief ∧
      (∃ o ∈ (x.2.resolve .silent 2 ⟨10, 0, 0, 2⟩ 8).toOption, o.answer.1 = .dropped .noSpace) ∧
      ∃ o ∈ (x.2.resolve .silent 2 ⟨10, 0, 0, 1⟩ 9).toOption, o.answer.1 = .rejectedFull := by
    decide +kernel
  obtain ⟨x, hx, hconfig, ⟨o, ho, hdropped⟩, o', ho', hrejected⟩ := hcrowd
  have hlog := (history_of_trace hx).1
  obtain ⟨hrefusals, hgauged⟩ := Reached.refuses_without_trace hlog.reached
  have hkeeps := (hrefusals.dropped _ _ _ _ o _ (Attempt.eq_ok_of_mem ho) hdropped).1
  have hfull :=
    hrefusals.full (by rw [hconfig]; decide) _ _ _ _ o' (Attempt.eq_ok_of_mem ho') hrejected
  rw [hconfig] at hfull
  exact ⟨x, hx, ⟨o, ho, hdropped, hkeeps.eq ((hgauged _ hlog).count nofun)⟩, o', ho', hrejected,
    hfull⟩

end Neighbor
