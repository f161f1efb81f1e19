import Neighbor.Proofs.History
import Neighbor.Proofs.Turn

/-!
# The invariant of the cache

Between operations every entry is sound: a permanent one is reachable and never due, a dynamic one
has a deadline, one that is being resolved or checked has sent at least one probe and no more than
the configured number, and a queue is within its bound and, if it has room for a packet at all, not
empty. `Cache.Sound` adds that the store is well formed and as large as configured. Each turn keeps
entries sound, so every history does. `Entry.Coherent` is the part of it that a call that stops at a
deadline keeps too.
-/

namespace Neighbor

variable {α : Type}

/-- What is true of an entry even after a call that stopped. -/
structure Entry.Coherent (e : Entry α) : Prop where
  permanent : e.kind = .permanent → e.state = .reachable ∧ e.deadline = none
  failed : e.state = .failed → ∃ t, e.deadline = some t

/-- What is true of an entry between operations. -/
structure Entry.Sound (cfg : Config) (e : Entry α) : Prop where
  permanent : e.kind = .permanent → e.state = .reachable ∧ e.deadline = none
  dynamic : e.kind = .dynamic → ∃ t, e.deadline = some t
  probes : e.state = .incomplete ∨ e.state = .probe → 1 ≤ e.probes ∧ e.probes ≤ cfg.maxProbes
  queue : ∀ n queue, e.status = .incomplete n queue →
    queue.capacity = cfg.queueCapacity ∧ queue.packets.length ≤ cfg.queueCapacity ∧
      (1 ≤ cfg.queueCapacity → queue.packets ≠ [])

/-- Every configuration allows one probe. -/
theorem Config.one_le_maxProbes (cfg : Config) : 1 ≤ cfg.maxProbes := Nat.le_max_right _ _

/-- An offer keeps a queue within its bound, and leaves it empty only if it can hold nothing. -/
theorem PendingQueue.offer_bounds {q : PendingQueue α} {packet : α}
    (h : q.packets.length ≤ q.capacity) :
    (q.offer packet).1.capacity = q.capacity ∧
      (q.offer packet).1.packets.length ≤ q.capacity ∧
      (1 ≤ q.capacity → (q.offer packet).1.packets ≠ []) := by
  refine ⟨?_, ?_, fun hpos hnil => ?_⟩
  · unfold offer
    split <;> rfl
  · rw [packets_offer]
    split
    · exact h
    · next hroom =>
      rw [List.length_append, List.length_singleton]
      omega
  · rw [packets_offer] at hnil
    split at hnil
    · next hfull =>
      rw [hnil, List.length_nil] at hfull
      omega
    · simp at hnil

namespace Entry.Coherent

variable {now : Nat} {e : Entry α}

/-- An entry that is not reachable is dynamic. -/
theorem dynamic_of_state (h : e.Coherent) (hstate : e.state ≠ .reachable) : e.kind = .dynamic := by
  cases hkind : e.kind with
  | dynamic => rfl
  | permanent => exact absurd (h.permanent hkind).1 hstate

/-- Only a learned entry can be due. -/
theorem dynamic_of_due (h : e.Coherent) (hdue : e.isDue now = true) : e.kind = .dynamic := by
  cases hkind : e.kind with
  | dynamic => rfl
  | permanent => simp [isDue, (h.permanent hkind).2] at hdue

/-- An entry without a link address is dynamic. -/
theorem dynamic_of_mac? (h : e.Coherent) (hmac : e.mac? = none) : e.kind = .dynamic := by
  refine h.dynamic_of_state fun hstate => ?_
  have hunresolved := mac?_eq_none_iff.mp hmac
  rw [hstate] at hunresolved
  cases hunresolved

end Entry.Coherent

namespace Entry.Sound

variable {cfg : Config} {r : Responder} {now : Nat} {e : Entry α} {mac : Mac}

/-- A sound entry is coherent. -/
theorem coherent (h : e.Sound cfg) : e.Coherent := by
  refine ⟨h.permanent, fun hfailed => ?_⟩
  cases hkind : e.kind with
  | dynamic => exact h.dynamic hkind
  | permanent => cases (h.permanent hkind).1.symm.trans hfailed

/-- No entry counts more probes than configured. -/
theorem probes_le (h : e.Sound cfg) : e.probes ≤ cfg.maxProbes := by
  cases hstatus : e.status with
  | incomplete => exact (h.probes (.inl (by rw [state, hstatus]; rfl))).2
  | probe => exact (h.probes (.inr (by rw [state, hstatus]; rfl))).2
  | reachable | stale | delay | failed =>
    rw [Entry.probes, hstatus]
    exact Nat.zero_le _

/-- A dynamic entry with a deadline that is neither being resolved nor checked is sound. -/
theorem of_settled {t : Nat} (hkind : e.kind = .dynamic) (hdeadline : e.deadline = some t)
    (hincomplete : e.state ≠ .incomplete) (hprobe : e.state ≠ .probe) : e.Sound cfg := by
  refine ⟨fun hpermanent => ?_, fun _ => ⟨t, hdeadline⟩, fun hstate => ?_,
    fun n queue hstatus => ?_⟩
  · rw [hkind] at hpermanent
    cases hpermanent
  · rcases hstate with hstate | hstate
    · exact absurd hstate hincomplete
    · exact absurd hstate hprobe
  · exact absurd (by rw [state, hstatus]; rfl) hincomplete

/-- A learned entry that has just been bound is sound. -/
theorem bound (hkind : e.kind = .dynamic) : (e.bound cfg mac now).Sound cfg :=
  of_settled hkind rfl nofun nofun

/-- An answer to its probe leaves a learned entry sound. -/
theorem answered (h : e.Sound cfg) (hkind : e.kind = .dynamic) :
    (e.answered cfg r now).1.Sound cfg := by
  unfold Entry.answered
  split
  · exact bound hkind
  · exact h

/-- A permanent entry is sound. -/
theorem pin : (e.pin mac now).1.Sound cfg where
  permanent _ := ⟨rfl, rfl⟩
  dynamic := nofun
  probes := nofun
  queue := nofun

/-- A sound entry is so after it is used. -/
theorem used (h : e.Sound cfg) : (e.used cfg now).Sound cfg := by
  unfold Entry.used
  split
  · next old hstatus =>
    refine of_settled ?_ rfl nofun nofun
    cases hkind : e.kind with
    | dynamic => rfl
    | permanent =>
      obtain ⟨hstate, _⟩ := h.permanent hkind
      simp [state, hstatus, Status.state] at hstate
  · exact ⟨h.permanent, h.dynamic, h.probes, h.queue⟩

/-- Offering a packet to the queue of an unresolved entry keeps it sound. -/
theorem parked {n : Nat} {queue : PendingQueue α} {packet : α} (h : e.Sound cfg)
    (hstatus : e.status = .incomplete n queue) :
    ({ e with
      usedAt := now
      status := .incomplete n (queue.offer packet).1 } : Entry α).Sound cfg := by
  obtain ⟨hcapacity, hlength, _⟩ := h.queue n queue hstatus
  have hprobes := h.probes
  rw [state, Entry.probes, hstatus] at hprobes
  refine ⟨fun hkind => ?_, h.dynamic, hprobes, fun m queue' hstatus' => ?_⟩
  · obtain ⟨hstate, _⟩ := h.permanent hkind
    simp [state, hstatus, Status.state] at hstate
  · cases hstatus'
    rw [← hcapacity] at hlength ⊢
    exact PendingQueue.offer_bounds hlength

/-- The entry that begins a resolution is sound. -/
theorem opening {c : Cache α} {a : Address} {packet : α}
    (hcapacity : c.store.queueCapacity = c.config.queueCapacity) :
    (c.opening now a packet).Sound c.config := by
  refine ⟨nofun, fun _ => ⟨_, rfl⟩, fun _ => ⟨Nat.le_refl 1, c.config.one_le_maxProbes⟩, ?_⟩
  intro n queue hstatus
  cases hstatus
  rw [← hcapacity]
  exact PendingQueue.offer_bounds (q := .empty c.store.queueCapacity) (Nat.zero_le _)

/-- Time leaves a sound entry sound. -/
theorem passes {aged : Aged α} (h : e.Sound cfg) (hpasses : e.Passes cfg now aged) :
    aged.entry.Sound cfg := by
  cases hpasses with
  | idle | expired => exact h
  | staled hdue | gaveUp hdue => exact of_settled (h.coherent.dynamic_of_due hdue) rfl nofun nofun
  | @reprobed n queue hdue hstatus hleft =>
    have hkind := h.coherent.dynamic_of_due hdue
    refine ⟨fun hpermanent => ?_, fun _ => ⟨_, rfl⟩, fun _ => ⟨Nat.succ_pos n, hleft⟩, ?_⟩
    · cases hkind.symm.trans hpermanent
    · intro m queue' hstatus'
      cases hstatus'
      exact h.queue n queue hstatus
  | @rechecked mac n hdue hstatus hleft =>
    have hkind := h.coherent.dynamic_of_due hdue
    refine ⟨fun hpermanent => ?_, fun _ => ⟨_, rfl⟩, fun _ => ⟨Nat.succ_pos n, hleft⟩, nofun⟩
    cases hkind.symm.trans hpermanent
  | checked hdue =>
    have hkind := h.coherent.dynamic_of_due hdue
    refine ⟨fun hpermanent => ?_, fun _ => ⟨_, rfl⟩,
      fun _ => ⟨Nat.le_refl 1, cfg.one_le_maxProbes⟩, nofun⟩
    cases hkind.symm.trans hpermanent

/-- An expired entry is gone, and any other that time acted on stays sound. -/
theorem settled {aged : Aged α} {e' : Entry α} (h : e.Sound cfg) (hpasses : e.Passes cfg now aged)
    (hafter : (aged.settled cfg r now).1 = some e') : e'.Sound cfg := by
  have haged := h.passes hpasses
  unfold Aged.settled at hafter
  split at hafter
  · cases hafter
  · next hprobe =>
    cases hafter
    obtain ⟨_, hmac, _⟩ := hpasses.unresolved hprobe
    apply haged.answered
    rw [hpasses.kind_eq]
    exact h.coherent.dynamic_of_mac? hmac
  · cases hafter
    exact haged

end Entry.Sound

/-- A new entry is dynamic, so evidence makes any claimed entry that accepts it sound. -/
theorem Entry.accepts_iff {e : Entry α} {now : Nat} :
    e.accepts now = true ↔ e.kind = .dynamic ∧ (e.mac? = none ∨ e.confirmedAt ≤ now) := by
  simp [accepts]

/-- Only a learned entry accepts evidence. -/
theorem Entry.kind_of_accepts {e : Entry α} {now : Nat} (h : e.accepts now = true) :
    e.kind = .dynamic := (accepts_iff.mp h).1

/-- The invariant of the cache. -/
structure Cache.Sound (c : Cache α) : Prop where
  wellFormed : c.store.WellFormed
  capacity_eq : c.store.capacity = c.config.capacity
  queueCapacity_eq : c.store.queueCapacity = c.config.queueCapacity
  entries : ∀ e ∈ c.store.entries, e.Sound c.config

section

variable {r : Responder} {c : Cache α} {now : Nat} {a : Address} {call : Call α}

/-- Every entry that is found in a sound cache is sound. -/
theorem Cache.Sound.of_find? (h : c.Sound) {e : Entry α} (hfind : c.store.find? a = some e) :
    e.Sound c.config := h.entries e (Store.mem_of_find? hfind)

/-- A turn leaves a sound entry, if it leaves one. -/
theorem Turn.sound {answer : Answer} {after : Option (Entry α)} {sent : List (Outbound α)}
    {e : Entry α} (h : Turn r c now a call answer after sent) (hc : c.Sound)
    (hafter : after = some e) : e.Sound c.config := by
  cases h with
  | resolved hresolves =>
    cases hresolves with
    | noRoom => cases hafter
    | refused hfind =>
      cases hafter
      exact hc.of_find? hfind
    | opened =>
      cases hafter
      exact (Entry.Sound.opening hc.queueCapacity_eq).answered rfl
    | passed hfind =>
      cases hafter
      exact (hc.of_find? hfind).used
    | parked hfind hstatus =>
      cases hafter
      exact (hc.of_find? hfind).parked hstatus
  | learned hevidence hlearns =>
    cases hlearns with
    | ignored => exact hc.of_find? hafter
    | learned hlearns =>
      cases hafter
      unfold Cache.learns at hlearns
      rw [Bool.and_eq_true] at hlearns
      exact .bound (Entry.kind_of_accepts hlearns.2)
  | hinted hhints =>
    cases hhints with
    | ignored => exact hc.of_find? hafter
    | counted hfind hmac haccepts =>
      cases hafter
      exact .bound (Entry.kind_of_accepts haccepts)
  | pinned hpins =>
    cases hpins with
    | refused => exact hc.of_find? hafter
    | pinned =>
      cases hafter
      exact .pin
  | aged hages =>
    cases hages with
    | absent => cases hafter
    | aged hfind hpasses => exact (hc.of_find? hfind).settled hpasses hafter
  | removed | cleared => cases hafter
  | aside hsweeping hsubject hspared =>
    rcases hspared with rfl | ⟨rfl, _⟩
    · exact hc.of_find? hafter
    · cases hafter

/-- An entry of a sound cache that has no link address is dynamic, so every call gives every address
its turn. -/
theorem Cache.Sound.turns {o : Outcome α Answer} (h : c.Sound)
    (hperform : c.perform r now call = .ok o) : Turns r c now call o :=
  perform_turns h.wellFormed (fun e he hmac => (h.entries e he).coherent.dynamic_of_mac? hmac)
    hperform

/-- Every call keeps the cache sound. -/
theorem Cache.Sound.perform {o : Outcome α Answer} (h : c.Sound)
    (hperform : c.perform r now call = .ok o) : o.cache.Sound := by
  have hturns := h.turns hperform
  obtain ⟨hcapacity, hqueueCapacity, _⟩ := hturns.edits.bounds
  have hwellFormed := hturns.edits.wellFormed h.wellFormed
  obtain ⟨sent, _, hturn⟩ := hturns.turns
  refine ⟨hwellFormed, ?_, ?_, fun e he => ?_⟩
  · rw [hcapacity, hturns.config_eq, h.capacity_eq]
  · rw [hqueueCapacity, hturns.config_eq, h.queueCapacity_eq]
  · rw [hturns.config_eq]
    exact (hturn e.address).sound h ((hwellFormed.ordered.mem_iff e).mp he)

end

/-- An empty cache is sound. -/
theorem Cache.empty_sound (cfg : Config) : (Cache.empty cfg : Cache α).Sound :=
  ⟨Store.empty_wellFormed _ _ _, rfl, rfl, nofun⟩

/-- What holds of an empty cache and is kept by permanent bindings holds of a configured one. -/
theorem Cache.create_induction {P : Cache α → Prop} {cfg : Config} {start : Nat}
    (hempty : P (empty cfg)) (hpin : ∀ c a mac, P c → P (c.pin start a mac).cache) :
    P (create cfg start : Outcome α Unit).cache := by
  have hinstall (bindings : List (Address × Mac)) (o : Outcome α Unit) (ho : P o.cache) :
      P (bindings.foldl (install start) o).cache := by
    induction bindings generalizing o with
    | nil => exact ho
    | cons binding rest ih => exact ih (install start o binding) (hpin _ _ _ ho)
  exact hinstall cfg.permanent _ hempty

/-- Installing the configured bindings keeps the configuration and the invariant. -/
theorem Cache.create_sound (cfg : Config) (start : Nat) :
    (Cache.create cfg start : Outcome α Unit).cache.Sound ∧
      (Cache.create cfg start : Outcome α Unit).cache.config = cfg := by
  refine create_induction (P := fun c => c.Sound ∧ c.config = cfg) ⟨empty_sound cfg, rfl⟩ ?_
  rintro c a mac ⟨hsound, hconfig⟩
  have hpin : c.perform .silent start (.pin a mac) = .ok ((c.pin start a mac).map .pinned) := rfl
  exact ⟨hsound.perform hpin, (hsound.turns hpin).config_eq.trans hconfig⟩

/-- An entry in which packets wait may not be evicted. -/
theorem Entry.isEvictable_of_waiting {e : Entry α} (h : e.waiting ≠ []) :
    e.isEvictable = false := by
  unfold waiting Status.waiting at h
  split at h
  · next n queue hstatus =>
    unfold isEvictable evictionTier?
    cases e.kind <;> simp [hstatus, PendingQueue.isEmpty, h]
  · exact absurd rfl h

/-- While queues have room, packets wait in every unresolved entry. -/
theorem Entry.Sound.waiting_ne_nil {cfg : Config} {e : Entry α} (h : e.Sound cfg)
    (hcapacity : 1 ≤ cfg.queueCapacity) (hstate : e.state = .incomplete) : e.waiting ≠ [] := by
  unfold state Status.state at hstate
  split at hstate
  · next n queue hstatus =>
    rw [waiting, hstatus]
    exact (h.queue n queue hstatus).2.2 hcapacity
  all_goals cases hstate

/-- Only a call that removes it by name takes an unresolved entry away while queues have room. -/
theorem Turn.keeps_unresolved {r : Responder} {c : Cache α} {now : Nat} {a : Address}
    {call : Call α} {answer : Answer} {after : Option (Entry α)} {sent : List (Outbound α)}
    {e : Entry α} (h : Turn r c now a call answer after sent) (hc : c.Sound)
    (hcapacity : 1 ≤ c.config.queueCapacity) (hfind : c.store.find? a = some e)
    (hstate : e.state = .incomplete) (hinvalidate : call ≠ .invalidate a)
    (hclear : call ≠ .invalidateAll) :
    ∃ e', after = some e' ∧ e'.generation = e.generation := by
  cases h with
  | resolved hresolves =>
    cases hresolves with
    | refused hfind' hfailed =>
      cases hfind.symm.trans hfind'
      rw [hstate] at hfailed
      cases hfailed
    | noRoom hnone => cases hfind.symm.trans hnone
    | opened hvacant =>
      have hfailed := (hvacant e hfind).1
      rw [hstate] at hfailed
      cases hfailed
    | passed hfind' =>
      cases hfind.symm.trans hfind'
      exact ⟨_, rfl, Entry.generation_used⟩
    | parked hfind' =>
      cases hfind.symm.trans hfind'
      exact ⟨_, rfl, rfl⟩
  | learned hevidence hlearns =>
    cases hlearns with
    | ignored => exact ⟨e, hfind, rfl⟩
    | learned => exact ⟨_, rfl, by rw [Entry.generation_bound, Store.entryFor_of_some hfind]⟩
  | hinted hhints =>
    cases hhints with
    | ignored => exact ⟨e, hfind, rfl⟩
    | counted hfind' =>
      cases hfind.symm.trans hfind'
      exact ⟨_, rfl, rfl⟩
  | pinned hpins =>
    cases hpins with
    | refused => exact ⟨e, hfind, rfl⟩
    | pinned =>
      refine ⟨_, rfl, ?_⟩
      rw [Store.entryFor_of_some hfind]
      rfl
  | aged hages =>
    cases hages with
    | absent hnone => cases hfind.symm.trans hnone
    | aged hfind' hpasses =>
      cases hfind.symm.trans hfind'
      have hstays := hpasses.stays (by rw [hstate]; nofun) (by rw [hstate]; nofun)
      obtain ⟨e', hsettled, hgeneration⟩ := Entry.Aged.settled_of_stays hstays
      exact ⟨e', hsettled, hgeneration.trans hpasses.generation_eq⟩
  | removed => exact absurd rfl hinvalidate
  | cleared => exact absurd rfl hclear
  | aside hsweeping hsubject hspared =>
    rcases hspared with rfl | ⟨_, _, _, v, hfind', hevictable⟩
    · exact ⟨e, hfind, rfl⟩
    · cases hfind.symm.trans hfind'
      have hwaiting := (hc.of_find? hfind).waiting_ne_nil hcapacity hstate
      rw [Entry.isEvictable_of_waiting hwaiting] at hevictable
      cases hevictable

namespace History

variable {first last : Cache α} {log : List (Step α)} {s : Step α}

/-- A history keeps the cache sound and its configuration. -/
theorem sound (h : History first log last) (hfirst : first.Sound) :
    last.Sound ∧ last.config = first.config := by
  induction h with
  | nil => exact ⟨hfirst, rfl⟩
  | snoc hlog hperform ih =>
    obtain ⟨hsound, hconfig⟩ := ih
    exact ⟨hsound.perform hperform, (hsound.turns hperform).config_eq.trans hconfig⟩

/-- Every step of a history starts from a sound cache and gives each address its turn. -/
theorem turns (h : History first log last) (hfirst : first.Sound) (hs : s ∈ log) :
    s.before.Sound ∧ s.before.config = first.config ∧
      Turns s.responder s.before s.now s.call s.outcome := by
  obtain ⟨xs, ys, rfl⟩ := List.append_of_mem hs
  obtain ⟨hxs, hperform, _⟩ := h.before
  obtain ⟨hsound, hconfig⟩ := hxs.sound hfirst
  exact ⟨hsound, hconfig, hsound.turns hperform⟩

/-- Generations are given out in ascending order throughout a history. -/
theorem nextGeneration_le (h : History first log last) (hfirst : first.Sound) :
    first.store.nextGeneration ≤ last.store.nextGeneration := by
  induction h with
  | nil => exact Nat.le_refl _
  | snoc hlog hperform ih =>
    have hturns := (hlog.sound hfirst).1.turns hperform
    exact Nat.le_trans ih hturns.edits.nextGeneration_le

/-- What holds between the operations of any history of a configured cache: it is no larger than
configured, each address has at most one entry and each entry is sound; and while queues have room,
no operation but a removal by name takes an unresolved entry away. -/
theorem representation_invariant {cfg : Config} {start : Nat}
    (h : History (Cache.create cfg start : Outcome α Unit).cache log last) :
    last.size ≤ cfg.capacity ∧ last.store.addresses.Nodup ∧
      (∀ e, e ∈ last.store.entries ↔ last.store.find? e.address = some e) ∧
      (∀ e ∈ last.store.entries, e.Sound cfg) ∧
      (1 ≤ cfg.queueCapacity → ∀ s ∈ log, ∀ a e, s.before.store.find? a = some e →
        e.state = .incomplete → s.call ≠ .invalidate a → s.call ≠ .invalidateAll →
        ∃ e', s.outcome.cache.store.find? a = some e' ∧ e'.generation = e.generation) := by
  obtain ⟨hcreate, hcfg⟩ := Cache.create_sound (α := α) cfg start
  obtain ⟨hsound, hconfig⟩ := h.sound hcreate
  rw [hcfg] at hconfig
  refine ⟨?_, Cache.nodup_addresses hsound.wellFormed.ordered, hsound.wellFormed.ordered.mem_iff,
    ?_, ?_⟩
  · have hsize := hsound.wellFormed.size_le
    rwa [hsound.capacity_eq, hconfig] at hsize
  · rw [← hconfig]
    exact hsound.entries
  · intro hcapacity s hs a e hfind hstate hinvalidate hclear
    obtain ⟨hbefore, hsame, hturns⟩ := h.turns hcreate hs
    obtain ⟨sent, _, hturn⟩ := hturns.turns
    refine (hturn a).keeps_unresolved hbefore ?_ hfind hstate hinvalidate hclear
    rw [hsame, hcfg]
    exact hcapacity

/-- Packets for two addresses in a cache with room for one. -/
def contest : List (Nat × Call Nat) :=
  [(0, .resolve ⟨10, 0, 0, 1⟩ 7), (1, .resolve ⟨10, 0, 0, 2⟩ 8)]

/-- The entry that was there first stays. -/
theorem representation_invariant_of_contest :
    ∃ x ∈ Cache.briefTrace contest, x.2.size ≤ 1 ∧ ∃ s ∈ x.1, s.call = .resolve ⟨10, 0, 0, 2⟩ 8 ∧
      ∃ e e', s.before.store.find? ⟨10, 0, 0, 1⟩ = some e ∧
        s.outcome.cache.store.find? ⟨10, 0, 0, 1⟩ = some e' ∧ e'.generation = e.generation := by
  have hcontest : ∃ x ∈ Cache.briefTrace contest, ∃ s ∈ x.1, s.call = .resolve ⟨10, 0, 0, 2⟩ 8 ∧
      ∃ e ∈ s.before.store.find? ⟨10, 0, 0, 1⟩, e.state = .incomplete := by
    decide +kernel
  obtain ⟨x, hx, s, hs, hcall, e, hfind, hstate⟩ := hcontest
  obtain ⟨hlog, _⟩ := Cache.history_of_trace hx
  obtain ⟨hsize, _, _, _, hkeeps⟩ := representation_invariant hlog
  obtain ⟨e', hfind', hsame⟩ := hkeeps (by decide) s hs _ e hfind hstate
    (by rw [hcall]; nofun) (by rw [hcall]; nofun)
  exact ⟨x, hx, hsize, s, hs, hcall, e, e', hfind, hfind', hsame⟩

end History

end Neighbor
