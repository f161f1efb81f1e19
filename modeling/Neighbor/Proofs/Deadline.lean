import Neighbor.Proofs.Idle
import Neighbor.Proofs.Lapse

/-!
# Where deadlines come from

The one deadline of an entry stands for six timers, one for each state. A step `Step.Winds` the
timer of a state for an address: it sends a probe, confirms the binding, or takes the entry into the
state. Every step either winds the timer of the state in which it leaves a dynamic entry, and then
the deadline is the time of the step and what the configuration gives that state, or it leaves the
entry as it is for all that time can tell (`Step.sets_or_alike`). So in a history every deadline
was set by the last step that wound its timer (`History.deadlines`).
-/

namespace Neighbor

variable {α : Type}

/-- How long an entry stays in a state after `probes` probes. -/
def Config.timer (cfg : Config) (state : State) (probes : Nat) : Duration :=
  match state with
  | .incomplete => cfg.retry.delay probes
  | .probe => cfg.retry.delay probes
  | .reachable => cfg.reachable
  | .stale => cfg.stale
  | .delay => cfg.delay
  | .failed => cfg.failedGrace

namespace Step

/-- The step takes the entry of `a` from one state to another. -/
def Moves (s : Step α) (a : Address) (old new : State) : Prop :=
  ∃ e e', s.before.store.find? a = some e ∧ s.outcome.cache.store.find? a = some e' ∧
    e'.generation = e.generation ∧ e.state = old ∧ e'.state = new

/-- The step starts the timer of a state for the entry of `a`. -/
def Winds (s : Step α) (a : Address) : State → Prop
  | .incomplete => .broadcastProbe a ∈ s.outcome.sent
  | .probe => ∃ mac, .unicastProbe a mac ∈ s.outcome.sent
  | .reachable => s.Confirms a
  | .stale => s.call = .tick ∧ s.Moves a .reachable .stale
  | .delay => (∃ packet, s.call = .resolve a packet) ∧ s.Moves a .stale .delay
  | .failed => s.call = .tick ∧ (s.Moves a .incomplete .failed ∨ s.Moves a .probe .failed)

/-- The step starts the timer by which it leaves the entry `e` of `a` waiting. -/
def Sets (s : Step α) (a : Address) (e : Entry α) : Prop :=
  s.Winds a e.state ∧
    e.deadline = some (s.now + (s.before.config.timer e.state e.probes).nanos)

end Step

section Turns

variable {r : Responder} {c : Cache α} {now : Nat} {a : Address} {call : Call α} {answer : Answer}
  {after : Option (Entry α)} {sent : List (Outbound α)} {e e' : Entry α}

/-- A dynamic entry was dynamic before the call. -/
theorem Effect.dynamic (h : Effect r c now a call (some e') sent) (hkind : e'.kind = .dynamic)
    (hfind : c.store.find? a = some e) : e.kind = .dynamic := by
  cases h with
  | kept hfind' hcontinues | passed hfind' hcontinues =>
    cases hfind.symm.trans hfind'
    exact hcontinues.kind_eq.symm.trans hkind
  | checked hfind' _ _ hbefore =>
    cases hfind.symm.trans hfind'
    exact hbefore
  | unbound hbefore | bound hbefore => exact hbefore e hfind
  | pinned _ _ hpermanent => cases hkind.symm.trans hpermanent

/-- A binding that is installed for good is permanent. -/
theorem Turn.permanent_of_pinned {mac : Mac} (h : Turn r c now a call answer (some e') sent)
    (hcall : call = .pin a mac) (hpinned : answer.isPinned = true) : e'.kind = .permanent := by
  subst hcall
  generalize hafter : some e' = after at h
  cases h with
  | pinned hpins =>
    cases hpins with
    | pinned =>
      cases hafter
      rfl
    | refused => cases hpinned
  | learned hevidence => cases hevidence
  | aside _ hsubject => exact absurd rfl hsubject

end Turns

section Steps

variable {a : Address} {s : Step α} {e e' : Entry α} {items : List (Address × Outbound α)}

namespace Step

/-- A step that sends no probe for `a`, does not confirm its binding and leaves its entry in its
state starts no timer. -/
theorem not_winds (hitems : items.map (·.2) = s.outcome.sent)
    (hturn : ∀ b, Turn s.responder s.before s.now b s.call s.outcome.answer
      (s.outcome.cache.store.find? b) (share b items))
    (hquiet : Quiet (share a items)) (hconfirms : ¬ s.Confirms a)
    (hfind : s.before.store.find? a = some e) (hstate : e'.state = e.state) :
    ¬ s.Winds a e'.state := by
  have hmoves {old : State} (h : s.Moves a old e'.state) : old = e'.state := by
    obtain ⟨x, _, hx, _, _, hold, _⟩ := h
    cases hfind.symm.trans hx
    rw [hstate, hold]
  intro hwinds
  cases hafter : e'.state with
  | incomplete =>
    rw [hafter] at hwinds
    cases hquiet _ (mem_share_of_target hitems hturn hwinds rfl)
  | probe =>
    rw [hafter] at hwinds
    obtain ⟨mac, hprobe⟩ := hwinds
    cases hquiet _ (mem_share_of_target hitems hturn hprobe rfl)
  | reachable =>
    rw [hafter] at hwinds
    exact hconfirms hwinds
  | stale =>
    rw [hafter] at hwinds hmoves
    cases hmoves hwinds.2
  | delay =>
    rw [hafter] at hwinds hmoves
    cases hmoves hwinds.2
  | failed =>
    rw [hafter] at hwinds hmoves
    rcases hwinds.2 with hmove | hmove
    · cases hmoves hmove
    · cases hmoves hmove

/-- A new entry that nothing has answered waits for the answer to its first probe. -/
theorem sets_of_opening {packet : α} (hitems : items.map (·.2) = s.outcome.sent)
    (hconfirms : ¬ s.Confirms a) (hprobe : .broadcastProbe a ∈ share a items) :
    s.Sets a ((s.before.opening s.now a packet).answered s.before.config s.responder s.now).1 := by
  rw [answered_of_unconfirmed hitems hconfirms rfl hprobe]
  refine ⟨?_, rfl⟩
  change .broadcastProbe a ∈ s.outcome.sent
  rw [← hitems]
  exact mem_of_mem_share hprobe

/-- What time makes of an entry: itself, or one whose timer the tick has started. -/
theorem sets_of_passes {aged : Entry.Aged α} (hcall : s.call = .tick)
    (hfind : s.before.store.find? a = some e)
    (hfind' : s.outcome.cache.store.find? a = some aged.entry)
    (hpasses : e.Passes s.before.config s.now aged) (hstays : aged.aging.isExpiry = false)
    (hsent : ∀ x, aged.probe = some x → x ∈ s.outcome.sent) :
    aged = { entry := e, aging := .idle } ∨ s.Sets a aged.entry := by
  have haddress := Store.address_of_find? hfind
  have hsame := hpasses.generation_eq
  cases hpasses with
  | idle => exact .inl rfl
  | reprobed =>
    refine .inr ⟨?_, rfl⟩
    rw [← haddress]
    exact hsent _ rfl
  | @rechecked mac | @checked mac =>
    refine .inr ⟨⟨mac, ?_⟩, rfl⟩
    rw [← haddress]
    exact hsent _ rfl
  | staled _ hstatus =>
    exact .inr ⟨⟨hcall, e, _, hfind, hfind', hsame, congrArg Status.state hstatus, rfl⟩, rfl⟩
  | gaveUp _ hstate =>
    refine .inr ⟨⟨hcall, ?_⟩, rfl⟩
    rcases hstate with hstate | hstate
    · exact .inl ⟨e, _, hfind, hfind', hsame, hstate, rfl⟩
    · exact .inr ⟨e, _, hfind, hfind', hsame, hstate, rfl⟩
  | expired => cases hstays

/-- A step starts the timer of the state in which it leaves a dynamic entry, or it starts none and
leaves the entry as it was for all that time can tell. -/
theorem sets_or_alike (hturns : Turns s.responder s.before s.now s.call s.outcome)
    (hcoherent : s.before.Coherent) (hfind' : s.outcome.cache.store.find? a = some e')
    (hkind : e'.kind = .dynamic) :
    s.Sets a e' ∨ ¬ s.Winds a e'.state ∧
      ∃ e, s.before.store.find? a = some e ∧ e.kind = .dynamic ∧ e.Alike e' := by
  by_cases hconfirms : s.Confirms a
  · obtain ⟨e, hfind, hstate, hdeadline⟩ := hconfirms.bound hturns
    cases hfind.symm.trans hfind'
    refine .inl ⟨?_, ?_⟩
    · rw [hstate]
      exact hconfirms
    · rw [hstate]
      exact hdeadline
  obtain ⟨items, hitems, hturn⟩ := hturns.turns
  have hturn' := hturn a
  rw [hfind'] at hturn'
  have hpins (mac : Mac) : ¬ s.Pins a mac := by
    rintro ⟨hcall, hpinned⟩
    cases hkind.symm.trans (hturn'.permanent_of_pinned hcall hpinned)
  have hsecures := not_secures hitems hconfirms hpins
  generalize hafter : some e' = after at hturn'
  generalize hshare : share a items = sent at hturn'
  have hopening (packet : α) (hsent : .broadcastProbe a ∈ sent) :
      s.Sets a ((s.before.opening s.now a packet).answered s.before.config s.responder s.now).1 :=
    sets_of_opening hitems hconfirms (hshare ▸ hsent)
  cases hfind : s.before.store.find? a with
  | none =>
    rcases hturn'.appears hfind with ⟨rfl, _⟩ | ⟨packet, _, rfl, rfl⟩ | ⟨hbinds, _⟩
    · cases hafter
    · cases hafter
      exact .inl (hopening packet List.mem_cons_self)
    · exact absurd (hshare ▸ hbinds) hsecures
  | some e =>
    have hbefore : e.kind = .dynamic := by
      subst hafter
      exact (hturn'.effect hcoherent).dynamic hkind hfind
    have hkept (halike : e.Alike e') (hquiet : Quiet sent) : ¬ s.Winds a e'.state ∧
        ∃ x, some e = some x ∧ x.kind = .dynamic ∧ x.Alike e' :=
      ⟨not_winds hitems hturn (hshare ▸ hquiet) hconfirms hfind halike.state_eq, e, rfl, hbefore,
        halike⟩
    cases hturn'.change hfind with
    | kept halike hquiet =>
      cases hafter
      exact .inr (hkept halike hquiet)
    | woken hcall hstale hdelay hgeneration hdeadline =>
      cases hafter
      refine .inl ⟨?_, ?_⟩
      · rw [hdelay]
        exact ⟨⟨_, hcall⟩, e, e', hfind, hfind', hgeneration, hstale, hdelay⟩
      · rw [hdelay]
        exact hdeadline
    | bound _ hbinds => exact absurd (hshare ▸ hbinds) hsecures
    | gone => cases hafter
    | @replaced packet =>
      cases hafter
      exact .inl (hopening packet List.mem_cons_self)
    | @aged aged hcall hpasses =>
      obtain ⟨rfl, hstays⟩ := settled_of_unconfirmed hitems hconfirms hpasses
        (Store.address_of_find? hfind) hshare hafter
      have hsent (x : Outbound α) (hx : aged.probe = some x) : x ∈ s.outcome.sent := by
        rw [← hitems]
        exact mem_of_mem_share (hshare ▸ Entry.Aged.probe_mem_settled hstays hx)
      rcases sets_of_passes hcall hfind hfind' hpasses hstays hsent with rfl | hsets
      · exact .inr (hkept (.refl e) quiet_nil)
      · exact .inl hsets

/-- A packet changes the deadline of an entry that stays only if it wakes it. -/
theorem deadline_of_resolve {b : Address} {packet : α}
    (hturns : Turns s.responder s.before s.now s.call s.outcome)
    (hs : s.before.store.WellFormed) (hcall : s.call = .resolve b packet)
    (hfind : s.before.store.find? a = some e) (hfind' : s.outcome.cache.store.find? a = some e')
    (hsame : e'.generation = e.generation) :
    e'.deadline = e.deadline ∨ a = b ∧ e.state = .stale ∧ e'.state = .delay := by
  obtain ⟨items, _, hturn⟩ := hturns.turns
  have hturn := hturn a
  rw [hfind', hcall] at hturn
  generalize hafter : some e' = after at hturn
  generalize share a items = sent at hturn
  cases hturn.change hfind with
  | kept halike =>
    cases hafter
    exact .inl halike.deadline_eq
  | woken hcall hstale hdelay =>
    cases hafter
    cases hcall
    exact .inr ⟨rfl, hstale, hdelay⟩
  | bound _ hsecures _ _ hquiet =>
    -- a packet is no evidence, and the entry was there, so nothing asked for its link address
    rcases hsecures with ⟨mac, ⟨hevidence, _⟩ | ⟨hprobe, _⟩⟩ | ⟨hhint, _⟩ | ⟨mac, hpin, _⟩
    · cases hevidence
    · cases hquiet _ hprobe
    · cases hhint
    · cases hpin
  | aged htick => cases htick
  | gone => cases hafter
  | replaced =>
    cases hafter
    have hold := hs.generation_lt e (Store.mem_of_find? hfind)
    rw [Entry.generation_answered] at hsame
    change s.before.store.nextGeneration = e.generation at hsame
    omega

end Step

end Steps

/-- The step `s`, with `post` after it, is the one that set the deadline of the entry `e` of `a`: it
started the timer of the state of `e` for this very entry, and no later step did. -/
structure SetBy (cfg : Config) (a : Address) (e : Entry α) (s : Step α) (post : List (Step α)) :
    Prop where
  winds : s.Winds a e.state
  entry : ∃ x, s.outcome.cache.store.find? a = some x ∧ x.generation = e.generation ∧
    x.state = e.state
  last : ∀ t ∈ post, ¬ t.Winds a e.state
  deadline_eq : e.deadline = some (s.now + (cfg.timer e.state e.probes).nanos)

/-- A step that starts no timer for an entry leaves it to the step that set its deadline. -/
theorem SetBy.snoc {cfg : Config} {a : Address} {e e' : Entry α} {s t : Step α}
    {post : List (Step α)} (h : SetBy cfg a e s post) (halike : e.Alike e')
    (hwinds : ¬ t.Winds a e'.state) : SetBy cfg a e' s (post ++ [t]) := by
  obtain ⟨hstarts, hentry, hlast, hdeadline⟩ := h
  rw [halike.state_eq] at hwinds
  refine ⟨?_, ?_, ?_, ?_⟩
  · rwa [halike.state_eq]
  · rwa [halike.state_eq, halike.generation_eq]
  · rw [halike.state_eq, List.forall_mem_append]
    exact ⟨hlast, List.forall_mem_singleton.mpr hwinds⟩
  · rw [halike.deadline_eq, halike.state_eq, halike.probes_eq]
    exact hdeadline

/-- A configured cache starts with permanent entries only. -/
theorem Cache.permanent_of_create {cfg : Config} {start : Nat} {a : Address} {e : Entry α}
    (h : (create cfg start : Outcome α Unit).cache.store.find? a = some e) :
    e.kind = .permanent := by
  suffices hall : (create cfg start : Outcome α Unit).cache.store.WellFormed ∧
      ∀ b x, (create cfg start : Outcome α Unit).cache.store.find? b = some x →
        x.kind = .permanent from hall.2 a e h
  refine create_induction (P := fun c : Cache α => c.store.WellFormed ∧
    ∀ b x, c.store.find? b = some x → x.kind = .permanent) ⟨(empty_sound cfg).wellFormed, nofun⟩ ?_
  rintro c b mac ⟨hs, hpermanent⟩
  obtain ⟨hpins, hworks⟩ : c.Pins start b mac (c.pin start b mac).answer
      ((c.pin start b mac).cache.store.find? b) (c.pin start b mac).sent ∧
      c.WorksOn b (c.pin start b mac).cache := pin_pins hs
  refine ⟨hworks.edits.wellFormed hs, fun d x hx => ?_⟩
  by_cases hd : d = b
  · subst hd
    rw [hx] at hpins
    generalize hafter : some x = after at hpins
    generalize (c.pin start d mac).answer = answer at hpins
    generalize (c.pin start d mac).sent = sent at hpins
    cases hpins with
    | pinned =>
      cases hafter
      rfl
    | refused => exact hpermanent d x hafter.symm
  · rcases hworks.spared d hd with hsame | ⟨hnone, _⟩
    · exact hpermanent d x (hsame ▸ hx)
    · cases hnone.symm.trans hx

namespace History

variable {first last : Cache α} {log : List (Step α)}

/-- Every deadline of a dynamic entry was set by a step of the history. -/
theorem setBy (h : History first log last) (hsound : first.Sound)
    (hfirst : ∀ a e, first.store.find? a = some e → e.kind = .permanent) {a : Address} {e : Entry α}
    (hfind : last.store.find? a = some e) (hkind : e.kind = .dynamic) :
    ∃ pre s post, log = pre ++ s :: post ∧ SetBy first.config a e s post := by
  induction log using List.reverseRecOn generalizing last e with
  | nil =>
    rw [nil_iff.mp h] at hfind
    cases hkind.symm.trans (hfirst a e hfind)
  | append_singleton log t ih =>
    obtain ⟨hlog, hperform, rfl⟩ := snoc_iff.mp h
    obtain ⟨hbefore, hconfig⟩ := hlog.sound hsound
    rcases Step.sets_or_alike (hbefore.turns hperform) hbefore.coherent hfind hkind with
      ⟨hwinds, hdeadline⟩ | ⟨hwinds, old, hold, hdynamic, halike⟩
    · refine ⟨log, t, [], rfl, hwinds, ⟨e, hfind, rfl, rfl⟩, List.forall_mem_nil _, ?_⟩
      rw [← hconfig]
      exact hdeadline
    · obtain ⟨pre, s, post, rfl, hset⟩ := ih hlog hold hdynamic
      refine ⟨pre, s, post ++ [t], ?_, hset.snoc halike hwinds⟩
      rw [List.append_assoc, List.cons_append]

/-- In every history each deadline of a dynamic entry is the time at which its timer was last
started and what the configuration gives its state. Traffic moves none: a packet changes the
deadline of an entry that stays only if it wakes the entry, evidence that is disregarded changes
nothing, and a tick changes no entry before its deadline, nor any if its report is quiet. -/
theorem deadlines {cfg : Config} {start : Nat}
    (h : History (Cache.create cfg start : Outcome α Unit).cache log last) :
    (∀ a e, last.store.find? a = some e → e.kind = .dynamic →
      ∃ pre s post, log = pre ++ s :: post ∧ SetBy cfg a e s post) ∧
    ∀ s ∈ log,
      (∀ b packet, s.call = .resolve b packet → ∀ a e e', s.before.store.find? a = some e →
        s.outcome.cache.store.find? a = some e' → e'.generation = e.generation →
        e'.deadline = e.deadline ∨ a = b ∧ e.state = .stale ∧ e'.state = .delay) ∧
      (∀ b mac, s.call.evidence? s.before = some (b, mac) → s.before.Disregards s.now b mac →
        ∀ a, s.outcome.cache.store.find? a = s.before.store.find? a) ∧
      (s.call = .tick → ∀ a e, s.before.store.find? a = some e → e.isDue s.now = false →
        s.outcome.cache.store.find? a = some e) ∧
      (s.call = .tick → ∀ report, s.outcome.answer = .ticked report → report.isQuiet = true →
        ∀ a, s.outcome.cache.store.find? a = s.before.store.find? a) := by
  obtain ⟨hcreate, hcfg⟩ := Cache.create_sound (α := α) cfg start
  refine ⟨fun a e hfind hkind => ?_, fun s hs => ?_⟩
  · obtain ⟨pre, s, post, hlog, hset⟩ :=
      h.setBy hcreate (fun _ _ => Cache.permanent_of_create) hfind hkind
    exact ⟨pre, s, post, hlog, hcfg ▸ hset⟩
  · obtain ⟨pre, post, rfl⟩ := List.append_of_mem hs
    obtain ⟨_, hperform, _⟩ := h.before
    obtain ⟨hbefore, _, hturns⟩ := h.turns hcreate hs
    refine ⟨fun b packet hcall a e e' => ?_, fun b mac hevidence hdisregards a => ?_,
      fun hcall a e hfind hdue => ?_, fun hcall report hanswer hquiet a => ?_⟩
    · exact Step.deadline_of_resolve hturns hbefore.wellFormed hcall
    · rw [Cache.store_of_unlearned hperform hevidence (Cache.learns_eq_false_iff.mpr hdisregards)]
    · obtain ⟨items, _, hturn⟩ := hturns.turns
      exact (hcall ▸ hturn a).of_not_due hfind hdue
    · rw [hcall] at hperform
      obtain ⟨o, htick, ho⟩ := Attempt.mapAnswer_eq_ok hperform
      rw [ho] at hanswer ⊢
      cases hanswer
      exact Cache.find?_of_quiet hbefore.wellFormed htick hquiet a

/-- The packet has set the deadline of the woken entry. -/
theorem deadlines_of_waking :
    ∃ x ∈ Cache.briefTrace waking, ∃ e, x.2.store.find? ⟨10, 0, 0, 1⟩ = some e ∧
      e.state = .delay ∧ e.deadline = some 17 ∧
      ∃ pre s post, x.1 = pre ++ s :: post ∧ SetBy .brief ⟨10, 0, 0, 1⟩ e s post := by
  have hwaking : ∃ x ∈ Cache.briefTrace waking, ∃ e ∈ x.2.store.find? ⟨10, 0, 0, 1⟩,
      e.kind = .dynamic ∧ e.state = .delay ∧ e.deadline = some 17 := by
    decide +kernel
  obtain ⟨x, hx, e, hfind, hkind, hstate, hdeadline⟩ := hwaking
  obtain ⟨hlog, _⟩ := Cache.history_of_trace hx
  obtain ⟨hset, _⟩ := deadlines hlog
  exact ⟨x, hx, e, hfind, hstate, hdeadline, hset _ e hfind hkind⟩

end History

end Neighbor
