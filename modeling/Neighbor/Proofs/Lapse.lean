import Neighbor.Proofs.Pacing

/-!
# The lapse of a binding

Nothing but a confirmation or a permanent binding prolongs the life of a link address. Once the last
confirmation is over, each phase of the entry ends within a period after its deadline, and when the
last probe has stayed unanswered the address no longer resolves.
-/

namespace Neighbor

variable {α : Type}

/-- How long after the last confirmation the deadline of an entry in a state with a link address may
be over, if ticks are at most `P` apart. -/
def Config.allowance (cfg : Config) (P : Nat) (state : State) (probes : Nat) : Nat :=
  match state with
  | .reachable => cfg.reachable.nanos + P
  | .stale => cfg.reachable.nanos + cfg.stale.nanos + 2 * P
  | .delay => cfg.reachable.nanos + cfg.stale.nanos + cfg.delay.nanos + 3 * P
  | _ => cfg.reachable.nanos + cfg.stale.nanos + cfg.delay.nanos + cfg.retry.total probes +
      (probes + 3) * P

/-- No phase outlasts the last one. -/
theorem Config.allowance_le (cfg : Config) {P probes M : Nat} (state : State) (h : probes ≤ M) :
    cfg.allowance P state probes ≤ cfg.reachable.nanos + cfg.stale.nanos + cfg.delay.nanos +
      cfg.retry.total M + (M + 3) * P := by
  have htotal := cfg.retry.total_mono h
  have hperiods := Nat.mul_le_mul_right P h
  unfold allowance
  cases state <;> simp only [Nat.add_mul] <;> omega

/-- An entry with a link address that was confirmed at `t₀` and not since: its deadline is within
the allowance of its state, and no tick has come after it. -/
structure Lapses (cfg : Config) (P t₀ : Nat) (steps : List (Step α)) (e : Entry α) (d : Nat) :
    Prop where
  deadline_eq : e.deadline = some d
  start_le : t₀ ≤ d
  bound : d + P ≤ t₀ + cfg.allowance P e.state e.probes
  ticks_le : ∀ s ∈ steps, s.call = .tick → s.now ≤ d

/-- The invariant of a binding that is not confirmed any more: while the entry of `a` still has a
link address, it lapses. -/
def Lapsing (P : Nat) (a : Address) (t₀ : Nat) (steps : List (Step α)) (c : Cache α) : Prop :=
  ∀ e, c.store.find? a = some e → e.mac? ≠ none → ∃ d, Lapses c.config P t₀ steps e d

section Turns

variable {r : Responder} {c : Cache α} {now : Nat} {a : Address} {call : Call α} {answer : Answer}
  {after : Option (Entry α)} {sent : List (Outbound α)} {e : Entry α}

/-- Only a known link address resolves. -/
theorem Turn.mac?_of_resolved {packet : α} {mac : Mac} {evicted : Option Evicted}
    (h : Turn r c now a call answer after sent) (hcall : call = .resolve a packet)
    (hanswer : answer = .resolution (.resolved mac) evicted) :
    ∃ e, c.store.find? a = some e ∧ e.mac? = some mac := by
  cases h with
  | resolved hresolves =>
    cases hanswer
    generalize hresolution : Resolution.resolved mac = resolution at hresolves
    cases hresolves with
    | refused | noRoom => cases hresolution
    | opened | parked => split at hresolution <;> cases hresolution
    | passed hfind hmac =>
      cases hresolution
      exact ⟨_, hfind, hmac⟩
  | learned hevidence =>
    rw [hcall] at hevidence
    cases hevidence
  | aside _ hsubject =>
    rw [hcall] at hsubject
    exact absurd rfl hsubject
  | hinted | pinned | aged | removed | cleared => cases hcall

end Turns

section Steps

variable {P t₀ t : Nat} {a : Address} {xs ys : List (Step α)} {s : Step α}
  {items : List (Address × Outbound α)}

/-- A step that neither confirms nor pins `a` does not bind it. -/
theorem not_secures (hitems : items.map (·.2) = s.outcome.sent) (hconfirms : ¬ s.Confirms a)
    (hpins : ∀ mac, ¬ s.Pins a mac) :
    ¬ Secures s.responder s.before s.now a s.call s.outcome.answer (share a items) := by
  rintro (⟨mac, htells⟩ | hhint | ⟨mac, hpin⟩)
  · exact hconfirms (.inl ⟨mac, htells.mono fun x hx => hitems ▸ mem_of_mem_share hx⟩)
  · exact hconfirms (.inr hhint)
  · exact hpins mac hpin

/-- In a step that does not confirm `a` no probe for `a` is answered. -/
theorem answered_of_unconfirmed {cfg : Config} {e : Entry α}
    (hitems : items.map (·.2) = s.outcome.sent) (hconfirms : ¬ s.Confirms a)
    (haddress : e.address = a)
    (hprobe : .broadcastProbe a ∈ share a items) : e.answered cfg s.responder s.now = (e, []) := by
  rcases e.answered_cases with ⟨_, hanswered⟩ | ⟨mac, hheard, _⟩
  · exact hanswered
  · rw [haddress] at hheard
    exact absurd (.inl ⟨mac, .inr ⟨hitems ▸ mem_of_mem_share hprobe, hheard⟩⟩) hconfirms

/-- A stale entry has a link address. -/
theorem Entry.mac?_of_stale {e : Entry α} (h : e.state = .stale) : e.mac? ≠ none := by
  intro hnone
  have hunresolved := mac?_eq_none_iff.mp hnone
  rw [h] at hunresolved
  cases hunresolved

/-- The next phase of an entry begins at most a period after the deadline of the last one. -/
theorem Entry.Passes.lapses {cfg : Config} {e : Entry α} {aged : Entry.Aged α} {now d : Nat}
    (hpasses : e.Passes cfg now aged) (hmac : aged.entry.mac? ≠ none)
    (hstays : aged.aging.isExpiry = false)
    (hdeadline : e.deadline = some d) (hstart : t₀ ≤ d) (hontime : now ≤ d + P)
    (hbound : d + P ≤ t₀ + cfg.allowance P e.state e.probes) :
    ∃ d', aged.entry.deadline = some d' ∧ t₀ ≤ d' ∧ now ≤ d' ∧
      d' + P ≤ t₀ + cfg.allowance P aged.entry.state aged.entry.probes := by
  cases hpasses with
  | idle hdue =>
    have hlt := Entry.lt_of_not_isDue hdue hdeadline
    exact ⟨d, hdeadline, hstart, Nat.le_of_lt hlt, hbound⟩
  | expired => cases hstays
  | reprobed | gaveUp => exact absurd rfl hmac
  | staled hdue hstatus =>
    have hdue := Entry.le_of_isDue hdue hdeadline
    rw [Entry.state, hstatus] at hbound
    refine ⟨_, rfl, by omega, by omega, ?_⟩
    simp only [Config.allowance, Entry.state, Status.state] at hbound ⊢
    omega
  | checked hdue hstatus =>
    have hdue := Entry.le_of_isDue hdue hdeadline
    have htotal : cfg.retry.total 1 = (cfg.retry.delay 1).nanos :=
      (cfg.retry.total_succ 0).trans (Nat.zero_add _)
    rw [Entry.state, hstatus] at hbound
    refine ⟨_, rfl, by omega, by omega, ?_⟩
    simp only [Config.allowance, Entry.state, Status.state, Entry.probes, Status.probes] at hbound ⊢
    omega
  | @rechecked mac n hdue hstatus hleft =>
    have hdue := Entry.le_of_isDue hdue hdeadline
    have htotal := cfg.retry.total_succ n
    rw [Entry.state, Entry.probes, hstatus] at hbound
    refine ⟨_, rfl, by omega, by omega, ?_⟩
    simp only [Config.allowance, Entry.state, Status.state, Entry.probes, Status.probes,
      Nat.add_mul] at hbound ⊢
    omega

/-- In a step that does not confirm `a` the aged entry of `a` stays as it is, unless it goes. -/
theorem settled_of_unconfirmed {cfg : Config} {aged : Entry.Aged α} {old e : Entry α}
    (hitems : items.map (·.2) = s.outcome.sent) (hconfirms : ¬ s.Confirms a)
    (hpasses : old.Passes cfg s.now aged) (haddress : old.address = a)
    (hshare : share a items = (aged.settled cfg s.responder s.now).2)
    (hafter : some e = (aged.settled cfg s.responder s.now).1) :
    e = aged.entry ∧ aged.aging.isExpiry = false := by
  cases hstays : aged.aging.isExpiry with
  | true => simp [Entry.Aged.settled, hstays] at hafter
  | false =>
    refine ⟨?_, rfl⟩
    unfold Entry.Aged.settled at hshare hafter
    rw [hstays] at hshare hafter
    cases hprobe : aged.probe with
    | none =>
      rw [hprobe] at hafter
      cases hafter
      rfl
    | some item =>
      cases item with
      | unicastProbe | packet =>
        rw [hprobe] at hafter
        cases hafter
        rfl
      | broadcastProbe b =>
        have htarget := hpasses.target hprobe
        cases htarget
        rw [hprobe] at hshare hafter
        have hmem : .broadcastProbe a ∈ share a items := by
          rw [hshare, haddress]
          exact List.mem_cons_self
        have hsame : aged.entry.answered cfg s.responder s.now = (aged.entry, []) :=
          answered_of_unconfirmed hitems hconfirms (hpasses.address_eq.trans haddress) hmem
        simp only [hsame] at hafter
        exact Option.some.inj hafter

/-- Time does not give an entry a link address. -/
theorem Entry.Passes.mac?_ne_none {cfg : Config} {e : Entry α} {aged : Entry.Aged α} {now : Nat}
    (h : e.Passes cfg now aged) (hmac : aged.entry.mac? ≠ none) : e.mac? ≠ none := by
  cases h with
  | idle | expired => exact hmac
  | reprobed | gaveUp => exact absurd rfl hmac
  | staled _ hstatus | checked _ hstatus | rechecked _ hstatus =>
    rw [mac?, hstatus]
    exact Option.some_ne_none _

namespace Lapses

variable {cfg : Config} {e e' : Entry α} {d : Nat}

/-- An entry lapses as it did through a step that is no tick and does not touch it. -/
theorem kept (h : Lapses cfg P t₀ xs e d) (halike : e.Alike e') (hcall : s.call ≠ .tick) :
    Lapses cfg P t₀ (xs ++ [s]) e' d := by
  refine ⟨halike.deadline_eq.trans h.deadline_eq, h.start_le, ?_, ?_⟩
  · rw [halike.state_eq, halike.probes_eq]
    exact h.bound
  · rw [List.forall_mem_append]
    exact ⟨h.ticks_le, List.forall_mem_singleton.mpr fun htick => absurd htick hcall⟩

/-- A packet wakes a stale entry at most a period after its deadline. -/
theorem woken (h : Lapses cfg P t₀ xs e d) (hontime : s.now ≤ d + P) (hstart : t₀ ≤ s.now)
    (hbefore : ∀ x ∈ xs ++ [s], x.now ≤ s.now) (hstale : e.state = .stale)
    (hdelay : e'.state = .delay) (hdeadline : e'.deadline = some (s.now + cfg.delay.nanos)) :
    Lapses cfg P t₀ (xs ++ [s]) e' (s.now + cfg.delay.nanos) := by
  have hbound := h.bound
  refine ⟨hdeadline, by omega, ?_, fun x hx _ => Nat.le_trans (hbefore x hx) (Nat.le_add_right _ _)⟩
  rw [hstale] at hbound
  rw [hdelay]
  simp only [Config.allowance] at hbound ⊢
  omega

/-- A tick takes an entry to its next phase at most a period after its deadline. -/
theorem passed {aged : Entry.Aged α} (h : Lapses cfg P t₀ xs e d) (hontime : s.now ≤ d + P)
    (hbefore : ∀ x ∈ xs ++ [s], x.now ≤ s.now) (hpasses : e.Passes cfg s.now aged)
    (hmac : aged.entry.mac? ≠ none) (hstays : aged.aging.isExpiry = false) :
    ∃ d', Lapses cfg P t₀ (xs ++ [s]) aged.entry d' := by
  obtain ⟨d', hdeadline, hstart, hnow, hbound⟩ :=
    hpasses.lapses hmac hstays h.deadline_eq h.start_le hontime h.bound
  exact ⟨d', hdeadline, hstart, hbound, fun x hx _ => Nat.le_trans (hbefore x hx) hnow⟩

end Lapses

/-- A step that neither confirms nor pins `a` keeps its binding lapsing. -/
theorem Lapsing.snoc (h : Lapsing P a t₀ xs s.before)
    (hturns : Turns s.responder s.before s.now s.call s.outcome) (hconfirms : ¬ s.Confirms a)
    (hpins : ∀ mac, ¬ s.Pins a mac) (hticks : TicksUntil P t₀ t (xs ++ s :: ys))
    (hascending : Ascending (xs ++ s :: ys)) (hstart : t₀ ≤ s.now) (hs : s.now ≤ t) :
    Lapsing P a t₀ (xs ++ [s]) s.outcome.cache := by
  intro e' he' hmac
  obtain ⟨items, hitems, hturn⟩ := hturns.turns
  have hsecures := not_secures hitems hconfirms hpins
  -- a new entry has no link address unless its probe is answered, which would be a confirmation
  have hunopened {p : α} (hprobe : .broadcastProbe a ∈ share a items)
      (hopened : e' = ((s.before.opening s.now a p).answered s.before.config s.responder s.now).1) :
      False := by
    rw [answered_of_unconfirmed hitems hconfirms rfl hprobe] at hopened
    rw [hopened] at hmac
    exact hmac rfl
  have hbefore := hascending.le_of_mem
  -- a deadline that no tick has seen is at most a period ago
  have hontime {e : Entry α} {d : Nat} (hlapses : Lapses s.before.config P t₀ xs e d) :
      s.now ≤ d + P := on_time hticks hascending hs hlapses.start_le hlapses.ticks_le
  have hturn := hturn a
  rw [he'] at hturn
  rw [hturns.config_eq]
  generalize hafter : some e' = after at hturn
  generalize hshare : share a items = sent at hturn hsecures hunopened
  cases hfind : s.before.store.find? a with
  | none =>
    rcases hturn.appears hfind with ⟨rfl, _⟩ | ⟨p, _, rfl, rfl⟩ | ⟨hbinds, _⟩
    · cases hafter
    · cases hafter
      exact (hunopened List.mem_cons_self rfl).elim
    · exact absurd hbinds hsecures
  | some e =>
    cases hturn.change hfind with
    | kept halike _ hcall =>
      cases hafter
      rw [halike.mac?_eq] at hmac
      obtain ⟨d, hlapses⟩ := h e hfind hmac
      exact ⟨d, hlapses.kept halike hcall⟩
    | woken _ hstale hdelay _ hdeadline =>
      cases hafter
      obtain ⟨d, hlapses⟩ := h e hfind (Entry.mac?_of_stale hstale)
      exact ⟨_, hlapses.woken (hontime hlapses) hstart hbefore hstale hdelay hdeadline⟩
    | bound _ hbinds => exact absurd hbinds hsecures
    | gone => cases hafter
    | replaced =>
      cases hafter
      exact (hunopened List.mem_cons_self rfl).elim
    | aged hcall hpasses =>
      obtain ⟨rfl, hstays⟩ := settled_of_unconfirmed hitems hconfirms hpasses
        (Store.address_of_find? hfind) hshare hafter
      obtain ⟨d, hlapses⟩ := h e hfind (hpasses.mac?_ne_none hmac)
      exact hlapses.passed (hontime hlapses) hbefore hpasses hmac hstays

/-- A probe for `a` that is sent belongs to `a`. -/
theorem mem_share_of_target {x : Outbound α} (hitems : items.map (·.2) = s.outcome.sent)
    (hturn : ∀ b, Turn s.responder s.before s.now b s.call s.outcome.answer
      (s.outcome.cache.store.find? b) (share b items))
    (hx : x ∈ s.outcome.sent) (htarget : x.target? = some a) : x ∈ share a items := by
  rw [← hitems] at hx
  obtain ⟨y, hy, rfl⟩ := List.mem_map.mp hx
  have hmem : y.2 ∈ share y.1 items := List.mem_map.mpr ⟨y, List.mem_filter.mpr ⟨hy, by simp⟩, rfl⟩
  rwa [(hturn y.1).target hmem htarget]

/-- A step that confirms the binding of `a` leaves it good for the configured time. -/
theorem Step.Confirms.bound (hturns : Turns s.responder s.before s.now s.call s.outcome)
    (hconfirms : s.Confirms a) :
    ∃ e, s.outcome.cache.store.find? a = some e ∧ e.state = .reachable ∧
      e.deadline = some (s.now + s.before.config.reachable.nanos) := by
  obtain ⟨items, hitems, hturn⟩ := hturns.turns
  refine (hturn a).confirmed ?_
  rcases hconfirms with ⟨mac, hevidence | ⟨hprobe, hheard⟩⟩ | hhint
  · exact .inl ⟨mac, .inl hevidence⟩
  · exact .inl ⟨mac, .inr ⟨mem_share_of_target hitems hturn hprobe rfl, hheard⟩⟩
  · exact .inr hhint

/-- A binding that has just been confirmed lapses from then on. -/
theorem lapsing_of_confirms (hturns : Turns s.responder s.before s.now s.call s.outcome)
    (hconfirms : s.Confirms a) : Lapsing P a s.now [] s.outcome.cache := by
  obtain ⟨e, hfind, hstate, hdeadline⟩ := hconfirms.bound hturns
  intro e' hfind' _
  cases hfind.symm.trans hfind'
  refine ⟨_, hdeadline, Nat.le_add_right _ _, ?_, List.forall_mem_nil _⟩
  rw [hstate, hturns.config_eq]
  exact Nat.le_of_eq (Nat.add_assoc _ _ _)

end Steps

namespace History

variable {P t : Nat} {a : Address} {first : Step α} {post zs : List (Step α)} {last : Cache α}

/-- A binding that was confirmed last by `first` is lapsing from then on. -/
theorem lapsing (h : History first.outcome.cache post last) (hsound : first.outcome.cache.Sound)
    (hfirst : Lapsing P a first.now [] first.outcome.cache)
    (hlater : ∀ s ∈ post, ¬ s.Confirms a ∧ ∀ mac, ¬ s.Pins a mac)
    (hticks : TicksUntil P first.now t (post ++ zs)) (hascending : Ascending (post ++ zs))
    (hstart : ∀ s ∈ post, first.now ≤ s.now) (ht : ∀ s ∈ post, s.now ≤ t) :
    Lapsing P a first.now post last := by
  induction h generalizing zs with
  | nil => exact hfirst
  | @snoc log c r now call o hlog hperform ih =>
    have hturns := (hlog.sound hsound).1.turns hperform
    have hlast : (⟨r, now, call, c, o⟩ : Step α) ∈ log ++ [⟨r, now, call, c, o⟩] :=
      List.mem_append_right _ List.mem_cons_self
    rw [List.append_assoc] at hticks hascending
    have hbefore := ih (fun s hs => hlater s (List.mem_append_left _ hs)) hticks hascending
      (fun s hs => hstart s (List.mem_append_left _ hs))
      fun s hs => ht s (List.mem_append_left _ hs)
    obtain ⟨hconfirms, hpins⟩ := hlater _ hlast
    exact Lapsing.snoc (s := ⟨r, now, call, c, o⟩) hbefore hturns hconfirms hpins hticks hascending
      (hstart _ hlast) (ht _ hlast)

/-- A binding that is not confirmed any more stops being used in bounded time. If the step `first`
confirms the binding of `a` and no later one confirms or pins it, stamps ascend, and ticks are at
most `P` apart until the stamp of a packet for `a`, then the packet is not answered with a link
address once the reachable, stale and delay times, the waits after all probes and three periods more
than there are probes have passed since `first`. -/
theorem binding_lapses {cfg : Config} {start : Nat} {pre : List (Step α)} {s : Step α} {packet : α}
    (h : History (Cache.create cfg start : Outcome α Unit).cache
      (pre ++ first :: (post ++ [s])) last)
    (hconfirms : first.Confirms a)
    (hlater : ∀ x ∈ post, ¬ x.Confirms a ∧ ∀ mac, ¬ x.Pins a mac)
    (hascending : Ascending (first :: (post ++ [s])))
    (hticks : TicksUntil P first.now s.now post) (hcall : s.call = .resolve a packet)
    (hlate : first.now + cfg.reachable.nanos + cfg.stale.nanos + cfg.delay.nanos +
      ∑ k ∈ Finset.Icc 1 cfg.maxProbes, (cfg.retry.delay k).nanos + (cfg.maxProbes + 3) * P < s.now)
    (mac : Mac) (evicted : Option Evicted) :
    s.outcome.answer ≠ .resolution (.resolved mac) evicted := by
  intro hanswer
  obtain ⟨hcreate, hcfg⟩ := Cache.create_sound (α := α) cfg start
  obtain ⟨hpre, hperform, hrest⟩ := h.before
  have hsound := (hpre.sound hcreate).1
  have hturns := hsound.turns hperform
  obtain ⟨hpost, hperform', _⟩ := hrest.before
  obtain ⟨hlast, hconfig⟩ := hpost.sound (hsound.perform hperform)
  have hafter := List.pairwise_cons.mp hascending
  have hsorted := List.pairwise_append.mp hafter.2
  have hlapsing : Lapsing P a first.now post s.before := by
    rw [← List.append_nil post] at hticks
    refine hpost.lapsing (hsound.perform hperform) (lapsing_of_confirms hturns hconfirms) hlater
      hticks ?_ ?_ ?_
    · rw [List.append_nil]
      exact hsorted.1
    · exact fun x hx => hafter.1 x (List.mem_append_left _ hx)
    · exact fun x hx => hsorted.2.2 x hx s List.mem_cons_self
  have hcfg' : s.before.config = cfg := by
    rw [hconfig, hturns.config_eq, (hpre.sound hcreate).2, hcfg]
  obtain ⟨items, _, hturn⟩ := (hlast.turns hperform').turns
  obtain ⟨e, hfind, hmac⟩ := (hturn a).mac?_of_resolved hcall hanswer
  obtain ⟨d, hlapses⟩ := hlapsing e hfind (by rw [hmac]; nofun)
  have hstart := hlapses.start_le
  have hbound := hlapses.bound
  have hprobes := (hlast.of_find? hfind).probes_le
  rw [hcfg'] at hbound hprobes
  have hallowance := cfg.allowance_le (P := P) e.state hprobes
  change _ + cfg.retry.total cfg.maxProbes + _ < s.now at hlate
  obtain ⟨x, hx, htick, hover, _⟩ := hticks d hstart (by omega)
  have hearly := hlapses.ticks_le x hx htick
  omega

/-- A binding that is used while stale and never confirmed again, with ticks ten nanoseconds apart.
-/
def neglect : List (Nat × Call Nat) :=
  [(0, .observe ⟨10, 0, 0, 1⟩ ⟨2, 0, 0, 0, 0, 1⟩), (10, .tick), (15, .resolve ⟨10, 0, 0, 1⟩ 7),
    (20, .tick), (30, .tick), (40, .tick), (50, .tick), (60, .tick), (70, .tick),
    (76, .resolve ⟨10, 0, 0, 1⟩ 8)]

/-- After more than seventy-five nanoseconds the address does not resolve. -/
theorem binding_lapses_of_neglect :
    ∃ x ∈ Cache.briefTrace neglect, ∃ s ∈ x.1.getLast?, s.call = .resolve ⟨10, 0, 0, 1⟩ 8 ∧
      s.now = 76 ∧ ∀ mac evicted, s.outcome.answer ≠ .resolution (.resolved mac) evicted := by
  have hneglect : ∃ x ∈ Cache.briefTrace neglect, ∃ first ∈ x.1.head?, ∃ s ∈ x.1.tail.getLast?,
      (first.now = 0 ∧ s.now = 76 ∧ s.call = .resolve ⟨10, 0, 0, 1⟩ 8) ∧
      (first.call.evidence? first.before = some (⟨10, 0, 0, 1⟩, ⟨2, 0, 0, 0, 0, 1⟩) ∧
        first.before.learns first.now ⟨10, 0, 0, 1⟩ ⟨2, 0, 0, 0, 0, 1⟩ = true) ∧
      (∀ t ∈ x.1.tail.dropLast, t.Neglects ⟨10, 0, 0, 1⟩) ∧ Ascending x.1 ∧
      (0 :: (tickStamps x.1.tail.dropLast ++ [76])).IsChain fun v w => w ≤ v + 10 := by
    decide +kernel
  obtain ⟨⟨log, last⟩, hx, first, hfirst, s, hs, ⟨hstart, hend, hcall⟩, htold, hquiet, hascending,
    hgaps⟩ := hneglect
  obtain ⟨rest, rfl⟩ := List.head?_eq_some_iff.mp hfirst
  obtain ⟨post, rfl⟩ := List.getLast?_eq_some_iff.mp hs
  have hlog : History _ ([] ++ first :: (post ++ [s])) last := (Cache.history_of_trace hx).1
  rw [List.tail_cons, List.dropLast_concat] at hquiet hgaps
  refine ⟨_, hx, s, ?_, hcall, hend, ?_⟩
  · rw [← List.cons_append]
    exact List.getLast?_concat
  · refine binding_lapses (P := 10) hlog (.inl ⟨_, .inl htold⟩)
      (fun t ht => (hquiet t ht).unconfirmed) hascending ?_ hcall ?_
    · rw [hstart, hend]
      exact ticksUntil_of_gaps hgaps
    · rw [hstart, hend]
      decide

end History

end Neighbor
