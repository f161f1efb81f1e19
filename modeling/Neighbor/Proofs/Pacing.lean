import Mathlib.Algebra.BigOperators.Intervals
import Neighbor.Proofs.Quest
import Neighbor.Proofs.Ticking

/-!
# Budget and pace of probes

A quest sends at most the configured number of probes, each no sooner after the one before than the
backoff says, and gives up no sooner than the waits after all probes add up to. If ticks come often
enough it is over soon after. All of it follows from one invariant of the steps of a quest: its
deadline is the wait after its last probe.
-/

namespace Neighbor

variable {α : Type}

/-- The waits after the first `n` probes together, in nanoseconds. -/
def Backoff.total (b : Backoff) (n : Nat) : Nat := ∑ k ∈ Finset.Icc 1 n, (b.delay k).nanos

/-- The waits after one more probe last longer by the wait after that. -/
theorem Backoff.total_succ (b : Backoff) (n : Nat) :
    b.total (n + 1) = b.total n + (b.delay (n + 1)).nanos := by
  unfold total
  rw [Finset.sum_Icc_succ_top (by omega)]

/-- The waits after more probes last no less. -/
theorem Backoff.total_mono (b : Backoff) {m n : Nat} (h : m ≤ n) : b.total m ≤ b.total n := by
  induction h with
  | refl => exact Nat.le_refl _
  | step _ ih =>
    rw [total_succ]
    omega

/-- How many probes of a quest for `a` a step sends. -/
def Step.asked (q : Quest) (a : Address) (s : Step α) : Nat := q.asked a s.outcome.sent

/-- The stamps of the probes of a quest for `a`, one for each probe. -/
def stamps (q : Quest) (a : Address) (steps : List (Step α)) : List Nat :=
  steps.flatMap fun s => List.replicate (s.asked q a) s.now

/-- A step adds its stamp for each probe that it sends. -/
theorem stamps_snoc {q : Quest} {a : Address} {steps : List (Step α)} {s : Step α} :
    stamps q a (steps ++ [s]) = stamps q a steps ++ List.replicate (s.asked q a) s.now := by
  simp [stamps]

/-- Each stamp is at least as much later than the one before as the backoff says. -/
def Backoff.Spaces (b : Backoff) (ts : List Nat) : Prop :=
  ∀ k t u, ts[k]? = some t → ts[k + 1]? = some u → t + (b.delay (k + 1)).nanos ≤ u

/-- Probes stay spaced if one more is sent after the wait since the last one. -/
theorem Backoff.Spaces.snoc {b : Backoff} {ts : List Nat} {t u : Nat} (h : b.Spaces ts)
    (hlast : ts.getLast? = some t) (hu : t + (b.delay ts.length).nanos ≤ u) :
    b.Spaces (ts ++ [u]) := by
  intro k x y hx hy
  have hlength := (List.getElem?_eq_some_iff.mp hy).1
  rw [List.length_append, List.length_singleton] at hlength
  rw [List.getElem?_append_left (by omega)] at hx
  by_cases hk : k + 1 < ts.length
  · rw [List.getElem?_append_left hk] at hy
    exact h k x y hx hy
  · have hk : k + 1 = ts.length := by omega
    rw [List.getLast?_eq_getElem?, ← hk, Nat.add_sub_cancel, hx] at hlast
    rw [hk, List.getElem?_concat_length] at hy
    cases hlast
    cases hy
    rw [hk]
    exact hu

section Steps

variable {q : Quest} {a : Address} {t₀ : Nat} {steps : List (Step α)} {s : Step α} {e e' : Entry α}

/-- A turn sends the probes for an address in the share of that address. -/
theorem asked_items {r : Responder} {c : Cache α} {now : Nat} {call : Call α} {answer : Answer}
    {items : List (Address × Outbound α)} {after : Address → Option (Entry α)}
    (h : ∀ a, Turn r c now a call answer (after a) (share a items)) :
    q.asked a (items.map (·.2)) = q.asked a (share a items) := by
  apply Quest.asked_share
  intro x hx b htarget
  refine (h x.1).target ?_ htarget
  exact List.mem_map.mpr ⟨x, List.mem_filter.mpr ⟨hx, by simp⟩, rfl⟩

/-- One step takes an entry on a quest one stride further. -/
theorem stride_of_turns (hturns : Turns s.responder s.before s.now s.call s.outcome)
    (hfind : s.before.store.find? a = some e) (hstate : e.state = q.state) :
    Stride s.before.config q s.now s.call e (s.outcome.cache.store.find? a) (s.asked q a) := by
  obtain ⟨items, hitems, hturn⟩ := hturns.turns
  unfold Step.asked
  rw [← hitems, asked_items hturn]
  exact (hturn a).stride hfind hstate

/-- The invariant of a quest that began at `t₀`: the probes sent are counted and spaced, and the
deadline is the wait after the last one. -/
structure Underway (q : Quest) (a : Address) (t₀ : Nat) (steps : List (Step α)) (c : Cache α)
    (e : Entry α) : Prop where
  found : c.store.find? a = some e
  state_eq : e.state = q.state
  length_eq : (stamps q a steps).length = e.probes
  spaces : c.config.retry.Spaces (stamps q a steps)
  due : ∃ t, (stamps q a steps).getLast? = some t ∧
    e.deadline = some (t + (c.config.retry.delay e.probes).nanos) ∧
    t₀ + c.config.retry.total (e.probes - 1) ≤ t

/-- What a step of a quest leaves: at most one probe more, sent by a tick, within the budget and in
time; and failure only after all waits are over. -/
structure Strides (q : Quest) (a : Address) (t₀ : Nat) (steps : List (Step α)) (s : Step α)
    (e : Entry α) : Prop where
  asked_le : s.asked q a ≤ 1
  silent : s.call ≠ .tick → s.asked q a = 0
  budget : (stamps q a (steps ++ [s])).length ≤ s.before.config.maxProbes
  spaces : s.before.config.retry.Spaces (stamps q a (steps ++ [s]))
  failed : ∀ e', s.outcome.cache.store.find? a = some e' → e'.state = .failed →
    s.call = .tick ∧ (stamps q a (steps ++ [s])).length = s.before.config.maxProbes ∧
      t₀ + s.before.config.retry.total s.before.config.maxProbes ≤ s.now
  goes_on : ∀ e', s.outcome.cache.store.find? a = some e' → e'.state = q.state →
    e'.generation = e.generation ∧ Underway q a t₀ (steps ++ [s]) s.outcome.cache e'

/-- No failed entry is on a quest. -/
theorem Quest.state_ne_failed : q.state ≠ .failed := by
  cases q <;> nofun

/-- No reachable entry is on a quest. -/
theorem Quest.state_ne_reachable : q.state ≠ .reachable := by
  cases q <;> nofun

/-- An entry on a quest has sent a probe and no more than the budget. -/
theorem Entry.Sound.probes_bounds {cfg : Config} (h : e.Sound cfg) (hstate : e.state = q.state) :
    1 ≤ e.probes ∧ e.probes ≤ cfg.maxProbes := by
  apply h.probes
  rw [hstate]
  cases q
  · exact .inl rfl
  · exact .inr rfl

/-- A step that sends no probe adds no stamp. -/
theorem stamps_of_silent (h : s.asked q a = 0) : stamps q a (steps ++ [s]) = stamps q a steps := by
  rw [stamps_snoc, h, List.replicate_zero, List.append_nil]

/-- A step that sends one probe adds its stamp. -/
theorem stamps_of_asked (h : s.asked q a = 1) :
    stamps q a (steps ++ [s]) = stamps q a steps ++ [s.now] := by
  rw [stamps_snoc, h, List.replicate_one]

namespace Underway

/-- A quest goes on as it was through a step that does not touch its entry. -/
theorem rested (h : Underway q a t₀ steps s.before e)
    (hconfig : s.outcome.cache.config = s.before.config) (hnone : s.asked q a = 0)
    (hafter : s.outcome.cache.store.find? a = some e') (halike : e.Alike e') :
    Underway q a t₀ (steps ++ [s]) s.outcome.cache e' := by
  obtain ⟨t, hlast, hdeadline, hlate⟩ := h.due
  refine ⟨hafter, halike.state_eq.trans h.state_eq, ?_, ?_, t, ?_, ?_, ?_⟩
  · rw [stamps_of_silent hnone, h.length_eq, halike.probes_eq]
  · rw [stamps_of_silent hnone, hconfig]
    exact h.spaces
  · rw [stamps_of_silent hnone]
    exact hlast
  · rw [halike.deadline_eq, halike.probes_eq, hconfig]
    exact hdeadline
  · rw [halike.probes_eq, hconfig]
    exact hlate

/-- The next probe keeps its distance to the last one. -/
theorem spaces_of_due (h : Underway q a t₀ steps s.before e) (hone : s.asked q a = 1)
    (hdue : e.isDue s.now = true) :
    s.before.config.retry.Spaces (stamps q a (steps ++ [s])) := by
  obtain ⟨t, hlast, hdeadline, _⟩ := h.due
  have hnow := Entry.le_of_isDue hdue hdeadline
  rw [stamps_of_asked hone]
  apply h.spaces.snoc hlast
  rw [h.length_eq]
  exact hnow

/-- The waits before a due probe are over. -/
theorem total_le_of_due (h : Underway q a t₀ steps s.before e) (hpos : 1 ≤ e.probes)
    (hdue : e.isDue s.now = true) : t₀ + s.before.config.retry.total e.probes ≤ s.now := by
  obtain ⟨t, _, hdeadline, hlate⟩ := h.due
  have hnow := Entry.le_of_isDue hdue hdeadline
  have htotal := s.before.config.retry.total_succ (e.probes - 1)
  rw [Nat.sub_add_cancel hpos] at htotal
  omega

/-- A quest goes on with the next probe. -/
theorem probed (h : Underway q a t₀ steps s.before e)
    (hconfig : s.outcome.cache.config = s.before.config) (hpos : 1 ≤ e.probes)
    (hone : s.asked q a = 1) (hdue : e.isDue s.now = true)
    (hafter : s.outcome.cache.store.find? a = some e') (hstate : e'.state = q.state)
    (hprobes : e'.probes = e.probes + 1)
    (hdeadline : e'.deadline =
      some (s.now + (s.before.config.retry.delay (e.probes + 1)).nanos)) :
    Underway q a t₀ (steps ++ [s]) s.outcome.cache e' := by
  refine ⟨hafter, hstate, ?_, ?_, s.now, ?_, ?_, ?_⟩
  · rw [stamps_of_asked hone, List.length_append, h.length_eq, hprobes, List.length_singleton]
  · rw [hconfig]
    exact h.spaces_of_due hone hdue
  · rw [stamps_of_asked hone, List.getLast?_concat]
  · rw [hdeadline, hprobes, hconfig]
  · rw [hprobes, hconfig, Nat.add_sub_cancel]
    exact h.total_le_of_due hpos hdue

/-- A step that sends no probe leaves budget and pace as they were. -/
theorem strides_of_silent (h : Underway q a t₀ steps s.before e)
    (hbudget : e.probes ≤ s.before.config.maxProbes) (hnone : s.asked q a = 0)
    (hfailed : ∀ e', s.outcome.cache.store.find? a = some e' → e'.state = .failed →
      s.call = .tick ∧ e.probes = s.before.config.maxProbes ∧
        t₀ + s.before.config.retry.total s.before.config.maxProbes ≤ s.now)
    (hgoes : ∀ e', s.outcome.cache.store.find? a = some e' → e'.state = q.state →
      e'.generation = e.generation ∧ Underway q a t₀ (steps ++ [s]) s.outcome.cache e') :
    Strides q a t₀ steps s e := by
  refine ⟨by omega, fun _ => hnone, ?_, ?_, ?_, hgoes⟩
  · rw [stamps_of_silent hnone, h.length_eq]
    exact hbudget
  · rw [stamps_of_silent hnone]
    exact h.spaces
  · rw [stamps_of_silent hnone, h.length_eq]
    exact hfailed

/-- Every step of a quest keeps its invariant. -/
theorem strides (h : Underway q a t₀ steps s.before e) (hsound : s.before.Sound)
    (hturns : Turns s.responder s.before s.now s.call s.outcome) : Strides q a t₀ steps s e := by
  obtain ⟨hpos, hbudget⟩ := (hsound.of_find? h.found).probes_bounds h.state_eq
  have hconfig := hturns.config_eq
  have hstride := stride_of_turns hturns h.found h.state_eq
  generalize hn : s.asked q a = n at hstride
  cases hstride with
  | rested hafter halike =>
    refine h.strides_of_silent hbudget hn (fun e' he' hfailed => ?_) fun e' he' _ => ?_
    · cases hafter.symm.trans he'
      rw [halike.state_eq, h.state_eq] at hfailed
      exact absurd hfailed Quest.state_ne_failed
    · cases hafter.symm.trans he'
      exact ⟨halike.generation_eq, h.rested hconfig hn hafter halike⟩
  | probed hcall hdue hleft hafter hgeneration hstate =>
    refine ⟨by omega, fun hquiet => absurd hcall hquiet, ?_, h.spaces_of_due hn hdue,
      fun e' he' hfailed => ?_, fun e' he' hstate' => ?_⟩
    · rw [stamps_of_asked hn, List.length_append, h.length_eq]
      exact hleft
    · cases hafter.symm.trans he'
      rcases hstate with ⟨hsame, _⟩ | hreachable
      · exact absurd (hsame.symm.trans hfailed) Quest.state_ne_failed
      · cases hreachable.symm.trans hfailed
    · cases hafter.symm.trans he'
      rcases hstate with ⟨_, hprobes, hdeadline⟩ | hreachable
      · exact ⟨hgeneration, h.probed hconfig hpos hn hdue hafter hstate' hprobes hdeadline⟩
      · exact absurd (hstate'.symm.trans hreachable) Quest.state_ne_reachable
  | gaveUp hcall hdue hspent hafter hfailed =>
    have hprobes : e.probes = s.before.config.maxProbes := Nat.le_antisymm hbudget hspent
    refine h.strides_of_silent hbudget hn (fun _ _ _ => ⟨hcall, hprobes, ?_⟩)
      fun e' he' hstate => ?_
    · rw [← hprobes]
      exact h.total_le_of_due hpos hdue
    · cases hafter.symm.trans he'
      exact absurd (hstate.symm.trans hfailed) Quest.state_ne_failed
  | ended hafter =>
    refine h.strides_of_silent hbudget hn (fun e' he' hfailed => ?_) fun e' he' hstate => ?_
    · cases (hafter e' he').symm.trans hfailed
    · exact absurd (hstate.symm.trans (hafter e' he')) Quest.state_ne_reachable

end Underway

/-- A quest that begins is under way with its first probe. -/
theorem underway_of_begins (hturns : Turns s.responder s.before s.now s.call s.outcome)
    (hfind : s.outcome.cache.store.find? a = some e) (hstate : e.state = q.state)
    (hbefore : ¬ s.before.Pursues q a e.generation) :
    s.asked q a = 1 ∧ q.Prompts s.before a e.generation s.call ∧
      Underway q a s.now [s] s.outcome.cache e := by
  obtain ⟨items, hitems, hturn⟩ := hturns.turns
  obtain ⟨hprobes, hdeadline, hasked, hprompts⟩ := (hturn a).begins hfind hstate
    fun old hold hgeneration hsame => hbefore ⟨old, hold, hgeneration, hsame⟩
  have hone : s.asked q a = 1 := by
    unfold Step.asked
    rw [← hitems, asked_items hturn]
    exact hasked
  have hstamps : stamps q a [s] = [s.now] := by simp [stamps, hone]
  refine ⟨hone, hprompts, hfind, hstate, ?_, ?_, s.now, ?_, ?_, ?_⟩
  · rw [hstamps, hprobes]
    rfl
  · rw [hstamps]
    intro k t u _ hu
    cases hu
  · rw [hstamps]
    rfl
  · rw [hdeadline, hprobes, hturns.config_eq]
  · rw [hprobes]
    exact Nat.le_refl _

end Steps

/-- What the budget and the pace of a quest say: it begins with the step `first`, goes on through
the steps `post` and leaves the cache `last`. -/
structure Paced (q : Quest) (a : Address) (first : Step α) (post : List (Step α)) (last : Cache α) :
    Prop where
  /-- The quest begins with one probe. -/
  asked_first : first.asked q a = 1
  /-- No step sends more than one. -/
  asked_le : ∀ s ∈ post, s.asked q a ≤ 1
  /-- Only ticks send any. -/
  silent : ∀ s ∈ post, s.call ≠ .tick → s.asked q a = 0
  /-- All probes are within the budget. -/
  budget : (stamps q a (first :: post)).length ≤ last.config.maxProbes
  /-- An entry that is still on the quest counts the probes. -/
  counted : ∀ e, last.store.find? a = some e → e.state = q.state →
    e.probes = (stamps q a (first :: post)).length
  /-- Each probe keeps its distance to the one before. -/
  spaces : last.config.retry.Spaces (stamps q a (first :: post))
  /-- Only a tick gives up, after all probes and all waits. -/
  failed : ∀ s e, post.getLast? = some s → last.store.find? a = some e → e.state = .failed →
    s.call = .tick ∧ (stamps q a (first :: post)).length = last.config.maxProbes ∧
      first.now + last.config.retry.total last.config.maxProbes ≤ s.now

section Runs

variable {q : Quest} {a : Address} {g : Nat} {first s : Step α} {post : List (Step α)}
  {last : Cache α} {e : Entry α}

/-- A quest that goes on with one more step stays paced. -/
theorem Paced.snoc (h : Paced q a first post s.before)
    (hconfig : s.outcome.cache.config = s.before.config)
    (hstrides : Strides q a first.now (first :: post) s e) :
    Paced q a first (post ++ [s]) s.outcome.cache := by
  refine ⟨h.asked_first, ?_, ?_, ?_, fun e' he' hstate => ?_, ?_, fun t e' ht he' hfailed => ?_⟩
  · rw [List.forall_mem_append]
    exact ⟨h.asked_le, List.forall_mem_singleton.mpr hstrides.asked_le⟩
  · rw [List.forall_mem_append]
    exact ⟨h.silent, List.forall_mem_singleton.mpr hstrides.silent⟩
  · rw [hconfig]
    exact hstrides.budget
  · exact (hstrides.goes_on e' he' hstate).2.length_eq.symm
  · rw [hconfig]
    exact hstrides.spaces
  · rw [List.getLast?_concat] at ht
    cases ht
    rw [hconfig]
    exact hstrides.failed e' he' hfailed

/-- A quest that has just begun is paced. -/
theorem Underway.paced (h : Underway q a first.now [first] last e) (hsound : last.Sound)
    (hfirst : first.asked q a = 1) : Paced q a first [] last := by
  refine ⟨hfirst, List.forall_mem_nil _, List.forall_mem_nil _, ?_, fun e' he' _ => ?_, h.spaces,
    fun s e' hs => ?_⟩
  · rw [h.length_eq]
    exact ((hsound.of_find? h.found).probes_bounds h.state_eq).2
  · cases h.found.symm.trans he'
    exact h.length_eq.symm
  · cases hs

/-- A quest is paced, and under way as long as it goes on. -/
theorem History.paced (h : History first.outcome.cache post last)
    (hsound : first.outcome.cache.Sound) (hfirst : first.asked q a = 1)
    (hunderway : ∃ e, e.generation = g ∧ Underway q a first.now [first] first.outcome.cache e)
    (hphase : ∀ s ∈ post, s.before.Pursues q a g) :
    Paced q a first post last ∧ (last.Pursues q a g →
      ∃ e, e.generation = g ∧ Underway q a first.now (first :: post) last e) := by
  induction h with
  | nil =>
    obtain ⟨e, hgeneration, hfound⟩ := hunderway
    exact ⟨hfound.paced hsound hfirst, fun _ => ⟨e, hgeneration, hfound⟩⟩
  | @snoc log c r now call o hlog hperform ih =>
    obtain ⟨hpaced, hgoes⟩ := ih fun s hs => hphase s (List.mem_append_left _ hs)
    obtain ⟨e, hgeneration, hfound⟩ := hgoes (hphase _ (List.mem_append_right _ List.mem_cons_self))
    have hc := (hlog.sound hsound).1
    have hturns := hc.turns hperform
    have hstrides : Strides q a first.now (first :: log) ⟨r, now, call, c, o⟩ e :=
      hfound.strides hc hturns
    refine ⟨hpaced.snoc (s := ⟨r, now, call, c, o⟩) hturns.config_eq hstrides, ?_⟩
    rintro ⟨e', he', hsame, hstate⟩
    exact ⟨e', hsame, (hstrides.goes_on e' he' hstate).2⟩

/-- A search that goes on has gone on since it began. -/
theorem History.searching (h : History first.outcome.cache post last)
    (hsound : first.outcome.cache.Sound) (hold : g < first.outcome.cache.store.nextGeneration)
    (hlast : last.Pursues .find a g) : ∀ s ∈ post, s.before.Pursues .find a g := by
  induction h with
  | nil => exact List.forall_mem_nil _
  | @snoc log c r now call o hlog hperform ih =>
    have hc := (hlog.sound hsound).1
    have hturns := hc.turns hperform
    have hnext := hlog.nextGeneration_le hsound
    obtain ⟨e, hfind, rfl, hstate⟩ := hlast
    have hbefore : c.Pursues .find a e.generation := by
      -- a search that began only now would have a newer generation than `first` left behind
      by_cases hpursues : c.Pursues .find a e.generation
      · exact hpursues
      · obtain ⟨_, ⟨_, hnew⟩, _⟩ := underway_of_begins (s := ⟨r, now, call, c, o⟩) hturns hfind
          hstate hpursues
        change e.generation = c.store.nextGeneration at hnew
        omega
    rw [List.forall_mem_append]
    exact ⟨ih hbefore, List.forall_mem_singleton.mpr hbefore⟩

/-- A quest that is in time: even if every tick so far came as late as ticks `P` apart can, its
deadline is no later than this, and no tick has come after it. -/
structure Timely (b : Backoff) (P t₀ : Nat) (steps : List (Step α)) (e : Entry α) (d : Nat) :
    Prop where
  deadline_eq : e.deadline = some d
  start_add_le : t₀ + (b.delay e.probes).nanos ≤ d
  bound : d + P ≤ t₀ + b.total e.probes + e.probes * P
  ticks_le : ∀ s ∈ steps, s.call = .tick → s.now ≤ d
  ticks_lt : 0 < (b.delay e.probes).nanos → ∀ s ∈ steps, s.call = .tick → s.now < d

namespace Timely

variable {b : Backoff} {P t₀ t d : Nat} {xs ys : List (Step α)} {e' : Entry α}

/-- A quest stays in time through a step that does not touch its entry. -/
theorem rested (h : Timely b P t₀ xs e d) (halike : e.Alike e')
    (hearly : s.call = .tick → s.now < d) : Timely b P t₀ (xs ++ [s]) e' d := by
  refine ⟨halike.deadline_eq.trans h.deadline_eq, ?_, ?_, ?_, ?_⟩
  · rw [halike.probes_eq]
    exact h.start_add_le
  · rw [halike.probes_eq]
    exact h.bound
  · rw [List.forall_mem_append]
    exact ⟨h.ticks_le, List.forall_mem_singleton.mpr fun htick => Nat.le_of_lt (hearly htick)⟩
  · intro hpos
    rw [halike.probes_eq] at hpos
    rw [List.forall_mem_append]
    exact ⟨h.ticks_lt hpos, List.forall_mem_singleton.mpr hearly⟩

/-- A quest stays in time with a probe that is sent at most a period after it is due. -/
theorem probed (h : Timely b P t₀ xs e d) (hnow : d ≤ s.now) (hontime : s.now ≤ d + P)
    (hbefore : ∀ x ∈ xs ++ [s], x.now ≤ s.now) (hprobes : e'.probes = e.probes + 1)
    (hdeadline : e'.deadline = some (s.now + (b.delay (e.probes + 1)).nanos)) :
    Timely b P t₀ (xs ++ [s]) e' (s.now + (b.delay (e.probes + 1)).nanos) := by
  have hstart := h.start_add_le
  have hbound := h.bound
  refine ⟨hdeadline, ?_, ?_, fun x hx _ => ?_, fun hpos x hx _ => ?_⟩
  · rw [hprobes]
    omega
  · rw [hprobes, Backoff.total_succ, Nat.add_mul, Nat.one_mul]
    omega
  · have hearlier := hbefore x hx
    omega
  · have hearlier := hbefore x hx
    rw [hprobes] at hpos
    omega

/-- A step that a quest survives keeps it in time. -/
theorem snoc (h : Timely s.before.config.retry P t₀ xs e d)
    (hstride : Stride s.before.config q s.now s.call e (some e') (s.asked q a))
    (hstate : e'.state = q.state) (hticks : TicksUntil P t₀ t (xs ++ s :: ys))
    (hascending : Ascending (xs ++ s :: ys)) (hs : s.now ≤ t) :
    ∃ d', Timely s.before.config.retry P t₀ (xs ++ [s]) e' d' := by
  have hstart := h.start_add_le
  generalize s.asked q a = n at hstride
  cases hstride with
  | rested hafter halike hcall =>
    cases hafter
    exact ⟨d, h.rested halike fun htick => Entry.lt_of_not_isDue (hcall htick) h.deadline_eq⟩
  | probed hcall hdue hleft hafter hgeneration hcases =>
    cases hafter
    rcases hcases with ⟨_, hprobes, hdeadline⟩ | hreachable
    · have hontime := on_time hticks hascending hs (by omega) h.ticks_le
      exact ⟨_, h.probed (Entry.le_of_isDue hdue h.deadline_eq) hontime hascending.le_of_mem hprobes
        hdeadline⟩
    · exact absurd (hstate.symm.trans hreachable) Quest.state_ne_reachable
  | gaveUp _ _ _ hafter hfailed =>
    cases hafter
    exact absurd (hstate.symm.trans hfailed) Quest.state_ne_failed
  | ended hafter => exact absurd (hstate.symm.trans (hafter e' rfl)) Quest.state_ne_reachable

end Timely

/-- If ticks are at most `P` apart, a quest that goes on is in time. -/
theorem History.timely {P t : Nat} {zs : List (Step α)} (h : History first.outcome.cache post last)
    (hsound : first.outcome.cache.Sound) (hfirst : first.asked q a = 1)
    (hunderway : ∃ e, e.generation = g ∧ Underway q a first.now [first] first.outcome.cache e)
    (hphase : ∀ s ∈ post, s.before.Pursues q a g) (hlast : last.Pursues q a g)
    (hticks : TicksUntil P first.now t (post ++ zs)) (hascending : Ascending (post ++ zs))
    (ht : ∀ s ∈ post, s.now ≤ t) :
    ∃ e d, last.store.find? a = some e ∧ e.state = q.state ∧
      Timely last.config.retry P first.now post e d := by
  induction h generalizing zs with
  | nil =>
    obtain ⟨e, _, hfound⟩ := hunderway
    have hstamps : stamps q a [first] = [first.now] := by simp [stamps, hfirst]
    have hprobes := hfound.length_eq
    obtain ⟨u, hu, hdeadline, _⟩ := hfound.due
    rw [hstamps] at hprobes hu
    cases hu
    rw [← hprobes] at hdeadline
    refine ⟨e, _, hfound.found, hfound.state_eq, hdeadline, ?_, ?_, List.forall_mem_nil _,
      fun _ => List.forall_mem_nil _⟩
    · rw [← hprobes]
      exact Nat.le_refl _
    · rw [← hprobes]
      simp [Backoff.total_succ]
  | @snoc log c r now call o hlog hperform ih =>
    have hc := (hlog.sound hsound).1
    have hturns := hc.turns hperform
    rw [List.append_assoc] at hticks hascending
    obtain ⟨e, d, hfind, hstate, htimely⟩ := ih (fun s hs => hphase s (List.mem_append_left _ hs))
      (hphase _ (List.mem_append_right _ List.mem_cons_self)) hticks hascending
      fun s hs => ht s (List.mem_append_left _ hs)
    obtain ⟨e', hfind', _, hstate'⟩ := hlast
    have hstride := stride_of_turns (s := ⟨r, now, call, c, o⟩) hturns hfind hstate
    rw [show o.cache.store.find? a = some e' from hfind'] at hstride
    obtain ⟨d', htimely'⟩ := htimely.snoc (s := ⟨r, now, call, c, o⟩) hstride hstate' hticks
      hascending (ht _ (List.mem_append_right _ List.mem_cons_self))
    rw [hturns.config_eq]
    exact ⟨e', d', hfind', hstate', htimely'⟩

/-- The latest time at which a quest may be under way if ticks are `P` apart. -/
theorem Backoff.sum_add_period (b : Backoff) (n P : Nat) :
    ∑ k ∈ Finset.Icc 1 n, ((b.delay k).nanos + P) = b.total n + n * P := by
  rw [Finset.sum_add_distrib, Finset.sum_const, Nat.card_Icc, Nat.add_sub_cancel]
  rfl

/-- A quest in time is over once all its waits and as many periods have passed and a tick has seen
that. -/
theorem Timely.not_late {b : Backoff} {P t₀ t d M : Nat} {steps : List (Step α)} {e : Entry α}
    (h : Timely b P t₀ steps e d) (hM : e.probes ≤ M)
    (hticks : TicksUntil P t₀ (t + 1) steps ∨ TicksUntil P t₀ t steps ∧ 0 < (b.delay M).nanos) :
    t < t₀ + b.total M + M * P := by
  have hbound := h.bound
  have hstart := h.start_add_le
  have htotal := b.total_mono hM
  have hperiods := Nat.mul_le_mul_right P hM
  apply Nat.lt_of_not_le
  intro hlate
  rcases hticks with hticks | ⟨hticks, hpos⟩
  · obtain ⟨s, hs, htick, hafter, _⟩ := hticks d (by omega) (by omega)
    have := h.ticks_le s hs htick
    omega
  · -- before the last probe a whole wait is left; after it the wait that is not zero is
    by_cases hlast : e.probes = M
    · rw [hlast] at hstart
      obtain ⟨s, hs, htick, hafter, _⟩ := hticks (d - 1) (by omega) (by omega)
      have := h.ticks_lt (hlast ▸ hpos) s hs htick
      omega
    · have hless : b.total e.probes ≤ b.total (M - 1) := b.total_mono (by omega)
      have hsucc := b.total_succ (M - 1)
      rw [Nat.sub_add_cancel (by omega)] at hsucc
      obtain ⟨s, hs, htick, hafter, _⟩ := hticks d (by omega) (by omega)
      have := h.ticks_le s hs htick
      omega

/-- Budget and pace of probes. The step `first` of a history puts the entry of `a` with generation
`g` on a quest. For a search it is the packet that makes the entry, for a check the tick that finds
the delay over. No other packet sends a probe for the entry, a search that goes on has gone on since
it began, and a quest that goes on through the steps `post` is paced. If stamps ascend up to `t` and
ticks are at most `P` apart, the quest is over once all waits and as many periods have passed; ticks
count as `P` apart up to `t` if each stretch of length `P` that is over by `t` has one, and one that
ends before `t` is enough if the last wait is not zero. -/
theorem quest_pacing {cfg : Config} {start : Nat} {pre : List (Step α)}
    (h : History (Cache.create cfg start : Outcome α Unit).cache (pre ++ first :: post) last)
    (hbefore : ¬ first.before.Pursues q a g) (hafter : first.outcome.cache.Pursues q a g) :
    q.Prompts first.before a g first.call ∧
    (∀ s ∈ pre ++ first :: post, ∀ b packet, s.call = .resolve b packet → s.asked q a ≠ 0 →
      q = .find ∧ s.asked q a = 1 ∧ ∃ e, s.outcome.cache.store.find? a = some e ∧
        e.generation = s.before.store.nextGeneration) ∧
    (q = .find → last.Pursues q a g → ∀ s ∈ post, s.before.Pursues q a g) ∧
    ((∀ s ∈ post, s.before.Pursues q a g) → Paced q a first post last ∧ last.config = cfg) ∧
    ∀ P t, (q = .find ∨ ∀ s ∈ post, s.before.Pursues q a g) →
      Ascending (first :: post) → (∀ s ∈ post, s.now ≤ t) →
      TicksUntil P first.now (t + 1) post ∨
        TicksUntil P first.now t post ∧ 0 < (cfg.retry.delay cfg.maxProbes).nanos →
      first.now + ∑ k ∈ Finset.Icc 1 cfg.maxProbes, ((cfg.retry.delay k).nanos + P) ≤ t →
      ¬ last.Pursues q a g := by
  obtain ⟨hcreate, hcfg⟩ := Cache.create_sound (α := α) cfg start
  obtain ⟨hpre, hperform, hpost⟩ := h.before
  have hsound := (hpre.sound hcreate).1
  have hnext := hsound.perform hperform
  have hturns := hsound.turns hperform
  obtain ⟨e, hfind, rfl, hstate⟩ := hafter
  obtain ⟨hone, hprompts, hunderway⟩ := underway_of_begins hturns hfind hstate hbefore
  have hconfig := (h.sound hcreate).2.trans hcfg
  have hsearching : q = .find → last.Pursues q a e.generation →
      ∀ s ∈ post, s.before.Pursues q a e.generation := by
    rintro rfl hlast
    have hyoung := hnext.wellFormed.generation_lt e (Store.mem_of_find? hfind)
    exact hpost.searching hnext hyoung hlast
  refine ⟨hprompts, ?_, hsearching, fun hphase => ?_, ?_⟩
  · intro s hs b packet hcall hasked
    obtain ⟨_, _, hsturns⟩ := h.turns hcreate hs
    obtain ⟨items, hitems, hturn⟩ := hsturns.turns
    unfold Step.asked at hasked ⊢
    rw [← hitems, asked_items hturn] at hasked ⊢
    exact (hturn a).asked_of_resolve hcall hasked
  · exact ⟨(hpost.paced hnext hone ⟨e, rfl, hunderway⟩ hphase).1, hconfig⟩
  · intro P t hwhich hascending ht hticks hlate hlast
    -- if the search still went on it would have gone on throughout, which `Timely` bounds
    have hphase : ∀ s ∈ post, s.before.Pursues q a e.generation := by
      rcases hwhich with hq | hphase
      · exact hsearching hq hlast
      · exact hphase
    rw [Backoff.sum_add_period, ← Nat.add_assoc] at hlate
    have hshort : TicksUntil P first.now t (post ++ []) := by
      rw [List.append_nil]
      rcases hticks with hticks | ⟨hticks, _⟩
      · exact fun u hu hut => hticks u hu (by omega)
      · exact hticks
    obtain ⟨e', d, hfind', hstate', htimely⟩ := hpost.timely hnext hone
      ⟨e, rfl, hunderway⟩ hphase hlast hshort
      (by rw [List.append_nil]; exact (List.pairwise_cons.mp hascending).2) ht
    have hlastSound := (h.sound hcreate).1
    obtain ⟨_, hbudget⟩ := (hlastSound.of_find? hfind').probes_bounds hstate'
    rw [hconfig] at htimely hbudget
    have hlt := htimely.not_late hbudget hticks
    omega

end Runs

/-- A packet for an address that nobody answers for, and as many ticks, one after each nanosecond.
-/
def search (ticks : Nat) : List (Nat × Call Nat) :=
  (0, .resolve ⟨10, 0, 0, 1⟩ 7) :: (List.range' 1 ticks).map (·, .tick)

/-- The search sends two probes, gives up with the third tick and is over when the fifth tick is. -/
theorem quest_pacing_of_search :
    (∃ x ∈ Cache.briefTrace (search 3), ∃ first post, x.1 = first :: post ∧
        Paced .find ⟨10, 0, 0, 1⟩ first post x.2 ∧
        ∃ e, x.2.store.find? ⟨10, 0, 0, 1⟩ = some e ∧ e.state = .failed) ∧
      ∃ x ∈ Cache.briefTrace (search 5), ∃ first ∈ x.1.head?,
        first.outcome.cache.Pursues .find ⟨10, 0, 0, 1⟩ 1 ∧
        ¬ x.2.Pursues .find ⟨10, 0, 0, 1⟩ 1 := by
  constructor
  · have hsearch : ∃ x ∈ Cache.briefTrace (search 3),
        (∃ first ∈ x.1.head?, ¬ first.before.Pursues .find ⟨10, 0, 0, 1⟩ 1 ∧
          first.outcome.cache.Pursues .find ⟨10, 0, 0, 1⟩ 1 ∧
          ∀ s ∈ x.1.tail, s.before.Pursues .find ⟨10, 0, 0, 1⟩ 1) ∧
        ∃ e ∈ x.2.store.find? ⟨10, 0, 0, 1⟩, e.state = .failed := by
      decide +kernel
    obtain ⟨⟨log, last⟩, hx, ⟨first, hfirst, hbefore, hafter, hphase⟩, hfailed⟩ := hsearch
    obtain ⟨post, rfl⟩ := List.head?_eq_some_iff.mp hfirst
    have hlog : History _ ([] ++ first :: post) last := (Cache.history_of_trace hx).1
    obtain ⟨_, _, _, hpaced, _⟩ := quest_pacing hlog hbefore hafter
    exact ⟨_, hx, first, post, rfl, (hpaced hphase).1, hfailed⟩
  · have hsearch : ∃ x ∈ Cache.briefTrace (search 5), ∃ first ∈ x.1.head?,
        ¬ first.before.Pursues .find ⟨10, 0, 0, 1⟩ 1 ∧
          first.outcome.cache.Pursues .find ⟨10, 0, 0, 1⟩ 1 ∧ first.now = 0 ∧ Ascending x.1 ∧
          (∀ s ∈ x.1.tail, s.now ≤ 5) ∧
          (0 :: (tickStamps x.1.tail ++ [6])).IsChain fun v w => w ≤ v + 1 := by
      decide +kernel
    obtain ⟨⟨log, last⟩, hx, first, hfirst, hbefore, hafter, hstart, hascending, hearly, hgaps⟩ :=
      hsearch
    obtain ⟨post, rfl⟩ := List.head?_eq_some_iff.mp hfirst
    have hlog : History _ ([] ++ first :: post) last := (Cache.history_of_trace hx).1
    obtain ⟨_, _, _, _, hover⟩ := quest_pacing hlog hbefore hafter
    refine ⟨_, hx, first, hfirst, hafter, hover 1 5 (.inl rfl) hascending hearly (.inl ?_) ?_⟩
    · rw [hstart]
      exact ticksUntil_of_gaps hgaps
    · rw [hstart]
      decide

end Neighbor
