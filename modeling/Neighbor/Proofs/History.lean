import Mathlib.Data.List.Induction
import Neighbor.Cache.Call

/-!
# Histories

A history is a run of a cache together with the cache before each call. The stations that answer a
probe at once may be others for each call. `history_iff_run` says that the histories in which they
stay the same are the runs; statements about what happens between two calls are statements about
histories.
-/

namespace Neighbor

variable {α : Type}

/-- One call of a history: when and on what it was made, who answered its probes, and what it led
to. -/
structure Step (α : Type) where
  responder : Responder
  now : Nat
  call : Call α
  before : Cache α
  outcome : Outcome α Answer

/-- The steps that lead from the cache `first` to another, the latest step last. -/
inductive History (first : Cache α) : List (Step α) → Cache α → Prop
  | nil : History first [] first
  | snoc {log : List (Step α)} {c : Cache α} {r : Responder} {now : Nat} {call : Call α}
      {o : Outcome α Answer}
      (hlog : History first log c) (hperform : c.perform r now call = .ok o) :
      History first (log ++ [⟨r, now, call, c, o⟩]) o.cache

namespace History

variable {first last : Cache α} {log xs ys : List (Step α)} {s : Step α}

/-- A history without steps ends where it begins. -/
theorem nil_iff : History first [] last ↔ last = first := by
  constructor
  · intro h
    generalize hlog : ([] : List (Step α)) = log at h
    cases h with
    | nil => rfl
    | snoc => simp at hlog
  · rintro rfl
    exact .nil

/-- The last step of a history starts from where the others lead. -/
theorem snoc_iff :
    History first (log ++ [s]) last ↔
      History first log s.before ∧ s.before.perform s.responder s.now s.call = .ok s.outcome ∧
        last = s.outcome.cache := by
  constructor
  · intro h
    generalize hlog : log ++ [s] = log' at h
    cases h with
    | nil => simp at hlog
    | snoc hinit hperform =>
      obtain ⟨rfl, hlast⟩ := List.append_inj' hlog rfl
      cases hlast
      exact ⟨hinit, hperform, rfl⟩
  · rintro ⟨hinit, hperform, rfl⟩
    exact .snoc hinit hperform

/-- Histories follow one another. -/
theorem append_iff :
    History first (xs ++ ys) last ↔
      ∃ middle, History first xs middle ∧ History middle ys last := by
  induction ys using List.reverseRecOn generalizing last with
  | nil =>
    constructor
    · intro h
      rw [List.append_nil] at h
      exact ⟨last, h, .nil⟩
    · rintro ⟨middle, hxs, hys⟩
      rw [nil_iff.mp hys, List.append_nil]
      exact hxs
  | append_singleton ys s ih =>
    rw [← List.append_assoc, snoc_iff, ih]
    constructor
    · rintro ⟨⟨middle, hxs, hys⟩, hperform, rfl⟩
      exact ⟨middle, hxs, .snoc hys hperform⟩
    · rintro ⟨middle, hxs, hys⟩
      obtain ⟨hinit, hperform, rfl⟩ := snoc_iff.mp hys
      exact ⟨⟨middle, hxs, hinit⟩, hperform, rfl⟩

/-- The first step of a history starts from the first cache. -/
theorem cons_iff :
    History first (s :: log) last ↔
      s.before = first ∧ s.before.perform s.responder s.now s.call = .ok s.outcome ∧
        History s.outcome.cache log last := by
  rw [← List.singleton_append, append_iff]
  constructor
  · rintro ⟨middle, hfirst, hlog⟩
    rw [← List.nil_append [s]] at hfirst
    obtain ⟨hinit, hperform, rfl⟩ := snoc_iff.mp hfirst
    exact ⟨nil_iff.mp hinit, hperform, hlog⟩
  · rintro ⟨rfl, hperform, hlog⟩
    refine ⟨s.outcome.cache, ?_, hlog⟩
    rw [← List.nil_append [s]]
    exact snoc_iff.mpr ⟨.nil, hperform, rfl⟩

/-- The steps before a given one lead to where it starts. -/
theorem before (h : History first (xs ++ s :: ys) last) :
    History first xs s.before ∧ s.before.perform s.responder s.now s.call = .ok s.outcome ∧
      History s.outcome.cache ys last := by
  obtain ⟨middle, hxs, hys⟩ := append_iff.mp h
  obtain ⟨rfl, hperform, hys⟩ := cons_iff.mp hys
  exact ⟨hxs, hperform, hys⟩

/-- A history is cut at any of its steps. -/
theorem cut {i : Nat} (h : History first log last) (hs : log[i]? = some s) :
    ∃ xs ys, log = xs ++ s :: ys ∧ xs.length = i ∧ History first xs s.before ∧
      s.before.perform s.responder s.now s.call = .ok s.outcome ∧
      History s.outcome.cache ys last := by
  obtain ⟨hi, hget⟩ := List.getElem?_eq_some_iff.mp hs
  have hsplit : log = log.take i ++ s :: log.drop (i + 1) := by
    rw [← hget, ← List.drop_eq_getElem_cons hi, List.take_append_drop]
  have hparts := h
  rw [hsplit] at hparts
  exact ⟨_, _, hsplit, by rw [List.length_take]; omega, hparts.before⟩

/-- The histories in which the same stations answer throughout are the runs that go through. -/
theorem history_iff_run {r : Responder} {calls : List (Nat × Call α)}
    {outcomes : List (Outcome α Answer)} :
    (∃ log, History first log last ∧ (∀ s ∈ log, s.responder = r) ∧
        log.map (fun s => (s.now, s.call)) = calls ∧ log.map (·.outcome) = outcomes) ↔
      first.run r calls = .ok (last, outcomes) := by
  induction calls generalizing first outcomes with
  | nil =>
    constructor
    · rintro ⟨log, hlog, _, hcalls, rfl⟩
      cases List.map_eq_nil_iff.mp hcalls
      rw [nil_iff.mp hlog]
      rfl
    · intro h
      cases h
      exact ⟨[], .nil, List.forall_mem_nil _, rfl, rfl⟩
  | cons head rest ih =>
    obtain ⟨now, call⟩ := head
    unfold Cache.run
    constructor
    · rintro ⟨log, hlog, hresponder, hcalls, rfl⟩
      obtain ⟨s, log', rfl, hhead, hrest⟩ := List.map_eq_cons_iff.mp hcalls
      obtain ⟨hs, hlog'⟩ := List.forall_mem_cons.mp hresponder
      cases hhead
      obtain ⟨rfl, hperform, hlog⟩ := cons_iff.mp hlog
      have hrun := ih.mp ⟨log', hlog, hlog', hrest, rfl⟩
      rw [hs] at hperform
      simp only [hperform, hrun]
      rfl
    · intro h
      cases hperform : first.perform r now call with
      | error e => simp [hperform] at h
      | ok o =>
        simp only [hperform] at h
        cases hrun : o.cache.run r rest with
        | error e => simp [hrun, Except.map] at h
        | ok result =>
          rw [hrun] at h
          cases h
          obtain ⟨log', hlog, hresponder, rfl, houtcomes⟩ := ih.mpr hrun
          refine ⟨⟨r, now, call, first, o⟩ :: log', cons_iff.mpr ⟨rfl, hperform, hlog⟩, ?_, rfl, ?_⟩
          · exact List.forall_mem_cons.mpr ⟨rfl, hresponder⟩
          · rw [List.map_cons, houtcomes]

end History

/-- The steps that some calls make on a cache and the cache they leave, if all of them go through.
-/
def Cache.trace (r : Responder) (c : Cache α) :
    List (Nat × Call α) → Option (List (Step α) × Cache α)
  | [] => some ([], c)
  | (now, call) :: rest =>
    match c.perform r now call with
    | .error _ => none
    | .ok o => (o.cache.trace r rest).map fun (log, last) => (⟨r, now, call, c, o⟩ :: log, last)

/-- What is traced is a history of the calls. -/
theorem Cache.history_of_trace {r : Responder} {c last : Cache α} {calls : List (Nat × Call α)}
    {log : List (Step α)} (h : c.trace r calls = some (log, last)) :
    History c log last ∧ log.map (fun s => (s.now, s.call)) = calls := by
  induction calls generalizing c log with
  | nil =>
    cases h
    exact ⟨.nil, rfl⟩
  | cons head rest ih =>
    obtain ⟨now, call⟩ := head
    unfold trace at h
    split at h
    · cases h
    · next o hperform =>
      obtain ⟨⟨log', last'⟩, hrest, heq⟩ := Option.map_eq_some_iff.mp h
      cases heq
      obtain ⟨hlog, hcalls⟩ := ih hrest
      refine ⟨History.cons_iff.mpr ⟨rfl, hperform, hlog⟩, ?_⟩
      rw [List.map_cons, hcalls]

/-- A configuration with room for one entry and one packet and with short times. -/
def Config.brief : Config where
  capacity := 1
  queueCapacity := 1
  reachable := .ofNanos 10
  delay := .ofNanos 2
  maxRetries := 2
  retry := ⟨.ofNanos 1, 2, .ofNanos 4⟩
  failedGrace := .ofNanos 5
  stale := .ofNanos 10

/-- What some calls make of a cache with the brief configuration if nobody answers its probes. -/
def Cache.briefTrace (calls : List (Nat × Call α)) : Option (List (Step α) × Cache α) :=
  (create .brief 0 : Outcome α Unit).cache.trace .silent calls

/-- Evidence, a tick that ages the binding and a packet that wakes it. -/
def History.waking : List (Nat × Call Nat) :=
  [(1, .observe ⟨10, 0, 0, 1⟩ ⟨2, 0, 0, 0, 0, 1⟩), (11, .tick), (15, .resolve ⟨10, 0, 0, 1⟩ 7)]

end Neighbor
