import Neighbor.Cache.Resolve
import Neighbor.Cache.Tick

/-!
# What a change leaves of an entry

Each operation on an entry that arms a deadline succeeds exactly when the clock holds the deadline,
and then leaves one entry, which this file names. Time acts on an entry in seven ways, and
`Entry.Passes` lists them; `Entry.renewal?` is the wait that it then sets.
-/

namespace Neighbor

namespace Entry

variable {α : Type} {cfg : Config} {now : Nat} {e e' : Entry α}

/-- The entry `e` with the deadline of `old`. -/
def withDeadlineOf (e old : Entry α) : Entry α := { e with deadline := old.deadline }

/-- Arming sets the deadline if the clock holds it, and stops otherwise. -/
theorem arm_eq (e : Entry α) (now : Nat) (d : Duration) :
    e.arm now d =
      if now + d.nanos < Clock.limit then .ok { e with deadline := some (now + d.nanos) }
      else .error e := by
  unfold arm Clock.after?
  split <;> split <;> simp_all

/-- Packets wait only while an address is being resolved. -/
theorem waiting_of_state (h : e.state ≠ .incomplete) : e.waiting = [] := by
  unfold waiting
  unfold state at h
  cases hs : e.status with
  | incomplete n queue => exact absurd (by rw [hs]; rfl) h
  | reachable | stale | delay | probe | failed => rfl

/-- An entry is without a link address exactly if its state is unresolved. -/
theorem mac?_eq_none_iff : e.mac? = none ↔ e.state.isResolved = false := by
  rw [state, ← Status.isSome_mac?, Option.isSome_eq_false_iff, Option.isNone_iff_eq_none, mac?]

/-- No packet waits for a link address that is known. -/
theorem waiting_of_mac? {mac : Mac} (h : e.mac? = some mac) : e.waiting = [] := by
  apply waiting_of_state
  intro hstate
  have hnone : e.mac? = none := mac?_eq_none_iff.mpr (congrArg State.isResolved hstate)
  cases h.symm.trans hnone

/-- The entry of a new address once its first probe is sent. -/
def opened (cfg : Config) (a : Address) (generation now : Nat) (queue : PendingQueue α) :
    Entry α where
  address := a
  kind := .dynamic
  generation := generation
  createdAt := now
  confirmedAt := now
  usedAt := now
  deadline := some (now + (cfg.retry.delay 1).nanos)
  status := .incomplete 1 queue

/-- The entry that accepted evidence leaves: bound to `mac` from `now` on. -/
def bound (cfg : Config) (mac : Mac) (now : Nat) (e : Entry α) : Entry α :=
  { e with
    status := .reachable mac
    confirmedAt := max e.confirmedAt now
    deadline := some (now + cfg.reachable.nanos) }

/-- Binding an entry leaves its address. -/
@[simp] theorem address_bound {mac : Mac} : (e.bound cfg mac now).address = e.address := rfl

/-- Binding an entry makes no new one. -/
@[simp] theorem generation_bound {mac : Mac} :
    (e.bound cfg mac now).generation = e.generation := rfl

/-- Evidence binds the entry and releases exactly what waited; beyond the clock the deadline stays
the old one. -/
theorem confirm_eq (e : Entry α) (cfg : Config) (mac : Mac) (now : Nat) :
    e.confirm cfg mac now =
      if now + cfg.reachable.nanos < Clock.limit then .ok (e.bound cfg mac now, e.waiting)
      else .error ((e.bound cfg mac now).withDeadlineOf e) := by
  unfold confirm
  rw [arm_eq]
  split <;> rfl

/-- The entry that the sending of a packet leaves. Only the first use of a stale entry moves its
deadline. -/
def used (cfg : Config) (now : Nat) (e : Entry α) : Entry α :=
  match e.status with
  | .stale mac =>
    { e with usedAt := now, status := .delay mac, deadline := some (now + cfg.delay.nanos) }
  | _ => { e with usedAt := now }

/-- Using an entry leaves its address. -/
@[simp] theorem address_used : (e.used cfg now).address = e.address := by
  unfold used
  split <;> rfl

/-- Using an entry makes no new one. -/
@[simp] theorem generation_used : (e.used cfg now).generation = e.generation := by
  unfold used
  split <;> rfl

/-- Use never changes the link address. -/
@[simp] theorem mac?_used : (e.used cfg now).mac? = e.mac? := by
  unfold used mac?
  split <;> simp_all [Status.mac?]

/-- Using an entry leaves its kind. -/
@[simp] theorem kind_used : (e.used cfg now).kind = e.kind := by
  unfold used
  split <;> rfl

/-- Using a stale entry begins its delay. -/
theorem state_used_of_stale (h : e.state = .stale) : (e.used cfg now).state = .delay := by
  unfold state at h
  unfold used
  cases hstatus : e.status with
  | stale mac => rfl
  | incomplete | reachable | delay | probe | failed =>
    rw [hstatus] at h
    cases h

/-- Using an unresolved entry only notes the time. -/
theorem used_of_incomplete {n : Nat} {queue : PendingQueue α} (h : e.status = .incomplete n queue) :
    e.used cfg now = { e with usedAt := now } := by
  unfold used
  rw [h]

/-- Use is noted; beyond the clock a stale entry keeps its old deadline. -/
theorem markUsed_eq (e : Entry α) (cfg : Config) (now : Nat) :
    e.markUsed cfg now =
      if e.state = .stale ∧ Clock.limit ≤ now + cfg.delay.nanos then
        .error ((e.used cfg now).withDeadlineOf e)
      else .ok (e.used cfg now) := by
  unfold markUsed used state
  cases hstatus : e.status with
  | stale mac =>
    simp only [Status.state, true_and]
    rw [arm_eq]
    by_cases hclock : now + cfg.delay.nanos < Clock.limit
    · rw [if_pos hclock, if_neg (Nat.not_le.mpr hclock)]
    · rw [if_neg hclock, if_pos (Nat.not_lt.mp hclock)]
      rfl
  | incomplete | reachable | delay | probe | failed => simp [Status.state]

/-- What the passing of time does to an entry. Before the deadline nothing happens; after it each
state takes its one step, and only a state with probes left sends another. -/
inductive Passes (cfg : Config) (now : Nat) (e : Entry α) : Aged α → Prop
  | idle (hdue : e.isDue now = false) : Passes cfg now e { entry := e, aging := .idle }
  | reprobed {n : Nat} {queue : PendingQueue α} (hdue : e.isDue now = true)
      (hstatus : e.status = .incomplete n queue) (hleft : n < cfg.maxProbes) :
      Passes cfg now e
        { entry := { e with
            status := .incomplete (n + 1) queue
            deadline := some (now + (cfg.retry.delay (n + 1)).nanos) }
          aging := .reprobed
          probe := some (.broadcastProbe e.address) }
  | rechecked {mac : Mac} {n : Nat} (hdue : e.isDue now = true)
      (hstatus : e.status = .probe mac n) (hleft : n < cfg.maxProbes) :
      Passes cfg now e
        { entry := { e with
            status := .probe mac (n + 1)
            deadline := some (now + (cfg.retry.delay (n + 1)).nanos) }
          aging := .reprobed
          probe := some (.unicastProbe e.address mac) }
  | checked {mac : Mac} (hdue : e.isDue now = true) (hstatus : e.status = .delay mac) :
      Passes cfg now e
        { entry := { e with
            status := .probe mac 1
            deadline := some (now + (cfg.retry.delay 1).nanos) }
          aging := .changed
          probe := some (.unicastProbe e.address mac) }
  | staled {mac : Mac} (hdue : e.isDue now = true) (hstatus : e.status = .reachable mac) :
      Passes cfg now e
        { entry := { e with
            status := .stale mac
            deadline := some (now + cfg.stale.nanos) }
          aging := .changed }
  | gaveUp (hdue : e.isDue now = true) (hstate : e.state = .incomplete ∨ e.state = .probe)
      (hspent : cfg.maxProbes ≤ e.probes) :
      Passes cfg now e
        { entry := { e with
            status := .failed
            deadline := some (now + cfg.failedGrace.nanos) }
          aging := .failed e.state e.waiting.length }
  | expired (hdue : e.isDue now = true) (hstate : e.state = .stale ∨ e.state = .failed) :
      Passes cfg now e { entry := e, aging := .expired }

/-- A change that arms a deadline goes through, or leaves the entry as it was before arming. -/
private theorem map_arm_cases (e : Entry α) (now : Nat) (d : Duration) (f : Entry α → Aged α) :
    (e.arm now d).map f = .ok (f { e with deadline := some (now + d.nanos) }) ∨
      (e.arm now d).map f = .error e := by
  rw [arm_eq]
  split
  · exact .inl rfl
  · exact .inr rfl

/-- Ageing follows the table. Where the clock cannot hold the new deadline, the entry stands in its
new state with its old one. -/
theorem age_cases (e : Entry α) (cfg : Config) (now : Nat) :
    ∃ aged, Passes cfg now e aged ∧
      (e.age cfg now = .ok aged ∨
        aged.aging ≠ .expired ∧ e.age cfg now = .error (aged.entry.withDeadlineOf e)) := by
  have hgiveUp (hdue : e.isDue now = true) (hstate : e.state = .incomplete ∨ e.state = .probe)
      (hspent : cfg.maxProbes ≤ e.probes) (h : e.age cfg now = e.giveUp cfg now) :
      ∃ aged, Passes cfg now e aged ∧
        (e.age cfg now = .ok aged ∨
          aged.aging ≠ .expired ∧ e.age cfg now = .error (aged.entry.withDeadlineOf e)) := by
    refine ⟨_, .gaveUp hdue hstate hspent, ?_⟩
    rw [h]
    exact (map_arm_cases _ _ _ _).imp_right fun herror => ⟨nofun, herror⟩
  by_cases hdue : e.isDue now = true
  · cases hs : e.status with
    | incomplete n queue =>
      by_cases hspent : cfg.maxProbes ≤ n
      · refine hgiveUp hdue (.inl (by rw [state, hs]; rfl)) ?_ (by simp [age, hdue, hs, hspent])
        rw [probes, hs]
        exact hspent
      · refine ⟨_, .reprobed hdue hs (Nat.lt_of_not_le hspent), ?_⟩
        simp only [age, hdue, if_true, hs, hspent, if_false]
        exact (map_arm_cases _ _ _ _).imp_right fun herror => ⟨nofun, herror⟩
    | probe mac n =>
      by_cases hspent : cfg.maxProbes ≤ n
      · refine hgiveUp hdue (.inr (by rw [state, hs]; rfl)) ?_ (by simp [age, hdue, hs, hspent])
        rw [probes, hs]
        exact hspent
      · refine ⟨_, .rechecked hdue hs (Nat.lt_of_not_le hspent), ?_⟩
        simp only [age, hdue, if_true, hs, hspent, if_false]
        exact (map_arm_cases _ _ _ _).imp_right fun herror => ⟨nofun, herror⟩
    | delay mac =>
      refine ⟨_, .checked hdue hs, ?_⟩
      simp only [age, hdue, if_true, hs]
      exact (map_arm_cases _ _ _ _).imp_right fun herror => ⟨nofun, herror⟩
    | reachable mac =>
      refine ⟨_, .staled hdue hs, ?_⟩
      simp only [age, hdue, if_true, hs]
      exact (map_arm_cases _ _ _ _).imp_right fun herror => ⟨nofun, herror⟩
    | stale mac =>
      exact ⟨_, .expired hdue (.inl (by rw [state, hs]; rfl)), .inl (by simp [age, hdue, hs])⟩
    | failed =>
      exact ⟨_, .expired hdue (.inr (by rw [state, hs]; rfl)), .inl (by simp [age, hdue, hs])⟩
  · exact ⟨_, .idle (by simpa using hdue), .inl (by simp [age, hdue])⟩

/-- An entry is due once its deadline has come. -/
theorem isDue_iff : e.isDue now = true ↔ ∃ t, e.deadline = some t ∧ t ≤ now := by
  unfold isDue
  cases e.deadline <;> simp

/-- The deadline of an entry that is due has passed. -/
theorem le_of_isDue {d : Nat} (hdue : e.isDue now = true) (hdeadline : e.deadline = some d) :
    d ≤ now := by
  simpa [isDue, hdeadline] using hdue

/-- The deadline of an entry that is not due is still to come. -/
theorem lt_of_not_isDue {d : Nat} (hdue : e.isDue now = false) (hdeadline : e.deadline = some d) :
    now < d := by
  simpa [isDue, hdeadline] using hdue

/-- The wait that time sets for an entry on which it acts. An entry that is removed waits no more. -/
def renewal? (cfg : Config) (e : Entry α) : Option Duration :=
  match e.status with
  | .incomplete n _ => some (if cfg.maxProbes ≤ n then cfg.failedGrace else cfg.retry.delay (n + 1))
  | .probe _ n => some (if cfg.maxProbes ≤ n then cfg.failedGrace else cfg.retry.delay (n + 1))
  | .delay _ => some (cfg.retry.delay 1)
  | .reachable _ => some cfg.stale
  | .stale _ => none
  | .failed => none

/-- Time sets three kinds of waits. -/
theorem of_mem_renewal? {P : Duration → Prop} (hretry : ∀ n, P (cfg.retry.delay n))
    (hgrace : P cfg.failedGrace) (hstale : P cfg.stale) : ∀ d ∈ e.renewal? cfg, P d := by
  intro d hd
  unfold renewal? at hd
  split at hd <;> cases hd
  · split
    · exact hgrace
    · exact hretry _
  · split
    · exact hgrace
    · exact hretry _
  · exact hretry 1
  · exact hstale

/-- The clock holds the deadline that time sets for the entry at `now`. -/
def Fits (cfg : Config) (now : Nat) (e : Entry α) : Prop :=
  e.isDue now = true → ∀ d ∈ e.renewal? cfg, now + d.nanos < Clock.limit

instance (cfg : Config) (now : Nat) (e : Entry α) : Decidable (e.Fits cfg now) :=
  inferInstanceAs (Decidable (e.isDue now = true →
    ∀ d ∈ e.renewal? cfg, now + d.nanos < Clock.limit))

/-- A step that sets a timer goes through exactly if the clock holds the deadline. -/
private theorem exists_map_arm_iff (e : Entry α) (now : Nat) (d : Duration)
    (f : Entry α → Aged α) :
    (∃ aged, (e.arm now d).map f = .ok aged) ↔ now + d.nanos < Clock.limit := by
  rw [arm_eq]
  split
  · next hclock => exact ⟨fun _ => hclock, fun _ => ⟨_, rfl⟩⟩
  · next hclock => simp [Except.map, hclock]

/-- Time acts on an entry exactly if the clock holds the deadline that it sets. -/
theorem exists_age_iff : (∃ aged, e.age cfg now = .ok aged) ↔ e.Fits cfg now := by
  unfold Fits age
  by_cases hdue : e.isDue now = true
  · simp only [hdue, if_true, forall_const]
    cases hs : e.status with
    | incomplete n queue =>
      by_cases hspent : cfg.maxProbes ≤ n
      · simp [renewal?, hs, hspent, giveUp, exists_map_arm_iff]
      · simp [renewal?, hs, hspent, exists_map_arm_iff]
    | probe mac n =>
      by_cases hspent : cfg.maxProbes ≤ n
      · simp [renewal?, hs, hspent, giveUp, exists_map_arm_iff]
      · simp [renewal?, hs, hspent, probeAgain, exists_map_arm_iff]
    | delay mac => simp [renewal?, hs, probeAgain, exists_map_arm_iff]
    | reachable mac => simp [renewal?, hs, exists_map_arm_iff]
    | stale mac | failed => simp [renewal?, hs]
  · simp [hdue]

end Entry

end Neighbor
