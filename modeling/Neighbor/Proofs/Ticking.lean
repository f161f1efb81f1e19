import Neighbor.Proofs.History

/-!
# Ticks that come often enough

A deadline is acted on by the first tick at or after it. If ticks are at most a period apart and
stamps ascend, whatever happens while the deadline has not been acted on happens within a period
after it (`on_time`).
-/

namespace Neighbor

variable {α : Type}

/-- Stamps do not go back. -/
def Ascending (steps : List (Step α)) : Prop := steps.Pairwise fun s t => s.now ≤ t.now

instance (steps : List (Step α)) : Decidable (Ascending steps) :=
  inferInstanceAs (Decidable (steps.Pairwise fun s t => s.now ≤ t.now))

/-- From `t₀` on ticks are at most `P` apart: every stretch of that length that ends before `t` has
one. -/
def TicksUntil (P t₀ t : Nat) (steps : List (Step α)) : Prop :=
  ∀ u, t₀ ≤ u → u + P < t → ∃ s ∈ steps, s.call = .tick ∧ u < s.now ∧ s.now ≤ u + P

/-- The stamps of the ticks among some steps. -/
def tickStamps (steps : List (Step α)) : List Nat :=
  steps.filterMap fun s =>
    match s.call with
    | .tick => some s.now
    | _ => none

variable {P t₀ t d : Nat} {steps xs ys : List (Step α)} {s : Step α}

/-- The stamp of a tick is that of a step that ticks. -/
theorem mem_tickStamps {u : Nat} (h : u ∈ tickStamps steps) :
    ∃ s ∈ steps, s.call = .tick ∧ s.now = u := by
  obtain ⟨s, hs, hstamp⟩ := List.mem_filterMap.mp h
  split at hstamp
  · next htick => exact ⟨s, hs, htick, Option.some.inj hstamp⟩
  · cases hstamp

/-- Of instants that are at most `P` apart one lies in each stretch of that length between the first
and the last. -/
theorem exists_of_gaps {u : Nat} {ts : List Nat}
    (h : (t₀ :: (ts ++ [t])).IsChain fun v w => w ≤ v + P) (hu : t₀ ≤ u) (ht : u + P < t) :
    ∃ v ∈ ts, u < v ∧ v ≤ u + P := by
  induction ts generalizing t₀ with
  | nil =>
    obtain ⟨hgap, _⟩ := List.isChain_cons_cons.mp h
    omega
  | cons v rest ih =>
    obtain ⟨hgap, hrest⟩ := List.isChain_cons_cons.mp h
    by_cases hv : u < v
    · exact ⟨v, List.mem_cons_self, hv, by omega⟩
    · obtain ⟨w, hw, hafter⟩ := ih hrest (Nat.le_of_not_lt hv)
      exact ⟨w, List.mem_cons_of_mem _ hw, hafter⟩

/-- Ticks are at most `P` apart if the first comes within `P` of `t₀`, each within `P` of the one
before, and the last within `P` of `t`. -/
theorem ticksUntil_of_gaps
    (h : (t₀ :: (tickStamps steps ++ [t])).IsChain fun v w => w ≤ v + P) :
    TicksUntil P t₀ t steps := by
  intro u hu ht
  obtain ⟨v, hv, hafter⟩ := exists_of_gaps h hu ht
  obtain ⟨s, hs, htick, rfl⟩ := mem_tickStamps hv
  exact ⟨s, hs, htick, hafter⟩

/-- When stamps do not go back, those up to a step are no later than it. -/
theorem Ascending.le_of_mem (h : Ascending (xs ++ s :: ys)) :
    ∀ x ∈ xs ++ [s], x.now ≤ s.now := by
  obtain ⟨_, _, hearlier⟩ := List.pairwise_append.mp h
  rw [List.forall_mem_append]
  exact ⟨fun x hx => hearlier x hx s List.mem_cons_self,
    List.forall_mem_singleton.mpr (Nat.le_refl _)⟩

/-- While no tick has come after the deadline `d`, at most the period has passed since. -/
theorem on_time (hticks : TicksUntil P t₀ t (xs ++ s :: ys))
    (hascending : Ascending (xs ++ s :: ys))
    (hs : s.now ≤ t) (hd : t₀ ≤ d) (hbefore : ∀ x ∈ xs, x.call = .tick → x.now ≤ d) :
    s.now ≤ d + P := by
  apply Nat.le_of_not_lt
  intro hlate
  obtain ⟨x, hx, htick, hafter, hwithin⟩ := hticks d hd (Nat.lt_of_lt_of_le hlate hs)
  obtain ⟨_, hrest, _⟩ := List.pairwise_append.mp hascending
  rcases List.mem_append.mp hx with hx | hx
  · have hearly := hbefore x hx htick
    omega
  · rcases List.mem_cons.mp hx with rfl | hx
    · omega
    · have hlater := (List.pairwise_cons.mp hrest).1 x hx
      omega

end Neighbor
