import Neighbor.Proofs.Pending
import Neighbor.Proofs.Prevail

/-!
# A cache that is left alone

Each tick that comes no earlier than every deadline takes every dynamic entry at least one stage
closer to its end, and leaves the permanent ones as they are. An entry has `Entry.stages` left, at
most two more than there are probes for an address. So that many ticks leave exactly the permanent
entries (`History.idle_drains`).
-/

namespace Neighbor

variable {α : Type}

namespace Entry

variable {cfg : Config} {r : Responder} {now : Nat} {e e' : Entry α} {aged : Aged α}

/-- How many times more time acts on an entry at most, the last time to remove it. -/
def stages (cfg : Config) (e : Entry α) : Nat :=
  match e.status with
  | .incomplete n _ => cfg.maxProbes + 2 - n
  | .delay _ => cfg.maxProbes + 2
  | .probe _ n => cfg.maxProbes + 2 - n
  | .reachable _ => 2
  | .stale _ => 1
  | .failed => 1

/-- No entry has more stages left than one that was used while stale. -/
theorem stages_le (cfg : Config) (e : Entry α) : e.stages cfg ≤ cfg.maxProbes + 2 := by
  have hone := cfg.one_le_maxProbes
  unfold stages
  split <;> omega

/-- A failed or stale entry goes when its time has come, so it has fewer stages left than one of
which the last probe stayed unanswered. -/
theorem Sound.one_lt_stages (h : e.Sound cfg) (hstate : e.state = .incomplete ∨ e.state = .probe) :
    1 < e.stages cfg := by
  have hprobes := h.probes_le
  rw [Entry.probes] at hprobes
  rw [state] at hstate
  unfold stages
  cases hstatus : e.status with
  | incomplete n | probe _ n =>
    rw [hstatus] at hprobes
    change n ≤ cfg.maxProbes at hprobes
    dsimp only
    omega
  | delay | reachable | stale | failed => simp [hstatus, Status.state] at hstate

/-- An entry has at least one stage left. -/
theorem Sound.stages_pos (h : e.Sound cfg) : 0 < e.stages cfg := by
  by_cases hstate : e.state = .incomplete ∨ e.state = .probe
  · exact Nat.lt_of_succ_lt (h.one_lt_stages hstate)
  · rw [state] at hstate
    unfold stages
    cases hstatus : e.status with
    | incomplete | probe => simp [hstatus, Status.state] at hstate
    | delay | reachable | stale | failed => exact Nat.succ_pos _

/-- Time takes an entry that is due at least one stage on, whether or not its probe is answered. -/
theorem Passes.stages_lt (h : e.Passes cfg now aged) (he : e.Sound cfg)
    (hdue : e.isDue now = true) (hafter : (aged.settled cfg r now).1 = some e') :
    e'.stages cfg < e.stages cfg := by
  rcases Aged.settled_cases hafter with rfl | ⟨a, mac, hprobe, rfl⟩
  · cases h with
    | idle hidle => cases hidle.symm.trans hdue
    | expired => cases hafter
    | gaveUp _ hstate => exact he.one_lt_stages hstate
    | staled _ hstatus => simp [stages, hstatus]
    | checked _ hstatus => simp [stages, hstatus]
    | reprobed _ hstatus hleft | rechecked _ hstatus hleft =>
      simp only [stages, hstatus]
      omega
  · -- only an unresolved entry with probes left is asked for, and that has three stages left
    cases h with
    | reprobed _ hstatus hleft =>
      simp only [stages, hstatus, bound]
      omega
    | idle | rechecked | checked | staled | gaveUp | expired => cases hprobe

/-- Neither time nor an answer changes where an entry comes from. -/
theorem Passes.kind_settled (h : e.Passes cfg now aged)
    (hafter : (aged.settled cfg r now).1 = some e') : e'.kind = e.kind := by
  rcases Aged.settled_cases hafter with rfl | ⟨_, _, _, rfl⟩
  · exact h.kind_eq
  · exact h.kind_eq

end Entry

/-- What `n` ticks that come no earlier than every deadline leave of what is found under an address.
-/
inductive Wanes (cfg : Config) (n : Nat) : Option (Entry α) → Option (Entry α) → Prop
  | gone {before : Option (Entry α)} (hbefore : ∀ e, before = some e → e.kind = .dynamic) :
      Wanes cfg n before none
  | kept {e : Entry α} (hkind : e.kind = .permanent) : Wanes cfg n (some e) (some e)
  | waned {e e' : Entry α} (hkind : e.kind = .dynamic) (hkind' : e'.kind = .dynamic)
      (hstages : e'.stages cfg + n ≤ e.stages cfg) : Wanes cfg n (some e) (some e')

namespace Wanes

variable {cfg : Config} {m n : Nat} {x y z : Option (Entry α)}

/-- No tick leaves what there is. -/
theorem refl (x : Option (Entry α)) : Wanes cfg 0 x x := by
  cases x with
  | none => exact .gone nofun
  | some e =>
    cases hkind : e.kind with
    | permanent => exact .kept hkind
    | dynamic => exact .waned hkind hkind (Nat.le_refl _)

/-- Ticks that follow each other are counted together. -/
theorem trans (h : Wanes cfg m x y) (h' : Wanes cfg n y z) : Wanes cfg (m + n) x z := by
  cases h' with
  | gone hbefore =>
    cases h with
    | gone hgone => exact .gone hgone
    | kept => exact .gone hbefore
    | waned hkind =>
      refine .gone fun e he => ?_
      cases he
      exact hkind
  | kept hpermanent =>
    cases h with
    | kept => exact .kept hpermanent
    | waned _ hdynamic => cases hpermanent.symm.trans hdynamic
  | waned hkind hkind' hstages =>
    cases h with
    | kept hpermanent => cases hpermanent.symm.trans hkind
    | waned hfirst _ hstages' => exact .waned hfirst hkind' (by omega)

end Wanes

/-- A tick that comes no earlier than every deadline takes the entry of each address on. -/
theorem Cache.Ages.wanes {c : Cache α} {r : Responder} {now : Nat} {a : Address}
    {report : TickReport} {after : Option (Entry α)} {sent : List (Outbound α)} (hc : c.Sound)
    (hoverdue : ∀ e ∈ c.store.entries, ∀ t ∈ e.deadline, t ≤ now)
    (h : c.Ages r now a report after sent) : Wanes c.config 1 (c.store.find? a) after := by
  cases h with
  | absent hfind =>
    rw [hfind]
    exact .gone nofun
  | @aged e aged hfind hpasses =>
    have he := hc.of_find? hfind
    rw [hfind]
    cases hkind : e.kind with
    | permanent =>
      have hidle : e.isDue now = false := by
        rw [Entry.isDue, (he.permanent hkind).2]
      cases hpasses.of_not_due hidle
      exact .kept hkind
    | dynamic =>
      obtain ⟨t, hdeadline⟩ := he.dynamic hkind
      have hdue : e.isDue now = true :=
        Entry.isDue_iff.mpr ⟨t, hdeadline, hoverdue e (Store.mem_of_find? hfind) t hdeadline⟩
      cases hafter : (aged.settled c.config r now).1 with
      | none =>
        refine .gone fun x hx => ?_
        cases hx
        exact hkind
      | some e' =>
        exact .waned hkind ((hpasses.kind_settled hafter).trans hkind)
          (hpasses.stages_lt he hdue hafter)

/-- The step is a tick that comes no earlier than every deadline. -/
def Step.IsOverdue (s : Step α) : Prop :=
  s.call = .tick ∧ ∀ e ∈ s.before.store.entries, ∀ t ∈ e.deadline, t ≤ s.now

instance [DecidableEq α] (s : Step α) : Decidable s.IsOverdue :=
  inferInstanceAs (Decidable (s.call = .tick ∧ _))

namespace History

variable {cfg : Config} {start : Nat} {log ticks : List (Step α)} {c last : Cache α}

/-- Ticks that come no earlier than every deadline take the entry of each address one stage on each
time. -/
theorem wanes (h : History c ticks last) (hc : c.Sound) (hoverdue : ∀ s ∈ ticks, s.IsOverdue)
    (a : Address) : Wanes c.config ticks.length (c.store.find? a) (last.store.find? a) := by
  induction h with
  | nil => exact .refl _
  | @snoc log d r now call o hlog hperform ih =>
    obtain ⟨hinit, hlast⟩ := List.forall_mem_append.mp hoverdue
    obtain ⟨hcall, hdeadlines⟩ := hlast _ List.mem_cons_self
    obtain ⟨hd, hconfig⟩ := hlog.sound hc
    change call = .tick at hcall
    subst hcall
    obtain ⟨o', htick, rfl⟩ := Attempt.mapAnswer_eq_ok hperform
    obtain ⟨_, _, sent, _, hages⟩ :=
      Cache.tick_ages hd.wellFormed hd.coherent.dynamic htick
    have hstep := (hages a).wanes hd hdeadlines
    rw [hconfig] at hstep
    rw [List.length_append]
    exact (ih hinit).trans hstep

/-- Two ticks more than there are probes for an address, each no earlier than every deadline, leave
exactly the permanent entries, as they were. -/
theorem idle_drains (h : History (Cache.create cfg start : Outcome α Unit).cache log c)
    (hticks : History c ticks last) (hoverdue : ∀ s ∈ ticks, s.IsOverdue)
    (hlength : cfg.maxProbes + 2 ≤ ticks.length) :
    last.store.entries = c.store.entries.filter (·.isPermanent) := by
  obtain ⟨hcreate, hcreated⟩ := Cache.create_sound (α := α) cfg start
  obtain ⟨hc, hconfig⟩ := h.sound hcreate
  obtain ⟨hlast, hsame⟩ := hticks.sound hc
  have hordered := hc.wellFormed.ordered
  have hkept : Store.Ordered { c.store with entries := c.store.entries.filter (·.isPermanent) } :=
    List.Pairwise.filter _ hordered
  refine hkept.entries_eq_of_mem hlast.wellFormed.ordered fun e => ?_
  rw [hlast.wellFormed.ordered.mem_iff, List.mem_filter, hordered.mem_iff, Entry.isPermanent,
    beq_iff_eq]
  have hwanes := hticks.wanes hc hoverdue e.address
  generalize hfind : c.store.find? e.address = before at hwanes
  generalize hfind' : last.store.find? e.address = after at hwanes
  cases hwanes with
  | gone hbefore =>
    refine ⟨nofun, fun ⟨hsome, hkind⟩ => ?_⟩
    cases hkind.symm.trans (hbefore e hsome)
  | kept hkind =>
    constructor
    · rintro ⟨⟩
      exact ⟨rfl, hkind⟩
    · exact fun ⟨hsome, _⟩ => hsome
  | @waned old new hkind _ hstages =>
    -- there is no stage left for a dynamic entry
    have hle := old.stages_le c.config
    have hpos := (hlast.of_find? hfind').stages_pos
    rw [hsame] at hpos
    rw [hconfig, hcreated] at hle hpos hstages
    omega

/-- The brief configuration with room for a permanent binding. -/
def furnished : Config :=
  { Config.brief with capacity := 2, permanent := [(⟨10, 0, 0, 9⟩, ⟨2, 0, 0, 0, 0, 9⟩)] }

/-- The ticks at which a woken binding is checked twice, given up and removed. -/
def disuse : List (Nat × Call Nat) := [(17, .tick), (18, .tick), (20, .tick), (25, .tick)]

/-- The binding is gone after four ticks, and the permanent one is what it was. -/
theorem idle_drains_of_disuse :
    ∃ x ∈ (Cache.create furnished 0 : Outcome Nat Unit).cache.trace .silent waking,
      ∃ y ∈ x.2.trace .silent disuse, (∀ s ∈ y.1, s.IsOverdue) ∧
        furnished.maxProbes + 2 ≤ y.1.length ∧ x.2.size = 2 ∧
        y.2.store.entries = x.2.store.entries.filter (·.isPermanent) := by
  have hdisuse : ∃ x ∈ (Cache.create furnished 0 : Outcome Nat Unit).cache.trace .silent waking,
      ∃ y ∈ x.2.trace .silent disuse, (∀ s ∈ y.1, s.IsOverdue) ∧
        furnished.maxProbes + 2 ≤ y.1.length ∧ x.2.size = 2 := by
    decide +kernel
  obtain ⟨x, hx, y, hy, hoverdue, hlength, hsize⟩ := hdisuse
  obtain ⟨hlog, _⟩ := Cache.history_of_trace hx
  obtain ⟨hticks, _⟩ := Cache.history_of_trace hy
  exact ⟨x, hx, y, hy, hoverdue, hlength, hsize, idle_drains hlog hticks hoverdue hlength⟩

end History

end Neighbor
