import Neighbor.Proofs.Refusal
import Neighbor.Proofs.Prevail

/-!
# Calls that change nothing

Evidence that does not count leaves the whole store as it is, whoever tells it. A tick leaves every
entry alone that is not due, and a tick with a quiet report has found none that is: whatever time
does to an entry is noted in the report.
-/

namespace Neighbor

variable {α : Type} {r : Responder} {c : Cache α} {now : Nat} {a : Address}

/-- Evidence that does not count leaves the store as it is. -/
theorem Cache.store_of_unlearned {call : Call α} {mac : Mac} {o : Outcome α Answer}
    (h : c.perform r now call = .ok o) (hevidence : call.evidence? c = some (a, mac))
    (hlearns : c.learns now a mac = false) : o.cache.store = c.store := by
  have hobserve {o' : Outcome α (Option Evicted)} (ho' : c.observe now a mac = .ok o') :
      o'.cache.store = c.store := by
    have hobserved := c.observe_observed now a mac
    rw [ho'] at hobserved
    cases hobserved with
    | ignored _ hleft => rcases hleft with rfl | rfl <;> rfl
    | learned hcounts => cases hlearns.symm.trans hcounts
  cases call with
  | observe b told =>
    cases hevidence
    obtain ⟨o', ho', rfl⟩ := Attempt.mapAnswer_eq_ok h
    exact hobserve ho'
  | receive host bytes =>
    obtain ⟨o', ho', rfl⟩ := Attempt.mapAnswer_eq_ok h
    rcases c.receive_cases now host bytes with ⟨b, told, f, htold, hreceive⟩ | ⟨hnone, _⟩
    · cases hevidence.symm.trans htold
      obtain ⟨o'', ho'', rfl⟩ := Attempt.mapAnswer_eq_ok (hreceive.symm.trans ho')
      exact hobserve ho''
    · cases hevidence.symm.trans hnone
  | resolve | confirm | pin | tick | invalidate | invalidateAll => cases hevidence

/-- A tick leaves an entry alone before its deadline. -/
theorem Turn.of_not_due {answer : Answer} {after : Option (Entry α)} {sent : List (Outbound α)}
    {e : Entry α} (h : Turn r c now a .tick answer after sent) (hfind : c.store.find? a = some e)
    (hdue : e.isDue now = false) : after = some e := by
  cases h.change hfind with
  | aged _ hpasses =>
    cases hpasses.of_not_due hdue
    rfl
  | kept _ _ hcall | bound hcall | gone hcall => exact absurd rfl hcall
  | woken hcall | replaced hcall => cases hcall

namespace Sweep

variable {cfg : Config} {s t : Sweep α}

/-- How many things a sweep has noted for its report. -/
def noted (s : Sweep α) : Nat :=
  s.transitions + s.probes.length + s.failed.length + s.expired.length

/-- A sweep notes something about every entry that time does not leave as it is. -/
theorem noted_note {e : Entry α} {aged : Entry.Aged α} (h : e.Passes cfg now aged) (s : Sweep α) :
    s.noted < (s.note aged).noted ∨
      aged = { entry := e, aging := .idle } ∧ (s.note aged).noted = s.noted := by
  cases h with
  | idle => exact .inr ⟨rfl, by simp [noted, note]⟩
  | reprobed | rechecked | checked | staled | gaveUp | expired =>
    refine .inl ?_
    simp only [noted, note, List.length_append, Option.toList, List.length_singleton,
      List.length_nil]
    omega

/-- A sweep that notes nothing leaves every entry as it is. -/
theorem find?_of_noted {order : List Address} (h : s.visitAll cfg now order = .ok t) :
    s.noted ≤ t.noted ∧ (t.noted = s.noted → ∀ b, t.store.find? b = s.store.find? b) := by
  induction order generalizing s with
  | nil =>
    cases h
    exact ⟨Nat.le_refl _, fun _ _ => rfl⟩
  | cons a rest ih =>
    rw [visitAll, List.foldlM_cons] at h
    rcases visit_cases cfg now s a with
      ⟨_, hfirst⟩ | ⟨e, aged, hfind, hpasses, hfirst | ⟨_, hfirst⟩⟩
    · rw [hfirst] at h
      exact ih h
    · rw [hfirst] at h
      obtain ⟨hle, hrest⟩ := ih h
      rcases noted_note hpasses s with hmore | ⟨rfl, hsame⟩
      · exact ⟨by omega, fun heq => by omega⟩
      · refine ⟨by omega, fun heq b => ?_⟩
        rw [hrest (by omega) b, store_note, Store.find?_put, Store.address_of_find? hfind]
        split
        · next hb => rw [hb, hfind]
        · rfl
    · rw [hfirst] at h
      cases h

end Sweep

/-- A tick with a quiet report leaves every entry as it is, in whatever order it visits them. -/
theorem Cache.find?_of_quiet_inOrder {o : Outcome α TickReport} {order : List Address}
    (hnodup : order.Nodup) (h : c.tickInOrder r now order = .ok o)
    (hquiet : o.answer.isQuiet = true) (b : Address) :
    o.cache.store.find? b = c.store.find? b := by
  obtain ⟨t, seen, o', hvisit, _, hhand, hcache, hanswer, _⟩ := sweeps_of_tick hnodup h
  rw [hanswer, TickReport.isQuiet, beq_iff_eq] at hquiet
  have htransitions : t.transitions = 0 := congrArg TickReport.transitions hquiet
  have hprobes : t.probes = [] := List.length_eq_zero_iff.mp (congrArg TickReport.probes hquiet)
  have hfailed : t.failed = [] := congrArg TickReport.failed hquiet
  have hexpired : t.expired = [] := List.length_eq_zero_iff.mp (congrArg TickReport.expired hquiet)
  have hnoted : t.noted = 0 := by
    simp [Sweep.noted, htransitions, hprobes, hfailed, hexpired]
  have hkept := (Sweep.find?_of_noted hvisit).2 hnoted b
  rw [hprobes] at hhand
  cases hhand
  rw [hcache]
  change t.remaining.find? b = _
  rw [Sweep.remaining, hexpired]
  exact hkept

/-- A tick with a quiet report leaves every entry as it is. -/
theorem Cache.find?_of_quiet {o : Outcome α TickReport} (hs : c.store.WellFormed)
    (h : c.tick r now = .ok o) (hquiet : o.answer.isQuiet = true) (b : Address) :
    o.cache.store.find? b = c.store.find? b :=
  find?_of_quiet_inOrder (nodup_addresses hs.ordered) h hquiet b

end Neighbor
