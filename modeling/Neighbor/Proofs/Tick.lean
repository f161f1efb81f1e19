import Mathlib.Data.List.Nodup
import Neighbor.Proofs.Transmit

/-!
# What a tick does to one address

A tick visits each entry once, in some order, and lets time act on it. An entry that has had its time
goes; a probe that is due is handed over and may be answered. `Cache.Ages` says what becomes of one
address.
-/

namespace Neighbor

variable {α : Type}

namespace Entry

variable {cfg : Config} {r : Responder} {now : Nat} {e : Entry α} {aged : Aged α}

/-- Whether an entry entered another state in which it stays. -/
def Aging.isChange : Aging → Bool
  | .changed => true
  | _ => false

/-- Whether an entry was given up. -/
def Aging.isFailure : Aging → Bool
  | .failed _ _ => true
  | _ => false

/-- Whether an entry is to be removed. -/
def Aging.isExpiry : Aging → Bool
  | .expired => true
  | _ => false

/-- What is left of an aged entry at the end of a tick, and what went out for it. -/
def Aged.settled (cfg : Config) (r : Responder) (now : Nat) (aged : Aged α) :
    Option (Entry α) × List (Outbound α) :=
  match aged.aging.isExpiry, aged.probe with
  | true, _ => (none, [])
  | false, some (.broadcastProbe a) =>
    (some (aged.entry.answered cfg r now).1, .broadcastProbe a :: (aged.entry.answered cfg r now).2)
  | false, probe => (some aged.entry, probe.toList)

/-- Time leaves the address of an entry alone. -/
theorem Passes.address_eq (h : e.Passes cfg now aged) : aged.entry.address = e.address := by
  cases h <;> rfl

/-- Time leaves the generation of an entry alone. -/
theorem Passes.generation_eq (h : e.Passes cfg now aged) :
    aged.entry.generation = e.generation := by
  cases h <;> rfl

/-- Time leaves the kind of an entry alone. -/
theorem Passes.kind_eq (h : e.Passes cfg now aged) : aged.entry.kind = e.kind := by
  cases h <;> rfl

/-- A probe that is due asks for the address of the entry. -/
theorem Passes.target {item : Outbound α} (h : e.Passes cfg now aged)
    (hprobe : aged.probe = some item) : item.target? = some e.address := by
  cases h with
  | idle | staled | gaveUp | expired => cases hprobe
  | reprobed | rechecked | checked =>
    cases hprobe
    rfl

/-- Only an unresolved entry asks all stations, and it stays. -/
theorem Passes.unresolved {a : Address} (h : e.Passes cfg now aged)
    (hprobe : aged.probe = some (.broadcastProbe a)) :
    aged.aging.isExpiry = false ∧ e.mac? = none ∧ aged.entry.mac? = none := by
  cases h with
  | idle | staled | gaveUp | expired | rechecked | checked => cases hprobe
  | reprobed hdue hstatus hleft => exact ⟨rfl, by simp [mac?, hstatus, Status.mac?], rfl⟩

/-- An aged entry that is not to be removed stays, the same one. -/
theorem Aged.settled_of_stays (h : aged.aging.isExpiry = false) :
    ∃ e', (aged.settled cfg r now).1 = some e' ∧ e'.generation = aged.entry.generation := by
  unfold settled
  rw [h]
  split
  · next hexpiry => cases hexpiry
  · exact ⟨_, rfl, generation_answered⟩
  · exact ⟨_, rfl, rfl⟩

/-- Only a stale or failed entry is to be removed. -/
theorem Passes.stays (h : e.Passes cfg now aged) (hstale : e.state ≠ .stale)
    (hfailed : e.state ≠ .failed) : aged.aging.isExpiry = false := by
  cases h with
  | expired hdue hstate =>
    rcases hstate with hstate | hstate
    · exact absurd hstate hstale
    · exact absurd hstate hfailed
  | idle | reprobed | rechecked | checked | staled | gaveUp => rfl

end Entry

namespace Sweep

variable {cfg : Config} {now : Nat} {s t : Sweep α} {aged : Entry.Aged α} {a : Address}

/-- A visit writes its entry back. -/
@[simp] theorem store_note : (s.note aged).store = s.store.put aged.entry := by
  unfold note
  dsimp only
  split <;> rfl

/-- A visit adds its probe. -/
@[simp] theorem probes_note : (s.note aged).probes = s.probes ++ aged.probe.toList := by
  unfold note
  dsimp only
  split <;> rfl

/-- A visit that changes the state is counted. -/
@[simp] theorem transitions_note :
    (s.note aged).transitions = s.transitions + if aged.aging.isChange then 1 else 0 := by
  unfold note
  cases aged.aging <;> simp [Entry.Aging.isChange]

/-- A visit that gives its entry up adds the address. -/
@[simp] theorem failed_note :
    (s.note aged).failed =
      s.failed ++ if aged.aging.isFailure then [aged.entry.address] else [] := by
  unfold note
  cases aged.aging <;> simp [Entry.Aging.isFailure]

/-- A visit that finds its entry expired adds the address. -/
@[simp] theorem expired_note :
    (s.note aged).expired =
      s.expired ++ if aged.aging.isExpiry then [aged.entry.address] else [] := by
  unfold note
  cases aged.aging <;> simp [Entry.Aging.isExpiry]

/-- The expired addresses are gone from what remains, and no others. -/
theorem find?_remaining :
    s.remaining.find? a = if a ∈ s.expired then none else s.store.find? a := by
  unfold remaining
  generalize s.expired = expired
  generalize s.store = store
  induction expired generalizing store with
  | nil => rfl
  | cons b rest ih =>
    rw [List.foldl_cons, ih, Store.find?_erase]
    by_cases hrest : a ∈ rest
    · simp [hrest]
    · by_cases hb : a = b <;> simp [hrest, hb]

/-- The removals at the end of a tick edit the store. -/
theorem edits_remaining : Store.Edits s.store s.remaining := by
  unfold remaining
  generalize s.expired = expired
  generalize s.store = store
  induction expired generalizing store with
  | nil => exact .refl
  | cons b rest ih => exact (ih (store.erase b)).head (.erase b)

/-- The visits `seen` that took a sweep from `s` to `t` along `order`. An address of `order` that
was not seen had no entry. -/
structure Sees (cfg : Config) (now : Nat) (s : Sweep α) (order : List Address) (t : Sweep α)
    (seen : List (Address × Entry.Aged α)) : Prop where
  edits : Store.Edits s.store t.store
  sublist : (seen.map (·.1)).Sublist order
  passes : ∀ x ∈ seen, ∃ e, s.store.find? x.1 = some e ∧ e.Passes cfg now x.2 ∧
    t.store.find? x.1 = some x.2.entry
  unseen : ∀ a, a ∉ seen.map (·.1) → t.store.find? a = s.store.find? a
  missed : ∀ a ∈ order, a ∉ seen.map (·.1) → s.store.find? a = none
  transitions_eq : t.transitions = s.transitions + seen.countP (·.2.aging.isChange)
  probes_eq : t.probes = s.probes ++ seen.flatMap (·.2.probe.toList)
  failed_eq : t.failed = s.failed ++ (seen.filter (·.2.aging.isFailure)).map (·.1)
  expired_eq : t.expired = s.expired ++ (seen.filter (·.2.aging.isExpiry)).map (·.1)

/-- A visit to an address without an entry does nothing. -/
private theorem sees_absent {rest : List Address} {seen : List (Address × Entry.Aged α)}
    (hfind : s.store.find? a = none) (h : Sees cfg now s rest t seen) :
    Sees cfg now s (a :: rest) t seen := by
  refine ⟨h.edits, h.sublist.cons a, h.passes, h.unseen, ?_, h.transitions_eq, h.probes_eq,
    h.failed_eq, h.expired_eq⟩
  intro b hb hunseen
  rcases List.mem_cons.mp hb with rfl | hb
  · exact hfind
  · exact h.missed b hb hunseen

/-- A visit to an entry notes what time did to it. -/
private theorem sees_aged {rest : List Address} {seen : List (Address × Entry.Aged α)} {e : Entry α}
    (hfind : s.store.find? a = some e) (hpasses : e.Passes cfg now aged) (hnotin : a ∉ rest)
    (h : Sees cfg now (s.note aged) rest t seen) :
    Sees cfg now s (a :: rest) t ((a, aged) :: seen) := by
  have haddress : aged.entry.address = a := by
    rw [hpasses.address_eq, Store.address_of_find? hfind]
  have hother {b : Address} (hb : b ≠ a) : (s.note aged).store.find? b = s.store.find? b := by
    rw [store_note, Store.find?_put, haddress, if_neg hb]
  have hnotseen : a ∉ seen.map (·.1) := fun hmem => hnotin (h.sublist.subset hmem)
  refine ⟨?_, h.sublist.cons_cons a, ?_, ?_, ?_, ?_, ?_, ?_, ?_⟩
  · have hedit : Store.Edit s.store (s.store.put aged.entry) :=
      .replace (haddress ▸ hfind) hpasses.generation_eq
    have hrest := h.edits
    rw [store_note] at hrest
    exact hrest.head hedit
  · intro x hx
    rcases List.mem_cons.mp hx with rfl | hx
    · refine ⟨e, hfind, hpasses, ?_⟩
      rw [h.unseen a hnotseen, store_note, Store.find?_put, haddress, if_pos rfl]
    · obtain ⟨e', hfind', hpasses', hafter⟩ := h.passes x hx
      have hne : x.1 ≠ a := by
        intro heq
        exact hnotseen (List.mem_map.mpr ⟨x, hx, heq⟩)
      exact ⟨e', by rw [← hfind', hother hne], hpasses', hafter⟩
  · intro b hb
    obtain ⟨hne, hunseen⟩ := not_or.mp (mt List.mem_cons.mpr hb)
    rw [h.unseen b hunseen, hother hne]
  · intro b hb hunseen
    obtain ⟨hne, hunseen⟩ := not_or.mp (mt List.mem_cons.mpr hunseen)
    rw [← hother hne]
    exact h.missed b ((List.mem_cons.mp hb).resolve_left hne) hunseen
  · rw [h.transitions_eq, transitions_note, List.countP_cons, Nat.add_assoc, Nat.add_comm (ite _ _ _)]
  · rw [h.probes_eq, probes_note, List.append_assoc, List.flatMap_cons]
  · rw [h.failed_eq, failed_note, haddress]
    cases hfailed : aged.aging.isFailure <;> simp [hfailed]
  · rw [h.expired_eq, expired_note, haddress]
    cases hexpired : aged.aging.isExpiry <;> simp [hexpired]

/-- A visit finds no entry, notes what time did to one, or stops at the clock. -/
theorem visit_cases (cfg : Config) (now : Nat) (s : Sweep α) (a : Address) :
    (s.store.find? a = none ∧ visit cfg now s a = .ok s) ∨
      ∃ e aged, s.store.find? a = some e ∧ e.Passes cfg now aged ∧
        (visit cfg now s a = .ok (s.note aged) ∨
          aged.aging ≠ .expired ∧ visit cfg now s a =
            .error { s with store := s.store.put (aged.entry.withDeadlineOf e) }) := by
  unfold visit
  cases hfind : s.store.find? a with
  | none => exact .inl ⟨rfl, rfl⟩
  | some e =>
    obtain ⟨aged, hpasses, hage⟩ := e.age_cases cfg now
    refine .inr ⟨e, aged, rfl, hpasses, ?_⟩
    dsimp only
    rcases hage with hage | ⟨hstays, hage⟩
    · exact .inl (by rw [hage])
    · exact .inr ⟨hstays, by rw [hage]⟩

/-- A sweep that stops has let time act at most once on the entry of each address of `order`, on the
last one without its deadline. -/
theorem find?_of_visitAll_error {order : List Address} (hnodup : order.Nodup)
    (h : s.visitAll cfg now order = .error t) (b : Address) :
    t.store.find? b = s.store.find? b ∨
      b ∈ order ∧ ∃ e aged e', s.store.find? b = some e ∧ e.Passes cfg now aged ∧
        (e' = aged.entry ∨ e' = aged.entry.withDeadlineOf e) ∧ t.store.find? b = some e' := by
  induction order generalizing s with
  | nil => cases h
  | cons a rest ih =>
    obtain ⟨hnotin, hrest⟩ := List.nodup_cons.mp hnodup
    rw [visitAll, List.foldlM_cons] at h
    rcases visit_cases cfg now s a with
      ⟨hfind, hfirst⟩ | ⟨e, aged, hfind, hpasses, hfirst | ⟨_, hfirst⟩⟩
    · rw [hfirst] at h
      exact (ih hrest h).imp_right fun ⟨hmem, hmoved⟩ => ⟨List.mem_cons_of_mem _ hmem, hmoved⟩
    · rw [hfirst] at h
      have haddress : aged.entry.address = a :=
        hpasses.address_eq.trans (Store.address_of_find? hfind)
      by_cases hb : b = a
      · subst hb
        rcases ih hrest h with hsame | ⟨hmem, _⟩
        · refine .inr ⟨List.mem_cons_self, e, aged, aged.entry, hfind, hpasses, .inl rfl, ?_⟩
          rw [hsame, store_note, Store.find?_put, if_pos haddress.symm]
        · exact absurd hmem hnotin
      · have hsame : (s.note aged).store.find? b = s.store.find? b := by
          rw [store_note, Store.find?_put, haddress, if_neg hb]
        rw [← hsame]
        exact (ih hrest h).imp_right fun ⟨hmem, hmoved⟩ => ⟨List.mem_cons_of_mem _ hmem, hmoved⟩
    · rw [hfirst] at h
      cases h
      have haddress : (aged.entry.withDeadlineOf e).address = a :=
        hpasses.address_eq.trans (Store.address_of_find? hfind)
      by_cases hb : b = a
      · subst hb
        refine .inr ⟨List.mem_cons_self, e, aged, _, hfind, hpasses, .inr rfl, ?_⟩
        rw [Store.find?_put, if_pos haddress.symm]
      · exact .inl (by rw [Store.find?_put, haddress, if_neg hb])

/-- A sweep along distinct addresses lets time act once on the entry of each. -/
theorem sees_of_visitAll {order : List Address} (hnodup : order.Nodup)
    (h : s.visitAll cfg now order = .ok t) : ∃ seen, Sees cfg now s order t seen := by
  induction order generalizing s with
  | nil =>
    cases h
    exact ⟨[], .refl, List.Sublist.slnil, by simp, by simp, by simp, by simp, by simp, by simp,
      by simp⟩
  | cons a rest ih =>
    obtain ⟨hnotin, hrest⟩ := List.nodup_cons.mp hnodup
    rw [visitAll, List.foldlM_cons] at h
    cases hvisit : visit cfg now s a with
    | error x =>
      rw [hvisit] at h
      cases h
    | ok s' =>
      rw [hvisit] at h
      obtain ⟨seen, hseen⟩ := ih hrest h
      rcases visit_cases cfg now s a with
        ⟨hfind, hfirst⟩ | ⟨e, aged, hfind, hpasses, hfirst | ⟨_, hfirst⟩⟩
      · cases hvisit.symm.trans hfirst
        exact ⟨seen, sees_absent hfind hseen⟩
      · cases hvisit.symm.trans hfirst
        exact ⟨(a, aged) :: seen, sees_aged hfind hpasses hnotin hseen⟩
      · cases hvisit.symm.trans hfirst

/-- The probes of the visits, each for its address. -/
def due (seen : List (Address × Entry.Aged α)) : List (Address × Outbound α) :=
  seen.flatMap fun x => x.2.probe.toList.map (x.1, ·)

/-- The probes that are due are those of the visits, in order. -/
theorem map_snd_due (seen : List (Address × Entry.Aged α)) :
    (due seen).map (·.2) = seen.flatMap (·.2.probe.toList) := by
  simp [due, List.map_flatMap, Function.comp_def]

/-- A probe that is due is that of a visit to its address. -/
theorem mem_due {seen : List (Address × Entry.Aged α)} {y : Address × Outbound α}
    (h : y ∈ due seen) : ∃ x ∈ seen, x.1 = y.1 ∧ x.2.probe = some y.2 := by
  obtain ⟨x, hx, hy⟩ := List.mem_flatMap.mp h
  obtain ⟨item, hitem, rfl⟩ := List.mem_map.mp hy
  exact ⟨x, hx, rfl, by simpa using hitem⟩

/-- Probes are due in the order of the visits. -/
theorem sublist_due (seen : List (Address × Entry.Aged α)) :
    ((due seen).map (·.1)).Sublist (seen.map (·.1)) := by
  induction seen with
  | nil => exact List.Sublist.slnil
  | cons x rest ih =>
    obtain ⟨a, aged⟩ := x
    cases hprobe : aged.probe with
    | none =>
      simp only [due, List.flatMap_cons, hprobe, Option.toList_none, List.map_nil, List.nil_append]
      exact ih.cons a
    | some item =>
      simp only [due, List.flatMap_cons, hprobe, Option.toList_some, List.map_cons, List.map_nil,
        List.singleton_append]
      exact ih.cons_cons a

/-- The share of a visited address is its probe. -/
theorem share_due {seen : List (Address × Entry.Aged α)} (hnodup : (seen.map (·.1)).Nodup)
    (hmem : (a, aged) ∈ seen) : share a (due seen) = aged.probe.toList := by
  induction seen with
  | nil => cases hmem
  | cons x rest ih =>
    obtain ⟨hnotin, hrest⟩ := List.nodup_cons.mp hnodup
    rw [due, List.flatMap_cons, share_append, share_map_mk]
    rcases List.mem_cons.mp hmem with rfl | hmem
    · have hnone : share a (due rest) = [] :=
        share_eq_nil fun hmem => hnotin ((sublist_due rest).subset hmem)
      rw [if_pos rfl]
      simpa [due] using hnone
    · have hne : x.1 ≠ a := by
        intro heq
        exact hnotin (List.mem_map.mpr ⟨(a, aged), hmem, heq.symm⟩)
      rw [if_neg hne, List.nil_append]
      exact ih hrest hmem

/-- A visited address is among the selected ones exactly if its own visit is selected. -/
theorem mem_selected {seen : List (Address × Entry.Aged α)} {p : Entry.Aging → Bool}
    (hnodup : (seen.map (·.1)).Nodup) (hmem : (a, aged) ∈ seen) :
    a ∈ (seen.filter (p ·.2.aging)).map (·.1) ↔ p aged.aging = true := by
  constructor
  · intro h
    obtain ⟨x, hx, hxa⟩ := List.mem_map.mp h
    obtain ⟨hx, hp⟩ := List.mem_filter.mp hx
    cases List.inj_on_of_nodup_map hnodup hx hmem hxa
    exact hp
  · intro hp
    exact List.mem_map.mpr ⟨(a, aged), List.mem_filter.mpr ⟨hmem, hp⟩, rfl⟩

/-! What the visits of a whole sweep say about the store it began with. -/

section Whole

variable {store : Store α} {order : List Address} {seen : List (Address × Entry.Aged α)}
  {x : Address × Entry.Aged α} {y : Address × Outbound α}

/-- No address is visited twice. -/
theorem Sees.nodup (h : Sees cfg now s order t seen) (hnodup : order.Nodup) :
    (seen.map (·.1)).Nodup :=
  h.sublist.nodup hnodup

/-- An address that was visited is reported as failed exactly if its entry was given up. -/
theorem Sees.mem_failed (h : Sees cfg now { store } order t seen) (hnodup : order.Nodup)
    (hx : x ∈ seen) : x.1 ∈ t.failed ↔ x.2.aging.isFailure = true := by
  rw [h.failed_eq]
  exact mem_selected (h.nodup hnodup) hx

/-- A visited entry remains as time left it, unless it has expired. -/
theorem Sees.find?_remaining (h : Sees cfg now { store } order t seen) (hnodup : order.Nodup)
    (hx : x ∈ seen) :
    t.remaining.find? x.1 = if x.2.aging.isExpiry then none else some x.2.entry := by
  obtain ⟨_, _, _, hafter⟩ := h.passes x hx
  have hexpired : x.1 ∈ t.expired ↔ x.2.aging.isExpiry = true := by
    rw [h.expired_eq]
    exact mem_selected (h.nodup hnodup) hx
  rw [Sweep.find?_remaining, hafter]
  simp only [hexpired]

/-- An address that was not visited had no entry. -/
theorem Sees.find?_missed (h : Sees cfg now { store } order t seen)
    (horder : order.Perm store.addresses) (ha : a ∉ seen.map (·.1)) : store.find? a = none := by
  cases hpresent : store.find? a with
  | none => rfl
  | some e =>
    have hmem : a ∈ order := by
      rw [horder.mem_iff, Store.mem_addresses_iff, hpresent]
      rfl
    exact hpresent ▸ h.missed a hmem ha

/-- A sweep of the whole store visits each address once. -/
theorem Sees.map_fst_eq (h : Sees cfg now { store } order t seen)
    (horder : order.Perm store.addresses) (hnodup : order.Nodup) : seen.map (·.1) = order := by
  have hall (a : Address) : a ∈ seen.map (·.1) ↔ a ∈ order := by
    refine ⟨fun ha => h.sublist.subset ha, fun ha => ?_⟩
    by_cases hseen : a ∈ seen.map (·.1)
    · exact hseen
    · have hpresent := Store.mem_addresses_iff.mp (horder.mem_iff.mp ha)
      rw [h.find?_missed horder hseen] at hpresent
      cases hpresent
  have hperm := (List.perm_ext_iff_of_nodup (h.nodup hnodup) hnodup).mpr hall
  exact h.sublist.eq_of_length hperm.length_eq

/-- A whole sweep has the probes of its visits. -/
theorem Sees.probes_eq_due (h : Sees cfg now { store } order t seen) :
    t.probes = (due seen).map (·.2) := by
  rw [map_snd_due]
  exact h.probes_eq

/-- Each probe of a sweep asks for its address. -/
theorem Sees.target (h : Sees cfg now { store } order t seen) (hy : y ∈ due seen) :
    y.2.target? = some y.1 := by
  obtain ⟨x, hx, haddress, hprobe⟩ := mem_due hy
  obtain ⟨e, hpresent, hpasses, _⟩ := h.passes x hx
  rw [hpasses.target hprobe, Store.address_of_find? hpresent, haddress]

/-- A sweep sends probes and nothing else. -/
theorem Sees.isProbe (h : Sees cfg now { store } order t seen) :
    ∀ item ∈ t.probes, item.isProbe = true := by
  intro item hitem
  rw [h.probes_eq_due] at hitem
  obtain ⟨y, hy, rfl⟩ := List.mem_map.mp hitem
  exact Outbound.isProbe_of_target (h.target hy)

/-- An address for which all stations are asked remains without a link address. -/
theorem Sees.unresolved (h : Sees cfg now { store } order t seen) (hnodup : order.Nodup)
    (hdynamic : ∀ e ∈ store.entries, e.mac? = none → e.kind = .dynamic) (hy : y ∈ due seen)
    (hitem : y.2 = .broadcastProbe y.1) :
    ∃ e, t.remaining.find? y.1 = some e ∧ e.kind = .dynamic ∧ e.mac? = none := by
  obtain ⟨x, hx, haddress, hprobe⟩ := mem_due hy
  obtain ⟨e, hpresent, hpasses, _⟩ := h.passes x hx
  obtain ⟨hstays, hbefore, hafter⟩ := hpasses.unresolved (hprobe.trans (congrArg some hitem))
  refine ⟨x.2.entry, ?_, ?_, hafter⟩
  · rw [← haddress, h.find?_remaining hnodup hx, hstays]
    rfl
  · rw [hpasses.kind_eq]
    exact hdynamic e (Store.mem_of_find? hpresent) hbefore

/-- A sweep asks all stations only for an entry that remains. -/
theorem Sees.asked (h : Sees cfg now { store } order t seen) (hnodup : order.Nodup)
    (hdynamic : ∀ e ∈ store.entries, e.mac? = none → e.kind = .dynamic) {b : Address}
    (hitem : .broadcastProbe b ∈ t.probes) : (t.remaining.find? b).isSome := by
  rw [h.probes_eq_due] at hitem
  obtain ⟨y, hy, hb⟩ := List.mem_map.mp hitem
  have htarget := h.target hy
  rw [hb] at htarget
  cases htarget
  obtain ⟨e, hfind, _⟩ := h.unresolved hnodup hdynamic hy hb
  rw [hfind]
  rfl

end Whole

end Sweep

namespace Cache

variable {c d : Cache α} {r : Responder} {now : Nat} {a : Address} {order : List Address}

/-- What a tick does to `a`: the entry afterwards and what is sent for it. The report names `a`
exactly if its entry was given up. -/
inductive Ages (r : Responder) (c : Cache α) (now : Nat) (a : Address) (report : TickReport) :
    Option (Entry α) → List (Outbound α) → Prop
  | absent (hfind : c.store.find? a = none) (hfailed : a ∉ report.failed) :
      Ages r c now a report none []
  | aged {e : Entry α} {aged : Entry.Aged α} (hfind : c.store.find? a = some e)
      (hpasses : e.Passes c.config now aged)
      (hfailed : a ∈ report.failed ↔ aged.aging.isFailure = true) :
      Ages r c now a report (aged.settled c.config r now).1 (aged.settled c.config r now).2

/-- An address of which nothing is handed over keeps its entry. -/
theorem Handed.of_nil {after : Option (Entry α)} {sent : List (Outbound α)}
    (h : Handed r c now a [] after sent) : after = c.store.find? a ∧ sent = [] := by
  cases h
  exact ⟨rfl, rfl⟩

/-- Handing over the probe of an aged entry, or removing an expired one, settles it. -/
theorem Handed.settled {e : Entry α} {aged : Entry.Aged α} {after : Option (Entry α)}
    {sent : List (Outbound α)} (hpasses : e.Passes c.config now aged) (haddress : e.address = a)
    (hfind : d.store.find? a = if aged.aging.isExpiry then none else some aged.entry)
    (hconfig : d.config = c.config) (h : Handed r d now a aged.probe.toList after sent) :
    after = (aged.settled c.config r now).1 ∧ sent = (aged.settled c.config r now).2 := by
  subst haddress
  cases hpasses with
  | idle | staled | gaveUp | expired =>
    obtain ⟨rfl, rfl⟩ := h.of_nil
    exact ⟨hfind, rfl⟩
  | rechecked | checked =>
    generalize hitems : Option.toList _ = items at h
    cases h with
    | quiet => exact ⟨hfind, hitems.symm⟩
    | asked => cases hitems
  | reprobed =>
    generalize hitems : Option.toList _ = items at h
    cases h with
    | quiet hnotin => exact absurd (hitems ▸ List.mem_cons_self) hnotin
    | asked hfind' =>
      rw [hfind] at hfind'
      cases hfind'
      rw [hconfig]
      exact ⟨rfl, rfl⟩

/-- No address is listed twice in an ordered store. -/
theorem nodup_addresses {s : Store α} (hs : s.Ordered) : s.addresses.Nodup := by
  unfold Store.addresses
  rw [List.nodup_iff_pairwise_ne, List.pairwise_map]
  refine List.Pairwise.imp ?_ hs
  intro x y hlt heq
  rw [heq] at hlt
  exact Nat.lt_irrefl _ hlt

/-- A tick visits each entry once. -/
theorem nodup_order {s : Store α} (hs : s.Ordered) (horder : order.Perm s.addresses) :
    order.Nodup := horder.nodup_iff.mpr (nodup_addresses hs)

/-- Once the probes of a sweep have been handed over, every address has been aged. -/
theorem ages_of_sees {t : Sweep α} {seen : List (Address × Entry.Aged α)} {after : Option (Entry α)}
    {sent : List (Outbound α)}
    (h : Sweep.Sees c.config now { store := c.store } order t seen)
    (horder : order.Perm c.store.addresses) (hnodup : order.Nodup) (hconfig : d.config = c.config)
    (hstore : d.store = t.remaining)
    (hhanded : Handed r d now a (share a (Sweep.due seen)) after sent) :
    Ages r c now a t.report after sent := by
  by_cases ha : a ∈ seen.map (·.1)
  · obtain ⟨x, hx, rfl⟩ := List.mem_map.mp ha
    obtain ⟨e, hpresent, hpasses, _⟩ := h.passes x hx
    rw [Sweep.share_due (h.nodup hnodup) hx] at hhanded
    have hremaining := h.find?_remaining hnodup hx
    rw [← hstore] at hremaining
    obtain ⟨rfl, rfl⟩ :=
      hhanded.settled hpasses (Store.address_of_find? hpresent) hremaining hconfig
    exact .aged hpresent hpasses (h.mem_failed hnodup hx)
  · -- without an entry there was nothing to visit, and nothing is handed over
    have hnotdue : a ∉ (Sweep.due seen).map (·.1) := fun hmem =>
      ha ((Sweep.sublist_due seen).subset hmem)
    rw [share_eq_nil hnotdue] at hhanded
    obtain ⟨rfl, rfl⟩ := hhanded.of_nil
    have habsent : d.store.find? a = none := by
      rw [hstore, Sweep.find?_remaining, h.unseen a ha, h.find?_missed horder ha, ite_self]
    rw [habsent]
    refine .absent (h.find?_missed horder ha) fun hmem => ha ?_
    change a ∈ t.failed at hmem
    rw [h.failed_eq] at hmem
    obtain ⟨x, hx, rfl⟩ := List.mem_map.mp hmem
    exact List.mem_map.mpr ⟨x, (List.mem_filter.mp hx).1, rfl⟩

/-- The cache that a finished sweep leaves, before the probes that are due are handed over. -/
def swept (c : Cache α) (t : Sweep α) : Cache α :=
  count (count (gauge { c with store := t.remaining }) .resolutionsFailed t.failed.length)
    .pendingDropped t.droppedPending

/-- A tick edits the store. -/
theorem edits_swept {t : Sweep α} {seen : List (Address × Entry.Aged α)}
    (h : Sweep.Sees c.config now { store := c.store } order t seen) :
    Store.Edits c.store (c.swept t).store := h.edits.trans Sweep.edits_remaining

/-- A tick that goes through sweeps the whole store and then hands over the probes that are due. -/
theorem sweeps_of_tick {o : Outcome α TickReport} (hnodup : order.Nodup)
    (h : c.tickInOrder r now order = .ok o) :
    ∃ t seen o', Sweep.visitAll c.config now { store := c.store } order = .ok t ∧
      Sweep.Sees c.config now { store := c.store } order t seen ∧
      handOver r now (c.swept t) t.probes = .ok o' ∧ o.cache = o'.cache ∧ o.answer = t.report ∧
      o.sent = o'.sent := by
  unfold tickInOrder at h
  split at h
  · cases h
  · next t hvisit =>
    obtain ⟨seen, hsees⟩ := Sweep.sees_of_visitAll hnodup hvisit
    obtain ⟨o', hmapped, rfl⟩ := Attempt.warnedAfter_eq_ok h
    obtain ⟨o'', hhand, rfl⟩ := Attempt.mapAnswer_eq_ok hmapped
    exact ⟨t, seen, o'', hvisit, hsees, hhand, rfl, rfl, rfl⟩

/-- A tick ages every address, in whatever order it visits them. -/
theorem tickInOrder_ages {o : Outcome α TickReport} (hs : c.store.WellFormed)
    (hdynamic : ∀ e ∈ c.store.entries, e.mac? = none → e.kind = .dynamic)
    (horder : order.Perm c.store.addresses) (h : c.tickInOrder r now order = .ok o) :
    o.cache.config = c.config ∧ Store.Edits c.store o.cache.store ∧
      ∃ sent, sent.map (·.2) = o.sent ∧
        ∀ a, Ages r c now a o.answer (o.cache.store.find? a) (share a sent) := by
  have hnodup := nodup_order hs.ordered horder
  obtain ⟨t, seen, o', _, hsees, hhand, hcache, hanswer, hout⟩ := sweeps_of_tick hnodup h
  rw [hcache, hanswer, hout]
  have hedits := edits_swept hsees
  have hopen : ∀ y ∈ Sweep.due seen, y.2 = .broadcastProbe y.1 →
      ∃ e, (c.swept t).store.find? y.1 = some e ∧ e.kind = .dynamic ∧ e.mac? = none :=
    fun y hy => hsees.unresolved hnodup hdynamic hy
  rw [hsees.probes_eq_due] at hhand
  obtain ⟨hconfig, hedits', sent, hsent, hhanded⟩ := handOver_handed (hedits.wellFormed hs)
    (fun y hy => hsees.target hy) ((Sweep.sublist_due seen).nodup (hsees.nodup hnodup)) hopen hhand
  exact ⟨hconfig, hedits.trans hedits', sent, hsent, fun a =>
    ages_of_sees (d := c.swept t) hsees horder hnodup rfl rfl (hhanded a)⟩

/-- A tick ages every address. -/
theorem tick_ages {o : Outcome α TickReport} (hs : c.store.WellFormed)
    (hdynamic : ∀ e ∈ c.store.entries, e.mac? = none → e.kind = .dynamic)
    (h : c.tick r now = .ok o) :
    o.cache.config = c.config ∧ Store.Edits c.store o.cache.store ∧
      ∃ sent, sent.map (·.2) = o.sent ∧
        ∀ a, Ages r c now a o.answer (o.cache.store.find? a) (share a sent) :=
  tickInOrder_ages hs hdynamic (.refl _) h

end Cache

end Neighbor
