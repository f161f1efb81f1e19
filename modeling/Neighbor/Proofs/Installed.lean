import Mathlib.Data.List.Induction
import Neighbor.Proofs.Renewal
import Neighbor.Proofs.Usable

/-!
# What a configured cache starts with

The configured bindings are installed one after the other. The first different addresses that the
cache has room for are admitted, and a later binding of an admitted address takes the place of the
earlier one. `Cache.create_installs` says that a configured cache holds those bindings and nothing
else, and that checked settings get all their bindings installed. Permanent entries are never
evicted, so that a full cache refuses further addresses and keeps what it has.
-/

namespace Neighbor

variable {α : Type}

/-- The addresses of the bindings that find room: the first different ones, in order. -/
def admitted (capacity : Nat) (bindings : List (Address × Mac)) : List Address :=
  (bindings.map (·.1)).eraseDups.take capacity

/-- The addresses of the bindings that find no room, one for each binding. -/
def turnedAway (capacity : Nat) (bindings : List (Address × Mac)) : List Address :=
  (bindings.map (·.1)).filter (· ∉ admitted capacity bindings)

/-- What is left, answered and shown when `bindings` have been installed in an empty cache. -/
structure Installed (cfg : Config) (bindings : List (Address × Mac)) (o : Outcome α Unit) :
    Prop where
  config_eq : o.cache.config = cfg
  /-- There is one entry for each admitted address, and no other. -/
  addresses : o.cache.store.addresses.Perm (admitted cfg.capacity bindings)
  /-- It is permanent and holds the link address of the last binding. -/
  bound : ∀ a ∈ admitted cfg.capacity bindings, ∃ e mac, o.cache.store.find? a = some e ∧
    e.kind = .permanent ∧ e.status = .reachable mac ∧ bindings.reverse.lookup a = some mac
  sent : o.sent = []
  warnings : o.warnings = (turnedAway cfg.capacity bindings).map .noRoomForPermanent
  /-- Nothing is counted, and the gauge shows the number of entries. -/
  metrics : o.cache.metrics =
    { entries := UInt64.ofNat (admitted cfg.capacity bindings).length }

section Admitted

variable {capacity : Nat} {bindings : List (Address × Mac)} {a b : Address} {mac : Mac}

/-- The last address is dropped if it is an earlier one. -/
theorem eraseDups_snoc (xs : List Address) (a : Address) :
    (xs ++ [a]).eraseDups = xs.eraseDups ++ if a ∈ xs then [] else [a] := by
  rw [List.eraseDups_append]
  by_cases h : a ∈ xs
  · simp [List.removeAll, h]
  · simp [List.removeAll, h, List.eraseDups_cons]

/-- No address is left twice when repetitions are removed. -/
theorem nodup_eraseDups (xs : List Address) : xs.eraseDups.Nodup := by
  induction xs using List.reverseRecOn with
  | nil => simp
  | append_singleton xs a ih =>
    rw [eraseDups_snoc]
    split
    · rwa [List.append_nil]
    · next h =>
      refine List.nodup_append.mpr ⟨ih, List.nodup_singleton a, fun x hx y hy hxy => ?_⟩
      rw [List.mem_singleton.mp hy] at hxy
      exact h (hxy ▸ List.mem_eraseDups.mp hx)

/-- Different addresses are all kept. -/
theorem eraseDups_of_nodup {xs : List Address} (h : xs.Nodup) : xs.eraseDups = xs := by
  induction xs using List.reverseRecOn with
  | nil => rfl
  | append_singleton xs a ih =>
    obtain ⟨hxs, _, hdistinct⟩ := List.nodup_append.mp h
    have hnew : a ∉ xs := fun ha => hdistinct a ha a (List.mem_singleton_self a) rfl
    rw [eraseDups_snoc, ih hxs, if_neg hnew]

/-- No address is admitted twice. -/
theorem nodup_admitted : (admitted capacity bindings).Nodup :=
  (List.take_sublist _ _).nodup (nodup_eraseDups _)

/-- While there is room, every address has been admitted. -/
theorem mem_admitted_of_room (h : (admitted capacity bindings).length < capacity)
    (hmem : a ∈ bindings.map (·.1)) : a ∈ admitted capacity bindings := by
  have hall : admitted capacity bindings = (bindings.map (·.1)).eraseDups := by
    rw [admitted, List.length_take] at h
    exact List.take_of_length_le (by omega)
  rw [hall]
  exact List.mem_eraseDups.mpr hmem

/-- Another binding of an admitted address changes nothing of what is admitted. -/
theorem admitted_of_mem (h : a ∈ admitted capacity bindings) :
    admitted capacity (bindings ++ [(a, mac)]) = admitted capacity bindings := by
  have hold : a ∈ bindings.map (·.1) := List.mem_eraseDups.mp (List.mem_of_mem_take h)
  rw [admitted, List.map_append, List.map_singleton, eraseDups_snoc, if_pos hold, List.append_nil]
  rfl

/-- A new address is admitted while there is room. -/
theorem admitted_of_room (h : a ∉ admitted capacity bindings)
    (hroom : (admitted capacity bindings).length < capacity) :
    admitted capacity (bindings ++ [(a, mac)]) = admitted capacity bindings ++ [a] := by
  have hnew : a ∉ bindings.map (·.1) := fun hmem => h (mem_admitted_of_room hroom hmem)
  rw [admitted, List.length_take] at hroom
  rw [admitted, admitted, List.map_append, List.map_singleton, eraseDups_snoc, if_neg hnew,
    List.take_of_length_le (by simp; omega), List.take_of_length_le (by omega)]

/-- When there is no room, nothing more is admitted. -/
theorem admitted_of_full (hfull : capacity ≤ (admitted capacity bindings).length) :
    admitted capacity (bindings ++ [(a, mac)]) = admitted capacity bindings := by
  rw [admitted, List.length_take] at hfull
  rw [admitted, admitted, List.map_append, List.map_singleton, eraseDups_snoc,
    List.take_append_of_le_length (by omega)]

/-- Whether an address is admitted shows at its first binding. -/
theorem mem_admitted_snoc (h : b ∈ bindings.map (·.1)) :
    b ∈ admitted capacity (bindings ++ [(a, mac)]) ↔ b ∈ admitted capacity bindings := by
  by_cases ha : a ∈ admitted capacity bindings
  · rw [admitted_of_mem ha]
  · by_cases hroom : (admitted capacity bindings).length < capacity
    · rw [admitted_of_room ha hroom, List.mem_append]
      exact or_iff_left_of_imp fun _ => mem_admitted_of_room hroom h
    · rw [admitted_of_full (Nat.not_lt.mp hroom)]

/-- A binding is turned away if its address is not admitted with it. -/
theorem turnedAway_snoc :
    turnedAway capacity (bindings ++ [(a, mac)]) = turnedAway capacity bindings ++
      if a ∈ admitted capacity (bindings ++ [(a, mac)]) then [] else [a] := by
  have hsame : (bindings.map (·.1)).filter (· ∉ admitted capacity (bindings ++ [(a, mac)])) =
      turnedAway capacity bindings := by
    refine List.filter_congr fun b hb => ?_
    rw [decide_eq_decide, mem_admitted_snoc hb]
  rw [turnedAway, List.map_append, List.filter_append, hsame, List.map_singleton]
  by_cases h : a ∈ admitted capacity (bindings ++ [(a, mac)]) <;> simp [h]

/-- Different addresses for which there is room are all admitted. -/
theorem admitted_of_nodup (hnodup : (bindings.map (·.1)).Nodup)
    (hroom : bindings.length ≤ capacity) : admitted capacity bindings = bindings.map (·.1) := by
  rw [admitted, eraseDups_of_nodup hnodup, List.take_of_length_le (by simpa using hroom)]

/-- The last binding of an address counts. -/
theorem lookup_snoc :
    (bindings ++ [(a, mac)]).reverse.lookup b =
      if b = a then some mac else bindings.reverse.lookup b := by
  rw [List.reverse_append, List.reverse_singleton, List.singleton_append, List.lookup_cons]
  by_cases h : b = a
  · rw [if_pos h, beq_iff_eq.mpr h]
  · rw [if_neg h, beq_eq_false_iff_ne.mpr h]

end Admitted

section

variable {c : Cache α} {cfg : Config} {now : Nat} {a b : Address} {mac : Mac}
  {bindings : List (Address × Mac)} {o : Outcome α Unit}

/-- A store of permanent entries has none to evict. -/
theorem Store.victim?_of_permanent {s : Store α} (h : ∀ e ∈ s.entries, e.kind = .permanent) :
    s.victim? = none :=
  victim?_eq_none_iff.mpr fun e he hspare => nomatch (h e he).symm.trans hspare.kind_eq

namespace Cache

/-- What a permanent binding comes to in a cache of permanent entries: it finds no room, or the
address gets an entry and nothing else changes. -/
theorem pin_of_permanent (hc : c.Coherent) (h : ∀ e ∈ c.store.entries, e.kind = .permanent)
    (now : Nat) (a : Address) (mac : Mac) :
    c.store.find? a = none ∧ c.store.capacity ≤ c.store.size ∧
        c.pin now a mac = { cache := c, answer := .error .noSpace } ∨
      ((c.store.find? a).isSome = true ∨ c.store.size < c.store.capacity) ∧
        ∃ s e, c.pin now a mac = { cache := gauge { c with store := s }, answer := .ok none } ∧
          (∀ b, s.find? b = if b = a then some e else c.store.find? b) ∧
          e.kind = .permanent ∧ e.status = .reachable mac := by
  have hvictim := Store.victim?_of_permanent h
  have hpinned := c.pin_pinned now a mac
  generalize c.pin now a mac = o at hpinned ⊢
  cases hpinned with
  | refused hadmits =>
    obtain ⟨hfind, hfull, _⟩ := Store.stuck_of_admits hadmits
    exact .inl ⟨hfind, hfull, rfl⟩
  | @pinned x hclaims =>
    have haddress : (x.entry.pin mac now).1.address = a := hclaims.address_eq
    have hfinds := (hclaims.ousts hc.wellFormed.ordered haddress).find?_eq
    have hwaiting : x.entry.waiting = [] := by
      rw [hclaims.entry_eq]
      cases hfind : c.store.find? a with
      | none =>
        rw [Store.entryFor_of_none hfind]
        rfl
      | some e =>
        obtain ⟨hstate, _⟩ := (hc.of_find? hfind).permanent (h e (Store.mem_of_find? hfind))
        rw [Store.entryFor_of_some hfind]
        exact Entry.waiting_of_state (hstate.trans_ne (by decide))
    obtain ⟨hroom, hevicted⟩ :
        ((c.store.find? a).isSome = true ∨ c.store.size < c.store.capacity) ∧ x.evicted = none := by
      cases hclaims with
      | found hfind => exact ⟨.inl (by rw [hfind]; rfl), rfl⟩
      | roomy _ hroom => exact ⟨.inr hroom, rfl⟩
      | evicting _ _ hvictim' => cases hvictim.symm.trans hvictim'
    refine .inr ⟨hroom, x.store.put (x.entry.pin mac now).1, (x.entry.pin mac now).1, ?_,
      fun b => ?_, rfl, rfl⟩
    · simp [hevicted, hwaiting, settle]
    · split
      · next hb => rw [Store.find?_put, haddress, if_pos hb]
      · next hb => simpa [hevicted] using hfinds b hb

end Cache

namespace Installed

/-- An address is admitted exactly if it has an entry. -/
theorem isSome_iff (h : Installed cfg bindings o) (b : Address) :
    (o.cache.store.find? b).isSome = true ↔ b ∈ admitted cfg.capacity bindings := by
  rw [← Store.mem_addresses_iff, h.addresses.mem_iff]

/-- There are as many entries as admitted addresses. -/
theorem size_eq (h : Installed cfg bindings o) :
    o.cache.store.size = (admitted cfg.capacity bindings).length := by
  simpa [Store.addresses, Store.size] using h.addresses.length_eq

/-- All entries are permanent. -/
theorem permanent (h : Installed cfg bindings o) (hc : o.cache.Coherent) :
    ∀ e ∈ o.cache.store.entries, e.kind = .permanent := by
  intro e he
  have hfind := (hc.wellFormed.ordered.mem_iff e).mp he
  obtain ⟨e', _, hfind', hkind, _⟩ := h.bound e.address ((h.isSome_iff _).mp (by rw [hfind]; rfl))
  cases hfind.symm.trans hfind'
  exact hkind

/-- One more binding for which there is no room. -/
theorem refused (h : Installed cfg bindings o) (hnone : o.cache.store.find? a = none)
    (hfull : cfg.capacity ≤ o.cache.store.size)
    (hpin : o.cache.pin now a mac = { cache := o.cache, answer := .error .noSpace }) :
    Installed cfg (bindings ++ [(a, mac)]) (Cache.install now o (a, mac)) := by
  have ha : a ∉ admitted cfg.capacity bindings := by
    rw [← h.isSome_iff, hnone]
    nofun
  rw [h.size_eq] at hfull
  have hsame : admitted cfg.capacity (bindings ++ [(a, mac)]) = admitted cfg.capacity bindings :=
    admitted_of_full hfull
  have hinstall : Cache.install now o (a, mac) =
      { cache := o.cache, answer := (), sent := o.sent
        warnings := o.warnings ++ [.noRoomForPermanent a] } := by
    simp [Cache.install, hpin]
  rw [hinstall]
  refine ⟨h.config_eq, hsame ▸ h.addresses, fun b hb => ?_, h.sent, ?_, hsame ▸ h.metrics⟩
  · rw [hsame] at hb
    obtain ⟨e, mac', hbound⟩ := h.bound b hb
    rw [lookup_snoc, if_neg (fun heq : b = a => ha (heq ▸ hb))]
    exact ⟨e, mac', hbound⟩
  · rw [turnedAway_snoc, hsame, if_neg ha, List.map_append, ← h.warnings]
    rfl

/-- One more binding for an address that has an entry or gets one. -/
theorem added {s : Store α} {e : Entry α} (h : Installed cfg bindings o) (hs : s.Ordered)
    (hroom : (o.cache.store.find? a).isSome = true ∨ o.cache.store.size < cfg.capacity)
    (hpin : o.cache.pin now a mac =
      { cache := Cache.gauge { o.cache with store := s }, answer := .ok none })
    (hfind : ∀ b, s.find? b = if b = a then some e else o.cache.store.find? b)
    (hkind : e.kind = .permanent) (hstatus : e.status = .reachable mac) :
    Installed cfg (bindings ++ [(a, mac)]) (Cache.install now o (a, mac)) := by
  rw [h.isSome_iff, h.size_eq] at hroom
  have hadmitted (b : Address) : b ∈ admitted cfg.capacity (bindings ++ [(a, mac)]) ↔
      b = a ∨ b ∈ admitted cfg.capacity bindings := by
    by_cases ha : a ∈ admitted cfg.capacity bindings
    · rw [admitted_of_mem ha]
      exact (or_iff_right_of_imp fun hb => hb ▸ ha).symm
    · rw [admitted_of_room ha (hroom.resolve_left ha), List.mem_append, List.mem_singleton,
        or_comm]
  have hperm : s.addresses.Perm (admitted cfg.capacity (bindings ++ [(a, mac)])) := by
    refine (List.perm_ext_iff_of_nodup (Cache.nodup_addresses hs) nodup_admitted).mpr fun b => ?_
    rw [Store.mem_addresses_iff, hfind, hadmitted, ← h.isSome_iff]
    split
    · next hb => simp [hb]
    · next hb => simp [hb]
  have hsize : s.size = (admitted cfg.capacity (bindings ++ [(a, mac)])).length := by
    simpa [Store.addresses, Store.size] using hperm.length_eq
  have hinstall : Cache.install now o (a, mac) =
      { cache := Cache.gauge { o.cache with store := s }, answer := (), sent := o.sent
        warnings := o.warnings } := by
    simp [Cache.install, hpin]
  rw [hinstall]
  refine ⟨h.config_eq, hperm, fun b hb => ?_, h.sent, ?_, ?_⟩
  · change ∃ e mac', s.find? b = some e ∧ _
    rw [hfind, lookup_snoc]
    split
    · exact ⟨e, mac, rfl, hkind, hstatus, rfl⟩
    · next hne => exact h.bound b (((hadmitted b).mp hb).resolve_left hne)
  · rw [turnedAway_snoc, if_pos ((hadmitted a).mpr (.inl rfl)), List.append_nil]
    exact h.warnings
  · change o.cache.metrics.set .entries (UInt64.ofNat s.size) = _
    rw [h.metrics, hsize]
    rfl

/-- Installing one more binding. -/
theorem snoc (h : Installed cfg bindings o) (hc : o.cache.Coherent)
    (hcapacity : o.cache.store.capacity = cfg.capacity) (now : Nat) (binding : Address × Mac) :
    Installed cfg (bindings ++ [binding]) (Cache.install now o binding) := by
  obtain ⟨a, mac⟩ := binding
  rcases Cache.pin_of_permanent hc (h.permanent hc) now a mac with
    ⟨hnone, hfull, hpin⟩ | ⟨hroom, s, e, hpin, hfind, hkind, hstatus⟩
  · exact h.refused hnone (hcapacity ▸ hfull) hpin
  · have hpinned := (Cache.pin_follows hc now a mac).coherent hc
    rw [hpin] at hpinned
    exact h.added hpinned.wellFormed.ordered (hcapacity ▸ hroom) hpin hfind hkind hstatus

end Installed

namespace Cache

/-- What installing bindings in an empty cache comes to. -/
def installAll (cfg : Config) (now : Nat) (bindings : List (Address × Mac)) : Outcome α Unit :=
  bindings.foldl (install now) { cache := .empty cfg, answer := () }

/-- Whatever the bindings are, the admitted ones are installed. -/
theorem installAll_installed (cfg : Config) (now : Nat) (bindings : List (Address × Mac)) :
    Installed cfg bindings (installAll cfg now bindings : Outcome α Unit) ∧
      (installAll cfg now bindings : Outcome α Unit).cache.Coherent ∧
      (installAll cfg now bindings : Outcome α Unit).cache.store.capacity = cfg.capacity := by
  induction bindings using List.reverseRecOn with
  | nil =>
    refine ⟨⟨rfl, ?_, ?_, rfl, rfl, ?_⟩, empty_coherent cfg, rfl⟩
    · simp [admitted, installAll, empty, Store.empty, Store.addresses]
    · simp [admitted]
    · simp [admitted, installAll, empty]
  | append_singleton bindings binding ih =>
    obtain ⟨hinstalled, hcoherent, hcapacity⟩ := ih
    have hfollows := pin_follows hcoherent now binding.1 binding.2
    rw [installAll, List.foldl_append]
    exact ⟨hinstalled.snoc hcoherent hcapacity now binding, hfollows.coherent hcoherent,
      hfollows.edits.bounds.1.trans hcapacity⟩

end Cache

/-- If all addresses differ and there is room for them, all bindings are installed as they are. -/
theorem Installed.all (h : Installed cfg bindings o) (hnodup : (bindings.map (·.1)).Nodup)
    (hroom : bindings.length ≤ cfg.capacity) :
    o.warnings = [] ∧ ∀ binding ∈ bindings, ∃ e, o.cache.store.find? binding.1 = some e ∧
      e.kind = .permanent ∧ e.status = .reachable binding.2 := by
  have hall := admitted_of_nodup hnodup hroom
  refine ⟨?_, fun binding hmem => ?_⟩
  · rw [h.warnings, turnedAway, hall, List.map_eq_nil_iff, List.filter_eq_nil_iff]
    intro a ha
    simpa using ha
  · obtain ⟨e, mac, hfind, hkind, hstatus, hlookup⟩ := h.bound binding.1 (by
      rw [hall]
      exact List.mem_map_of_mem hmem)
    -- there is no other binding of the address
    obtain ⟨before, behind, hsplit, _⟩ := List.lookup_eq_some_iff.mp hlookup
    have hlast : (binding.1, mac) ∈ bindings := by
      rw [← List.mem_reverse, hsplit]
      exact List.mem_append_right _ List.mem_cons_self
    have hsame : binding = (binding.1, mac) := List.inj_on_of_nodup_map hnodup hmem hlast rfl
    exact ⟨e, hfind, hkind, by rw [hstatus, hsame]⟩

/-- A binding that is written down is one of those read. -/
theorem BindingSettings.mem_of_mapM {written : List BindingSettings} {b : BindingSettings}
    (h : written.mapM resolve = .ok bindings) (hb : b ∈ written) :
    ∃ mac, b.resolve = .ok (b.address, mac) ∧ (b.address, mac) ∈ bindings := by
  induction written generalizing bindings with
  | nil => cases hb
  | cons first rest ih =>
    rw [List.mapM_cons] at h
    cases hfirst : first.resolve with
    | error e =>
      rw [hfirst] at h
      cases h
    | ok binding =>
      cases hrest : rest.mapM resolve with
      | error e =>
        rw [hfirst, hrest] at h
        cases h
      | ok others =>
        rw [hfirst, hrest] at h
        cases h
        rcases List.mem_cons.mp hb with rfl | hb
        · obtain ⟨a, mac⟩ := binding
          obtain rfl := address_of_resolve hfirst
          exact ⟨mac, hfirst, List.mem_cons_self⟩
        · obtain ⟨mac, hread, hmem⟩ := ih hrest hb
          exact ⟨mac, hread, List.mem_cons_of_mem _ hmem⟩

/-- Settings that pass the check make a configuration with room for its bindings, which are those
that are written down and can be installed. -/
theorem Settings.exists_filled (s : Settings) (h : s.isValid = true) :
    ∃ permanent, s.bindings.mapM BindingSettings.resolve = .ok permanent ∧
      s.resolve = .ok (s.filled permanent) ∧ Installable permanent ∧
      permanent.length ≤ (s.filled permanent).capacity := by
  rw [isValid, List.isEmpty_iff, problems, List.append_eq_nil_iff, List.append_eq_nil_iff,
    BindingSettings.allProblems_eq_nil_iff] at h
  obtain ⟨⟨_, hrelations⟩, permanent, hread, hinstall, _⟩ := h
  have hresolve : s.resolve = .ok (s.filled permanent) := by
    rw [resolve_eq, hread]
    rfl
  rw [hresolve] at hrelations
  exact ⟨permanent, hread, hresolve, hinstall,
    ((Config.consistent_iff _).mpr hrelations).permanent_le_capacity⟩

namespace Cache

/-- A configured cache holds what was admitted of its bindings and nothing else: one entry for each
of the first different addresses that it has room for, with the link address that the last binding
names. It warns of each binding of another address, and none evicts anything. Settings that pass the
check have all their bindings installed, without a warning. -/
theorem create_installs (now : Nat) :
    (∀ cfg : Config,
      Installed cfg cfg.permanent (create cfg now : Outcome α Unit) ∧
        ∀ xs binding ys, cfg.permanent = xs ++ binding :: ys → ∀ evicted,
          ((installAll cfg now xs : Outcome α Unit).cache.pin now binding.1 binding.2).answer =
            .ok evicted → evicted = none) ∧
      ∀ s : Settings, s.isValid = true → ∃ cfg, s.resolve = .ok cfg ∧
        (create cfg now : Outcome α Unit).warnings = [] ∧
        ∀ b ∈ s.bindings, ∃ mac e, b.resolve = .ok (b.address, mac) ∧
          (create cfg now : Outcome α Unit).cache.store.find? b.address = some e ∧
          e.kind = .permanent ∧ e.status = .reachable mac := by
  refine ⟨fun cfg => ⟨(installAll_installed cfg now cfg.permanent).1, ?_⟩, fun s hvalid => ?_⟩
  · intro xs binding ys _ evicted hanswer
    obtain ⟨hinstalled, hcoherent, _⟩ := installAll_installed (α := α) cfg now xs
    rcases pin_of_permanent hcoherent (hinstalled.permanent hcoherent) now binding.1 binding.2 with
      ⟨_, _, hpin⟩ | ⟨_, s, e, hpin, _⟩
    · rw [hpin] at hanswer
      cases hanswer
    · rw [hpin] at hanswer
      cases hanswer
      rfl
  · obtain ⟨permanent, hread, hresolve, hinstall, hroom⟩ := s.exists_filled hvalid
    have hinstalled := (installAll_installed (α := α) (s.filled permanent) now permanent).1
    obtain ⟨hwarnings, hbound⟩ := hinstalled.all hinstall.distinct hroom
    refine ⟨s.filled permanent, hresolve, hwarnings, fun b hb => ?_⟩
    obtain ⟨mac, hmac, hmem⟩ := BindingSettings.mem_of_mapM hread hb
    obtain ⟨e, hfind, hkind, hstatus⟩ := hbound _ hmem
    exact ⟨mac, e, hmac, hfind, hkind, hstatus⟩

/-- Bindings of two addresses, the first of which changes its station. -/
def crowd : List (Address × Mac) :=
  [(⟨10, 0, 0, 1⟩, ⟨2, 0, 0, 0, 0, 1⟩), (⟨10, 0, 0, 2⟩, ⟨2, 0, 0, 0, 0, 2⟩),
    (⟨10, 0, 0, 1⟩, ⟨2, 0, 0, 0, 0, 3⟩)]

/-- Settings for two bindings and no more. -/
def pair : Settings :=
  { cache := { capacity := some 2 }
    bindings :=
      [⟨⟨10, 0, 0, 1⟩, "02:00:00:00:00:01"⟩, ⟨⟨10, 0, 0, 2⟩, "02:00:00:00:00:02"⟩] }

/-- With room for one address the second is turned away and the first gets its last station. Checked
settings leave nothing to warn of. -/
theorem create_installs_of_crowd :
    let o : Outcome Nat Unit := create { Config.brief with permanent := crowd } 0
    o.warnings = [.noRoomForPermanent ⟨10, 0, 0, 2⟩] ∧
      (∃ e, o.cache.store.find? ⟨10, 0, 0, 1⟩ = some e ∧
        e.status = .reachable ⟨2, 0, 0, 0, 0, 3⟩) ∧
      pair.isValid = true ∧
      ∃ cfg, pair.resolve = .ok cfg ∧ (create cfg 0 : Outcome Nat Unit).warnings = [] := by
  intro o
  obtain ⟨hinstalled, _⟩ :=
    (create_installs (α := Nat) 0).1 { Config.brief with permanent := crowd }
  have hvalid : pair.isValid = true := by decide +kernel
  obtain ⟨cfg, hresolve, hwarnings, _⟩ := (create_installs (α := Nat) 0).2 pair hvalid
  refine ⟨hinstalled.warnings, ?_, hvalid, cfg, hresolve, hwarnings⟩
  obtain ⟨e, mac, hfind, _, hstatus, hlookup⟩ := hinstalled.bound ⟨10, 0, 0, 1⟩ (by decide +kernel)
  have hlast : crowd.reverse.lookup ⟨10, 0, 0, 1⟩ = some ⟨2, 0, 0, 0, 0, 3⟩ := by decide
  cases hlast.symm.trans hlookup
  exact ⟨e, hfind, hstatus⟩

end Cache

end

end Neighbor
