import Neighbor.Proofs.Effect

/-!
# Permanent bindings

A permanent entry takes no evidence, is never due and may not be evicted, so no call takes it away
or changes its link address but one that names it: another permanent binding of its address, or a
removal. `Cache.Reached.permanent_stays` says what a user sees of it, whatever else happens to the
cache.
-/

namespace Neighbor

variable {α : Type}

/-- Whether a call may take a permanent binding of `a` away or put another in its place. -/
def Call.overrides (a : Address) : Call α → Bool
  | .pin b _ => b == a
  | .invalidate b => b == a
  | .invalidateAll => true
  | _ => false

section

variable {r : Responder} {c : Cache α} {now : Nat} {a : Address} {call : Call α} {mac : Mac}
  {e : Entry α}

/-- A call that does not override it leaves a permanent entry and sends no probe for it. -/
theorem Effect.permanent {after : Option (Entry α)} {sent : List (Outbound α)}
    (h : Effect r c now a call after sent) (hcall : call.overrides a = false)
    (hfind : c.store.find? a = some e) (hkind : e.kind = .permanent) :
    (∃ e', after = some e' ∧ e.Continues e') ∧ ∀ x ∈ sent, x.target? = none := by
  have hdynamic (hbefore : ∀ x, c.store.find? a = some x → x.kind = .dynamic) : False := by
    cases hkind.symm.trans (hbefore e hfind)
  cases h with
  | absent hnone => cases hfind.symm.trans hnone
  | gone hfind' hcause =>
    cases hfind.symm.trans hfind'
    rcases hcause with hsoft | rfl | rfl
    · cases hkind.symm.trans hsoft
    · simp [Call.overrides] at hcall
    · cases hcall
  | kept hfind' hcontinues =>
    cases hfind.symm.trans hfind'
    exact ⟨⟨_, rfl, hcontinues⟩, nofun⟩
  | passed hfind' hcontinues =>
    cases hfind.symm.trans hfind'
    exact ⟨⟨_, rfl, hcontinues⟩, fun x hx => by rw [List.mem_singleton.mp hx]; rfl⟩
  | checked hfind' _ _ hsoft =>
    cases hfind.symm.trans hfind'
    cases hkind.symm.trans hsoft
  | unbound hbefore | bound hbefore => exact (hdynamic hbefore).elim
  | pinned hpin =>
    rw [hpin] at hcall
    simp [Call.overrides] at hcall

namespace Cache

/-- A packet for a reachable address is passed on at once. -/
theorem resolve_of_reachable {packet : α} (hs : c.store.WellFormed)
    (hfind : c.store.find? a = some e) (hmac : e.mac? = some mac) (hstate : e.state = .reachable) :
    c.resolve r now a packet = .ok
      { cache := gauge { c with store := c.store.put (e.used c.config now) }
        answer := (.resolved mac, none)
        sent := [.packet packet mac] } := by
  have hvacant : ¬c.Vacant now a := fun hvacant => by
    cases hstate.symm.trans (hvacant e hfind).1
  have hplaced := resolve_placed hs r now a packet
  generalize c.resolve r now a packet = attempt at hplaced ⊢
  cases hplaced with
  | refused hfind' hfailed =>
    cases hfind.symm.trans hfind'
    cases hstate.symm.trans hfailed
  | noRoom hnone => cases hfind.symm.trans hnone
  | opened hvacant' | unopened hvacant' => exact absurd hvacant' hvacant
  | passed hfind' hmac' =>
    cases hfind.symm.trans hfind'
    cases hmac.symm.trans hmac'
    rfl
  | parked hfind' hstatus =>
    cases hfind.symm.trans hfind'
    cases hstate.symm.trans (congrArg Status.state hstatus)
  | unused hfind' hstale =>
    cases hfind.symm.trans hfind'
    cases hstate.symm.trans hstale

/-- No hint counts for a permanent entry. -/
theorem confirm_of_permanent (hfind : c.store.find? a = some e) (hkind : e.kind = .permanent) :
    c.confirm now a = .ok { cache := c, answer := false } := by
  have hhinted := c.confirm_hinted now a
  generalize c.confirm now a = attempt at hhinted ⊢
  cases hhinted with
  | ignored => rfl
  | counted hfind' _ haccepts | halted hfind' _ haccepts =>
    cases hfind.symm.trans hfind'
    cases hkind.symm.trans (Entry.kind_of_accepts haccepts)

/-- The cache holds the permanent entry `e` for `a`, or what continues it. -/
def Holds (c : Cache α) (a : Address) (e : Entry α) : Prop :=
  e.kind = .permanent ∧ ∃ e', c.store.find? a = some e' ∧ e.Continues e'

/-- What holds a permanent entry shows its link address. -/
theorem Holds.lookup (h : c.Holds a e) (hc : c.Coherent) (hmac : e.mac? = some mac) :
    c.lookup a = some (mac, .reachable) := by
  obtain ⟨hkind, e', hfind, hcontinues⟩ := h
  obtain ⟨hstate, _⟩ := (hc.of_find? hfind).permanent (hcontinues.kind_eq.trans hkind)
  simp [Cache.lookup, hfind, hcontinues.mac?_eq, hmac, hstate]

/-- A request that does not override it keeps a permanent entry and sends no probe for it. -/
theorem Holds.serve {q : Request α} (h : c.Holds a e) (hc : c.Coherent)
    (hq : q.call.overrides a = false) :
    (c.serve q).left.Holds a e ∧ ∀ x ∈ (c.serve q).sent, x.target? ≠ some a := by
  obtain ⟨hkind, e', hfind, hcontinues⟩ := h
  obtain ⟨sent, hserves⟩ := hc.serves q
  obtain ⟨⟨e'', hafter, hcontinues'⟩, hquiet⟩ :=
    (hserves.effect a).permanent hq hfind (hcontinues.kind_eq.trans hkind)
  refine ⟨⟨hkind, e'', hafter, hcontinues.trans hcontinues'⟩, fun x hx htarget => ?_⟩
  cases htarget.symm.trans (hquiet x (hserves.mem_share hx htarget))

/-- Requests that do not override it keep a permanent entry. -/
theorem Holds.serveAll {qs : List (Request α)} (h : c.Holds a e) (hc : c.Coherent)
    (hqs : ∀ q ∈ qs, q.call.overrides a = false) : (c.serveAll qs).Holds a e := by
  refine (serveAll_induction (P := fun d : Cache α => d.Coherent ∧ d.Holds a e)
    (fun d q hq hd => ?_) ⟨hc, h⟩).2
  exact ⟨(hd.1.serve q).1, (hd.2.serve hd.1 (hqs q hq)).1⟩

/-- A permanent binding that is given is held. -/
theorem holds_of_pin {evicted : Option Evicted} (hs : c.store.WellFormed)
    (hpin : (c.pin now a mac).answer = .ok evicted) :
    ∃ e, (c.pin now a mac).cache.store.find? a = some e ∧ e.kind = .permanent ∧
      e.mac? = some mac := by
  have hpins : Pins c now a mac (c.pin now a mac).answer
      ((c.pin now a mac).cache.store.find? a) (c.pin now a mac).sent := (pin_pins hs).1
  generalize (c.pin now a mac).sent = sent at hpins
  generalize (c.pin now a mac).cache.store.find? a = after at hpins ⊢
  rw [hpin] at hpins
  cases hpins
  exact ⟨_, rfl, rfl, rfl⟩

/-- A permanent binding is permanent. Once it is given, and as long as no call gives another for its
address or removes it by name, its entry stays, the address is bound and reachable, packets for it
go out at once, no hint for it counts, and no probe is sent for it: whatever the cache is asked or
told, however full it is and whatever stamps the calls carry, those that stop at the clock
included. -/
theorem Reached.permanent_stays {cfg : Config} {start : Nat} {calls : List (Call α)}
    {evicted : Option Evicted} (h : c.Reached cfg start calls)
    (hpin : (c.pin now a mac).answer = .ok evicted) :
    ∃ e, (c.pin now a mac).cache.store.find? a = some e ∧
      ∀ qs : List (Request α), (∀ q ∈ qs, q.call.overrides a = false) →
        let d := (c.pin now a mac).cache.serveAll qs
        (∃ e', d.store.find? a = some e' ∧ e'.kind = .permanent ∧
          e'.generation = e.generation) ∧
        d.lookup a = some (mac, .reachable) ∧
        ∀ q : Request α, q.call.overrides a = false →
          (∀ x ∈ (d.serve q).sent, x.target? ≠ some a) ∧
          (∀ packet, q.call = .resolve a packet → ∃ o, d.serve q = .ok o ∧
            o.answer = .resolution (.resolved mac) none ∧ o.sent = [.packet packet mac]) ∧
          (q.call = .confirm a → ∃ o, d.serve q = .ok o ∧ o.answer = .confirmed false) := by
  obtain ⟨hcoherent, _⟩ := h.coherent
  obtain ⟨e, hfind, hkind, hmac⟩ := holds_of_pin hcoherent.wellFormed hpin
  have hpinned := (pin_follows hcoherent now a mac).coherent hcoherent
  have hholds : (c.pin now a mac).cache.Holds a e := ⟨hkind, e, hfind, .refl e⟩
  refine ⟨e, hfind, fun qs hqs => ?_⟩
  intro d
  obtain ⟨hd, _⟩ := hpinned.serveAll qs
  have hlast : d.Holds a e := hholds.serveAll hpinned hqs
  obtain ⟨e', hfind', hcontinues⟩ := hlast.2
  have hkind' : e'.kind = .permanent := hcontinues.kind_eq.trans hkind
  have hmac' : e'.mac? = some mac := hcontinues.mac?_eq.trans hmac
  obtain ⟨hstate, _⟩ := (hd.of_find? hfind').permanent hkind'
  refine ⟨⟨e', hfind', hkind', hcontinues.generation_eq⟩, hlast.lookup hd hmac,
    fun q hq => ⟨(hlast.serve hd hq).2, fun packet hcall => ?_, fun hcall => ?_⟩⟩
  · unfold serve
    rw [hcall, Cache.perform, resolve_of_reachable hd.wellFormed hfind' hmac' hstate]
    exact ⟨_, rfl, rfl, rfl⟩
  · unfold serve
    rw [hcall, Cache.perform, confirm_of_permanent hfind' hkind']
    exact ⟨_, rfl, rfl⟩

/-- What an address that is bound for good hears, and what happens elsewhere in a cache that it
fills. -/
def disturbances : List (Request Nat) :=
  [⟨.silent, 9, .observe ⟨10, 0, 0, 5⟩ ⟨2, 0, 0, 0, 0, 2⟩⟩, ⟨.silent, 400, .tick⟩,
    ⟨.silent, 401, .resolve ⟨10, 0, 0, 6⟩ 8⟩, ⟨.silent, 402, .confirm ⟨10, 0, 0, 5⟩⟩,
    ⟨.silent, 403, .pin ⟨10, 0, 0, 6⟩ ⟨2, 0, 0, 0, 0, 3⟩⟩]

/-- The binding that was given first stays and is used. -/
theorem Reached.permanent_stays_of_disturbances :
    let a : Address := ⟨10, 0, 0, 5⟩
    let mac : Mac := ⟨2, 0, 0, 0, 0, 1⟩
    let d := ((Cache.create .brief 0 : Outcome Nat Unit).cache.pin 1 a mac).cache.serveAll disturbances
    d.lookup a = some (mac, .reachable) ∧
      ∃ o, d.serve ⟨.silent, 3, .resolve a 7⟩ = .ok o ∧ o.sent = [.packet 7 mac] := by
  intro a mac d
  obtain ⟨e, _, hstays⟩ := @Reached.permanent_stays Nat
    (Cache.create .brief 0 : Outcome Nat Unit).cache 1 a mac .brief 0 [] none .create (by decide +kernel)
  obtain ⟨_, hlookup, hserves⟩ := hstays disturbances (by decide)
  obtain ⟨o, hserve, _, hsent⟩ := (hserves ⟨.silent, 3, .resolve a 7⟩ rfl).2.1 7 rfl
  exact ⟨hlookup, o, hserve, hsent⟩

end Cache

end

end Neighbor
