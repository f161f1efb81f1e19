import Neighbor.Cache.Call
import Neighbor.Proofs.Heed
import Neighbor.Proofs.Resolve
import Neighbor.Proofs.Tick

/-!
# What a call does to one address

A call works on the address it names, on all addresses, or on none. `Turn` joins the operations into
one relation between an address before and after a call: what happens to the address if the call is
about it, and that it is spared otherwise. Whatever holds of every turn holds of every call.
-/

namespace Neighbor

variable {α : Type}

/-- The binding that a call tells: the one observed, or that of the sender of a message from which
the cache learns. -/
def Call.evidence? (c : Cache α) : Call α → Option (Address × Mac)
  | .observe a mac => some (a, mac)
  | .receive host bytes =>
    match Message.decode bytes with
    | .error _ => none
    | .ok m =>
      if m.senderIp = .unspecified ∨ m.senderIp = host.ip then none
      else if c.learnsFrom host m then some (m.senderIp, m.senderMac)
      else none
  | _ => none

/-- A message that is heeded tells the binding of its sender. -/
theorem Call.evidence?_of_heeds {c : Cache α} {host : Host} {m : Message} {bytes : List UInt8}
    (hdecode : Message.decode bytes = .ok m) (h : c.Heeds host m) :
    (Call.receive host bytes : Call α).evidence? c = some (m.senderIp, m.senderMac) := by
  simp [evidence?, hdecode, h.specified, h.foreign, Cache.learnsFrom_iff.mpr h.relevant]

/-- What is not heeded tells nothing. -/
theorem Call.evidence?_of_unheeded {c : Cache α} {host : Host} {bytes : List UInt8}
    (h : ∀ m, Message.decode bytes = .ok m → ¬c.Heeds host m) :
    (Call.receive host bytes : Call α).evidence? c = none := by
  cases hdecode : Message.decode bytes with
  | error e => simp [evidence?, hdecode]
  | ok m =>
    have hlearns (hforeign : ¬(m.senderIp = .unspecified ∨ m.senderIp = host.ip)) :
        ¬c.learnsFrom host m = true := by
      intro hlearns
      rw [not_or] at hforeign
      exact h m hdecode ⟨hforeign.1, hforeign.2, Cache.learnsFrom_iff.mp hlearns⟩
    by_cases hforeign : m.senderIp = .unspecified ∨ m.senderIp = host.ip
    · simp [evidence?, hdecode, hforeign]
    · simp [evidence?, hdecode, hlearns hforeign]

/-- The one address that a call works on. -/
def Call.subject? (c : Cache α) (call : Call α) : Option Address :=
  match call with
  | .resolve a _ => some a
  | .confirm a => some a
  | .pin a _ => some a
  | .invalidate a => some a
  | _ => (call.evidence? c).map (·.1)

/-- A call that tells a binding of `a` is about `a`. -/
theorem Call.subject?_of_evidence {c : Cache α} {call : Call α} {a : Address} {mac : Mac}
    (h : call.evidence? c = some (a, mac)) : call.subject? c = some a := by
  cases call with
  | observe | receive => simp [subject?, h]
  | resolve | confirm | pin | tick | invalidate | invalidateAll => cases h

/-- Whether a call is about every address. -/
def Call.isSweeping : Call α → Bool
  | .tick => true
  | .invalidateAll => true
  | _ => false

/-- Whether a call makes an entry for its address if there is none. -/
def Call.isClaiming : Call α → Bool
  | .resolve _ _ => true
  | .observe _ _ => true
  | .pin _ _ => true
  | .receive _ _ => true
  | _ => false

/-- What a call does to the address `a`: its entry afterwards and the items that are sent for it. -/
inductive Turn (r : Responder) (c : Cache α) (now : Nat) (a : Address) :
    Call α → Answer → Option (Entry α) → List (Outbound α) → Prop
  | resolved {packet : α} {resolution : Resolution} {evicted : Option Evicted}
      {after : Option (Entry α)} {sent : List (Outbound α)}
      (hresolves : c.Resolves r now a packet resolution after sent) :
      Turn r c now a (.resolve a packet) (.resolution resolution evicted) after sent
  | learned {call : Call α} {answer : Answer} {mac : Mac} {after : Option (Entry α)}
      {sent : List (Outbound α)} (hevidence : call.evidence? c = some (a, mac))
      (hlearns : c.Learns now a mac after sent) : Turn r c now a call answer after sent
  | hinted {counted : Bool} {after : Option (Entry α)} (hhints : c.Hints now a counted after) :
      Turn r c now a (.confirm a) (.confirmed counted) after []
  | pinned {mac : Mac} {result : Except DropReason (Option Evicted)} {after : Option (Entry α)}
      {sent : List (Outbound α)} (hpins : c.Pins now a mac result after sent) :
      Turn r c now a (.pin a mac) (.pinned result) after sent
  | aged {report : TickReport} {after : Option (Entry α)} {sent : List (Outbound α)}
      (hages : c.Ages r now a report after sent) :
      Turn r c now a .tick (.ticked report) after sent
  | removed {dropped : Option Nat} : Turn r c now a (.invalidate a) (.invalidated dropped) none []
  | cleared {dropped : Nat} : Turn r c now a .invalidateAll (.cleared dropped) none []
  | aside {call : Call α} {answer : Answer} {b : Address} {after : Option (Entry α)}
      (hsweeping : call.isSweeping = false) (hsubject : call.subject? c ≠ some a)
      (hspared : c.store.Spared b a after) : Turn r c now a call answer after []

/-- A call edits the store and gives each address its turn. -/
structure Turns (r : Responder) (c : Cache α) (now : Nat) (call : Call α) (o : Outcome α Answer) :
    Prop where
  config_eq : o.cache.config = c.config
  edits : Store.Edits c.store o.cache.store
  turns : ∃ sent, sent.map (·.2) = o.sent ∧
    ∀ a, Turn r c now a call o.answer (o.cache.store.find? a) (share a sent)

namespace Turns

variable {r : Responder} {c : Cache α} {now : Nat} {a : Address} {call : Call α}
  {o : Outcome α Answer}

/-- A call that works on one address gives that address its turn and spares the others. -/
theorem of_worksOn (hsweeping : call.isSweeping = false) (hsubject : call.subject? c = some a)
    (hturn : Turn r c now a call o.answer (o.cache.store.find? a) o.sent)
    (hworks : c.WorksOn a o.cache) : Turns r c now call o := by
  refine ⟨hworks.config_eq, hworks.edits, o.sent.map (a, ·), by simp [Function.comp_def], ?_⟩
  intro b
  rw [share_map_mk]
  by_cases hb : a = b
  · subst hb
    rw [if_pos rfl]
    exact hturn
  · rw [if_neg hb]
    refine .aside hsweeping ?_ (hworks.spared b (Ne.symm hb))
    rw [hsubject]
    exact fun heq => hb (Option.some.inj heq)

/-- A call that tells a binding learns it. -/
theorem of_evidence {mac : Mac} {learned : Outcome α (Option Evicted)} (hs : c.store.WellFormed)
    (hsweeping : call.isSweeping = false) (hsubject : call.subject? c = some a)
    (hevidence : call.evidence? c = some (a, mac)) (h : c.observe now a mac = .ok learned)
    (hcache : o.cache = learned.cache) (hsent : o.sent = learned.sent) : Turns r c now call o := by
  obtain ⟨hlearns, hworks⟩ := Cache.observe_learns hs h
  rw [← hcache] at hlearns hworks
  rw [← hsent] at hlearns
  exact of_worksOn hsweeping hsubject (.learned hevidence hlearns) hworks

/-- A message from which nothing is learned changes nothing. -/
theorem of_unmoved (hsweeping : call.isSweeping = false) (hsubject : call.subject? c = none)
    (hcache : o.cache = c) (hsent : o.sent = []) : Turns r c now call o := by
  refine ⟨by rw [hcache], hcache ▸ .refl, [], by rw [hsent]; rfl, fun a => ?_⟩
  refine .aside (b := a) hsweeping (by simp [hsubject]) (.inl ?_)
  rw [hcache]

end Turns

namespace Cache

variable {r : Responder} {c : Cache α} {now : Nat} {call : Call α} {o : Outcome α Answer}

/-- A message from which something is learned is evidence; any other changes nothing. -/
theorem receive_cases (c : Cache α) (now : Nat) (host : Host) (bytes : List UInt8) :
    (∃ a mac f, (Call.receive host bytes : Call α).evidence? c = some (a, mac) ∧
        c.receive now host bytes = (c.observe now a mac).mapAnswer f) ∨
      (Call.receive host bytes : Call α).evidence? c = none ∧
        ∃ o, c.receive now host bytes = .ok o ∧ o.cache = c ∧ o.sent = [] := by
  rcases c.heeds_cases host bytes with ⟨m, hdecode, hheeds⟩ | hunheeded
  · exact .inl ⟨_, _, _, Call.evidence?_of_heeds hdecode hheeds, receive_of_heeds hdecode hheeds⟩
  · obtain ⟨o, hreceive, hcache, hsent, _⟩ := receive_of_unheeded now hunheeded
    exact .inr ⟨Call.evidence?_of_unheeded hunheeded, o, hreceive, hcache, hsent⟩

/-- What a message does to each address is a turn of its call. -/
theorem receive_turns {host : Host} {bytes : List UInt8}
    {o : Outcome α (Except Message.DecodeError Reaction)} (hs : c.store.WellFormed)
    (h : c.receive now host bytes = .ok o) :
    Turns r c now (.receive host bytes) (o.map .received) := by
  rcases c.receive_cases now host bytes with
    ⟨a, mac, f, hevidence, hreceive⟩ | ⟨hevidence, o', hreceive, hcache, hsent⟩
  · rw [hreceive] at h
    obtain ⟨learned, hobserve, rfl⟩ := Attempt.mapAnswer_eq_ok h
    exact .of_evidence hs rfl (by simp [Call.subject?, hevidence]) hevidence hobserve rfl rfl
  · cases h.symm.trans hreceive
    exact .of_unmoved rfl (by simp [Call.subject?, hevidence]) hcache hsent

/-- Removing an address by name leaves the configuration alone. -/
@[simp] theorem config_invalidate {a : Address} : (c.invalidate a).cache.config = c.config := by
  unfold invalidate
  dsimp only
  split <;> rfl

/-- Removing an address by name removes its entry. -/
@[simp] theorem store_invalidate {a : Address} :
    (c.invalidate a).cache.store = c.store.erase a := by
  unfold invalidate
  dsimp only
  split <;> rfl

/-- Removing an address by name sends nothing. -/
@[simp] theorem sent_invalidate {a : Address} : (c.invalidate a).sent = [] := by
  unfold invalidate
  dsimp only
  split <;> rfl

/-- Every call that goes through gives each address its turn. -/
theorem perform_turns (hs : c.store.WellFormed)
    (hdynamic : ∀ e ∈ c.store.entries, e.mac? = none → e.kind = .dynamic)
    (h : c.perform r now call = .ok o) : Turns r c now call o := by
  cases call with
  | resolve a packet =>
    obtain ⟨o', hresolve, rfl⟩ := Attempt.mapAnswer_eq_ok h
    obtain ⟨hresolves, hworks⟩ := resolve_resolves hs hresolve
    exact .of_worksOn rfl rfl (.resolved hresolves) hworks
  | observe a mac =>
    obtain ⟨o', hobserve, rfl⟩ := Attempt.mapAnswer_eq_ok h
    exact .of_evidence hs rfl rfl rfl hobserve rfl rfl
  | confirm a =>
    obtain ⟨o', hconfirm, rfl⟩ := Attempt.mapAnswer_eq_ok h
    obtain ⟨hhints, hsent, hworks⟩ := confirm_hints hconfirm
    refine .of_worksOn rfl rfl ?_ hworks
    change Turn r c now a _ (.confirmed o'.answer) (o'.cache.store.find? a) o'.sent
    rw [hsent]
    exact .hinted hhints
  | pin a mac =>
    cases h
    obtain ⟨hpins, hworks⟩ := pin_pins hs
    exact .of_worksOn rfl rfl (.pinned hpins) hworks
  | tick =>
    obtain ⟨o', htick, rfl⟩ := Attempt.mapAnswer_eq_ok h
    obtain ⟨hconfig, hedits, sent, hsent, hages⟩ := tick_ages hs hdynamic htick
    exact ⟨hconfig, hedits, sent, hsent, fun a => .aged (hages a)⟩
  | invalidate a =>
    cases h
    refine .of_worksOn (a := a) rfl rfl ?_ ⟨config_invalidate, ?_, fun b hb => .inl ?_⟩
    · change Turn r c now a _ (.invalidated _) ((c.invalidate a).cache.store.find? a)
        (c.invalidate a).sent
      rw [store_invalidate, sent_invalidate, Store.find?_erase, if_pos rfl]
      exact .removed
    · change Store.Edits c.store (c.invalidate a).cache.store
      rw [store_invalidate]
      exact .single (.erase a)
    · change (c.invalidate a).cache.store.find? b = _
      rw [store_invalidate, Store.find?_erase, if_neg hb]
  | invalidateAll =>
    cases h
    exact ⟨rfl, .single .clear, [], rfl, fun a => .cleared⟩
  | receive host bytes =>
    obtain ⟨o', hreceive, rfl⟩ := Attempt.mapAnswer_eq_ok h
    exact receive_turns hs hreceive

end Cache

end Neighbor
