import Neighbor.Proofs.Sound

/-!
# Evidence in a history

A step binds an address by evidence that counts, from a call or from the answer to a broadcast probe
that the call sent, by a hint that counts, or for good. What happened to the entry of an address in
a step can be read off these events.
-/

namespace Neighbor

variable {α : Type}

/-- Whether a call that sent `sent` takes in that `a` is at `mac`: the call tells it and it counts,
or it is the answer to a broadcast probe. -/
def Tells (r : Responder) (c : Cache α) (now : Nat) (a : Address) (call : Call α)
    (sent : List (Outbound α)) (mac : Mac) : Prop :=
  (call.evidence? c = some (a, mac) ∧ c.learns now a mac = true) ∨
    (.broadcastProbe a ∈ sent ∧ r.heard? a = some mac)

/-- What a call tells it still tells if it sends more. -/
theorem Tells.mono {r : Responder} {c : Cache α} {now : Nat} {a : Address} {call : Call α}
    {sent sent' : List (Outbound α)} {mac : Mac} (h : Tells r c now a call sent mac)
    (hsent : ∀ x ∈ sent, x ∈ sent') : Tells r c now a call sent' mac := by
  rcases h with hcall | ⟨hprobe, hheard⟩
  · exact .inl hcall
  · exact .inr ⟨hsent _ hprobe, hheard⟩

/-- What a call answered to a packet. -/
def Answer.resolution? : Answer → Option Resolution
  | .resolution given _ => some given
  | _ => none

/-- Whether a hint counted. -/
def Answer.isCounted : Answer → Bool
  | .confirmed counted => counted
  | _ => false

/-- Whether a permanent binding was installed. -/
def Answer.isPinned : Answer → Bool
  | .pinned (.ok _) => true
  | _ => false

namespace Step

/-- The step takes in evidence that `a` is at `mac`. -/
def Observes (s : Step α) (a : Address) (mac : Mac) : Prop :=
  Tells s.responder s.before s.now a s.call s.outcome.sent mac

/-- The step confirms the binding of `a`, by evidence or by a hint. -/
def Confirms (s : Step α) (a : Address) : Prop :=
  (∃ mac, s.Observes a mac) ∨ (s.call = .confirm a ∧ s.outcome.answer.isCounted = true)

/-- The step binds `a` to `mac` for good. -/
def Pins (s : Step α) (a : Address) (mac : Mac) : Prop :=
  s.call = .pin a mac ∧ s.outcome.answer.isPinned = true

/-- The step tells nothing, and neither a probe for `a` nor a hint nor a permanent binding counts.
-/
def Neglects (s : Step α) (a : Address) : Prop :=
  s.call.evidence? s.before = none ∧ s.responder.heard? a = none ∧
    s.outcome.answer.isCounted = false ∧ s.outcome.answer.isPinned = false

instance (s : Step α) (a : Address) : Decidable (s.Neglects a) :=
  inferInstanceAs (Decidable (_ ∧ _))

/-- A step that neglects `a` neither confirms its binding nor binds it for good. -/
theorem Neglects.unconfirmed {s : Step α} {a : Address} (h : s.Neglects a) :
    ¬ s.Confirms a ∧ ∀ mac, ¬ s.Pins a mac := by
  obtain ⟨hevidence, hheard, hcounted, hpinned⟩ := h
  refine ⟨?_, fun mac hpins => ?_⟩
  · rintro (⟨mac, ⟨htold, _⟩ | ⟨_, hanswer⟩⟩ | ⟨_, hhint⟩)
    · cases hevidence.symm.trans htold
    · cases hheard.symm.trans hanswer
    · cases hcounted.symm.trans hhint
  · cases hpinned.symm.trans hpins.2

end Step

/-- What belongs to one address is part of all that is sent. -/
theorem mem_of_mem_share {a : Address} {items : List (Address × Outbound α)} {x : Outbound α}
    (h : x ∈ share a items) : x ∈ items.map (·.2) := by
  obtain ⟨y, hy, rfl⟩ := List.mem_map.mp h
  exact List.mem_map.mpr ⟨y, (List.mem_filter.mp hy).1, rfl⟩

/-- The answer to the broadcast probe of an entry is evidence for its address. -/
theorem Entry.answered_cases {cfg : Config} {r : Responder} {now : Nat} (e : Entry α) :
    (r.heard? e.address = none ∧ e.answered cfg r now = (e, [])) ∨
      ∃ mac, r.heard? e.address = some mac ∧
        e.answered cfg r now = (e.bound cfg mac now, e.waiting.map (.packet · mac)) := by
  unfold answered
  cases hheard : r.heard? e.address with
  | none => exact .inl ⟨rfl, rfl⟩
  | some mac => exact .inr ⟨mac, rfl, rfl⟩

end Neighbor
