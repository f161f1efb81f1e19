import Neighbor.Proofs.Change

/-!
# Quests

A quest is a series of probes that goes on until one is answered or the last one stays unanswered:
broadcast probes find a link address, unicast probes check a known one. `Turn.stride` says what one
turn does to an entry that is on a quest, and `Turn.begins` how a quest begins.
-/

namespace Neighbor

variable {α : Type}

/-- What probes are sent for. -/
inductive Quest
  /-- To find a link address. -/
  | find
  /-- To check a known one. -/
  | check
deriving DecidableEq

namespace Quest

/-- The state of an entry that is on the quest. -/
def state : Quest → State
  | find => .incomplete
  | check => .probe

/-- Whether an item is a probe of the quest for `a`. -/
def asks (q : Quest) (a : Address) (item : Outbound α) : Bool :=
  match q, item with
  | find, .broadcastProbe b => b = a
  | check, .unicastProbe b _ => b = a
  | _, _ => false

/-- How many probes of the quest for `a` there are among some items. -/
def asked (q : Quest) (a : Address) (sent : List (Outbound α)) : Nat := sent.countP (q.asks a)

variable {q : Quest} {a : Address} {item : Outbound α} {sent : List (Outbound α)}

/-- A probe of a quest for an address asks for that address. -/
theorem target_of_asks (h : q.asks a item = true) : item.target? = some a := by
  cases q with
  | find =>
    cases item with
    | broadcastProbe b => simpa [asks, Outbound.target?] using h
    | unicastProbe | packet => cases h
  | check =>
    cases item with
    | unicastProbe b => simpa [asks, Outbound.target?] using h
    | broadcastProbe | packet => cases h

/-- No probe is among no items. -/
@[simp] theorem asked_nil : q.asked a ([] : List (Outbound α)) = 0 := rfl

/-- No probe of a quest is among items without probes. -/
theorem asked_of_quiet (h : Quiet sent) : q.asked a sent = 0 := by
  apply List.countP_eq_zero.mpr
  intro item hitem hasks
  have htarget := target_of_asks hasks
  have hquiet := h item hitem
  cases item with
  | packet => cases htarget
  | broadcastProbe | unicastProbe => cases hquiet

/-- If at most the first item is a probe, one probe of a quest is sent or none. -/
theorem asked_cons (h : Quiet sent) :
    q.asked a (item :: sent) = if q.asks a item then 1 else 0 := by
  unfold asked
  rw [List.countP_cons]
  have hrest := asked_of_quiet (q := q) (a := a) h
  unfold asked at hrest
  rw [hrest, Nat.zero_add]

/-- The probes for an address are among the items that belong to it. -/
theorem asked_share {items : List (Address × Outbound α)}
    (h : ∀ x ∈ items, ∀ b, x.2.target? = some b → b = x.1) :
    q.asked a (items.map (·.2)) = q.asked a (share a items) := by
  induction items with
  | nil => rfl
  | cons x rest ih =>
    have hrest := ih fun y hy => h y (List.mem_cons_of_mem _ hy)
    unfold asked at hrest ⊢
    rw [List.map_cons, List.countP_cons, hrest, share_cons]
    by_cases hasks : q.asks a x.2 = true
    · have haddress := h x List.mem_cons_self a (target_of_asks hasks)
      rw [if_pos hasks, if_pos haddress.symm, List.countP_cons, if_pos hasks]
    · rw [if_neg hasks]
      split
      · rw [List.countP_cons, if_neg hasks]
      · rfl

end Quest

/-- Whether the entry of `a` is that of generation `g` and on the quest. -/
def Cache.Pursues (c : Cache α) (q : Quest) (a : Address) (g : Nat) : Prop :=
  ∃ e, c.store.find? a = some e ∧ e.generation = g ∧ e.state = q.state

instance (c : Cache α) (q : Quest) (a : Address) (g : Nat) : Decidable (c.Pursues q a g) :=
  inferInstanceAs (Decidable (∃ e ∈ c.store.find? a, e.generation = g ∧ e.state = q.state))

/-- What begins a quest for the entry of `a` with generation `g`: a packet that makes the entry
begins the search, a tick that finds the delay of the entry over begins the check. -/
def Quest.Prompts (q : Quest) (c : Cache α) (a : Address) (g : Nat) (call : Call α) : Prop :=
  match q with
  | find => (∃ packet, call = .resolve a packet) ∧ g = c.store.nextGeneration
  | check => call = .tick ∧ ∃ e, c.store.find? a = some e ∧ e.generation = g ∧ e.state = .delay

/-- What one turn does to an entry on a quest. The last argument is how many probes it sends. -/
inductive Stride (cfg : Config) (q : Quest) (now : Nat) (call : Call α) (e : Entry α)
    (after : Option (Entry α)) : Nat → Prop
  | rested {e' : Entry α} (hafter : after = some e') (halike : e.Alike e')
      (hcall : call = .tick → e.isDue now = false) : Stride cfg q now call e after 0
  | probed {e' : Entry α} (hcall : call = .tick) (hdue : e.isDue now = true)
      (hleft : e.probes < cfg.maxProbes) (hafter : after = some e')
      (hgeneration : e'.generation = e.generation)
      (hstate : e'.state = q.state ∧ e'.probes = e.probes + 1 ∧
          e'.deadline = some (now + (cfg.retry.delay (e.probes + 1)).nanos) ∨
        e'.state = .reachable) : Stride cfg q now call e after 1
  | gaveUp {e' : Entry α} (hcall : call = .tick) (hdue : e.isDue now = true)
      (hspent : cfg.maxProbes ≤ e.probes) (hafter : after = some e') (hstate : e'.state = .failed) :
      Stride cfg q now call e after 0
  | ended (hafter : ∀ e', after = some e' → e'.state = .reachable) : Stride cfg q now call e after 0

/-- A stride is known by the number of its probes, however that is written. -/
theorem Stride.of_eq {cfg : Config} {q : Quest} {now : Nat} {call : Call α} {e : Entry α}
    {after : Option (Entry α)} {m n : Nat} (h : Stride cfg q now call e after n) (hmn : m = n) :
    Stride cfg q now call e after m := hmn ▸ h

section Turns

variable {r : Responder} {c : Cache α} {now : Nat} {a : Address} {call : Call α} {answer : Answer}
  {after : Option (Entry α)} {sent : List (Outbound α)} {e e' : Entry α} {q : Quest}

/-- What an answer leaves of an entry: itself or a reachable one. -/
theorem Entry.answered_state (cfg : Config) (r : Responder) (now : Nat) (e : Entry α) :
    (e.answered cfg r now).1 = e ∨ (e.answered cfg r now).1.state = .reachable := by
  rcases e.answered_cases with ⟨_, hanswered⟩ | ⟨mac, _, hanswered⟩
  · exact .inl (by rw [hanswered])
  · exact .inr (by rw [hanswered]; rfl)

/-- Time lets an entry on a quest rest, send one more probe or give up. -/
theorem Entry.Passes.stride {cfg : Config} {aged : Entry.Aged α} (h : e.Passes cfg now aged)
    (haddress : e.address = a) (hstate : e.state = q.state) (hcall : call = .tick) :
    Stride cfg q now call e (aged.settled cfg r now).1 (q.asked a (aged.settled cfg r now).2) := by
  cases h with
  | idle hdue => exact .rested rfl (.refl e) fun _ => hdue
  | gaveUp hdue _ hspent => exact .gaveUp hcall hdue hspent rfl rfl
  | staled _ hstatus | checked _ hstatus =>
    rw [Entry.state, hstatus] at hstate
    cases q <;> cases hstate
  | expired _ hold =>
    rw [hstate] at hold
    cases q <;> rcases hold with hold | hold <;> cases hold
  | @rechecked mac n hdue hstatus hleft =>
    have hprobes : e.probes = n := by rw [Entry.probes, hstatus]; rfl
    cases q with
    | find =>
      rw [Entry.state, hstatus] at hstate
      cases hstate
    | check =>
      refine Stride.of_eq (.probed hcall hdue (by rw [hprobes]; exact hleft) rfl rfl
        (.inl ⟨rfl, ?_, ?_⟩)) ?_
      · rw [hprobes]
        rfl
      · rw [hprobes]
      · exact (Quest.asked_cons quiet_nil).trans (if_pos (by simp [Quest.asks, haddress]))
  | @reprobed n queue hdue hstatus hleft =>
    have hprobes : e.probes = n := by rw [Entry.probes, hstatus]; rfl
    cases q with
    | check =>
      rw [Entry.state, hstatus] at hstate
      cases hstate
    | find =>
      refine Stride.of_eq (.probed hcall hdue (by rw [hprobes]; exact hleft) rfl
        Entry.generation_answered ?_) ?_
      · generalize he' : ({ e with
          status := .incomplete (n + 1) queue
          deadline := some (now + (cfg.retry.delay (n + 1)).nanos) } : Entry α) = e'
        rcases e'.answered_state cfg r now with hsame | hreachable
        · rw [hsame, ← he', hprobes]
          exact .inl ⟨rfl, rfl, rfl⟩
        · exact .inr hreachable
      · refine (Quest.asked_cons (Entry.quiet_answered _ _ _ _)).trans (if_pos ?_)
        simp [Quest.asks, haddress]

/-- An entry on a quest rests, sends one more probe when its deadline has passed, gives up when all
probes are spent, or is done. -/
theorem Turn.stride (h : Turn r c now a call answer after sent) (hfind : c.store.find? a = some e)
    (hstate : e.state = q.state) : Stride c.config q now call e after (q.asked a sent) := by
  cases h.change hfind with
  | kept halike hquiet hcall =>
    rw [Quest.asked_of_quiet hquiet]
    exact .rested rfl halike fun htick => absurd htick hcall
  | woken _ hbefore | replaced _ hbefore =>
    rw [hbefore] at hstate
    cases q <;> cases hstate
  | bound _ _ hafter _ hquiet =>
    rw [Quest.asked_of_quiet hquiet]
    apply Stride.ended
    intro e' he'
    cases he'
    exact hafter
  | gone => exact .ended nofun
  | aged hcall hpasses => exact hpasses.stride (Store.address_of_find? hfind) hstate hcall

/-- A new entry starts with one broadcast probe. -/
theorem asked_opening {packet : α} :
    Quest.find.asked a (.broadcastProbe a ::
      ((c.opening now a packet).answered c.config r now).2) = 1 := by
  rw [Quest.asked_cons (Entry.quiet_answered _ _ _ _), if_pos (by simp [Quest.asks])]

/-- The quest that a new entry is on begins with its first probe. -/
private theorem begins_of_opening {packet : α} (hcall : call = .resolve a packet)
    (hstate : ((c.opening now a packet).answered c.config r now).1.state = q.state) :
    ((c.opening now a packet).answered c.config r now).1.probes = 1 ∧
      ((c.opening now a packet).answered c.config r now).1.deadline =
        some (now + (c.config.retry.delay 1).nanos) ∧
      q.asked a (.broadcastProbe a :: ((c.opening now a packet).answered c.config r now).2) = 1 ∧
      q.Prompts c a ((c.opening now a packet).answered c.config r now).1.generation call := by
  rcases (c.opening now a packet).answered_state c.config r now with hsame | hreachable
  · rw [hsame] at hstate ⊢
    cases q with
    | check => cases hstate
    | find => exact ⟨rfl, rfl, asked_opening, ⟨packet, hcall⟩, rfl⟩
  · rw [hreachable] at hstate
    cases q <;> cases hstate

/-- The only quest that time begins is the check of an entry whose delay is over. -/
private theorem begins_of_passes {aged : Entry.Aged α} (h : e.Passes c.config now aged)
    (hfind : c.store.find? a = some e) (hafter : (aged.settled c.config r now).1 = some e')
    (hstate : e'.state = q.state) (hnew : e.generation = e'.generation → e.state ≠ q.state) :
    q = .check ∧ e.state = .delay ∧ e'.generation = e.generation ∧ e'.probes = 1 ∧
      e'.deadline = some (now + (c.config.retry.delay 1).nanos) ∧
      q.asked a (aged.settled c.config r now).2 = 1 := by
  cases h with
  | idle =>
    cases hafter
    exact absurd hstate (hnew rfl)
  | expired => cases hafter
  | staled | gaveUp =>
    cases hafter
    cases q <;> cases hstate
  | rechecked _ hstatus =>
    cases hafter
    refine absurd ?_ (hnew rfl)
    rw [← hstate, Entry.state, hstatus]
    rfl
  | @reprobed n queue _ hstatus =>
    generalize hprobed : ({ e with
      status := .incomplete (n + 1) queue
      deadline := some (now + (c.config.retry.delay (n + 1)).nanos) } : Entry α) = probed at hafter
    change some (probed.answered c.config r now).1 = some e' at hafter
    cases hafter
    rcases probed.answered_state c.config r now with hsame | hreachable
    · refine absurd ?_ (hnew ?_)
      · rw [← hstate, hsame, ← hprobed, Entry.state, hstatus]
        rfl
      · rw [Entry.generation_answered, ← hprobed]
    · rw [hreachable] at hstate
      cases q <;> cases hstate
  | checked _ hstatus =>
    cases hafter
    cases q with
    | find => cases hstate
    | check =>
      refine ⟨rfl, ?_, rfl, rfl, rfl, (Quest.asked_cons quiet_nil).trans (if_pos ?_)⟩
      · rw [Entry.state, hstatus]
        rfl
      · simp [Quest.asks, Store.address_of_find? hfind]

/-- A quest begins with its first probe. -/
theorem Turn.begins (h : Turn r c now a call answer after sent) (hafter : after = some e')
    (hstate : e'.state = q.state)
    (hbefore : ∀ e, c.store.find? a = some e → e.generation = e'.generation → e.state ≠ q.state) :
    e'.probes = 1 ∧ e'.deadline = some (now + (c.config.retry.delay 1).nanos) ∧
      q.asked a sent = 1 ∧ q.Prompts c a e'.generation call := by
  cases hfind : c.store.find? a with
  | none =>
    rcases h.appears hfind with ⟨rfl, _⟩ | ⟨packet, hcall, rfl, rfl⟩ | ⟨_, _, e, rfl, hreachable⟩
    · cases hafter
    · cases hafter
      exact begins_of_opening hcall hstate
    · cases hafter
      rw [hreachable] at hstate
      cases q <;> cases hstate
  | some e =>
    have hnew := hbefore e hfind
    cases h.change hfind with
    | kept halike =>
      cases hafter
      exact absurd (halike.state_eq.symm.trans hstate) (hnew halike.generation_eq.symm)
    | woken _ _ hdelay =>
      cases hafter
      rw [hdelay] at hstate
      cases q <;> cases hstate
    | bound _ _ hreachable =>
      cases hafter
      rw [hreachable] at hstate
      cases q <;> cases hstate
    | gone => cases hafter
    | replaced hcall =>
      cases hafter
      exact begins_of_opening hcall hstate
    | aged hcall hpasses =>
      obtain ⟨rfl, hdelay, hgeneration, hprobes, hdeadline, hasked⟩ :=
        begins_of_passes hpasses hfind hafter hstate hnew
      exact ⟨hprobes, hdeadline, hasked, hcall, e, hfind, hgeneration.symm, hdelay⟩

/-- A packet sends no probe but the first one of a new entry. -/
theorem Turn.asked_of_resolve {b : Address} {packet : α} (h : Turn r c now a call answer after sent)
    (hcall : call = .resolve b packet) (hasked : q.asked a sent ≠ 0) :
    q = .find ∧ q.asked a sent = 1 ∧
      ∃ e, after = some e ∧ e.generation = c.store.nextGeneration := by
  have hopened {p : α} (hsent : sent = .broadcastProbe a ::
      ((c.opening now a p).answered c.config r now).2) : q = .find ∧ q.asked a sent = 1 := by
    rw [hsent] at hasked ⊢
    cases q with
    | find => exact ⟨rfl, asked_opening⟩
    | check =>
      rw [Quest.asked_cons (Entry.quiet_answered _ _ _ _)] at hasked
      exact absurd rfl hasked
  cases hfind : c.store.find? a with
  | none =>
    rcases h.appears hfind with ⟨_, rfl⟩ | ⟨p, _, rfl, hsent⟩ | ⟨_, rfl, _⟩
    · exact absurd Quest.asked_nil hasked
    · obtain ⟨hq, hone⟩ := hopened hsent
      exact ⟨hq, hone, _, rfl, Entry.generation_answered⟩
    · exact absurd Quest.asked_nil hasked
  | some e =>
    cases h.change hfind with
    | kept _ hquiet | woken _ _ _ _ _ hquiet | bound _ _ _ _ hquiet =>
      exact absurd (Quest.asked_of_quiet hquiet) hasked
    | gone => exact absurd Quest.asked_nil hasked
    | aged htick =>
      rw [htick] at hcall
      cases hcall
    | replaced =>
      obtain ⟨hq, hone⟩ := hopened rfl
      exact ⟨hq, hone, _, rfl, Entry.generation_answered⟩

end Turns

end Neighbor
