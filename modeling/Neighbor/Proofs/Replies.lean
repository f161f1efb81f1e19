import Neighbor.Proofs.Change
import Neighbor.Proofs.Horizon

/-!
# Answers during an operation and after it

A station may answer a broadcast probe while the operation that sends it is still handing over its
items, and the cache then learns the answer in the middle of that operation. What comes of it is the
same as if the transmitter had only recorded the items and the answers had been learned one after
the other once the operation was over (`Cache.perform_replies`). Handing over only counts, and
learning neither reads what it counts nor sets it, so the two may change places. An answer lets out
packets only, to which nobody answers in turn: answers are never nested more than one deep
(`Cache.relay_succ`).
-/

namespace Neighbor

variable {α β γ : Type}

/-- The calls that tell a cache the answers to items, in the order of the items. -/
def Responder.replies (r : Responder) (now : Nat) (items : List (Outbound α)) :
    List (Nat × Call α) :=
  (items.filterMap r.reply?).map fun binding => (now, .observe binding.1 binding.2)

/-- The items with what each answer let out right behind the item that it answers. -/
def Responder.weave (r : Responder) : List (Outbound α) → List (Outcome α Answer) →
    List (Outbound α)
  | [], _ => []
  | item :: rest, outcomes =>
    match r.reply? item, outcomes with
    | some _, o :: later => item :: (o.sent ++ r.weave rest later)
    | _, _ => item :: r.weave rest outcomes

namespace Responder

variable {r : Responder} {now : Nat} {item : Outbound α} {rest : List (Outbound α)}

/-- An item without an answer calls for nothing. -/
theorem replies_cons_of_none (h : r.reply? item = none) :
    r.replies now (item :: rest) = r.replies now rest := by
  rw [replies, List.filterMap_cons_none h, replies]

/-- The answer to an item is told before the answers to later ones. -/
theorem replies_cons_of_some {a : Address} {mac : Mac} (h : r.reply? item = some (a, mac)) :
    r.replies now (item :: rest) = (now, .observe a mac) :: r.replies now rest := by
  rw [replies, List.filterMap_cons_some h, List.map_cons, replies]

/-- An item without an answer lets nothing out. -/
theorem weave_cons_of_none (h : r.reply? item = none) (outcomes : List (Outcome α Answer)) :
    r.weave (item :: rest) outcomes = item :: r.weave rest outcomes := by
  simp only [weave, h]

/-- What the answer to an item lets out stands right behind it. -/
theorem weave_cons_of_some {binding : Address × Mac} (h : r.reply? item = some binding)
    (o : Outcome α Answer) (later : List (Outcome α Answer)) :
    r.weave (item :: rest) (o :: later) = item :: (o.sent ++ r.weave rest later) := by
  simp only [weave, h]

/-- Nobody answers what is not a probe. -/
theorem reply?_of_not_probe (h : item.isProbe = false) : r.reply? item = none := by
  cases item with
  | packet => rfl
  | broadcastProbe | unicastProbe => cases h

/-- A silent responder answers nothing. -/
theorem reply?_silent (item : Outbound α) : silent.reply? item = none := by
  cases item <;> rfl

/-- Items of which none is a probe are answered by nobody. -/
theorem replies_of_quiet {items : List (Outbound α)} (h : Quiet items) :
    r.replies now items = [] := by
  have hnone : items.filterMap r.reply? = [] :=
    List.filterMap_eq_nil_iff.mpr fun item hitem => reply?_of_not_probe (h item hitem)
  rw [replies, hnone]
  rfl

/-- Items without probes let nothing out. -/
theorem weave_of_quiet {items : List (Outbound α)} (h : Quiet items) :
    r.weave items [] = items := by
  induction items with
  | nil => rfl
  | cons item rest ih =>
    have hreply : r.reply? item = none := reply?_of_not_probe (h item List.mem_cons_self)
    rw [weave_cons_of_none hreply, ih fun x hx => h x (List.mem_cons_of_mem _ hx)]

end Responder

namespace Metrics

/-- It does not matter which is counted first. -/
theorem add_add_comm (m : Metrics) (j k : Counter) (u v : UInt64) :
    (m.add j u).add k v = (m.add k v).add j u := by
  refine ext_get fun l => ?_
  by_cases hj : l = j <;> by_cases hk : l = k <;> grind [get_add]

/-- What is set stays out of what is counted. -/
theorem set_add (m : Metrics) {j k : Counter} (h : j ≠ k) (u v : UInt64) :
    (m.add k v).set j u = (m.set j u).add k v := by
  refine ext_get fun l => ?_
  grind [get_add, get_set]

end Metrics

namespace Attempt

/-- The same result with another cache. -/
def onCache (f : Cache α → Cache α) (x : Attempt α β) : Attempt α β :=
  match x with
  | .error h => .error { h with cache := f h.cache }
  | .ok o => .ok { o with cache := f o.cache }

/-- Another answer leaves what was sent. -/
@[simp] theorem sent_mapAnswer (f : β → γ) (x : Attempt α β) : (x.mapAnswer f).sent = x.sent := by
  cases x <;> rfl

/-- Of two answers given to a result the last one counts. -/
theorem mapAnswer_mapAnswer (x : Attempt α Unit) (b : β) (f : β → γ) :
    (x.mapAnswer fun _ => b).mapAnswer f = (x.mapAnswer fun _ => f b).warnedAfter [] := by
  cases x <;> rfl

/-- An answer can be given before or after earlier warnings are put in front. -/
theorem mapAnswer_warnedAfter (x : Attempt α Unit) (b : β) (warnings : List Warning) (f : β → γ) :
    ((x.mapAnswer fun _ => b).warnedAfter warnings).mapAnswer f =
      (x.mapAnswer fun _ => f b).warnedAfter warnings := by
  cases x <;> rfl

end Attempt

namespace Cache

variable {c : Cache α} {r : Responder} {now : Nat} {a : Address} {mac : Mac}

/-- The cache once items have been counted. -/
def counted (c : Cache α) (items : List (Outbound α)) : Cache α := items.foldl countItem c

/-- The order in which counters are moved does not matter. -/
theorem count_count (c : Cache α) (j k : Counter) (i n : Nat) :
    (c.count j i).count k n = (c.count k n).count j i := by
  simp only [count, Metrics.add_add_comm]

/-- The gauge can be set before or after another counter is moved. -/
theorem gauge_count (c : Cache α) {k : Counter} (hk : .entries ≠ k) (n : Nat) :
    (c.count k n).gauge = c.gauge.count k n := by
  simp only [count, gauge, Metrics.set_add _ hk]

/-- The metrics can be settled before or after another counter is moved. -/
theorem settle_count (c : Cache α) {k : Counter} (hk : .entries ≠ k) (n : Nat)
    (evicted : Option Evicted) : (c.count k n).settle evicted = (c.settle evicted).count k n := by
  cases evicted with
  | none => exact gauge_count c hk n
  | some ev =>
    simp only [settle]
    rw [count_count c k, count_count (c.count .evictions 1) k, gauge_count _ hk]

/-- Evidence is learned in the same way whatever was counted before. -/
theorem observe_count (c : Cache α) {k : Counter} (hk : .entries ≠ k) (n now : Nat) (a : Address)
    (mac : Mac) :
    (c.count k n).observe now a mac = (c.observe now a mac).onCache (·.count k n) := by
  unfold observe
  simp only [store_count, config_count]
  split
  · split
    · rw [gauge_count c hk]
      rfl
    · next x _ =>
      have hkept (s : Store α) (evicted : Option Evicted) :
          settle ⟨c.config, s, (c.count k n).metrics⟩ evicted =
            (settle ⟨c.config, s, c.metrics⟩ evicted).count k n :=
        settle_count ⟨c.config, s, c.metrics⟩ hk n evicted
      split
      · split
        · rfl
        · simp only [hkept, flush, Attempt.onCache]
          rw [count_count]
      · rw [hkept]
        rfl
  · rfl

/-- An item can be counted before or after evidence is taken in. -/
theorem observe_countItem (c : Cache α) (item : Outbound α) (now : Nat) (a : Address) (mac : Mac) :
    (c.countItem item).observe now a mac = (c.observe now a mac).onCache (·.countItem item) := by
  cases item with
  | broadcastProbe => exact c.observe_count (k := .broadcastProbes) nofun 1 now a mac
  | unicastProbe => exact c.observe_count (k := .unicastProbes) nofun 1 now a mac
  | packet =>
    change c.observe now a mac = (c.observe now a mac).onCache id
    cases c.observe now a mac <;> rfl

/-- Evidence is learned in the same way whatever was handed over before. -/
theorem observe_counted (c : Cache α) (items : List (Outbound α)) (now : Nat) (a : Address)
    (mac : Mac) :
    (c.counted items).observe now a mac = (c.observe now a mac).onCache (·.counted items) := by
  induction items generalizing c with
  | nil =>
    change c.observe now a mac = (c.observe now a mac).onCache id
    cases c.observe now a mac <;> rfl
  | cons item rest ih =>
    change ((c.countItem item).counted rest).observe now a mac = _
    rw [ih, observe_countItem]
    cases c.observe now a mac <;> rfl

/-- A transmitter that only records counts the items. -/
theorem handOver_silent_eq (c : Cache α) (now : Nat) (items : List (Outbound α)) :
    handOver .silent now c items =
      .ok { cache := c.counted items, answer := (), sent := items } := by
  induction items generalizing c with
  | nil => rfl
  | cons item rest ih =>
    simp only [handOver, Responder.reply?_silent, ih]
    rfl

/-- What learning the answers later makes of items that were handed over. -/
theorem handOver_replies (r : Responder) (now : Nat) (items : List (Outbound α))
    (o : Outcome α Unit) :
    handOver r now c items = .ok o ↔
      ∃ last outcomes, (c.counted items).run .silent (r.replies now items) = .ok (last, outcomes) ∧
        o = { cache := last, answer := (), sent := r.weave items outcomes } := by
  induction items generalizing c o with
  | nil =>
    constructor
    · intro h
      cases h
      exact ⟨c, [], rfl, rfl⟩
    · rintro ⟨last, outcomes, hrun, rfl⟩
      cases hrun
      rfl
  | cons item rest ih =>
    change _ ↔ ∃ last outcomes, ((c.countItem item).counted rest).run _ _ = _ ∧ _
    unfold handOver
    cases hreply : r.reply? item with
    | none =>
      rw [Responder.replies_cons_of_none hreply]
      simp only [Responder.weave_cons_of_none hreply]
      constructor
      · intro h
        obtain ⟨o', hrest, rfl⟩ := Attempt.sentAfter_eq_ok h
        obtain ⟨last, outcomes, hrun, rfl⟩ := (ih o').mp hrest
        exact ⟨last, outcomes, hrun, rfl⟩
      · rintro ⟨last, outcomes, hrun, rfl⟩
        rw [(ih _).mpr ⟨last, outcomes, hrun, rfl⟩]
        rfl
    | some binding =>
      obtain ⟨target, mac⟩ := binding
      rw [Responder.replies_cons_of_some hreply]
      simp only [run, perform]
      -- the answer comes before the rest is handed over, or after it
      rw [observe_counted]
      cases hobserve : (c.countItem item).observe now target mac with
      | error h =>
        constructor
        · intro h
          cases h
        · rintro ⟨_, _, hrun, _⟩
          cases hrun
      | ok learned =>
        simp only [Attempt.onCache, Attempt.mapAnswer, Outcome.map]
        constructor
        · intro h
          obtain ⟨o', hrest, rfl⟩ := Attempt.sentAfter_eq_ok h
          obtain ⟨last, outcomes, hrun, rfl⟩ := (ih o').mp hrest
          refine ⟨last, _, by rw [hrun]; rfl, ?_⟩
          rw [Responder.weave_cons_of_some hreply]
          rfl
        · rintro ⟨last, outcomes, hrun, rfl⟩
          cases hrest : (learned.cache.counted rest).run .silent (r.replies now rest) with
          | error h =>
            rw [hrest] at hrun
            cases hrun
          | ok result =>
            rw [hrest] at hrun
            cases hrun
            rw [(ih _).mpr ⟨_, _, hrest, rfl⟩, Responder.weave_cons_of_some hreply]
            rfl

/-- Learning lets out packets only. -/
theorem quiet_observe (c : Cache α) (now : Nat) (a : Address) (mac : Mac) :
    Quiet (c.observe now a mac).sent := by
  have hobserved := c.observe_observed now a mac
  generalize c.observe now a mac = attempt at hobserved ⊢
  cases hobserved with
  | ignored | halted => exact quiet_nil
  | learned => exact quiet_packets _ mac

/-- None of the answers that are learned lets out a probe. -/
theorem quiet_of_replies {items : List (Outbound α)} {last : Cache α}
    {outcomes : List (Outcome α Answer)}
    (h : c.run .silent (r.replies now items) = .ok (last, outcomes)) :
    ∀ o ∈ outcomes, Quiet o.sent := by
  unfold Responder.replies at h
  generalize items.filterMap r.reply? = bindings at h
  induction bindings generalizing c outcomes with
  | nil =>
    cases h
    exact List.forall_mem_nil _
  | cons binding rest ih =>
    simp only [List.map_cons, run, perform] at h
    have hquiet := c.quiet_observe now binding.1 binding.2
    cases hobserve : c.observe now binding.1 binding.2 with
    | error halted =>
      rw [hobserve] at h
      cases h
    | ok learned =>
      rw [hobserve] at h hquiet
      simp only [Attempt.mapAnswer, Outcome.map] at h
      generalize hrest : run .silent learned.cache _ = result at h
      cases result with
      | error halted => cases h
      | ok result =>
        obtain ⟨final, later⟩ := result
        cases h
        intro x hx
        rcases List.mem_cons.mp hx with rfl | hx
        · exact hquiet
        · exact ih hrest x hx

/-- An operation hands over what it has to send when all else is done, or has no probe to send. -/
theorem perform_cases (c : Cache α) (now : Nat) (call : Call α) :
    (∃ x : Attempt α Answer, (∀ r, c.perform r now call = x) ∧ Quiet x.sent) ∨
      ∃ d items answer warnings, ∀ r, c.perform r now call =
        ((handOver r now d items).mapAnswer fun _ => answer).warnedAfter warnings := by
  cases call with
  | resolve a packet =>
    simp only [perform, resolve]
    by_cases hrefuses : c.refuses now a = true
    · simp only [if_pos hrefuses]
      exact .inl ⟨_, fun _ => rfl, quiet_nil⟩
    · simp only [if_neg hrefuses]
      cases (withoutFailed c.store a).claim a now with
      | error reason => exact .inl ⟨_, fun _ => rfl, quiet_nil⟩
      | ok x =>
        dsimp only
        cases startIfNew c.config now x with
        | error e => exact .inl ⟨_, fun _ => rfl, quiet_nil⟩
        | ok y =>
          dsimp only
          cases y.1.markUsed c.config now with
          | error e => exact .inl ⟨_, fun _ => rfl, quiet_nil⟩
          | ok used =>
            exact .inr ⟨_, _, _, [], fun r => Attempt.mapAnswer_mapAnswer _ _ _⟩
  | tick =>
    simp only [perform, tick, tickInOrder]
    cases Sweep.visitAll c.config now { store := c.store } c.store.addresses with
    | error s => exact .inl ⟨_, fun _ => rfl, quiet_nil⟩
    | ok s =>
      exact .inr ⟨_, _, _, _, fun r => Attempt.mapAnswer_warnedAfter _ _ _ _⟩
  | observe a mac =>
    refine .inl ⟨(c.observe now a mac).mapAnswer .observed, fun _ => rfl, ?_⟩
    rw [Attempt.sent_mapAnswer]
    exact c.quiet_observe now a mac
  | confirm a =>
    refine .inl ⟨(c.confirm now a).mapAnswer .confirmed, fun _ => rfl, ?_⟩
    rw [Attempt.sent_mapAnswer]
    have hhinted := c.confirm_hinted now a
    generalize c.confirm now a = attempt at hhinted ⊢
    cases hhinted with
    | ignored | counted | halted => exact quiet_nil
  | pin a mac =>
    refine .inl ⟨_, fun _ => rfl, ?_⟩
    change Quiet (c.pin now a mac).sent
    have hpinned := c.pin_pinned now a mac
    generalize c.pin now a mac = o at hpinned ⊢
    cases hpinned with
    | refused => exact quiet_nil
    | pinned => exact quiet_packets _ mac
  | invalidate a =>
    refine .inl ⟨_, fun _ => rfl, ?_⟩
    change Quiet (c.invalidate a).sent
    rw [sent_invalidate]
    exact quiet_nil
  | invalidateAll => exact .inl ⟨_, fun _ => rfl, quiet_nil⟩
  | receive host bytes =>
    refine .inl ⟨(c.receive now host bytes).mapAnswer .received, fun _ => rfl, ?_⟩
    rw [Attempt.sent_mapAnswer]
    rcases c.receive_cases now host bytes with ⟨a, mac, f, _, hreceive⟩ | ⟨_, o, hreceive, _, hsent⟩
    · rw [hreceive, Attempt.sent_mapAnswer]
      exact c.quiet_observe now a mac
    · rw [hreceive]
      change Quiet o.sent
      rw [hsent]
      exact quiet_nil

/-- An operation whose probes are answered at once comes to the same as one whose transmitter only
records, followed by learning the answers in the order of the probes: it leaves the same cache and
gives the same answer, and it sends the same items, with what each answer lets out right behind its
probe. None of the answers lets out a probe. -/
theorem perform_replies (c : Cache α) (r : Responder) (now : Nat) (call : Call α)
    (o : Outcome α Answer) :
    c.perform r now call = .ok o ↔
      ∃ first last outcomes, c.perform .silent now call = .ok first ∧
        first.cache.run .silent (r.replies now first.sent) = .ok (last, outcomes) ∧
        (∀ x ∈ outcomes, Quiet x.sent) ∧
        o = { cache := last
              answer := first.answer
              sent := r.weave first.sent outcomes
              warnings := first.warnings } := by
  rcases c.perform_cases now call with ⟨x, hx, hquiet⟩ | ⟨d, items, answer, warnings, hx⟩
  · have hreplies : r.replies now x.sent = [] := Responder.replies_of_quiet hquiet
    have hweave : r.weave x.sent [] = x.sent := Responder.weave_of_quiet hquiet
    rw [hx r, hx .silent]
    constructor
    · rintro rfl
      refine ⟨o, o.cache, [], rfl, ?_, List.forall_mem_nil _, ?_⟩
      · change r.replies now o.sent = [] at hreplies
        rw [hreplies]
        rfl
      · change r.weave o.sent [] = o.sent at hweave
        rw [hweave]
    · rintro ⟨first, last, outcomes, rfl, hrun, _, rfl⟩
      change r.replies now first.sent = [] at hreplies
      change r.weave first.sent [] = first.sent at hweave
      rw [hreplies] at hrun
      cases hrun
      rw [hweave]
  · rw [hx r, hx .silent, handOver_silent_eq]
    constructor
    · intro h
      obtain ⟨o', hwarned, rfl⟩ := Attempt.warnedAfter_eq_ok h
      obtain ⟨o'', hhand, rfl⟩ := Attempt.mapAnswer_eq_ok hwarned
      obtain ⟨last, outcomes, hrun, rfl⟩ := (handOver_replies r now items o'').mp hhand
      exact ⟨_, last, outcomes, rfl, hrun, quiet_of_replies hrun, rfl⟩
    · rintro ⟨first, last, outcomes, hfirst, hrun, _, rfl⟩
      cases hfirst
      rw [(handOver_replies r now items _).mpr ⟨last, outcomes, hrun, rfl⟩]
      rfl

/-- Hands items over and lets `nested` hand over what each answer lets out. -/
def relayWith (r : Responder) (now : Nat)
    (nested : Cache α → List (Outbound α) → Option (Attempt α Unit)) (c : Cache α) :
    List (Outbound α) → Option (Attempt α Unit)
  | [] => some (.ok { cache := c, answer := () })
  | item :: rest =>
    match r.reply? item with
    | none => (relayWith r now nested (c.countItem item) rest).map (·.sentAfter [item])
    | some (target, mac) =>
      match (c.countItem item).observe now target mac with
      | .error h => some (.error (h.sentAfter [item]))
      | .ok learned =>
        match nested learned.cache learned.sent with
        | none => none
        | some (.error h) => some (.error (h.sentAfter [item]))
        | some (.ok inner) =>
          (relayWith r now nested inner.cache rest).map (·.sentAfter (item :: inner.sent))

/-- Hands items over to a transmitter that answers whatever it is handed, also while it answers. It
may be answering `depth` items at a time; there is no result if that is not enough. -/
def relay (r : Responder) (now : Nat) : Nat → Cache α → List (Outbound α) → Option (Attempt α Unit)
  | 0 => relayWith r now fun _ _ => none
  | depth + 1 => relayWith r now (relay r now depth)

/-- Items of which none is a probe need no answer. -/
theorem relay_of_quiet {items : List (Outbound α)} (h : Quiet items) (depth : Nat) (c : Cache α) :
    relay r now depth c items = some (.ok { cache := c, answer := (), sent := items }) := by
  have hwith (nested : Cache α → List (Outbound α) → Option (Attempt α Unit)) :
      relayWith r now nested c items = some (.ok { cache := c, answer := (), sent := items }) := by
    induction items with
    | nil => rfl
    | cons item rest ih =>
      have hitem := h item List.mem_cons_self
      have hsame : c.countItem item = c := by
        cases item with
        | packet => rfl
        | broadcastProbe | unicastProbe => cases hitem
      simp only [relayWith, Responder.reply?_of_not_probe hitem, hsame,
        ih fun x hx => h x (List.mem_cons_of_mem _ hx)]
      rfl
  cases depth with
  | zero => exact hwith _
  | succ depth => exact hwith _

/-- It is enough that what is not answered can be handed over behind an answer. -/
theorem relayWith_eq {nested : Cache α → List (Outbound α) → Option (Attempt α Unit)}
    (h : ∀ c items, Quiet items →
      nested c items = some (.ok { cache := c, answer := (), sent := items }))
    (items : List (Outbound α)) :
    relayWith r now nested c items = some (handOver r now c items) := by
  induction items generalizing c with
  | nil => rfl
  | cons item rest ih =>
    cases hreply : r.reply? item with
    | none =>
      simp only [relayWith, handOver, hreply, ih]
      rfl
    | some binding =>
      have hquiet := (c.countItem item).quiet_observe now binding.1 binding.2
      simp only [relayWith, handOver, hreply]
      cases hobserve : (c.countItem item).observe now binding.1 binding.2 with
      | error halted => rfl
      | ok learned =>
        rw [hobserve] at hquiet
        change Quiet learned.sent at hquiet
        simp only [h learned.cache learned.sent hquiet, ih]
        rfl

/-- One answer at a time is enough: no answer lets out anything that is answered. -/
theorem relay_succ (r : Responder) (now depth : Nat) (c : Cache α) (items : List (Outbound α)) :
    relay r now (depth + 1) c items = some (handOver r now c items) :=
  relayWith_eq (fun c _ hquiet => relay_of_quiet hquiet depth c) items

/-- An operation whose probes are answered at once, in the middle of it, comes to the same as one
whose transmitter only records, followed by learning the answers in the order of the probes. No
answer lets out a probe, so no more than one item is answered at a time. -/
theorem answered_at_once_iff_later (r : Responder) (now : Nat) :
    (∀ (c : Cache α) (call : Call α) (o : Outcome α Answer), c.perform r now call = .ok o ↔
      ∃ first last outcomes, c.perform .silent now call = .ok first ∧
        first.cache.run .silent (r.replies now first.sent) = .ok (last, outcomes) ∧
        (∀ x ∈ outcomes, Quiet x.sent) ∧
        o = { cache := last
              answer := first.answer
              sent := r.weave first.sent outcomes
              warnings := first.warnings }) ∧
    ∀ (depth : Nat) (c : Cache α) (items : List (Outbound α)),
      relay r now (depth + 1) c items = some (handOver r now c items) :=
  ⟨fun c call o => c.perform_replies r now call o, relay_succ r now⟩

/-- Two stations answer the probes of one tick, each before the next probe goes out. -/
theorem answered_at_once_iff_later_of_two :
    let r : Responder := fun _ => some ⟨2, 0, 0, 0, 0, 1⟩
    let start : Cache Nat := (create { Config.brief with capacity := 2 } 0).cache
    ∃ x ∈ start.trace .silent
        [(1, .resolve ⟨10, 0, 0, 1⟩ 7), (1, .resolve ⟨10, 0, 0, 2⟩ 8)],
      ∃ o ∈ (x.2.perform r 3 .tick).toOption,
        o.sent = [.broadcastProbe ⟨10, 0, 0, 1⟩, .packet 7 ⟨2, 0, 0, 0, 0, 1⟩,
          .broadcastProbe ⟨10, 0, 0, 2⟩, .packet 8 ⟨2, 0, 0, 0, 0, 1⟩] ∧
        ∃ first last outcomes, x.2.perform .silent 3 .tick = .ok first ∧
          first.cache.run .silent (r.replies 3 first.sent) = .ok (last, outcomes) ∧
          o.cache = last := by
  intro r start
  have hrun : ∃ x ∈ start.trace .silent
        [(1, .resolve ⟨10, 0, 0, 1⟩ 7), (1, .resolve ⟨10, 0, 0, 2⟩ 8)],
      ∃ o ∈ (x.2.perform r 3 .tick).toOption,
        o.sent = [.broadcastProbe ⟨10, 0, 0, 1⟩, .packet 7 ⟨2, 0, 0, 0, 0, 1⟩,
          .broadcastProbe ⟨10, 0, 0, 2⟩, .packet 8 ⟨2, 0, 0, 0, 0, 1⟩] := by
    decide +kernel
  obtain ⟨x, hx, o, ho, hsent⟩ := hrun
  obtain ⟨first, last, outcomes, hfirst, hlater, _, heq⟩ :=
    ((answered_at_once_iff_later r 3).1 x.2 .tick o).mp (Attempt.eq_ok_of_mem ho)
  exact ⟨x, hx, o, ho, hsent, first, last, outcomes, hfirst, hlater, by rw [heq]⟩

end Cache

end Neighbor
