import Neighbor.Proofs.Flow

/-!
# Packets that can be told apart

The cache never looks into a packet, so packets may carry a mark: the position of the call that
offered them and the address they were offered for. In a history of marked packets each delivery can
be traced to its call. The packets of one address leave in the order in which they were offered, and
those that wait were offered after those that left (`History.tracked`).
-/

namespace Neighbor

/-- A packet marked with the position of the call that offered it and the address it is for. -/
structure Parcel (β : Type) where
  position : Nat
  address : Address
  content : β
deriving DecidableEq

variable {β : Type}

/-- The same call with its packet marked as offered by call number `i`. -/
def Call.mark (i : Nat) : Call β → Call (Parcel β)
  | .resolve a packet => .resolve a ⟨i, a, packet⟩
  | .observe a mac => .observe a mac
  | .confirm a => .confirm a
  | .pin a mac => .pin a mac
  | .tick => .tick
  | .invalidate a => .invalidate a
  | .invalidateAll => .invalidateAll
  | .receive host bytes => .receive host bytes

/-- Calls with their packets marked. -/
def marked (calls : List (Nat × Call β)) : List (Nat × Call (Parcel β)) :=
  calls.mapIdx fun i x => (x.1, x.2.mark i)

/-- All deliveries of a history in order, each with the position of the step that made it. -/
def handed (log : List (Step (Parcel β))) : List (Nat × Parcel β × Mac) :=
  log.zipIdx.flatMap fun x => (deliveries x.1.outcome.sent).map (x.2, ·)

/-- The deliveries of the packet that call `i` offered: by which step and to which link address. -/
def deliveriesOf (i : Nat) (log : List (Step (Parcel β))) : List (Nat × Mac) :=
  ((handed log).filter fun x => x.2.1.position = i).map fun x => (x.1, x.2.2)

/-- The positions of the packets delivered for `a`, in the order of delivery. -/
def departures (a : Address) (log : List (Step (Parcel β))) : List Nat :=
  ((handed log).filter fun x => x.2.1.address = a).map (·.2.1.position)

/-- The positions of the packets that wait for `a`, oldest first. -/
def Cache.positionsAt (c : Cache (Parcel β)) (a : Address) : List Nat :=
  (c.waitingAt a).map (·.position)

/-- Each packet carries the position of its call and its address. -/
def Marked (log : List (Step (Parcel β))) : Prop :=
  ∀ (i : Nat) (s : Step (Parcel β)) (a : Address) (p : Parcel β), log[i]? = some s →
    s.call = .resolve a p → p.position = i ∧ p.address = a

section Marking

variable {log xs ys : List (Step (Parcel β))} {s : Step (Parcel β)} {a : Address} {i : Nat}

/-- A history of marked calls offers the packet of each call under its position. -/
theorem exists_step_of_calls {calls : List (Nat × Call β)} {now : Nat} {packet : β}
    (h : log.map (fun s => (s.now, s.call)) = marked calls)
    (hi : calls[i]? = some (now, .resolve a packet)) :
    ∃ s, log[i]? = some s ∧ s.call = .resolve a ⟨i, a, packet⟩ := by
  have hget : (log.map fun s => (s.now, s.call))[i]? = some (now, .resolve a ⟨i, a, packet⟩) := by
    rw [h, marked, List.getElem?_mapIdx, hi]
    rfl
  rw [List.getElem?_map] at hget
  obtain ⟨s, hs, heq⟩ := Option.map_eq_some_iff.mp hget
  exact ⟨s, hs, congrArg Prod.snd heq⟩

/-- A packet offered in a history of marked calls is that of the call at its step. -/
theorem exists_call_of_step {calls : List (Nat × Call β)} {p : Parcel β}
    (h : log.map (fun s => (s.now, s.call)) = marked calls) (hs : log[i]? = some s)
    (hcall : s.call = .resolve a p) :
    ∃ now, calls[i]? = some (now, .resolve a p.content) ∧ p.position = i ∧ p.address = a := by
  have hget : (log.map fun s => (s.now, s.call))[i]? = some (s.now, s.call) := by
    rw [List.getElem?_map, hs]
    rfl
  rw [h, marked, List.getElem?_mapIdx] at hget
  obtain ⟨⟨now, call⟩, hi, heq⟩ := Option.map_eq_some_iff.mp hget
  obtain ⟨_, hmark⟩ := Prod.mk.inj heq
  rw [hcall] at hmark
  cases call <;> cases hmark
  exact ⟨now, hi, rfl, rfl⟩

/-- A log of calls that were marked is marked. -/
theorem marked_of_calls {calls : List (Nat × Call β)}
    (h : log.map (fun s => (s.now, s.call)) = marked calls) : Marked log := by
  intro i s a p hs hcall
  obtain ⟨_, _, hposition, haddress⟩ := exists_call_of_step h hs hcall
  exact ⟨hposition, haddress⟩

/-- The beginning of a marked log is marked. -/
theorem Marked.of_append (h : Marked (xs ++ ys)) : Marked xs := by
  intro i s a p hs hcall
  obtain ⟨hi, _⟩ := List.getElem?_eq_some_iff.mp hs
  exact h i s a p (by rw [List.getElem?_append_left hi, hs]) hcall

/-- The packet of the last call carries the position of that call and its address. -/
theorem Marked.last (h : Marked (log ++ [s])) {p : Parcel β} (hcall : s.call = .resolve a p) :
    p.position = log.length ∧ p.address = a :=
  h log.length s a p List.getElem?_concat_length hcall

/-- A step that follows does not move those before it. -/
theorem getElem?_snoc {t : Step (Parcel β)} (h : log[i]? = some t) :
    (log ++ [s])[i]? = some t := by
  obtain ⟨hi, _⟩ := List.getElem?_eq_some_iff.mp h
  rw [List.getElem?_append_left hi, h]

/-- What a step hands over comes after what was handed over before. -/
theorem handed_snoc :
    handed (log ++ [s]) = handed log ++ (deliveries s.outcome.sent).map (log.length, ·) := by
  simp [handed, List.zipIdx_append]

/-- What a step delivers for an address departs after what departed before. -/
theorem departures_snoc :
    departures a (log ++ [s]) = departures a log ++
      (((deliveries s.outcome.sent).filter fun x => x.1.address = a).map (·.1.position)) := by
  simp [departures, handed_snoc, List.filter_map, Function.comp_def]

/-- The deliveries that belong to an address are those of the packets for it, if no packet is sent
on behalf of an address that it is not for. -/
theorem deliveries_share {items : List (Address × Outbound (Parcel β))}
    (h : ∀ x ∈ items, ∀ d, x.2.delivery? = some d → d.1.address = x.1) :
    (deliveries (items.map (·.2))).filter (fun d => d.1.address = a) =
      deliveries (share a items) := by
  induction items with
  | nil => rfl
  | cons x rest ih =>
    have hrest := ih fun y hy => h y (List.mem_cons_of_mem _ hy)
    cases hdelivery : x.2.delivery? with
    | none =>
      rw [List.map_cons, deliveries, List.filterMap_cons_none hdelivery, ← deliveries, hrest,
        share_cons]
      split
      · rw [deliveries, deliveries, List.filterMap_cons_none hdelivery]
      · rfl
    | some d =>
      have haddress := h x List.mem_cons_self d hdelivery
      rw [List.map_cons, deliveries, List.filterMap_cons_some hdelivery, ← deliveries,
        List.filter_cons, hrest, share_cons, haddress]
      by_cases ha : x.1 = a
      · simp [ha, deliveries, List.filterMap_cons_some hdelivery]
      · simp [ha]

end Marking

/-- What ties the packets of a history to the calls that offered them. -/
structure Tracked (log : List (Step (Parcel β))) (last : Cache (Parcel β)) : Prop where
  /-- At each address packets leave in the order in which they were offered, and those that wait
  were offered later. -/
  sorted : ∀ a, (departures a log ++ last.positionsAt a).Pairwise (· < ·)
  /-- A packet that waits was offered for its address and told to wait. -/
  accepted : ∀ a, ∀ p ∈ last.waitingAt a, ∃ s evicted, log[p.position]? = some s ∧
    s.call = .resolve a p ∧ s.outcome.answer = .resolution .queued evicted
  /-- A packet that went out was offered for its address. -/
  offered : ∀ x ∈ handed log, ∃ s, log[x.2.1.position]? = some s ∧
    s.call = .resolve x.2.1.address x.2.1

namespace Tracked

variable {log : List (Step (Parcel β))} {last : Cache (Parcel β)}
  {s : Step (Parcel β)} {a : Address} {p : Parcel β}

/-- A packet waits at the address that it is for. -/
theorem address_eq (h : Tracked log last) (hmarked : Marked log) (hp : p ∈ last.waitingAt a) :
    p.address = a := by
  obtain ⟨s, _, hs, hcall, _⟩ := h.accepted a p hp
  exact (hmarked _ s a p hs hcall).2

/-- Every packet so far was offered by one of the steps so far. -/
theorem position_lt (h : Tracked log last) {i : Nat}
    (hi : i ∈ departures a log ++ last.positionsAt a) : i < log.length := by
  rcases List.mem_append.mp hi with hi | hi
  · obtain ⟨x, hx, rfl⟩ := List.mem_map.mp hi
    obtain ⟨s, hs, _⟩ := h.offered x (List.mem_filter.mp hx).1
    exact (List.getElem?_eq_some_iff.mp hs).1
  · obtain ⟨p, hp, rfl⟩ := List.mem_map.mp hi
    obtain ⟨s, _, hs, _⟩ := h.accepted a p hp
    exact (List.getElem?_eq_some_iff.mp hs).1

/-- What a step delivers of the packets for `a` is what the flow through `a` delivers. -/
theorem flow (h : Tracked log s.before) (hmarked : Marked (log ++ [s]))
    (hturns : Turns s.responder s.before s.now s.call s.outcome) (a : Address) :
    ∃ sent, (∀ x ∈ sent, x ∈ s.outcome.sent) ∧
      Flow s.responder s.before s.now a s.call s.outcome.answer (s.outcome.cache.store.find? a) sent
        ((deliveries s.outcome.sent).filter fun d => d.1.address = a) := by
  obtain ⟨items, hitems, hturn⟩ := hturns.turns
  refine ⟨share a items, fun x hx => hitems ▸ mem_of_mem_share hx, ?_⟩
  rw [← hitems, deliveries_share]
  · exact (hturn a).flow
  · intro x hx d hd
    have hmem : d ∈ deliveries (share x.1 items) := by
      refine List.mem_filterMap.mpr ⟨x.2, List.mem_map.mpr ⟨x, ?_, rfl⟩, hd⟩
      exact List.mem_filter.mpr ⟨hx, by simp⟩
    rcases (hturn x.1).flow.mem_delivered hmem with hwaiting | hcall
    · exact h.address_eq hmarked.of_append hwaiting
    · exact (hmarked.last hcall).2

/-- A step keeps the packets of an address in order. -/
theorem sorted_snoc (h : Tracked log s.before) (hmarked : Marked (log ++ [s]))
    (hturns : Turns s.responder s.before s.now s.call s.outcome) (a : Address) :
    (departures a (log ++ [s]) ++ s.outcome.cache.positionsAt a).Pairwise (· < ·) := by
  obtain ⟨sent, _, hflow⟩ := h.flow hmarked hturns a
  -- what leaves and what waits is taken in order from what waited and the packet of this step
  have hbound :
      ((departures a log ++ s.before.positionsAt a) ++ [log.length]).Pairwise (· < ·) := by
    refine List.pairwise_append.mpr ⟨h.sorted a, List.pairwise_singleton _ _, fun i hi j hj => ?_⟩
    rw [List.mem_singleton.mp hj]
    exact h.position_lt hi
  have hsub : ((((deliveries s.outcome.sent).filter fun d => d.1.address = a).map
      (·.1.position)) ++ s.outcome.cache.positionsAt a).Sublist
      (s.before.positionsAt a ++ [log.length]) := by
    rcases hflow.sublist with hsub | ⟨p, hcall, hsub⟩
    · have hmap := hsub.map (·.position)
      rw [List.map_append, List.map_map] at hmap
      exact hmap.trans (List.sublist_append_left _ _)
    · have hmap := hsub.map (·.position)
      rw [List.map_append, List.map_map, List.map_append, List.map_singleton,
        (hmarked.last hcall).1] at hmap
      exact hmap
  rw [departures_snoc]
  refine hbound.sublist ?_
  rw [List.append_assoc, List.append_assoc]
  exact hsub.append_left _

/-- A step keeps track of the packets. -/
theorem snoc (h : Tracked log s.before) (hmarked : Marked (log ++ [s]))
    (hturns : Turns s.responder s.before s.now s.call s.outcome) :
    Tracked (log ++ [s]) s.outcome.cache := by
  have hown {p : Parcel β} {a : Address} (hcall : s.call = .resolve a p) :
      (log ++ [s])[p.position]? = some s := by
    rw [(hmarked.last hcall).1]
    exact List.getElem?_concat_length
  refine ⟨h.sorted_snoc hmarked hturns, fun a p hp => ?_, fun x hx => ?_⟩
  · obtain ⟨sent, _, hflow⟩ := h.flow hmarked hturns a
    rcases hflow.mem_after hp with hwaiting | ⟨hcall, evicted, hanswer⟩
    · obtain ⟨t, evicted, ht, hcall, hanswer⟩ := h.accepted a p hwaiting
      exact ⟨t, evicted, getElem?_snoc ht, hcall, hanswer⟩
    · exact ⟨s, evicted, hown hcall, hcall, hanswer⟩
  · rw [handed_snoc] at hx
    rcases List.mem_append.mp hx with hx | hx
    · obtain ⟨t, ht, hcall⟩ := h.offered x hx
      exact ⟨t, getElem?_snoc ht, hcall⟩
    · obtain ⟨d, hd, rfl⟩ := List.mem_map.mp hx
      obtain ⟨sent, _, hflow⟩ := h.flow hmarked hturns d.1.address
      have hmem : d ∈ (deliveries s.outcome.sent).filter fun y => y.1.address = d.1.address :=
        List.mem_filter.mpr ⟨hd, by simp⟩
      rcases hflow.mem_delivered hmem with hwaiting | hcall
      · obtain ⟨t, _, ht, hcall, _⟩ := h.accepted _ _ hwaiting
        exact ⟨t, getElem?_snoc ht, hcall⟩
      · exact ⟨s, hown hcall, hcall⟩

end Tracked

/-- In a history of marked packets that starts with none waiting, every packet is tracked. -/
theorem History.tracked {first last : Cache (Parcel β)}
    {log : List (Step (Parcel β))} (h : History first log last) (hfirst : first.Sound)
    (hempty : ∀ a, first.waitingAt a = []) (hmarked : Marked log) : Tracked log last := by
  induction h with
  | nil =>
    refine ⟨fun a => ?_, fun a p hp => ?_, nofun⟩
    · rw [Cache.positionsAt, hempty]
      exact List.Pairwise.nil
    · rw [hempty] at hp
      cases hp
  | snoc hlog hperform ih =>
    have hsound := (hlog.sound hfirst).1
    exact (ih hmarked.of_append).snoc hmarked (hsound.turns hperform)

end Neighbor
