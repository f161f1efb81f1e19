import Mathlib.Data.List.DropRight
import Neighbor.Queue

/-!
# A queue of bounded length

Packets are offered to a queue and drained from it in any order. The log of what came of it is that
of a bounded queue (`PendingQueue.IsFifo`): an offer is refused exactly when as many packets as the
queue can hold have been accepted since the last drain, and a drain returns these packets in the
order of their arrival. `PendingQueue.handles_in_order` says so of every queue that is filled from
empty, and that no packet is lost.
-/

namespace Neighbor

namespace PendingQueue

variable {α : Type} {capacity : Nat} {q : PendingQueue α}

/-- What can be asked of a queue. -/
inductive Request (α : Type)
  | offer (packet : α)
  | drain

/-- A request together with its answer. -/
inductive Event (α : Type)
  | offered (packet : α) (accepted : Bool)
  | drained (packets : List α)

namespace Event

/-- The request that was answered. -/
def request : Event α → Request α
  | offered packet _ => .offer packet
  | drained _ => .drain

/-- Whether packets were offered. -/
def isOffer : Event α → Bool
  | offered _ _ => true
  | drained _ => false

/-- The packet that was accepted, if one was. -/
def accepted? : Event α → Option α
  | offered packet true => some packet
  | _ => none

/-- The packets that were returned. -/
def returned : Event α → List α
  | offered _ _ => []
  | drained packets => packets

end Event

/-- The packets accepted since the last drain, in the order of their arrival. -/
def heldAfter (log : List (Event α)) : List α :=
  (log.rtakeWhile Event.isOffer).filterMap Event.accepted?

/-- Whether a queue that can hold `capacity` packets and holds `held` answers in this way. -/
def Event.Fits (capacity : Nat) (held : List α) : Event α → Prop
  | offered _ accepted => accepted = false ↔ held.length = capacity
  | drained packets => packets = held

/-- A log of a queue that can hold `capacity` packets: every answer fits the log before it. -/
inductive IsFifo (capacity : Nat) : List (Event α) → Prop
  | nil : IsFifo capacity []
  | snoc {log : List (Event α)} {event : Event α} (hlog : IsFifo capacity log)
      (hfits : event.Fits capacity (heldAfter log)) : IsFifo capacity (log ++ [event])

/-- Answers one request. -/
def answer (q : PendingQueue α) : Request α → PendingQueue α × Event α
  | .offer packet => ((q.offer packet).1, .offered packet (q.offer packet).2)
  | .drain => (q.drain.1, .drained q.drain.2)

/-- Answers requests one after the other. The result is the queue they leave and the log. -/
def handle (q : PendingQueue α) (requests : List (Request α)) : PendingQueue α × List (Event α) :=
  requests.foldl (fun (q, log) request => ((q.answer request).1, log ++ [(q.answer request).2]))
    (q, [])

/-- The last request is put to the queue that the others leave. -/
theorem handle_snoc (q : PendingQueue α) (requests : List (Request α)) (request : Request α) :
    q.handle (requests ++ [request]) =
      (((q.handle requests).1.answer request).1,
        (q.handle requests).2 ++ [((q.handle requests).1.answer request).2]) := by
  simp only [handle, List.foldl_append, List.foldl_cons, List.foldl_nil]

/-- The log is of the requests that were made. -/
theorem map_request_handle (q : PendingQueue α) (requests : List (Request α)) :
    (q.handle requests).2.map Event.request = requests := by
  induction requests using List.reverseRecOn with
  | nil => rfl
  | append_singleton requests request ih =>
    rw [handle_snoc, List.map_append, ih]
    cases request <;> rfl

/-- A packet is held after its offer if that was accepted. -/
theorem heldAfter_offered (log : List (Event α)) (packet : α) (accepted : Bool) :
    heldAfter (log ++ [.offered packet accepted]) =
      if accepted then heldAfter log ++ [packet] else heldAfter log := by
  rw [heldAfter, List.rtakeWhile_concat_pos _ _ _ rfl, List.filterMap_append]
  cases accepted with
  | false => exact List.append_nil _
  | true => rfl

/-- Nothing is held after a drain. -/
theorem heldAfter_drained (log : List (Event α)) (packets : List α) :
    heldAfter (log ++ [.drained packets]) = [] := by
  rw [heldAfter, List.rtakeWhile_concat_neg _ _ _ Bool.false_ne_true, List.filterMap_nil]

/-- An offer adds to the number of offers. -/
theorem countP_offered (log : List (Event α)) (packet : α) (accepted : Bool) :
    List.countP Event.isOffer (log ++ [.offered packet accepted]) =
      log.countP Event.isOffer + 1 := by
  rw [List.countP_append]
  rfl

/-- A drain does not add to the number of offers. -/
theorem countP_drained (log : List (Event α)) (packets : List α) :
    List.countP Event.isOffer (log ++ [.drained packets]) = log.countP Event.isOffer := by
  rw [List.countP_append]
  rfl

/-- An offer returns no packet. -/
theorem returned_offered (log : List (Event α)) (packet : α) (accepted : Bool) :
    List.flatMap Event.returned (log ++ [.offered packet accepted]) =
      log.flatMap Event.returned := by
  rw [List.flatMap_append, List.flatMap_singleton]
  exact List.append_nil _

/-- A drain returns its packets after those returned before. -/
theorem returned_drained (log : List (Event α)) (packets : List α) :
    List.flatMap Event.returned (log ++ [.drained packets]) =
      log.flatMap Event.returned ++ packets := by
  rw [List.flatMap_append, List.flatMap_singleton]
  rfl

/-- What a queue and its log have in common. -/
structure Accords (capacity : Nat) (q : PendingQueue α) (log : List (Event α)) : Prop where
  capacity_eq : q.capacity = capacity
  size_le : q.packets.length ≤ capacity
  packets_eq : q.packets = heldAfter log
  isFifo : IsFifo capacity log
  /-- Every packet that was offered has been returned, waits or was refused. -/
  balance : log.countP Event.isOffer =
    (log.flatMap Event.returned).length + q.packets.length + q.refused

variable {log : List (Event α)}

/-- A queue holds as many packets as it can exactly if it is full. -/
theorem Accords.size_eq_iff (h : Accords capacity q log) :
    q.packets.length = capacity ↔ q.isFull = true := by
  have hsize := h.size_le
  rw [isFull_iff, h.capacity_eq]
  omega

/-- A queue and its log accord after an offer that is refused. -/
theorem Accords.offer_refused (h : Accords capacity q log) (hfull : q.isFull = true) (packet : α) :
    Accords capacity { q with refused := q.refused + 1 } (log ++ [.offered packet false]) := by
  have hsize := h.size_eq_iff.mpr hfull
  refine ⟨h.capacity_eq, h.size_le, h.packets_eq.trans (heldAfter_offered log packet false).symm,
    .snoc h.isFifo (iff_of_true rfl (h.packets_eq ▸ hsize)), ?_⟩
  have hbalance := h.balance
  rw [countP_offered, returned_offered]
  dsimp only
  omega

/-- A queue and its log accord after an offer that is accepted. -/
theorem Accords.offer_accepted (h : Accords capacity q log) (hroom : ¬q.isFull = true)
    (packet : α) :
    Accords capacity { q with packets := q.packets ++ [packet] }
      (log ++ [.offered packet true]) := by
  have hsize : q.packets.length < capacity :=
    Nat.lt_of_le_of_ne h.size_le fun heq => hroom (h.size_eq_iff.mp heq)
  refine ⟨h.capacity_eq, ?_, ?_, .snoc h.isFifo (iff_of_false nofun ?_), ?_⟩
  · rw [List.length_append, List.length_singleton]
    exact hsize
  · rw [heldAfter_offered, if_pos rfl, h.packets_eq]
  · exact h.packets_eq ▸ Nat.ne_of_lt hsize
  · have hbalance := h.balance
    rw [countP_offered, returned_offered, List.length_append, List.length_singleton]
    dsimp only
    omega

/-- A queue and its log accord after a drain. -/
theorem Accords.drain (h : Accords capacity q log) :
    Accords capacity { q with packets := [] } (log ++ [.drained q.packets]) := by
  refine ⟨h.capacity_eq, Nat.zero_le _, (heldAfter_drained log _).symm,
    .snoc h.isFifo h.packets_eq, ?_⟩
  have hbalance := h.balance
  rw [countP_drained, returned_drained, List.length_append, List.length_nil]
  omega

/-- A queue and its log accord after one more request. -/
theorem Accords.answer (h : Accords capacity q log) (request : Request α) :
    Accords capacity (q.answer request).1 (log ++ [(q.answer request).2]) := by
  cases request with
  | offer packet =>
    by_cases hfull : q.isFull = true
    · simpa only [PendingQueue.answer, offer_of_isFull hfull] using h.offer_refused hfull packet
    · simpa only [PendingQueue.answer, offer_of_room hfull] using h.offer_accepted hfull packet
  | drain => exact h.drain

/-- A queue that is filled from empty accords with its log. -/
theorem accords_handle (capacity : Nat) (requests : List (Request α)) :
    Accords capacity ((empty capacity).handle requests).1 ((empty capacity).handle requests).2 := by
  induction requests using List.reverseRecOn with
  | nil => exact ⟨rfl, Nat.zero_le _, rfl, .nil, rfl⟩
  | append_singleton requests request ih =>
    rw [handle_snoc]
    exact ih.answer request

/-- Whatever is asked of an empty queue, its answers are those of a bounded queue and it holds what
has been accepted since the last drain, never more than it can hold. The packets offered are those
returned, those that wait and those that were refused. There are no more refusals than requests, so
a count of 64 bits holds their number for fewer than `UInt64.size` requests. An offer is refused
when the queue is full and then changes nothing but the number of refusals; a drain leaves nothing
behind. -/
theorem handles_in_order (capacity : Nat) (requests : List (Request α)) :
    let (q, log) := (empty capacity).handle requests
    log.map Event.request = requests ∧ IsFifo capacity log ∧ q.size ≤ capacity ∧
      q.packets = heldAfter log ∧
      log.countP Event.isOffer = (log.flatMap Event.returned).length + q.size + q.refused ∧
      q.refused ≤ requests.length ∧
      (∀ packet, ((q.offer packet).2 = false ↔ q.size = capacity) ∧
        ((q.offer packet).2 = false → (q.offer packet).1 = { q with refused := q.refused + 1 })) ∧
      q.drain = ({ q with packets := [] }, heldAfter log) := by
  have haccords := accords_handle capacity requests
  have hrequests := map_request_handle (empty capacity) requests
  generalize (empty capacity).handle requests = result at haccords hrequests
  obtain ⟨q, log⟩ := result
  have hrefused : q.refused ≤ requests.length := by
    have hbalance : log.countP Event.isOffer =
        (log.flatMap Event.returned).length + q.packets.length + q.refused := haccords.balance
    have hoffers : log.countP Event.isOffer ≤ log.length := List.countP_le_length
    have hlength : requests.length = log.length := by rw [← hrequests, List.length_map]
    omega
  refine ⟨hrequests, haccords.isFifo, haccords.size_le, haccords.packets_eq, haccords.balance,
    hrefused, fun packet => ?_, congrArg (Prod.mk _) haccords.packets_eq⟩
  by_cases hfull : q.isFull = true
  · rw [offer_of_isFull hfull]
    exact ⟨iff_of_true rfl (haccords.size_eq_iff.mpr hfull), fun _ => rfl⟩
  · rw [offer_of_room hfull]
    exact ⟨iff_of_false nofun fun h => hfull (haccords.size_eq_iff.mp h), nofun⟩

end PendingQueue

end Neighbor
