import Neighbor.Proofs.Parcel
import Neighbor.Proofs.Reach

/-!
# The fate of a packet

A packet that is told to wait has exactly one fate: it waits, it was delivered once by the step that
installed the link address of its entry, or it was discarded by a tick that gave its entry up or by
a removal. A packet that is turned away is never delivered, one for a bound address exactly once,
and the packets of one address are delivered in the order in which they were offered.
-/

namespace Neighbor

variable {β : Type}

/-- The step binds `a` to `mac` and so lets out the packet of call `i`, which waited in the entry
until then or was offered by the step itself. -/
structure Step.LetsOut (s : Step (Parcel β)) (a : Address) (i : Nat) (mac : Mac) : Prop where
  installs : s.Observes a mac ∨ s.Pins a mac
  bound : ∃ e, s.outcome.cache.store.find? a = some e ∧ e.state = .reachable ∧ e.mac? = some mac ∧
    ((∃ old, s.before.store.find? a = some old ∧ old.state = .incomplete ∧
        old.generation = e.generation ∧ i ∈ s.before.positionsAt a) ∨
      ∃ p, s.call = .resolve a p ∧ p.position = i)

/-- The step discards the packet of call `i`, which waited for `a`. -/
structure Step.Drops (s : Step (Parcel β)) (a : Address) (i : Nat) : Prop where
  waiting : i ∈ s.before.positionsAt a
  discards : Discards a s.call s.outcome.answer (s.outcome.cache.store.find? a)

/-- What became of a packet that was told to wait. -/
inductive Fate
  | waiting
  | delivered (step : Nat) (mac : Mac)
  | discarded (step : Nat)

/-- Whether a fate is that of the packet that call `i` offered for `a`. -/
def Fate.Holds (log : List (Step (Parcel β))) (last : Cache (Parcel β)) (a : Address) (i : Nat) :
    Fate → Prop
  | waiting => (∀ b, i ∈ last.positionsAt b ↔ b = a) ∧ deliveriesOf i log = []
  | delivered step mac =>
    (∀ b, i ∉ last.positionsAt b) ∧ deliveriesOf i log = [(step, mac)] ∧
      ∃ s, log[step]? = some s ∧ s.LetsOut a i mac
  | discarded step =>
    (∀ b, i ∉ last.positionsAt b) ∧ deliveriesOf i log = [] ∧
      ∃ s, log[step]? = some s ∧ s.Drops a i

namespace Fate.Holds

variable {log : List (Step (Parcel β))} {last : Cache (Parcel β)} {a : Address} {i : Nat} {f : Fate}

/-- A packet is at its address exactly if that is its fate. -/
theorem mem_positionsAt_iff (h : f.Holds log last a i) : i ∈ last.positionsAt a ↔ f = .waiting := by
  cases f with
  | waiting => exact iff_of_true ((h.1 a).mpr rfl) rfl
  | delivered | discarded => exact iff_of_false (h.1 a) nofun

/-- A packet was delivered exactly if that is its fate. -/
theorem deliveriesOf_eq_iff (h : f.Holds log last a i) {j : Nat} {mac : Mac} :
    deliveriesOf i log = [(j, mac)] ↔ f = .delivered j mac := by
  cases f with
  | waiting =>
    rw [h.2]
    exact iff_of_false nofun nofun
  | delivered =>
    rw [h.2.1]
    simp
  | discarded =>
    rw [h.2.1]
    exact iff_of_false nofun nofun

end Fate.Holds

/-- Where the packet that call `i` offered for `a` is, by what the call answered. -/
inductive Whereabouts (log : List (Step (Parcel β))) (last : Cache (Parcel β))
    (a : Address) (i : Nat) : Resolution → Prop
  | passed {p : Parcel β} {mac : Mac} (hhanded : (i, p, mac) ∈ handed log)
      (hposition : p.position = i) : Whereabouts log last a i (.resolved mac)
  | waiting (hwaiting : i ∈ last.positionsAt a) : Whereabouts log last a i .queued
  | delivered {j : Nat} {p : Parcel β} {mac : Mac} {s : Step (Parcel β)}
      (hhanded : (j, p, mac) ∈ handed log) (hposition : p.position = i)
      (hs : log[j]? = some s) (hletsOut : s.LetsOut a i mac) : Whereabouts log last a i .queued
  | discarded {j : Nat} {s : Step (Parcel β)} (hgone : i ∉ departures a log ++ last.positionsAt a)
      (hs : log[j]? = some s) (hdrops : s.Drops a i) : Whereabouts log last a i .queued
  | turnedAway {resolution : Resolution} (hgone : i ∉ departures a log ++ last.positionsAt a)
      (hresolution : resolution = .rejectedFull ∨ ∃ reason, resolution = .dropped reason) :
      Whereabouts log last a i resolution

section Steps

variable {log : List (Step (Parcel β))} {s : Step (Parcel β)} {a : Address}
  {i : Nat} {resolution : Resolution}

/-- A packet of an earlier call that is not at `a` does not come back. -/
theorem Tracked.stays_gone (h : Tracked log s.before) (hmarked : Marked (log ++ [s]))
    (hturns : Turns s.responder s.before s.now s.call s.outcome) (hi : i < log.length)
    (hgone : i ∉ departures a log ++ s.before.positionsAt a) :
    i ∉ departures a (log ++ [s]) ++ s.outcome.cache.positionsAt a := by
  obtain ⟨hdeparted, hwaiting⟩ := not_or.mp (mt List.mem_append.mpr hgone)
  obtain ⟨sent, _, hflow⟩ := h.flow hmarked hturns a
  have hown {p : Parcel β} (hcall : s.call = .resolve a p) : p.position ≠ i := by
    rw [(hmarked.last hcall).1]
    omega
  have hearlier {p : Parcel β} (hp : p ∈ s.before.waitingAt a) : p.position ≠ i := by
    rintro rfl
    exact hwaiting (List.mem_map.mpr ⟨p, hp, rfl⟩)
  rw [departures_snoc]
  intro hmem
  rcases List.mem_append.mp hmem with hmem | hmem
  · rcases List.mem_append.mp hmem with hmem | hmem
    · exact hdeparted hmem
    · obtain ⟨d, hd, hposition⟩ := List.mem_map.mp hmem
      rcases hflow.mem_delivered hd with hp | hcall
      · exact hearlier hp hposition
      · exact hown hcall hposition
  · obtain ⟨p, hp, hposition⟩ := List.mem_map.mp hmem
    rcases hflow.mem_after hp with hp | ⟨hcall, _⟩
    · exact hearlier hp hposition
    · exact hown hcall hposition

/-- What let out the packets that waited for `a`, or the one that the step offered. -/
theorem letsOut_of_tells {mac : Mac} {sent : List (Outbound (Parcel β))}
    (hsent : ∀ x ∈ sent, x ∈ s.outcome.sent)
    (hinstalls : Tells s.responder s.before s.now a s.call sent mac ∨
      (s.call = .pin a mac ∧ s.outcome.answer.isPinned = true)) :
    s.Observes a mac ∨ s.Pins a mac := by
  rcases hinstalls with htells | hpins
  · exact .inl (htells.mono hsent)
  · exact .inr hpins

/-- What a step delivers it has handed over. -/
theorem mem_handed_snoc {d : Parcel β × Mac} (hd : d ∈ deliveries s.outcome.sent) :
    (log.length, d.1, d.2) ∈ handed (log ++ [s]) := by
  rw [handed_snoc]
  exact List.mem_append_right _ (List.mem_map.mpr ⟨d, hd, rfl⟩)

/-- A step that installs a link address for `a` lets out the packets that waited. -/
theorem letsOut_of_releases {mac : Mac} {sent : List (Outbound (Parcel β))}
    (hsent : ∀ x ∈ sent, x ∈ s.outcome.sent) (hwaiting : i ∈ s.before.positionsAt a)
    (h : Releases s.responder s.before s.now a s.call s.outcome.answer
      (s.outcome.cache.store.find? a) sent mac) : s.LetsOut a i mac := by
  obtain ⟨e, e', hfind, hincomplete, hafter, hgeneration, hstate, hmac⟩ := h.leaves
  refine ⟨letsOut_of_tells hsent h.installs, e', hafter, hstate, hmac, ?_⟩
  exact .inl ⟨e, hfind, hincomplete, hgeneration.symm, hwaiting⟩

/-- A packet that is discarded is nowhere any more. -/
theorem Tracked.gone_of_discards (h : Tracked log s.before) (hwaiting : i ∈ s.before.positionsAt a)
    (hnone : (deliveries s.outcome.sent).filter (fun d => d.1.address = a) = [])
    (hdiscards : Discards a s.call s.outcome.answer (s.outcome.cache.store.find? a)) :
    i ∉ departures a (log ++ [s]) ++ s.outcome.cache.positionsAt a := by
  rw [departures_snoc, hnone, Cache.positionsAt, Cache.waitingAt, hdiscards.waitingIn_eq_nil]
  intro hmem
  have hdeparted : i ∈ departures a log := by simpa using hmem
  have hsorted := (List.pairwise_append.mp (h.sorted a)).2.2
  exact Nat.lt_irrefl _ (hsorted i hdeparted i hwaiting)

/-- A step moves a packet of an earlier call from one place to another. -/
theorem Whereabouts.snoc (h : Whereabouts log s.before a i resolution)
    (htracked : Tracked log s.before) (hmarked : Marked (log ++ [s]))
    (hturns : Turns s.responder s.before s.now s.call s.outcome) (hi : i < log.length) :
    Whereabouts (log ++ [s]) s.outcome.cache a i resolution := by
  have hkeep {x : Nat × Parcel β × Mac} (hx : x ∈ handed log) : x ∈ handed (log ++ [s]) := by
    rw [handed_snoc]
    exact List.mem_append_left _ hx
  cases h with
  | passed hhanded hposition => exact .passed (hkeep hhanded) hposition
  | delivered hhanded hposition ht hletsOut =>
    exact .delivered (hkeep hhanded) hposition (getElem?_snoc ht) hletsOut
  | discarded hgone ht hdrops =>
    exact .discarded (htracked.stays_gone hmarked hturns hi hgone) (getElem?_snoc ht) hdrops
  | turnedAway hgone hresolution =>
    exact .turnedAway (htracked.stays_gone hmarked hturns hi hgone) hresolution
  | waiting hwaiting =>
    obtain ⟨sent, hsent, hflow⟩ := htracked.flow hmarked hturns a
    obtain ⟨p, hp, hposition⟩ := List.mem_map.mp hwaiting
    generalize hdelivered : (deliveries s.outcome.sent).filter
      (fun d => d.1.address = a) = delivered at hflow
    cases hflow with
    | kept hafter =>
      apply Whereabouts.waiting
      rw [Cache.positionsAt, Cache.waitingAt, hafter]
      exact hwaiting
    | queued hcall hanswer hafter =>
      apply Whereabouts.waiting
      rw [Cache.positionsAt, Cache.waitingAt, hafter, List.map_append]
      exact List.mem_append_left _ hwaiting
    | passed hcall hanswer hbefore | answered hcall hanswer hbefore =>
      rw [hbefore] at hp
      cases hp
    | @released mac hcall hreleases =>
      have hmem : (p, mac) ∈ (s.before.waitingAt a).map (·, mac) := List.mem_map.mpr ⟨p, hp, rfl⟩
      rw [← hdelivered] at hmem
      exact .delivered (mem_handed_snoc (List.mem_filter.mp hmem).1) hposition
        List.getElem?_concat_length (letsOut_of_releases hsent hwaiting hreleases)
    | discarded hcall hdiscards =>
      exact .discarded (htracked.gone_of_discards hwaiting hdelivered hdiscards)
        List.getElem?_concat_length ⟨hwaiting, hdiscards⟩

/-- A step puts the packet that it offers where its answer says. -/
theorem whereabouts_own {p : Parcel β} (htracked : Tracked log s.before)
    (hmarked : Marked (log ++ [s])) (hturns : Turns s.responder s.before s.now s.call s.outcome)
    (hcall : s.call = .resolve a p) :
    ∃ resolution evicted, s.outcome.answer = .resolution resolution evicted ∧
      Whereabouts (log ++ [s]) s.outcome.cache a log.length resolution := by
  obtain ⟨hposition, haddress⟩ := hmarked.last hcall
  obtain ⟨sent, hsent, hflow⟩ := htracked.flow hmarked hturns a
  generalize hdelivered : (deliveries s.outcome.sent).filter
    (fun d => d.1.address = a) = delivered at hflow
  have hhanded {q : Parcel β} {mac : Mac} (hq : delivered = [(q, mac)]) :
      (log.length, q, mac) ∈ handed (log ++ [s]) := by
    have hmem : (q, mac) ∈ delivered := hq ▸ List.mem_cons_self
    rw [← hdelivered] at hmem
    exact mem_handed_snoc (List.mem_filter.mp hmem).1
  cases hflow with
  | kept hafter hturned =>
    obtain ⟨resolution, evicted, hanswer, hresolution⟩ := hturned p hcall
    refine ⟨resolution, evicted, hanswer, .turnedAway ?_ hresolution⟩
    rw [departures_snoc, hdelivered, Cache.positionsAt, Cache.waitingAt, hafter]
    intro hmem
    refine Nat.lt_irrefl log.length (htracked.position_lt (a := a) ?_)
    simpa [Cache.positionsAt] using hmem
  | @queued q evicted hcall' hanswer hafter =>
    cases hcall.symm.trans hcall'
    refine ⟨.queued, evicted, hanswer, .waiting ?_⟩
    rw [Cache.positionsAt, Cache.waitingAt, hafter, List.map_append, ← hposition]
    exact List.mem_append_right _ List.mem_cons_self
  | @passed q mac evicted hcall' hanswer =>
    cases hcall.symm.trans hcall'
    exact ⟨.resolved mac, evicted, hanswer, .passed (hhanded rfl) hposition⟩
  | @answered q mac evicted e hcall' hanswer hbefore htells hafter hstate hmac =>
    cases hcall.symm.trans hcall'
    refine ⟨.queued, evicted, hanswer, .delivered (hhanded rfl) hposition
      List.getElem?_concat_length ⟨letsOut_of_tells hsent (.inl htells), ?_⟩⟩
    exact ⟨e, hafter, hstate, hmac, .inr ⟨p, hcall, hposition⟩⟩
  | released hcall' => exact absurd hcall (hcall' p)
  | discarded hcall' => exact absurd hcall (hcall' p)

end Steps

namespace History

variable {first last : Cache (Parcel β)} {log : List (Step (Parcel β))}
  {s : Step (Parcel β)} {a : Address} {i : Nat} {p : Parcel β}

/-- In a history of marked packets each packet is where the answer of its call and the later steps
have put it. -/
theorem whereabouts (h : History first log last) (hfirst : first.Sound)
    (hempty : ∀ a, first.waitingAt a = []) (hmarked : Marked log) (hs : log[i]? = some s)
    (hcall : s.call = .resolve a p) :
    ∃ resolution evicted, s.outcome.answer = .resolution resolution evicted ∧
      Whereabouts log last a i resolution := by
  induction h with
  | nil => cases hs
  | @snoc log c r now call o hlog hperform ih =>
    have hturns := (hlog.sound hfirst).1.turns hperform
    have htracked := hlog.tracked hfirst hempty hmarked.of_append
    by_cases hi : i < log.length
    · rw [List.getElem?_append_left hi] at hs
      obtain ⟨resolution, evicted, hanswer, hwhere⟩ := ih hmarked.of_append hs
      refine ⟨resolution, evicted, hanswer, ?_⟩
      exact hwhere.snoc (s := ⟨r, now, call, c, o⟩) htracked hmarked hturns hi
    · have hlength := (List.getElem?_eq_some_iff.mp hs).1
      rw [List.length_append, List.length_singleton] at hlength
      obtain rfl : i = log.length := by omega
      rw [List.getElem?_concat_length] at hs
      cases hs
      exact whereabouts_own htracked hmarked hturns hcall

/-- A packet that was told to wait for `a` and is not there any more does not come back. -/
theorem not_waiting_again {xs ys : List (Step (Parcel β))} {middle : Cache (Parcel β)}
    (h : History middle ys last) (hmiddle : middle.Sound) (hmarked : Marked (xs ++ ys))
    (hi : i < xs.length) (hgone : i ∉ middle.positionsAt a) : i ∉ last.positionsAt a := by
  induction h with
  | nil => exact hgone
  | @snoc log c r now call o hlog hperform ih =>
    rw [← List.append_assoc] at hmarked
    have hbefore := ih hmarked.of_append
    obtain ⟨items, _, hturn⟩ := ((hlog.sound hmiddle).1.turns hperform).turns
    intro hmem
    obtain ⟨p, hp, hposition⟩ := List.mem_map.mp hmem
    rcases (hturn a).flow.mem_after hp with hwaiting | ⟨hcall, _⟩
    · exact hbefore (List.mem_map.mpr ⟨p, hwaiting, hposition⟩)
    · have hlast := (hmarked.last hcall).1
      rw [List.length_append] at hlast
      omega

end History

/-- Of the elements of a list with distinct keys, one has the key of a given one. -/
theorem filter_eq_singleton {γ : Type} {f : γ → Nat} {l : List γ} {x : γ}
    (hnodup : (l.map f).Nodup) (hx : x ∈ l) : l.filter (fun y => f y = f x) = [x] := by
  induction l with
  | nil => cases hx
  | cons y rest ih =>
    obtain ⟨hnotin, hrest⟩ := List.nodup_cons.mp hnodup
    rcases List.mem_cons.mp hx with rfl | hx
    · have hnone : rest.filter (fun y => f y = f x) = [] := by
        rw [List.filter_eq_nil_iff]
        intro y hy heq
        exact hnotin (List.mem_map.mpr ⟨y, hy, by simpa using heq⟩)
      rw [List.filter_cons_of_pos (by simp), hnone]
    · have hne : f y ≠ f x := by
        intro heq
        exact hnotin (List.mem_map.mpr ⟨x, hx, heq.symm⟩)
      rw [List.filter_cons_of_neg (by simpa using hne)]
      exact ih hrest hx

namespace Tracked

variable {log : List (Step (Parcel β))} {last : Cache (Parcel β)}
  {s : Step (Parcel β)} {a : Address} {i : Nat} {p : Parcel β}

/-- A packet is delivered only for the address it was offered for. -/
theorem filter_handed (h : Tracked log last) (hs : log[i]? = some s)
    (hcall : s.call = .resolve a p) :
    (handed log).filter (fun x => x.2.1.position = i) =
      ((handed log).filter fun x => x.2.1.address = a).filter fun x => x.2.1.position = i := by
  rw [List.filter_filter]
  apply List.filter_congr
  intro x hx
  obtain ⟨t, ht, htcall⟩ := h.offered x hx
  by_cases hposition : x.2.1.position = i
  · rw [hposition, hs] at ht
    cases ht
    rw [hcall] at htcall
    cases htcall
    simp [hposition]
  · simp [hposition]

/-- No packet is delivered twice for one address. -/
theorem nodup_departures (h : Tracked log last) : (departures a log).Nodup :=
  ((List.pairwise_append.mp (h.sorted a)).1).imp fun hlt => Nat.ne_of_lt hlt

/-- A packet that was delivered was delivered once. -/
theorem deliveriesOf_of_mem (h : Tracked log last) (hs : log[i]? = some s)
    (hcall : s.call = .resolve a p) {j : Nat} {q : Parcel β} {mac : Mac}
    (hmem : (j, q, mac) ∈ handed log) (hposition : q.position = i) :
    deliveriesOf i log = [(j, mac)] ∧ i ∈ departures a log := by
  obtain ⟨t, ht, htcall⟩ := h.offered _ hmem
  rw [hposition, hs] at ht
  cases ht
  have haddress : q.address = a := by
    injection hcall.symm.trans htcall with ha _
    exact ha.symm
  have hin : (j, q, mac) ∈ (handed log).filter fun x => x.2.1.address = a :=
    List.mem_filter.mpr ⟨hmem, by simpa using haddress⟩
  refine ⟨?_, List.mem_map.mpr ⟨_, hin, hposition⟩⟩
  have hsingle := filter_eq_singleton h.nodup_departures hin
  rw [deliveriesOf, h.filter_handed hs hcall, ← hposition, hsingle]
  rfl

/-- A packet that never left its address was not delivered. -/
theorem deliveriesOf_eq_nil (h : Tracked log last) (hs : log[i]? = some s)
    (hcall : s.call = .resolve a p) (hgone : i ∉ departures a log) : deliveriesOf i log = [] := by
  rw [deliveriesOf, h.filter_handed hs hcall, List.map_eq_nil_iff, List.filter_eq_nil_iff]
  intro x hx hposition
  exact hgone (List.mem_map.mpr ⟨x, hx, by simpa using hposition⟩)

/-- A packet waits for no address but the one it was offered for. -/
theorem waiting_iff (h : Tracked log last) (hs : log[i]? = some s) (hcall : s.call = .resolve a p)
    {b : Address} : i ∈ last.positionsAt b ↔ b = a ∧ i ∈ last.positionsAt a := by
  constructor
  · intro hmem
    obtain ⟨q, hq, hposition⟩ := List.mem_map.mp hmem
    obtain ⟨t, _, ht, htcall, _⟩ := h.accepted b q hq
    rw [hposition, hs] at ht
    cases ht
    rw [hcall] at htcall
    cases htcall
    exact ⟨rfl, hmem⟩
  · rintro ⟨rfl, hmem⟩
    exact hmem

/-- A packet that does not wait for its address waits for none. -/
theorem nowhere (h : Tracked log last) (hs : log[i]? = some s) (hcall : s.call = .resolve a p)
    (hgone : i ∉ last.positionsAt a) (b : Address) : i ∉ last.positionsAt b := by
  intro hb
  exact hgone ((h.waiting_iff hs hcall).mp hb).2

/-- A packet that is gone from its address without having left it was not delivered. -/
theorem undelivered (h : Tracked log last) (hs : log[i]? = some s) (hcall : s.call = .resolve a p)
    (hgone : i ∉ departures a log ++ last.positionsAt a) :
    deliveriesOf i log = [] ∧ ∀ b, i ∉ last.positionsAt b := by
  obtain ⟨hdeparted, hwaiting⟩ := not_or.mp (mt List.mem_append.mpr hgone)
  exact ⟨h.deliveriesOf_eq_nil hs hcall hdeparted, h.nowhere hs hcall hwaiting⟩

/-- A packet that left its address does not wait. -/
theorem not_waiting_of_departed (h : Tracked log last) (hdeparted : i ∈ departures a log) :
    i ∉ last.positionsAt a := by
  intro hwaiting
  exact Nat.lt_irrefl i ((List.pairwise_append.mp (h.sorted a)).2.2 i hdeparted i hwaiting)

end Tracked

namespace History

variable {first last : Cache (Parcel β)} {log : List (Step (Parcel β))}
  {s : Step (Parcel β)} {a : Address} {i : Nat} {p : Parcel β}

/-- A packet that was discarded is not discarded again. -/
theorem not_dropped_again (h : History first log last) (hfirst : first.Sound)
    (hempty : ∀ a, first.waitingAt a = []) (hmarked : Marked log) {j k : Nat}
    {t u : Step (Parcel β)} (ht : log[j]? = some t) (htdrops : t.Drops a i)
    (hu : log[k]? = some u) (hudrops : u.Drops a i) : ¬ j < k := by
  intro hlt
  obtain ⟨ys, zs, rfl, rfl, hys, _, _⟩ := h.cut hu
  rw [List.getElem?_append_left hlt] at ht
  obtain ⟨ws, xs, rfl, rfl, hws, hperform, hxs⟩ := hys.cut ht
  have hmarked' : Marked ((ws ++ [t]) ++ xs) := by simpa using hmarked.of_append
  have hi : i < ws.length :=
    (hws.tracked hfirst hempty hmarked'.of_append.of_append).position_lt (a := a)
      (List.mem_append_right _ htdrops.waiting)
  have hgone : i ∉ t.outcome.cache.positionsAt a := by
    rw [Cache.positionsAt, Cache.waitingAt, htdrops.discards.waitingIn_eq_nil]
    exact List.not_mem_nil
  refine hxs.not_waiting_again ((hws.sound hfirst).1.perform hperform) hmarked' ?_ hgone
    hudrops.waiting
  rw [List.length_append]
  omega

/-- Two fates of one packet are the same. -/
theorem fate_unique (h : History first log last) (hfirst : first.Sound)
    (hempty : ∀ a, first.waitingAt a = []) (hmarked : Marked log) {f g : Fate}
    (hf : f.Holds log last a i) (hg : g.Holds log last a i) : f = g := by
  have hwaiting : f = .waiting ↔ g = .waiting :=
    hf.mem_positionsAt_iff.symm.trans hg.mem_positionsAt_iff
  have hdelivered (j : Nat) (mac : Mac) : f = .delivered j mac ↔ g = .delivered j mac :=
    hf.deliveriesOf_eq_iff.symm.trans hg.deliveriesOf_eq_iff
  cases f with
  | waiting => exact (hwaiting.mp rfl).symm
  | delivered j mac => exact ((hdelivered j mac).mp rfl).symm
  | discarded j =>
    cases g with
    | waiting => cases hwaiting.mpr rfl
    | delivered k mac => cases (hdelivered k mac).mpr rfl
    | discarded k =>
      obtain ⟨_, _, t, ht, htdrops⟩ := hf
      obtain ⟨_, _, u, hu, hudrops⟩ := hg
      -- a packet that is discarded waits before the step and not after, so not at two steps
      have hjk := h.not_dropped_again hfirst hempty hmarked ht htdrops hu hudrops
      have hkj := h.not_dropped_again hfirst hempty hmarked hu hudrops ht htdrops
      have heq : j = k := by omega
      rw [heq]

/-- A packet that was told to wait has one of the three fates. -/
theorem exists_fate (h : Tracked log last) (hs : log[i]? = some s) (hcall : s.call = .resolve a p)
    (hwhere : Whereabouts log last a i .queued) : ∃ f : Fate, f.Holds log last a i := by
  cases hwhere with
  | waiting hwaiting =>
    refine ⟨.waiting, fun b => ?_, h.deliveriesOf_eq_nil hs hcall fun hdeparted => ?_⟩
    · rw [h.waiting_iff hs hcall]
      exact and_iff_left hwaiting
    · exact h.not_waiting_of_departed hdeparted hwaiting
  | @delivered j q mac t hhanded hposition ht hletsOut =>
    obtain ⟨honce, hdeparted⟩ := h.deliveriesOf_of_mem hs hcall hhanded hposition
    have hgone := h.nowhere hs hcall (h.not_waiting_of_departed hdeparted)
    exact ⟨.delivered j mac, hgone, honce, t, ht, hletsOut⟩
  | @discarded j t hgone ht hdrops =>
    obtain ⟨hnone, hnowhere⟩ := h.undelivered hs hcall hgone
    exact ⟨.discarded j, hnowhere, hnone, t, ht, hdrops⟩
  | turnedAway _ hresolution =>
    rcases hresolution with hresolution | ⟨reason, hresolution⟩ <;> cases hresolution

/-- No packet waits in a configured cache before its first call. -/
theorem waitingAt_create (cfg : Config) (start : Nat) (a : Address) :
    (Cache.create cfg start : Outcome (Parcel β) Unit).cache.waitingAt a = [] :=
  (Cache.create_coherent cfg start).2.2 a

/-- Every packet has one fate. Take the calls of any history and mark each packet with the position
of its call. A packet for a bound address is delivered once, by its own call; one that is told to
wait has exactly one fate; one that is turned away is not delivered and does not wait. Nothing else
is delivered, and what leaves an address leaves in the order in which it was offered. -/
theorem packet_fates {cfg : Config} {start : Nat} {calls : List (Nat × Call β)}
    (h : History (Cache.create cfg start : Outcome (Parcel β) Unit).cache log last)
    (hcalls : log.map (fun s => (s.now, s.call)) = marked calls) :
    (∀ (i now : Nat) (a : Address) (packet : β), calls[i]? = some (now, .resolve a packet) →
      ∃ s resolution evicted, log[i]? = some s ∧
        s.outcome.answer = .resolution resolution evicted ∧
        match resolution with
        | .resolved mac => deliveriesOf i log = [(i, mac)] ∧ ∀ b, i ∉ last.positionsAt b
        | .queued => ∃! fate : Fate, fate.Holds log last a i
        | .rejectedFull => deliveriesOf i log = [] ∧ ∀ b, i ∉ last.positionsAt b
        | .dropped _ => deliveriesOf i log = [] ∧ ∀ b, i ∉ last.positionsAt b) ∧
    (∀ x ∈ handed log, ∃ now, calls[x.2.1.position]? =
      some (now, .resolve x.2.1.address x.2.1.content)) ∧
    ∀ a, (departures a log ++ last.positionsAt a).Pairwise (· < ·) := by
  have hfirst := (Cache.create_sound (α := Parcel β) cfg start).1
  have hempty := waitingAt_create (β := β) cfg start
  have hmarked := marked_of_calls hcalls
  have htracked := h.tracked hfirst hempty hmarked
  refine ⟨fun i now a packet hi => ?_, fun x hx => ?_, htracked.sorted⟩
  · obtain ⟨s, hs, hcall⟩ := exists_step_of_calls hcalls hi
    obtain ⟨resolution, evicted, hanswer, hwhere⟩ := h.whereabouts hfirst hempty hmarked hs hcall
    refine ⟨s, resolution, evicted, hs, hanswer, ?_⟩
    cases resolution with
    | resolved mac =>
      cases hwhere with
      | passed hhanded hposition =>
        obtain ⟨honce, hdeparted⟩ := htracked.deliveriesOf_of_mem hs hcall hhanded hposition
        exact ⟨honce, htracked.nowhere hs hcall (htracked.not_waiting_of_departed hdeparted)⟩
      | turnedAway _ hresolution =>
        rcases hresolution with hresolution | ⟨reason, hresolution⟩ <;> cases hresolution
    | queued =>
      obtain ⟨fate, hfate⟩ := exists_fate htracked hs hcall hwhere
      exact ⟨fate, hfate, fun g hg => h.fate_unique hfirst hempty hmarked hg hfate⟩
    | rejectedFull | dropped =>
      cases hwhere with
      | turnedAway hgone => exact htracked.undelivered hs hcall hgone
  · obtain ⟨s, hs, hcall⟩ := htracked.offered x hx
    obtain ⟨now, hi, _⟩ := exists_call_of_step hcalls hs hcall
    exact ⟨now, hi⟩

/-- Three packets for an address that is bound between the second and the third. -/
def threePackets : List (Nat × Call Nat) :=
  [(0, .resolve ⟨10, 0, 0, 1⟩ 7), (1, .resolve ⟨10, 0, 0, 1⟩ 8),
    (2, .observe ⟨10, 0, 0, 1⟩ ⟨2, 0, 0, 0, 0, 1⟩), (3, .resolve ⟨10, 0, 0, 1⟩ 9)]

/-- The first packet is told to wait and has one fate, there is no room for the second, and the
third goes out at once. -/
theorem packet_fates_of_three :
    ∃ x ∈ Cache.briefTrace (marked threePackets),
      (∃! fate : Fate, fate.Holds x.1 x.2 ⟨10, 0, 0, 1⟩ 0) ∧ deliveriesOf 1 x.1 = [] ∧
        deliveriesOf 3 x.1 = [(3, ⟨2, 0, 0, 0, 0, 1⟩)] := by
  have hanswers : ∃ x ∈ Cache.briefTrace (marked threePackets),
      x.1.map (·.outcome.answer.resolution?) =
        [some .queued, some .rejectedFull, none, some (.resolved ⟨2, 0, 0, 0, 0, 1⟩)] := by
    decide +kernel
  obtain ⟨x, hx, hanswers⟩ := hanswers
  obtain ⟨hlog, hcalls⟩ := Cache.history_of_trace hx
  obtain ⟨hfates, _⟩ := packet_fates hlog hcalls
  have hgiven {i : Nat} {s : Step (Parcel Nat)} (hs : x.1[i]? = some s) :
      some s.outcome.answer.resolution? = (x.1.map (·.outcome.answer.resolution?))[i]? := by
    rw [List.getElem?_map, hs]
    rfl
  refine ⟨x, hx, ?_, ?_, ?_⟩
  · obtain ⟨s, resolution, evicted, hs, hanswer, hfate⟩ := hfates 0 0 _ 7 rfl
    have hqueued := hgiven hs
    rw [hanswers, hanswer] at hqueued
    cases hqueued
    exact hfate
  · obtain ⟨s, resolution, evicted, hs, hanswer, hfate⟩ := hfates 1 1 _ 8 rfl
    have hrejected := hgiven hs
    rw [hanswers, hanswer] at hrejected
    cases hrejected
    exact hfate.1
  · obtain ⟨s, resolution, evicted, hs, hanswer, hfate⟩ := hfates 3 3 _ 9 rfl
    have hresolved := hgiven hs
    rw [hanswers, hanswer] at hresolved
    cases hresolved
    exact hfate.1

end History

end Neighbor
