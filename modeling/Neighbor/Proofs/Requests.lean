import Mathlib.Data.List.Induction
import Neighbor.Proofs.Reach

/-!
# Requests one after the other

A request is a call with the instant at which it is made and the stations that answer its probes.
A cache serves any list of requests: one that stops at the clock leaves what it has done so far, and
the next is served by that. So the cache before the `i`-th request of a list is what the requests
before it leave, and the lists of requests are all the ways in which a cache can be used.
-/

namespace Neighbor

variable {α : Type}

/-- A call, when it is made, and who answers its probes. -/
structure Request (α : Type) where
  responder : Responder
  now : Nat
  call : Call α

namespace Cache

variable {c : Cache α} {qs : List (Request α)}

/-- Serves one request. -/
def serve (c : Cache α) (q : Request α) : Attempt α Answer := c.perform q.responder q.now q.call

/-- The cache that requests leave. -/
def serveAll (c : Cache α) (qs : List (Request α)) : Cache α :=
  qs.foldl (fun c q => (c.serve q).left) c

/-- No request leaves the cache as it is. -/
@[simp] theorem serveAll_nil (c : Cache α) : c.serveAll [] = c := rfl

/-- Requests are served from the first one on. -/
@[simp] theorem serveAll_cons (c : Cache α) (q : Request α) (qs : List (Request α)) :
    c.serveAll (q :: qs) = (c.serve q).left.serveAll qs := rfl

/-- Requests can be served in two parts. -/
theorem serveAll_append (c : Cache α) (xs ys : List (Request α)) :
    c.serveAll (xs ++ ys) = (c.serveAll xs).serveAll ys := List.foldl_append

/-- The last request is served by the cache that the others leave. -/
theorem serveAll_snoc (c : Cache α) (qs : List (Request α)) (q : Request α) :
    c.serveAll (qs ++ [q]) = ((c.serveAll qs).serve q).left := by
  rw [serveAll_append]
  rfl

/-- What each of the requests keeps, they all keep. -/
theorem serveAll_induction {P : Cache α → Prop}
    (hstep : ∀ d, ∀ q ∈ qs, P d → P (d.serve q).left) (hc : P c) : P (c.serveAll qs) := by
  induction qs generalizing c with
  | nil => exact hc
  | cons q rest ih =>
    exact ih (fun d p hp => hstep d p (List.mem_cons_of_mem q hp))
      (hstep c q List.mem_cons_self hc)

/-- A request keeps a cache coherent and its configuration. -/
theorem Coherent.serve (hc : c.Coherent) (q : Request α) :
    (c.serve q).left.Coherent ∧ (c.serve q).left.config = c.config := by
  have hfollows := perform_follows hc q.responder q.now q.call
  exact ⟨hfollows.coherent hc, hfollows.config_eq⟩

/-- Requests keep a cache coherent and its configuration. -/
theorem Coherent.serveAll (hc : c.Coherent) (qs : List (Request α)) :
    (c.serveAll qs).Coherent ∧ (c.serveAll qs).config = c.config := by
  refine serveAll_induction (P := fun d : Cache α => d.Coherent ∧ d.config = c.config)
    (fun d q _ hd => ?_) ⟨hc, rfl⟩
  obtain ⟨hcoherent, hconfig⟩ := hd.1.serve q
  exact ⟨hcoherent, hconfig.trans hd.2⟩

/-- Each of the requests goes through. -/
def GoesThrough (c : Cache α) (qs : List (Request α)) : Prop :=
  ∀ xs q ys, qs = xs ++ q :: ys → ∃ o, (c.serveAll xs).serve q = .ok o

/-- Requests go through that would go through on any cache of the same configuration. -/
theorem Coherent.goesThrough (hc : c.Coherent)
    (h : ∀ q ∈ qs, ∀ d : Cache α, d.Coherent → d.config = c.config → ∃ o, d.serve q = .ok o) :
    c.GoesThrough qs := by
  rintro xs q ys rfl
  obtain ⟨hd, hconfig⟩ := hc.serveAll xs
  exact h q (by simp) _ hd hconfig

/-- The requests that install the configured bindings. -/
def installation (cfg : Config) (start : Nat) : List (Request α) :=
  cfg.permanent.map fun binding => ⟨.silent, start, .pin binding.1 binding.2⟩

/-- A configured cache is an empty one in which the configured bindings have been installed. -/
theorem create_eq (cfg : Config) (start : Nat) :
    (create cfg start : Outcome α Unit).cache = (empty cfg).serveAll (installation cfg start) := by
  have hinstall (bindings : List (Address × Mac)) (o : Outcome α Unit) :
      (bindings.foldl (install start) o).cache =
        o.cache.serveAll (bindings.map fun binding =>
          ⟨.silent, start, .pin binding.1 binding.2⟩) := by
    induction bindings generalizing o with
    | nil => rfl
    | cons binding rest ih => exact ih (install start o binding)
  exact hinstall cfg.permanent _

/-- An empty cache is coherent. -/
theorem empty_coherent (cfg : Config) : (empty cfg : Cache α).Coherent :=
  ⟨(empty_sound cfg).wellFormed, nofun⟩

/-- The caches that calls lead to are those that requests leave of a configured one. -/
theorem reached_iff {cfg : Config} {start : Nat} {calls : List (Call α)} :
    c.Reached cfg start calls ↔
      ∃ qs : List (Request α), qs.map (·.call) = calls ∧
        c = (create cfg start : Outcome α Unit).cache.serveAll qs := by
  constructor
  · intro h
    induction h with
    | create => exact ⟨[], rfl, rfl⟩
    | perform _ r now call ih =>
      obtain ⟨qs, rfl, rfl⟩ := ih
      exact ⟨qs ++ [⟨r, now, call⟩], by simp, by rw [serveAll_snoc]; rfl⟩
  · rintro ⟨qs, rfl, rfl⟩
    induction qs using List.reverseRecOn with
    | nil => exact .create
    | append_singleton qs q ih =>
      rw [serveAll_snoc, List.map_append]
      exact ih.perform q.responder q.now q.call

/-- What holds of a cache without entries and is kept by every request holds of all caches that calls
lead to. -/
theorem Reached.induction {P : Cache α → Prop} {cfg : Config} {start : Nat}
    {calls : List (Call α)} (h : c.Reached cfg start calls) (hempty : P (empty cfg))
    (hstep : ∀ d q, d.Coherent → P d → P (d.serve q).left) : P c := by
  obtain ⟨qs, _, rfl⟩ := reached_iff.mp h
  rw [create_eq, ← serveAll_append]
  refine (serveAll_induction (P := fun d : Cache α => d.Coherent ∧ P d) (fun d q _ hd => ?_)
    ⟨empty_coherent cfg, hempty⟩).2
  exact ⟨(hd.1.serve q).1, hstep d q hd.1 hd.2⟩

end Cache

end Neighbor
