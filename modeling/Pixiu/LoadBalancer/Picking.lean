import Pixiu.Cluster.Snapshot

/-!
# Picking an endpoint

`PickEndpoint` of `pkg/cluster/loadbalancer/load_balancer.go`: a balancer chooses an endpoint, and
the choice is checked against the healthy endpoints of the snapshot before it is handed out.

A balancer returns a pointer.  `Pick` says whose object it points to: the snapshot's own, which the
zero-copy balancers return, or any other.  The objects of a snapshot have different IDs, so the
value of one says which it is.

* `healthyEndpointFromSnapshot_agrees` — the check by the index of IDs and the check by scanning are
  the same, and what they hand out is a healthy endpoint with the ID of the choice;
* `pickEndpoint_mem` — so whatever the balancer does, a request only ever gets a healthy endpoint.
-/

namespace Pixiu.Cluster

/-- `SocketAddress.Equal`. -/
def SocketAddress.equal (a b : SocketAddress) : Bool :=
  match a.domains, b.domains with
  | domain :: _, domain' :: _ => domain == domain'
  | [], [] => a.address == b.address && a.port == b.port
  | _, _ => false

end Pixiu.Cluster

namespace Pixiu.LoadBalancer

open Pixiu.Cluster

/-! ## The check of a choice -/

/-- What a balancer returns: `nil`, the object of the snapshot with this value, or another
object. -/
inductive Pick where
  | nil
  | owned (endpoint : Endpoint)
  | other (endpoint : Endpoint)

/-- The endpoint that is pointed to. -/
def Pick.endpoint : Pick → Option Endpoint
  | .nil => none
  | .owned endpoint => some endpoint
  | .other endpoint => some endpoint

/-- The choice points to this object of the snapshot. -/
def Pick.isObject (pick : Pick) (candidate : Endpoint) : Bool :=
  match pick with
  | .owned endpoint => candidate = endpoint
  | _ => false

/-- `PickContext`, without the consistent-hash table; the index is the cursor of the
configuration. -/
structure PickContext where
  config : Option ClusterConfig
  prePickEndpointIndex : UInt32 := 0
  allEndpoints : Option (List Endpoint) := none
  healthyEndpoints : List Endpoint
  roundRobinCursor : Option UInt32 := none
  healthyByID : Option (String → Option Endpoint) := none

/-- `isBlankDomainPlaceholderAddress`. -/
def isBlankDomainPlaceholderAddress (addr : SocketAddress) : Bool :=
  addr.domains = [""] && addr.address = "" && addr.port = 0

/-- `sameEndpointIdentity`: first the endpoint of the snapshot, then the choice. -/
def sameEndpointIdentity (candidate endpoint : Endpoint) : Bool :=
  if endpoint.id ≠ "" || candidate.id ≠ "" then
    if candidate.id ≠ endpoint.id then false
    else if isBlankDomainPlaceholderAddress candidate.address then true
    else candidate.address.equal endpoint.address
  else candidate.address.equal endpoint.address

/-- The two scans of `healthyEndpointFromSnapshot`. -/
def scan (pick : Pick) (endpoint : Endpoint) (healthyEndpoints : List Endpoint) : Option Endpoint :=
  (healthyEndpoints.find? pick.isObject).or
    (healthyEndpoints.find? fun candidate => sameEndpointIdentity candidate endpoint)

/-- `healthyEndpointFromSnapshot`; the copy it returns is the value. -/
def healthyEndpointFromSnapshot (pick : Pick) (context : PickContext) : Option Endpoint :=
  match pick.endpoint with
  | none => none
  | some endpoint =>
      match context.healthyByID with
      | some healthyEndpointByIDForPick =>
          if endpoint.id ≠ "" then
            match healthyEndpointByIDForPick endpoint.id with
            | none => none
            | some candidate =>
                if pick.isObject candidate then some candidate
                else if sameEndpointIdentity candidate endpoint then some candidate
                else none
          else scan pick endpoint context.healthyEndpoints
      | none => scan pick endpoint context.healthyEndpoints

/-! ## Balancers -/

/-- A balancer: one that works on the snapshot, with or without a copy of its own, or a legacy one.
The handlers also say how the cursor moves: by how much, or where a legacy balancer leaves it. -/
inductive Balancer (Policy : Type) where
  | snapshot (zeroCopy : Bool) (handlerWithSnapshot : PickContext → Policy → Pick × UInt32)
  | legacy (handler : ClusterConfig → UInt32 → Policy → Pick × UInt32)

/-- `defensiveSnapshotPickContext`; the copies are no different as values. -/
def defensiveSnapshotPickContext (context : PickContext) : PickContext :=
  { context with healthyByID := none }

/-- The cursor of a pick: that of the runtime, or without one that of the configuration. -/
def PickContext.cursor (context : PickContext) : UInt32 :=
  context.roundRobinCursor.getD context.prePickEndpointIndex

/-- The cursor moves. -/
def PickContext.advance (context : PickContext) (delta : UInt32) : PickContext :=
  match context.roundRobinCursor with
  | some cursor => { context with roundRobinCursor := some (cursor + delta) }
  | none => { context with prePickEndpointIndex := context.prePickEndpointIndex + delta }

/-- `pickEndpoint`: the endpoint, and the context with its cursor moved. -/
def pickEndpoint {Policy : Type} (balancer : Option (Balancer Policy)) (context : PickContext)
    (policy : Policy) : Option Endpoint × PickContext :=
  match balancer, context.config with
  | some (.snapshot zeroCopy handlerWithSnapshot), some _ =>
      let snapshotContext := if zeroCopy then context else defensiveSnapshotPickContext context
      let picked := handlerWithSnapshot snapshotContext policy
      (healthyEndpointFromSnapshot picked.1 context, context.advance picked.2)
  | some (.legacy handler), some config =>
      let allEndpoints := context.allEndpoints.getD context.healthyEndpoints
      let picked := handler { config with endpoints := allEndpoints.map some } context.cursor policy
      (healthyEndpointFromSnapshot picked.1 context, context.advance (picked.2 - context.cursor))
  | _, _ => (none, context)

/-- The context in which `pickOneEndpoint` picks from a snapshot. -/
def snapshotContext (s : EndpointSnapshot) (config : ClusterConfig) (needsAllEndpoints : Bool)
    (cursor : UInt32) : PickContext where
  config := some config
  allEndpoints := if needsAllEndpoints then some s.all else none
  healthyEndpoints := s.healthy
  roundRobinCursor := some cursor
  healthyByID := some s.healthyEndpointByID

/-! ## The two ways to check agree -/

variable {s : EndpointSnapshot}

theorem id_eq_of_sameEndpointIdentity {candidate endpoint : Endpoint}
    (h : sameEndpointIdentity candidate endpoint = true) : candidate.id = endpoint.id := by
  rw [sameEndpointIdentity] at h
  by_cases hid : candidate.id = endpoint.id
  · exact hid
  · -- different IDs are not both empty
    have hsome : (endpoint.id ≠ "" || candidate.id ≠ "") = true := by
      by_contra hboth
      simp only [ne_eq, Bool.or_eq_true, decide_eq_true_eq, not_or, not_not] at hboth
      exact hid (hboth.2.trans hboth.1.symm)
    rw [if_pos hsome, if_pos hid] at h
    cases h

theorem Pick.endpoint_of_isObject {pick : Pick} {candidate : Endpoint}
    (h : pick.isObject candidate = true) : pick.endpoint = some candidate := by
  cases pick with
  | nil => cases h
  | owned endpoint => exact congrArg some (of_decide_eq_true h).symm
  | other endpoint => cases h

/-- What a scan finds is healthy and has the ID of the choice. -/
theorem mem_of_scan {pick : Pick} {endpoint found : Endpoint} {l : List Endpoint}
    (hpick : pick.endpoint = some endpoint) (h : scan pick endpoint l = some found) :
    found ∈ l ∧ found.id = endpoint.id := by
  rw [scan, Option.or_eq_some_iff] at h
  rcases h with h | ⟨-, h⟩
  · have hobject := Pick.endpoint_of_isObject (List.find?_some h)
    rw [hpick, Option.some_inj] at hobject
    exact ⟨List.mem_of_find?_eq_some h, congrArg Endpoint.id hobject.symm⟩
  · have hsame := List.find?_some h
    exact ⟨List.mem_of_find?_eq_some h, id_eq_of_sameEndpointIdentity hsame⟩

theorem nodup_healthy (h : WellFormed s) : (s.healthy.map (·.id)).Nodup := by
  rw [h.healthy_eq]
  exact h.nodup.sublist (List.filter_sublist.map _)

/-- Among the healthy endpoints, a scan for something only an endpoint with this ID can be finds
that endpoint, if it is there and is it. -/
theorem find?_healthy (h : WellFormed s) {id : String} {p : Endpoint → Bool}
    (hp : ∀ e ∈ s.healthy, p e = true → e.id = id) :
    s.healthy.find? p = (s.healthyEndpointByID id).filter p := by
  cases hindex : s.healthyEndpointByID id with
  | none =>
    rw [Option.filter_none, List.find?_eq_none]
    intro e he hpe
    have hsome := (h.healthyEndpointByID_iff id e).2 ⟨he, hp e he hpe⟩
    rw [hindex] at hsome
    cases hsome
  | some candidate =>
    obtain ⟨hmem, hid⟩ := (h.healthyEndpointByID_iff id candidate).1 hindex
    have hunique : ∀ e ∈ s.healthy, p e = true → e = candidate := fun e he hpe =>
      List.inj_on_of_nodup_map (nodup_healthy h) he hmem ((hp e he hpe).trans hid.symm)
    by_cases hpc : p candidate = true
    · rw [Option.filter_some_pos hpc]
      obtain ⟨e, he⟩ := Option.isSome_iff_exists.1 (List.find?_isSome.2 ⟨candidate, hmem, hpc⟩)
      have hpe := List.find?_some he
      rw [he, hunique e (List.mem_of_find?_eq_some he) hpe]
    · rw [Option.filter_some_neg (Bool.eq_false_iff.2 hpc), List.find?_eq_none]
      intro e he hpe
      exact hpc (hunique e he hpe ▸ hpe)

/-- In a well-formed snapshot the scans find what the index finds. -/
theorem scan_healthy (h : WellFormed s) {pick : Pick} {endpoint : Endpoint}
    (hpick : pick.endpoint = some endpoint) :
    scan pick endpoint s.healthy =
      (s.healthyEndpointByID endpoint.id).filter fun candidate =>
        pick.isObject candidate || sameEndpointIdentity candidate endpoint := by
  have hobject : ∀ e ∈ s.healthy, pick.isObject e = true → e.id = endpoint.id := by
    intro e _ he
    have heq := Pick.endpoint_of_isObject he
    rw [hpick, Option.some_inj] at heq
    exact congrArg Endpoint.id heq.symm
  rw [scan, find?_healthy h hobject, find?_healthy h fun e _ he => id_eq_of_sameEndpointIdentity he]
  cases s.healthyEndpointByID endpoint.id with
  | none => rfl
  | some candidate =>
    cases hc : pick.isObject candidate <;>
      cases hi : sameEndpointIdentity candidate endpoint <;> simp [Option.filter, hc, hi]

/-- With the index, the check is the scan. -/
theorem healthyEndpointFromSnapshot_eq (h : WellFormed s) (config : ClusterConfig)
    (needsAllEndpoints : Bool) (cursor : UInt32) (pick : Pick) :
    healthyEndpointFromSnapshot pick (snapshotContext s config needsAllEndpoints cursor) =
      pick.endpoint.bind fun endpoint => scan pick endpoint s.healthy := by
  cases hpick : pick.endpoint with
  | none => simp [healthyEndpointFromSnapshot, hpick]
  | some endpoint =>
    simp only [healthyEndpointFromSnapshot, hpick, snapshotContext, Option.bind_some]
    by_cases hid : endpoint.id ≠ ""
    · rw [if_pos hid, scan_healthy h hpick]
      cases s.healthyEndpointByID endpoint.id with
      | none => rfl
      | some candidate =>
        cases hc : pick.isObject candidate <;>
          cases hi : sameEndpointIdentity candidate endpoint <;> simp [Option.filter, hc, hi]
    · rw [if_neg hid]

/-- An endpoint that is known by its ID only. -/
def placeholder : ClusterConfig where
  name := "placeholder"
  endpoints := [some { id := "a", address := { domains := [""] } }]

/-- **The two checks agree**, and what they hand out is a healthy endpoint with the ID of the
choice. -/
theorem healthyEndpointFromSnapshot_agrees (h : WellFormed s) (config : ClusterConfig)
    (needsAllEndpoints : Bool) (cursor : UInt32) (pick : Pick) :
    healthyEndpointFromSnapshot pick (snapshotContext s config needsAllEndpoints cursor) =
        healthyEndpointFromSnapshot pick
          { snapshotContext s config needsAllEndpoints cursor with healthyByID := none } ∧
      ∀ found,
        healthyEndpointFromSnapshot pick (snapshotContext s config needsAllEndpoints cursor) =
          some found →
          found ∈ s.healthy ∧ pick.endpoint.map (·.id) = some found.id := by
  rw [healthyEndpointFromSnapshot_eq h]
  cases hpick : pick.endpoint with
  | none => simp [healthyEndpointFromSnapshot, hpick]
  | some endpoint =>
    simp only [healthyEndpointFromSnapshot, hpick, snapshotContext, Option.bind_some, true_and,
      Option.map_some, Option.some_inj]
    intro found hfound
    obtain ⟨hmem, hid⟩ := mem_of_scan hpick hfound
    exact ⟨hmem, hid.symm⟩

/-- A resolved address is accepted for an endpoint whose own address is left blank. -/
theorem healthyEndpointFromSnapshot_agrees_placeholder :
    WellFormed (.newEndpointSnapshot id (some placeholder) none false) ∧
      healthyEndpointFromSnapshot
        (.other { id := "a", address := { address := "10.0.0.1", port := 80 } })
          (snapshotContext (.newEndpointSnapshot id (some placeholder) none false) placeholder true
            0) =
        healthyEndpointFromSnapshot
          (.other { id := "a", address := { address := "10.0.0.1", port := 80 } })
          { snapshotContext (.newEndpointSnapshot id (some placeholder) none false) placeholder true
            0 with
            healthyByID := none } :=
  have h := (indexed_newEndpointSnapshot id (some placeholder) none false).wellFormed
  ⟨h, (healthyEndpointFromSnapshot_agrees h placeholder true 0 _).1⟩

/-- **A request only ever gets a healthy endpoint**, whatever the balancer does. -/
theorem pickEndpoint_mem {Policy : Type} (h : WellFormed s) (balancer : Option (Balancer Policy))
    (config : ClusterConfig) (needsAllEndpoints : Bool) (cursor : UInt32) (policy : Policy)
    {e : Endpoint}
    (hpick : (pickEndpoint balancer (snapshotContext s config needsAllEndpoints cursor) policy).1 =
      some e) :
    e ∈ s.healthy := by
  have hchecked : ∀ pick,
      healthyEndpointFromSnapshot pick (snapshotContext s config needsAllEndpoints cursor) =
        some e →
        e ∈ s.healthy := by
    intro pick hfound
    rw [healthyEndpointFromSnapshot_eq h] at hfound
    obtain ⟨endpoint, hendpoint, hscan⟩ := Option.bind_eq_some_iff.1 hfound
    exact (mem_of_scan hendpoint hscan).1
  cases balancer with
  | none => cases hpick
  | some balancer =>
    cases balancer with
    | snapshot zeroCopy handlerWithSnapshot => exact hchecked _ hpick
    | legacy handler => exact hchecked _ hpick

/-- A legacy balancer that answers with an object of its own. -/
theorem pickEndpoint_mem_placeholder : ∃ e,
    (pickEndpoint (some (.legacy fun _ cursor (_ : Unit) => (.other { id := "a" }, cursor + 1)))
      (snapshotContext (.newEndpointSnapshot id (some placeholder) none false) placeholder true 0)
        ()).1 = some e ∧
      e ∈ (EndpointSnapshot.newEndpointSnapshot id (some placeholder) none false).healthy := by
  refine ⟨_, rfl, ?_⟩
  exact pickEndpoint_mem (indexed_newEndpointSnapshot id (some placeholder) none false).wellFormed
    (some (.legacy fun _ cursor (_ : Unit) => (.other { id := "a" }, cursor + 1))) placeholder true
      0 () rfl

end Pixiu.LoadBalancer
