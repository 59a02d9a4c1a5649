import Pixiu.Base.System
import Pixiu.Cluster.Effects
import Pixiu.Maglev.LookUpTable

/-!
# Endpoint lists with holes

The endpoint list of a cluster may have `nil` entries: `AddCluster`, `UpdateCluster` and a bootstrap
take it as it is, and its endpoints are assembled around them.  Nearly all loops over such a list,
of `pkg/server`, `pkg/cluster` and the health checkers, step over `nil`; a call that does not has no
reply in the model of the manager.

This module follows the calls that work on endpoints, together with the picks, and finds the two
places where `nil` matters.  `DeleteEndpoint` compares IDs up to the endpoint it is to delete.  A
pick for a balancer without `HandlerWithSnapshot`, of which the repository has none of its own,
first builds the hash of the configuration from the whole list.

* `findEndpoint_isSome_iff`: when the loop of `DeleteEndpoint` goes through.
* `step_isSome_iff`: when one access goes through.
* `goesThrough_iff`: when a run of them does.
-/

namespace Pixiu.Cluster

/-! ## Picks -/

/-- A balancer, as far as the endpoints of a configuration go. -/
inductive Strategy where
  /-- It has `HandlerWithSnapshot`, and sees the lists of a snapshot only. -/
  | snapshot
  /-- It has `Handler` only; `hashToBuild` if the configuration has no hash yet and its policy has a
  factory. -/
  | legacy (hashToBuild : Bool)
  deriving DecidableEq

/-- The loop of `NewMaglevHash` and of `NewRingHash` over the endpoints; nothing if it panics. -/
def hashHosts : List (Option Endpoint) → Option (List Maglev.Host)
  | [] => some []
  | none :: _ => none
  | some endpoint :: endpoints => (hashHosts endpoints).map (Maglev.getHost endpoint :: ·)

/-- `EnsureConsistentHash` of a configuration, before the handler of a balancer is called. -/
def Strategy.ensureConsistentHash (c : ClusterConfig) : Strategy → Option Unit
  | .snapshot => some ()
  | .legacy hashToBuild => if hashToBuild then (hashHosts c.endpoints).map fun _ => () else some ()

/-- `PickEndpoint` up to the handler of the balancer: the endpoints that are offered to it, or none;
nothing if it panics. -/
def ClusterManager.offer (cm : ClusterManager) (clusterName : String) (strategy : Strategy) :
    Option (List Endpoint) :=
  match cm.store.clustersMap clusterName with
  | none => some []
  | some runtimeCluster =>
      if runtimeCluster.endpointSnapshot.healthy = [] then some []
      else (strategy.ensureConsistentHash runtimeCluster.config).map fun _ =>
        runtimeCluster.endpointSnapshot.healthy

/-! ## Accesses -/

/-- A call of the manager, or a pick. -/
inductive Access where
  | method (call : Call)
  | pick (clusterName : String) (strategy : Strategy)

/-- The calls that admit clusters and those that work on the endpoints of one, with what its runtime
does. -/
def Access.OnEndpoints : Access → Prop
  | .method call => match call.op with
      | .addCluster _ | .updateCluster _ | .setEndpoint .. | .deleteEndpoint .. |
          .handleEndpointHealth ..
      | .moveCursor .. => True
      | _ => False
  | .pick .. => True

/-- The manager after an access; nothing if it panics. -/
def step (sum : String → String) (cm : ClusterManager) : Access → Option ClusterManager
  | .method call => (call.apply sum cm).map (·.cm)
  | .pick clusterName strategy => (cm.offer clusterName strategy).map fun _ => cm

/-- No access of a run panics. -/
def GoesThrough (sum : String → String) (cm : ClusterManager) (accesses : List Access) : Prop :=
  (accesses.foldlM (step sum) cm).isSome

/-- The endpoint list of a cluster has no `nil` where an access would meet it: before the endpoint
that is to be deleted, or anywhere when a hash is to be built from the list. -/
def Clear (cm : ClusterManager) : Access → Prop
  | .method call => match call.op with
      | .deleteEndpoint clusterName endpointID =>
        ∀ c, cm.store.findClusterConfig clusterName = some c →
          none ∉ c.endpoints.takeWhile fun e => !e.any (·.id = endpointID)
      | _ => True
  | .pick clusterName strategy =>
    strategy = .legacy true → ∀ r, cm.store.clustersMap clusterName = some r →
      r.endpointSnapshot.healthy ≠ [] → none ∉ r.config.endpoints

/-! ## One access -/

section Step

variable {sum : String → String} {cm : ClusterManager}

theorem findEndpoint_isSome_iff (endpointID : String) (i : ℕ) (endpoints : List (Option Endpoint)) :
    (findEndpoint endpointID i endpoints).isSome ↔
      none ∉ endpoints.takeWhile fun e => !e.any (·.id = endpointID) := by
  induction endpoints generalizing i with
  | nil => simp [findEndpoint]
  | cons e endpoints ih =>
    cases e with
    | none => simp [findEndpoint]
    | some e =>
      by_cases hid : e.id = endpointID
      · simp [findEndpoint, hid]
      · simp [findEndpoint, hid, ih]

theorem hashHosts_isSome_iff (endpoints : List (Option Endpoint)) :
    (hashHosts endpoints).isSome ↔ none ∉ endpoints := by
  induction endpoints with
  | nil => simp [hashHosts]
  | cons e endpoints ih =>
    cases e with
    | none => simp [hashHosts]
    | some e => simp [hashHosts, ih]

/-- Counting a version changes nothing about what is found. -/
theorem findClusterConfig_enter (clusterName name : String) :
    (cm.enter clusterName).store.findClusterConfig name = cm.store.findClusterConfig name := by
  rw [enter_store]
  rfl

variable (sum) in
theorem deleteEndpoint_isSome_iff (g : Globals) (s : ClusterStore)
    (clusterName endpointID : String) :
    (s.deleteEndpoint sum g clusterName endpointID).isSome ↔
      ∀ c, s.findClusterConfig clusterName = some c →
      none ∉ c.endpoints.takeWhile fun e => !e.any (·.id = endpointID) := by
  rcases find_cases s clusterName with ⟨hindex, hconfig, -⟩ | ⟨i, c, hfound⟩
  · simp [ClusterStore.deleteEndpoint, hindex, hconfig]
  · simp only [ClusterStore.deleteEndpoint, hfound.index, hfound.config, Option.some.injEq,
      forall_eq']
    rw [← findEndpoint_isSome_iff endpointID 0]
    -- what was found decides what is left, but something is left in both cases
    cases findEndpoint endpointID 0 c.endpoints with
    | none => simp
    | some found => cases found <;> simp

theorem offer_isSome_iff {clusterName : String} {strategy : Strategy} :
    (cm.offer clusterName strategy).isSome ↔ Clear cm (.pick clusterName strategy) := by
  rw [ClusterManager.offer, Clear]
  cases cm.store.clustersMap clusterName with
  | none => simp
  | some r =>
    by_cases hhealthy : r.endpointSnapshot.healthy = []
    · simp [hhealthy]
    cases strategy with
    | snapshot => simp [hhealthy, Strategy.ensureConsistentHash]
    | legacy hashToBuild =>
      cases hashToBuild with
      | false => simp [hhealthy, Strategy.ensureConsistentHash]
      | true => simp [hhealthy, Strategy.ensureConsistentHash, hashHosts_isSome_iff]

variable (sum) in
/-- An access goes through exactly if it meets no `nil`. -/
theorem step_isSome_iff (cm : ClusterManager) (access : Access) (h : access.OnEndpoints) :
    (step sum cm access).isSome ↔ Clear cm access := by
  cases access with
  | pick clusterName strategy =>
    rw [step, Option.isSome_map]
    exact offer_isSome_iff
  | method call =>
    rw [step, Option.isSome_map, Call.apply]
    obtain ⟨g, order, op⟩ := call
    cases op with
    | deleteEndpoint clusterName endpointID =>
      have hdelete :=
        deleteEndpoint_isSome_iff sum g (cm.enter clusterName).store clusterName endpointID
      simp only [findClusterConfig_enter] at hdelete
      simpa [ClusterManager.deleteEndpoint, Clear] using hdelete
    | addCluster | updateCluster | setEndpoint | handleEndpointHealth | moveCursor => simp [Clear]
    | upsertXDSCluster | replaceXDSClusters | removeCluster | removeXDSClusters |
      compareAndSetStore => cases h

end Step

/-! ## Runs -/

/-- **Accesses to sparse lists.**  From every bootstrap, a run of calls and picks goes through
exactly if none of them finds a `nil` in its way. -/
theorem goesThrough_iff (sum : String → String) (g : Globals) (clusters : List ClusterConfig)
    (accesses : List Access) (h : ∀ access ∈ accesses, access.OnEndpoints) :
    GoesThrough sum (createDefaultClusterManager sum g clusters) accesses ↔
      System.StepsAlong (step sum) Clear (createDefaultClusterManager sum g clusters) accesses :=
  System.isSome_foldlM_iff_stepsAlong (fun cm access => step_isSome_iff sum cm access) h

/-- A cluster whose endpoint stands behind a hole. -/
def holeFirst : ClusterConfig where
  name := "a"
  endpoints := [none, some { id := "1" }]

/-- A pick by a balancer of the repository, from a list with a hole. -/
theorem goesThrough_iff_pick :
    GoesThrough id (createDefaultClusterManager id {} [holeFirst]) [.pick "a" .snapshot] :=
  (goesThrough_iff id {} [holeFirst] [.pick "a" .snapshot] (by simp [Access.OnEndpoints])).2
    ⟨fun h => (nomatch h), fun _ _ => trivial⟩

/-- `DeleteEndpoint` for an endpoint behind a hole panics, and so the run does not go through. -/
theorem delete_behind_hole : ¬ GoesThrough id (createDefaultClusterManager id {} [holeFirst])
    [.method { op := .deleteEndpoint "a" "1" }] := by
  intro h
  have hstep := (System.isSome_foldlM_iff_stepsAlong (fun cm access => step_isSome_iff id cm access)
    (by simp [Access.OnEndpoints])).1 h
  exact hstep.1 _ rfl (List.mem_cons_self ..)

end Pixiu.Cluster
