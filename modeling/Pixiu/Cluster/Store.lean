import Pixiu.Cluster.Runtime

/-!
# The cluster store

`ClusterStore` of `pkg/server/cluster_manager.go`: the list of configurations, a version, and the
runtimes by name.  A configuration in the list is found by its position, as the source holds
pointers into the list.

Where the source would dereference `nil` and panic, the functions return nothing.  A runtime that
a function replaces is stopped by its caller and not reachable from the store any more; it
has no place in the model.
-/

namespace Pixiu.Cluster

/-- `ClusterStore`. -/
structure ClusterStore where
  config : List (Option ClusterConfig) := []
  version : BitVec 32 := 0
  clustersMap : String → Option RuntimeCluster := fun _ => none

/-! ## Looking up -/

/-- The test of the loops that look for a name. -/
def named (clusterName : String) (c : Option ClusterConfig) : Bool := c.any (·.name = clusterName)

/-- The names in a list of configurations, in order. -/
def namesOf (config : List (Option ClusterConfig)) : List String :=
  config.filterMap (·.map (·.name))

@[simp] theorem namesOf_nil : namesOf [] = [] := rfl

@[simp] theorem namesOf_some_cons (c : ClusterConfig) (config : List (Option ClusterConfig)) :
    namesOf (some c :: config) = c.name :: namesOf config := rfl

@[simp] theorem namesOf_append (config config' : List (Option ClusterConfig)) :
    namesOf (config ++ config') = namesOf config ++ namesOf config' := List.filterMap_append

theorem mem_namesOf_iff {name : String} {config : List (Option ClusterConfig)} :
    name ∈ namesOf config ↔ ∃ c, some c ∈ config ∧ c.name = name := by
  simp [namesOf]

/-- `HasCluster`, which does not expect `nil` in the list. -/
def hasClusterIn (clusterName : String) : List (Option ClusterConfig) → Option Bool
  | [] => some false
  | none :: _ => none
  | some c :: config => if c.name = clusterName then some true else hasClusterIn clusterName config

namespace ClusterStore

/-- The names of the configurations, in order. -/
def names (s : ClusterStore) : List String := namesOf s.config

/-- The position of what `findClusterConfig` finds. -/
def findClusterIndex (s : ClusterStore) (clusterName : String) : Option ℕ :=
  s.config.findIdx? (named clusterName)

/-- `findClusterConfig`. -/
def findClusterConfig (s : ClusterStore) (clusterName : String) : Option ClusterConfig :=
  (s.config.find? (named clusterName)).join

/-- `HasCluster`. -/
def hasCluster (s : ClusterStore) (clusterName : String) : Option Bool :=
  hasClusterIn clusterName s.config

/-- `IncreaseVersion`. -/
def increaseVersion (s : ClusterStore) : ClusterStore := { s with version := s.version + 1 }

/-- A runtime takes its place in the map. -/
def setRuntime (s : ClusterStore) (name : String) (runtime : RuntimeCluster) : ClusterStore :=
  { s with clustersMap := Function.update s.clustersMap name (some runtime) }

/-- A runtime changes in its place. -/
def modifyRuntime (s : ClusterStore) (name : String) (f : RuntimeCluster → RuntimeCluster) :
    ClusterStore :=
  { s with clustersMap := Function.update s.clustersMap name ((s.clustersMap name).map f) }

/-- A configuration takes its place in the list. -/
def setConfig (s : ClusterStore) (i : ℕ) (c : ClusterConfig) : ClusterStore :=
  { s with config := s.config.set i (some c) }

end ClusterStore

section Store

variable (sum : String → String)

/-! ## Adding and updating clusters -/

/-- `replaceClusterRuntime`: the runtime that takes over the snapshot of the one it replaces. -/
def replacement (old : Option RuntimeCluster) (config : ClusterConfig) : RuntimeCluster :=
  .newClusterWithEndpointSnapshot sum config (old.map (·.snapshotForRuntimeReplacement.2))

/-- The configuration that `AddCluster` appends: with a name and prepared. -/
def admitCluster (g : Globals) (c : ClusterConfig) : ClusterConfig × Globals :=
  if c.name = "" then
    prepareClusterConfig sum { g with clusterIndex := g.clusterIndex + 1 }
      { c with name := "cluster-" ++ toString g.clusterIndex }
  else prepareClusterConfig sum g c

namespace ClusterStore

/-- A configuration joins the list, with a runtime built from it. -/
def append (s : ClusterStore) (c : ClusterConfig) : ClusterStore :=
  { s with config := s.config ++ [some c] }.setRuntime c.name
    (replacement sum (s.clustersMap c.name) c)

/-- `AddCluster`. -/
def addCluster (g : Globals) (s : ClusterStore) (c : ClusterConfig) : ClusterStore × Globals :=
  (s.append sum (admitCluster sum g c).1, (admitCluster sum g c).2)

/-- `UpdateCluster`. -/
def updateCluster (g : Globals) (s : ClusterStore) (new : ClusterConfig) : ClusterStore × Globals :=
  match s.findClusterIndex new.name with
  | none => (s, g)
  | some i =>
      let prepared := prepareClusterConfig sum g new
      let oldRuntime := s.clustersMap new.name
      let newRuntime := replacement sum oldRuntime prepared.1
      let newRuntime := match oldRuntime with
        | some oldRuntime => oldRuntime.carryOverCursorTo newRuntime
        | none => newRuntime
      ((s.setConfig i prepared.1).setRuntime new.name newRuntime, prepared.2)

end ClusterStore

/-! ## Single endpoints -/

/-- `setEndpointAction`. -/
inductive SetEndpointAction where
  | idempotent
  | replace (replaceIdx : ℕ)
  | append
  deriving DecidableEq

/-- `setEndpointOutcome`. -/
structure SetEndpointOutcome where
  targetID : String
  action : SetEndpointAction

/-- `endpointContentEqualForSet`; entries in the order of their keys are equal when the maps are. -/
def endpointContentEqualForSet (a b : Endpoint) : Bool :=
  a.address = b.address && a.metadata = b.metadata && a.llmMeta = b.llmMeta

/-- `resolveSetEndpointSlotByID`, from an index. -/
def resolveSetEndpointSlotByID (incoming : Endpoint) : ℕ → List (Option Endpoint) →
    SetEndpointOutcome
  | _, [] => ⟨incoming.id, .append⟩
  | i, none :: existing => resolveSetEndpointSlotByID incoming (i + 1) existing
  | i, some e :: existing =>
      if e.id ≠ incoming.id then resolveSetEndpointSlotByID incoming (i + 1) existing
      else if endpointContentEqualForSet e incoming then ⟨incoming.id, .idempotent⟩
      else ⟨incoming.id, .replace i⟩

/-- `existingEndpointIDs`. -/
def existingEndpointIDs (endpoints : List (Option Endpoint)) : List String :=
  (endpoints.filterMap id).map (·.id) |>.filter (· ≠ "")

/-- `resolveSetEndpointSlotByHash`. -/
def resolveSetEndpointSlotByHash (clusterName : String) (incoming : Endpoint)
    (existing : List (Option Endpoint)) : SetEndpointOutcome :=
  let incomingHash := generateEndpointID sum clusterName (some incoming)
  match (existing.filterMap id).find? fun e =>
      generateEndpointID sum clusterName (some e) == incomingHash with
  | none => ⟨incomingHash, .append⟩
  | some e =>
      if endpointContentEqualForSet e incoming then ⟨e.id, .idempotent⟩
      else ⟨stableUniqueEndpointID sum clusterName incoming (existingEndpointIDs existing), .append⟩

/-- `resolveSetEndpointSlot`. -/
def resolveSetEndpointSlot (clusterName : String) (incoming : Endpoint)
    (existing : List (Option Endpoint)) : SetEndpointOutcome :=
  if incoming.id ≠ "" then resolveSetEndpointSlotByID incoming 0 existing
  else resolveSetEndpointSlotByHash sum clusterName incoming existing

/-- What every change of the endpoints of a cluster ends with: the configuration is prepared
again, and the runtime synchronised and refreshed. -/
def republish (g : Globals) (clusterConfig : ClusterConfig) (runtimeCluster : RuntimeCluster)
    (endpoints : List (Option Endpoint)) : ClusterConfig × RuntimeCluster × Globals :=
  let prepared := prepareOwnedClusterConfig sum g { clusterConfig with endpoints }
  (prepared.1, (runtimeCluster.syncConfigEndpoints prepared.1.endpoints).refreshEndpoints sum,
    prepared.2)

/-- `replaceEndpointAt`. -/
def replaceEndpointAt (g : Globals) (clusterConfig : ClusterConfig)
    (runtimeCluster : RuntimeCluster)
    (idx : ℕ) (endpoint : Endpoint) : ClusterConfig × RuntimeCluster × Globals :=
  let endpoints := clusterConfig.endpoints.set idx (some endpoint)
  match clusterConfig.endpoints[idx]?.join with
  | none => republish sum g clusterConfig runtimeCluster endpoints
  | some old =>
      if old.address.getAddress ≠ endpoint.address.getAddress then
        let done := republish sum g clusterConfig (runtimeCluster.removeEndpoint old) endpoints
        (done.1, done.2.1.addEndpoint endpoint, done.2.2)
      else republish sum g clusterConfig runtimeCluster endpoints

/-- The loop of `DeleteEndpoint`, which does not expect `nil` in the list. -/
def findEndpoint (endpointID : String) : ℕ → List (Option Endpoint) → Option (Option (ℕ × Endpoint))
  | _, [] => some none
  | _, none :: _ => none
  | i, some e :: endpoints =>
      if e.id = endpointID then some (some (i, e)) else findEndpoint endpointID (i + 1) endpoints

namespace ClusterStore

/-- The runtime that `SetEndpoint` and `DeleteEndpoint` work on: the one in the map, or a new one
when that belongs to another configuration. -/
def runtimeFor (s : ClusterStore) (clusterName : String) (clusterConfig : ClusterConfig) :
    RuntimeCluster :=
  match s.clustersMap clusterName with
  | some runtimeCluster =>
      if runtimeCluster.configIsIdenticalTo clusterConfig then runtimeCluster
      else replacement sum (some runtimeCluster) clusterConfig
  | none => replacement sum none clusterConfig

/-- `SetEndpoint`, on the configuration at a position. -/
def setEndpointAt (g : Globals) (s : ClusterStore) (clusterName : String) (i : ℕ)
    (clusterConfig : ClusterConfig) (endpoint : Endpoint) : ClusterStore × Globals :=
  let runtimeCluster := s.runtimeFor sum clusterName clusterConfig
  let outcome := resolveSetEndpointSlot sum clusterName endpoint clusterConfig.endpoints
  let endpoint := { endpoint with id := outcome.targetID }
  match outcome.action with
  | .idempotent => (s.setRuntime clusterName runtimeCluster, g)
  | .replace replaceIdx =>
      let done := replaceEndpointAt sum g clusterConfig runtimeCluster replaceIdx endpoint
      ((s.setConfig i done.1).setRuntime clusterName done.2.1, done.2.2)
  | .append =>
      let done := republish sum g clusterConfig runtimeCluster
        (clusterConfig.endpoints ++ [some endpoint])
      ((s.setConfig i done.1).setRuntime clusterName (done.2.1.addEndpoint endpoint), done.2.2)

/-- The cluster that `SetEndpoint` creates on first use. -/
def firstUse (clusterName : String) : ClusterConfig where
  name := clusterName
  lbStr := "RoundRobin"

/-- `SetEndpoint`. -/
def setEndpoint (g : Globals) (s : ClusterStore) (clusterName : String)
    (endpoint : Option Endpoint) : ClusterStore × Globals :=
  match endpoint with
  | none => (s, g)
  | some endpoint =>
      match s.findClusterIndex clusterName, s.findClusterConfig clusterName with
      | some i, some clusterConfig => s.setEndpointAt sum g clusterName i clusterConfig endpoint
      | _, _ =>
          let admitted := admitCluster sum g (firstUse clusterName)
          (s.append sum admitted.1).setEndpointAt sum admitted.2 clusterName s.config.length
            admitted.1 endpoint

/-- `DeleteEndpoint`. -/
def deleteEndpoint (g : Globals) (s : ClusterStore) (clusterName endpointID : String) :
    Option (ClusterStore × Globals) :=
  match s.findClusterIndex clusterName, s.findClusterConfig clusterName with
  | some i, some clusterConfig =>
      let runtimeCluster := s.runtimeFor sum clusterName clusterConfig
      match findEndpoint endpointID 0 clusterConfig.endpoints with
      | none => none
      | some none => some (s.setRuntime clusterName runtimeCluster, g)
      | some (some (idx, e)) =>
          let done := republish sum g clusterConfig (runtimeCluster.removeEndpoint e)
            (clusterConfig.endpoints.eraseIdx idx)
          some ((s.setConfig i done.1).setRuntime clusterName done.2.1, done.2.2)
  | _, _ => some (s, g)

end ClusterStore

/-! ## Removing clusters -/

/-- The loops of `removeClustersLocked`: a name that is to be removed twice would find `nil` the
second time. -/
def removeLoop (namesToDel : List String) : List (Option ClusterConfig) →
    (String → Option RuntimeCluster) →
    Option (List (Option ClusterConfig) × (String → Option RuntimeCluster))
  | [], clustersMap => some ([], clustersMap)
  | none :: config, clustersMap => removeLoop namesToDel config clustersMap
  | some c :: config, clustersMap =>
      match namesToDel.count c.name with
      | 0 => (removeLoop namesToDel config clustersMap).map fun r => (some c :: r.1, r.2)
      | 1 => removeLoop namesToDel config (Function.update clustersMap c.name none)
      | _ => none

/-- `removeClustersLocked`. -/
def ClusterStore.removeClusters (s : ClusterStore) (namesToDel : List String) :
    Option ClusterStore :=
  (removeLoop namesToDel s.config s.clustersMap).map fun r =>
    { config := r.1, version := s.version + 1, clustersMap := r.2 }

/-! ## Replacing the store -/

/-- One round of `ensureRuntimeClusters`. -/
def ensureRuntime (clustersMap : String → Option RuntimeCluster) (c : ClusterConfig) :
    RuntimeCluster :=
  match clustersMap c.name with
  | some runtimeCluster =>
      if runtimeCluster.configIsIdenticalTo c then runtimeCluster
      else replacement sum (some runtimeCluster) c
  | none => replacement sum none c

/-- `repairRuntimeClusterFromPrevious`. -/
def repairRuntime (old clustersMap : String → Option RuntimeCluster) (c : ClusterConfig) :
    RuntimeCluster :=
  match clustersMap c.name, old c.name with
  | some runtimeCluster, none =>
      if runtimeCluster.configIsIdenticalTo c then runtimeCluster else replacement sum none c
  | _, previous => replacement sum previous c

/-- The loops of `ensureRuntimeClusters` and `ensureRuntimeClustersFrom`, which differ in the
runtime they put in the map. -/
def ensureLoop (runtime : (String → Option RuntimeCluster) → ClusterConfig → RuntimeCluster) :
    Globals → List (Option ClusterConfig) → (String → Option RuntimeCluster) →
    List (Option ClusterConfig) × (String → Option RuntimeCluster) × Globals
  | g, [], clustersMap => ([], clustersMap, g)
  | g, none :: config, clustersMap =>
      let rest := ensureLoop runtime g config clustersMap
      (none :: rest.1, rest.2)
  | g, some c :: config, clustersMap =>
      let prepared := prepareClusterConfig sum g c
      let rest := ensureLoop runtime prepared.2 config
        (Function.update clustersMap prepared.1.name (some (runtime clustersMap prepared.1)))
      (some prepared.1 :: rest.1, rest.2)

/-- `removeRuntimeClustersNotIn`. -/
def removeRuntimesNotIn (configsByName : List String)
    (clustersMap : String → Option RuntimeCluster) :
    String → Option RuntimeCluster :=
  fun name => if name ∈ configsByName then clustersMap name else none

namespace ClusterStore

/-- `ensureRuntimeClusters`. -/
def ensureRuntimeClusters (g : Globals) (s : ClusterStore) : ClusterStore :=
  let done := ensureLoop sum (ensureRuntime sum) g s.config s.clustersMap
  { s with config := done.1, clustersMap := removeRuntimesNotIn s.names done.2.1 }

/-- `ensureRuntimeClustersFrom`, for another store; a configuration without a name does not count
among the names. -/
def ensureRuntimeClustersFrom (g : Globals) (s old : ClusterStore) : ClusterStore :=
  let done := ensureLoop sum (repairRuntime sum old.clustersMap) g s.config s.clustersMap
  { s with config := done.1, clustersMap := removeRuntimesNotIn (s.names.filter (· ≠ "")) done.2.1 }

/-- `carryOverRuntimeStateFrom`. -/
def carryOverRuntimeStateFrom (s old : ClusterStore) : ClusterStore :=
  { s with clustersMap := fun name => (s.clustersMap name).map fun newRuntime =>
      if name ∈ s.names then
        match old.clustersMap name with
        | some oldRuntime => oldRuntime.carryOverCursorTo newRuntime
        | none => newRuntime
      else newRuntime }

end ClusterStore

/-- `newClusterStore`. -/
def newClusterStore (g : Globals) (clusters : List ClusterConfig) : ClusterStore × Globals :=
  clusters.foldl (fun r c => ClusterStore.addCluster sum r.2 r.1 c) ({}, g)

end Store

end Pixiu.Cluster
