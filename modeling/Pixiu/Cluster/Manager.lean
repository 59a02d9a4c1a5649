import Pixiu.Cluster.Store

/-!
# The cluster manager

`ClusterManager` of `pkg/server/cluster_manager.go`: the current store, the names xDS owns, and
the counter of endpoint events.  Its methods hold one lock, so they run one after another; a
method returns the changes it tells its handlers about, in the order in which it tells them.

`Call` is one call of a method, with the global counters it finds and the orders in which Go
delivers the keys of the maps it loops over.  `run` performs calls one after another.
-/

namespace Pixiu.Cluster

/-! ## Endpoint events -/

/-- `endpointStateChange`. -/
structure EndpointStateChange where
  clusterName : String
  address : String
  present : Bool
  version : ℕ
  deriving DecidableEq

/-- The pairs that one configuration contributes to `endpointAddressSnapshot`. -/
def ClusterConfig.pairs (c : ClusterConfig) : List (String × String) :=
  c.nonNil.map fun e => (c.name, e.address.getAddress)

/-- `endpointAddressSnapshot`, as the list of its pairs of a name and an address. -/
def endpointAddressSnapshot (configs : List (Option ClusterConfig)) : List (String × String) :=
  (configs.filterMap id).flatMap (·.pairs)

/-- The order in which a loop over a map of pairs comes to them. -/
structure MapOrder where
  pairs : List (String × String) → List (String × String)
  nodup : ∀ l, (pairs l).Nodup
  mem_pairs : ∀ l p, p ∈ pairs l ↔ p ∈ l

/-- The order of first occurrence. -/
def MapOrder.byOccurrence : MapOrder where
  pairs := List.dedup
  nodup := List.nodup_dedup
  mem_pairs _ _ := List.mem_dedup

/-- `endpointStateChanges`. -/
def endpointStateChanges (order : MapOrder) (old new : List (String × String)) (version : ℕ) :
    List EndpointStateChange :=
  ((order.pairs old).filter (· ∉ new)).map (fun p => ⟨p.1, p.2, false, version⟩) ++
    ((order.pairs new).filter (· ∉ old)).map (fun p => ⟨p.1, p.2, true, version⟩)

/-! ## The manager and its methods -/

/-- `ClusterManager`. -/
structure ClusterManager where
  store : ClusterStore
  xdsManaged : Finset String := ∅
  nextEndpointEventID : ℕ := 0

/-- The errors of the xDS methods. -/
inductive XDSError where
  /-- `xDS cluster must have a name`. -/
  | unnamed
  /-- `duplicate xDS cluster %q`. -/
  | duplicate (name : String)
  /-- `xDS cluster %q conflicts with a non-xDS cluster`. -/
  | conflict (name : String)
  deriving DecidableEq

/-- What a method leaves: the manager, the changes its handlers are told, and its result. -/
structure Reply where
  cm : ClusterManager
  changes : List EndpointStateChange := []
  result : Except XDSError Bool := .ok true

namespace ClusterManager

/-- `releaseXDSOwnership`. -/
def releaseXDSOwnership (cm : ClusterManager) (name : String) : ClusterManager :=
  if name ≠ "" then { cm with xdsManaged := cm.xdsManaged.erase name } else cm

/-- `nextEndpointEventIDLocked`. -/
def nextEndpointEvent (cm : ClusterManager) : ClusterManager :=
  { cm with nextEndpointEventID := cm.nextEndpointEventID + 1 }

/-- What the methods for one cluster start with. -/
def enter (cm : ClusterManager) (name : String) : ClusterManager :=
  let cm := (cm.releaseXDSOwnership name).nextEndpointEvent
  { cm with store := cm.store.increaseVersion }

variable (sum : String → String) (g : Globals) (order : MapOrder) (cm : ClusterManager)

/-- `AddCluster`. -/
def addCluster (c : ClusterConfig) : Reply :=
  let cm := cm.enter c.name
  let added := admitCluster sum g c
  { cm := { cm with store := (cm.store.addCluster sum g c).1 }
    changes := endpointStateChanges order [] (endpointAddressSnapshot [some added.1])
      cm.nextEndpointEventID }

/-- `UpdateCluster`. -/
def updateCluster (new : ClusterConfig) : Reply :=
  let oldConfig := cm.store.findClusterConfig new.name
  let old := endpointAddressSnapshot [oldConfig]
  let newSnapshot := if oldConfig.isSome then endpointAddressSnapshot [some new] else old
  let cm := cm.enter new.name
  { cm := { cm with store := (cm.store.updateCluster sum g new).1 }
    changes := endpointStateChanges order old newSnapshot cm.nextEndpointEventID }

/-- `UpsertXDSCluster`. -/
def upsertXDSCluster (c : Option ClusterConfig) : Option Reply :=
  match c with
  | none => some { cm, result := .error .unnamed }
  | some c =>
      if c.name = "" then some { cm, result := .error .unnamed }
      else match cm.store.hasCluster c.name with
        | none => none
        | some present =>
            let owned := c.name ∈ cm.xdsManaged
            if present ∧ ¬ owned then some { cm, result := .error (.conflict c.name) }
            else
              let store := cm.store.increaseVersion
              if owned then some { cm := { cm with store := (store.updateCluster sum g c).1 } }
              else some { cm := { cm with
                  store := (store.addCluster sum g c).1
                  xdsManaged := insert c.name cm.xdsManaged } }

/-- The loop of `ReplaceXDSClusters` that checks its argument. -/
def validateXDS (staticNames : List String) :
    List String → List (Option ClusterConfig) → Except XDSError (List ClusterConfig)
  | _, [] => .ok []
  | _, none :: _ => .error .unnamed
  | newManaged, some c :: clusters =>
      if c.name = "" then .error .unnamed
      else if c.name ∈ newManaged then .error (.duplicate c.name)
      else if c.name ∈ staticNames then .error (.conflict c.name)
      else match validateXDS staticNames (newManaged ++ [c.name]) clusters with
        | .ok rest => .ok (c :: rest)
        | .error e => .error e

/-- The configurations that `ReplaceXDSClusters` keeps. -/
def staticConfigs : List (Option ClusterConfig) :=
  cm.store.config.filter fun c => c.any (·.name ∉ cm.xdsManaged)

/-- The store that `ReplaceXDSClusters` starts from. -/
def staticStore : ClusterStore where
  config := cm.staticConfigs
  version := cm.store.version
  clustersMap := fun name =>
    if name ∈ namesOf cm.staticConfigs then cm.store.clustersMap name else none

/-- One round of the loop of `ReplaceXDSClusters` that builds the new clusters; it freezes the
runtime of the old store. -/
def publishXDS (state : ClusterStore × ClusterStore × Globals) (c : ClusterConfig) :
    ClusterStore × ClusterStore × Globals :=
  let prepared := prepareClusterConfig sum state.2.2 c
  let candidate := state.1
  let old := state.2.1
  let frozen := (old.clustersMap c.name).map RuntimeCluster.snapshotForRuntimeReplacement
  ({ candidate with config := candidate.config ++ [some prepared.1] }.setRuntime c.name
      (.newClusterWithEndpointSnapshot sum prepared.1 (frozen.map Prod.snd)),
    match frozen with
    | some (runtimeCluster, _) => old.setRuntime c.name runtimeCluster
    | none => old,
    prepared.2)

/-- `ReplaceXDSClusters`. -/
def replaceXDSClusters (clusters : List (Option ClusterConfig)) : Reply :=
  let oldEndpoints := endpointAddressSnapshot cm.store.config
  match validateXDS (namesOf cm.staticConfigs) [] clusters with
  | .error e => { cm, result := .error e }
  | .ok clusters =>
      let candidate :=
        (clusters.foldl (publishXDS sum) (cm.staticStore, cm.store, g)).1.increaseVersion
      let cm := cm.nextEndpointEvent
      { cm := { cm with store := candidate, xdsManaged := (clusters.map (·.name)).toFinset }
        changes :=
          endpointStateChanges order oldEndpoints (endpointAddressSnapshot candidate.config)
          cm.nextEndpointEventID }

/-- `SetEndpoint`. -/
def setEndpoint (clusterName : String) (endpoint : Option Endpoint) : Reply :=
  let old := endpointAddressSnapshot [cm.store.findClusterConfig clusterName]
  let cm := cm.enter clusterName
  let store := (cm.store.setEndpoint sum g clusterName endpoint).1
  { cm := { cm with store }
    changes := endpointStateChanges order old
      (endpointAddressSnapshot [store.findClusterConfig clusterName]) cm.nextEndpointEventID }

/-- `DeleteEndpoint`. -/
def deleteEndpoint (clusterName endpointID : String) : Option Reply :=
  let old := endpointAddressSnapshot [cm.store.findClusterConfig clusterName]
  let cm := cm.enter clusterName
  (cm.store.deleteEndpoint sum g clusterName endpointID).map fun r =>
    { cm := { cm with store := r.1 }
      changes := endpointStateChanges order old
        (endpointAddressSnapshot [r.1.findClusterConfig clusterName]) cm.nextEndpointEventID }

/-- `RemoveCluster`. -/
def removeCluster (namesToDel : List String) : Option Reply :=
  let old := endpointAddressSnapshot cm.store.config
  let cm := namesToDel.foldl releaseXDSOwnership cm.nextEndpointEvent
  (cm.store.removeClusters namesToDel).map fun store =>
    { cm := { cm with store }
      changes := endpointStateChanges order old (endpointAddressSnapshot store.config)
        cm.nextEndpointEventID }

/-- The loop of `RemoveXDSClusters` that collects the names xDS owns. -/
def takeOwned : Finset String → List String → List String
  | _, [] => []
  | owned, name :: names =>
      if name ∈ owned then name :: takeOwned (owned.erase name) names else takeOwned owned names

/-- `RemoveXDSClusters`. -/
def removeXDSClusters (names : List String) : Option Reply :=
  let old := endpointAddressSnapshot cm.store.config
  let cm := cm.nextEndpointEvent
  let ownedNames := takeOwned cm.xdsManaged names
  let cm := { cm with xdsManaged := cm.xdsManaged \ ownedNames.toFinset }
  if ownedNames = [] then some { cm }
  else (cm.store.removeClusters ownedNames).map fun store =>
    { cm := { cm with store }
      changes := endpointStateChanges order old (endpointAddressSnapshot store.config)
        cm.nextEndpointEventID }

/-- `CompareAndSetStore`; without an argument, for the current store itself. -/
def compareAndSetStore (candidate : Option ClusterStore) : Reply :=
  let store := candidate.getD cm.store
  if store.version ≠ cm.store.version then { cm, result := .ok false }
  else
    let currentStore := cm.store
    let cm := cm.nextEndpointEvent
    let changes := endpointStateChanges order (endpointAddressSnapshot currentStore.config)
      (endpointAddressSnapshot store.config) cm.nextEndpointEventID
    let store := match candidate with
      | none =>
          -- the current store has lost the runtimes it replaced when its cursors are carried over
          let store := store.ensureRuntimeClusters sum g
          store.carryOverRuntimeStateFrom store
      | some store =>
          (store.ensureRuntimeClustersFrom sum g currentStore).carryOverRuntimeStateFrom
            currentStore
    { cm := { cm with store, xdsManaged := ∅ }
      changes }

/-- `handleEndpointHealth` of a runtime: a health checker reports on an address. -/
def handleEndpointHealth (clusterName endpointAddress : String) (healthy : Bool) : Reply :=
  { cm := { cm with store :=
      cm.store.modifyRuntime clusterName (·.updateEndpointAddressHealth endpointAddress healthy) } }

/-- Requests move the round-robin cursor of a runtime. -/
def moveCursor (clusterName : String) (cursor : UInt32) : Reply :=
  { cm := { cm with store :=
      cm.store.modifyRuntime clusterName fun r => { r with roundRobinCursor := cursor } } }

end ClusterManager

/-- `CreateDefaultClusterManager`, for the static clusters of a bootstrap. -/
def createDefaultClusterManager (sum : String → String) (g : Globals)
    (clusters : List ClusterConfig) :
    ClusterManager where
  store := (newClusterStore sum g clusters).1

/-! ## Runs -/

/-- What can happen to a manager: its methods, and what goes on in its runtimes. -/
inductive Op where
  | addCluster (c : ClusterConfig)
  | updateCluster (new : ClusterConfig)
  | upsertXDSCluster (c : Option ClusterConfig)
  | replaceXDSClusters (clusters : List (Option ClusterConfig))
  | setEndpoint (clusterName : String) (endpoint : Option Endpoint)
  | deleteEndpoint (clusterName endpointID : String)
  | removeCluster (namesToDel : List String)
  | removeXDSClusters (names : List String)
  | compareAndSetStore (candidate : Option ClusterStore)
  | handleEndpointHealth (clusterName endpointAddress : String) (healthy : Bool)
  | moveCursor (clusterName : String) (cursor : UInt32)

/-- One operation, and what it finds around it. -/
structure Call where
  globals : Globals := {}
  order : MapOrder := .byOccurrence
  op : Op

section Run

variable (sum : String → String)

/-- What a call leaves; nothing if it panics. -/
def Call.apply (cm : ClusterManager) (call : Call) : Option Reply :=
  match call.op with
  | .addCluster c => some (cm.addCluster sum call.globals call.order c)
  | .updateCluster new => some (cm.updateCluster sum call.globals call.order new)
  | .upsertXDSCluster c => cm.upsertXDSCluster sum call.globals c
  | .replaceXDSClusters clusters =>
    some (cm.replaceXDSClusters sum call.globals call.order clusters)
  | .setEndpoint name endpoint => some (cm.setEndpoint sum call.globals call.order name endpoint)
  | .deleteEndpoint name id => cm.deleteEndpoint sum call.globals call.order name id
  | .removeCluster names => cm.removeCluster call.order names
  | .removeXDSClusters names => cm.removeXDSClusters call.order names
  | .compareAndSetStore candidate =>
      some (cm.compareAndSetStore sum call.globals call.order candidate)
  | .handleEndpointHealth name address healthy =>
    some (cm.handleEndpointHealth name address healthy)
  | .moveCursor name cursor => some (cm.moveCursor name cursor)

/-- Calls, one after another, with all the changes that were told. -/
def run (cm : ClusterManager) : List Call → Option (ClusterManager × List EndpointStateChange)
  | [] => some (cm, [])
  | call :: calls => do
      let reply ← call.apply sum cm
      let rest ← run reply.cm calls
      pure (rest.1, reply.changes ++ rest.2)

/-- The managers that calls can lead to from a bootstrap. -/
def ClusterManager.Reachable (cm : ClusterManager) : Prop :=
  ∃ g clusters calls log, run sum (createDefaultClusterManager sum g clusters) calls =
    some (cm, log)

end Run

/-! ## What the methods can do -/

section Cases

variable {sum : String → String} {cm : ClusterManager}

@[simp] theorem enter_store (name : String) : (cm.enter name).store = cm.store.increaseVersion := by
  simp only [ClusterManager.enter, ClusterManager.nextEndpointEvent,
    ClusterManager.releaseXDSOwnership]
  split_ifs <;> rfl

@[simp] theorem foldl_releaseXDSOwnership_store (names : List String) (cm : ClusterManager) :
    (names.foldl ClusterManager.releaseXDSOwnership cm).store = cm.store := by
  induction names generalizing cm with
  | nil => rfl
  | cons name names ih =>
    rw [List.foldl_cons, ih, ClusterManager.releaseXDSOwnership]
    split_ifs <;> rfl

/-- `UpsertXDSCluster` goes through. -/
def ClusterManager.AcceptsXDS (cm : ClusterManager) : Option ClusterConfig → Prop
  | none => False
  | some c => c.name ≠ "" ∧ (cm.store.hasCluster c.name = some false ∨ c.name ∈ cm.xdsManaged)

instance (cm : ClusterManager) (c : Option ClusterConfig) : Decidable (cm.AcceptsXDS c) :=
  match c with
  | none => inferInstanceAs (Decidable False)
  | some _ => inferInstanceAs (Decidable (_ ∧ _))

/-- `UpsertXDSCluster` updates a cluster that xDS owns, or adds one that is not there, or fails
without an effect. -/
theorem upsertXDSCluster_cases {g : Globals} {c : Option ClusterConfig} {r : Reply}
    (h : cm.upsertXDSCluster sum g c = some r) :
    (¬ cm.AcceptsXDS c ∧ r.cm = cm ∧ r.changes = [] ∧ ∃ e, r.result = .error e) ∨
      ∃ c', c = some c' ∧ cm.AcceptsXDS c ∧ r.changes = [] ∧ r.result = .ok true ∧
        ((c'.name ∈ cm.xdsManaged ∧
          r.cm = { cm with store := (cm.store.increaseVersion.updateCluster sum g c').1 }) ∨
        (c'.name ∉ cm.xdsManaged ∧ cm.store.hasCluster c'.name = some false ∧
          r.cm = { cm with
            store := (cm.store.increaseVersion.addCluster sum g c').1
            xdsManaged := insert c'.name cm.xdsManaged })) := by
  cases c with
  | none =>
    cases h
    exact .inl ⟨id, rfl, rfl, _, rfl⟩
  | some c =>
    simp only [ClusterManager.upsertXDSCluster] at h
    by_cases hempty : c.name = ""
    · rw [if_pos hempty] at h
      cases h
      exact .inl ⟨fun haccept => haccept.1 hempty, rfl, rfl, _, rfl⟩
    rw [if_neg hempty] at h
    cases hhas : cm.store.hasCluster c.name with
    | none => simp [hhas] at h
    | some present =>
      simp only [hhas] at h
      by_cases howned : c.name ∈ cm.xdsManaged
      · rw [if_neg fun hconflict => hconflict.2 howned, if_pos howned] at h
        cases h
        exact .inr ⟨c, rfl, ⟨hempty, .inr howned⟩, rfl, rfl, .inl ⟨howned, rfl⟩⟩
      · cases present with
        | true =>
          rw [if_pos ⟨rfl, howned⟩] at h
          cases h
          refine .inl ⟨fun haccept => ?_, rfl, rfl, _, rfl⟩
          rcases haccept.2 with hno | hyes
          · rw [hhas] at hno
            cases hno
          · exact howned hyes
        | false =>
          rw [if_neg fun hconflict => Bool.false_ne_true hconflict.1, if_neg howned] at h
          cases h
          exact .inr ⟨c, rfl, ⟨hempty, .inl hhas⟩, rfl, rfl, .inr ⟨howned, hhas, rfl⟩⟩

/-- The first call of a run, and the rest of it. -/
theorem run_cons_eq_some {call : Call} {calls : List Call} {cm' : ClusterManager}
    {log : List EndpointStateChange} (h : run sum cm (call :: calls) = some (cm', log)) :
    ∃ reply, call.apply sum cm = some reply ∧ ∃ rest, run sum reply.cm calls = some (cm', rest) ∧
      log = reply.changes ++ rest := by
  simp only [run, Option.bind_eq_bind, Option.bind_eq_some_iff, Option.pure_def, Option.some.injEq,
    Prod.mk.injEq] at h
  obtain ⟨reply, hreply, ⟨cm'', rest⟩, hrest, rfl, rfl⟩ := h
  exact ⟨reply, hreply, rest, hrest, rfl⟩

/-- What the start has and every call keeps, every reachable manager has. -/
theorem run_induction {P : ClusterManager → Prop}
    (hstep : ∀ cm call reply, P cm → Call.apply sum cm call = some reply → P reply.cm)
    {calls : List Call} {cm' : ClusterManager} {log : List EndpointStateChange}
    (hrun : run sum cm calls = some (cm', log)) (h : P cm) : P cm' := by
  induction calls generalizing cm log with
  | nil =>
    cases hrun
    exact h
  | cons call calls ih =>
    obtain ⟨reply, hreply, rest, hrest, -⟩ := run_cons_eq_some hrun
    exact ih hrest (hstep cm call reply h hreply)

end Cases

end Pixiu.Cluster
