import Pixiu.Cluster.Snapshot

/-!
# Runtime clusters and the preparation of their configurations

`cluster.Cluster` of `pkg/cluster/cluster.go`, as its owner sees it: the copy of the configuration
it was built from, the snapshot it publishes, its round-robin cursor, whether it still accepts
health events, and the addresses its health checker has a session for.  And the preparation of
a configuration by `pkg/server/cluster_manager.go`, which gives every endpoint an identity and
a name before a runtime is built.

Configurations and endpoints are values here: the source copies them where a runtime and the
store would share them.

`lists_newEndpointSnapshot`: a snapshot of a prepared configuration lists the endpoints of the
configuration, by ID and address and in order.
-/

namespace Pixiu.Cluster

/-- The endpoints that are not `nil`. -/
def ClusterConfig.nonNil (c : ClusterConfig) : List Endpoint := c.endpoints.filterMap id

/-- An endpoint, as requests find it. -/
def Endpoint.listing (e : Endpoint) : String × String := (e.id, e.address.getAddress)

/-- The IDs and addresses of a configuration, in order. -/
def ClusterConfig.lists (c : ClusterConfig) : List (String × String) := c.nonNil.map (·.listing)

/-- The IDs and addresses of a snapshot, in order. -/
def EndpointSnapshot.lists (s : EndpointSnapshot) : List (String × String) := s.all.map (·.listing)

/-! ## The runtime -/

/-- `cluster.Cluster`; `checkers` are the addresses with a health check session, if there is a
health checker. -/
structure RuntimeCluster where
  config : ClusterConfig
  configID : UInt64
  roundRobinCursor : UInt32 := 0
  acceptHealthEvents : Bool := true
  endpointSnapshot : EndpointSnapshot
  checkers : Option (List String)

/-- `startCheck`. -/
def startCheck (checkers : List String) (endpoint : Endpoint) : List String :=
  let addr := endpoint.address.getAddress
  if addr ∈ checkers then checkers else checkers ++ [addr]

/-- `hasOtherEndpointWithAddress`; the endpoint asked about is never an object of this list. -/
def hasOtherEndpointWithAddress (cluster : ClusterConfig) (endpoint : Endpoint) (addr : String) :
    Bool :=
  cluster.nonNil.any fun candidate =>
    !(endpoint.id ≠ "" && candidate.id = endpoint.id) && candidate.address.getAddress == addr

/-- `stopCheck`. -/
def stopCheck (cluster : ClusterConfig) (checkers : List String) (endpoint : Endpoint) :
    List String :=
  let addr := endpoint.address.getAddress
  if hasOtherEndpointWithAddress cluster endpoint addr then checkers
  else checkers.filter (· ≠ addr)

namespace RuntimeCluster

variable (sum : String → String)

/-- `NewClusterWithEndpointSnapshot`. -/
def newClusterWithEndpointSnapshot (clusterConfig : ClusterConfig)
    (previous : Option EndpointSnapshot) : RuntimeCluster where
  config := clusterConfig
  configID := clusterConfig.configID
  endpointSnapshot :=
    .newEndpointSnapshot sum (some clusterConfig) previous (clusterConfig.healthChecks != [])
  checkers := if clusterConfig.healthChecks = [] then none
    else some (clusterConfig.nonNil.foldl startCheck [])

/-- `RefreshEndpoints`. -/
def refreshEndpoints (c : RuntimeCluster) : RuntimeCluster :=
  { c with
    endpointSnapshot := .newEndpointSnapshot sum (some c.config) (some c.endpointSnapshot)
      (c.config.healthChecks != []) }

/-- `SyncConfigEndpoints`. -/
def syncConfigEndpoints (c : RuntimeCluster) (endpoints : List (Option Endpoint)) :
    RuntimeCluster :=
  { c with config := { c.config with endpoints } }

/-- `AddEndpoint`. -/
def addEndpoint (c : RuntimeCluster) (endpoint : Endpoint) : RuntimeCluster :=
  { c with checkers := c.checkers.map (startCheck · endpoint) }

/-- `RemoveEndpoint`. -/
def removeEndpoint (c : RuntimeCluster) (endpoint : Endpoint) : RuntimeCluster :=
  { c with checkers := c.checkers.map (stopCheck c.config · endpoint) }

/-- `ConfigIsIdenticalTo`. -/
def configIsIdenticalTo (c : RuntimeCluster) (cfg : ClusterConfig) : Bool :=
  c.configID == cfg.configID

/-- `CarryOverCursorTo`. -/
def carryOverCursorTo (c target : RuntimeCluster) : RuntimeCluster :=
  { target with roundRobinCursor := c.roundRobinCursor }

/-- `SnapshotForRuntimeReplacement`. -/
def snapshotForRuntimeReplacement (c : RuntimeCluster) : RuntimeCluster × EndpointSnapshot :=
  ({ c with acceptHealthEvents := false }, c.endpointSnapshot)

/-- `UpdateEndpointAddressHealth`, when nothing else runs; in a well-formed snapshot the order of
the loops makes no difference. -/
def updateEndpointAddressHealth (c : RuntimeCluster) (endpointAddress : String) (healthy : Bool) :
    RuntimeCluster :=
  if c.acceptHealthEvents then
    let order := c.endpointSnapshot.all.map (·.id)
    match c.endpointSnapshot.withEndpointAddressHealth order order endpointAddress healthy with
    | some (some next) => { c with endpointSnapshot := next }
    | _ => c
  else c

end RuntimeCluster

/-! ## The preparation of a configuration -/

/-- `clusterIndex` and `configIDSeq`. -/
structure Globals where
  clusterIndex : Int32 := 1
  configIDSeq : UInt64 := 0

section Prepare

variable (sum : String → String)

/-- The ID that `assembleClusterEndpoints` gives an endpoint. -/
def assembleID (clusterName : String) (endpointIDs : List String) (endpoint : Endpoint) : String :=
  if endpoint.id = "" then stableUniqueEndpointID sum clusterName endpoint endpointIDs
  else if endpoint.id ∈ endpointIDs then stableUniqueEndpointID sum clusterName endpoint endpointIDs
  else endpoint.id

/-- The name that `assembleClusterEndpoints` gives the endpoint at an index. -/
def assembleName (i : ℕ) (endpoint : Endpoint) : String :=
  if endpoint.name ≠ "" then endpoint.name
  else match endpoint.llmMeta with
    | some llmMeta => "endpoint-" ++ (i + 1).repr ++ "#" ++ llmMeta.provider
    | none => "endpoint-" ++ (i + 1).repr

/-- The loop of `assembleClusterEndpoints`, from an index and the IDs given so far. -/
def assembleFrom (clusterName : String) : ℕ → List String → List (Option Endpoint) →
    List (Option Endpoint)
  | _, _, [] => []
  | i, endpointIDs, none :: endpoints =>
    none :: assembleFrom clusterName (i + 1) endpointIDs endpoints
  | i, endpointIDs, some endpoint :: endpoints =>
      let id := assembleID sum clusterName endpointIDs endpoint
      some { endpoint with id, name := assembleName i endpoint } ::
        assembleFrom clusterName (i + 1) (endpointIDs ++ [id]) endpoints

/-- `assembleClusterEndpoints`. -/
def assembleClusterEndpoints (c : ClusterConfig) : ClusterConfig :=
  { c with endpoints := assembleFrom sum c.name 0 [] c.endpoints }

/-- `prepareOwnedClusterConfig`. -/
def prepareOwnedClusterConfig (g : Globals) (c : ClusterConfig) : ClusterConfig × Globals :=
  if c.configID = 0 then
    let configID := g.configIDSeq + 1
    (assembleClusterEndpoints sum { c with configID }, { g with configIDSeq := configID })
  else (assembleClusterEndpoints sum c, g)

/-- `prepareClusterConfig`; the copies it makes first are no different as values. -/
def prepareClusterConfig (g : Globals) (c : ClusterConfig) : ClusterConfig × Globals :=
  prepareOwnedClusterConfig sum g c

end Prepare

/-! ## What preparation does -/

section Prepared

variable {sum : String → String}

/-- The IDs of a configuration are distinct, and none is empty. -/
structure Prepared (c : ClusterConfig) : Prop where
  nodup : (c.nonNil.map (·.id)).Nodup
  nonempty : "" ∉ c.nonNil.map (·.id)

theorem append_ne_empty {a : String} (ha : a ≠ "") (b : String) : a ++ b ≠ "" := by
  intro h
  have hnil : a.toList ++ b.toList = [] := by rw [← String.toList_append, h, String.toList_empty]
  exact ha (String.toList_eq_nil_iff.1 (List.append_eq_nil_iff.1 hnil).1)

theorem baseID_ne_empty (clusterName : String) (e : Endpoint) : baseID sum clusterName e ≠ "" := by
  rw [baseID]
  split_ifs with h
  · exact append_ne_empty (by decide) _
  · exact h

theorem stableUniqueEndpointID_ne_empty (clusterName : String) (e : Endpoint)
    (taken : List String) : stableUniqueEndpointID sum clusterName e taken ≠ "" := by
  have hbase : baseID sum clusterName e ≠ "" := baseID_ne_empty clusterName e
  rw [stableUniqueEndpointID]
  split_ifs
  · cases hfree : Fresh.firstFree (suffixed (baseID sum clusterName e)) taken 2 with
    | none => exact hbase
    | some id =>
      obtain ⟨i, -, hi⟩ := List.mem_map.1 (List.mem_of_find?_eq_some hfree)
      rw [Option.getD_some, ← hi, suffixed, String.append_assoc]
      exact append_ne_empty hbase _
  · exact hbase

/-- Both branches of the assignment of an ID come down to one. -/
theorem assembleID_eq (clusterName : String) (endpointIDs : List String) (e : Endpoint) :
    assembleID sum clusterName endpointIDs e =
      stableUniqueEndpointID sum clusterName e endpointIDs := by
  rw [assembleID]
  split_ifs with hempty hmem
  · rfl
  · rfl
  · rw [stableUniqueEndpointID, baseID, if_neg hempty, if_pos hmem]

/-- An ID that is not taken is kept. -/
theorem stableUniqueEndpointID_self {clusterName : String} {e : Endpoint} {taken : List String}
    (hempty : e.id ≠ "") (htaken : e.id ∉ taken) :
    stableUniqueEndpointID sum clusterName e taken = e.id := by
  rw [stableUniqueEndpointID, baseID, if_neg hempty, if_pos htaken]

/-- The IDs given are distinct from each other and from those given before, and none is empty. -/
theorem assembleFrom_ids (clusterName : String) (endpoints : List (Option Endpoint)) (i : ℕ)
    {endpointIDs : List String} (hnodup : endpointIDs.Nodup) :
    (endpointIDs ++ ((assembleFrom sum clusterName i endpointIDs endpoints).filterMap id).map
        (·.id)).Nodup ∧
      "" ∉ ((assembleFrom sum clusterName i endpointIDs endpoints).filterMap id).map (·.id) := by
  induction endpoints generalizing i endpointIDs with
  | nil => simpa [assembleFrom] using hnodup
  | cons endpoint endpoints ih =>
    cases endpoint with
    | none => simpa [assembleFrom] using ih (i + 1) hnodup
    | some e =>
      have hnew : assembleID sum clusterName endpointIDs e ∉ endpointIDs := by
        rw [assembleID_eq]
        exact stableUniqueEndpointID_notMem sum clusterName e endpointIDs
      have hempty : assembleID sum clusterName endpointIDs e ≠ "" := by
        rw [assembleID_eq]
        exact stableUniqueEndpointID_ne_empty clusterName e endpointIDs
      have htaken : (endpointIDs ++ [assembleID sum clusterName endpointIDs e]).Nodup := by
        refine List.nodup_append.2 ⟨hnodup, List.nodup_singleton _, fun a ha b hb heq => ?_⟩
        rw [List.mem_singleton.1 hb] at heq
        exact hnew (heq ▸ ha)
      obtain ⟨hrest, hrest'⟩ := ih (i + 1) htaken
      rw [List.append_assoc] at hrest
      simp only [assembleFrom, List.filterMap_cons, id_eq, List.map_cons]
      exact ⟨hrest, by simpa [hempty.symm] using hrest'⟩

/-- What preparation leaves alone: everything but the ID and the name. -/
def Endpoint.content (e : Endpoint) : Endpoint := { e with id := "", name := "" }

variable (sum) in
/-- Preparation changes IDs and names only. -/
theorem assembleFrom_contents (clusterName : String) (endpoints : List (Option Endpoint)) (i : ℕ)
    (endpointIDs : List String) :
    ((assembleFrom sum clusterName i endpointIDs endpoints).filterMap id).map (·.content) =
      (endpoints.filterMap id).map (·.content) := by
  induction endpoints generalizing i endpointIDs with
  | nil => rfl
  | cons endpoint endpoints ih =>
    cases endpoint with
    | none => simpa [assembleFrom] using ih (i + 1) endpointIDs
    | some e => simpa [assembleFrom, Endpoint.content] using ih (i + 1) (endpointIDs ++ [_])

/-- Preparation moves no endpoint. -/
theorem assembleFrom_addresses (clusterName : String) (endpoints : List (Option Endpoint)) (i : ℕ)
    (endpointIDs : List String) :
    ((assembleFrom sum clusterName i endpointIDs endpoints).filterMap id).map (·.address) =
      (endpoints.filterMap id).map (·.address) := by
  have h := congrArg (List.map (·.address))
    (assembleFrom_contents sum clusterName endpoints i endpointIDs)
  rwa [List.map_map, List.map_map] at h

/-- Everything but the name. -/
def Endpoint.unnamed (e : Endpoint) : Endpoint := { e with name := "" }

variable (sum) in
/-- Of endpoints whose IDs are distinct already, and not empty, preparation changes the names
only. -/
theorem assembleFrom_unnamed (clusterName : String) (endpoints : List (Option Endpoint)) (i : ℕ)
    {endpointIDs : List String}
    (hnodup : (endpointIDs ++ (endpoints.filterMap id).map (·.id)).Nodup)
    (hempty : "" ∉ (endpoints.filterMap id).map (·.id)) :
    ((assembleFrom sum clusterName i endpointIDs endpoints).filterMap id).map (·.unnamed) =
      (endpoints.filterMap id).map (·.unnamed) := by
  induction endpoints generalizing i endpointIDs with
  | nil => rfl
  | cons endpoint endpoints ih =>
    cases endpoint with
    | none => simpa [assembleFrom] using ih (i + 1) (by simpa using hnodup) (by simpa using hempty)
    | some e =>
      simp only [List.filterMap_cons, id_eq, List.map_cons, List.mem_cons, not_or] at hnodup hempty
      have hid : assembleID sum clusterName endpointIDs e = e.id := by
        rw [assembleID_eq]
        refine stableUniqueEndpointID_self (Ne.symm hempty.1) fun hmem => ?_
        exact (List.nodup_append.1 hnodup).2.2 _ hmem _ List.mem_cons_self rfl
      have hnodup' : ((endpointIDs ++ [e.id]) ++ (endpoints.filterMap id).map (·.id)).Nodup := by
        simpa [List.append_assoc] using hnodup
      have hrest := ih (i + 1) hnodup' hempty.2
      simp only [assembleFrom, List.filterMap_cons, id_eq, List.map_cons, hid]
      exact congrArg (e.unnamed :: ·) hrest

/-- IDs that are distinct already, and not empty, are kept. -/
theorem assembleFrom_lists (clusterName : String) (endpoints : List (Option Endpoint)) (i : ℕ)
    {endpointIDs : List String}
    (hnodup : (endpointIDs ++ (endpoints.filterMap id).map (·.id)).Nodup)
    (hempty : "" ∉ (endpoints.filterMap id).map (·.id)) :
    ((assembleFrom sum clusterName i endpointIDs endpoints).filterMap id).map (·.listing) =
      (endpoints.filterMap id).map (·.listing) := by
  have h := congrArg (List.map (·.listing))
    (assembleFrom_unnamed sum clusterName endpoints i hnodup hempty)
  rwa [List.map_map, List.map_map] at h

theorem prepared_assembleClusterEndpoints (c : ClusterConfig) :
    Prepared (assembleClusterEndpoints sum c) :=
  ⟨(assembleFrom_ids c.name c.endpoints 0 List.nodup_nil).1,
    (assembleFrom_ids c.name c.endpoints 0 List.nodup_nil).2⟩

variable (g : Globals) (c : ClusterConfig)

theorem prepared_prepareOwnedClusterConfig : Prepared (prepareOwnedClusterConfig sum g c).1 := by
  rw [prepareOwnedClusterConfig]
  split_ifs <;> exact prepared_assembleClusterEndpoints _

@[simp] theorem prepareOwnedClusterConfig_name :
    (prepareOwnedClusterConfig sum g c).1.name = c.name := by
  rw [prepareOwnedClusterConfig]
  split_ifs <;> rfl

theorem prepareOwnedClusterConfig_addresses :
    (prepareOwnedClusterConfig sum g c).1.nonNil.map (·.address) = c.nonNil.map (·.address) := by
  rw [prepareOwnedClusterConfig]
  split_ifs <;> exact assembleFrom_addresses ..

theorem prepareOwnedClusterConfig_lists :
    (prepareOwnedClusterConfig sum g c).1.lists = (assembleClusterEndpoints sum c).lists := by
  rw [prepareOwnedClusterConfig]
  split_ifs <;> rfl

theorem prepareOwnedClusterConfig_configID (h : c.configID ≠ 0) :
    (prepareOwnedClusterConfig sum g c).1.configID = c.configID := by
  rw [prepareOwnedClusterConfig, if_neg h]
  rfl

/-- A configuration that is prepared already lists the same endpoints when it is prepared again. -/
theorem Prepared.lists_prepareOwnedClusterConfig (h : Prepared c) :
    (prepareOwnedClusterConfig sum g c).1.lists = c.lists := by
  rw [prepareOwnedClusterConfig]
  split_ifs <;> exact assembleFrom_lists c.name c.endpoints 0 h.nodup h.nonempty

theorem lists_foldl_addConfigEndpoint (clusterName : String) (previous : Option EndpointSnapshot)
    (inheritRuntimeHealth : Bool) {es : List Endpoint} {base : EndpointSnapshot}
    (hnodup : (base.all.map (·.id) ++ es.map (·.id)).Nodup) (hempty : "" ∉ es.map (·.id)) :
    (es.foldl (EndpointSnapshot.addConfigEndpoint sum clusterName previous inheritRuntimeHealth)
      base).lists = base.lists ++ es.map (·.listing) := by
  induction es generalizing base with
  | nil => simp
  | cons e es ih =>
    simp only [List.map_cons, List.mem_cons, not_or] at hempty
    have hid : stableUniqueEndpointID sum clusterName e (base.all.map (·.id)) = e.id := by
      refine stableUniqueEndpointID_self (Ne.symm hempty.1) fun hmem => ?_
      exact (List.nodup_append.1 hnodup).2.2 _ hmem _ List.mem_cons_self rfl
    rw [List.foldl_cons, ih _ hempty.2]
    · simp only [EndpointSnapshot.lists, EndpointSnapshot.addConfigEndpoint,
        EndpointSnapshot.addEndpoint, hid, List.map_append, List.append_assoc]
      rfl
    · simpa [EndpointSnapshot.addConfigEndpoint, EndpointSnapshot.addEndpoint, hid] using hnodup

/-- **The snapshot of a prepared configuration** lists what the configuration lists. -/
theorem lists_newEndpointSnapshot {c : ClusterConfig} (h : Prepared c)
    (previous : Option EndpointSnapshot) (inheritRuntimeHealth : Bool) :
    (EndpointSnapshot.newEndpointSnapshot sum (some c) previous inheritRuntimeHealth).lists =
      c.lists := by
  rw [EndpointSnapshot.newEndpointSnapshot]
  exact lists_foldl_addConfigEndpoint c.name previous inheritRuntimeHealth h.nodup h.nonempty

end Prepared

/-! ## A runtime lists what its configuration lists -/

section Runtime

variable (sum : String → String)

theorem lists_newCluster {c : ClusterConfig} (h : Prepared c) (previous : Option EndpointSnapshot) :
    (RuntimeCluster.newClusterWithEndpointSnapshot sum c previous).endpointSnapshot.lists =
      c.lists :=
  lists_newEndpointSnapshot h ..

/-- After its endpoints were synchronised with a prepared configuration, a refreshed runtime lists
what the configuration lists. -/
theorem lists_refreshEndpoints {c : ClusterConfig} (h : Prepared c) (r : RuntimeCluster) :
    ((r.syncConfigEndpoints c.endpoints).refreshEndpoints sum).endpointSnapshot.lists = c.lists :=
  lists_newEndpointSnapshot (c := { r.config with endpoints := c.endpoints })
    ⟨h.nodup, h.nonempty⟩ ..

theorem lists_foldl_addNextEndpoint (endpointIDs : List String) (healthy : Bool)
    (l : List Endpoint) (next : EndpointSnapshot) :
    (l.foldl (EndpointSnapshot.addNextEndpoint endpointIDs healthy) next).lists =
      next.lists ++ l.map (·.listing) := by
  induction l generalizing next with
  | nil => simp
  | cons e l ih =>
    have hone : (next.addNextEndpoint endpointIDs healthy e).lists = next.lists ++ [e.listing] := by
      simp only [EndpointSnapshot.addNextEndpoint, EndpointSnapshot.lists]
      split_ifs <;> simp [Endpoint.listing]
    rw [List.foldl_cons, ih, hone, List.append_assoc]
    rfl

/-- Health events move no endpoint. -/
theorem lists_updateEndpointAddressHealth (r : RuntimeCluster) (endpointAddress : String)
    (healthy : Bool) :
    (r.updateEndpointAddressHealth endpointAddress healthy).endpointSnapshot.lists =
      r.endpointSnapshot.lists := by
  simp only [RuntimeCluster.updateEndpointAddressHealth, EndpointSnapshot.withEndpointAddressHealth,
    EndpointSnapshot.withEndpointHealthForIDs]
  split_ifs <;> try rfl
  exact lists_foldl_addNextEndpoint ..

end Runtime

end Pixiu.Cluster
