import Pixiu.Cluster.Manager

/-!
# Optimistic updates of the cluster store

A client of `CompareAndSetStore` takes the version of the store with `CloneStore`, builds a store
with `NewStore` for that version, and offers it; the offer is turned down if the version has
changed.  The version is a 32-bit counter that most methods move, but not the swap itself.

`version_run` says where the counter stands after any calls, and
`compareAndSetStore_rejected_iff` what this means for two clients: after one of them has
succeeded, the other one's offer is turned down exactly if some *other* method moved the counter
meanwhile, by something that is not a multiple of 2³².
-/

namespace Pixiu.Cluster

/-! ## The clients -/

/-- `CloneStore`: a copy through a text form; `clone` is what becomes of the configurations
there. -/
def ClusterManager.cloneStore (clone : List (Option ClusterConfig) → List (Option ClusterConfig))
    (cm : ClusterManager) : ClusterStore where
  config := clone cm.store.config
  version := cm.store.version

/-- `NewStore`. -/
def newStore (version : BitVec 32) : ClusterStore := { version }

/-! ## Which calls move the version -/

/-- The names of `ReplaceXDSClusters` are all there, distinct, and not those of other clusters. -/
def ClusterManager.acceptsAllXDS (cm : ClusterManager) (clusters : List (Option ClusterConfig)) :
    Bool :=
  match ClusterManager.validateXDS (namesOf cm.staticConfigs) [] clusters with
  | .ok _ => true
  | .error _ => false

/-- How far an operation moves the version. -/
def Op.bumps (cm : ClusterManager) : Op → ℕ
  | .addCluster _ | .updateCluster _ | .setEndpoint _ _ | .deleteEndpoint _ _ | .removeCluster _ =>
    1
  | .upsertXDSCluster c => if cm.AcceptsXDS c then 1 else 0
  | .replaceXDSClusters clusters => if cm.acceptsAllXDS clusters then 1 else 0
  | .removeXDSClusters names => if names.any (· ∈ cm.xdsManaged) then 1 else 0
  | .compareAndSetStore _ | .handleEndpointHealth _ _ _ | .moveCursor _ _ => 0

section Run

variable (sum : String → String)

/-- How far calls move the version, one after another. -/
def bumps (cm : ClusterManager) : List Call → ℕ
  | [] => 0
  | call :: calls => call.op.bumps cm + match call.apply sum cm with
      | none => 0
      | some reply => bumps reply.cm calls

end Run

/-! ## The version after a call -/

section Store

variable {sum : String → String} {g : Globals} {s : ClusterStore}

@[simp] theorem updateCluster_version (new : ClusterConfig) :
    (s.updateCluster sum g new).1.version = s.version := by
  rw [ClusterStore.updateCluster]
  split <;> rfl

theorem setEndpointAt_version (clusterName : String) (i : ℕ) (c : ClusterConfig) (e : Endpoint) :
    (s.setEndpointAt sum g clusterName i c e).1.version = s.version := by
  rw [ClusterStore.setEndpointAt]
  split <;> rfl

@[simp] theorem setEndpoint_version (clusterName : String) (e : Option Endpoint) :
    (s.setEndpoint sum g clusterName e).1.version = s.version := by
  cases e with
  | none => rfl
  | some e =>
    simp only [ClusterStore.setEndpoint]
    split <;> exact setEndpointAt_version ..

theorem deleteEndpoint_version {clusterName endpointID : String} {r : ClusterStore × Globals}
    (h : s.deleteEndpoint sum g clusterName endpointID = some r) : r.1.version = s.version := by
  rw [ClusterStore.deleteEndpoint] at h
  split at h
  · dsimp only at h
    split at h
    · cases h
    · cases h
      rfl
    · cases h
      rfl
  · cases h
    rfl

theorem removeClusters_version {names : List String} {s' : ClusterStore}
    (h : s.removeClusters names = some s') : s'.version = s.version + 1 := by
  rw [ClusterStore.removeClusters, Option.map_eq_some_iff] at h
  obtain ⟨_, _, rfl⟩ := h
  rfl

end Store

section Calls

variable {sum : String → String} {cm : ClusterManager}

theorem foldl_publishXDS_version (clusters : List ClusterConfig)
    (state : ClusterStore × ClusterStore × Globals) :
    (clusters.foldl (ClusterManager.publishXDS sum) state).1.version = state.1.version := by
  induction clusters generalizing state with
  | nil => rfl
  | cons c clusters ih =>
    rw [List.foldl_cons, ih]
    rfl

theorem takeOwned_eq_nil_iff (owned : Finset String) (names : List String) :
    ClusterManager.takeOwned owned names = [] ↔ ∀ name ∈ names, name ∉ owned := by
  induction names generalizing owned with
  | nil => simp [ClusterManager.takeOwned]
  | cons name names ih =>
    rw [ClusterManager.takeOwned]
    split_ifs with h
    · simp [h]
    · simp [ih, h]

/-- **One call** moves the version by what the operation bumps. -/
theorem version_apply {call : Call} {r : Reply} (h : call.apply sum cm = some r) :
    r.cm.store.version = cm.store.version + BitVec.ofNat 32 (call.op.bumps cm) := by
  obtain ⟨g, order, op⟩ := call
  cases op with
  | addCluster c =>
    cases h
    exact congrArg ClusterStore.version (enter_store c.name)
  | updateCluster new =>
    cases h
    simp only [ClusterManager.updateCluster, updateCluster_version, enter_store]
    rfl
  | upsertXDSCluster c =>
    rcases upsertXDSCluster_cases h with ⟨hreject, hcm, -⟩ | ⟨c', rfl, haccept, -, -, hcm⟩
    · rw [Op.bumps, if_neg hreject, hcm]
      simp
    · rw [Op.bumps, if_pos haccept]
      rcases hcm with ⟨-, hcm⟩ | ⟨-, -, hcm⟩
      · rw [hcm]
        exact updateCluster_version c'
      · rw [hcm]
        rfl
  | replaceXDSClusters clusters =>
    cases h
    rw [Op.bumps, ClusterManager.acceptsAllXDS, ClusterManager.replaceXDSClusters]
    cases ClusterManager.validateXDS (namesOf cm.staticConfigs) [] clusters with
    | error e => simp
    | ok clusters =>
      simp only [ClusterStore.increaseVersion, foldl_publishXDS_version]
      rfl
  | setEndpoint name endpoint =>
    cases h
    simp only [ClusterManager.setEndpoint, setEndpoint_version, enter_store]
    rfl
  | deleteEndpoint name id =>
    obtain ⟨r', hr', rfl⟩ := Option.map_eq_some_iff.1 h
    exact (deleteEndpoint_version hr').trans (congrArg ClusterStore.version (enter_store name))
  | removeCluster names =>
    obtain ⟨store, hstore, rfl⟩ := Option.map_eq_some_iff.1 h
    rw [foldl_releaseXDSOwnership_store] at hstore
    exact removeClusters_version hstore
  | removeXDSClusters names =>
    simp only [Call.apply, ClusterManager.removeXDSClusters] at h
    have hnil := takeOwned_eq_nil_iff cm.xdsManaged names
    split_ifs at h with htake
    · cases h
      have hnone : ¬ names.any (· ∈ cm.xdsManaged) := by simpa using hnil.1 htake
      rw [Op.bumps, if_neg hnone]
      exact (BitVec.add_zero _).symm
    · obtain ⟨store, hstore, rfl⟩ := Option.map_eq_some_iff.1 h
      have hsome : names.any (· ∈ cm.xdsManaged) := by
        by_contra hnone
        exact htake (hnil.2 (by simpa using hnone))
      rw [Op.bumps, if_pos hsome]
      exact removeClusters_version hstore
  | compareAndSetStore candidate =>
    cases h
    simp only [ClusterManager.compareAndSetStore, Op.bumps, BitVec.add_zero]
    split_ifs with hversion
    · rfl
    · cases candidate with
      | none => rfl
      | some store => exact not_not.1 hversion
  | handleEndpointHealth name address healthy =>
    cases h
    exact (BitVec.add_zero _).symm
  | moveCursor name cursor =>
    cases h
    exact (BitVec.add_zero _).symm

/-- **A run** moves the version by what its calls bump. -/
theorem version_run {calls : List Call} {cm' : ClusterManager} {log : List EndpointStateChange}
    (h : run sum cm calls = some (cm', log)) :
    cm'.store.version = cm.store.version + BitVec.ofNat 32 (bumps sum cm calls) := by
  induction calls generalizing cm log with
  | nil =>
    cases h
    exact (BitVec.add_zero _).symm
  | cons call calls ih =>
    obtain ⟨reply, hreply, rest, hrest, -⟩ := run_cons_eq_some h
    rw [ih hrest, version_apply hreply, bumps, hreply, BitVec.add_assoc, ← BitVec.ofNat_add]

/-- A counter of 32 bits is back after a multiple of 2³² steps. -/
theorem add_ofNat_eq_self_iff (v : BitVec 32) (n : ℕ) :
    v = v + BitVec.ofNat 32 n ↔ n % 2 ^ 32 = 0 := by
  constructor
  · intro h
    have := congrArg BitVec.toNat h
    rw [BitVec.toNat_add, BitVec.toNat_ofNat] at this
    have := v.isLt
    omega
  · intro h
    have hzero : BitVec.ofNat 32 n = 0#32 := by
      apply BitVec.eq_of_toNat_eq
      rw [BitVec.toNat_ofNat, h]
      rfl
    rw [hzero, BitVec.add_zero]

/-! ## Two clients -/

/-- An offer is turned down exactly if the version is another one. -/
theorem compareAndSetStore_result (g : Globals) (order : MapOrder) (store : ClusterStore) :
    (cm.compareAndSetStore sum g order (some store)).result =
      .ok (decide (store.version = cm.store.version)) := by
  simp only [ClusterManager.compareAndSetStore, Option.getD_some]
  split_ifs with h
  · simp [h]
  · simp [not_not.1 h]

/-- **Optimistic concurrency.**  Two clients take the version, one after the other or both at once;
one offers its store with success, and later the other one does.  The second offer is turned down
exactly if the calls since it took the version, the successful offer not counted, moved the
version by something that is not a multiple of 2³². -/
theorem compareAndSetStore_rejected_iff
    (clone : List (Option ClusterConfig) → List (Option ClusterConfig))
    {before after : List Call} {cm₁ cm₂ : ClusterManager} {log₁ log₂ : List EndpointStateChange}
    {first : Call} {offer : ClusterStore} {reply : Reply} (config : List (Option ClusterConfig))
    (hbefore : run sum cm before = some (cm₁, log₁))
    (hop : first.op = .compareAndSetStore (some offer))
    (hfirst : first.apply sum cm₁ = some reply) (_hsuccess : reply.result = .ok true)
    (hafter : run sum reply.cm after = some (cm₂, log₂)) (g : Globals) (order : MapOrder) :
    (cm₂.compareAndSetStore sum g order
        (some { newStore (cm.cloneStore clone).version with config })).result = .ok false ↔
      (bumps sum cm before + bumps sum reply.cm after) % 2 ^ 32 ≠ 0 := by
  have hversion : reply.cm.store.version = cm₁.store.version := by
    rw [version_apply hfirst, hop]
    exact BitVec.add_zero _
  rw [compareAndSetStore_result, version_run hafter, hversion, version_run hbefore,
    BitVec.add_assoc,
    ← BitVec.ofNat_add]
  rw [Ne, ← add_ofNat_eq_self_iff cm.store.version]
  simp only [newStore, ClusterManager.cloneStore, Except.ok.injEq]
  exact decide_eq_false_iff_not

/-- The offer of a client that wants one cluster. -/
def offerOf (version : BitVec 32) (name : String) : ClusterStore :=
  { newStore version with config := [some { name }] }

/-- Both clients take the version of an empty store; a cluster is added between their offers. -/
theorem compareAndSetStore_rejected_addCluster :
    ∃ cm₂ log₂, run id (createDefaultClusterManager id {} [])
        [{ op := .compareAndSetStore (some (offerOf 0 "a")) },
          { op := .addCluster { name := "b" } }] =
        some (cm₂, log₂) ∧
      (cm₂.compareAndSetStore id {} .byOccurrence
        (some { newStore ((createDefaultClusterManager id {} []).cloneStore id).version with
          config := [some { name := "c" }] })).result = .ok false := by
  have hbefore : run id (createDefaultClusterManager id {} []) [] = some (_, []) := rfl
  have hfirst : Call.apply id (createDefaultClusterManager id {} [])
      { op := .compareAndSetStore (some (offerOf 0 "a")) } = some _ := rfl
  have hafter :
      run id ((createDefaultClusterManager id {} []).compareAndSetStore id {} .byOccurrence
      (some (offerOf 0 "a"))).cm [{ op := .addCluster { name := "b" } }] = some (_, _) := rfl
  refine ⟨_, _, rfl, ?_⟩
  refine (compareAndSetStore_rejected_iff id [some { name := "c" }] hbefore rfl hfirst rfl hafter {}
    .byOccurrence).2 ?_
  decide

/-- Two clients take the version of an empty store, and both offers are accepted; what the first
one offered is gone. -/
theorem not_compareAndSetStore_rejected_twoClients :
    ∃ (first second : Reply),
      first = (createDefaultClusterManager id {} []).compareAndSetStore id {} .byOccurrence
        (some (offerOf ((createDefaultClusterManager id {} []).cloneStore id).version "a")) ∧
      second = first.cm.compareAndSetStore id {} .byOccurrence
        (some (offerOf ((createDefaultClusterManager id {} []).cloneStore id).version "b")) ∧
      first.result = .ok true ∧ (first.cm.store.findClusterConfig "a").isSome ∧
      second.result = .ok true ∧ second.cm.store.findClusterConfig "a" = none := by
  exact ⟨_, _, rfl, rfl, rfl, rfl, rfl, rfl⟩

end Calls

end Pixiu.Cluster
