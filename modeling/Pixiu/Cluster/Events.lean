import Pixiu.Base.Replay
import Pixiu.Cluster.Agreement

/-!
# Endpoint events

The handlers of a manager are told which address joins and which one leaves which cluster.  A
handler that starts from the pairs of a name and an address that are in the store, and applies
the changes it is told in the order of their versions, should know the pairs that are in the
store later (`mem_known_received_iff`).

It does, unless one of these happens: xDS upserts a cluster with other addresses, which no handler
is told; `SetEndpoint` is called for the empty name; or a method for one cluster is called for a
name that is in the list twice (`Call.Reported`).
-/

namespace Pixiu.Cluster

open Replay

/-- The cluster and the address of a change. -/
def EndpointStateChange.pair (change : EndpointStateChange) : String × String :=
  (change.clusterName, change.address)

/-- What a handler makes of the changes it is told. -/
def known (pairs : List (String × String)) (changes : List EndpointStateChange) :
    Finset (String × String) :=
  replay EndpointStateChange.pair EndpointStateChange.present pairs.toFinset changes

/-- The pairs of a name and an address in a store. -/
def ClusterStore.pairs (s : ClusterStore) : List (String × String) :=
  endpointAddressSnapshot s.config

section Reported

variable (sum : String → String)

/-- A call whose changes are told as they are. -/
def Call.Reported (cm : ClusterManager) (call : Call) : Prop :=
  match call.op with
  | .updateCluster new => cm.store.names.count new.name ≤ 1
  | .upsertXDSCluster (some c) => cm.AcceptsXDS (some c) →
      ∀ address, (c.name, address) ∈ cm.store.pairs ↔ (c.name, address) ∈ c.pairs
  | .setEndpoint name endpoint => endpoint = none ∨
      ((name ≠ "" ∨ name ∈ cm.store.names) ∧ cm.store.names.count name ≤ 1)
  | .deleteEndpoint name _ => cm.store.names.count name ≤ 1
  | _ => True

/-- Every call is reported where it is made. -/
def ReportedCalls (cm : ClusterManager) : List Call → Prop
  | [] => True
  | call :: calls => call.Reported cm ∧
      ∀ reply, call.apply sum cm = some reply → ReportedCalls reply.cm calls

end Reported

/-! ## The changes between two snapshots -/

section Changes

variable {order : MapOrder} {old new before : List (String × String)} {version : ℕ}

theorem mem_endpointStateChanges {change : EndpointStateChange} :
    change ∈ endpointStateChanges order old new version ↔ change.version = version ∧
      (change.present = true ∧ change.pair ∈ new ∧ change.pair ∉ old ∨
        change.present = false ∧ change.pair ∈ old ∧ change.pair ∉ new) := by
  rw [endpointStateChanges, List.mem_append, List.mem_map, List.mem_map]
  constructor
  · rintro (⟨p, hp, rfl⟩ | ⟨p, hp, rfl⟩)
    · have hp := List.mem_filter.1 hp
      exact ⟨rfl, .inr ⟨rfl, (order.mem_pairs _ _).1 hp.1, of_decide_eq_true hp.2⟩⟩
    · have hp := List.mem_filter.1 hp
      exact ⟨rfl, .inl ⟨rfl, (order.mem_pairs _ _).1 hp.1, of_decide_eq_true hp.2⟩⟩
  · obtain ⟨name, address, present, v⟩ := change
    rintro ⟨rfl, ⟨rfl, hmem, hnot⟩ | ⟨rfl, hmem, hnot⟩⟩
    · exact .inr ⟨(name, address),
        List.mem_filter.2 ⟨(order.mem_pairs _ _).2 hmem, decide_eq_true hnot⟩,
        rfl⟩
    · exact .inl ⟨(name, address),
        List.mem_filter.2 ⟨(order.mem_pairs _ _).2 hmem, decide_eq_true hnot⟩,
        rfl⟩

/-- No pair is told twice. -/
theorem endpointStateChanges_pairwise :
    (endpointStateChanges order old new version).Pairwise fun a b => a.pair ≠ b.pair := by
  rw [endpointStateChanges, List.pairwise_append, List.pairwise_map, List.pairwise_map]
  refine ⟨((order.nodup old).filter _).imp fun h => h, ((order.nodup new).filter _).imp fun h => h,
    ?_⟩
  intro a ha b hb heq
  obtain ⟨p, hp, rfl⟩ := List.mem_map.1 ha
  obtain ⟨q, hq, rfl⟩ := List.mem_map.1 hb
  obtain rfl : p = q := heq
  have hnew := of_decide_eq_true (List.mem_filter.1 hp).2
  exact hnew ((order.mem_pairs _ _).1 (List.mem_filter.1 hq).1)

/-- What a handler knows after the changes between two snapshots. -/
theorem mem_known_endpointStateChanges {p : String × String} :
    p ∈ known before (endpointStateChanges order old new version) ↔
      (p ∈ before ∧ ¬ (p ∈ old ∧ p ∉ new)) ∨ (p ∈ new ∧ p ∉ old) := by
  rw [known, mem_replay_of_pairwise endpointStateChanges_pairwise, List.mem_toFinset]
  have hadded : (∃ e ∈ endpointStateChanges order old new version, e.pair = p ∧ e.present = true) ↔
      p ∈ new ∧ p ∉ old := by
    constructor
    · rintro ⟨e, he, rfl, hpresent⟩
      rcases (mem_endpointStateChanges.1 he).2 with ⟨-, h⟩ | ⟨hgone, -⟩
      · exact h
      · rw [hpresent] at hgone
        cases hgone
    · intro h
      exact ⟨⟨p.1, p.2, true, version⟩, mem_endpointStateChanges.2 ⟨rfl, .inl ⟨rfl, h⟩⟩, rfl, rfl⟩
  have hnone : (∀ e ∈ endpointStateChanges order old new version, e.pair ≠ p) ↔
      ¬ (p ∈ old ∧ p ∉ new) ∧ ¬ (p ∈ new ∧ p ∉ old) := by
    constructor
    · intro h
      refine ⟨fun hgone => ?_, fun hnew => ?_⟩
      · exact h ⟨p.1, p.2, false, version⟩ (mem_endpointStateChanges.2 ⟨rfl, .inr ⟨rfl, hgone⟩⟩) rfl
      · exact h ⟨p.1, p.2, true, version⟩ (mem_endpointStateChanges.2 ⟨rfl, .inl ⟨rfl, hnew⟩⟩) rfl
    · rintro ⟨hgone, hnew⟩ e he rfl
      rcases (mem_endpointStateChanges.1 he).2 with ⟨-, h⟩ | ⟨-, h⟩
      · exact hnew h
      · exact hgone h
  rw [hadded, hnone]
  tauto

end Changes

/-! ## The pairs of a store -/

section Pairs

variable {config : List (Option ClusterConfig)} {p : String × String}

theorem mem_endpointAddressSnapshot :
    p ∈ endpointAddressSnapshot config ↔ ∃ c, some c ∈ config ∧ p ∈ c.pairs := by
  simp [endpointAddressSnapshot]

theorem snapshot_some_cons (c : ClusterConfig) (config : List (Option ClusterConfig)) :
    endpointAddressSnapshot (some c :: config) = c.pairs ++ endpointAddressSnapshot config := rfl

theorem name_of_mem_pairs {c : ClusterConfig} (h : p ∈ c.pairs) : c.name = p.1 := by
  obtain ⟨e, -, rfl⟩ := List.mem_map.1 h
  rfl

/-- The pairs of a name are those of its configurations. -/
theorem mem_endpointAddressSnapshot_filter :
    p ∈ endpointAddressSnapshot config ↔
      p ∈ endpointAddressSnapshot (config.filter (named p.1)) := by
  rw [mem_endpointAddressSnapshot, mem_endpointAddressSnapshot]
  refine exists_congr fun c => and_congr_left fun hp => ?_
  rw [List.mem_filter, named_iff]
  exact (and_iff_left ⟨c, rfl, name_of_mem_pairs hp⟩).symm

theorem length_filter_named (config : List (Option ClusterConfig)) (n : String) :
    (config.filter (named n)).length = (namesOf config).count n := by
  induction config with
  | nil => rfl
  | cons c config ih =>
    cases c with
    | none => exact ih
    | some c =>
      rw [namesOf_some_cons, List.count_cons, List.filter_cons, ← ih]
      by_cases hn : c.name = n
      · simp [named, hn]
      · simp [named, hn]

/-- Of a name that is in the list once, the pairs are those of the configuration that is found. -/
theorem mem_snapshot_find_iff {s : ClusterStore} {n : String} (h : s.names.count n ≤ 1) :
    p ∈ endpointAddressSnapshot [s.findClusterConfig n] ↔ p ∈ s.pairs ∧ p.1 = n := by
  have hfind : s.findClusterConfig n = ((s.config.filter (named n)).head?).join := by
    rw [ClusterStore.findClusterConfig, List.head?_filter]
  have hone : endpointAddressSnapshot [s.findClusterConfig n] =
      endpointAddressSnapshot (s.config.filter (named n)) := by
    rw [ClusterStore.names, ← length_filter_named] at h
    rw [hfind]
    generalize s.config.filter (named n) = found at h
    rcases found with - | ⟨c, - | ⟨d, rest⟩⟩
    · rfl
    · rfl
    · simp at h
  rw [hone]
  constructor
  · intro hp
    obtain ⟨c, hc, hpc⟩ := mem_endpointAddressSnapshot.1 hp
    obtain ⟨hc, hnamed⟩ := List.mem_filter.1 hc
    obtain ⟨c', heq, hname⟩ := named_iff.1 hnamed
    cases heq
    exact ⟨mem_endpointAddressSnapshot.2 ⟨c, hc, hpc⟩, (name_of_mem_pairs hpc).symm.trans hname⟩
  · rintro ⟨hp, rfl⟩
    exact mem_endpointAddressSnapshot_filter.1 hp

variable {sum : String → String}

/-- Preparing a configuration moves no address. -/
theorem pairs_prepareClusterConfig (g : Globals) (c : ClusterConfig) :
    (prepareClusterConfig sum g c).1.pairs = c.pairs := by
  have hname : (prepareClusterConfig sum g c).1.name = c.name := prepareOwnedClusterConfig_name g c
  have haddresses : (prepareClusterConfig sum g c).1.nonNil.map (·.address) =
      c.nonNil.map (·.address) := prepareOwnedClusterConfig_addresses g c
  have hpairs : ∀ c : ClusterConfig, c.pairs =
      (c.nonNil.map (·.address)).map fun a => (c.name, a.getAddress) := fun c => by
    rw [ClusterConfig.pairs, List.map_map]
    rfl
  rw [hpairs, hpairs c, hname, haddresses]

theorem snapshot_ensureLoop
    (runtime : (String → Option RuntimeCluster) → ClusterConfig → RuntimeCluster) (g : Globals)
    (config : List (Option ClusterConfig)) (clustersMap : String → Option RuntimeCluster) :
    endpointAddressSnapshot (ensureLoop sum runtime g config clustersMap).1 =
      endpointAddressSnapshot config := by
  induction config generalizing g clustersMap with
  | nil => rfl
  | cons c config ih =>
    cases c with
    | none => exact ih g clustersMap
    | some c =>
      rw [ensureLoop, snapshot_some_cons, snapshot_some_cons, ih, pairs_prepareClusterConfig]

end Pairs

/-! ## One cluster -/

section One

variable {s s' : ClusterStore} {name : String} {p : String × String} {sum : String → String}

/-- The pairs of other clusters stay. -/
theorem Touch.mem_pairs_iff (h : Touch s s' name) (hp : p.1 ≠ name) :
    p ∈ s'.pairs ↔ p ∈ s.pairs := by
  rw [ClusterStore.pairs, ClusterStore.pairs, mem_endpointAddressSnapshot_filter, (h.frame hp).1,
    ← mem_endpointAddressSnapshot_filter]

theorem Touch.count_le_one (h : Touch s s' name) (hcount : s.names.count name ≤ 1) :
    s'.names.count name ≤ 1 := by
  cases h with
  | keep hconfig _ => rwa [ClusterStore.names, hconfig]
  | edit hfound hname hconfig _ _ _ =>
    rwa [ClusterStore.names, hconfig, namesOf_set hfound.getElem (hname.trans hfound.name_eq.symm)]
  | add habsent _ hconfig _ _ _ =>
    rw [ClusterStore.names, hconfig, namesOf_append, List.count_append]
    rw [ClusterStore.names, ← List.count_eq_zero] at habsent
    rw [habsent, Nat.zero_add]
    exact List.count_le_length

end One

/-! ## What one call tells -/

section Tell

variable {sum : String → String} {cm : ClusterManager} {order : MapOrder} {s s' : ClusterStore}
  {old new : List (String × String)} {version : ℕ}

/-- From the pairs of one store, changes lead to those of the next. -/
def Tells (s s' : ClusterStore) (changes : List EndpointStateChange) : Prop :=
  ∀ p, p ∈ known s.pairs changes ↔ p ∈ s'.pairs

theorem tells_nil (h : ∀ p, p ∈ s'.pairs ↔ p ∈ s.pairs) : Tells s s' [] := fun p => by
  rw [h, known, replay, List.foldl_nil, List.mem_toFinset]

/-- Whole stores are compared. -/
theorem tells_of_snapshots (hold : ∀ p, p ∈ old ↔ p ∈ s.pairs)
    (hnew : ∀ p, p ∈ new ↔ p ∈ s'.pairs) :
    Tells s s' (endpointStateChanges order old new version) := by
  intro p
  rw [mem_known_endpointStateChanges, hold, hnew]
  tauto

/-- A store that keeps its pairs is compared with itself. -/
theorem tells_same (h : ∀ p, p ∈ s'.pairs ↔ p ∈ s.pairs) :
    Tells s s' (endpointStateChanges order old old version) := by
  intro p
  rw [mem_known_endpointStateChanges, h]
  tauto

/-- One name is compared, and the others have the pairs that they had. -/
theorem tells_of_frame {name : String} (hframe : ∀ p, p.1 ≠ name → (p ∈ s'.pairs ↔ p ∈ s.pairs))
    (hold : ∀ p, p ∈ old ↔ p ∈ s.pairs ∧ p.1 = name)
    (hnew : ∀ p, p ∈ new ↔ p ∈ s'.pairs ∧ p.1 = name) :
    Tells s s' (endpointStateChanges order old new version) := by
  intro p
  have hframe := hframe p
  rw [mem_known_endpointStateChanges, hold, hnew]
  tauto

/-- A method that compares what is found under its name before and after. -/
theorem Touch.tells {name : String} (h : Touch s s' name) (hcount : s.names.count name ≤ 1) :
    Tells s s' (endpointStateChanges order (endpointAddressSnapshot [s.findClusterConfig name])
      (endpointAddressSnapshot [s'.findClusterConfig name]) version) :=
  tells_of_frame (fun _ hp => h.mem_pairs_iff hp) (fun _ => mem_snapshot_find_iff hcount)
    fun _ => mem_snapshot_find_iff (h.count_le_one hcount)

theorem pairs_addCluster (g : Globals) (c : ClusterConfig) :
    (s.addCluster sum g c).1.pairs = s.pairs ++ (admitCluster sum g c).1.pairs := by
  simp [ClusterStore.pairs, endpointAddressSnapshot, ClusterStore.addCluster, ClusterStore.append,
    ClusterStore.setRuntime]

theorem addCluster_tells (g : Globals) (c : ClusterConfig) :
    Tells s (s.addCluster sum g c).1 (endpointStateChanges order []
      (endpointAddressSnapshot [some (admitCluster sum g c).1]) version) := by
  intro p
  rw [mem_known_endpointStateChanges, pairs_addCluster, List.mem_append, snapshot_some_cons]
  simp [endpointAddressSnapshot]

/-- `UpdateCluster` compares with its argument, not with what is in the store later. -/
theorem updateCluster_tells (g : Globals) (c : ClusterConfig) (hcount : s.names.count c.name ≤ 1) :
    Tells s (s.updateCluster sum g c).1 (endpointStateChanges order
      (endpointAddressSnapshot [s.findClusterConfig c.name])
      (if (s.findClusterConfig c.name).isSome then endpointAddressSnapshot [some c]
        else endpointAddressSnapshot [s.findClusterConfig c.name]) version) := by
  have htouch : Touch s (s.updateCluster sum g c).1 c.name := updateCluster_touch c
  suffices hnew : (if (s.findClusterConfig c.name).isSome then endpointAddressSnapshot [some c]
      else endpointAddressSnapshot [s.findClusterConfig c.name]) =
      endpointAddressSnapshot [(s.updateCluster sum g c).1.findClusterConfig c.name] by
    rw [hnew]
    exact htouch.tells hcount
  rcases find_cases s c.name with ⟨hindex, hnone, -⟩ | ⟨i, c₀, hfound⟩
  · rw [hnone, ClusterStore.updateCluster, hindex]
    simp [hnone]
  · have hafter : (s.updateCluster sum g c).1.findClusterConfig c.name =
        some (prepareClusterConfig sum g c).1 := by
      refine (hfound.set (prepareOwnedClusterConfig_name g c) ?_).config
      rw [ClusterStore.updateCluster, hfound.index]
      rfl
    rw [hfound.config, hafter, Option.isSome_some, if_pos rfl, snapshot_some_cons,
      snapshot_some_cons,
      pairs_prepareClusterConfig]

/-- xDS tells nothing of an update; the pairs are the same if those of the name were those of the
configuration. -/
theorem mem_pairs_updateCluster (g : Globals) {c : ClusterConfig}
    (h : ∀ address, (c.name, address) ∈ s.pairs ↔ (c.name, address) ∈ c.pairs)
    (p : String × String) :
    p ∈ (s.updateCluster sum g c).1.pairs ↔ p ∈ s.pairs := by
  have htouch : Touch s (s.updateCluster sum g c).1 c.name := updateCluster_touch c
  by_cases hp : p.1 = c.name
  · have h : p ∈ s.pairs ↔ p ∈ c.pairs := by
      have := h p.2
      rwa [← hp] at this
    rcases find_cases s c.name with ⟨hindex, -, -⟩ | ⟨i, c₀, hfound⟩
    · rw [ClusterStore.updateCluster, hindex]
    · have hconfig : (s.updateCluster sum g c).1.config =
          s.config.set i (some (prepareClusterConfig sum g c).1) := by
        rw [ClusterStore.updateCluster, hfound.index]
        rfl
      rw [ClusterStore.pairs, hconfig, mem_endpointAddressSnapshot]
      constructor
      · rintro ⟨c', hc', hpc'⟩
        rcases List.mem_or_eq_of_mem_set hc' with hc' | hc'
        · exact mem_endpointAddressSnapshot.2 ⟨c', hc', hpc'⟩
        · cases hc'
          rwa [h, ← pairs_prepareClusterConfig g c]
      · intro hs
        refine ⟨_, List.mem_set (List.getElem?_eq_some_iff.1 hfound.getElem).1 _, ?_⟩
        rwa [pairs_prepareClusterConfig, ← h]
  · exact htouch.mem_pairs_iff hp

/-- An unchanged store of another version has the same pairs. -/
theorem Tells.of_config {s₀ : ClusterStore} {changes : List EndpointStateChange}
    (h : Tells s s' changes)
    (hconfig : s.config = s₀.config) : Tells s₀ s' changes := by
  intro p
  have hpairs : s₀.pairs = s.pairs := by rw [ClusterStore.pairs, ← hconfig]; rfl
  rw [hpairs]
  exact h p

theorem compareAndSetStore_tells (g : Globals) (candidate : Option ClusterStore) :
    Tells cm.store (cm.compareAndSetStore sum g order candidate).cm.store
      (cm.compareAndSetStore sum g order candidate).changes := by
  rw [ClusterManager.compareAndSetStore]
  split_ifs with hversion
  · exact tells_nil fun _ => Iff.rfl
  · refine tells_of_snapshots (fun _ => Iff.rfl) fun p => ?_
    cases candidate with
    | none =>
      simp only [ClusterStore.pairs, ClusterStore.carryOverRuntimeStateFrom,
        ClusterStore.ensureRuntimeClusters, snapshot_ensureLoop, Option.getD_none]
    | some store =>
      simp only [ClusterStore.pairs, ClusterStore.carryOverRuntimeStateFrom,
        ClusterStore.ensureRuntimeClustersFrom, snapshot_ensureLoop, Option.getD_some]

theorem touch_of_enter {name : String} (h : Touch (cm.enter name).store s' name) :
    Touch cm.store s' name := by
  rw [enter_store] at h
  exact h.of_increaseVersion

theorem setEndpoint_tells (g : Globals) {name : String} {endpoint : Option Endpoint}
    (h : endpoint = none ∨
      ((name ≠ "" ∨ name ∈ cm.store.names) ∧ cm.store.names.count name ≤ 1)) :
    Tells cm.store (cm.setEndpoint sum g order name endpoint).cm.store
      (cm.setEndpoint sum g order name endpoint).changes := by
  rcases h with rfl | ⟨hname, hcount⟩
  · have hfind : cm.store.increaseVersion.findClusterConfig name =
        cm.store.findClusterConfig name := rfl
    simp only [ClusterManager.setEndpoint, ClusterStore.setEndpoint, enter_store, hfind]
    exact tells_same fun _ => Iff.rfl
  · have hcases : Touch (cm.enter name).store
        ((cm.enter name).store.setEndpoint sum g name endpoint).1 name ∨ _ :=
      setEndpoint_cases name endpoint
    rcases hcases with htouch | ⟨-, hempty, habsent, -⟩
    · exact (touch_of_enter htouch).tells hcount
    · rw [enter_store] at habsent
      rcases hname with hname | hname
      · exact absurd hempty hname
      · exact absurd hname habsent

/-- **One reported call** tells what it does. -/
theorem tells_apply {call : Call} {reply : Reply} (hreported : call.Reported cm)
    (hreply : call.apply sum cm = some reply) : Tells cm.store reply.cm.store reply.changes := by
  obtain ⟨g, order, op⟩ := call
  have hbump : cm.store.increaseVersion.config = cm.store.config := rfl
  cases op with
  | addCluster c =>
    cases hreply
    refine Tells.of_config (s := (cm.enter c.name).store) (addCluster_tells g c) ?_
    rw [enter_store, hbump]
  | updateCluster new =>
    cases hreply
    simp only [ClusterManager.updateCluster, enter_store]
    exact Tells.of_config (s := cm.store.increaseVersion) (updateCluster_tells g new hreported)
      hbump
  | upsertXDSCluster c =>
    rcases upsertXDSCluster_cases hreply with ⟨-, hcm, hchanges, -⟩ |
      ⟨c', rfl, haccept, hchanges, -, hcm⟩
    · rw [hcm, hchanges]
      exact tells_nil fun _ => Iff.rfl
    · have hpairs := hreported haccept
      rw [hchanges]
      refine tells_nil fun p => ?_
      rcases hcm with ⟨-, hcm⟩ | ⟨-, hhas, hcm⟩
      · rw [hcm]
        exact mem_pairs_updateCluster (s := cm.store.increaseVersion) g hpairs p
      · have hadmit : admitCluster sum g c' = prepareClusterConfig sum g c' := if_neg haccept.1
        rw [hcm, pairs_addCluster, hadmit, pairs_prepareClusterConfig, List.mem_append]
        refine or_iff_left_of_imp fun hp => ?_
        have hpair : p = (c'.name, p.2) := by rw [name_of_mem_pairs hp]
        rw [hpair] at hp ⊢
        exact (hpairs p.2).2 hp
  | replaceXDSClusters clusters =>
    cases hreply
    rw [ClusterManager.replaceXDSClusters]
    split
    next => exact tells_nil fun _ => Iff.rfl
    next => exact tells_of_snapshots (fun _ => Iff.rfl) fun _ => Iff.rfl
  | setEndpoint name endpoint =>
    cases hreply
    exact setEndpoint_tells g hreported
  | deleteEndpoint name id =>
    obtain ⟨done, hdone, rfl⟩ := Option.map_eq_some_iff.1 hreply
    exact (touch_of_enter (deleteEndpoint_touch hdone)).tells hreported
  | removeCluster names =>
    obtain ⟨store, hstore, rfl⟩ := Option.map_eq_some_iff.1 hreply
    exact tells_of_snapshots (fun _ => Iff.rfl) fun _ => Iff.rfl
  | removeXDSClusters names =>
    simp only [Call.apply, ClusterManager.removeXDSClusters] at hreply
    split_ifs at hreply
    · cases hreply
      exact tells_nil fun _ => Iff.rfl
    · obtain ⟨store, hstore, rfl⟩ := Option.map_eq_some_iff.1 hreply
      exact tells_of_snapshots (fun _ => Iff.rfl) fun _ => Iff.rfl
  | compareAndSetStore candidate =>
    cases hreply
    exact compareAndSetStore_tells g candidate
  | handleEndpointHealth name address healthy =>
    cases hreply
    exact tells_nil fun _ => Iff.rfl
  | moveCursor name cursor =>
    cases hreply
    exact tells_nil fun _ => Iff.rfl

end Tell

/-! ## The versions of the changes -/

section Versions

variable {sum : String → String} {cm cm' : ClusterManager} {log : List EndpointStateChange}

@[simp] theorem enter_nextEndpointEventID (name : String) :
    (cm.enter name).nextEndpointEventID = cm.nextEndpointEventID + 1 := by
  simp only [ClusterManager.enter, ClusterManager.nextEndpointEvent,
    ClusterManager.releaseXDSOwnership]
  split_ifs <;> rfl

@[simp] theorem foldl_releaseXDSOwnership_nextEndpointEventID (names : List String)
    (cm : ClusterManager) :
    (names.foldl ClusterManager.releaseXDSOwnership cm).nextEndpointEventID =
      cm.nextEndpointEventID := by
  induction names generalizing cm with
  | nil => rfl
  | cons name names ih =>
    rw [List.foldl_cons, ih, ClusterManager.releaseXDSOwnership]
    split_ifs <;> rfl

/-- A call tells nothing, or the changes between two snapshots under a new version. -/
theorem changes_cases {call : Call} {reply : Reply} (h : call.apply sum cm = some reply) :
    (reply.changes = [] ∧ cm.nextEndpointEventID ≤ reply.cm.nextEndpointEventID) ∨
      (reply.cm.nextEndpointEventID = cm.nextEndpointEventID + 1 ∧ ∃ old new,
        reply.changes = endpointStateChanges call.order old new reply.cm.nextEndpointEventID) := by
  obtain ⟨g, order, op⟩ := call
  cases op with
  | addCluster c =>
    cases h
    exact .inr ⟨enter_nextEndpointEventID _, _, _, rfl⟩
  | updateCluster new =>
    cases h
    exact .inr ⟨enter_nextEndpointEventID _, _, _, rfl⟩
  | upsertXDSCluster c =>
    rcases upsertXDSCluster_cases h with ⟨-, hcm, hchanges, -⟩ | ⟨c', -, -, hchanges, -, hcm⟩
    · exact .inl ⟨hchanges, by rw [hcm]⟩
    · rcases hcm with ⟨-, hcm⟩ | ⟨-, -, hcm⟩ <;> exact .inl ⟨hchanges, by rw [hcm]⟩
  | replaceXDSClusters clusters =>
    cases h
    rw [ClusterManager.replaceXDSClusters]
    split
    next => exact .inl ⟨rfl, le_rfl⟩
    next => exact .inr ⟨rfl, _, _, rfl⟩
  | setEndpoint name endpoint =>
    cases h
    exact .inr ⟨enter_nextEndpointEventID _, _, _, rfl⟩
  | deleteEndpoint name id =>
    obtain ⟨done, -, rfl⟩ := Option.map_eq_some_iff.1 h
    exact .inr ⟨enter_nextEndpointEventID _, _, _, rfl⟩
  | removeCluster names =>
    obtain ⟨store, -, rfl⟩ := Option.map_eq_some_iff.1 h
    exact .inr ⟨foldl_releaseXDSOwnership_nextEndpointEventID .., _, _, rfl⟩
  | removeXDSClusters names =>
    simp only [Call.apply, ClusterManager.removeXDSClusters] at h
    split_ifs at h
    · cases h
      exact .inl ⟨rfl, Nat.le_succ _⟩
    · obtain ⟨store, -, rfl⟩ := Option.map_eq_some_iff.1 h
      exact .inr ⟨rfl, _, _, rfl⟩
  | compareAndSetStore candidate =>
    cases h
    rw [ClusterManager.compareAndSetStore]
    split_ifs
    · exact .inl ⟨rfl, le_rfl⟩
    · exact .inr ⟨rfl, _, _, rfl⟩
  | handleEndpointHealth name address healthy =>
    cases h
    exact .inl ⟨rfl, le_rfl⟩
  | moveCursor name cursor =>
    cases h
    exact .inl ⟨rfl, le_rfl⟩

/-- Versions grow along a log, and no pair has two changes of one version. -/
structure Ordered (start : ℕ) (log : List EndpointStateChange) : Prop where
  above : ∀ change ∈ log, start < change.version
  sorted : log.Pairwise fun a b => a.version ≤ b.version
  distinct : log.Pairwise fun a b => a.pair = b.pair → a.version ≠ b.version

theorem ordered_endpointStateChanges (order : MapOrder) (old new : List (String × String))
    (start : ℕ)
    (h : Ordered (start + 1) log) :
    Ordered start (endpointStateChanges order old new (start + 1) ++ log) := by
  have hversion : ∀ change ∈ endpointStateChanges order old new (start + 1), change.version =
      start + 1 :=
    fun change hchange => (mem_endpointStateChanges.1 hchange).1
  refine ⟨fun change hchange => ?_, List.pairwise_append.2 ⟨?_, h.sorted, fun a ha b hb => ?_⟩,
    List.pairwise_append.2 ⟨?_, h.distinct, fun a ha b hb _ => ?_⟩⟩
  · rcases List.mem_append.1 hchange with hchange | hchange
    · exact (hversion change hchange).symm ▸ Nat.lt_succ_self start
    · exact (Nat.lt_succ_self start).trans (h.above change hchange)
  · exact List.pairwise_of_forall_mem_list fun a ha b hb =>
      (hversion a ha).trans (hversion b hb).symm |>.le
  · exact hversion a ha ▸ (h.above b hb).le
  · exact endpointStateChanges_pairwise.imp fun hne heq => absurd heq hne
  · exact hversion a ha ▸ (h.above b hb).ne

/-- **A whole log** is in the order of its versions. -/
theorem ordered_run {calls : List Call} (hrun : run sum cm calls = some (cm', log)) :
    Ordered cm.nextEndpointEventID log := by
  induction calls generalizing cm log with
  | nil =>
    cases hrun
    exact ⟨nofun, .nil, .nil⟩
  | cons call calls ih =>
    obtain ⟨reply, hreply, rest, hrest, rfl⟩ := run_cons_eq_some hrun
    have ih := ih hrest
    rcases changes_cases hreply with ⟨hchanges, hle⟩ | ⟨hnext, old, new, hchanges⟩
    · rw [hchanges, List.nil_append]
      exact ⟨fun change hchange => hle.trans_lt (ih.above change hchange), ih.sorted, ih.distinct⟩
    · rw [hnext] at hchanges ih
      rw [hchanges]
      exact ordered_endpointStateChanges _ _ _ _ ih

end Versions

/-! ## Runs -/

section Run

variable {sum : String → String} {cm cm' : ClusterManager} {log : List EndpointStateChange}
  {calls : List Call}

/-- **Reported calls** tell what they do. -/
theorem tells_run (hreported : ReportedCalls sum cm calls)
    (hrun : run sum cm calls = some (cm', log)) :
    Tells cm.store cm'.store log := by
  induction calls generalizing cm log with
  | nil =>
    cases hrun
    exact tells_nil fun _ => Iff.rfl
  | cons call calls ih =>
    obtain ⟨reply, hreply, rest, hrest, rfl⟩ := run_cons_eq_some hrun
    have hfirst : known cm.store.pairs reply.changes = reply.cm.store.pairs.toFinset := by
      ext p
      rw [List.mem_toFinset]
      exact tells_apply hreported.1 hreply p
    intro p
    have hrest := ih (hreported.2 reply hreply) hrest p
    rwa [known, ← hfirst, known, ← replay_append] at hrest

/-- **The events are a faithful log**: a handler that gets the changes of reported calls, in
whatever order, and applies them by their versions, knows the pairs of the store. -/
theorem mem_known_received_iff (hreported : ReportedCalls sum cm calls)
    (hrun : run sum cm calls = some (cm', log)) {received : List EndpointStateChange}
    (hperm : received.Perm log) (hsorted : received.Pairwise fun a b => a.version ≤ b.version)
    (p : String × String) : p ∈ known cm.store.pairs received ↔ p ∈ cm'.store.pairs := by
  have hordered := ordered_run hrun
  rw [known, replay_of_perm hordered.sorted hordered.distinct hperm hsorted]
  exact tells_run hreported hrun p

/-- An endpoint joins a cluster of the bootstrap, and the cluster is removed. -/
theorem mem_known_received_joinAndRemove : ∃ cm' log,
    run id (createDefaultClusterManager id {} [{ name := "a" }])
      [{ op := .setEndpoint "a" (some { id := "1" }) }, { op := .removeCluster ["a"] }] =
        some (cm', log) ∧
    ∀ p, p ∈ known (createDefaultClusterManager id {} [{ name := "a" }]).store.pairs log ↔
      p ∈ cm'.store.pairs := by
  have hrun : run id (createDefaultClusterManager id {} [{ name := "a" }])
      [{ op := .setEndpoint "a" (some { id := "1" }) }, { op := .removeCluster ["a"] }] =
        some (_, _) := rfl
  refine ⟨_, _, hrun, mem_known_received_iff ?_ hrun (List.Perm.refl _) ?_⟩
  · exact ⟨.inr ⟨.inl (by decide), by decide⟩, fun _ _ => ⟨trivial, fun _ _ => trivial⟩⟩
  · exact (ordered_run hrun).sorted

/-- xDS adds a cluster with an endpoint, and no handler is told. -/
theorem not_mem_known_received_upserted : ∃ cm' log,
    run id (createDefaultClusterManager id {} [])
      [{ op := .upsertXDSCluster (some { name := "x", endpoints := [some { id := "1" }] }) }] =
        some (cm', log) ∧
    log = [] ∧ ("x", ":0") ∈ cm'.store.pairs ∧
      ("x", ":0") ∉ known (createDefaultClusterManager id {} []).store.pairs log :=
  ⟨_, _, rfl, rfl, by decide +kernel, by decide +kernel⟩

end Run

end Pixiu.Cluster
