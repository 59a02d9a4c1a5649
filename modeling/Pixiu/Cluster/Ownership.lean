import Pixiu.Cluster.Effects

/-!
# xDS ownership

xDS owns clusters by name.  Its methods may only touch what it owns: every other cluster keeps
its configurations and its runtime (`firewall_upsert`, `firewall_replace`, `firewall_remove`).
And in every reachable state the owned names are names of the store (`owning_of_reachable`):
whoever else touches a cluster releases it.
-/

namespace Pixiu.Cluster

/-- The owned names are names of the store, and none is empty. -/
def Owning (cm : ClusterManager) : Prop := ∀ n ∈ cm.xdsManaged, n ≠ "" ∧ n ∈ cm.store.names

/-- Every cluster that xDS did not own has the configurations and the runtime it had. -/
def Firewall (cm cm' : ClusterManager) : Prop :=
  ∀ n ∈ cm.store.names, n ∉ cm.xdsManaged →
    cm'.store.config.filter (named n) = cm.store.config.filter (named n) ∧
      cm'.store.findClusterConfig n = cm.store.findClusterConfig n ∧
      cm'.store.clustersMap n = cm.store.clustersMap n

/-! ## Owned names -/

section Owned

variable {sum : String → String} {cm : ClusterManager}

theorem mem_enter_xdsManaged {n name : String} (h : n ∈ (cm.enter name).xdsManaged) :
    n ∈ cm.xdsManaged := by
  simp only [ClusterManager.enter, ClusterManager.nextEndpointEvent,
    ClusterManager.releaseXDSOwnership] at h
  split_ifs at h
  · exact Finset.mem_of_mem_erase h
  · exact h

theorem mem_foldl_releaseXDSOwnership {names : List String} {n : String} :
    n ∈ (names.foldl ClusterManager.releaseXDSOwnership cm).xdsManaged ↔
      n ∈ cm.xdsManaged ∧ (n ∈ names → n = "") := by
  induction names generalizing cm with
  | nil => simp
  | cons name names ih =>
    rw [List.foldl_cons, ih, ClusterManager.releaseXDSOwnership]
    split_ifs with hempty
    · simp only [Finset.mem_erase, List.mem_cons]
      constructor
      · rintro ⟨⟨hne, hmem⟩, hrest⟩
        exact ⟨hmem, fun h => hrest (h.resolve_left hne)⟩
      · rintro ⟨hmem, hall⟩
        exact ⟨⟨fun heq => hempty (heq ▸ hall (.inl heq)), hmem⟩, fun h => hall (.inr h)⟩
    · rw [not_not] at hempty
      simp only [List.mem_cons, hempty]
      constructor
      · rintro ⟨hmem, hrest⟩
        exact ⟨hmem, fun h => h.elim id hrest⟩
      · rintro ⟨hmem, hall⟩
        exact ⟨hmem, fun h => hall (.inr h)⟩

theorem takeOwned_subset {owned : Finset String} {names : List String} {n : String}
    (h : n ∈ ClusterManager.takeOwned owned names) : n ∈ owned := by
  induction names generalizing owned with
  | nil => cases h
  | cons name names ih =>
    rw [ClusterManager.takeOwned] at h
    split_ifs at h with howned
    · rcases List.mem_cons.1 h with rfl | h
      · exact howned
      · exact Finset.mem_of_mem_erase (ih h)
    · exact ih h

/-- Removing leaves the names that were not to be removed. -/
theorem mem_names_removeClusters {s s' : ClusterStore} {names : List String}
    (h : s.removeClusters names = some s') (n : String) :
    n ∈ s'.names ↔ n ∈ s.names ∧ n ∉ names := by
  obtain ⟨⟨config, m⟩, hloop, rfl⟩ := Option.map_eq_some_iff.1 h
  obtain ⟨rfl, -⟩ := removeLoop_eq hloop
  simp only [ClusterStore.names, mem_namesOf_iff, List.mem_filter]
  constructor
  · rintro ⟨c, ⟨hmem, hkeep⟩, rfl⟩
    exact ⟨⟨c, hmem, rfl⟩, by simpa using hkeep⟩
  · rintro ⟨⟨c, hmem, rfl⟩, hkeep⟩
    exact ⟨c, ⟨hmem, by simpa using hkeep⟩, rfl⟩

theorem names_append (s : ClusterStore) (c : ClusterConfig) :
    (s.append sum c).names = s.names ++ [c.name] := by
  simp [ClusterStore.names, ClusterStore.append, ClusterStore.setRuntime]

theorem Owning.mono {cm' : ClusterManager} (h : Owning cm)
    (howned : ∀ n ∈ cm'.xdsManaged, n ∈ cm.xdsManaged) (hnames : cm.store.names ⊆ cm'.store.names) :
    Owning cm' := by
  intro n hn
  obtain ⟨hempty, hmem⟩ := h n (howned n hn)
  exact ⟨hempty, hnames hmem⟩

theorem enter_names (name : String) : (cm.enter name).store.names = cm.store.names := by
  rw [enter_store]
  rfl

variable (sum) in
theorem names_foldl_publishXDS (clusters : List ClusterConfig)
    (state : ClusterStore × ClusterStore × Globals) :
    (clusters.foldl (ClusterManager.publishXDS sum) state).1.names =
      state.1.names ++ clusters.map (·.name) := by
  obtain ⟨built, hbuilt, hconfig, -⟩ := foldl_publishXDS sum clusters state
  rw [ClusterStore.names, hconfig, namesOf_append, namesOf_map_some, built_names hbuilt]
  rfl

/-- **One call** keeps the owned names among the names of the store. -/
theorem owning_apply {call : Call} {reply : Reply} (h : Owning cm)
    (hreply : call.apply sum cm = some reply) : Owning reply.cm := by
  obtain ⟨g, order, op⟩ := call
  cases op with
  | addCluster c =>
    cases hreply
    intro n hn
    obtain ⟨hempty, hmem⟩ := h n (mem_enter_xdsManaged hn)
    refine ⟨hempty, ?_⟩
    simp only [ClusterManager.addCluster, ClusterStore.addCluster, names_append, enter_store]
    exact List.mem_append_left _ hmem
  | updateCluster new =>
    cases hreply
    refine h.mono (fun n => mem_enter_xdsManaged) ?_
    rw [← enter_names new.name]
    exact (updateCluster_touch new).names_subset
  | upsertXDSCluster c =>
    rcases upsertXDSCluster_cases hreply with ⟨-, hcm, -⟩ | ⟨c', rfl, haccept, -, -, hcm⟩
    · rwa [hcm]
    · rcases hcm with ⟨-, hcm⟩ | ⟨-, -, hcm⟩
      · rw [hcm]
        exact h.mono (fun n hn => hn) (updateCluster_touch c').of_increaseVersion.names_subset
      · rw [hcm]
        intro n hn
        rw [ClusterStore.addCluster, names_append, admitCluster_name, admittedName,
          if_neg haccept.1]
        rcases Finset.mem_insert.1 hn with rfl | hn
        · exact ⟨haccept.1, by simp⟩
        · obtain ⟨hempty, hmem⟩ := h n hn
          exact ⟨hempty, List.mem_append_left _ hmem⟩
  | replaceXDSClusters clusters =>
    cases hreply
    rw [ClusterManager.replaceXDSClusters]
    split
    · exact h
    next valid hvalid =>
      intro n hn
      obtain ⟨c, hc, rfl⟩ := List.mem_map.1 (List.mem_toFinset.1 hn)
      refine ⟨((validateXDS_eq_ok hvalid).2.2 c hc).1, ?_⟩
      simp only [ClusterStore.increaseVersion, ClusterStore.names]
      have := names_foldl_publishXDS sum valid (cm.staticStore, cm.store, g)
      rw [ClusterStore.names] at this
      rw [this]
      exact List.mem_append_right _ (List.mem_map_of_mem hc)
  | setEndpoint name endpoint =>
    cases hreply
    refine h.mono (fun n => mem_enter_xdsManaged) ?_
    rw [← enter_names name]
    rcases setEndpoint_cases name endpoint with htouch | ⟨-, hstray⟩
    · exact htouch.names_subset
    · exact hstray.names_subset
  | deleteEndpoint name id =>
    obtain ⟨done, hdone, rfl⟩ := Option.map_eq_some_iff.1 hreply
    refine h.mono (fun n => mem_enter_xdsManaged) ?_
    rw [← enter_names name]
    exact (deleteEndpoint_touch hdone).names_subset
  | removeCluster names =>
    obtain ⟨store, hstore, rfl⟩ := Option.map_eq_some_iff.1 hreply
    rw [foldl_releaseXDSOwnership_store] at hstore
    intro n hn
    obtain ⟨hmem, hreleased⟩ := mem_foldl_releaseXDSOwnership.1 hn
    obtain ⟨hempty, hname⟩ := h n hmem
    exact ⟨hempty, (mem_names_removeClusters hstore n).2
      ⟨hname, fun hdel => hempty (hreleased hdel)⟩⟩
  | removeXDSClusters names =>
    simp only [Call.apply, ClusterManager.removeXDSClusters] at hreply
    split_ifs at hreply with hnone
    · cases hreply
      intro n hn
      exact h n (Finset.mem_sdiff.1 hn).1
    · obtain ⟨store, hstore, rfl⟩ := Option.map_eq_some_iff.1 hreply
      intro n hn
      obtain ⟨hmem, hkept⟩ := Finset.mem_sdiff.1 hn
      obtain ⟨hempty, hname⟩ := h n hmem
      exact ⟨hempty, (mem_names_removeClusters hstore n).2
        ⟨hname, fun hdel => hkept (List.mem_toFinset.2 hdel)⟩⟩
  | compareAndSetStore candidate =>
    cases hreply
    rw [ClusterManager.compareAndSetStore]
    split_ifs
    · exact h
    · intro n hn
      exact absurd hn (Finset.notMem_empty n)
  | handleEndpointHealth name address healthy =>
    cases hreply
    exact h
  | moveCursor name cursor =>
    cases hreply
    exact h

/-- The owned names are names of the store in every reachable state. -/
theorem owning_of_reachable (h : cm.Reachable sum) : Owning cm := by
  obtain ⟨g, clusters, calls, log, hrun⟩ := h
  refine run_induction (fun _ _ _ h hreply => owning_apply h hreply) hrun ?_
  intro n hn
  exact absurd hn (Finset.notMem_empty n)

end Owned

/-! ## The firewall -/

section Firewall

variable {sum : String → String} {cm : ClusterManager}

theorem findClusterConfig_eq_head? (s : ClusterStore) (name : String) :
    s.findClusterConfig name = ((s.config.filter (named name)).head?).join := by
  rw [ClusterStore.findClusterConfig, List.head?_filter]

/-- The configurations of a name and its runtime are all there is to see of a cluster. -/
theorem firewall_of_filter {cm' : ClusterManager}
    (hconfig : ∀ n ∈ cm.store.names, n ∉ cm.xdsManaged →
      cm'.store.config.filter (named n) = cm.store.config.filter (named n))
    (hmap : ∀ n ∈ cm.store.names, n ∉ cm.xdsManaged →
      cm'.store.clustersMap n = cm.store.clustersMap n) : Firewall cm cm' := by
  intro n hn howned
  refine ⟨hconfig n hn howned, ?_, hmap n hn howned⟩
  rw [findClusterConfig_eq_head?, findClusterConfig_eq_head?, hconfig n hn howned]

theorem firewall_upsert {g : Globals} {c : Option ClusterConfig} {r : Reply}
    (h : cm.upsertXDSCluster sum g c = some r) : Firewall cm r.cm := by
  rcases upsertXDSCluster_cases h with ⟨-, hcm, -⟩ | ⟨c', rfl, haccept, -, -, hcm⟩
  · rw [hcm]
    exact fun n _ _ => ⟨rfl, rfl, rfl⟩
  · rcases hcm with ⟨howned, hcm⟩ | ⟨hnew, hhas, hcm⟩
    · -- the updated cluster is one of xDS
      have htouch : Touch cm.store (cm.store.increaseVersion.updateCluster sum g c').1 c'.name :=
        (updateCluster_touch c').of_increaseVersion
      have hne : ∀ n, n ∉ cm.xdsManaged → n ≠ c'.name := fun n hn heq => hn (heq ▸ howned)
      rw [hcm]
      exact firewall_of_filter (fun n _ hn => (htouch.frame (hne n hn)).1)
        fun n _ hn => (htouch.frame (hne n hn)).2
    · -- the added cluster was not there
      have hne : ∀ n ∈ cm.store.names, c'.name ≠ n := by
        rintro n hn rfl
        exact notMem_names_of_hasCluster hhas hn
      have hname : (admitCluster sum g c').1.name = c'.name := by
        rw [admitCluster_name, admittedName, if_neg haccept.1]
      rw [hcm]
      refine firewall_of_filter (fun n hn _ => filter_named_append _ (hname ▸ hne n hn)) ?_
      intro n hn _
      simp only [ClusterStore.addCluster, ClusterStore.append, ClusterStore.setRuntime]
      rw [Function.update_of_ne (hname ▸ (hne n hn).symm)]
      rfl

theorem mem_namesOf_staticConfigs {n : String} :
    n ∈ namesOf cm.staticConfigs ↔ n ∈ cm.store.names ∧ n ∉ cm.xdsManaged := by
  simp only [ClusterStore.names, mem_namesOf_iff, ClusterManager.staticConfigs, List.mem_filter]
  constructor
  · rintro ⟨c, ⟨hmem, hstatic⟩, rfl⟩
    exact ⟨⟨c, hmem, rfl⟩, by simpa using hstatic⟩
  · rintro ⟨⟨c, hmem, rfl⟩, hstatic⟩
    exact ⟨c, ⟨hmem, by simpa using hstatic⟩, rfl⟩

/-- Keeping the configurations of some names keeps all those of such a name. -/
theorem filter_named_filter {config : List (Option ClusterConfig)} {p : String → Bool} {n : String}
    (hn : p n = true) :
    (config.filter fun c => c.any fun c => p c.name).filter (named n) =
      config.filter (named n) := by
  rw [List.filter_filter]
  refine List.filter_congr fun c _ => ?_
  cases c with
  | none => rfl
  | some c =>
    by_cases hname : c.name = n
    · simp [named, hname, hn]
    · simp [named, hname]

theorem firewall_replace {g : Globals} {order : MapOrder} (clusters : List (Option ClusterConfig)) :
    Firewall cm (cm.replaceXDSClusters sum g order clusters).cm := by
  rw [ClusterManager.replaceXDSClusters]
  split
  · exact fun n _ _ => ⟨rfl, rfl, rfl⟩
  next valid hvalid =>
    obtain ⟨built, hbuilt, hconfig, hmap⟩ :=
      foldl_publishXDS sum valid (cm.staticStore, cm.store, g)
    -- a static cluster is none of those that were built
    have hother : ∀ n ∈ cm.store.names, n ∉ cm.xdsManaged → ∀ b ∈ built, b.1.name ≠ n := by
      rintro n hn howned b hb rfl
      have hmem : b.1.name ∈ valid.map (·.name) := built_names hbuilt ▸ List.mem_map_of_mem hb
      obtain ⟨c, hc, hname⟩ := List.mem_map.1 hmem
      refine ((validateXDS_eq_ok hvalid).2.2 c hc).2.2 ?_
      rw [hname]
      exact mem_namesOf_staticConfigs.2 ⟨hn, howned⟩
    refine firewall_of_filter (fun n hn howned => ?_) fun n hn howned => ?_
    · have hnone : (built.map (some ·.1)).filter (named n) = [] := by
        rw [List.filter_eq_nil_iff]
        intro c hc
        obtain ⟨b, hb, rfl⟩ := List.mem_map.1 hc
        simpa [named] using hother n hn howned b hb
      simp only [ClusterStore.increaseVersion, hconfig, List.filter_append, hnone, List.append_nil]
      exact filter_named_filter (p := fun name => decide (name ∉ cm.xdsManaged))
        (by simpa using howned)
    · simp only [ClusterStore.increaseVersion, hmap]
      rw [Table.fill_of_notMem]
      · exact if_pos (mem_namesOf_staticConfigs.2 ⟨hn, howned⟩)
      · rw [List.map_map]
        intro hmem
        obtain ⟨b, hb, hname⟩ := List.mem_map.1 hmem
        exact hother n hn howned b hb hname

theorem firewall_remove {order : MapOrder} {names : List String} {r : Reply}
    (h : cm.removeXDSClusters order names = some r) : Firewall cm r.cm := by
  simp only [ClusterManager.removeXDSClusters] at h
  split_ifs at h
  · cases h
    exact fun n _ _ => ⟨rfl, rfl, rfl⟩
  · obtain ⟨store, hstore, rfl⟩ := Option.map_eq_some_iff.1 h
    obtain ⟨⟨config, m⟩, hloop, rfl⟩ := Option.map_eq_some_iff.1 hstore
    obtain ⟨rfl, hmap⟩ := removeLoop_eq hloop
    have hkept : ∀ n, n ∉ cm.xdsManaged →
        n ∉ ClusterManager.takeOwned cm.nextEndpointEvent.xdsManaged names :=
      fun n hn hmem => hn (takeOwned_subset hmem)
    refine firewall_of_filter (fun n _ hn => ?_) fun n _ hn => ?_
    · exact filter_named_filter (p := fun name => decide (name ∉ ClusterManager.takeOwned
        cm.nextEndpointEvent.xdsManaged names)) (by simpa using hkept n hn)
    · exact (hmap n).trans (if_neg fun hdel => hkept n hn hdel.1)

/-- The methods of xDS. -/
def Op.IsXDS : Op → Prop
  | .upsertXDSCluster _ | .replaceXDSClusters _ | .removeXDSClusters _ => True
  | _ => False

/-- A call of xDS that fails leaves everything as it was. -/
theorem unchanged_of_error {call : Call} {reply : Reply} {e : XDSError}
    (h : call.apply sum cm = some reply) (herror : reply.result = .error e) :
    reply.cm = cm ∧ reply.changes = [] := by
  obtain ⟨g, order, op⟩ := call
  cases op with
  | upsertXDSCluster c =>
    rcases upsertXDSCluster_cases h with ⟨-, hcm, hchanges, -⟩ | ⟨c', rfl, -, -, hresult, -⟩
    · exact ⟨hcm, hchanges⟩
    · rw [hresult] at herror
      cases herror
  | replaceXDSClusters clusters =>
    cases h
    rw [ClusterManager.replaceXDSClusters] at herror ⊢
    split at herror
    next => exact ⟨rfl, rfl⟩
    next => cases herror
  | removeXDSClusters names =>
    simp only [Call.apply, ClusterManager.removeXDSClusters] at h
    split_ifs at h
    · cases h
      cases herror
    · obtain ⟨store, -, rfl⟩ := Option.map_eq_some_iff.1 h
      cases herror
  | compareAndSetStore candidate =>
    cases h
    rw [ClusterManager.compareAndSetStore] at herror
    split_ifs at herror
  | deleteEndpoint name id =>
    obtain ⟨done, -, rfl⟩ := Option.map_eq_some_iff.1 h
    cases herror
  | removeCluster names =>
    obtain ⟨store, -, rfl⟩ := Option.map_eq_some_iff.1 h
    cases herror
  | _ =>
    cases h
    cases herror

/-- A replacement that succeeds leaves exactly the given names owned. -/
theorem owned_of_replace {g : Globals} {order : MapOrder} {clusters : List (Option ClusterConfig)}
    (h : (cm.replaceXDSClusters sum g order clusters).result = .ok true) (n : String) :
    n ∈ (cm.replaceXDSClusters sum g order clusters).cm.xdsManaged ↔ n ∈ namesOf clusters := by
  rw [ClusterManager.replaceXDSClusters] at h ⊢
  split at h
  next => cases h
  next valid hvalid =>
    rw [(validateXDS_eq_ok hvalid).1]
    simp [namesOf, List.filterMap_map]

/-- **xDS ownership is a firewall.**  In every reachable state, the owned names are names of the
store; and a call of xDS leaves every cluster that xDS did not own as it was, its configurations
and its runtime, leaves the owned names among the names of the store, changes nothing when it
fails, and after a replacement that succeeds xDS owns exactly the given names. -/
theorem firewall_of_isXDS (hreach : cm.Reachable sum) {call : Call} {reply : Reply}
    (hop : call.op.IsXDS) (h : call.apply sum cm = some reply) :
    (∀ n ∈ cm.xdsManaged, n ∈ cm.store.names) ∧ Firewall cm reply.cm ∧
      (∀ n ∈ reply.cm.xdsManaged, n ∈ reply.cm.store.names) ∧
      (∀ e, reply.result = .error e → reply.cm = cm ∧ reply.changes = []) ∧
      (∀ clusters, call.op = .replaceXDSClusters clusters → reply.result = .ok true →
        ∀ n, n ∈ reply.cm.xdsManaged ↔ n ∈ namesOf clusters) := by
  have howning := owning_of_reachable hreach
  refine ⟨fun n hn => (howning n hn).2, ?_, fun n hn => (owning_apply howning h n hn).2,
    fun e herror => unchanged_of_error h herror, ?_⟩
  · obtain ⟨g, order, op⟩ := call
    cases op with
    | upsertXDSCluster c => exact firewall_upsert h
    | replaceXDSClusters clusters =>
      cases h
      exact firewall_replace clusters
    | removeXDSClusters names => exact firewall_remove h
    | _ => exact hop.elim
  · obtain ⟨g, order, op⟩ := call
    rintro clusters rfl hresult n
    cases h
    exact owned_of_replace hresult n

/-- A bootstrap with one static cluster. -/
def staticOnly : ClusterManager := createDefaultClusterManager id {} [{ name := "static" }]

/-- xDS brings a cluster of its own next to a static one. -/
theorem firewall_staticOnly : ∃ reply,
    Call.apply id staticOnly { op := .replaceXDSClusters [some { name := "new" }] } = some reply ∧
      reply.cm.xdsManaged = {"new"} ∧
      reply.cm.store.clustersMap "static" = staticOnly.store.clustersMap "static" := by
  have hrun : run id staticOnly [] = some (staticOnly, []) := rfl
  have happly : Call.apply id staticOnly { op := .replaceXDSClusters [some { name := "new" }] } =
    some _ := rfl
  obtain ⟨-, hfirewall, -, -, howned⟩ :=
    firewall_of_isXDS ⟨{}, [{ name := "static" }], [], [], hrun⟩ (by trivial) happly
  refine ⟨_, happly, ?_, (hfirewall "static" (by decide) (by decide)).2.2⟩
  ext n
  rw [howned _ rfl rfl n]
  simp [namesOf]

end Firewall

end Pixiu.Cluster
