import Pixiu.Cluster.Effects

/-!
# Setting an endpoint twice

`SetEndpoint` of `ClusterStore` first looks for the endpoint it is given: by its ID, or without one
by the hash of its content.  `setEndpoint_idempotent_iff`: a second call finds what the first one
left and changes nothing, with two exceptions.

* Without an ID, the first endpoint with the same hash decides.  If that one differs in what the
  hash does not cover (`Clashes`), every call appends one more endpoint under the next free suffix.
* For the empty name, when no cluster has it, every call adds one more cluster under a made-up name.

The statement is about reachable stores, whose configurations are prepared
(`prepared_of_reachable`), and about configurations that have been given an ID other than 0, which
stands for none.
-/

namespace Pixiu.Cluster

/-! ## Reachable configurations are prepared -/

section Prepared

variable {sum : String → String} {g : Globals} {s s' : ClusterStore} {name : String}

/-- Every configuration of the store is prepared. -/
def AllPrepared (s : ClusterStore) : Prop := ∀ c, some c ∈ s.config → Prepared c

theorem AllPrepared.append (h : AllPrepared s) {c : ClusterConfig} (hc : Prepared c)
    (hconfig : s'.config = s.config ++ [some c]) : AllPrepared s' := by
  intro c₀ hc₀
  rw [hconfig, List.mem_append, List.mem_singleton, Option.some_inj] at hc₀
  rcases hc₀ with hc₀ | rfl
  · exact h c₀ hc₀
  · exact hc

theorem AllPrepared.set (h : AllPrepared s) {i : ℕ} {c : ClusterConfig} (hc : Prepared c)
    (hconfig : s'.config = s.config.set i (some c)) : AllPrepared s' := by
  intro c₀ hc₀
  rw [hconfig] at hc₀
  rcases List.mem_or_eq_of_mem_set hc₀ with hc₀ | hc₀
  · exact h c₀ hc₀
  · exact Option.some_inj.1 hc₀ ▸ hc

theorem AllPrepared.of_subset (h : AllPrepared s) (hsub : s'.config ⊆ s.config) : AllPrepared s' :=
  fun c hc => h c (hsub hc)

theorem AllPrepared.touch (h : AllPrepared s) (htouch : Touch s s' name) : AllPrepared s' := by
  cases htouch with
  | keep hconfig _ => exact h.of_subset (by rw [hconfig]; exact List.Subset.refl _)
  | edit hfound _ hconfig _ hprepared _ =>
    exact h.set (hprepared (h _ (List.mem_of_getElem? hfound.getElem))) hconfig
  | add _ _ hconfig _ hprepared _ => exact h.append hprepared hconfig

theorem AllPrepared.setEndpoint (h : AllPrepared s) (name : String) (e : Option Endpoint) :
    AllPrepared (s.setEndpoint sum g name e).1 := by
  cases e with
  | none => exact h
  | some e =>
    rcases find_cases s name with ⟨hindex, -, -⟩ | ⟨i, c, hfound⟩
    · simp only [ClusterStore.setEndpoint, hindex]
      have hadmitted : Prepared (admitCluster sum g (ClusterStore.firstUse name)).1 :=
        prepared_admitCluster _
      have hlast :
          (s.append sum
            (admitCluster sum g (ClusterStore.firstUse name)).1).config[s.config.length]? =
          some (some (admitCluster sum g (ClusterStore.firstUse name)).1) := by
        simp [ClusterStore.append, ClusterStore.setRuntime]
      obtain ⟨c', r, hconfig, -, -, hprepared, -⟩ := setEndpointAt_spec sum
        (admitCluster sum g (ClusterStore.firstUse name)).2 name s.config.length hlast e
      exact (h.append hadmitted rfl).set (hprepared hadmitted) hconfig
    · simp only [ClusterStore.setEndpoint, hfound.index, hfound.config]
      obtain ⟨c', r, hconfig, -, -, hprepared, -⟩ :=
        setEndpointAt_spec sum g name i hfound.getElem e
      exact h.set (hprepared (h c (List.mem_of_getElem? hfound.getElem))) hconfig

theorem prepared_ensureLoop
    {runtime : (String → Option RuntimeCluster) → ClusterConfig → RuntimeCluster}
    (config : List (Option ClusterConfig)) (g : Globals) (m : String → Option RuntimeCluster) :
    ∀ c, some c ∈ (ensureLoop sum runtime g config m).1 → Prepared c := by
  induction config generalizing g m with
  | nil => exact nofun
  | cons c config ih =>
    cases c with
    | none =>
      intro c hc
      rcases List.mem_cons.1 hc with hc | hc
      · cases hc
      · exact ih g m c hc
    | some c =>
      intro c' hc'
      rcases List.mem_cons.1 hc' with hc' | hc'
      · obtain rfl := Option.some_inj.1 hc'
        exact prepared_prepareOwnedClusterConfig g c
      · exact ih _ _ c' hc'

theorem AllPrepared.remove (h : AllPrepared s) {namesToDel : List String}
    (hremove : s.removeClusters namesToDel = some s') : AllPrepared s' := by
  obtain ⟨⟨config, m⟩, hloop, rfl⟩ := Option.map_eq_some_iff.1 hremove
  obtain ⟨rfl, -⟩ := removeLoop_eq hloop
  exact h.of_subset (List.filter_subset_self _)

/-- **One call** leaves the configurations prepared. -/
theorem allPrepared_apply {cm : ClusterManager} {call : Call} {reply : Reply}
    (h : AllPrepared cm.store)
    (hreply : call.apply sum cm = some reply) : AllPrepared reply.cm.store := by
  obtain ⟨g, order, op⟩ := call
  have henter : ∀ name, AllPrepared (cm.enter name).store := fun name => by
    rw [enter_store]
    exact h
  cases op with
  | addCluster c =>
    cases hreply
    exact (henter c.name).append (prepared_admitCluster c) rfl
  | updateCluster new =>
    cases hreply
    exact (henter new.name).touch (updateCluster_touch new)
  | upsertXDSCluster c =>
    have hbump : AllPrepared cm.store.increaseVersion := h
    rcases upsertXDSCluster_cases hreply with ⟨-, hcm, -⟩ | ⟨c', rfl, -, -, -, hcm⟩
    · rwa [hcm]
    · rcases hcm with ⟨-, hcm⟩ | ⟨-, -, hcm⟩
      · rw [hcm]
        exact hbump.touch (updateCluster_touch c')
      · rw [hcm]
        exact hbump.append (prepared_admitCluster c') rfl
  | replaceXDSClusters clusters =>
    cases hreply
    rw [ClusterManager.replaceXDSClusters]
    split
    next => exact h
    next valid _ =>
      obtain ⟨built, hbuilt, hconfig, -⟩ := foldl_publishXDS sum valid (cm.staticStore, cm.store, g)
      intro c hc
      rw [ClusterStore.increaseVersion, hconfig, List.mem_append] at hc
      rcases hc with hc | hc
      · exact h c (List.mem_of_mem_filter hc)
      · obtain ⟨b, hb, hbc⟩ := List.mem_map.1 hc
        exact Option.some_inj.1 hbc ▸ (built_agree hbuilt b hb).1
  | setEndpoint name endpoint =>
    cases hreply
    exact (henter name).setEndpoint name endpoint
  | deleteEndpoint name id =>
    obtain ⟨done, hdone, rfl⟩ := Option.map_eq_some_iff.1 hreply
    exact (henter name).touch (deleteEndpoint_touch hdone)
  | removeCluster names =>
    obtain ⟨store, hstore, rfl⟩ := Option.map_eq_some_iff.1 hreply
    rw [foldl_releaseXDSOwnership_store] at hstore
    exact AllPrepared.remove (s := cm.nextEndpointEvent.store) h hstore
  | removeXDSClusters names =>
    simp only [Call.apply, ClusterManager.removeXDSClusters] at hreply
    split_ifs at hreply
    · cases hreply
      exact h
    · obtain ⟨store, hstore, rfl⟩ := Option.map_eq_some_iff.1 hreply
      exact AllPrepared.remove (s := cm.nextEndpointEvent.store) h hstore
  | compareAndSetStore candidate =>
    cases hreply
    rw [ClusterManager.compareAndSetStore]
    split_ifs
    · exact h
    · cases candidate with
      | none => exact fun c => prepared_ensureLoop _ _ _ c
      | some store => exact fun c => prepared_ensureLoop _ _ _ c
  | handleEndpointHealth name address healthy =>
    cases hreply
    exact h
  | moveCursor name cursor =>
    cases hreply
    exact h

/-- **Reachable configurations are prepared.** -/
theorem prepared_of_reachable {cm : ClusterManager} (h : cm.Reachable sum) :
    AllPrepared cm.store := by
  obtain ⟨g, clusters, calls, log, hrun⟩ := h
  refine run_induction (P := fun cm => AllPrepared cm.store)
    (fun cm call reply h => allPrepared_apply h) hrun ?_
  show AllPrepared (newClusterStore sum g clusters).1
  rw [newClusterStore]
  refine List.foldlRecOn (motive := fun r : ClusterStore × Globals => AllPrepared r.1)
    clusters _ (nofun) ?_
  exact fun r hr c _ => AllPrepared.append hr (prepared_admitCluster c) rfl

end Prepared

/-! ## Finding what was set -/

section Resolve

variable {sum : String → String} {name : String} {e : Endpoint} {existing : List (Option Endpoint)}

/-- Without an ID, the first endpoint with the same hash has another content. -/
def Clashes (sum : String → String) (name : String) (e : Endpoint)
    (existing : List (Option Endpoint)) : Prop :=
  e.id = "" ∧ ∃ old, (existing.filterMap id).find? (fun o =>
      generateEndpointID sum name (some o) == generateEndpointID sum name (some e)) = some old ∧
    endpointContentEqualForSet old e = false

/-- The search by ID, without its index. -/
theorem resolveSetEndpointSlotByID_cases (e : Endpoint) (i : ℕ)
    (existing : List (Option Endpoint)) :
    ((existing.filterMap id).find? (·.id = e.id) = none ∧
        resolveSetEndpointSlotByID e i existing = ⟨e.id, .append⟩) ∨
      ∃ old k, (existing.filterMap id).find? (·.id = e.id) = some old ∧
      existing[k]? = some (some old) ∧
        (endpointContentEqualForSet old e = true ∧
            resolveSetEndpointSlotByID e i existing = ⟨e.id, .idempotent⟩ ∨
          endpointContentEqualForSet old e = false ∧
            resolveSetEndpointSlotByID e i existing = ⟨e.id, .replace (i + k)⟩) := by
  induction existing generalizing i with
  | nil => exact .inl ⟨rfl, rfl⟩
  | cons o existing ih =>
    have hrest := ih (i + 1)
    cases o with
    | none =>
      rw [resolveSetEndpointSlotByID]
      rcases hrest with h | ⟨old, k, hfind, hget, h⟩
      · exact .inl h
      · exact .inr ⟨old, k + 1, hfind, hget, by rwa [Nat.add_right_comm, Nat.add_assoc] at h⟩
    | some o =>
      rw [resolveSetEndpointSlotByID]
      by_cases hid : o.id = e.id
      · rw [if_neg (not_not.2 hid)]
        refine .inr ⟨o, 0, by simp [hid], rfl, ?_⟩
        cases hcontent : endpointContentEqualForSet o e with
        | true => exact .inl ⟨rfl, rfl⟩
        | false => exact .inr ⟨rfl, rfl⟩
      · rw [if_pos hid]
        have hskip : ((some o :: existing).filterMap id).find? (·.id = e.id) =
            (existing.filterMap id).find? (·.id = e.id) := by simp [hid]
        rw [hskip]
        rcases hrest with h | ⟨old, k, hfind, hget, h⟩
        · exact .inl h
        · exact .inr ⟨old, k + 1, hfind, hget, by rwa [Nat.add_right_comm, Nat.add_assoc] at h⟩

theorem endpointContentEqualForSet_of_content {a b : Endpoint} (h : a.content = b.content) :
    endpointContentEqualForSet a b = true := by
  obtain ⟨id, name, address, metadata, unHealthy, llmMeta⟩ := a
  obtain ⟨id', name', address', metadata', unHealthy', llmMeta'⟩ := b
  simp only [Endpoint.content, Endpoint.mk.injEq, true_and] at h
  simp [endpointContentEqualForSet, h]

theorem endpointContentEqualForSet_congr {a b : Endpoint} (h : a.content = b.content)
    (e : Endpoint) :
    endpointContentEqualForSet a e = endpointContentEqualForSet b e := by
  obtain ⟨id, name, address, metadata, unHealthy, llmMeta⟩ := a
  obtain ⟨id', name', address', metadata', unHealthy', llmMeta'⟩ := b
  simp only [Endpoint.content, Endpoint.mk.injEq, true_and] at h
  simp [endpointContentEqualForSet, h]

variable (sum) (name) in
/-- A search for a hash sees contents only. -/
theorem find?_hash_congr {l l' : List Endpoint} (h : l.map (·.content) = l'.map (·.content))
    (hash : String) :
    (l.find? fun o => generateEndpointID sum name (some o) == hash).map (·.content) =
      (l'.find? fun o => generateEndpointID sum name (some o) == hash).map (·.content) := by
  have hcontent : ∀ l : List Endpoint,
      (l.find? fun o => generateEndpointID sum name (some o) == hash).map (·.content) =
        (l.map (·.content)).find? fun o => generateEndpointID sum name (some o) == hash := by
    intro l
    rw [List.find?_map]
    rfl
  rw [hcontent, hcontent, h]

theorem resolve_idempotent_of_id (hid : e.id ≠ "") {old : Endpoint}
    (hfind : (existing.filterMap id).find? (·.id = e.id) = some old)
    (hcontent : endpointContentEqualForSet old e = true) :
    (resolveSetEndpointSlot sum name e existing).action = .idempotent := by
  rw [resolveSetEndpointSlot, if_pos hid]
  rcases resolveSetEndpointSlotByID_cases e 0 existing with ⟨hnone, -⟩ | ⟨old', k, hfind', -, h⟩
  · rw [hnone] at hfind
    cases hfind
  · obtain rfl := Option.some_inj.1 (hfind.symm.trans hfind')
    rcases h with ⟨-, h⟩ | ⟨hcontent', -⟩
    · rw [h]
    · rw [hcontent] at hcontent'
      cases hcontent'

theorem resolve_idempotent_of_hash (hid : e.id = "") {old : Endpoint}
    (hfind : (existing.filterMap id).find? (fun o =>
      generateEndpointID sum name (some o) == generateEndpointID sum name (some e)) = some old)
    (hcontent : endpointContentEqualForSet old e = true) :
    (resolveSetEndpointSlot sum name e existing).action = .idempotent := by
  rw [resolveSetEndpointSlot, if_neg (not_not.2 hid), resolveSetEndpointSlotByHash]
  simp only [hfind, hcontent, if_true]

/-- A clash appends. -/
theorem Clashes.resolve (h : Clashes sum name e existing) :
    (resolveSetEndpointSlot sum name e existing).action = .append := by
  obtain ⟨hid, old, hfind, hcontent⟩ := h
  rw [resolveSetEndpointSlot, if_neg (not_not.2 hid), resolveSetEndpointSlotByHash]
  simp only [hfind, hcontent, Bool.false_eq_true, if_false]

/-- And it remains, whatever is appended. -/
theorem Clashes.again (h : Clashes sum name e existing) (e' : Endpoint)
    {l : List Endpoint} {endpoints : List (Option Endpoint)} (hl : endpoints.filterMap id = l)
    (hcontents : l.map (·.content) = ((existing ++ [some e']).filterMap id).map (·.content)) :
    Clashes sum name e endpoints := by
  obtain ⟨hid, old, hfind, hcontent⟩ := h
  have hsame := find?_hash_congr sum name hcontents (generateEndpointID sum name (some e))
  rw [List.filterMap_append, List.find?_append, hfind, Option.some_or, Option.map_some] at hsame
  obtain ⟨old', hfind', hold⟩ := Option.map_eq_some_iff.1 hsame
  exact ⟨hid, old', hl ▸ hfind', (endpointContentEqualForSet_congr hold e).trans hcontent⟩

end Resolve

/-! ## The second call -/

section Again

variable {sum : String → String} {g g' : Globals} {s : ClusterStore} {name : String} {i : ℕ}
  {c : ClusterConfig} {e : Endpoint}

@[simp] theorem prepareOwnedClusterConfig_endpoints (sum : String → String) (g : Globals)
    (c : ClusterConfig) :
    (prepareOwnedClusterConfig sum g c).1.endpoints = assembleFrom sum c.name 0 [] c.endpoints := by
  rw [prepareOwnedClusterConfig]
  split_ifs <;> rfl

theorem runtimeFor_configID (sum : String → String) (s : ClusterStore) (name : String)
    (c : ClusterConfig) :
    (s.runtimeFor sum name c).configID = c.configID := by
  rw [ClusterStore.runtimeFor]
  split
  next r hr =>
    split_ifs with hidentical
    · exact beq_iff_eq.1 hidentical
    · rfl
  next => rfl

/-- After an endpoint joined a list of distinct IDs, the search by its ID finds it. -/
theorem resolve_of_mem {endpoints : List (Option Endpoint)}
    (hprepared : Prepared { c with endpoints })
    (hid : e.id ≠ "") (hmem : e ∈ endpoints.filterMap id) :
    (resolveSetEndpointSlot sum name e
      (prepareOwnedClusterConfig sum g { c with endpoints }).1.endpoints).action = .idempotent := by
  have hnodup : (([] : List String) ++ (endpoints.filterMap id).map (·.id)).Nodup := hprepared.nodup
  have hunnamed := assembleFrom_unnamed sum c.name endpoints 0 hnodup hprepared.nonempty
  have hafter : Prepared (prepareOwnedClusterConfig sum g { c with endpoints }).1 :=
    prepared_prepareOwnedClusterConfig g _
  obtain ⟨e', he', heq⟩ : ∃ e' ∈ (assembleFrom sum c.name 0 [] endpoints).filterMap id,
      e'.unnamed = e.unnamed :=
    List.mem_map.1 (hunnamed ▸ List.mem_map_of_mem hmem)
  rw [prepareOwnedClusterConfig_endpoints]
  have hfind : ((assembleFrom sum c.name 0 [] endpoints).filterMap id).find? (·.id = e.id) =
      some e' := by
    have hnodup' := hafter.nodup
    rw [ClusterConfig.nonNil, prepareOwnedClusterConfig_endpoints] at hnodup'
    exact (find?_id_eq_some_iff hnodup').2 ⟨he', show e'.unnamed.id = e.unnamed.id by rw [heq]⟩
  exact resolve_idempotent_of_id hid hfind
    (endpointContentEqualForSet_of_content
      (show e'.unnamed.content = e.unnamed.content by rw [heq]))

/-- After an endpoint without an ID joined a list where nothing has its hash, the search by hash
finds it. -/
theorem resolve_of_hash {endpoints : List (Option Endpoint)} (hid : e.id = "")
    (hnone : (endpoints.filterMap id).find? (fun o =>
      generateEndpointID sum name (some o) == generateEndpointID sum name (some e)) = none)
    (id' : String) :
    (resolveSetEndpointSlot sum name e (prepareOwnedClusterConfig sum g
      { c with endpoints := endpoints ++ [some { e with id := id' }] }).1.endpoints).action =
        .idempotent := by
  have hcontents := assembleFrom_contents sum c.name (endpoints ++ [some { e with id := id' }]) 0 []
  have hsame := find?_hash_congr sum name hcontents (generateEndpointID sum name (some e))
  rw [List.filterMap_append, List.find?_append, hnone, Option.none_or] at hsame
  have hlast : ([some { e with id := id' }].filterMap id).find? (fun o =>
      generateEndpointID sum name (some o) == generateEndpointID sum name (some e)) =
        some { e with id := id' } :=
    List.find?_cons_of_pos (beq_self_eq_true (generateEndpointID sum name (some e)))
  rw [hlast, Option.map_some] at hsame
  obtain ⟨e', hfind, hcontent⟩ := Option.map_eq_some_iff.1 hsame
  rw [prepareOwnedClusterConfig_endpoints]
  exact resolve_idempotent_of_hash hid hfind (endpointContentEqualForSet_of_content hcontent)

theorem map_id_set {endpoints : List (Option Endpoint)} {k : ℕ} {old : Endpoint}
    (hold : endpoints[k]? = some (some old)) (hid : old.id = e.id) :
    ((endpoints.set k (some e)).filterMap id).map (·.id) = (endpoints.filterMap id).map (·.id) := by
  induction endpoints generalizing k with
  | nil => cases hold
  | cons o endpoints ih =>
    cases k with
    | zero =>
      obtain rfl := Option.some_inj.1 hold
      simp [hid]
    | succ k =>
      cases o with
      | none => simpa using ih hold
      | some o => simpa using ih hold

theorem mem_filterMap_set {endpoints : List (Option Endpoint)} {k : ℕ} {old : Endpoint}
    (hold : endpoints[k]? = some (some old)) : e ∈ (endpoints.set k (some e)).filterMap id :=
  List.mem_filterMap.2 ⟨some e, List.mem_set (List.getElem?_eq_some_iff.1 hold).1 _, rfl⟩

/-- A store in which the cluster has its own runtime and the endpoint is found as it is. -/
structure Settled (sum : String → String) (s : ClusterStore) (name : String) (e : Endpoint) (i : ℕ)
    (c : ClusterConfig) (r : RuntimeCluster) : Prop where
  found : FoundAt s name i c
  runtime : s.clustersMap name = some r
  identical : r.configID = c.configID
  resolve : (resolveSetEndpointSlot sum name e c.endpoints).action = .idempotent

/-- Setting the endpoint in such a store changes nothing. -/
theorem Settled.setEndpoint {r : RuntimeCluster} (h : Settled sum s name e i c r) (g : Globals) :
    s.setEndpoint sum g name (some e) = (s, g) := by
  have hruntime : s.runtimeFor sum name c = r := by
    simp only [ClusterStore.runtimeFor, h.runtime, RuntimeCluster.configIsIdenticalTo, h.identical,
      beq_self_eq_true,
      if_true]
  simp only [ClusterStore.setEndpoint, h.found.index, h.found.config, ClusterStore.setEndpointAt,
    h.resolve,
    hruntime, ClusterStore.setRuntime]
  rw [← h.runtime, Function.update_eq_self]

theorem length_assembleFrom (sum : String → String) (clusterName : String)
    (endpoints : List (Option Endpoint))
    (i : ℕ) (taken : List String) :
    (assembleFrom sum clusterName i taken endpoints).length = endpoints.length := by
  induction endpoints generalizing i taken with
  | nil => rfl
  | cons endpoint endpoints ih => cases endpoint <;> simp [assembleFrom, ih]

theorem replaceEndpointAt_fst (sum : String → String) (g : Globals) (c : ClusterConfig)
    (r : RuntimeCluster)
    (k : ℕ) (e : Endpoint) :
    (replaceEndpointAt sum g c r k e).1 =
        (prepareOwnedClusterConfig sum g { c with endpoints := c.endpoints.set k (some e) }).1 ∧
      (replaceEndpointAt sum g c r k e).2.1.configID = r.configID := by
  simp only [replaceEndpointAt]
  split
  · exact ⟨rfl, rfl⟩
  · split_ifs <;> exact ⟨rfl, rfl⟩

/-- **The first call settles the store**, unless the content clashes. -/
theorem settled_setEndpointAt (hfound : FoundAt s name i c) (hprepared : Prepared c)
    (hID : c.configID ≠ 0)
    (hclash : ¬ Clashes sum name e c.endpoints) (g : Globals) :
    ∃ c' r, Settled sum (s.setEndpointAt sum g name i c e).1 name e i c' r := by
  have hrID := runtimeFor_configID sum s name c
  have hcID : ∀ endpoints, (prepareOwnedClusterConfig sum g { c with endpoints }).1.configID =
      c.configID :=
    fun endpoints => prepareOwnedClusterConfig_configID g _ hID
  have hcname : ∀ endpoints, (prepareOwnedClusterConfig sum g { c with endpoints }).1.name = name :=
    fun endpoints => (prepareOwnedClusterConfig_name g _).trans hfound.name_eq
  simp only [ClusterStore.setEndpointAt]
  by_cases hid : e.id = ""
  · -- by hash: the same content is there, or nothing has the hash
    cases hfind : (c.endpoints.filterMap id).find? (fun o =>
        generateEndpointID sum name (some o) == generateEndpointID sum name (some e)) with
    | some old =>
      have hcontent : endpointContentEqualForSet old e = true := by
        by_contra hcontent
        exact hclash ⟨hid, old, hfind, Bool.eq_false_iff.2 hcontent⟩
      have hresolve : (resolveSetEndpointSlot sum name e c.endpoints).action = .idempotent :=
        resolve_idempotent_of_hash hid hfind hcontent
      simp only [hresolve]
      exact ⟨c, _, ⟨hfound.index, hfound.config, hfound.getElem, hfound.name_eq, hfound.first⟩,
        Function.update_self .., hrID, hresolve⟩
    | none =>
      have hresolve : (resolveSetEndpointSlot sum name e c.endpoints).action = .append := by
        rw [resolveSetEndpointSlot, if_neg (not_not.2 hid), resolveSetEndpointSlotByHash]
        simp only [hfind]
      simp only [hresolve]
      exact ⟨_, _, hfound.set (hcname _) rfl, Function.update_self .., hrID.trans (hcID _).symm,
        resolve_of_hash hid hfind _⟩
  · rcases resolveSetEndpointSlotByID_cases e 0 c.endpoints with ⟨hnone, hres⟩ |
      ⟨old, k, hfind, hget, h⟩
    · -- no such ID: the endpoint joins
      have hresolve : resolveSetEndpointSlot sum name e c.endpoints = ⟨e.id, .append⟩ := by
        rw [resolveSetEndpointSlot, if_pos hid, hres]
      simp only [hresolve]
      refine ⟨_, _, hfound.set (hcname _) rfl, Function.update_self .., hrID.trans (hcID _).symm,
        ?_⟩
      have hfresh : e.id ∉ c.nonNil.map (·.id) := by
        intro hmem
        obtain ⟨o, ho, hoid⟩ := List.mem_map.1 hmem
        exact absurd (decide_eq_true hoid) (List.find?_eq_none.1 hnone o ho)
      refine resolve_of_mem ⟨?_, ?_⟩ hid (by simp)
      · simp only [ClusterConfig.nonNil, List.filterMap_append, List.map_append]
        refine List.nodup_append.2 ⟨hprepared.nodup, List.nodup_singleton _, fun a ha b hb heq =>
          ?_⟩
        obtain rfl : a = e.id := heq.trans (List.mem_singleton.1 hb)
        exact hfresh ha
      · simp only [ClusterConfig.nonNil, List.filterMap_append, List.map_append, List.mem_append,
          not_or]
        exact ⟨hprepared.nonempty, by simpa using Ne.symm hid⟩
    · obtain ⟨hcontent, hres⟩ | ⟨-, hres⟩ := h
      · have hresolve : resolveSetEndpointSlot sum name e c.endpoints = ⟨e.id, .idempotent⟩ := by
          rw [resolveSetEndpointSlot, if_pos hid, hres]
        simp only [hresolve]
        exact ⟨c, _, ⟨hfound.index, hfound.config, hfound.getElem, hfound.name_eq, hfound.first⟩,
          Function.update_self .., hrID, congrArg SetEndpointOutcome.action hresolve⟩
      · -- the endpoint takes the place of the one with its ID
        have hresolve : resolveSetEndpointSlot sum name e c.endpoints =
            ⟨e.id, .replace (0 + k)⟩ := by
          rw [resolveSetEndpointSlot, if_pos hid, hres]
        simp only [hresolve, Nat.zero_add]
        obtain ⟨hfst, hsnd⟩ := replaceEndpointAt_fst sum g c (s.runtimeFor sum name c) k e
        have hold := List.find?_some hfind
        have holdID : old.id = e.id := of_decide_eq_true hold
        refine ⟨_, _, hfound.set ?_ rfl, Function.update_self .., ?_, ?_⟩
        · rw [hfst]
          exact hcname _
        · rw [hsnd, hfst, hrID, hcID]
        · rw [hfst]
          refine resolve_of_mem ⟨?_, ?_⟩ hid (mem_filterMap_set hget)
          · rw [ClusterConfig.nonNil, map_id_set hget holdID]
            exact hprepared.nodup
          · rw [ClusterConfig.nonNil, map_id_set hget holdID]
            exact hprepared.nonempty

/-- A clash makes the list of endpoints longer, and remains. -/
theorem Clashes.setEndpointAt (hfound : FoundAt s name i c)
    (hclash : Clashes sum name e c.endpoints)
    (g : Globals) : ∃ c', FoundAt (s.setEndpointAt sum g name i c e).1 name i c' ∧
      c'.endpoints.length = c.endpoints.length + 1 ∧ Clashes sum name e c'.endpoints := by
  have hcname : ∀ endpoints, (prepareOwnedClusterConfig sum g { c with endpoints }).1.name = name :=
    fun endpoints => (prepareOwnedClusterConfig_name g _).trans hfound.name_eq
  simp only [ClusterStore.setEndpointAt, hclash.resolve]
  refine ⟨_, hfound.set (hcname _) rfl, ?_, ?_⟩
  · rw [prepareOwnedClusterConfig_endpoints, length_assembleFrom, List.length_append,
      List.length_singleton]
  · rw [prepareOwnedClusterConfig_endpoints]
    exact hclash.again _ rfl (assembleFrom_contents ..)

end Again

/-! ## Both calls -/

section Idempotent

variable (sum : String → String) (g : Globals) (s : ClusterStore) (name : String)
  (e : Option Endpoint)

/-- Setting the endpoint twice leaves the configurations, with their endpoints and IDs, and the
snapshots that requests pick from as setting it once does. -/
def Idempotent : Prop :=
  let once := s.setEndpoint sum g name e
  let twice := once.1.setEndpoint sum once.2 name e
  twice.1.config = once.1.config ∧
    ∀ n, (twice.1.clustersMap n).map (·.endpointSnapshot) =
      (once.1.clustersMap n).map (·.endpointSnapshot)

/-- The endpoint can be found again: the cluster has a name, and the content does not clash. -/
def Findable : Option Endpoint → Prop
  | none => True
  | some e => (name ≠ "" ∨ name ∈ s.names) ∧
      ∀ c, s.findClusterConfig name = some c → ¬ Clashes sum name e c.endpoints

end Idempotent

section Iff

variable {sum : String → String} {g : Globals} {s : ClusterStore} {name : String} {e : Endpoint}

theorem not_idempotent_of_clashes {i : ℕ} {c : ClusterConfig} (hfound : FoundAt s name i c)
    (hclash : Clashes sum name e c.endpoints) : ¬ Idempotent sum g s name (some e) := by
  rintro ⟨hconfig, -⟩
  obtain ⟨c₁, hfound₁, -, hclash₁⟩ := hclash.setEndpointAt hfound g
  have honce : s.setEndpoint sum g name (some e) = s.setEndpointAt sum g name i c e := by
    simp only [ClusterStore.setEndpoint, hfound.index, hfound.config]
  rw [honce] at hconfig
  generalize (s.setEndpointAt sum g name i c e).2 = g₁ at hconfig
  generalize (s.setEndpointAt sum g name i c e).1 = s₁ at hconfig hfound₁
  obtain ⟨c₂, hfound₂, hlength, -⟩ := hclash₁.setEndpointAt hfound₁ g₁
  simp only [ClusterStore.setEndpoint, hfound₁.index, hfound₁.config] at hconfig
  have hsame := hfound₂.getElem
  rw [hconfig, hfound₁.getElem, Option.some_inj, Option.some_inj] at hsame
  rw [← hsame] at hlength
  omega

/-- For a name that is not there, the first call adds a configuration. -/
theorem setEndpoint_absent (habsent : name ∉ s.names) (g : Globals) (e : Endpoint) :
    (s.setEndpoint sum g name (some e)) =
      (s.append sum (admitCluster sum g (ClusterStore.firstUse name)).1).setEndpointAt sum
        (admitCluster sum g (ClusterStore.firstUse name)).2 name s.config.length
        (admitCluster sum g (ClusterStore.firstUse name)).1 e := by
  rcases find_cases s name with ⟨hindex, -, -⟩ | ⟨i, c, hfound⟩
  · simp only [ClusterStore.setEndpoint, hindex]
  · exact absurd hfound.mem_names habsent

theorem foundAt_append (habsent : name ∉ s.names) {c : ClusterConfig} (hname : c.name = name) :
    FoundAt (s.append sum c) name s.config.length c := by
  refine foundAt_of_first (by simp [ClusterStore.append, ClusterStore.setRuntime]) hname fun j hj c'
    hc' => ?_
  rw [ClusterStore.append, ClusterStore.setRuntime, List.getElem?_append_left hj] at hc'
  exact fun heq => habsent (mem_namesOf_iff.2 ⟨c', List.mem_of_getElem? hc', heq⟩)

theorem admitCluster_firstUse (sum : String → String) (g : Globals) (hname : name ≠ "") :
    admitCluster sum g (ClusterStore.firstUse name) =
      prepareOwnedClusterConfig sum g (ClusterStore.firstUse name) := if_neg hname

/-- The cluster made on first use has the next ID and no endpoints. -/
theorem firstUse_configID (hname : name ≠ "") :
    (admitCluster sum g (ClusterStore.firstUse name)).1.configID = g.configIDSeq + 1 := by
  rw [admitCluster_firstUse sum g hname, prepareOwnedClusterConfig]
  rfl

theorem firstUse_not_clashes (hname : name ≠ "") (e : Endpoint) :
    ¬ Clashes sum name e (admitCluster sum g (ClusterStore.firstUse name)).1.endpoints := by
  rintro ⟨-, old, hfind, -⟩
  rw [admitCluster_firstUse sum g hname, prepareOwnedClusterConfig_endpoints] at hfind
  cases hfind

variable (sum) in
/-- The empty name stays absent, and every call adds a configuration. -/
theorem setEndpoint_unnamed (habsent : "" ∉ s.names) (g : Globals) (e : Endpoint) :
    (s.setEndpoint sum g "" (some e)).1.config.length = s.config.length + 1 ∧
      "" ∉ (s.setEndpoint sum g "" (some e)).1.names := by
  rw [setEndpoint_absent habsent]
  have hlast :
      (s.append sum (admitCluster sum g (ClusterStore.firstUse "")).1).config[s.config.length]? =
      some (some (admitCluster sum g (ClusterStore.firstUse "")).1) := by
    simp [ClusterStore.append, ClusterStore.setRuntime]
  obtain ⟨c', -, hconfig, -, hname, -⟩ := setEndpointAt_spec sum
    (admitCluster sum g (ClusterStore.firstUse "")).2 "" s.config.length hlast e
  rw [admitCluster_name] at hname
  have hconfig' : (s.append sum (admitCluster sum g (ClusterStore.firstUse "")).1).config.set
      s.config.length (some c') = s.config ++ [some c'] := by
    simp [ClusterStore.append, ClusterStore.setRuntime]
  rw [ClusterStore.names, hconfig, hconfig']
  refine ⟨by simp, ?_⟩
  rw [namesOf_append, List.mem_append, not_or]
  refine ⟨habsent, ?_⟩
  rw [namesOf_some_cons, namesOf_nil, List.mem_singleton, hname]
  exact Ne.symm (admittedName_ne_empty _)

/-- **Setting an endpoint twice is setting it once exactly when** the endpoint can be found
again. -/
theorem setEndpoint_idempotent_iff {cm : ClusterManager} (hreach : cm.Reachable sum)
    (hIDs : ∀ c, some c ∈ cm.store.config → c.configID ≠ 0) (g : Globals)
    (hnext : g.configIDSeq + 1 ≠ 0)
    (name : String) (e : Option Endpoint) :
    Idempotent sum g cm.store name e ↔ Findable sum cm.store name e := by
  have hprepared := prepared_of_reachable hreach
  generalize cm.store = s at hIDs hprepared
  cases e with
  | none => exact iff_of_true ⟨rfl, fun n => rfl⟩ trivial
  | some e =>
    have hidempotent : ∀ {i c r}, Settled sum (s.setEndpoint sum g name (some e)).1 name e i c r →
        Idempotent sum g s name (some e) := by
      intro i c r hsettled
      simp only [Idempotent, hsettled.setEndpoint, true_and, implies_true]
    rcases find_cases s name with ⟨-, hnone, habsent⟩ | ⟨i, c, hfound⟩
    · by_cases hname : name = ""
      · subst hname
        refine iff_of_false ?_ fun h => h.1.elim (fun hne => hne rfl) habsent
        rintro ⟨hconfig, -⟩
        obtain ⟨-, habsent₁⟩ := setEndpoint_unnamed sum habsent g e
        have htwice := (setEndpoint_unnamed sum habsent₁ (s.setEndpoint sum g "" (some e)).2 e).1
        rw [hconfig] at htwice
        omega
      · refine iff_of_true ?_ ⟨Or.inl hname, fun c hc => ?_⟩
        · have hadmitted : (admitCluster sum g (ClusterStore.firstUse name)).1.name = name := by
            rw [admitCluster_name]
            exact if_neg hname
          obtain ⟨c, r, hsettled⟩ := settled_setEndpointAt (foundAt_append habsent hadmitted)
            (prepared_admitCluster _) (firstUse_configID hname ▸ hnext)
              (firstUse_not_clashes hname e)
            (admitCluster sum g (ClusterStore.firstUse name)).2
          rw [← setEndpoint_absent habsent] at hsettled
          exact hidempotent hsettled
        · rw [hnone] at hc
          cases hc
    · by_cases hclash : Clashes sum name e c.endpoints
      · exact iff_of_false (not_idempotent_of_clashes hfound hclash) fun h =>
          h.2 c hfound.config hclash
      · refine iff_of_true ?_ ⟨Or.inr hfound.mem_names, fun c' hc' => ?_⟩
        · have hc := List.mem_of_getElem? hfound.getElem
          obtain ⟨c', r, hsettled⟩ :=
            settled_setEndpointAt hfound (hprepared c hc) (hIDs c hc) hclash g
          have honce : s.setEndpoint sum g name (some e) = s.setEndpointAt sum g name i c e := by
            simp only [ClusterStore.setEndpoint, hfound.index, hfound.config]
          rw [← honce] at hsettled
          exact hidempotent hsettled
        · obtain rfl := Option.some_inj.1 (hfound.config.symm.trans hc')
          exact hclash

/-- A cluster with one endpoint, from a bootstrap. -/
def oneVersion : ClusterManager :=
  createDefaultClusterManager id {} [{
    name := "a"
    endpoints :=
      [some { address := { address := "h", port := 80 }, metadata := [("version", "1")] }] }]

theorem reachable_oneVersion : oneVersion.Reachable id := ⟨_, _, [], [], rfl⟩

/-- An endpoint that names its ID is set twice. -/
theorem setEndpoint_idempotent_named :
    oneVersion.Reachable id ∧
      Idempotent id { configIDSeq := 1 } oneVersion.store "a" (some { id := "b" }) := by
  refine ⟨reachable_oneVersion,
    (setEndpoint_idempotent_iff reachable_oneVersion ?_ _ (by decide) _ _).2 ?_⟩
  · intro c hc
    obtain rfl := Option.some_inj.1 (List.mem_singleton.1 hc)
    decide
  · exact ⟨Or.inl (by decide), fun c _ hclash => absurd hclash.1 (by decide)⟩

/-- The same address with other metadata, and without an ID, joins again with every call. -/
theorem not_setEndpoint_idempotent_version :
    oneVersion.Reachable id ∧ ¬ Idempotent id { configIDSeq := 1 } oneVersion.store "a"
      (some { address := { address := "h", port := 80 }, metadata := [("version", "2")] }) :=
  ⟨reachable_oneVersion, fun h => absurd h.1 (by decide +kernel)⟩

end Iff

end Pixiu.Cluster
