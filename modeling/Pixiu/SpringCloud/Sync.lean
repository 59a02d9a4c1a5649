import Pixiu.SpringCloud.Cloud

/-!
# What a synchronisation leaves alone

`fetchCompareAndSet` builds a whole new store from the registry's answer and swaps it in, and it
derives the routes to delete from the difference with the full old store.  Clusters and routes of
other sources share both.

Every configuration that the new store gets has an identity that was drawn from the counter during
the synchronisation (`IssuedAfter`), so it is never one of the configurations that were there
before.

* `sync_framed_iff` — when a synchronisation leaves the clusters that no Spring Cloud event created,
  and the routes that the adapter did not add.
* `bootstrap_cluster_dropped` — a cluster of the bootstrap does not survive a synchronisation.
-/

namespace Pixiu.SpringCloud

open Pixiu.Cluster

/-! ## Identities of configurations -/

section Identities

variable {sum : String → String}

/-- The configurations of a store have identities drawn after the counter was at `g₀`, at most `k`
of them. -/
structure IssuedAfter (g₀ : Globals) (k : ℕ) (r : ClusterStore × Globals) : Prop where
  after : ∀ c, some c ∈ r.1.config → g₀.configIDSeq.toNat < c.configID.toNat
  drawn : g₀.configIDSeq.toNat ≤ r.2.configIDSeq.toNat ∧
    r.2.configIDSeq.toNat ≤ g₀.configIDSeq.toNat + k

variable (sum) in
theorem republish_configID (g : Globals) {c : ClusterConfig} (hc : c.configID ≠ 0)
    (r : RuntimeCluster)
    (endpoints : List (Option Endpoint)) :
    (republish sum g c r endpoints).1.configID = c.configID ∧
      (republish sum g c r endpoints).2.2 = g := by
  simp only [republish]
  refine ⟨prepareOwnedClusterConfig_configID g _ hc, ?_⟩
  rw [prepareOwnedClusterConfig, if_neg hc]

variable (sum) in
theorem replaceEndpointAt_configID (g : Globals) {c : ClusterConfig} (hc : c.configID ≠ 0)
    (r : RuntimeCluster)
    (idx : ℕ) (e : Endpoint) :
    (replaceEndpointAt sum g c r idx e).1.configID = c.configID ∧
      (replaceEndpointAt sum g c r idx e).2.2 = g := by
  simp only [replaceEndpointAt]
  split
  · exact republish_configID sum g hc r _
  next old _ =>
    split_ifs
    · exact republish_configID sum g hc (r.removeEndpoint old) _
    · exact republish_configID sum g hc r _

/-- Setting an endpoint keeps the identity of the configuration. -/
theorem setEndpointAt_configID (g : Globals) {s : ClusterStore} (name : String) {i : ℕ}
    {c : ClusterConfig}
    (hget : s.config[i]? = some (some c)) (hc : c.configID ≠ 0) (e : Endpoint) :
    ∃ c', (s.setEndpointAt sum g name i c e).1.config = s.config.set i (some c') ∧
      c'.configID = c.configID ∧
      (s.setEndpointAt sum g name i c e).2 = g := by
  simp only [ClusterStore.setEndpointAt]
  split
  · refine ⟨c, ?_, rfl, rfl⟩
    obtain ⟨hlt, heq⟩ := List.getElem?_eq_some_iff.1 hget
    exact (heq ▸ List.set_getElem_self hlt).symm
  · obtain ⟨hid, hg⟩ := replaceEndpointAt_configID sum g hc (s.runtimeFor sum name c) _ _
    exact ⟨_, rfl, hid, hg⟩
  · obtain ⟨hid, hg⟩ := republish_configID sum g hc (s.runtimeFor sum name c) _
    exact ⟨_, rfl, hid, hg⟩

variable (sum) in
theorem admitCluster_firstUse (g : Globals) (name : String) :
    (admitCluster sum g (ClusterStore.firstUse name)).1.configID = g.configIDSeq + 1 ∧
      (admitCluster sum g (ClusterStore.firstUse name)).2.configIDSeq = g.configIDSeq + 1 := by
  rw [admitCluster]
  split_ifs <;> exact ⟨rfl, rfl⟩

theorem toNat_add_one {a : UInt64} (h : a.toNat + 1 < 2 ^ 64) : (a + 1).toNat = a.toNat + 1 := by
  rw [UInt64.toNat_add]
  exact Nat.mod_eq_of_lt h

theorem ne_zero_of_lt_toNat {a : UInt64} {n : ℕ} (h : n < a.toNat) : a ≠ 0 := by
  rintro rfl
  simp at h

/-- Changing one configuration and keeping its identity. -/
theorem IssuedAfter.set {g₀ g : Globals} {k : ℕ} {s : ClusterStore} (h : IssuedAfter g₀ k (s, g))
    {i : ℕ}
    {c c' : ClusterConfig} (hget : s.config[i]? = some (some c)) (hid : c'.configID = c.configID)
    {s' : ClusterStore} (hconfig : s'.config = s.config.set i (some c')) :
    IssuedAfter g₀ k (s', g) where
  after d hd := by
    rw [hconfig] at hd
    rcases List.mem_or_eq_of_mem_set hd with hold | hnew
    · exact h.after d hold
    · rw [Option.some.inj hnew, hid]
      exact h.after c (List.mem_of_getElem? hget)
  drawn := h.drawn

theorem IssuedAfter.setEndpoint {g₀ : Globals} {k : ℕ} {r : ClusterStore × Globals}
    (h : IssuedAfter g₀ k r)
    (hroom : g₀.configIDSeq.toNat + k + 1 < 2 ^ 64) (name : String) (e : Endpoint) :
    IssuedAfter g₀ (k + 1) (r.1.setEndpoint sum r.2 name (some e)) := by
  obtain ⟨s, g⟩ := r
  have hdrawn := h.drawn
  dsimp only at hdrawn
  rcases find_cases s name with ⟨hindex, hfind, -⟩ | ⟨i, c, hfound⟩
  · -- a new cluster draws the next identity
    simp only [ClusterStore.setEndpoint, hindex]
    obtain ⟨hid, hseq⟩ := admitCluster_firstUse sum g name
    have hnext : (g.configIDSeq + 1).toNat = g.configIDSeq.toNat + 1 := toNat_add_one (by omega)
    have hlast :
        (s.append sum
          (admitCluster sum g (ClusterStore.firstUse name)).1).config[s.config.length]? =
        some (some (admitCluster sum g (ClusterStore.firstUse name)).1) := by
      simp [ClusterStore.append, ClusterStore.setRuntime]
    have happend : IssuedAfter g₀ (k + 1)
        (s.append sum (admitCluster sum g (ClusterStore.firstUse name)).1,
        (admitCluster sum g (ClusterStore.firstUse name)).2) := by
      refine ⟨fun d hd => ?_, ?_⟩
      · simp only [ClusterStore.append, ClusterStore.setRuntime, List.mem_append,
          List.mem_singleton] at hd
        rcases hd with hold | hnew
        · exact h.after d hold
        · rw [Option.some.inj hnew, hid, hnext]
          omega
      · rw [hseq, hnext]
        omega
    have hne : (admitCluster sum g (ClusterStore.firstUse name)).1.configID ≠ 0 :=
      ne_zero_of_lt_toNat (happend.after _ (List.mem_of_getElem? hlast))
    obtain ⟨c', hconfig, hid', hg⟩ := setEndpointAt_configID
      (admitCluster sum g (ClusterStore.firstUse name)).2 name hlast hne e
    have hset := happend.set hlast hid' hconfig
    refine ⟨hset.after, ?_⟩
    rw [hg]
    exact hset.drawn
  · simp only [ClusterStore.setEndpoint, hfound.index, hfound.config]
    have hne : c.configID ≠ 0 :=
      ne_zero_of_lt_toNat (h.after c (List.mem_of_getElem? hfound.getElem))
    obtain ⟨c', hconfig, hid, hg⟩ := setEndpointAt_configID g name hfound.getElem hne e
    have hset := h.set hfound.getElem hid hconfig
    refine ⟨hset.after, ?_⟩
    rw [hg]
    omega

variable (sum) in
theorem issuedAfter_fetchedStore (version : BitVec 32) (g : Globals)
    {instances : List ServiceInstance}
    (hroom : g.configIDSeq.toNat + instances.length < 2 ^ 64) :
    IssuedAfter g instances.length (fetchedStore sum version g instances) := by
  induction instances using List.reverseRecOn with
  | nil => exact ⟨nofun, ⟨le_refl _, le_refl _⟩⟩
  | append_singleton instances i ih =>
    rw [List.length_append, List.length_singleton] at hroom ⊢
    rw [fetchedStore, List.foldl_append, List.foldl_cons, List.foldl_nil]
    exact IssuedAfter.setEndpoint (ih (by omega)) (by omega) i.serviceName i.toEndpoint

/-- The loop that puts the runtimes of a store in place keeps the identities of its
configurations. -/
theorem configID_of_mem_ensureLoop
    {runtime : (String → Option RuntimeCluster) → ClusterConfig → RuntimeCluster}
    {config : List (Option ClusterConfig)} (hne : ∀ c, some c ∈ config → c.configID ≠ 0)
    {g : Globals}
    {clustersMap : String → Option RuntimeCluster} {c' : ClusterConfig}
    (hc' : some c' ∈ (ensureLoop sum runtime g config clustersMap).1) :
    ∃ c, some c ∈ config ∧ c'.configID = c.configID := by
  induction config generalizing g clustersMap with
  | nil => cases hc'
  | cons d config ih =>
    have hne' : ∀ c, some c ∈ config → c.configID ≠ 0 :=
      fun c hc => hne c (List.mem_cons_of_mem _ hc)
    cases d with
    | none =>
      rcases List.mem_cons.1 hc' with hc' | hc'
      · cases hc'
      · obtain ⟨c, hc, hid⟩ := ih hne' hc'
        exact ⟨c, List.mem_cons_of_mem _ hc, hid⟩
    | some d =>
      rcases List.mem_cons.1 hc' with hc' | hc'
      · rw [Option.some.inj hc']
        exact ⟨d, List.mem_cons_self, prepareOwnedClusterConfig_configID g d
          (hne d List.mem_cons_self)⟩
      · obtain ⟨c, hc, hid⟩ := ih hne' hc'
        exact ⟨c, List.mem_cons_of_mem _ hc, hid⟩

/-- After a swap, every configuration has one of the new identities. -/
theorem configID_of_mem_compareAndSetStore {cm : ClusterManager} {order : MapOrder} {g : Globals}
    {instances : List ServiceInstance} (hroom : g.configIDSeq.toNat + instances.length < 2 ^ 64)
    {c : ClusterConfig}
    (hc :
    some c ∈ (cm.compareAndSetStore sum (fetchedStore sum cm.store.version g instances).2 order
      (some (fetchedStore sum cm.store.version g instances).1)).cm.store.config) :
    g.configIDSeq.toNat < c.configID.toNat := by
  have hissued := issuedAfter_fetchedStore sum cm.store.version g hroom
  simp only [ClusterManager.compareAndSetStore, Option.getD_some, version_fetchedStore, ne_eq,
    not_true_eq_false,
    if_false] at hc
  obtain ⟨c₀, hc₀, hid⟩ := configID_of_mem_ensureLoop
    (fun c hc => ne_zero_of_lt_toNat (hissued.after c hc)) hc
  rw [hid]
  exact hissued.after c₀ hc₀

end Identities

/-! ## The frame -/

namespace Cloud

/-- The clusters that no Spring Cloud event created, with their runtimes, and the routes that the
adapter did not add are left as they are. -/
structure Framed (created : Finset String) (s s' : Cloud) : Prop where
  config : ∀ n ∈ s.cm.store.names, n ∉ created →
    s'.cm.store.findClusterConfig n = s.cm.store.findClusterConfig n
  runtime : ∀ n ∈ s.cm.store.names, n ∉ created →
    s'.cm.store.clustersMap n = s.cm.store.clustersMap n
  routes : s'.routes.filter (!·.byAdapter) = s.routes.filter (!·.byAdapter)

variable {sum : String → String} {s s' : Cloud} {instances : List ServiceInstance} {swapped : Bool}
  {env : Env}

/-- The routes of others after a synchronisation, whether it swaps the store or not. -/
theorem routes_fetchCompareAndSet (h : s.fetchCompareAndSet sum instances swapped env = some s') :
    s'.routes.filter (!·.byAdapter) = (s.routes.filter (!·.byAdapter)).filter
      (·.id ∉ s.cm.store.names.filter
      (· ∉ (fetchedStore sum s.cm.store.version (env.globals 0) instances).1.names)) := by
  rw [fetchCompareAndSet] at h
  split_ifs at h
  · obtain rfl := Option.some.inj h
    have hadded : ∀ names : List String, (names.map routeOf).filter (!·.byAdapter) = [] := by
      intro names
      rw [List.filter_eq_nil_iff]
      intro r hr
      obtain ⟨n, -, rfl⟩ := List.mem_map.1 hr
      simp [routeOf]
    rw [List.filter_append, hadded, List.append_nil, List.filter_comm]
  · obtain rfl := Option.some.inj h
    exact List.filter_comm ..

theorem routes_framed_iff (h : s.fetchCompareAndSet sum instances swapped env = some s') :
    s'.routes.filter (!·.byAdapter) = s.routes.filter (!·.byAdapter) ↔
      ∀ r ∈ s.routes, r.byAdapter = false → r.id ∈ s.cm.store.names →
        r.id ∈ (fetchedStore sum s.cm.store.version (env.globals 0) instances).1.names := by
  rw [routes_fetchCompareAndSet h, List.filter_eq_self]
  simp only [List.mem_filter, Bool.not_eq_true', and_imp, decide_not, decide_eq_false_iff_not,
    not_and, not_not,
    decide_eq_true_eq]

/-- Without a swap the cluster manager is as it was. -/
theorem cm_of_not_swapped (h : s.fetchCompareAndSet sum instances false env = some s') :
    s'.cm = s.cm := by
  rw [fetchCompareAndSet] at h
  split_ifs at h with hnil hswapped
  · cases hswapped
  · obtain rfl := Option.some.inj h
    rfl

theorem cm_of_swapped (h : s.fetchCompareAndSet sum instances true env = some s') :
    s'.cm =
      (s.cm.compareAndSetStore sum (fetchedStore sum s.cm.store.version (env.globals 0) instances).2
        env.order
      (some (fetchedStore sum s.cm.store.version (env.globals 0) instances).1)).cm := by
  rw [fetchCompareAndSet] at h
  split_ifs at h with hnil hswapped
  · obtain rfl := Option.some.inj h
    rfl
  · exact absurd rfl hswapped

/-- A swap leaves no configuration of the old store. -/
theorem findClusterConfig_ne_of_swapped
    (hissued : ∀ c, some c ∈ s.cm.store.config → c.configID ≤ (env.globals 0).configIDSeq)
    (hroom : (env.globals 0).configIDSeq.toNat + instances.length < 2 ^ 64)
    (h : s.fetchCompareAndSet sum instances true env = some s') {n : String}
    (hn : n ∈ s.cm.store.names) :
    s'.cm.store.findClusterConfig n ≠ s.cm.store.findClusterConfig n := by
  intro heq
  rcases find_cases s.cm.store n with ⟨-, -, habsent⟩ | ⟨i, c, hfound⟩
  · exact habsent hn
  · rw [hfound.config] at heq
    rcases find_cases s'.cm.store n with ⟨-, hnone, -⟩ | ⟨i', c', hfound'⟩
    · rw [hnone] at heq
      cases heq
    · obtain rfl : c' = c := Option.some.inj (hfound'.config.symm.trans heq)
      have hold : c'.configID.toNat ≤ (env.globals 0).configIDSeq.toNat :=
        UInt64.le_iff_toNat_le.1 (hissued c' (List.mem_of_getElem? hfound.getElem))
      have hmem : some c' ∈ s'.cm.store.config := List.mem_of_getElem? hfound'.getElem
      rw [cm_of_swapped h] at hmem
      exact absurd (configID_of_mem_compareAndSetStore hroom hmem) (not_lt.2 hold)

end Cloud

/-- A synchronisation leaves the clusters that no Spring Cloud event created and the routes that the
adapter did not add exactly if it does not swap the store or finds no such cluster in it, and no
such route has the name of a cluster that the registry's answer does not contain.  The identities of
configurations come from one counter, which is ahead of those in the store and far from its end. -/
theorem sync_framed_iff {sum : String → String} {s s' : Cloud} {instances : List ServiceInstance}
    {swapped : Bool}
    {env : Env}
    (hissued : ∀ c, some c ∈ s.cm.store.config → c.configID ≤ (env.globals 0).configIDSeq)
    (hroom : (env.globals 0).configIDSeq.toNat + instances.length < 2 ^ 64)
    (hstep : s.fetchCompareAndSet sum instances swapped env = some s') (created : Finset String) :
    Cloud.Framed created s s' ↔
      (swapped = true → ∀ n ∈ s.cm.store.names, n ∈ created) ∧
      ∀ r ∈ s.routes, r.byAdapter = false → r.id ∈ s.cm.store.names →
        r.id ∈ (fetchedStore sum s.cm.store.version (env.globals 0) instances).1.names := by
  constructor
  · intro h
    refine ⟨fun hswapped n hn => ?_, (Cloud.routes_framed_iff hstep).1 h.routes⟩
    subst hswapped
    by_contra hforeign
    exact Cloud.findClusterConfig_ne_of_swapped hissued hroom hstep hn (h.config n hn hforeign)
  · rintro ⟨hclusters, hroutes⟩
    have hroutes := (Cloud.routes_framed_iff hstep).2 hroutes
    cases swapped with
    | true =>
      have hcreated := hclusters rfl
      exact ⟨fun n hn hforeign => absurd (hcreated n hn) hforeign,
        fun n hn hforeign => absurd (hcreated n hn) hforeign, hroutes⟩
    | false =>
      have hcm := Cloud.cm_of_not_swapped hstep
      exact ⟨fun n _ _ => by rw [hcm], fun n _ _ => by rw [hcm], hroutes⟩

namespace Sample

/-- A cluster of the bootstrap and its route, and no service. -/
def bootstrapped : Cloud :=
  ⟨createDefaultClusterManager id {} [{ name := "static" }], ∅, [⟨"static", "/", "static", false⟩],
    ∅⟩

end Sample

theorem sync_framed_iff_unswapped : ∃ s',
    Sample.bootstrapped.fetchCompareAndSet id [Sample.instanceAt "static" "10.0.0.1"] false
        { globals := fun _ => { configIDSeq := 1 } } = some s' ∧
      Cloud.Framed ∅ Sample.bootstrapped s' := by
  have hstep : Sample.bootstrapped.fetchCompareAndSet id [Sample.instanceAt "static" "10.0.0.1"]
      false
      { globals := fun _ => { configIDSeq := 1 } } = some _ := rfl
  refine ⟨_, hstep, (sync_framed_iff ?_ (by decide) hstep ∅).2 ⟨nofun, ?_⟩⟩
  · intro c hc
    obtain rfl := Option.some.inj (List.mem_singleton.1 hc)
    decide
  · decide +kernel

/-- A synchronisation that finds no service removes the cluster of the bootstrap and its route. -/
theorem bootstrap_cluster_dropped : ∃ s',
    Sample.bootstrapped.fetchCompareAndSet id [] true { globals := fun _ => { configIDSeq := 1 } } =
      some s' ∧
      s'.cm.store.names = [] ∧ s'.routes = [] ∧ ¬Cloud.Framed ∅ Sample.bootstrapped s' := by
  refine ⟨_, rfl, rfl, rfl, fun hframed => ?_⟩
  have hconfig := hframed.config "static" (List.mem_singleton.2 rfl) (Finset.notMem_empty _)
  cases hconfig

end Pixiu.SpringCloud
