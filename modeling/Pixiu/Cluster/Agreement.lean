import Pixiu.Cluster.Effects

/-!
# Configurations and runtimes agree

A store keeps a list of configurations and a map of runtimes, and each method maintains them in
its own way.  They agree (`Agrees`) when the names are distinct, the runtimes are those of the
names, and each runtime lists the endpoints of its configuration.

Three things break this: adding a cluster under a name that is there (`AddCluster`, or a
bootstrap), `SetEndpoint` for the empty name, and a store offered to `CompareAndSetStore` whose own
names are not distinct, or not all there, or whose own runtimes disagree.  `agrees_of_careful`:
runs that avoid these keep the agreement.
-/

namespace Pixiu.Cluster

/-- Names, runtimes and endpoints of a store agree. -/
structure Agrees (s : ClusterStore) : Prop where
  nodup : s.names.Nodup
  keys : ∀ n, (s.clustersMap n).isSome ↔ n ∈ s.names
  lists : ∀ n c r, s.findClusterConfig n = some c → s.clustersMap n = some r →
    r.endpointSnapshot.lists = c.lists

/-! ## The calls that keep the agreement -/

section Careful

variable (sum : String → String)

/-- A store that may take the place of the current one.  A runtime of its own is kept where the name
is new and its ID is the one that its configuration has or is given. -/
structure Offerable (g : Globals) (cm : ClusterManager) (candidate : ClusterStore) : Prop where
  nodup : candidate.names.Nodup
  nonempty : "" ∉ candidate.names
  kept : ∀ c, some c ∈ candidate.config → ∀ r, candidate.clustersMap c.name = some r →
    cm.store.clustersMap c.name = none →
    (c.name, r.configID) ∈ preparedIDs sum g candidate.config →
    Agree r (assembleClusterEndpoints sum c)

/-- A call that does not break the agreement. -/
def Call.Careful (cm : ClusterManager) (call : Call) : Prop :=
  match call.op with
  | .addCluster c => admittedName call.globals c ∉ cm.store.names
  | .setEndpoint name endpoint => endpoint = none ∨ name ≠ "" ∨ name ∈ cm.store.names
  | .compareAndSetStore (some candidate) =>
      candidate.version = cm.store.version → Offerable sum call.globals cm candidate
  | _ => True

/-- Every call is careful where it is made. -/
def CarefulCalls (cm : ClusterManager) : List Call → Prop
  | [] => True
  | call :: calls => call.Careful sum cm ∧
      ∀ reply, call.apply sum cm = some reply → CarefulCalls reply.cm calls

/-- Every cluster of a bootstrap has a name of its own. -/
def CarefulClusters (state : ClusterStore × Globals) : List ClusterConfig → Prop
  | [] => True
  | c :: clusters => admittedName state.2 c ∉ state.1.names ∧
      CarefulClusters (ClusterStore.addCluster sum state.2 state.1 c) clusters

end Careful

/-! ## The invariant -/

/-- `Agrees`, one configuration at a time, with what keeps it up. -/
structure Kept (s : ClusterStore) : Prop where
  nodup : s.names.Nodup
  keys : ∀ n, (s.clustersMap n).isSome ↔ n ∈ s.names
  prepared : ∀ c, some c ∈ s.config → Prepared c
  agree : ∀ c, some c ∈ s.config → ∀ r, s.clustersMap c.name = some r → Agree r c

section Kept

variable {s s' : ClusterStore} {name : String}

theorem Kept.agrees (h : Kept s) : Agrees s where
  nodup := h.nodup
  keys := h.keys
  lists n c r hc hr := by
    rcases find_cases s n with ⟨-, hnone, -⟩ | ⟨i, c', hfound⟩
    · rw [hnone] at hc
      cases hc
    · obtain rfl : c' = c := Option.some_inj.1 (hfound.config.symm.trans hc)
      exact h.agree c' (List.mem_of_getElem? hfound.getElem) r (hfound.name_eq ▸ hr)

/-- In a list of distinct names, a name has one configuration. -/
theorem unique_of_nodup {config : List (Option ClusterConfig)} (hnodup : (namesOf config).Nodup)
    {a b : ClusterConfig} (ha : some a ∈ config) (hb : some b ∈ config) (h : a.name = b.name) :
    a = b := by
  have hnodup' : ((config.filterMap id).map (·.name)).Nodup := by
    rwa [namesOf, show config.filterMap (·.map (·.name)) = (config.filterMap id).map (·.name) by
      rw [List.map_filterMap]; rfl] at hnodup
  exact List.inj_on_of_nodup_map hnodup' (List.mem_filterMap.2 ⟨_, ha, rfl⟩)
    (List.mem_filterMap.2 ⟨_, hb, rfl⟩) h

theorem namesOf_set {config : List (Option ClusterConfig)} {i : ℕ} {c c' : ClusterConfig}
    (hc : config[i]? = some (some c)) (hname : c'.name = c.name) :
    namesOf (config.set i (some c')) = namesOf config := by
  induction config generalizing i with
  | nil => cases hc
  | cons d config ih =>
    cases i with
    | zero =>
      obtain rfl : d = some c := Option.some_inj.1 hc
      rw [List.set_cons_zero, namesOf_some_cons, namesOf_some_cons, hname]
    | succ i =>
      cases d with
      | none => exact ih hc
      | some d => rw [List.set_cons_succ, namesOf_some_cons, namesOf_some_cons, ih hc]

/-- The runtime of one name is another one. -/
theorem keys_update {s : ClusterStore} {names : List String}
    (hkeys : ∀ n, (s.clustersMap n).isSome ↔ n ∈ names)
    (name : String) (r : RuntimeCluster) (n : String) :
    (Function.update s.clustersMap name (some r) n).isSome ↔ n ∈ names ∨ n = name := by
  by_cases hn : n = name
  · simp [hn]
  · simp [hn, hkeys]

/-- The version plays no part. -/
theorem Kept.congr (h : Kept s) (hconfig : s'.config = s.config)
    (hmap : s'.clustersMap = s.clustersMap) :
    Kept s' := by
  obtain ⟨config, version, clustersMap⟩ := s'
  obtain rfl : config = s.config := hconfig
  obtain rfl : clustersMap = s.clustersMap := hmap
  exact ⟨h.nodup, h.keys, h.prepared, h.agree⟩

/-- **One method for one cluster** keeps the agreement. -/
theorem Kept.touch (h : Kept s) (htouch : Touch s s' name) : Kept s' := by
  cases htouch with
  | keep hconfig hmap => exact h.congr hconfig hmap
  | @edit i c c' r hfound hname hconfig hmap hprepared hagree =>
    have hc : some c ∈ s.config := List.mem_of_getElem? hfound.getElem
    have hnames : s'.names = s.names := by
      rw [ClusterStore.names, hconfig, namesOf_set hfound.getElem (hname.trans hfound.name_eq.symm)]
      rfl
    have hmem : ∀ {c₀}, some c₀ ∈ s'.config → c₀ = c' ∨ some c₀ ∈ s.config := by
      intro c₀ hc₀
      rw [hconfig] at hc₀
      exact (List.mem_or_eq_of_mem_set hc₀).symm.imp_left Option.some_inj.1
    have hc' : some c' ∈ s'.config := by
      rw [hconfig]
      exact List.mem_set (List.getElem?_eq_some_iff.1 hfound.getElem).1 _
    have hnodup : s'.names.Nodup := hnames ▸ h.nodup
    refine ⟨hnodup, fun n => ?_, fun c₀ hc₀ => ?_, fun c₀ hc₀ r₀ hr₀ => ?_⟩
    · rw [hmap, hnames, keys_update h.keys]
      exact or_iff_left_of_imp fun heq => heq ▸ hfound.mem_names
    · rcases hmem hc₀ with rfl | hc₀
      · exact hprepared (h.prepared c hc)
      · exact h.prepared c₀ hc₀
    · rw [hmap] at hr₀
      by_cases hn : c₀.name = name
      · -- the one configuration of the name is the edited one
        obtain rfl := unique_of_nodup hnodup hc₀ hc' (hn.trans hname.symm)
        rw [hn, Function.update_self, Option.some_inj] at hr₀
        subst hr₀
        exact hagree (h.prepared c hc) fun r₀ hr₀ => h.agree c hc r₀ (hfound.name_eq ▸ hr₀)
      · rw [Function.update_of_ne hn] at hr₀
        exact h.agree c₀ ((hmem hc₀).resolve_left fun heq => hn (heq ▸ hname)) r₀ hr₀
  | @add c' r habsent hname hconfig hmap hprepared hagree =>
    have hnames : s'.names = s.names ++ [name] := by
      rw [ClusterStore.names, hconfig, namesOf_append, ← hname]
      rfl
    have hmem : ∀ {c₀}, some c₀ ∈ s'.config → c₀ = c' ∨ some c₀ ∈ s.config := by
      intro c₀ hc₀
      rw [hconfig, List.mem_append, List.mem_singleton, Option.some_inj] at hc₀
      exact hc₀.symm
    refine ⟨?_, fun n => ?_, fun c₀ hc₀ => ?_, fun c₀ hc₀ r₀ hr₀ => ?_⟩
    · rw [hnames]
      exact List.nodup_append.2 ⟨h.nodup, List.nodup_singleton _, fun a ha b hb heq =>
        habsent (List.mem_singleton.1 hb ▸ heq ▸ ha)⟩
    · rw [hmap, hnames, keys_update h.keys, List.mem_append, List.mem_singleton]
    · rcases hmem hc₀ with rfl | hc₀
      · exact hprepared
      · exact h.prepared c₀ hc₀
    · rw [hmap] at hr₀
      rcases hmem hc₀ with rfl | hc₀
      · rw [hname, Function.update_self, Option.some_inj] at hr₀
        exact hr₀ ▸ hagree
      · have hn : c₀.name ≠ name := fun heq => habsent (heq ▸ mem_namesOf_iff.2 ⟨c₀, hc₀, rfl⟩)
        rw [Function.update_of_ne hn] at hr₀
        exact h.agree c₀ hc₀ r₀ hr₀

theorem addCluster_touch {sum : String → String} {g : Globals} {c : ClusterConfig}
    (h : admittedName g c ∉ s.names) : Touch s (s.addCluster sum g c).1 (admittedName g c) := by
  have hprepared : Prepared (admitCluster sum g c).1 := prepared_admitCluster c
  have hagree := agree_replacement sum (s.clustersMap (admitCluster sum g c).1.name) hprepared
  refine .add h (admitCluster_name sum c) rfl ?_ hprepared hagree
  simp only [ClusterStore.addCluster, ClusterStore.append, ClusterStore.setRuntime,
    admitCluster_name]

/-- **Removing clusters** keeps the agreement. -/
theorem Kept.remove (h : Kept s) {namesToDel : List String}
    (hremove : s.removeClusters namesToDel = some s') : Kept s' := by
  obtain ⟨⟨config, m⟩, hloop, rfl⟩ := Option.map_eq_some_iff.1 hremove
  obtain ⟨rfl, hmap⟩ := removeLoop_eq hloop
  have hmem : ∀ {c}, some c ∈ s.config.filter (fun c => c.any (·.name ∉ namesToDel)) ↔
      some c ∈ s.config ∧ c.name ∉ namesToDel := by
    intro c
    simp [List.mem_filter]
  refine ⟨h.nodup.sublist (List.filter_sublist.filterMap _), fun n => ?_, fun c hc => ?_,
    fun c hc r hr => ?_⟩
  · simp only [hmap, ClusterStore.names, mem_namesOf_iff, hmem]
    split_ifs with hdel
    · simp only [Option.isSome_none, Bool.false_eq_true, false_iff]
      rintro ⟨c, ⟨-, hkeep⟩, rfl⟩
      exact hkeep hdel.1
    · rw [h.keys, ClusterStore.names, mem_namesOf_iff]
      constructor
      · rintro ⟨c, hc, rfl⟩
        exact ⟨c, ⟨hc, fun hn => hdel ⟨hn, mem_namesOf_iff.2 ⟨c, hc, rfl⟩⟩⟩, rfl⟩
      · rintro ⟨c, ⟨hc, -⟩, rfl⟩
        exact ⟨c, hc, rfl⟩
  · exact h.prepared c (hmem.1 hc).1
  · have hkeep := (hmap c.name).trans (if_neg fun hdel => (hmem.1 hc).2 hdel.1)
    exact h.agree c (hmem.1 hc).1 r (hkeep.symm.trans hr)

/-- Two parts of a store that agree, with names of their own, agree together. -/
theorem Kept.fill (h : Kept s) {built : List (ClusterConfig × RuntimeCluster)}
    (hnodup : (built.map (·.1.name)).Nodup) (hdisjoint : ∀ b ∈ built, b.1.name ∉ s.names)
    (hprepared : ∀ b ∈ built, Prepared b.1) (hagree : ∀ b ∈ built, Agree b.2 b.1)
    (version : BitVec 32) :
    Kept { config := s.config ++ built.map (some ·.1), version,
           clustersMap := Table.fill s.clustersMap (built.map fun b => (b.1.name, b.2)) } := by
  have hkeys : (built.map fun b => (b.1.name, b.2)).map Prod.fst = built.map (·.1.name) := by
    rw [List.map_map]
    rfl
  have hfound : ∀ b ∈ built,
      Table.fill s.clustersMap (built.map fun b => (b.1.name, b.2)) b.1.name = some b.2 :=
    fun b hb => Table.fill_of_mem (hkeys ▸ hnodup) (List.mem_map_of_mem hb)
  have hother : ∀ n, n ∉ built.map (·.1.name) →
      Table.fill s.clustersMap (built.map fun b => (b.1.name, b.2)) n = s.clustersMap n :=
    fun n hn => Table.fill_of_notMem (hkeys ▸ hn)
  have hnotMem : ∀ n ∈ s.names, n ∉ built.map (·.1.name) := by
    intro n hn hmem
    obtain ⟨b, hb, rfl⟩ := List.mem_map.1 hmem
    exact hdisjoint b hb hn
  have hmem : ∀ {c}, some c ∈ s.config ++ built.map (some ·.1) →
      some c ∈ s.config ∨ ∃ b ∈ built, b.1 = c := by
    intro c hc
    simpa using hc
  refine ⟨?_, fun n => ?_, fun c hc => ?_, fun c hc r hr => ?_⟩
  · rw [ClusterStore.names, namesOf_append, namesOf_map_some]
    exact List.nodup_append.2 ⟨h.nodup, hnodup, fun a ha b hb heq => hnotMem a ha (heq ▸ hb)⟩
  · rw [ClusterStore.names, namesOf_append, namesOf_map_some, List.mem_append]
    by_cases hn : n ∈ built.map (·.1.name)
    · obtain ⟨b, hb, rfl⟩ := List.mem_map.1 hn
      simp only [hfound b hb, hn, or_true, Option.isSome_some]
    · simp only [hother n hn, hn, or_false]
      exact h.keys n
  · rcases hmem hc with hc | ⟨b, hb, rfl⟩
    · exact h.prepared c hc
    · exact hprepared b hb
  · rcases hmem hc with hc | ⟨b, hb, rfl⟩
    · have hn := hnotMem c.name (mem_namesOf_iff.2 ⟨c, hc, rfl⟩)
      exact h.agree c hc r ((hother _ hn).symm.trans hr)
    · obtain rfl : b.2 = r := Option.some_inj.1 ((hfound b hb).symm.trans hr)
      exact hagree b hb

/-- **Replacing the clusters of xDS** keeps the agreement. -/
theorem Kept.replace {sum : String → String} {cm : ClusterManager} (h : Kept cm.store) (g : Globals)
    (order : MapOrder) (clusters : List (Option ClusterConfig)) :
    Kept (cm.replaceXDSClusters sum g order clusters).cm.store := by
  rw [ClusterManager.replaceXDSClusters]
  split
  next => exact h
  next valid hvalid =>
    obtain ⟨-, hnodup, hvalid⟩ := validateXDS_eq_ok hvalid
    obtain ⟨built, hbuilt, hconfig, hmap⟩ :=
      foldl_publishXDS sum valid (cm.staticStore, cm.store, g)
    have hnames := built_names hbuilt
    have hmem : ∀ {c}, some c ∈ cm.staticConfigs → some c ∈ cm.store.config := fun hc =>
      (List.mem_filter.1 hc).1
    have hstatic : Kept cm.staticStore := by
      refine ⟨h.nodup.sublist (List.filter_sublist.filterMap _), fun n => ?_,
        fun c hc => h.prepared c (hmem hc), fun c hc r hr => ?_⟩
      · simp only [ClusterManager.staticStore, ClusterStore.names]
        split_ifs with hn
        · obtain ⟨c, hc, rfl⟩ := mem_namesOf_iff.1 hn
          simp only [hn, iff_true]
          exact (h.keys c.name).2 (mem_namesOf_iff.2 ⟨c, hmem hc, rfl⟩)
        · simp [hn]
      · have hn : c.name ∈ namesOf cm.staticConfigs := mem_namesOf_iff.2 ⟨c, hc, rfl⟩
        exact h.agree c (hmem hc) r ((if_pos hn).symm.trans hr)
    have hdisjoint : ∀ b ∈ built, b.1.name ∉ cm.staticStore.names := by
      intro b hb hn
      have hb' : b.1.name ∈ valid.map (·.name) := hnames ▸ List.mem_map_of_mem hb
      obtain ⟨c, hc, hname⟩ := List.mem_map.1 hb'
      exact (hvalid c hc).2.2 (hname ▸ hn)
    exact (hstatic.fill (hnames ▸ hnodup) hdisjoint (fun b hb => (built_agree hbuilt b hb).1)
      (fun b hb => (built_agree hbuilt b hb).2) 0).congr hconfig hmap

/-- What was ensured for the configurations of a store agrees. -/
theorem kept_ensured {sum : String → String}
    {runtime : (String → Option RuntimeCluster) → ClusterConfig → RuntimeCluster}
    (hlocal : ∀ m m' c, m c.name = m' c.name → runtime m c = runtime m' c) (g : Globals)
    (hnodup : s.names.Nodup)
    (hagree : ∀ g' c, some c ∈ s.config →
      (c.name, (prepareClusterConfig sum g' c).1.configID) ∈ preparedIDs sum g s.config →
      Agree (runtime s.clustersMap (prepareClusterConfig sum g' c).1)
    (prepareClusterConfig sum g' c).1)
    {names : List String} (hnames : ∀ n, n ∈ names ↔ n ∈ s.names) :
    Kept { s with
      config := (ensureLoop sum runtime g s.config s.clustersMap).1
      clustersMap :=
        removeRuntimesNotIn names (ensureLoop sum runtime g s.config s.clustersMap).2.1 } := by
  obtain ⟨built, hbuilt, hconfig, hmap⟩ := ensureLoop_eq hlocal g hnodup s.clustersMap
  obtain ⟨hnamesConfig, hnamesMap⟩ := ensured_names hbuilt
  have hmem : ∀ c', some c' ∈ ensuredConfig built → _ := fun c' hc' => mem_ensuredConfig hbuilt hc'
  have hfound : ∀ c', some c' ∈ ensuredConfig built →
      removeRuntimesNotIn names (Table.fill s.clustersMap (ensuredRuntimes built)) c'.name =
        some (runtime s.clustersMap c') := by
    intro c' hc'
    obtain ⟨c, g, hc, rfl, hentry⟩ := hmem c' hc'
    rw [removeRuntimesNotIn, if_pos]
    · exact Table.fill_of_mem (hnamesMap ▸ hnodup) hentry
    · rw [hnames, ClusterStore.names, ← hnamesConfig]
      exact mem_namesOf_iff.2 ⟨_, hc', rfl⟩
  have hids : ∀ c', some c' ∈ ensuredConfig built →
      (c'.name, c'.configID) ∈ preparedIDs sum g s.config :=
    fun c' hc' => mem_preparedIDs (hconfig ▸ hc')
  rw [hconfig, hmap]
  refine ⟨?_, fun n => ?_, fun c' hc' => ?_, fun c' hc' r hr => ?_⟩
  · rw [ClusterStore.names, hnamesConfig]
    exact hnodup
  · rw [ClusterStore.names, hnamesConfig]
    constructor
    · intro hsome
      by_contra hn
      simp only [removeRuntimesNotIn] at hsome
      rw [if_neg fun h => hn ((hnames n).1 h)] at hsome
      cases hsome
    · intro hn
      obtain ⟨c', hc', rfl⟩ := mem_namesOf_iff.1 (hnamesConfig ▸ hn)
      exact Option.isSome_of_eq_some (hfound c' hc')
  · obtain ⟨c, g, hc, rfl, -⟩ := hmem c' hc'
    exact prepared_prepareOwnedClusterConfig g c
  · obtain ⟨c, g, hc, rfl, -⟩ := hmem c' hc'
    obtain rfl := Option.some_inj.1 ((hfound _ hc').symm.trans hr)
    have hid := hids _ hc'
    rw [prepareClusterConfig, prepareOwnedClusterConfig_name] at hid
    exact hagree _ c hc hid

/-- Carrying over the cursors moves no endpoint. -/
theorem Kept.carryOver (h : Kept s) (old : ClusterStore) :
    Kept (s.carryOverRuntimeStateFrom old) := by
  refine ⟨h.nodup, fun n => ?_, h.prepared, fun c hc r hr => ?_⟩
  · rw [ClusterStore.carryOverRuntimeStateFrom, Option.isSome_map]
    exact h.keys n
  · obtain ⟨r₀, hr₀, rfl⟩ := Option.map_eq_some_iff.1 hr
    have := h.agree c hc r₀ hr₀
    rw [Agree] at this ⊢
    split_ifs
    · split <;> exact this
    · exact this

/-- A runtime that is there for the name, or a new one, agrees with a prepared configuration. -/
theorem agree_ensureRuntime {sum : String → String} {m : String → Option RuntimeCluster}
    {c : ClusterConfig} (hc : Prepared c)
    (h : ∀ r, m c.name = some r → r.configIsIdenticalTo c → Agree r c) :
    Agree (ensureRuntime sum m c) c := by
  rw [ensureRuntime]
  split
  next r hr =>
    split_ifs with hidentical
    · exact h r hr hidentical
    · exact agree_replacement sum _ hc
  next => exact agree_replacement sum _ hc

theorem agree_repairRuntime {sum : String → String} {old m : String → Option RuntimeCluster}
    {c : ClusterConfig} (hc : Prepared c)
    (h : ∀ r, m c.name = some r → old c.name = none → r.configIsIdenticalTo c → Agree r c) :
    Agree (repairRuntime sum old m c) c := by
  rw [repairRuntime]
  split
  next r hr hold =>
    split_ifs with hidentical
    · exact h r hr hold hidentical
    · exact agree_replacement sum _ hc
  next => exact agree_replacement sum _ hc

/-- **The swap of the store** keeps the agreement. -/
theorem Kept.compareAndSet {sum : String → String} {cm : ClusterManager} (h : Kept cm.store)
    (g : Globals) (order : MapOrder) {candidate : Option ClusterStore}
    (hoffer : ∀ store, candidate = some store → store.version = cm.store.version →
      Offerable sum g cm store) :
    Kept (cm.compareAndSetStore sum g order candidate).cm.store := by
  rw [ClusterManager.compareAndSetStore]
  split_ifs with hversion
  · exact h
  cases candidate with
  | none =>
    refine Kept.carryOver
      (kept_ensured (fun m m' c hm => by simp only [ensureRuntime, hm]) g h.nodup
      (fun g c hc _ => ?_) fun n => Iff.rfl) _
    refine agree_ensureRuntime (prepared_prepareOwnedClusterConfig g c) fun r hr _ => ?_
    have hname : (prepareClusterConfig sum g c).1.name = c.name :=
      prepareOwnedClusterConfig_name g c
    exact (h.agree c hc r (hname ▸ hr)).trans
      ((h.prepared c hc).lists_prepareOwnedClusterConfig g c).symm
  | some store =>
    have hoffer := hoffer store rfl (not_not.1 hversion)
    have hnonempty : ∀ n, n ∈ store.names.filter (· ≠ "") ↔ n ∈ store.names := by
      intro n
      rw [List.mem_filter, and_iff_left_iff_imp]
      intro hn
      simpa using fun heq : n = "" => hoffer.nonempty (heq ▸ hn)
    refine Kept.carryOver
      (kept_ensured (fun m m' c hm => by simp only [repairRuntime, hm]) g hoffer.nodup
      (fun g' c hc hid => ?_) hnonempty) _
    refine agree_repairRuntime (prepared_prepareOwnedClusterConfig g' c)
      fun r hr hold hidentical => ?_
    have hname : (prepareClusterConfig sum g' c).1.name = c.name :=
      prepareOwnedClusterConfig_name g' c
    rw [hname] at hr hold
    rw [← beq_iff_eq.1 hidentical] at hid
    exact (hoffer.kept c hc r hr hold hid).trans (prepareOwnedClusterConfig_lists g' c).symm

end Kept

/-! ## Runs -/

section Run

variable {sum : String → String} {cm : ClusterManager}

theorem Kept.modifyRuntime {s : ClusterStore} (h : Kept s) (name : String)
    {f : RuntimeCluster → RuntimeCluster}
    (hf : ∀ r, (f r).endpointSnapshot.lists = r.endpointSnapshot.lists) :
    Kept (s.modifyRuntime name f) := by
  refine ⟨h.nodup, fun n => ?_, h.prepared, fun c hc r hr => ?_⟩
  · simp only [ClusterStore.modifyRuntime, Function.update_apply]
    split_ifs with hn
    · rw [Option.isSome_map, hn]
      exact h.keys name
    · exact h.keys n
  · simp only [ClusterStore.modifyRuntime, Function.update_apply] at hr
    split_ifs at hr with hn
    · obtain ⟨r₀, hr₀, rfl⟩ := Option.map_eq_some_iff.1 hr
      exact (hf r₀).trans (h.agree c hc r₀ (hn ▸ hr₀))
    · exact h.agree c hc r hr

/-- **One careful call** keeps the agreement. -/
theorem kept_apply {call : Call} {reply : Reply} (h : Kept cm.store)
    (hcareful : call.Careful sum cm)
    (hreply : call.apply sum cm = some reply) : Kept reply.cm.store := by
  obtain ⟨g, order, op⟩ := call
  have henter : ∀ name, Kept (cm.enter name).store := fun name => by
    rw [enter_store]
    exact h.congr rfl rfl
  cases op with
  | addCluster c =>
    cases hreply
    have hfresh : admittedName g c ∉ (cm.enter c.name).store.names := by
      rw [enter_store]
      exact hcareful
    exact (henter c.name).touch (addCluster_touch hfresh)
  | updateCluster new =>
    cases hreply
    exact (henter new.name).touch (updateCluster_touch new)
  | upsertXDSCluster c =>
    have hbump : Kept cm.store.increaseVersion := h.congr rfl rfl
    rcases upsertXDSCluster_cases hreply with ⟨-, hcm, -⟩ | ⟨c', rfl, haccept, -, -, hcm⟩
    · rwa [hcm]
    · rcases hcm with ⟨-, hcm⟩ | ⟨-, hhas, hcm⟩
      · rw [hcm]
        exact hbump.touch (updateCluster_touch c')
      · rw [hcm]
        refine hbump.touch (addCluster_touch ?_)
        rw [admittedName, if_neg haccept.1]
        exact notMem_names_of_hasCluster hhas
  | replaceXDSClusters clusters =>
    cases hreply
    exact h.replace g order clusters
  | setEndpoint name endpoint =>
    cases hreply
    rcases setEndpoint_cases name endpoint with htouch | ⟨hsome, hstray⟩
    · exact (henter name).touch htouch
    · -- a careful call does not go astray
      obtain ⟨hempty, habsent, -⟩ := hstray
      rw [enter_store] at habsent
      rcases hcareful with hnone | hname | hname
      · rw [hnone] at hsome
        cases hsome
      · exact absurd hempty hname
      · exact absurd hname habsent
  | deleteEndpoint name id =>
    obtain ⟨done, hdone, rfl⟩ := Option.map_eq_some_iff.1 hreply
    exact (henter name).touch (deleteEndpoint_touch hdone)
  | removeCluster names =>
    obtain ⟨store, hstore, rfl⟩ := Option.map_eq_some_iff.1 hreply
    rw [foldl_releaseXDSOwnership_store] at hstore
    exact Kept.remove (s := cm.nextEndpointEvent.store) (h.congr rfl rfl) hstore
  | removeXDSClusters names =>
    simp only [Call.apply, ClusterManager.removeXDSClusters] at hreply
    split_ifs at hreply
    · cases hreply
      exact h
    · obtain ⟨store, hstore, rfl⟩ := Option.map_eq_some_iff.1 hreply
      exact Kept.remove (s := cm.nextEndpointEvent.store) (h.congr rfl rfl) hstore
  | compareAndSetStore candidate =>
    cases hreply
    refine h.compareAndSet g order fun store heq hversion => ?_
    subst heq
    exact hcareful hversion
  | handleEndpointHealth name address healthy =>
    cases hreply
    exact h.modifyRuntime name fun r => lists_updateEndpointAddressHealth r address healthy
  | moveCursor name cursor =>
    cases hreply
    exact h.modifyRuntime name fun r => rfl

/-- **Careful calls** keep the agreement. -/
theorem kept_run {calls : List Call} {cm' : ClusterManager} {log : List EndpointStateChange}
    (h : Kept cm.store) (hcareful : CarefulCalls sum cm calls)
    (hrun : run sum cm calls = some (cm', log)) : Kept cm'.store := by
  induction calls generalizing cm log with
  | nil =>
    cases hrun
    exact h
  | cons call calls ih =>
    obtain ⟨reply, hreply, rest, hrest, -⟩ := run_cons_eq_some hrun
    exact ih (kept_apply h hcareful.1 hreply) (hcareful.2 reply hreply) hrest

theorem kept_foldl_addCluster {clusters : List ClusterConfig} {state : ClusterStore × Globals}
    (h : Kept state.1) (hcareful : CarefulClusters sum state clusters) :
    Kept (clusters.foldl (fun r c => ClusterStore.addCluster sum r.2 r.1 c) state).1 := by
  induction clusters generalizing state with
  | nil => exact h
  | cons c clusters ih => exact ih (h.touch (addCluster_touch hcareful.1)) hcareful.2

theorem kept_empty : Kept {} := by
  refine ⟨List.nodup_nil, fun n => ?_, nofun, nofun⟩
  simp [ClusterStore.names]

/-- **Configurations and runtimes agree** in every state that careful calls lead to from a bootstrap
whose clusters have names of their own. -/
theorem agrees_of_careful {g : Globals} {clusters : List ClusterConfig}
    (hclusters : CarefulClusters sum ({}, g) clusters) {calls : List Call}
    (hcalls : CarefulCalls sum (createDefaultClusterManager sum g clusters) calls)
    {cm' : ClusterManager} {log : List EndpointStateChange}
    (hrun : run sum (createDefaultClusterManager sum g clusters) calls = some (cm', log)) :
    Agrees cm'.store :=
  (kept_run (kept_foldl_addCluster kept_empty hclusters) hcalls hrun).agrees

/-- A cluster of one endpoint from the bootstrap, and a second endpoint that joins it. -/
theorem agrees_secondEndpoint : ∃ cm' log,
    run id (createDefaultClusterManager id {} [{ name := "a", endpoints := [some { id := "1" }] }])
      [{ op := .setEndpoint "a" (some { id := "2" }) }] = some (cm', log) ∧ Agrees cm'.store := by
  have hrun : run id (createDefaultClusterManager id {}
      [{ name := "a", endpoints := [some { id := "1" }] }])
      [{ op := .setEndpoint "a" (some { id := "2" }) }] = some (_, _) := rfl
  refine ⟨_, _, hrun, agrees_of_careful ?_ ?_ hrun⟩
  · exact ⟨List.not_mem_nil, trivial⟩
  · exact ⟨.inr (.inl (by decide)), fun _ _ => trivial⟩

/-- The same cluster added twice is there twice. -/
theorem not_agrees_addedTwice : ∃ cm' log,
    run id (createDefaultClusterManager id {} [{ name := "a" }])
      [{ op := .addCluster { name := "a" } }] =
      some (cm', log) ∧ ¬ Agrees cm'.store :=
  ⟨_, _, rfl, fun h => absurd h.nodup (by decide)⟩

end Run

end Pixiu.Cluster
