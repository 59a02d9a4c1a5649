import Pixiu.Base.FinMap
import Pixiu.Cluster.Manager

/-!
# What the store methods can do

Once for all, for the methods that work on one cluster: `UpdateCluster`, `SetEndpoint` and
`DeleteEndpoint` keep the store, edit the first configuration of the name they are given together
with the runtime of that name, or add a cluster of that name (`Touch`).  `SetEndpoint` has one more
outcome, for the empty name (`Stray`).

An edited configuration and its runtime agree if they agreed before.

The methods that work on many clusters are described by what they leave: `removeLoop_eq`,
`foldl_publishXDS`, `ensureLoop_eq`.
-/

namespace Pixiu.Cluster

/-- The configuration that `findClusterConfig` finds, and its place. -/
structure FoundAt (s : ClusterStore) (name : String) (i : ℕ) (c : ClusterConfig) : Prop where
  index : s.findClusterIndex name = some i
  config : s.findClusterConfig name = some c
  getElem : s.config[i]? = some (some c)
  name_eq : c.name = name
  first : ∀ j < i, ∀ c', s.config[j]? = some (some c') → c'.name ≠ name

/-- A runtime and a configuration list the same endpoints. -/
def Agree (r : RuntimeCluster) (c : ClusterConfig) : Prop := r.endpointSnapshot.lists = c.lists

/-- What a method that is given the name of one cluster can do to a store. -/
inductive Touch (s s' : ClusterStore) (name : String) : Prop where
  | keep (hconfig : s'.config = s.config) (hmap : s'.clustersMap = s.clustersMap)
  | edit {i : ℕ} {c c' : ClusterConfig} {r : RuntimeCluster} (hfound : FoundAt s name i c)
      (hname : c'.name = name) (hconfig : s'.config = s.config.set i (some c'))
      (hmap : s'.clustersMap = Function.update s.clustersMap name (some r))
      (hprepared : Prepared c → Prepared c')
      (hagree : Prepared c → (∀ r₀, s.clustersMap name = some r₀ → Agree r₀ c) → Agree r c')
  | add {c' : ClusterConfig} {r : RuntimeCluster} (habsent : name ∉ s.names)
      (hname : c'.name = name)
      (hconfig : s'.config = s.config ++ [some c'])
      (hmap : s'.clustersMap = Function.update s.clustersMap name (some r))
        (hprepared : Prepared c')
      (hagree : Agree r c')

/-- What `SetEndpoint` does for the empty name, when no cluster has it: the configuration goes
under a made-up name, the runtime under the empty one. -/
inductive Stray (s s' : ClusterStore) (name : String) : Prop where
  | intro {c' : ClusterConfig} {r₀ r : RuntimeCluster} (hempty : name = "")
      (habsent : name ∉ s.names)
      (hname : c'.name ≠ "") (hconfig : s'.config = s.config ++ [some c'])
      (hmap : s'.clustersMap =
        Function.update (Function.update s.clustersMap c'.name (some r₀)) name (some r))

/-! ## Finding -/

section Find

variable {s : ClusterStore} {name : String}

theorem named_iff {c : Option ClusterConfig} : named name c = true ↔ ∃ c', c = some c' ∧
    c'.name = name := by
  cases c <;> simp [named]

/-- A name is not there, or its first configuration is found. -/
theorem find_cases (s : ClusterStore) (name : String) :
    (s.findClusterIndex name = none ∧ s.findClusterConfig name = none ∧ name ∉ s.names) ∨
      ∃ i c, FoundAt s name i c := by
  cases hindex : s.findClusterIndex name with
  | none =>
    rw [ClusterStore.findClusterIndex, List.findIdx?_eq_none_iff] at hindex
    refine .inl ⟨rfl, ?_, ?_⟩
    · rw [ClusterStore.findClusterConfig, List.find?_eq_none.2]
      · rfl
      · exact fun c hc => by simp [hindex c hc]
    · rw [ClusterStore.names, mem_namesOf_iff]
      rintro ⟨c, hc, hname⟩
      have := hindex _ hc
      rw [← Bool.not_eq_true, named_iff] at this
      exact this ⟨c, rfl, hname⟩
  | some i =>
    have hi := hindex
    rw [ClusterStore.findClusterIndex, List.findIdx?_eq_some_iff_getElem] at hi
    obtain ⟨hlt, hnamed, hfirst⟩ := hi
    obtain ⟨c, hc, hname⟩ := named_iff.1 hnamed
    refine .inr ⟨i, c, hindex, ?_, ?_, hname, ?_⟩
    · rw [ClusterStore.findClusterConfig, List.find?_eq_some_iff_getElem.2
        ⟨hc ▸ hnamed, i, hlt, hc, fun j hj => by simpa using hfirst j hj⟩]
      rfl
    · rw [List.getElem?_eq_getElem hlt, hc]
    · intro j hj c' hc' hname'
      obtain ⟨hjlt, hget⟩ := List.getElem?_eq_some_iff.1 hc'
      exact hfirst j hj (named_iff.2 ⟨c', hget, hname'⟩)

theorem notMem_names_of_hasCluster {s : ClusterStore} {name : String}
    (h : s.hasCluster name = some false) : name ∉ s.names := by
  rw [ClusterStore.hasCluster] at h
  rw [ClusterStore.names]
  generalize s.config = config at h ⊢
  induction config with
  | nil => simp
  | cons c config ih =>
    cases c with
    | none => cases h
    | some c =>
      rw [hasClusterIn] at h
      by_cases hname : c.name = name
      · rw [if_pos hname] at h
        cases h
      · rw [if_neg hname] at h
        simpa [Ne.symm hname] using ih h

/-- The first configuration of a name is found. -/
theorem foundAt_of_first {i : ℕ} {c : ClusterConfig} (hget : s.config[i]? = some (some c))
    (hname : c.name = name)
    (hfirst : ∀ j < i, ∀ c', s.config[j]? = some (some c') → c'.name ≠ name) :
    FoundAt s name i c := by
  rcases find_cases s name with ⟨-, -, habsent⟩ | ⟨k, c', hfound⟩
  · exact absurd (mem_namesOf_iff.2 ⟨c, List.mem_of_getElem? hget, hname⟩) habsent
  · rcases lt_trichotomy k i with hlt | rfl | hgt
    · exact absurd hfound.name_eq (hfirst k hlt c' hfound.getElem)
    · obtain rfl : c = c' := Option.some_inj.1 (Option.some_inj.1 (hget.symm.trans hfound.getElem))
      exact hfound
    · exact absurd hname (hfound.first i hgt c hget)

/-- The configuration that takes the place of the one that was found is found. -/
theorem FoundAt.set {s' : ClusterStore} {i : ℕ} {c c' : ClusterConfig} (h : FoundAt s name i c)
    (hname : c'.name = name) (hconfig : s'.config = s.config.set i (some c')) :
    FoundAt s' name i c' := by
  refine foundAt_of_first ?_ hname fun j hj c₀ hc₀ => ?_
  · rw [hconfig, List.getElem?_set_self (List.getElem?_eq_some_iff.1 h.getElem).1]
  · rw [hconfig, List.getElem?_set_ne (by omega)] at hc₀
    exact h.first j hj c₀ hc₀

theorem FoundAt.mem_names {i : ℕ} {c : ClusterConfig} (h : FoundAt s name i c) : name ∈ s.names :=
  mem_namesOf_iff.2 ⟨c, List.mem_of_getElem? h.getElem, h.name_eq⟩

end Find

/-! ## The methods -/

section Methods

variable {sum : String → String} {g : Globals} {s : ClusterStore}

variable (sum) in
theorem agree_replacement (old : Option RuntimeCluster) {c : ClusterConfig} (h : Prepared c) :
    Agree (replacement sum old c) c := lists_newCluster sum h _

theorem updateCluster_touch (new : ClusterConfig) :
    Touch s (s.updateCluster sum g new).1 new.name := by
  rcases find_cases s new.name with ⟨hindex, -, -⟩ | ⟨i, c, hfound⟩
  · rw [ClusterStore.updateCluster, hindex]
    exact .keep rfl rfl
  · rw [ClusterStore.updateCluster, hfound.index]
    have hprepared : Prepared (prepareClusterConfig sum g new).1 :=
      prepared_prepareOwnedClusterConfig g new
    refine .edit hfound (prepareOwnedClusterConfig_name g new) rfl rfl (fun _ => hprepared)
      fun _ _ => ?_
    cases s.clustersMap new.name with
    | none => exact agree_replacement sum none hprepared
    | some old => exact agree_replacement sum (some old) hprepared

section Specs

variable (sum) (g)

/-- Republished endpoints agree with the configuration, whatever the runtime was. -/
theorem republish_spec (clusterConfig : ClusterConfig) (r : RuntimeCluster)
    (endpoints : List (Option Endpoint)) :
    (republish sum g clusterConfig r endpoints).1.name = clusterConfig.name ∧
      Prepared (republish sum g clusterConfig r endpoints).1 ∧
      Agree (republish sum g clusterConfig r endpoints).2.1
        (republish sum g clusterConfig r endpoints).1 := by
  have hprepared : Prepared (prepareOwnedClusterConfig sum g { clusterConfig with endpoints }).1 :=
    prepared_prepareOwnedClusterConfig g _
  exact ⟨prepareOwnedClusterConfig_name g _, hprepared, lists_refreshEndpoints sum hprepared r⟩

theorem replaceEndpointAt_spec (clusterConfig : ClusterConfig) (r : RuntimeCluster) (idx : ℕ)
    (e : Endpoint) :
    (replaceEndpointAt sum g clusterConfig r idx e).1.name = clusterConfig.name ∧
      Prepared (replaceEndpointAt sum g clusterConfig r idx e).1 ∧
      Agree (replaceEndpointAt sum g clusterConfig r idx e).2.1
        (replaceEndpointAt sum g clusterConfig r idx e).1 := by
  simp only [replaceEndpointAt]
  split
  · exact republish_spec ..
  · split_ifs
    · exact republish_spec ..
    · exact republish_spec ..

end Specs

theorem agree_runtimeFor {name : String} {c : ClusterConfig} (h : Prepared c)
    (hagree : ∀ r, s.clustersMap name = some r → Agree r c) :
    Agree (s.runtimeFor sum name c) c := by
  rw [ClusterStore.runtimeFor]
  split
  next r hr =>
    split_ifs
    · exact hagree r hr
    · exact agree_replacement sum _ h
  next => exact agree_replacement sum _ h

variable (sum) (g) in
/-- On one configuration, `SetEndpoint` leaves a configuration and a runtime that agree. -/
theorem setEndpointAt_spec (name : String) (i : ℕ) {c : ClusterConfig}
    (hc : s.config[i]? = some (some c))
    (e : Endpoint) : ∃ c' r,
      (s.setEndpointAt sum g name i c e).1.config = s.config.set i (some c') ∧
      (s.setEndpointAt sum g name i c e).1.clustersMap = Function.update s.clustersMap name
        (some r) ∧
      c'.name = c.name ∧ (Prepared c → Prepared c') ∧
      (Prepared c → (∀ r₀, s.clustersMap name = some r₀ → Agree r₀ c) → Agree r c') := by
  simp only [ClusterStore.setEndpointAt]
  split
  · refine ⟨c, _, ?_, rfl, rfl, id, fun hprepared hagree => agree_runtimeFor hprepared hagree⟩
    obtain ⟨hlt, heq⟩ := List.getElem?_eq_some_iff.1 hc
    exact (heq ▸ List.set_getElem_self hlt).symm
  · obtain ⟨hname, hprepared, hagree⟩ := replaceEndpointAt_spec sum g c
      (s.runtimeFor sum name c) _ _
    exact ⟨_, _, rfl, rfl, hname, fun _ => hprepared, fun _ _ => hagree⟩
  · obtain ⟨hname, hprepared, hagree⟩ := republish_spec sum g c
      (s.runtimeFor sum name c) _
    exact ⟨_, _, rfl, rfl, hname, fun _ => hprepared, fun _ _ => hagree⟩

theorem prepared_admitCluster (c : ClusterConfig) : Prepared (admitCluster sum g c).1 := by
  rw [admitCluster]
  split_ifs <;> exact prepared_prepareOwnedClusterConfig ..

/-- The name under which `AddCluster` adds a cluster. -/
def admittedName (g : Globals) (c : ClusterConfig) : String :=
  if c.name = "" then "cluster-" ++ toString g.clusterIndex else c.name

variable (sum) in
@[simp] theorem admitCluster_name (c : ClusterConfig) :
    (admitCluster sum g c).1.name = admittedName g c := by
  rw [admitCluster, admittedName]
  split_ifs <;> exact prepareOwnedClusterConfig_name ..

theorem admittedName_ne_empty (c : ClusterConfig) : admittedName g c ≠ "" := by
  rw [admittedName]
  split_ifs with h
  · exact append_ne_empty (by decide) _
  · exact h

theorem setEndpoint_cases (name : String) (e : Option Endpoint) :
    Touch s (s.setEndpoint sum g name e).1 name ∨
      e.isSome ∧ Stray s (s.setEndpoint sum g name e).1 name := by
  cases e with
  | none => exact .inl (.keep rfl rfl)
  | some e =>
    rcases find_cases s name with ⟨hindex, hfind, habsent⟩ | ⟨i, c, hfound⟩
    · simp only [ClusterStore.setEndpoint, hindex]
      have hlast :
          (s.append sum
            (admitCluster sum g (ClusterStore.firstUse name)).1).config[s.config.length]? =
          some (some (admitCluster sum g (ClusterStore.firstUse name)).1) := by
        simp [ClusterStore.append, ClusterStore.setRuntime]
      obtain ⟨c', r, hconfig, hmap, hname, hprepared, hagree⟩ := setEndpointAt_spec sum
        (admitCluster sum g (ClusterStore.firstUse name)).2 name s.config.length hlast e
      have hconfig' : (s.append sum (admitCluster sum g (ClusterStore.firstUse name)).1).config.set
          s.config.length (some c') = s.config ++ [some c'] := by
        simp [ClusterStore.append, ClusterStore.setRuntime]
      rw [hconfig'] at hconfig
      rw [admitCluster_name] at hname
      by_cases hempty : name = ""
      · -- the runtime goes under the empty name, the configuration under a made-up one
        obtain ⟨r₀, hr₀⟩ : ∃ r₀,
            (s.append sum (admitCluster sum g (ClusterStore.firstUse name)).1).clustersMap =
              Function.update s.clustersMap c'.name (some r₀) :=
          ⟨_, by rw [hname, ← admitCluster_name sum]; rfl⟩
        rw [hr₀] at hmap
        exact .inr ⟨rfl, .intro hempty habsent (hname ▸ admittedName_ne_empty _) hconfig hmap⟩
      · have hsame : admittedName g (ClusterStore.firstUse name) = name := if_neg hempty
        rw [hsame] at hname
        refine .inl (.add habsent hname hconfig ?_ (hprepared (prepared_admitCluster _))
          (hagree (prepared_admitCluster _) ?_))
        · rw [hmap]
          simp only [ClusterStore.append, ClusterStore.setRuntime, admitCluster_name, hsame,
            Function.update_idem]
        · intro r₀ hr₀
          simp only [ClusterStore.append, ClusterStore.setRuntime, admitCluster_name, hsame,
            Function.update_self, Option.some.injEq] at hr₀
          exact hr₀ ▸ agree_replacement sum _ (prepared_admitCluster _)
    · simp only [ClusterStore.setEndpoint, hfound.index, hfound.config]
      obtain ⟨c', r, hconfig, hmap, hname, hprepared, hagree⟩ :=
        setEndpointAt_spec sum g name i hfound.getElem e
      exact .inl (.edit hfound (hname.trans hfound.name_eq) hconfig hmap hprepared hagree)

theorem deleteEndpoint_touch {name endpointID : String} {done : ClusterStore × Globals}
    (h : s.deleteEndpoint sum g name endpointID = some done) : Touch s done.1 name := by
  rcases find_cases s name with ⟨hindex, hfind, -⟩ | ⟨i, c, hfound⟩
  · simp only [ClusterStore.deleteEndpoint, hindex, Option.some.injEq] at h
    subst h
    exact .keep rfl rfl
  · simp only [ClusterStore.deleteEndpoint, hfound.index, hfound.config] at h
    split at h
    · cases h
    · -- no such endpoint: at most the runtime is another one
      cases h
      refine .edit hfound hfound.name_eq ?_ rfl id fun hprepared hagree =>
        agree_runtimeFor hprepared hagree
      obtain ⟨hlt, heq⟩ := List.getElem?_eq_some_iff.1 hfound.getElem
      exact (heq ▸ List.set_getElem_self hlt).symm
    · cases h
      obtain ⟨hname, hprepared, hagree⟩ :=
        republish_spec sum g c ((s.runtimeFor sum name c).removeEndpoint _) _
      exact .edit hfound (hname.trans hfound.name_eq) rfl rfl (fun _ => hprepared) fun _ _ => hagree

end Methods

/-! ## What a touch leaves alone -/

section Touch

variable {s s' : ClusterStore} {name : String}

/-- The version plays no part. -/
theorem Touch.of_increaseVersion (h : Touch s.increaseVersion s' name) : Touch s s' name := by
  cases h with
  | keep hconfig hmap => exact .keep hconfig hmap
  | edit hfound hname hconfig hmap hprepared hagree =>
    exact .edit ⟨hfound.index, hfound.config, hfound.getElem, hfound.name_eq, hfound.first⟩ hname
      hconfig hmap hprepared hagree
  | add habsent hname hconfig hmap hprepared hagree =>
    exact .add habsent hname hconfig hmap hprepared hagree

/-- No configuration disappears. -/
theorem Touch.names_subset (h : Touch s s' name) : s.names ⊆ s'.names := by
  intro n hn
  cases h with
  | keep hconfig _ => rwa [ClusterStore.names, hconfig]
  | @edit i c c' r hfound hname hconfig _ _ _ =>
    obtain ⟨c₀, hc₀, rfl⟩ := mem_namesOf_iff.1 hn
    obtain ⟨j, hj⟩ := List.mem_iff_getElem?.1 hc₀
    by_cases heq : j = i
    · subst heq
      rw [hfound.getElem, Option.some_inj, Option.some_inj] at hj
      refine mem_namesOf_iff.2 ⟨c', ?_, by rw [hname, ← hj, hfound.name_eq]⟩
      rw [hconfig]
      exact List.mem_set (List.getElem?_eq_some_iff.1 hfound.getElem).1 _
    · refine mem_namesOf_iff.2 ⟨c₀, ?_, rfl⟩
      rw [hconfig]
      refine List.mem_iff_getElem?.2 ⟨j, ?_⟩
      rw [List.getElem?_set_ne (Ne.symm heq), hj]
  | add _ _ hconfig _ _ _ =>
    rw [ClusterStore.names, hconfig, namesOf_append]
    exact List.mem_append_left _ hn

theorem Stray.names_subset (h : Stray s s' name) : s.names ⊆ s'.names := by
  obtain ⟨-, -, -, hconfig, -⟩ := h
  rw [ClusterStore.names, ClusterStore.names, hconfig, namesOf_append]
  exact List.subset_append_left ..

/-- Editing a cluster does not touch those of other names. -/
theorem filter_named_set {config : List (Option ClusterConfig)} {i : ℕ} {c c' : ClusterConfig}
    (hc : config[i]? = some (some c)) {n : String} (hn : c.name ≠ n) (hn' : c'.name ≠ n) :
    (config.set i (some c')).filter (named n) = config.filter (named n) := by
  induction config generalizing i with
  | nil => cases hc
  | cons d config ih =>
    cases i with
    | zero =>
      obtain rfl : d = some c := Option.some_inj.1 hc
      simp [named, hn, hn']
    | succ i =>
      rw [List.set_cons_succ, List.filter_cons, List.filter_cons, ih hc]

theorem filter_named_append (config : List (Option ClusterConfig)) {c : ClusterConfig} {n : String}
    (hn : c.name ≠ n) : (config ++ [some c]).filter (named n) = config.filter (named n) := by
  rw [List.filter_append]
  simp [named, hn]

/-- A method that is given a name leaves the clusters of other names alone. -/
theorem Touch.frame (h : Touch s s' name) {n : String} (hn : n ≠ name) :
    s'.config.filter (named n) = s.config.filter (named n) ∧
      s'.clustersMap n = s.clustersMap n := by
  cases h with
  | keep hconfig hmap => rw [hconfig, hmap]; exact ⟨rfl, rfl⟩
  | edit hfound hname hconfig hmap _ _ =>
    rw [hconfig, hmap, Function.update_of_ne hn]
    exact ⟨filter_named_set hfound.getElem (hfound.name_eq ▸ hn.symm) (hname ▸ hn.symm), rfl⟩
  | add _ hname hconfig hmap _ _ =>
    rw [hconfig, hmap, Function.update_of_ne hn]
    exact ⟨filter_named_append _ (hname ▸ hn.symm), rfl⟩

end Touch

/-! ## Many clusters at once -/

section Many

variable {sum : String → String}

/-- Removing leaves the configurations of other names, and no runtime of a name that was there. -/
theorem removeLoop_eq {namesToDel : List String} {config config' : List (Option ClusterConfig)}
    {clustersMap clustersMap' : String → Option RuntimeCluster}
    (h : removeLoop namesToDel config clustersMap = some (config', clustersMap')) :
    config' = config.filter (fun c => c.any (·.name ∉ namesToDel)) ∧
      ∀ n, clustersMap' n =
        if n ∈ namesToDel ∧ n ∈ namesOf config then none else clustersMap n := by
  induction config generalizing config' clustersMap clustersMap' with
  | nil =>
    cases h
    simp
  | cons c config ih =>
    cases c with
    | none => exact ih h
    | some c =>
      rw [removeLoop] at h
      split at h
      next hcount =>
        rw [List.count_eq_zero] at hcount
        obtain ⟨⟨rest, m⟩, hrest, heq⟩ := Option.map_eq_some_iff.1 h
        cases heq
        obtain ⟨rfl, hmap⟩ := ih hrest
        refine ⟨by simp [hcount], fun n => ?_⟩
        refine (hmap n).trans (if_congr (and_congr_right fun hn => ?_) rfl rfl)
        have hne : n ≠ c.name := fun heq => hcount (heq ▸ hn)
        simp [hne]
      next hcount =>
        have hmem : c.name ∈ namesToDel := List.one_le_count_iff.1 hcount.ge
        obtain ⟨rfl, hmap⟩ := ih h
        refine ⟨by simp [hmem], fun n => ?_⟩
        rw [hmap]
        by_cases hn : n = c.name
        · subst hn
          simp [hmem]
        · simp [hn]
      next => cases h

/-- A cluster that was built, with its runtime. -/
structure Built (c : ClusterConfig) (b : ClusterConfig × RuntimeCluster) : Prop where
  name : b.1.name = c.name
  prepared : Prepared b.1
  agree : Agree b.2 b.1
  addresses : b.1.nonNil.map (·.address) = c.nonNil.map (·.address)

theorem built_names {clusters : List ClusterConfig} {built : List (ClusterConfig × RuntimeCluster)}
    (h : List.Forall₂ Built clusters built) : built.map (·.1.name) = clusters.map (·.name) := by
  induction h with
  | nil => rfl
  | cons hone _ ih => rw [List.map_cons, List.map_cons, ih, hone.name]

theorem built_agree {clusters : List ClusterConfig} {built : List (ClusterConfig × RuntimeCluster)}
    (h : List.Forall₂ Built clusters built) : ∀ b ∈ built, Prepared b.1 ∧ Agree b.2 b.1 := by
  induction h with
  | nil => exact fun b hb => nomatch hb
  | cons hone _ ih =>
    intro b hb
    rcases List.mem_cons.1 hb with rfl | hb
    · exact ⟨hone.prepared, hone.agree⟩
    · exact ih b hb

theorem namesOf_map_some (l : List (ClusterConfig × RuntimeCluster)) :
    namesOf (l.map (some ·.1)) = l.map (·.1.name) := by
  induction l with
  | nil => rfl
  | cons b l ih => rw [List.map_cons, namesOf_some_cons, ih, List.map_cons]

variable (sum) in
/-- What is built for the clusters of xDS joins the candidate. -/
theorem foldl_publishXDS (clusters : List ClusterConfig)
    (state : ClusterStore × ClusterStore × Globals) :
    ∃ built : List (ClusterConfig × RuntimeCluster), List.Forall₂ Built clusters built ∧
      (clusters.foldl (ClusterManager.publishXDS sum) state).1.config =
        state.1.config ++ built.map (some ·.1) ∧
      (clusters.foldl (ClusterManager.publishXDS sum) state).1.clustersMap =
        Table.fill state.1.clustersMap (built.map fun b => (b.1.name, b.2)) := by
  induction clusters generalizing state with
  | nil => exact ⟨[], .nil, by simp, rfl⟩
  | cons c clusters ih =>
    obtain ⟨built, hbuilt, hconfig, hmap⟩ := ih (ClusterManager.publishXDS sum state c)
    have hprepared : Prepared (prepareClusterConfig sum state.2.2 c).1 :=
      prepared_prepareOwnedClusterConfig ..
    have hname : (prepareClusterConfig sum state.2.2 c).1.name = c.name :=
      prepareOwnedClusterConfig_name ..
    have hagree := lists_newCluster sum hprepared
      (((state.2.1.clustersMap c.name).map RuntimeCluster.snapshotForRuntimeReplacement).map
        Prod.snd)
    refine ⟨(_, _) :: built, .cons ⟨hname, hprepared, hagree,
      prepareOwnedClusterConfig_addresses ..⟩ hbuilt, ?_, ?_⟩
    · rw [List.foldl_cons, hconfig, List.map_cons]
      exact List.append_assoc ..
    · rw [List.foldl_cons, hmap, List.map_cons, Table.fill_cons]
      simp only [hname]
      rfl

/-- The argument of `ReplaceXDSClusters` passes: its clusters have distinct names, none empty and
none of a static cluster. -/
theorem validateXDS_eq_ok {staticNames newManaged : List String}
    {clusters : List (Option ClusterConfig)}
    {valid : List ClusterConfig}
    (h : ClusterManager.validateXDS staticNames newManaged clusters = .ok valid) :
    clusters = valid.map some ∧ (valid.map (·.name)).Nodup ∧
      ∀ c ∈ valid, c.name ≠ "" ∧ c.name ∉ newManaged ∧ c.name ∉ staticNames := by
  induction clusters generalizing newManaged valid with
  | nil =>
    cases h
    simp
  | cons c clusters ih =>
    cases c with
    | none => cases h
    | some c =>
      rw [ClusterManager.validateXDS] at h
      split_ifs at h with hempty hduplicate hconflict
      cases hrest : ClusterManager.validateXDS staticNames (newManaged ++ [c.name]) clusters with
      | error e => simp [hrest] at h
      | ok rest =>
        rw [hrest] at h
        cases h
        obtain ⟨rfl, hnodup, hall⟩ := ih hrest
        refine ⟨rfl, ?_, ?_⟩
        · rw [List.map_cons, List.nodup_cons]
          refine ⟨fun hmem => ?_, hnodup⟩
          obtain ⟨c', hc', heq⟩ := List.mem_map.1 hmem
          exact (hall c' hc').2.1 (by simp [heq])
        · intro c' hc'
          rcases List.mem_cons.1 hc' with rfl | hc'
          · exact ⟨hempty, hduplicate, hconflict⟩
          · obtain ⟨h₁, h₂, h₃⟩ := hall c' hc'
            exact ⟨h₁, fun hmem => h₂ (List.mem_append_left _ hmem), h₃⟩

/-- The names and IDs of configurations once they are prepared one after another. -/
def preparedIDs (sum : String → String) :
    Globals → List (Option ClusterConfig) → List (String × UInt64)
  | _, [] => []
  | g, none :: config => preparedIDs sum g config
  | g, some c :: config =>
      let prepared := prepareClusterConfig sum g c
      (c.name, prepared.1.configID) :: preparedIDs sum prepared.2 config

/-- A configuration that was ensured has the ID that it was given when it was prepared. -/
theorem mem_preparedIDs
    {runtime : (String → Option RuntimeCluster) → ClusterConfig → RuntimeCluster}
    {config : List (Option ClusterConfig)} {g : Globals} {m : String → Option RuntimeCluster}
    {c' : ClusterConfig} (h : some c' ∈ (ensureLoop sum runtime g config m).1) :
    (c'.name, c'.configID) ∈ preparedIDs sum g config := by
  induction config generalizing g m with
  | nil => cases h
  | cons c config ih =>
    cases c with
    | none => exact ih ((List.mem_cons.1 h).resolve_left (by simp))
    | some c =>
      rcases List.mem_cons.1 h with heq | h
      · obtain rfl := Option.some.inj heq
        rw [preparedIDs, prepareClusterConfig, prepareOwnedClusterConfig_name]
        exact List.mem_cons_self
      · exact List.mem_cons_of_mem _ (ih h)

/-- What the loops that put the runtimes of a store in order make of one configuration. -/
inductive Ensured (sum : String → String)
    (runtime : (String → Option RuntimeCluster) → ClusterConfig → RuntimeCluster)
    (clustersMap : String → Option RuntimeCluster) :
    Option ClusterConfig → Option (ClusterConfig × RuntimeCluster) → Prop where
  | nil : Ensured sum runtime clustersMap none none
  | config (g : Globals) (c : ClusterConfig) : Ensured sum runtime clustersMap (some c)
      (some ((prepareClusterConfig sum g c).1,
        runtime clustersMap (prepareClusterConfig sum g c).1))

/-- What was ensured, as a list of configurations. -/
def ensuredConfig (built : List (Option (ClusterConfig × RuntimeCluster))) :
    List (Option ClusterConfig) := built.map (·.map Prod.fst)

/-- What was ensured, as entries of the map. -/
def ensuredRuntimes (built : List (Option (ClusterConfig × RuntimeCluster))) :
    List (String × RuntimeCluster) := built.filterMap (·.map fun b => (b.1.name, b.2))

theorem forall₂_ensured_congr
    {runtime : (String → Option RuntimeCluster) → ClusterConfig → RuntimeCluster}
    (hlocal : ∀ m m' c, m c.name = m' c.name → runtime m c = runtime m' c)
    {m m' : String → Option RuntimeCluster} {config : List (Option ClusterConfig)}
    {built : List (Option (ClusterConfig × RuntimeCluster))} (hm : ∀ n ∈ namesOf config, m n = m' n)
    (h : List.Forall₂ (Ensured sum runtime m) config built) :
    List.Forall₂ (Ensured sum runtime m') config built := by
  induction h with
  | nil => exact .nil
  | cons hone _ ih =>
    cases hone with
    | nil => exact .cons .nil (ih hm)
    | config g c =>
      have hname : (prepareClusterConfig sum g c).1.name = c.name :=
        prepareOwnedClusterConfig_name g c
      rw [hlocal m m' _ (hm _ (hname ▸ List.mem_cons_self))]
      exact .cons (.config g c) (ih fun n hn => hm n (List.mem_cons_of_mem _ hn))

/-- The loops that put the runtimes of a store in order, for distinct names and runtimes that depend
on what the map has for their name only. -/
theorem ensureLoop_eq {runtime : (String → Option RuntimeCluster) → ClusterConfig → RuntimeCluster}
    (hlocal : ∀ m m' c, m c.name = m' c.name → runtime m c = runtime m' c) (g : Globals)
    {config : List (Option ClusterConfig)} (hnodup : (namesOf config).Nodup)
    (clustersMap : String → Option RuntimeCluster) :
    ∃ built, List.Forall₂ (Ensured sum runtime clustersMap) config built ∧
      (ensureLoop sum runtime g config clustersMap).1 = ensuredConfig built ∧
      (ensureLoop sum runtime g config clustersMap).2.1 =
        Table.fill clustersMap (ensuredRuntimes built) := by
  induction config generalizing g clustersMap with
  | nil => exact ⟨[], .nil, rfl, rfl⟩
  | cons c config ih =>
    cases c with
    | none =>
      obtain ⟨built, hbuilt, hconfig, hmap⟩ := ih g hnodup clustersMap
      refine ⟨none :: built, .cons .nil hbuilt, ?_, ?_⟩
      · simp only [ensureLoop, hconfig]
        rfl
      · simp only [ensureLoop, hmap]
        rfl
    | some c =>
      rw [namesOf_some_cons, List.nodup_cons] at hnodup
      have hname : (prepareClusterConfig sum g c).1.name = c.name :=
        prepareOwnedClusterConfig_name g c
      obtain ⟨built, hbuilt, hconfig, hmap⟩ := ih (prepareClusterConfig sum g c).2 hnodup.2
        (Function.update clustersMap (prepareClusterConfig sum g c).1.name
          (some (runtime clustersMap (prepareClusterConfig sum g c).1)))
      -- the other names are not the one that was just put in the map
      have hother : List.Forall₂ (Ensured sum runtime clustersMap) config built := by
        refine forall₂_ensured_congr hlocal (fun n hn => ?_) hbuilt
        rw [Function.update_of_ne]
        rintro rfl
        exact hnodup.1 (hname ▸ hn)
      refine ⟨some (_, _) :: built, .cons (.config g c) hother, ?_, ?_⟩
      · simp only [ensureLoop, hconfig]
        rfl
      · simp only [ensureLoop, hmap]
        rfl

theorem ensured_names {runtime : (String → Option RuntimeCluster) → ClusterConfig → RuntimeCluster}
    {m : String → Option RuntimeCluster} {config : List (Option ClusterConfig)}
    {built : List (Option (ClusterConfig × RuntimeCluster))}
    (h : List.Forall₂ (Ensured sum runtime m) config built) :
    namesOf (ensuredConfig built) = namesOf config ∧
      (ensuredRuntimes built).map Prod.fst = namesOf config := by
  induction h with
  | nil => exact ⟨rfl, rfl⟩
  | cons hone _ ih =>
    cases hone with
    | nil => exact ih
    | config g c =>
      have hname : (prepareClusterConfig sum g c).1.name = c.name :=
        prepareOwnedClusterConfig_name g c
      rw [namesOf_some_cons, ← ih.1]
      exact ⟨congrArg (· :: _) hname, by rw [ih.1, ← ih.2, ← hname]; rfl⟩

/-- A configuration that was ensured comes from one of the list, and its runtime is in the map. -/
theorem mem_ensuredConfig
    {runtime : (String → Option RuntimeCluster) → ClusterConfig → RuntimeCluster}
    {m : String → Option RuntimeCluster} {config : List (Option ClusterConfig)}
    {built : List (Option (ClusterConfig × RuntimeCluster))}
    (h : List.Forall₂ (Ensured sum runtime m) config built) {c' : ClusterConfig}
    (hc' : some c' ∈ ensuredConfig built) :
    ∃ c g, some c ∈ config ∧ c' = (prepareClusterConfig sum g c).1 ∧
      (c'.name, runtime m c') ∈ ensuredRuntimes built := by
  induction h with
  | nil => cases hc'
  | cons hone _ ih =>
    cases hone with
    | nil =>
      rcases List.mem_cons.1 hc' with hc' | hc'
      · cases hc'
      · obtain ⟨c, g, hc, heq, hentry⟩ := ih hc'
        exact ⟨c, g, List.mem_cons_of_mem _ hc, heq, hentry⟩
    | config g c =>
      rcases List.mem_cons.1 hc' with hc' | hc'
      · cases hc'
        exact ⟨c, g, List.mem_cons_self, rfl, List.mem_cons_self⟩
      · obtain ⟨c₀, g₀, hc₀, heq, hentry⟩ := ih hc'
        exact ⟨c₀, g₀, List.mem_cons_of_mem _ hc₀, heq, List.mem_cons_of_mem _ hentry⟩

end Many

end Pixiu.Cluster
