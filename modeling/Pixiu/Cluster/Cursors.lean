import Pixiu.Cluster.Ownership

/-!
# Round-robin cursors across replacements

A runtime that replaces another starts with its cursor at 0, unless the method carries the old
cursor over. `keepsCursors_iff` says for each of the methods that replace runtimes when the rotation
goes on: always for `UpdateCluster`, `UpsertXDSCluster` and `CompareAndSetStore` with another store,
and for the rest only where nothing is lost.

* `AddCluster` of a name that is there, and `ReplaceXDSClusters`, do not carry over.
* `CompareAndSetStore` with the current store carries over from the very runtimes that it has just
  built.
-/

namespace Pixiu.Cluster

/-! ## The rotation goes on -/

/-- Every name that is there before and after has the cursor it had. -/
def KeepsCursors (s s' : ClusterStore) : Prop :=
  ∀ n r r', n ∈ s.names → n ∈ s'.names → s.clustersMap n = some r → s'.clustersMap n = some r' →
    r'.roundRobinCursor = r.roundRobinCursor

/-- The methods that replace runtimes as a whole. -/
def Op.Replaces : Op → Prop
  | .addCluster _ | .updateCluster _ | .upsertXDSCluster _ | .replaceXDSClusters _ |
      .compareAndSetStore _ => True
  | _ => False

/-- A cluster of this name, if it is there, has its cursor at the start. -/
def AtStart (s : ClusterStore) (n : String) : Prop :=
  n ∈ s.names → ∀ r, s.clustersMap n = some r → r.roundRobinCursor = 0

section

variable (sum : String → String)

/-- The call loses no cursor. -/
def Call.KeepsRotation (cm : ClusterManager) (call : Call) : Prop :=
  match call.op with
  | .addCluster c => AtStart cm.store (admittedName call.globals c)
  | .replaceXDSClusters clusters =>
      (∃ e, ClusterManager.validateXDS (namesOf cm.staticConfigs) [] clusters = .error e) ∨
        ∀ c, some c ∈ clusters → AtStart cm.store c.name
  | .compareAndSetStore none => ∀ n ∈ cm.store.names, ∀ r, cm.store.clustersMap n = some r →
      r.roundRobinCursor = 0 ∨ ∀ id, (n, id) ∈ preparedIDs sum call.globals cm.store.config →
        id = r.configID
  | _ => True

end

/-! ## One method at a time -/

section Methods

variable {sum : String → String} {g : Globals} {s s' : ClusterStore}

theorem KeepsCursors.of_eq (h : s'.clustersMap = s.clustersMap) : KeepsCursors s s' := by
  intro n r r' _ _ hr hr'
  rw [h, hr, Option.some_inj] at hr'
  rw [hr']

/-- A method that replaces the runtime of one name keeps the cursors if it keeps that one. -/
theorem keepsCursors_update {name : String} {new : RuntimeCluster} (hname : name ∈ s'.names)
    (hmap : s'.clustersMap = Function.update s.clustersMap name (some new)) :
    KeepsCursors s s' ↔ (name ∈ s.names → ∀ r, s.clustersMap name = some r →
      new.roundRobinCursor = r.roundRobinCursor) := by
  constructor
  · intro h hmem r hr
    exact h name r new hmem hname hr (by rw [hmap, Function.update_self])
  · intro h n r r' hn _ hr hr'
    rw [hmap, Function.update_apply] at hr'
    split_ifs at hr' with heq
    · subst heq
      rw [← Option.some_inj.1 hr']
      exact h hn r hr
    · rw [hr, Option.some_inj] at hr'
      rw [hr']

theorem keepsCursors_addCluster (c : ClusterConfig) :
    KeepsCursors s (s.addCluster sum g c).1 ↔ AtStart s (admittedName g c) := by
  have hname : admittedName g c ∈ (s.addCluster sum g c).1.names :=
    mem_namesOf_iff.2
      ⟨(admitCluster sum g c).1, List.mem_append_right _ (List.mem_singleton_self _),
      admitCluster_name sum c⟩
  rw [keepsCursors_update hname (by
    rw [ClusterStore.addCluster, ClusterStore.append, ClusterStore.setRuntime, admitCluster_name]),
    AtStart]
  exact forall_congr' fun _ => forall_congr' fun r => forall_congr' fun _ => eq_comm

theorem keepsCursors_updateCluster (new : ClusterConfig) :
    KeepsCursors s (s.updateCluster sum g new).1 := by
  rcases find_cases s new.name with ⟨hindex, -, -⟩ | ⟨i, c, hfound⟩
  · rw [ClusterStore.updateCluster, hindex]
    exact .of_eq rfl
  · intro n r r' _ _ hr hr'
    rw [ClusterStore.updateCluster, hfound.index] at hr'
    simp only [ClusterStore.setRuntime, ClusterStore.setConfig, Function.update_apply] at hr'
    split_ifs at hr' with heq
    · subst heq
      rw [hr, Option.some_inj] at hr'
      rw [← hr']
      rfl
    · rw [hr, Option.some_inj] at hr'
      rw [hr']

variable (sum) in
/-- The runtimes that `ReplaceXDSClusters` builds start at 0, and the others stay. -/
theorem foldl_publishXDS_cursor (clusters : List ClusterConfig)
    (state : ClusterStore × ClusterStore × Globals)
    (n : String) :
    (n ∈ clusters.map (·.name) → ∃ r,
        (clusters.foldl (ClusterManager.publishXDS sum) state).1.clustersMap n = some r ∧
          r.roundRobinCursor = 0) ∧
      (n ∉ clusters.map (·.name) →
        (clusters.foldl (ClusterManager.publishXDS sum) state).1.clustersMap n =
          state.1.clustersMap n) := by
  induction clusters using List.reverseRecOn with
  | nil => simp
  | append_singleton clusters c ih =>
    rw [List.foldl_append, List.foldl_cons, List.foldl_nil]
    simp only [ClusterManager.publishXDS, ClusterStore.setRuntime, Function.update_apply,
      List.map_append,
      List.map_cons, List.map_nil, List.mem_append, List.mem_singleton, not_or]
    by_cases hn : n = c.name
    · rw [if_pos hn]
      exact ⟨fun _ => ⟨_, rfl, rfl⟩, fun h => absurd hn h.2⟩
    · rw [if_neg hn]
      exact ⟨fun h => ih.1 (h.resolve_right hn), fun h => ih.2 h.1⟩

/-- The loop of `ensureRuntimeClusters` keeps a cursor exactly when no configuration of the name
makes it replace the runtime. -/
theorem ensureLoop_cursor (config : List (Option ClusterConfig)) (g : Globals)
    (m : String → Option RuntimeCluster) {n : String} {r : RuntimeCluster} (hr : m n = some r) :
    ∃ r', (ensureLoop sum (ensureRuntime sum) g config m).2.1 n = some r' ∧
      (((∀ id, (n, id) ∈ preparedIDs sum g config → id = r.configID) ∧ r' = r) ∨
        ((∃ id, (n, id) ∈ preparedIDs sum g config ∧ id ≠ r.configID) ∧ r'.roundRobinCursor =
          0)) := by
  induction config generalizing g m r with
  | nil => exact ⟨r, hr, .inl ⟨nofun, rfl⟩⟩
  | cons c config ih =>
    cases c with
    | none => exact ih g m hr
    | some c =>
      have hname : (prepareClusterConfig sum g c).1.name = c.name :=
        prepareOwnedClusterConfig_name g c
      simp only [ensureLoop, preparedIDs, List.mem_cons, Prod.mk.injEq]
      by_cases hn : n = c.name
      · have hm : m (prepareClusterConfig sum g c).1.name = some r := by rw [hname, ← hn, hr]
        by_cases hidentical : (prepareClusterConfig sum g c).1.configID = r.configID
        · -- the runtime stays, and the rest of the list decides
          have hruntime : ensureRuntime sum m (prepareClusterConfig sum g c).1 = r := by
            simp only [ensureRuntime, hm, RuntimeCluster.configIsIdenticalTo, hidentical,
              beq_self_eq_true, if_true]
          obtain ⟨r', hr', h⟩ := ih (prepareClusterConfig sum g c).2
            (Function.update m (prepareClusterConfig sum g c).1.name
              (some (ensureRuntime sum m (prepareClusterConfig sum g c).1))) (r := r)
            (by rw [hname, ← hn, Function.update_self, hruntime])
          refine ⟨r', hr', h.imp (And.imp_left fun hall id hid => ?_) (And.imp_left ?_)⟩
          · exact hid.elim (fun heq => heq.2.trans hidentical) (hall id)
          · rintro ⟨id, hid, hne⟩
            exact ⟨id, .inr hid, hne⟩
        · -- a new runtime starts at 0, and so does every later one
          have hruntime : ensureRuntime sum m (prepareClusterConfig sum g c).1 =
              replacement sum (some r) (prepareClusterConfig sum g c).1 := by
            simp only [ensureRuntime, hm, RuntimeCluster.configIsIdenticalTo, beq_iff_eq,
              Ne.symm hidentical, if_false]
          obtain ⟨r', hr', h⟩ := ih (prepareClusterConfig sum g c).2
            (Function.update m (prepareClusterConfig sum g c).1.name
              (some (ensureRuntime sum m (prepareClusterConfig sum g c).1)))
            (r := replacement sum (some r) (prepareClusterConfig sum g c).1)
            (by rw [hname, ← hn, Function.update_self, hruntime])
          refine ⟨r', hr', .inr ⟨⟨_, .inl ⟨hn, rfl⟩, hidentical⟩, ?_⟩⟩
          rcases h with ⟨-, rfl⟩ | ⟨-, hzero⟩
          · rfl
          · exact hzero
      · obtain ⟨r', hr', h⟩ := ih (prepareClusterConfig sum g c).2
          (Function.update m (prepareClusterConfig sum g c).1.name
            (some (ensureRuntime sum m (prepareClusterConfig sum g c).1))) (r := r)
          (by rw [Function.update_of_ne (hname ▸ hn), hr])
        refine ⟨r', hr', ?_⟩
        simpa only [hn, false_and, false_or] using h

theorem names_ensureLoop
    {runtime : (String → Option RuntimeCluster) → ClusterConfig → RuntimeCluster}
    (config : List (Option ClusterConfig)) (g : Globals) (m : String → Option RuntimeCluster) :
    namesOf (ensureLoop sum runtime g config m).1 = namesOf config := by
  induction config generalizing g m with
  | nil => rfl
  | cons c config ih =>
    cases c with
    | none => exact ih g m
    | some c =>
      have hname : (prepareClusterConfig sum g c).1.name = c.name :=
        prepareOwnedClusterConfig_name g c
      simp only [ensureLoop, namesOf_some_cons, hname, ih]

theorem carryOverRuntimeStateFrom_self (s : ClusterStore) : s.carryOverRuntimeStateFrom s = s := by
  have hmap : (s.carryOverRuntimeStateFrom s).clustersMap = s.clustersMap := by
    funext n
    rw [ClusterStore.carryOverRuntimeStateFrom]
    cases hr : s.clustersMap n with
    | none => simp [hr]
    | some r =>
      simp only [hr, Option.map_some]
      split_ifs <;> rfl
  exact congrArg (fun m => { s with clustersMap := m }) hmap

/-- The current store, swapped for itself. -/
theorem keepsCursors_ensure (g : Globals) :
    KeepsCursors s
      ((s.ensureRuntimeClusters sum g).carryOverRuntimeStateFrom (s.ensureRuntimeClusters sum g)) ↔
      ∀ n ∈ s.names, ∀ r, s.clustersMap n = some r →
        r.roundRobinCursor = 0 ∨ ∀ id, (n, id) ∈ preparedIDs sum g s.config → id = r.configID := by
  rw [carryOverRuntimeStateFrom_self]
  have hnames : (s.ensureRuntimeClusters sum g).names = s.names := names_ensureLoop ..
  have hmap : ∀ n ∈ s.names, (s.ensureRuntimeClusters sum g).clustersMap n =
      (ensureLoop sum (ensureRuntime sum) g s.config s.clustersMap).2.1 n := fun n hn => if_pos hn
  constructor
  · intro h n hn r hr
    obtain ⟨r', hr', ⟨hall, -⟩ | ⟨-, hzero⟩⟩ := ensureLoop_cursor s.config g s.clustersMap hr
    · exact .inr hall
    · have hkept := h n r r' hn (hnames ▸ hn) hr ((hmap n hn).trans hr')
      exact .inl (hkept.symm.trans hzero)
  · intro h n r r' hn _ hr hr'
    rw [hmap n hn] at hr'
    obtain ⟨r'', hr'', hcases⟩ := ensureLoop_cursor s.config g s.clustersMap hr
    obtain rfl := Option.some_inj.1 (hr''.symm.trans hr')
    rcases hcases with ⟨-, rfl⟩ | ⟨⟨id, hid, hne⟩, hzero⟩
    · rfl
    · rcases h n hn r hr with hstart | hall
      · rw [hzero, hstart]
      · exact absurd (hall id hid) hne

/-- Cursors carried over from another store are its cursors. -/
theorem keepsCursors_carryOver (old : ClusterStore) :
    KeepsCursors old (s.carryOverRuntimeStateFrom old) := by
  intro n r r' _ hn hr hr'
  obtain ⟨r₀, hr₀, rfl⟩ := Option.map_eq_some_iff.1 hr'
  have hmem : n ∈ s.names := hn
  simp only [hmem, if_true, hr]
  rfl

theorem keepsCursors_replaceXDSClusters {cm : ClusterManager} (g : Globals) (order : MapOrder)
    (clusters : List (Option ClusterConfig)) :
    KeepsCursors cm.store (cm.replaceXDSClusters sum g order clusters).cm.store ↔
      (∃ e, ClusterManager.validateXDS (namesOf cm.staticConfigs) [] clusters = .error e) ∨
        ∀ c, some c ∈ clusters → AtStart cm.store c.name := by
  rw [ClusterManager.replaceXDSClusters]
  split
  next e he => exact iff_of_true (.of_eq rfl) (.inl ⟨e, he⟩)
  next valid hvalid =>
    rw [or_iff_right (by simp [hvalid])]
    obtain ⟨rfl, -, -⟩ := validateXDS_eq_ok hvalid
    have hcursor := foldl_publishXDS_cursor sum valid (cm.staticStore, cm.store, g)
    have hnames := names_foldl_publishXDS sum valid (cm.staticStore, cm.store, g)
    simp only [List.mem_map, Option.some.injEq, exists_eq_right]
    constructor
    · intro h c hc hn r hr
      have hmem : c.name ∈ valid.map (·.name) := List.mem_map_of_mem hc
      obtain ⟨r', hr', hzero⟩ := (hcursor c.name).1 hmem
      have hafter := hnames ▸ List.mem_append_right cm.staticStore.names hmem
      exact (h c.name r r' hn hafter hr hr').symm.trans hzero
    · intro h n r r' hn hafter hr hr'
      by_cases hmem : n ∈ valid.map (·.name)
      · obtain ⟨c, hc, rfl⟩ := List.mem_map.1 hmem
        obtain ⟨r'', hr'', hzero⟩ := (hcursor c.name).1 hmem
        obtain rfl := Option.some_inj.1 (hr''.symm.trans hr')
        rw [hzero, h c hc hn r hr]
      · -- a static cluster keeps its runtime
        have hstatic : n ∈ cm.staticStore.names :=
          (List.mem_append.1 (hnames ▸ hafter)).resolve_right hmem
        have hsame : cm.staticStore.clustersMap n = cm.store.clustersMap n := if_pos hstatic
        have heq := ((hcursor n).2 hmem).trans (hsame.trans hr)
        rw [Option.some_inj.1 (hr'.symm.trans heq)]

end Methods

/-- **The rotation goes on exactly when** the call loses no cursor. -/
theorem keepsCursors_iff {sum : String → String} {cm : ClusterManager} {call : Call} {reply : Reply}
    (hop : call.op.Replaces) (h : call.apply sum cm = some reply) :
    KeepsCursors cm.store reply.cm.store ↔ call.KeepsRotation sum cm := by
  obtain ⟨g, order, op⟩ := call
  have henter : ∀ {name : String} {s' : ClusterStore},
      KeepsCursors (cm.enter name).store s' ↔ KeepsCursors cm.store s' := by
    intro name s'
    rw [enter_store]
    exact Iff.rfl
  cases op with
  | addCluster c =>
    cases h
    refine henter.symm.trans ((keepsCursors_addCluster c).trans ?_)
    rw [enter_store]
    exact Iff.rfl
  | updateCluster new =>
    cases h
    exact iff_of_true (henter.1 (keepsCursors_updateCluster new)) trivial
  | upsertXDSCluster c =>
    refine iff_of_true ?_ trivial
    rcases upsertXDSCluster_cases h with ⟨-, hcm, -⟩ |
      ⟨c', rfl, haccept, -, -, ⟨-, hcm⟩ | ⟨-, hhas, hcm⟩⟩
    · exact .of_eq (by rw [hcm])
    · rw [hcm]
      exact keepsCursors_updateCluster (s := cm.store.increaseVersion) c'
    · -- the name was not there
      rw [hcm]
      refine (keepsCursors_addCluster (s := cm.store.increaseVersion) c').2 fun hn => ?_
      rw [admittedName, if_neg haccept.1] at hn
      exact absurd hn (notMem_names_of_hasCluster hhas)
  | replaceXDSClusters clusters =>
    cases h
    exact keepsCursors_replaceXDSClusters g order clusters
  | compareAndSetStore candidate =>
    cases h
    rw [ClusterManager.compareAndSetStore]
    cases candidate with
    | none =>
      have hsame : ¬ ((none : Option ClusterStore).getD cm.store).version ≠ cm.store.version :=
        not_not.2 rfl
      rw [if_neg hsame]
      exact keepsCursors_ensure g
    | some store =>
      refine iff_of_true ?_ trivial
      split_ifs
      · exact .of_eq rfl
      · exact keepsCursors_carryOver cm.store
  | _ => exact hop.elim

/-- A cluster whose requests have moved its cursor. -/
def rotated : ClusterManager where
  store := ((createDefaultClusterManager id {} [{ name := "a" }]).moveCursor "a" 1).cm.store

/-- An update goes on with the rotation. -/
theorem keepsCursors_updated : ∃ reply,
    Call.apply id rotated { op := .updateCluster { name := "a" } } = some reply ∧
      KeepsCursors rotated.store reply.cm.store := by
  have hreply : Call.apply id rotated { op := .updateCluster { name := "a" } } = some _ := rfl
  refine ⟨_, hreply, (keepsCursors_iff ?_ hreply).2 trivial⟩
  trivial

/-- Adding the cluster again starts over. -/
theorem not_keepsCursors_addedAgain : rotated.Reachable id ∧ ∃ reply,
    Call.apply id rotated { op := .addCluster { name := "a" } } = some reply ∧
      ¬ KeepsCursors rotated.store reply.cm.store := by
  refine ⟨⟨{}, [{ name := "a" }], [{ op := .moveCursor "a" 1 }], [], rfl⟩, _, rfl, fun h => ?_⟩
  have hcursor := h "a" _ _ (by decide) (by decide) rfl rfl
  exact absurd hcursor (by decide)

end Pixiu.Cluster
