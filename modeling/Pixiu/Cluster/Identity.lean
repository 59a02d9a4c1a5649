import Pixiu.Cluster.Runtime

/-!
# The identities of a list of endpoints

`assembleClusterEndpoints` and `newEndpointSnapshot` walk the endpoints of a cluster and give each
one an ID.  Both come down to one recursion over the endpoints that are not `nil` (`giveIDs`), so
the two agree on every ID.

`identifies` collects what is true of the IDs: they are distinct and not empty, an explicit ID is
kept unless an earlier endpoint has been given it, preparing twice is preparing once, and the search
for a free suffix ends at the first one.  An explicit ID can be lost to an earlier endpoint that was
never meant to have it (`not_keepsExplicit_lookalike`).
-/

namespace Pixiu.Cluster

section

variable (sum : String → String)

/-- The IDs that a list of endpoints gets, after those that are taken. -/
def giveIDs (clusterName : String) : List String → List Endpoint → List String
  | _, [] => []
  | taken, e :: es =>
      let id := stableUniqueEndpointID sum clusterName e taken
      id :: giveIDs clusterName (taken ++ [id]) es

/-- The first endpoint with an explicit ID keeps it. -/
def KeepsExplicit (c : ClusterConfig) : Prop :=
  ∀ before e after, c.nonNil = before ++ e :: after → e.id ≠ "" → e.id ∉ before.map (·.id) →
    ((assembleClusterEndpoints sum c).nonNil.map (·.id))[before.length]? = some e.id

/-- An endpoint with an explicit ID keeps it if no earlier endpoint has been given it. -/
def KeepsFree (c : ClusterConfig) : Prop :=
  ∀ before e after, c.nonNil = before ++ e :: after → e.id ≠ "" →
    e.id ∉ ((assembleClusterEndpoints sum c).nonNil.map (·.id)).take before.length →
    ((assembleClusterEndpoints sum c).nonNil.map (·.id))[before.length]? = some e.id

/-- Endpoints get their identities. -/
structure Identifies (c : ClusterConfig) : Prop where
  /-- `nil` entries stay where they are, and no endpoint is lost. -/
  shape : (assembleClusterEndpoints sum c).endpoints.map Option.isSome =
    c.endpoints.map Option.isSome
  /-- The IDs are distinct and not empty. -/
  prepared : Prepared (assembleClusterEndpoints sum c)
  keepsFree : KeepsFree sum c
  idempotent : assembleClusterEndpoints sum (assembleClusterEndpoints sum c) =
    assembleClusterEndpoints sum c
  /-- A snapshot of the raw list and one of the assembled list have the assembled IDs, in order. -/
  snapshot : ∀ previous inheritRuntimeHealth,
    (EndpointSnapshot.newEndpointSnapshot sum (some c) previous inheritRuntimeHealth).all.map
      (·.id) =
        (assembleClusterEndpoints sum c).nonNil.map (·.id) ∧
      (EndpointSnapshot.newEndpointSnapshot sum (some (assembleClusterEndpoints sum c)) previous
          inheritRuntimeHealth).all.map (·.id) = (assembleClusterEndpoints sum c).nonNil.map (·.id)

end

variable {sum : String → String}

/-! ## One recursion for both walks -/

theorem assembleFrom_map_id (clusterName : String) (endpoints : List (Option Endpoint)) (i : ℕ)
    (taken : List String) :
    ((assembleFrom sum clusterName i taken endpoints).filterMap id).map (·.id) =
      giveIDs sum clusterName taken (endpoints.filterMap id) := by
  induction endpoints generalizing i taken with
  | nil => rfl
  | cons endpoint endpoints ih =>
    cases endpoint with
    | none => simpa [assembleFrom] using ih (i + 1) taken
    | some e => simpa [assembleFrom, giveIDs, assembleID_eq] using ih (i + 1) (taken ++ [_])

theorem foldl_addConfigEndpoint_map_id (clusterName : String) (previous : Option EndpointSnapshot)
    (inheritRuntimeHealth : Bool) (es : List Endpoint) (base : EndpointSnapshot) :
    (es.foldl (EndpointSnapshot.addConfigEndpoint sum clusterName previous inheritRuntimeHealth)
      base).all.map (·.id) = base.all.map (·.id) ++ giveIDs sum clusterName (base.all.map (·.id))
        es := by
  induction es generalizing base with
  | nil => simp [giveIDs]
  | cons e es ih =>
    rw [List.foldl_cons, ih]
    simp [EndpointSnapshot.addConfigEndpoint, EndpointSnapshot.addEndpoint, giveIDs]

theorem map_id_assembleClusterEndpoints (c : ClusterConfig) :
    (assembleClusterEndpoints sum c).nonNil.map (·.id) = giveIDs sum c.name [] c.nonNil :=
  assembleFrom_map_id c.name c.endpoints 0 []

variable (sum) in
theorem map_id_newEndpointSnapshot (c : ClusterConfig) (previous : Option EndpointSnapshot)
    (inheritRuntimeHealth : Bool) :
    (EndpointSnapshot.newEndpointSnapshot sum (some c) previous inheritRuntimeHealth).all.map
      (·.id) =
      giveIDs sum c.name [] c.nonNil :=
  foldl_addConfigEndpoint_map_id c.name previous inheritRuntimeHealth c.nonNil _

theorem giveIDs_append (clusterName : String) (taken : List String) (before after : List Endpoint) :
    giveIDs sum clusterName taken (before ++ after) =
      giveIDs sum clusterName taken before ++
        giveIDs sum clusterName (taken ++ giveIDs sum clusterName taken before) after := by
  induction before generalizing taken with
  | nil => simp [giveIDs]
  | cons e es ih => simp [giveIDs, ih, List.append_assoc]

@[simp] theorem length_giveIDs (clusterName : String) (taken : List String) (es : List Endpoint) :
    (giveIDs sum clusterName taken es).length = es.length := by
  induction es generalizing taken with
  | nil => rfl
  | cons e es ih => simp [giveIDs, ih]

/-! ## What is kept -/

theorem assembleName_ne_empty (i : ℕ) (e : Endpoint) : assembleName i e ≠ "" := by
  rw [assembleName]
  split_ifs with h
  · exact h
  · cases e.llmMeta with
    | none => exact append_ne_empty (by decide) _
    | some llmMeta => exact append_ne_empty (append_ne_empty (append_ne_empty (by decide) _) _) _

theorem assembleFrom_isSome (clusterName : String) (endpoints : List (Option Endpoint)) (i : ℕ)
    (taken : List String) :
    (assembleFrom sum clusterName i taken endpoints).map Option.isSome =
      endpoints.map Option.isSome := by
  induction endpoints generalizing i taken with
  | nil => rfl
  | cons endpoint endpoints ih => cases endpoint <;> simp [assembleFrom, ih]

theorem assembleFrom_names (clusterName : String) (endpoints : List (Option Endpoint)) (i : ℕ)
    (taken : List String) : ∀ e ∈ (assembleFrom sum clusterName i taken endpoints).filterMap id,
      e.name ≠ "" := by
  induction endpoints generalizing i taken with
  | nil => simp [assembleFrom]
  | cons endpoint endpoints ih =>
    cases endpoint with
    | none => simpa [assembleFrom] using ih (i + 1) taken
    | some e =>
      have hname := assembleName_ne_empty i e
      simpa [assembleFrom, hname] using ih (i + 1) (taken ++ [_])

/-- Endpoints with distinct IDs and with names stay as they are. -/
theorem assembleFrom_self (clusterName : String) (endpoints : List (Option Endpoint)) (i : ℕ)
    {taken : List String} (hnodup : (taken ++ (endpoints.filterMap id).map (·.id)).Nodup)
    (hempty : "" ∉ (endpoints.filterMap id).map (·.id))
    (hnames : ∀ e ∈ endpoints.filterMap id, e.name ≠ "") :
    assembleFrom sum clusterName i taken endpoints = endpoints := by
  induction endpoints generalizing i taken with
  | nil => rfl
  | cons endpoint endpoints ih =>
    cases endpoint with
    | none =>
      rw [assembleFrom, ih (i + 1) (by simpa using hnodup) (by simpa using hempty)
        (by simpa using hnames)]
    | some e =>
      simp only [List.filterMap_cons, id_eq, List.map_cons, List.mem_cons, not_or, forall_eq_or_imp]
        at hnodup hempty hnames
      have hid : assembleID sum clusterName taken e = e.id := by
        rw [assembleID_eq]
        refine stableUniqueEndpointID_self (Ne.symm hempty.1) fun hmem => ?_
        exact (List.nodup_append.1 hnodup).2.2 _ hmem _ List.mem_cons_self rfl
      have hname : assembleName i e = e.name := by rw [assembleName, if_pos hnames.1]
      rw [assembleFrom, hid, hname,
        ih (i + 1) (by simpa [List.append_assoc] using hnodup) hempty.2 hnames.2]

theorem assembleClusterEndpoints_idem (c : ClusterConfig) :
    assembleClusterEndpoints sum (assembleClusterEndpoints sum c) =
      assembleClusterEndpoints sum c := by
  have hprepared : Prepared (assembleClusterEndpoints sum c) := prepared_assembleClusterEndpoints c
  have hself : assembleFrom sum c.name 0 [] (assembleClusterEndpoints sum c).endpoints =
      (assembleClusterEndpoints sum c).endpoints :=
    assembleFrom_self c.name _ 0 hprepared.nodup hprepared.nonempty fun e =>
      assembleFrom_names c.name c.endpoints 0 [] e
  rw [assembleClusterEndpoints]
  exact congrArg (fun endpoints => { assembleClusterEndpoints sum c with endpoints }) hself

theorem keepsFree (c : ClusterConfig) : KeepsFree sum c := by
  intro before e after hsplit hempty hfree
  rw [map_id_assembleClusterEndpoints, hsplit, giveIDs_append, List.nil_append] at hfree ⊢
  rw [List.take_left' (length_giveIDs ..)] at hfree
  rw [List.getElem?_append_right (by simp), length_giveIDs, Nat.sub_self, giveIDs]
  exact congrArg some (stableUniqueEndpointID_self hempty hfree)

/-- **The search for a suffix ends**, at the first one that is free. -/
theorem stableUniqueEndpointID_search (clusterName : String) (e : Endpoint) (taken : List String) :
    if baseID sum clusterName e ∈ taken then
      ∃ i, stableUniqueEndpointID sum clusterName e taken = suffixed (baseID sum clusterName e)
        (2 + i) ∧
        suffixed (baseID sum clusterName e) (2 + i) ∉ taken ∧
        ∀ j < i, suffixed (baseID sum clusterName e) (2 + j) ∈ taken
    else stableUniqueEndpointID sum clusterName e taken = baseID sum clusterName e := by
  by_cases hbase : baseID sum clusterName e ∈ taken
  · obtain ⟨id, hid⟩ := Option.isSome_iff_exists.1
      (Fresh.firstFree_isSome (suffixed_injective (baseID sum clusterName e)) taken 2)
    obtain ⟨i, rfl, hbefore⟩ := Fresh.firstFree_least hid
    rw [if_pos hbase, stableUniqueEndpointID, if_neg (not_not.2 hbase), hid]
    exact ⟨i, rfl, Fresh.firstFree_notMem hid, hbefore⟩
  · rw [if_neg hbase, stableUniqueEndpointID, if_pos hbase]

/-! ## The whole list -/

/-- **The identities of a list of endpoints**, and of every single one after any IDs. -/
theorem identifies (sum : String → String) (c : ClusterConfig) :
    Identifies sum c ∧ ∀ (e : Endpoint) (taken : List String),
      if baseID sum c.name e ∈ taken then
        ∃ i, stableUniqueEndpointID sum c.name e taken = suffixed (baseID sum c.name e) (2 + i) ∧
          suffixed (baseID sum c.name e) (2 + i) ∉ taken ∧
          ∀ j < i, suffixed (baseID sum c.name e) (2 + j) ∈ taken
      else stableUniqueEndpointID sum c.name e taken = baseID sum c.name e := by
  refine ⟨?_, stableUniqueEndpointID_search c.name⟩
  constructor
  case shape => exact assembleFrom_isSome ..
  case prepared => exact prepared_assembleClusterEndpoints c
  case keepsFree => exact keepsFree c
  case idempotent => exact assembleClusterEndpoints_idem c
  case snapshot =>
    intro previous inheritRuntimeHealth
    have hagain := map_id_newEndpointSnapshot sum (assembleClusterEndpoints sum c) previous
      inheritRuntimeHealth
    rw [← map_id_assembleClusterEndpoints, assembleClusterEndpoints_idem] at hagain
    exact ⟨(map_id_newEndpointSnapshot sum c previous inheritRuntimeHealth).trans
      (map_id_assembleClusterEndpoints c).symm, hagain⟩

/-- An ID written twice, and one that looks like the suffix it gets. -/
def lookalike : ClusterConfig where
  name := "c"
  endpoints := [some { id := "foo" }, some { id := "foo" }, some { id := "foo-2" }]

/-- The second endpoint is given `foo-2`, so the third loses it. -/
theorem not_keepsExplicit_lookalike : ¬ KeepsExplicit id lookalike := by
  intro h
  have hthird :=
    h [{ id := "foo" }, { id := "foo" }] { id := "foo-2" } [] rfl (by decide) (by decide)
  exact absurd hthird (by decide +kernel)

end Pixiu.Cluster
