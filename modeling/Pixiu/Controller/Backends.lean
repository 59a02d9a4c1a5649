import Pixiu.Controller.Translator

/-!
# The clusters of the backends

`TranslateBackendToCluster` resolves the backend references of an HTTPRoute to clusters,
`ensureGatewayConfigMap` collects the clusters of all HTTPRoutes of the Gateway, and both merge
clusters of the same name.  A route of the configuration names the cluster of its first backend.
The API server is a parameter, and a read that fails is `none`.

* `endpointsOf_collectClusters` — a cluster has the endpoints of every reference with its name.
* `isolated_iff` — every route has exactly the endpoints of its own backend if no other reference of
  the name has any.
-/

namespace Pixiu.Controller

/-! ## Resolving and collecting -/

/-- An `Endpoint` of an `EndpointSlice`, with its condition `Ready`. -/
structure SliceEndpoint where
  addresses : List String
  ready : Option Bool := none

/-- `EndpointSlice`. -/
structure EndpointSlice where
  endpoints : List SliceEndpoint
  ports : List (Option ℕ) := []

/-- `ir.Endpoint`. -/
structure IrEndpoint where
  address : String
  port : ℕ
  deriving DecidableEq

/-- `ir.Cluster`. -/
structure IrCluster where
  name : String
  endpoints : List IrEndpoint
  deriving DecidableEq

/-- What the API server has: the `ClusterIP` of a Service, and the slices of a Service. -/
structure Backends where
  service : String → String → Option String
  endpointSlices : String → String → Option (List EndpointSlice)

/-- A Service and a port that a backend stands for. -/
structure ServiceReference where
  nameSpace : String
  serviceName : String
  port : ℕ
  deriving DecidableEq

/-- `resolveEndpoints`. -/
def resolveEndpoints (backends : Backends) (ref : ServiceReference) : Option (List IrEndpoint) := do
  let clusterIP ← backends.service ref.nameSpace ref.serviceName
  let slices ← backends.endpointSlices ref.nameSpace ref.serviceName
  let endpoints := slices.flatMap fun slice =>
    (slice.endpoints.filter fun endpoint => endpoint.ready.getD true).flatMap fun endpoint =>
      endpoint.addresses.map fun address =>
        { address, port := (slice.ports.findSome? id).getD ref.port }
  return if endpoints = [] ∧ clusterIP ≠ "" ∧
    clusterIP ≠ "None" then [{ address := clusterIP, port := ref.port }]
    else endpoints

/-- The Service and port of a backend of an HTTPRoute. -/
def HTTPBackendRef.reference (backendRef : HTTPBackendRef) (httpRoute : HTTPRoute) :
    ServiceReference :=
  { nameSpace := backendRef.nameSpaceIn httpRoute, serviceName := backendRef.name,
    port := backendRef.port.getD 80 }

/-- The name of the cluster that a reference goes into. -/
def ServiceReference.cluster (ref : ServiceReference) : String :=
  clusterName ref.nameSpace ref.serviceName

/-- A cluster is added, or its endpoints to the one of the same name. -/
def mergeCluster : List IrCluster → IrCluster → List IrCluster
  | [], cluster => [cluster]
  | existing :: clusters, cluster =>
    if existing.name = cluster.name then
      { existing with endpoints := existing.endpoints ++ cluster.endpoints } :: clusters
    else existing :: mergeCluster clusters cluster

/-- The references of an HTTPRoute, whatever their kind. -/
def HTTPRoute.references (httpRoute : HTTPRoute) : List ServiceReference :=
  httpRoute.rules.flatMap fun rule => rule.backendRefs.map fun backendRef =>
    backendRef.reference httpRoute

/-- One round of the loop of `TranslateBackendToCluster`. -/
def addReference (backends : Backends) (clusters : List IrCluster) (ref : ServiceReference) :
    List IrCluster :=
  match resolveEndpoints backends ref with
  | none => clusters
  | some endpoints => mergeCluster clusters { name := ref.cluster, endpoints }

/-- `TranslateBackendToCluster`. -/
def translateBackendToCluster (backends : Backends) (httpRoute : HTTPRoute) : List IrCluster :=
  httpRoute.references.foldl (addReference backends) []

/-- The test of `ensureGatewayConfigMap` for an HTTPRoute. -/
def HTTPRoute.attachedTo (httpRoute : HTTPRoute) (gateway : Gateway) : Bool :=
  httpRoute.parentRefs.any fun parentRef => parentRef.namesGateway gateway httpRoute

/-- The clusters that `ensureGatewayConfigMap` collects. -/
def collectClusters (backends : Backends) (gateway : Gateway) (httpRoutes : List HTTPRoute) :
    List IrCluster :=
  (httpRoutes.filter fun httpRoute => httpRoute.attachedTo gateway).foldl
    (fun clusters httpRoute => (translateBackendToCluster backends httpRoute).foldl mergeCluster
      clusters) []

/-! ## What a cluster has -/

/-- The endpoints of the cluster of a name. -/
def endpointsOf (clusters : List IrCluster) (name : String) : List IrEndpoint :=
  ((clusters.find? fun cluster => cluster.name == name).map IrCluster.endpoints).getD []

/-- The endpoints of a reference; there are none if it does not resolve. -/
def ServiceReference.endpoints (backends : Backends) (ref : ServiceReference) : List IrEndpoint :=
  (resolveEndpoints backends ref).getD []

section Clusters

variable {clusters : List IrCluster} {cluster : IrCluster} {name : String} {backends : Backends}

@[simp]
theorem endpointsOf_nil : endpointsOf [] name = [] := rfl

theorem endpointsOf_cons :
    endpointsOf (cluster :: clusters) name =
      if cluster.name = name then cluster.endpoints else endpointsOf clusters name := by
  by_cases h : cluster.name = name <;> simp [endpointsOf, h]

theorem endpointsOf_mergeCluster :
    endpointsOf (mergeCluster clusters cluster) name =
      endpointsOf clusters name ++ if cluster.name = name then cluster.endpoints else [] := by
  induction clusters with
  | nil => rw [mergeCluster, endpointsOf_cons, endpointsOf_nil, List.nil_append]
  | cons existing clusters ih =>
    rw [mergeCluster]
    by_cases hsame : existing.name = cluster.name
    · rw [if_pos hsame, endpointsOf_cons, endpointsOf_cons, ← hsame]
      by_cases hname : existing.name = name <;> simp [hname]
    · rw [if_neg hsame, endpointsOf_cons, endpointsOf_cons, ih]
      by_cases hname : existing.name = name
      · have hother : cluster.name ≠ name := fun h => hsame (hname.trans h.symm)
        simp [hname, hother]
      · simp [hname]

theorem endpointsOf_addReference {ref : ServiceReference} :
    endpointsOf (addReference backends clusters ref) name =
      endpointsOf clusters name ++ if ref.cluster = name then ref.endpoints backends else [] := by
  rw [addReference, ServiceReference.endpoints]
  cases resolveEndpoints backends ref with
  | none => simp
  | some endpoints => exact endpointsOf_mergeCluster

theorem map_name_mergeCluster :
    (mergeCluster clusters cluster).map IrCluster.name =
      if cluster.name ∈ clusters.map IrCluster.name then clusters.map IrCluster.name
      else clusters.map IrCluster.name ++ [cluster.name] := by
  induction clusters with
  | nil => rfl
  | cons existing clusters ih =>
    rw [mergeCluster]
    by_cases hsame : existing.name = cluster.name
    · simp [hsame]
    · simp only [if_neg hsame, List.map_cons, ih, List.mem_cons, Ne.symm hsame, false_or]
      split_ifs <;> rfl

theorem nodup_addReference {ref : ServiceReference} (h : (clusters.map IrCluster.name).Nodup) :
    ((addReference backends clusters ref).map IrCluster.name).Nodup := by
  rw [addReference]
  cases resolveEndpoints backends ref with
  | none => exact h
  | some endpoints =>
    rw [map_name_mergeCluster]
    split_ifs with hmem
    · exact h
    · exact List.concat_eq_append ▸ List.Nodup.concat hmem h

/-- If no name is there twice, the cluster of a name is all there is of it. -/
theorem flatMap_eq_endpointsOf (h : (clusters.map IrCluster.name).Nodup) :
    (clusters.flatMap fun cluster => if cluster.name = name then cluster.endpoints else []) =
      endpointsOf clusters name := by
  induction clusters with
  | nil => rfl
  | cons cluster clusters ih =>
    rw [List.map_cons, List.nodup_cons] at h
    rw [List.flatMap_cons, endpointsOf_cons, ih h.2]
    by_cases hname : cluster.name = name
    · have hnone : endpointsOf clusters name = [] := by
        rw [← ih h.2, List.flatMap_eq_nil_iff]
        intro other hother
        rw [if_neg fun heq => h.1 (List.mem_map.2 ⟨other, hother, heq.trans hname.symm⟩)]
      simp [hname, hnone]
    · simp [hname]

end Clusters

section Collect

variable {backends : Backends} {gateway : Gateway} {name : String}

theorem endpointsOf_foldl_addReference (refs : List ServiceReference) (clusters : List IrCluster) :
    endpointsOf (refs.foldl (addReference backends) clusters) name =
      endpointsOf clusters name ++ (refs.filter fun ref => ref.cluster = name).flatMap
        (·.endpoints backends) := by
  induction refs generalizing clusters with
  | nil => simp
  | cons ref refs ih =>
    rw [List.foldl_cons, ih, endpointsOf_addReference, List.filter_cons]
    by_cases hname : ref.cluster = name <;> simp [hname]

theorem endpointsOf_foldl_mergeCluster (added clusters : List IrCluster) :
    endpointsOf (added.foldl mergeCluster clusters) name =
      endpointsOf clusters name ++ added.flatMap fun cluster => if cluster.name = name then
        cluster.endpoints else [] := by
  induction added generalizing clusters with
  | nil => simp
  | cons cluster added ih =>
    rw [List.foldl_cons, ih, endpointsOf_mergeCluster, List.flatMap_cons, List.append_assoc]

theorem nodup_foldl_addReference (refs : List ServiceReference) (clusters : List IrCluster)
    (h : (clusters.map IrCluster.name).Nodup) :
    ((refs.foldl (addReference backends) clusters).map IrCluster.name).Nodup := by
  induction refs generalizing clusters with
  | nil => exact h
  | cons ref refs ih => exact ih _ (nodup_addReference h)

/-- The clusters of one HTTPRoute add the endpoints of its references. -/
theorem endpointsOf_translateBackendToCluster (httpRoute : HTTPRoute) :
    ((translateBackendToCluster backends httpRoute).flatMap fun cluster =>
        if cluster.name = name then cluster.endpoints else []) =
      (httpRoute.references.filter fun ref => ref.cluster = name).flatMap
        (·.endpoints backends) := by
  rw [translateBackendToCluster,
    flatMap_eq_endpointsOf (nodup_foldl_addReference _ [] List.nodup_nil),
    endpointsOf_foldl_addReference, endpointsOf_nil, List.nil_append]

/-- The references of the HTTPRoutes of the Gateway. -/
def allReferences (gateway : Gateway) (httpRoutes : List HTTPRoute) : List ServiceReference :=
  (httpRoutes.filter fun httpRoute => httpRoute.attachedTo gateway).flatMap HTTPRoute.references

/-- A cluster has the endpoints of every reference with its name, in order. -/
theorem endpointsOf_collectClusters (httpRoutes : List HTTPRoute) :
    endpointsOf (collectClusters backends gateway httpRoutes) name =
      ((allReferences gateway httpRoutes).filter fun ref => ref.cluster = name).flatMap
        (·.endpoints backends) := by
  have hloop : ∀ (attached : List HTTPRoute) (clusters : List IrCluster),
      endpointsOf (attached.foldl
        (fun clusters httpRoute => (translateBackendToCluster backends httpRoute).foldl mergeCluster
          clusters) clusters) name =
        endpointsOf clusters name ++
          ((attached.flatMap HTTPRoute.references).filter fun ref => ref.cluster = name).flatMap
            (·.endpoints backends) := by
    intro attached
    induction attached with
    | nil => simp
    | cons httpRoute attached ih =>
      intro clusters
      rw [List.foldl_cons, ih, endpointsOf_foldl_mergeCluster,
        endpointsOf_translateBackendToCluster, List.flatMap_cons,
        List.filter_append, List.flatMap_append, List.append_assoc]
  rw [collectClusters, hloop, endpointsOf_nil, List.nil_append, allReferences]

end Collect

/-! ## Isolation -/

section Isolation

variable {ρ κ σ : Type} (policies : String → String → Option (FilterPolicy ρ))
  (unmarshal : ρ → Option κ)
variable (backends : Backends)

/-- The backend that the routes of a rule go to. -/
def HTTPRouteRule.ownReference (rule : HTTPRouteRule) (httpRoute : HTTPRoute) :
    Option ServiceReference :=
  (rule.backendRefs.find? HTTPBackendRef.isService).map fun backendRef =>
    backendRef.reference httpRoute

/-- Every route of a listener that is generated from a rule with a backend points to a cluster with
exactly the endpoints of that backend, each once. -/
def Isolated (listener : GatewayListener σ) (gateway : Gateway) (httpRoutes : List HTTPRoute) :
    Prop :=
  ∀ ir, translateHTTPListener policies unmarshal listener gateway httpRoutes = some ir →
    ∀ httpRoute ∈ httpRoutes, httpRoute.Attached listener gateway →
      ∀ rule ∈ httpRoute.rules, ∀ m ∈ rule.ruleMatches,
      ∀ irRoute, translateHTTPRouteMatch policies unmarshal m httpRoute rule.backendRefs
        rule.filters = some irRoute →
        ∀ route, convertHTTPRoute irRoute = some route →
          ∀ own, rule.ownReference httpRoute = some own →
          (endpointsOf (collectClusters backends gateway httpRoutes) route.route.cluster).Nodup ∧
            ∀ endpoint, endpoint ∈ endpointsOf (collectClusters backends gateway httpRoutes)
              route.route.cluster ↔
              endpoint ∈ own.endpoints backends

/-- Of the references of its name only one, which is the backend's own, has endpoints, and each of
them once. -/
def ServiceReference.Alone (own : ServiceReference) (gateway : Gateway)
    (httpRoutes : List HTTPRoute) : Prop :=
  (own.endpoints backends).Nodup ∧
    ∃ pre post, ((allReferences gateway httpRoutes).filter fun ref => ref.cluster = own.cluster) =
      pre ++ own :: post ∧
      ∀ ref ∈ pre ++ post, ref.endpoints backends = []

end Isolation

section Isolation

variable {ρ κ σ : Type} {policies : String → String → Option (FilterPolicy ρ)}
  {unmarshal : ρ → Option κ}
variable {backends : Backends} {listener : GatewayListener σ} {gateway : Gateway}
  {httpRoutes : List HTTPRoute}
variable {httpRoute : HTTPRoute} {rule : HTTPRouteRule} {own : ServiceReference}

theorem attachedTo_of_attached (h : httpRoute.Attached listener gateway) :
    httpRoute.attachedTo gateway = true := by
  obtain ⟨parentRef, hmem, hattaches⟩ := h
  rw [attaches, Bool.and_eq_true] at hattaches
  exact List.any_eq_true.2 ⟨parentRef, hmem, hattaches.1⟩

theorem mem_allReferences (hmem : httpRoute ∈ httpRoutes)
    (hattached : httpRoute.Attached listener gateway)
    (hrule : rule ∈ httpRoute.rules) (hown : rule.ownReference httpRoute = some own) :
    own ∈ allReferences gateway httpRoutes := by
  obtain ⟨backendRef, hfind, rfl⟩ := Option.map_eq_some_iff.1 hown
  refine List.mem_flatMap.2 ⟨httpRoute, List.mem_filter.2 ⟨hmem, attachedTo_of_attached hattached⟩,
    ?_⟩
  exact List.mem_flatMap.2
    ⟨rule, hrule, List.mem_map.2 ⟨backendRef, List.mem_of_find?_eq_some hfind, rfl⟩⟩

/-- A generated route names the cluster of its own backend. -/
theorem cluster_convertHTTPRoute {m : HTTPRouteMatch} {irRoute : IrRoute κ} {route : Routing.Router}
    (hir : translateHTTPRouteMatch policies unmarshal m httpRoute rule.backendRefs rule.filters =
      some irRoute)
    (hroute : convertHTTPRoute irRoute = some route)
    (hown : rule.ownReference httpRoute = some own) :
    route.route.cluster = own.cluster := by
  obtain ⟨backendRef, hfind, rfl⟩ := Option.map_eq_some_iff.1 hown
  rw [translateHTTPRouteMatch, Option.bind_eq_bind, Option.bind_eq_some_iff] at hir
  obtain ⟨headers, -, hir⟩ := hir
  obtain rfl := Option.some.inj hir
  rw [convertHTTPRoute, Option.bind_eq_bind, Option.bind_eq_some_iff] at hroute
  obtain ⟨headers, -, hroute⟩ := hroute
  obtain rfl := Option.some.inj hroute
  simp only [List.head?_map, List.head?_filter, hfind, Option.map_some, Option.getD_some]
  rfl

/-- The endpoints of a name are those of one of its references, each once, if no other one has
any. -/
theorem exact_endpoints_iff (hown : own ∈ allReferences gateway httpRoutes) :
    ((endpointsOf (collectClusters backends gateway httpRoutes) own.cluster).Nodup ∧
      ∀ endpoint, endpoint ∈ endpointsOf (collectClusters backends gateway httpRoutes) own.cluster ↔
        endpoint ∈ own.endpoints backends) ↔ own.Alone backends gateway httpRoutes := by
  rw [endpointsOf_collectClusters, ServiceReference.Alone]
  constructor
  · rintro ⟨hnodup, hmem⟩
    have hnamed : own ∈ (allReferences gateway httpRoutes).filter fun ref => ref.cluster =
        own.cluster :=
      List.mem_filter.2 ⟨hown, decide_eq_true rfl⟩
    obtain ⟨pre, post, hsplit⟩ := List.append_of_mem hnamed
    rw [hsplit, List.flatMap_append, List.flatMap_cons] at hnodup hmem
    obtain ⟨-, hrest, hpre⟩ := List.nodup_append.1 hnodup
    obtain ⟨hself, -, hpost⟩ := List.nodup_append.1 hrest
    refine ⟨hself, pre, post, hsplit, fun ref href => List.eq_nil_iff_forall_not_mem.2 fun endpoint
      hendpoint => ?_⟩
    -- an endpoint of another reference would have to be one of the backend's own, and so be there
    -- twice
    rcases List.mem_append.1 href with href | href
    · have hin := List.mem_flatMap.2 ⟨ref, href, hendpoint⟩
      have hin' := (hmem endpoint).1 (List.mem_append_left _ hin)
      exact hpre endpoint hin endpoint (List.mem_append_left _ hin') rfl
    · have hin := List.mem_flatMap.2 ⟨ref, href, hendpoint⟩
      have hin' := (hmem endpoint).1 (List.mem_append_right _ (List.mem_append_right _ hin))
      exact hpost endpoint hin' endpoint hin rfl
  · rintro ⟨hnodup, pre, post, hsplit, hothers⟩
    have hpre : pre.flatMap (·.endpoints backends) = [] :=
      List.flatMap_eq_nil_iff.2 fun ref href => hothers ref (List.mem_append_left _ href)
    have hpost : post.flatMap (·.endpoints backends) = [] :=
      List.flatMap_eq_nil_iff.2 fun ref href => hothers ref (List.mem_append_right _ href)
    rw [hsplit, List.flatMap_append, List.flatMap_cons, hpre, hpost, List.nil_append,
      List.append_nil]
    exact ⟨hnodup, fun _ => Iff.rfl⟩

/-- The routes are isolated exactly if, for each rule that has a route, no other reference with the
name of its backend's cluster has endpoints and the backend has none twice. -/
theorem isolated_iff :
    Isolated policies unmarshal backends listener gateway httpRoutes ↔
      ((∀ httpRoute ∈ httpRoutes, httpRoute.Attached listener gateway → ∀ m, httpRoute.HasMatch m →
        ¬m.Untyped) →
        ∀ httpRoute ∈ httpRoutes, httpRoute.Attached listener gateway →
        ∀ rule ∈ httpRoute.rules, rule.ruleMatches ≠ [] →
          ∀ own, rule.ownReference httpRoute = some own →
          own.Alone backends gateway httpRoutes) := by
  constructor
  · intro h htyped httpRoute hmem hattached rule hrule hne own hown
    obtain ⟨ir, hir⟩ : ∃ ir, translateHTTPListener policies unmarshal listener gateway httpRoutes =
        some ir := by
      refine Option.ne_none_iff_exists'.1 fun hnone => ?_
      obtain ⟨other, hother, hattached, m, hmatch, huntyped⟩ :=
        translateHTTPListener_eq_none_iff.1 hnone
      exact htyped other hother hattached m hmatch huntyped
    obtain ⟨m, hm⟩ := List.exists_mem_of_ne_nil _ hne
    obtain ⟨irRoute, hirRoute⟩ : ∃ irRoute,
        translateHTTPRouteMatch policies unmarshal m httpRoute rule.backendRefs rule.filters =
          some irRoute := by
      refine Option.ne_none_iff_exists'.1 fun hnone => ?_
      exact htyped httpRoute hmem hattached m ⟨rule, hrule, hm⟩
        (translateHTTPRouteMatch_eq_none_iff.1 hnone)
    obtain ⟨route, hroute⟩ := exists_convertHTTPRoute hirRoute
    have hexact :=
      h ir hir httpRoute hmem hattached rule hrule m hm irRoute hirRoute route hroute own hown
    rw [cluster_convertHTTPRoute hirRoute hroute hown] at hexact
    exact (exact_endpoints_iff (mem_allReferences hmem hattached hrule hown)).1 hexact
  · intro h ir hir httpRoute hmem hattached rule hrule m hm irRoute hirRoute route hroute own hown
    have htyped : ∀ httpRoute ∈ httpRoutes, httpRoute.Attached listener gateway →
        ∀ m, httpRoute.HasMatch m → ¬m.Untyped := by
      intro other hother hattached m hmatch huntyped
      rw [translateHTTPListener_eq_none_iff.2 ⟨other, hother, hattached, m, hmatch, huntyped⟩]
        at hir
      cases hir
    rw [cluster_convertHTTPRoute hirRoute hroute hown]
    exact (exact_endpoints_iff (mem_allReferences hmem hattached hrule hown)).2
      (h htyped httpRoute hmem hattached rule hrule (List.ne_nil_of_mem hm) own hown)

end Isolation

/-- A Service `b-c` of the namespace `a` and a Service `c` of the namespace `a-b`, each with one
address. -/
def hyphenated : Backends where
  service nameSpace serviceName :=
    if (nameSpace, serviceName) = ("a", "b-c") then some "10.0.0.1"
    else if (nameSpace, serviceName) = ("a-b", "c") then some "10.0.0.2"
    else none
  endpointSlices _ _ := some []

/-- A route of a namespace to a Service of that namespace. -/
def simpleRoute (nameSpace serviceName : String) : HTTPRoute :=
  { nameSpace, name := "shop", parentRefs := [{ nameSpace := some "infra", name := "edge" }]
    rules := [{ ruleMatches := [{}], backendRefs := [{ name := serviceName }] }] }

/-- Both Services go into the cluster `a-b-c`, which the routes to either of them name. -/
theorem hyphenated_namespaces_share_cluster :
    collectClusters hyphenated { nameSpace := "infra", name := "edge" }
      [simpleRoute "a" "b-c", simpleRoute "a-b" "c"] =
        [{ name := "a-b-c", endpoints := [⟨"10.0.0.1", 80⟩, ⟨"10.0.0.2", 80⟩] }] ∧
      ¬Isolated (fun _ _ => (none : Option (FilterPolicy Unit)))
        (fun _ => some ()) hyphenated openListener
        { nameSpace := "infra", name := "edge" }
          [simpleRoute "a" "b-c", simpleRoute "a-b" "c"] := by
  have hclusters : collectClusters hyphenated { nameSpace := "infra", name := "edge" }
      [simpleRoute "a" "b-c", simpleRoute "a-b" "c"] =
        [{ name := "a-b-c", endpoints := [⟨"10.0.0.1", 80⟩, ⟨"10.0.0.2", 80⟩] }] := by
    decide +kernel
  refine ⟨hclusters, fun h => ?_⟩
  have hattached : (simpleRoute "a" "b-c").Attached openListener
      { nameSpace := "infra", name := "edge" } :=
    ⟨_, List.mem_singleton_self _, by decide +kernel⟩
  obtain ⟨ir, hir⟩ : ∃ ir, translateHTTPListener (fun _ _ => (none : Option (FilterPolicy Unit)))
      (fun _ => some ())
      openListener { nameSpace := "infra", name := "edge" }
        [simpleRoute "a" "b-c", simpleRoute "a-b" "c"] = some ir :=
    Option.isSome_iff_exists.1 (by decide +kernel)
  obtain ⟨irRoute, hirRoute⟩ : ∃ irRoute,
      translateHTTPRouteMatch (fun _ _ => (none : Option (FilterPolicy Unit)))
      (fun _ => some ()) {} (simpleRoute "a" "b-c") [{ name := "b-c" }] [] = some irRoute :=
        ⟨_, rfl⟩
  obtain ⟨route, hroute⟩ := exists_convertHTTPRoute hirRoute
  have hown : HTTPRouteRule.ownReference { ruleMatches := [{}], backendRefs := [{ name := "b-c" }] }
      (simpleRoute "a" "b-c") = some ⟨"a", "b-c", 80⟩ := by decide +kernel
  have hexact :=
    (h ir hir _ (List.mem_cons_self ..)
      hattached _ (List.mem_singleton_self _) _ (List.mem_singleton_self _)
    irRoute hirRoute route hroute _ hown).2 ⟨"10.0.0.2", 80⟩
  rw [cluster_convertHTTPRoute hirRoute hroute hown, hclusters] at hexact
  revert hexact
  decide +kernel

end Pixiu.Controller
