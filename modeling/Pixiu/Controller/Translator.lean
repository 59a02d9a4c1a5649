import Pixiu.Base.Loops
import Pixiu.Routing.Completeness

/-!
# From the Gateway API to a configuration

The translation of the Kubernetes controller: `translateHTTPListener` of
`controllers/internal/translator` makes an intermediate listener of a Gateway's listener and the
HTTPRoutes, and `convertHTTPListener` of `controllers/internal/converter` makes the listener of the
configuration.  A dereferenced nil pointer panics, here `none`.

The API server is a parameter: `policies` gives the `PixiuFilterPolicy` of a namespace and a name,
and `unmarshal` is what `json.Unmarshal` makes of its configuration.

* `translateHTTPRoute_ne_nil_iff` — which HTTPRoutes a listener has rules of.
* `translateHTTPListener_eq_none_iff` — when the translation of a listener panics.
* `exists_convertHTTPRoute` — what was translated is converted.
-/

namespace Pixiu.Controller

open Routing (Router RouterMatch HeaderMatcher RouteAction)

/-! ## The Gateway API -/

/-- `PathMatchType`. -/
inductive PathMatchType where
  | exact
  | pathPrefix
  | regularExpression
  | other (name : String)
  deriving DecidableEq

/-- `HeaderMatchType` and `QueryParamMatchType`. -/
inductive ValueMatchType where
  | exact
  | regularExpression
  | other (name : String)
  deriving DecidableEq

/-- `HTTPPathMatch`. -/
structure HTTPPathMatch where
  type : Option PathMatchType := none
  value : Option String := none
  deriving DecidableEq

/-- `HTTPHeaderMatch` and `HTTPQueryParamMatch`. -/
structure HTTPValueMatch where
  type : Option ValueMatchType := none
  name : String
  value : String
  deriving DecidableEq

/-- `HTTPRouteMatch`. -/
structure HTTPRouteMatch where
  path : Option HTTPPathMatch := none
  headers : List HTTPValueMatch := []
  queryParams : List HTTPValueMatch := []
  method : Option String := none
  deriving DecidableEq

/-- `HTTPBackendRef`. -/
structure HTTPBackendRef where
  kind : Option String := none
  group : Option String := none
  nameSpace : Option String := none
  name : String
  port : Option ℕ := none
  deriving DecidableEq

/-- `LocalObjectReference`. -/
structure LocalObjectReference where
  group : String
  kind : String
  name : String
  deriving DecidableEq

/-- `HTTPRouteFilter`; of the types only `ExtensionRef` is read. -/
structure HTTPRouteFilter where
  isExtensionRef : Bool
  extensionRef : Option LocalObjectReference := none
  deriving DecidableEq

/-- `HTTPRouteRule`. -/
structure HTTPRouteRule where
  ruleMatches : List HTTPRouteMatch := []
  filters : List HTTPRouteFilter := []
  backendRefs : List HTTPBackendRef := []
  deriving DecidableEq

/-- `ParentReference`. -/
structure ParentReference where
  group : Option String := none
  kind : Option String := none
  nameSpace : Option String := none
  name : String
  sectionName : Option String := none
  port : Option ℕ := none
  deriving DecidableEq

/-- `HTTPRoute`, with the group and kind of its `TypeMeta`. -/
structure HTTPRoute where
  group : String := ""
  kind : String := ""
  nameSpace : String
  name : String
  parentRefs : List ParentReference := []
  hostnames : List String := []
  rules : List HTTPRouteRule := []
  deriving DecidableEq

/-- `ProtocolType`. -/
inductive ProtocolType where
  | http
  | https
  | other (name : String)
  deriving DecidableEq

/-- `TLSModeType`. -/
inductive TLSModeType where
  | terminate
  | other (name : String)
  deriving DecidableEq

/-- `FromNamespaces`. -/
inductive FromNamespaces where
  | all
  | same
  | selector
  | other (name : String)
  deriving DecidableEq

/-- `RouteNamespaces`, with its label selector. -/
structure RouteNamespaces (σ : Type) where
  from? : Option FromNamespaces := none
  selector : σ

/-- `RouteGroupKind`. -/
structure RouteGroupKind where
  group : Option String := none
  kind : String
  deriving DecidableEq

/-- `AllowedRoutes`. -/
structure AllowedRoutes (σ : Type) where
  namespaces : Option (RouteNamespaces σ) := none
  kinds : List RouteGroupKind := []

/-- A `Listener` of a Gateway; `tls` has the mode of its `GatewayTLSConfig`. -/
structure GatewayListener (σ : Type) where
  name : String
  hostname : Option String := none
  port : ℕ
  protocol : ProtocolType
  tls : Option (Option TLSModeType) := none
  allowedRoutes : Option (AllowedRoutes σ) := none

/-- `Gateway`. -/
structure Gateway where
  nameSpace : String
  name : String
  addresses : List String := []

/-- `gatewayv1.GroupName`. -/
def groupName : String := "gateway.networking.k8s.io"

/-! ## The intermediate form -/

/-- `ir.StringMatch`. -/
structure StringMatch where
  exact : Option String := none
  pre : Option String := none
  safeRegex : Option String := none
  name : Option String := none
  deriving DecidableEq

/-- `HTTPFilter`; a nil configuration is `none`. -/
structure HTTPFilter (κ : Type) where
  name : String
  config : Option κ
  deriving DecidableEq

/-- `ir.HTTPRoute`, with the names of its destinations. -/
structure IrRoute (κ : Type) where
  name : String
  pathMatch : Option StringMatch := none
  headerMatches : List StringMatch := []
  method : Option String := none
  destinations : List String := []
  filters : List (HTTPFilter κ) := []

/-- `ir.HTTPListener`. -/
structure IrListener (κ : Type) where
  name : String
  address : String
  port : ℕ
  routes : List (IrRoute κ)

/-- `PixiuFilterPolicy`, with its target and its configuration. -/
structure FilterPolicy (ρ : Type) where
  targetKind : String
  targetName : String
  filterType : String
  config : Option ρ

section Translator

variable {ρ κ σ : Type} (policies : String → String → Option (FilterPolicy ρ))
  (unmarshal : ρ → Option κ)

/-- `ApplyFilterPolicy`, on a new filter; `none` is its error. -/
def applyFilterPolicy (policy : FilterPolicy ρ) : Option (HTTPFilter κ) :=
  match policy.config with
  | none => some { name := policy.filterType, config := none }
  | some raw =>
    (unmarshal raw).map fun config => { name := policy.filterType, config := some config }

/-- The filter that an `ExtensionRef` of a route stands for, if it has one. -/
def translateFilter (httpRoute : HTTPRoute) (filter : HTTPRouteFilter) : Option (HTTPFilter κ) :=
  if filter.isExtensionRef then
    match filter.extensionRef with
    | some ref =>
      if ref.group = "pixiu.apache.org" ∧ ref.kind = "PixiuFilterPolicy" then
        match policies httpRoute.nameSpace ref.name with
        | none => none
        | some policy =>
          if policy.targetKind ≠ "HTTPRoute" ∨ policy.targetName ≠ httpRoute.name then none
          else applyFilterPolicy unmarshal policy
      else none
    | none => none
  else none

/-- The text of a path type. -/
def PathMatchType.text : PathMatchType → String
  | .exact => "Exact"
  | .pathPrefix => "PathPrefix"
  | .regularExpression => "RegularExpression"
  | .other name => name

/-- The path of a match. -/
def translatePath (path : Option HTTPPathMatch) : Option StringMatch :=
  match path with
  | some { type := some .exact, value := some value } => some { exact := some value }
  | some { type := some .pathPrefix, value := some value } => some { pre := some value }
  | some { type := some .regularExpression, value := some value } =>
    some { safeRegex := some value }
  | some _ => none
  | none => some { pre := some "/" }

/-- One round of the loop over the headers: `none` is the panic on a missing type, `some none` a
type that is skipped. -/
def translateHeader (header : HTTPValueMatch) : Option (Option StringMatch) :=
  match header.type with
  | none => none
  | some .exact => some (some { name := some header.name, exact := some header.value })
  | some .regularExpression =>
    some (some { name := some header.name, safeRegex := some header.value })
  | some (.other _) => some none

/-- The name of the cluster of a backend. -/
def clusterName (nameSpace name : String) : String := nameSpace ++ "-" ++ name

/-- The namespace of a backend. -/
def HTTPBackendRef.nameSpaceIn (backendRef : HTTPBackendRef) (httpRoute : HTTPRoute) : String :=
  backendRef.nameSpace.getD httpRoute.nameSpace

/-- A backend that is a Service. -/
def HTTPBackendRef.isService (backendRef : HTTPBackendRef) : Bool :=
  backendRef.kind.getD "Service" == "Service" && backendRef.group.getD "" == ""

/-- `translateHTTPRouteMatch`. -/
def translateHTTPRouteMatch (m : HTTPRouteMatch) (httpRoute : HTTPRoute)
    (backendRefs : List HTTPBackendRef)
    (filters : List HTTPRouteFilter) : Option (IrRoute κ) := do
  let headers ← m.headers.mapM translateHeader
  let type := ((m.path.bind HTTPPathMatch.type).map PathMatchType.text).getD "PathPrefix"
  return {
    name := httpRoute.name ++ "-" ++ type
    pathMatch := translatePath m.path
    headerMatches := headers.filterMap id
    method := m.method
    destinations := (backendRefs.filter HTTPBackendRef.isService).map fun backendRef =>
      clusterName (backendRef.nameSpaceIn httpRoute) backendRef.name
    filters := filters.filterMap (translateFilter policies unmarshal httpRoute) }

/-- The parent reference names the Gateway. -/
def ParentReference.namesGateway (parentRef : ParentReference) (gateway : Gateway)
    (httpRoute : HTTPRoute) : Bool :=
  parentRef.group.getD groupName == groupName && parentRef.kind.getD "Gateway" == "Gateway" &&
    parentRef.name == gateway.name && parentRef.nameSpace.getD httpRoute.nameSpace ==
      gateway.nameSpace

/-- The test of `translateHTTPListener` for a parent reference. -/
def attaches (listener : GatewayListener σ) (gateway : Gateway) (httpRoute : HTTPRoute)
    (parentRef : ParentReference) : Bool :=
  parentRef.namesGateway gateway httpRoute && parentRef.sectionName.getD listener.name ==
    listener.name

/-- The routes of an attached HTTPRoute, one per match of a rule. -/
def translateRules (httpRoute : HTTPRoute) : Option (List (IrRoute κ)) :=
  (httpRoute.rules.flatMap fun rule => rule.ruleMatches.map fun m => (rule, m)).mapM
    fun (rule, m) =>
    translateHTTPRouteMatch policies unmarshal m httpRoute rule.backendRefs rule.filters

/-- One round of the loop of `translateHTTPListener` over the HTTPRoutes. -/
def translateHTTPRoute (listener : GatewayListener σ) (gateway : Gateway) (httpRoute : HTTPRoute) :
    Option (List (IrRoute κ)) :=
  if httpRoute.parentRefs.any (attaches listener gateway httpRoute) then
    translateRules policies unmarshal httpRoute
  else some []

/-- `translateHTTPListener`. -/
def translateHTTPListener (listener : GatewayListener σ) (gateway : Gateway)
    (httpRoutes : List HTTPRoute) :
    Option (IrListener κ) := do
  let routes ← httpRoutes.mapM (translateHTTPRoute policies unmarshal listener gateway)
  return {
    name := listener.name
    address := gateway.addresses.head?.getD "0.0.0.0"
    port := 8888
    routes := routes.flatten }

end Translator

/-! ## The configuration -/

/-- The path and prefix of a route, as `convertHTTPRoute` sets them. -/
def convertPath (pathMatch : Option StringMatch) : RouterMatch :=
  match pathMatch with
  | none => { pre := "/" }
  | some pathMatch =>
    match pathMatch.exact, pathMatch.pre, pathMatch.safeRegex with
    | some exact, _, _ => { path := exact }
    | none, some pre, _ => { pre := pre }
    | none, none, some safeRegex => { path := safeRegex }
    | none, none, none => {}

/-- One round of the loop over the header matches; `none` is the panic on a missing name. -/
def convertHeader (headerMatch : StringMatch) : Option HeaderMatcher :=
  headerMatch.name.map fun name =>
    match headerMatch.exact, headerMatch.safeRegex with
    | some exact, _ => { name, values := [exact], regex := false }
    | none, some safeRegex => { name, values := [safeRegex], regex := true }
    | none, none => { name, values := [], regex := false }

/-- `convertHTTPRoute`. -/
def convertHTTPRoute {κ : Type} (irRoute : IrRoute κ) : Option Router := do
  let headers ← irRoute.headerMatches.mapM convertHeader
  return {
    routerMatch :=
      { convertPath irRoute.pathMatch with methods := irRoute.method.toList, headers := headers }
    route := { cluster := irRoute.destinations.head?.getD "", clusterNotFoundResponseCode := 505 } }

/-- `Listener`, with the routes and filters of its connection manager; a gRPC listener has no HTTP
filters. -/
structure Listener (κ : Type) where
  name : String
  isGRPC : Bool
  address : String
  port : ℕ
  routes : List Router
  httpFilters : List (HTTPFilter κ)

/-- The filter that a listener has if its routes have none. -/
def defaultFilter {κ : Type} (noConfig : κ) : HTTPFilter κ :=
  { name := "dgp.filter.http.httpproxy", config := some noConfig }

/-- `convertHTTPListener`; `noConfig` is the empty configuration. -/
def convertHTTPListener {κ : Type} (noConfig : κ) (httpListener : IrListener κ) :
    Option (Listener κ) := do
  let routes ← httpListener.routes.mapM convertHTTPRoute
  let isGRPC := httpListener.name.toLower == "grpc"
  let custom := httpListener.routes.flatMap IrRoute.filters
  return {
    name := httpListener.name
    isGRPC
    address := httpListener.address
    port := httpListener.port
    routes
    httpFilters :=
      if isGRPC then [] else if custom.isEmpty then [defaultFilter noConfig] else custom }

/-! ## When a translation panics -/

/-- A header match without a type. -/
def HTTPRouteMatch.Untyped (m : HTTPRouteMatch) : Prop := ∃ header ∈ m.headers, header.type = none

/-- A match of a rule. -/
def HTTPRoute.HasMatch (httpRoute : HTTPRoute) (m : HTTPRouteMatch) : Prop :=
  ∃ rule ∈ httpRoute.rules, m ∈ rule.ruleMatches

theorem translateHeader_eq_none_iff {header : HTTPValueMatch} : translateHeader header = none ↔
    header.type = none := by
  rw [translateHeader]
  split <;> simp_all

section Panics

variable {ρ κ σ : Type} {policies : String → String → Option (FilterPolicy ρ)}
  {unmarshal : ρ → Option κ}
variable {listener : GatewayListener σ} {gateway : Gateway} {httpRoute : HTTPRoute}
  {httpRoutes : List HTTPRoute}

theorem translateHTTPRouteMatch_eq_none_iff {m : HTTPRouteMatch} {backendRefs : List HTTPBackendRef}
    {filters : List HTTPRouteFilter} :
    translateHTTPRouteMatch policies unmarshal m httpRoute backendRefs filters = none ↔
      m.Untyped := by
  rw [translateHTTPRouteMatch, Option.bind_eq_bind, Option.bind_eq_none_iff]
  constructor
  · intro h
    cases hheaders : m.headers.mapM translateHeader with
    | none =>
      obtain ⟨header, hmem, hnone⟩ := mapM_eq_none_iff.1 hheaders
      exact ⟨header, hmem, translateHeader_eq_none_iff.1 hnone⟩
    | some headers => exact absurd (h headers hheaders) nofun
  · rintro ⟨header, hmem, hnone⟩ headers hheaders
    rw [mapM_eq_none_iff.2 ⟨header, hmem, translateHeader_eq_none_iff.2 hnone⟩] at hheaders
    cases hheaders

theorem translateRules_eq_none_iff :
    translateRules policies unmarshal httpRoute = none ↔ ∃ m, httpRoute.HasMatch m ∧ m.Untyped := by
  rw [translateRules, mapM_eq_none_iff]
  constructor
  · rintro ⟨⟨rule, m⟩, hmem, hnone⟩
    obtain ⟨rule', hrule, hmem⟩ := List.mem_flatMap.1 hmem
    obtain ⟨m', hm, heq⟩ := List.mem_map.1 hmem
    obtain ⟨rfl, rfl⟩ := Prod.mk.inj heq
    exact ⟨m', ⟨rule', hrule, hm⟩, translateHTTPRouteMatch_eq_none_iff.1 hnone⟩
  · rintro ⟨m, ⟨rule, hrule, hm⟩, huntyped⟩
    exact ⟨(rule, m), List.mem_flatMap.2 ⟨rule, hrule, List.mem_map.2 ⟨m, hm, rfl⟩⟩,
      translateHTTPRouteMatch_eq_none_iff.2 huntyped⟩

theorem translateRules_eq_nil_iff :
    translateRules policies unmarshal httpRoute = some [] ↔ ∀ m, ¬httpRoute.HasMatch m := by
  rw [translateRules, mapM_eq_some_iff, List.forall₂_nil_right_iff, List.flatMap_eq_nil_iff]
  constructor
  · rintro h m ⟨rule, hrule, hm⟩
    rw [List.map_eq_nil_iff.1 (h rule hrule)] at hm
    cases hm
  · intro h rule hrule
    rw [List.map_eq_nil_iff, List.eq_nil_iff_forall_not_mem]
    exact fun m hm => h m ⟨rule, hrule, hm⟩

/-- Some parent reference of the HTTPRoute is attached. -/
def HTTPRoute.Attached (httpRoute : HTTPRoute) (listener : GatewayListener σ) (gateway : Gateway) :
    Prop :=
  ∃ parentRef ∈ httpRoute.parentRefs, attaches listener gateway httpRoute parentRef = true

theorem translateHTTPRoute_of_attached (h : httpRoute.Attached listener gateway) :
    translateHTTPRoute policies unmarshal listener gateway httpRoute =
      translateRules policies unmarshal httpRoute := by
  rw [translateHTTPRoute, if_pos (List.any_eq_true.2 h)]

theorem translateHTTPRoute_of_not_attached (h : ¬httpRoute.Attached listener gateway) :
    translateHTTPRoute policies unmarshal listener gateway httpRoute = some [] := by
  rw [translateHTTPRoute, if_neg fun hany => h (List.any_eq_true.1 hany)]

/-- A listener has rules of the attached HTTPRoutes that have a match. -/
theorem translateHTTPRoute_ne_nil_iff :
    translateHTTPRoute policies unmarshal listener gateway httpRoute ≠ some [] ↔
      httpRoute.Attached listener gateway ∧ ∃ m, httpRoute.HasMatch m := by
  by_cases hattached : httpRoute.Attached listener gateway
  · rw [translateHTTPRoute_of_attached hattached, ne_eq, translateRules_eq_nil_iff]
    push Not
    exact (and_iff_right hattached).symm
  · rw [translateHTTPRoute_of_not_attached hattached]
    simp [hattached]

/-- The translation of a listener panics on a header match without a type in an attached
HTTPRoute. -/
theorem translateHTTPListener_eq_none_iff :
    translateHTTPListener policies unmarshal listener gateway httpRoutes = none ↔
      ∃ httpRoute ∈ httpRoutes, httpRoute.Attached listener gateway ∧ ∃ m, httpRoute.HasMatch m ∧
      m.Untyped := by
  have hloop : translateHTTPListener policies unmarshal listener gateway httpRoutes = none ↔
      httpRoutes.mapM (translateHTTPRoute policies unmarshal listener gateway) = none := by
    rw [translateHTTPListener]
    cases httpRoutes.mapM (translateHTTPRoute policies unmarshal listener gateway) <;> simp
  rw [hloop, mapM_eq_none_iff]
  refine exists_congr fun httpRoute => and_congr_right fun _ => ?_
  by_cases hattached : httpRoute.Attached listener gateway
  · rw [translateHTTPRoute_of_attached hattached, translateRules_eq_none_iff]
    exact (and_iff_right hattached).symm
  · rw [translateHTTPRoute_of_not_attached hattached]
    simp [hattached]

/-- A route that was translated is converted: its header matches have names. -/
theorem exists_convertHTTPRoute {m : HTTPRouteMatch} {backendRefs : List HTTPBackendRef}
    {filters : List HTTPRouteFilter} {irRoute : IrRoute κ}
    (h : translateHTTPRouteMatch policies unmarshal m httpRoute backendRefs filters =
      some irRoute) :
    ∃ route, convertHTTPRoute irRoute = some route := by
  rw [translateHTTPRouteMatch, Option.bind_eq_bind, Option.bind_eq_some_iff] at h
  obtain ⟨headers, hheaders, hroute⟩ := h
  obtain rfl := Option.some.inj hroute
  have hnamed : (headers.filterMap id).mapM convertHeader ≠ none := by
    rw [ne_eq, mapM_eq_none_iff]
    rintro ⟨headerMatch, hmem, hnone⟩
    obtain ⟨translated, htranslated, rfl⟩ := List.mem_filterMap.1 hmem
    obtain ⟨header, -, hheader⟩ := exists_of_mem_mapM hheaders htranslated
    rw [translateHeader] at hheader
    split at hheader <;> cases hheader <;> cases hnone
  obtain ⟨converted, hconverted⟩ := Option.ne_none_iff_exists'.1 hnamed
  rw [convertHTTPRoute, hconverted]
  exact ⟨_, rfl⟩

end Panics

/-- A listener. -/
def openListener : GatewayListener Unit := { name := "http", port := 80, protocol := .http }

end Pixiu.Controller
