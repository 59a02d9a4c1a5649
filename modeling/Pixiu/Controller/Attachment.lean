import Pixiu.Controller.Translator

/-!
# Which routes a listener takes

`checkRouteAcceptedByListener` of `controllers/internal/controller` decides for the status whether a
listener accepts an HTTPRoute for a parent reference; the configuration of the data plane is decided
by `attaches`, which looks at the reference and its section name only.

The API server is a parameter: `getNamespace` gives a namespace, and `selects` tells whether a label
selector is valid and matches it.

* `checkRouteAcceptedByListener_iff` — the check of the status, as conditions on the fields.
* `honours_iff` — the data plane honours route attachment exactly if the listener admits every route
  that refers to it, and a reference of the route has its port.
-/

namespace Pixiu.Controller

/-! ## The check of the status -/

/-- `RouteConditionReason`, as far as the check gives it. -/
inductive RouteConditionReason where
  | accepted
  | noMatchingParent
  | noMatchingListenerHostname
  | notAllowedByListeners
  deriving DecidableEq

/-- The loop of `HostnamesMatch` over the labels; after a wildcard the next label is searched
for. -/
def labelsMatch : Bool → List String → List String → Bool
  | true, a :: as, b :: bs =>
    match (b :: bs).dropWhile fun label => label != a with
    | [] => false
    | _ :: bs => labelsMatch (a == "*") as bs
  | false, a :: as, b :: bs =>
    if a = "*" then labelsMatch true as bs
    else if a = b then labelsMatch false as bs
    else false
  | _, as, bs => as.length == bs.length

/-- `HostnamesMatch`. -/
def hostnamesMatch (hostnameA hostnameB : String) : Bool :=
  labelsMatch false (Text.split '.' hostnameA) (Text.split '.' hostnameB)

/-- `HostnamesIntersect`. -/
def hostnamesIntersect (a b : String) : Bool := hostnamesMatch a b || hostnamesMatch b a

section Check

variable {σ ν : Type} (getNamespace : String → Option ν) (selects : σ → ν → Bool)

/-- `listenerHostnameIntersectWithRouteHostnames`. -/
def listenerHostnameIntersectWithRouteHostnames (listener : GatewayListener σ)
    (hostnames : List String) : Bool :=
  if hostnames.isEmpty then true
  else
    match listener.hostname with
    | none => true
    | some hostname => if hostname = "" then true else hostnames.any (hostnamesIntersect hostname)

/-- `routeMatchesListenerType`, for an HTTPRoute. -/
def routeMatchesListenerType (listener : GatewayListener σ) : Bool :=
  match listener.protocol with
  | .http => true
  | .https =>
    match listener.tls with
    | none => false
    | some mode => mode.getD .terminate == .terminate
  | .other _ => false

/-- `isRouteKindAllowed`. -/
def isRouteKindAllowed (route : HTTPRoute) (kinds : List RouteGroupKind) : Bool :=
  kinds.isEmpty || kinds.any fun rgk => rgk.group == some route.group && rgk.kind == route.kind

/-- `isRouteNamespaceAllowed`. -/
def isRouteNamespaceAllowed (route : HTTPRoute) (gatewayNamespace : String)
    (parentRefNamespace : Option String)
    (routeNamespaces : Option (RouteNamespaces σ)) : Bool :=
  match routeNamespaces with
  | none => true
  | some routeNamespaces =>
    match routeNamespaces.from? with
    | none | some .all | some (.other _) => true
    | some .same => parentRefNamespace.getD gatewayNamespace == route.nameSpace
    | some .selector =>
      match getNamespace route.nameSpace with
      | none => false
      | some labels => selects routeNamespaces.selector labels

/-- `routeMatchesListenerAllowedRoutes`: a route that is not allowed is an error. -/
def routeMatchesListenerAllowedRoutes (route : HTTPRoute) (allowedRoutes : Option (AllowedRoutes σ))
    (gatewayNamespace : String) (parentRefNamespace : Option String) : Except String Unit :=
  match allowedRoutes with
  | none => .ok ()
  | some allowedRoutes =>
    if !isRouteKindAllowed route allowedRoutes.kinds then
      .error ("route " ++ route.nameSpace ++ "/" ++ route.name ++ " is not allowed in the kind")
    else if !isRouteNamespaceAllowed getNamespace selects route gatewayNamespace parentRefNamespace
        allowedRoutes.namespaces then
      .error
        ("route " ++ route.nameSpace ++ "/" ++ route.name ++ " is not allowed in the namespace")
    else .ok ()

/-- `checkRouteAcceptedByListener`: whether the route is accepted, the reason, and the error. -/
def checkRouteAcceptedByListener (route : HTTPRoute) (gateway : Gateway)
    (listener : GatewayListener σ)
    (parentRef : ParentReference) : Bool × RouteConditionReason × Option String :=
  if parentRef.sectionName.getD "" ≠ "" ∧ parentRef.sectionName ≠ some listener.name then
    (false, .noMatchingParent, none)
  else if parentRef.port.getD listener.port ≠ listener.port then (false, .noMatchingParent, none)
  else if !routeMatchesListenerType listener then (false, .noMatchingParent, none)
  else if !listenerHostnameIntersectWithRouteHostnames listener route.hostnames then
    (false, .noMatchingListenerHostname, none)
  else
    match routeMatchesListenerAllowedRoutes getNamespace selects route listener.allowedRoutes
      gateway.nameSpace
        parentRef.nameSpace with
    | .error err =>
      (false, .notAllowedByListeners,
        some ("failed matching listener " ++ listener.name ++ " to a route " ++ route.name ++
        " for gateway " ++ gateway.name ++ ": " ++ err))
    | .ok () => (true, .accepted, none)

/-- The listener accepts the route for a parent reference that names its Gateway. -/
def HTTPRoute.Accepted (route : HTTPRoute) (listener : GatewayListener σ) (gateway : Gateway) :
    Prop :=
  ∃ parentRef ∈ route.parentRefs, parentRef.namesGateway gateway route = true ∧
    (checkRouteAcceptedByListener getNamespace selects route gateway listener parentRef).1 = true

/-! ## The check, field by field -/

/-- The parent reference leaves the listener open or names it, by section and by port. -/
def ParentReference.Selects (parentRef : ParentReference) (listener : GatewayListener σ) : Prop :=
  (parentRef.sectionName = none ∨ parentRef.sectionName = some "" ∨
    parentRef.sectionName = some listener.name) ∧
  (parentRef.port = none ∨ parentRef.port = some listener.port)

/-- What a listener of the Gateway asks of an HTTPRoute, whichever parent reference brings it. -/
structure GatewayListener.Admits (listener : GatewayListener σ) (gateway : Gateway)
    (route : HTTPRoute) : Prop where
  /-- The listener is for HTTP, or for HTTPS that it terminates. -/
  protocol : listener.protocol = .http ∨
    listener.protocol = .https ∧ (listener.tls = some none ∨ listener.tls = some (some .terminate))
  /-- One of them has no hostname, or a hostname of the route goes with the listener's. -/
  hostname : route.hostnames = [] ∨ listener.hostname = none ∨ listener.hostname = some "" ∨
    ∃ a ∈ listener.hostname, ∃ b ∈ route.hostnames, hostnamesIntersect a b = true
  /-- The kind of the route is listed, if any kinds are. -/
  kind : ∀ allowed ∈ listener.allowedRoutes, allowed.kinds = [] ∨
    ∃ rgk ∈ allowed.kinds, rgk.group = some route.group ∧ rgk.kind = route.kind
  /-- Routes of the same namespace are of the Gateway's. -/
  same : ∀ allowed ∈ listener.allowedRoutes, ∀ namespaces ∈ allowed.namespaces,
    namespaces.from? = some .same → route.nameSpace = gateway.nameSpace
  /-- Routes of selected namespaces are of one that is there and that the selector matches. -/
  selector : ∀ allowed ∈ listener.allowedRoutes, ∀ namespaces ∈ allowed.namespaces,
    namespaces.from? = some .selector →
      ∃ labels ∈ getNamespace route.nameSpace, selects namespaces.selector labels = true

variable {getNamespace selects} {route : HTTPRoute} {listener : GatewayListener σ}
variable {gateway : Gateway} {parentRef : ParentReference}

theorem routeMatchesListenerType_iff :
    routeMatchesListenerType listener = true ↔ listener.protocol = .http ∨
      listener.protocol = .https ∧
        (listener.tls = some none ∨ listener.tls = some (some .terminate)) := by
  unfold routeMatchesListenerType
  cases listener.protocol with
  | http => simp
  | other name => simp
  | https =>
    rcases listener.tls with _ | _ | mode
    · simp
    · simp
    · simp

theorem listenerHostnameIntersect_iff :
    listenerHostnameIntersectWithRouteHostnames listener route.hostnames = true ↔
      route.hostnames = [] ∨ listener.hostname = none ∨ listener.hostname = some "" ∨
        ∃ a ∈ listener.hostname, ∃ b ∈ route.hostnames, hostnamesIntersect a b = true := by
  unfold listenerHostnameIntersectWithRouteHostnames
  by_cases hroute : route.hostnames = []
  · simp [hroute]
  · cases hlistener : listener.hostname with
    | none => simp [hroute]
    | some hostname =>
      by_cases hempty : hostname = ""
      · simp [hroute, hempty]
      · simp [hroute, hempty]

/-- For a parent reference that names the Gateway, the same namespace is that of the Gateway. -/
theorem isRouteNamespaceAllowed_iff {namespaces : Option (RouteNamespaces σ)}
    (hnames : parentRef.namesGateway gateway route = true) :
    isRouteNamespaceAllowed getNamespace selects route gateway.nameSpace parentRef.nameSpace
        namespaces = true ↔
      ∀ ns ∈ namespaces, (ns.from? = some .same → route.nameSpace = gateway.nameSpace) ∧
        (ns.from? = some .selector →
          ∃ labels ∈ getNamespace route.nameSpace, selects ns.selector labels = true) := by
  have hsame : parentRef.nameSpace.getD gateway.nameSpace = route.nameSpace ↔
      route.nameSpace = gateway.nameSpace := by
    simp only [ParentReference.namesGateway, Bool.and_eq_true, beq_iff_eq] at hnames
    -- a reference without a namespace names a Gateway of the route's own
    cases hns : parentRef.nameSpace with
    | none => exact eq_comm
    | some nameSpace =>
      obtain rfl : nameSpace = gateway.nameSpace := by simpa [hns] using hnames.2
      exact eq_comm
  cases namespaces with
  | none => simp [isRouteNamespaceAllowed]
  | some ns =>
    unfold isRouteNamespaceAllowed
    rcases hfrom : ns.from? with _ | _ | _ | _ | name
    · simp [hfrom]
    · simp [hfrom]
    · simpa [hfrom] using hsame
    · cases hget : getNamespace route.nameSpace with
      | none => simp [hfrom]
      | some labels => simp [hfrom]
    · simp [hfrom]

theorem isRouteKindAllowed_iff {kinds : List RouteGroupKind} :
    isRouteKindAllowed route kinds = true ↔
      kinds = [] ∨ ∃ rgk ∈ kinds, rgk.group = some route.group ∧ rgk.kind = route.kind := by
  simp [isRouteKindAllowed, List.isEmpty_iff]

theorem routeMatchesListenerAllowedRoutes_eq_ok_iff {allowedRoutes : Option (AllowedRoutes σ)}
    {nameSpace : String} {parentRefNamespace : Option String} :
    routeMatchesListenerAllowedRoutes getNamespace selects route allowedRoutes nameSpace
        parentRefNamespace = .ok () ↔
      ∀ allowed ∈ allowedRoutes, isRouteKindAllowed route allowed.kinds = true ∧
        isRouteNamespaceAllowed getNamespace selects route nameSpace parentRefNamespace
          allowed.namespaces = true := by
  cases allowedRoutes with
  | none => simp [routeMatchesListenerAllowedRoutes]
  | some allowed =>
    cases hkind : isRouteKindAllowed route allowed.kinds with
    | false => simp [routeMatchesListenerAllowedRoutes, hkind]
    | true =>
      cases hns : isRouteNamespaceAllowed getNamespace selects route nameSpace parentRefNamespace
          allowed.namespaces with
      | false => simp [routeMatchesListenerAllowedRoutes, hkind, hns]
      | true => simp [routeMatchesListenerAllowedRoutes, hkind, hns]

/-- The tests of the section name and of the port, as `checkRouteAcceptedByListener` makes them. -/
theorem ParentReference.selects_iff :
    parentRef.Selects listener ↔
      ¬(parentRef.sectionName.getD "" ≠ "" ∧ parentRef.sectionName ≠ some listener.name) ∧
        ¬parentRef.port.getD listener.port ≠ listener.port := by
  refine and_congr ?_ ?_
  · cases parentRef.sectionName with
    | none => simp
    | some sectionName => simp [or_iff_not_imp_left]
  · cases parentRef.port with
    | none => simp
    | some port => simp

/-- The other tests of `checkRouteAcceptedByListener`, for a parent reference that names the
Gateway. -/
theorem GatewayListener.admits_iff (hnames : parentRef.namesGateway gateway route = true) :
    listener.Admits getNamespace selects gateway route ↔
      routeMatchesListenerType listener = true ∧
        listenerHostnameIntersectWithRouteHostnames listener route.hostnames = true ∧
        routeMatchesListenerAllowedRoutes getNamespace selects route listener.allowedRoutes
          gateway.nameSpace parentRef.nameSpace = .ok () := by
  simp only [routeMatchesListenerType_iff, listenerHostnameIntersect_iff,
    routeMatchesListenerAllowedRoutes_eq_ok_iff, isRouteKindAllowed_iff,
    isRouteNamespaceAllowed_iff hnames]
  constructor
  · intro h
    exact ⟨h.protocol, h.hostname, fun allowed hmem => ⟨h.kind allowed hmem, fun ns hns =>
      ⟨h.same allowed hmem ns hns, h.selector allowed hmem ns hns⟩⟩⟩
  · rintro ⟨hprotocol, hhostname, hallowed⟩
    exact ⟨hprotocol, hhostname, fun allowed hmem => (hallowed allowed hmem).1,
      fun allowed hmem ns hns => ((hallowed allowed hmem).2 ns hns).1,
      fun allowed hmem ns hns => ((hallowed allowed hmem).2 ns hns).2⟩

/-- A listener accepts a route for a parent reference that names its Gateway if it admits the route
and the reference selects it. -/
theorem checkRouteAcceptedByListener_iff
    (hnames : parentRef.namesGateway gateway route = true) :
    (checkRouteAcceptedByListener getNamespace selects route gateway listener parentRef).1 = true ↔
      parentRef.Selects listener ∧ listener.Admits getNamespace selects gateway route := by
  rw [ParentReference.selects_iff, GatewayListener.admits_iff hnames]
  unfold checkRouteAcceptedByListener
  by_cases hsection :
      parentRef.sectionName.getD "" ≠ "" ∧ parentRef.sectionName ≠ some listener.name
  · rw [if_pos hsection]
    exact iff_of_false Bool.false_ne_true fun h => h.1.1 hsection
  rw [if_neg hsection]
  by_cases hport : parentRef.port.getD listener.port ≠ listener.port
  · rw [if_pos hport]
    exact iff_of_false Bool.false_ne_true fun h => h.1.2 hport
  rw [if_neg hport, and_iff_right ⟨hsection, hport⟩]
  cases routeMatchesListenerType listener with
  | false => simp
  | true =>
    cases listenerHostnameIntersectWithRouteHostnames listener route.hostnames with
    | false => simp
    | true =>
      cases routeMatchesListenerAllowedRoutes getNamespace selects route listener.allowedRoutes
          gateway.nameSpace parentRef.nameSpace with
      | error err => simp
      | ok _ => simp

theorem HTTPRoute.accepted_iff :
    route.Accepted getNamespace selects listener gateway ↔
      (∃ parentRef ∈ route.parentRefs, parentRef.namesGateway gateway route = true ∧
        parentRef.Selects listener) ∧ listener.Admits getNamespace selects gateway route := by
  constructor
  · rintro ⟨parentRef, hmem, hnames, haccepted⟩
    obtain ⟨hselects, hadmits⟩ := (checkRouteAcceptedByListener_iff hnames).1 haccepted
    exact ⟨⟨parentRef, hmem, hnames, hselects⟩, hadmits⟩
  · rintro ⟨⟨parentRef, hmem, hnames, hselects⟩, hadmits⟩
    exact ⟨parentRef, hmem, hnames,
      (checkRouteAcceptedByListener_iff hnames).2 ⟨hselects, hadmits⟩⟩

end Check

/-! ## The data plane -/

section Honours

variable {ρ κ σ ν : Type} (policies : String → String → Option (FilterPolicy ρ))
  (unmarshal : ρ → Option κ)
variable (getNamespace : String → Option ν) (selects : σ → ν → Bool)
variable (listener : GatewayListener σ) (gateway : Gateway) (httpRoutes : List HTTPRoute)

/-- The generated listener has rules of accepted routes only. -/
def Honours : Prop :=
  ∀ ir, translateHTTPListener policies unmarshal listener gateway httpRoutes = some ir →
    ∀ httpRoute ∈ httpRoutes,
    translateHTTPRoute policies unmarshal listener gateway httpRoute ≠ some [] →
      httpRoute.Accepted getNamespace selects listener gateway

/-- **The data plane honours route attachment exactly if the listener admits every route with a
match that refers to it, and such a route has a reference with the listener's port or none**, or if
the translation panics. -/
theorem honours_iff :
    Honours policies unmarshal getNamespace selects listener gateway httpRoutes ↔
      (∃ httpRoute ∈ httpRoutes, httpRoute.Attached listener gateway ∧ ∃ m, httpRoute.HasMatch m ∧
        m.Untyped) ∨
        ∀ httpRoute ∈ httpRoutes, httpRoute.Attached listener gateway →
        (∃ m, httpRoute.HasMatch m) →
          (∃ parentRef ∈ httpRoute.parentRefs, parentRef.namesGateway gateway httpRoute = true ∧
            parentRef.Selects listener) ∧
            listener.Admits getNamespace selects gateway httpRoute := by
  simp only [← HTTPRoute.accepted_iff]
  have hpanics :=
    @translateHTTPListener_eq_none_iff ρ κ σ policies unmarshal listener gateway httpRoutes
  rw [← hpanics]
  constructor
  · intro h
    cases hir : translateHTTPListener policies unmarshal listener gateway httpRoutes with
    | none => exact Or.inl rfl
    | some ir =>
      exact Or.inr fun httpRoute hmem hattached hmatch =>
        h ir hir httpRoute hmem (translateHTTPRoute_ne_nil_iff.2 ⟨hattached, hmatch⟩)
  · rintro (hnone | h) ir hir httpRoute hmem hne
    · rw [hnone] at hir
      cases hir
    · obtain ⟨hattached, hmatch⟩ := translateHTTPRoute_ne_nil_iff.1 hne
      exact h httpRoute hmem hattached hmatch

end Honours

/-- A listener that takes routes of its own namespace only. -/
def guardedListener : GatewayListener Unit :=
  { name := "http", port := 80, protocol := .http
    allowedRoutes := some { namespaces := some { from? := some .same, selector := () } } }

/-- A route of another namespace that refers to the Gateway of that listener. -/
def foreignRoute : HTTPRoute :=
  { nameSpace := "tenant", name := "shop",
    parentRefs := [{ nameSpace := some "infra", name := "edge" }]
    rules := [{ ruleMatches := [{}] }] }

/-- A route of a namespace that the listener forbids is in its configuration. -/
theorem foreign_route_attached :
    ¬Honours (fun _ _ => (none : Option (FilterPolicy Unit))) (fun _ => some ()) (fun _ => some ())
      (fun _ _ => false)
      guardedListener { nameSpace := "infra", name := "edge" } [foreignRoute] := by
  intro h
  have hmatch : foreignRoute.HasMatch {} :=
    ⟨_, List.mem_singleton_self _, List.mem_singleton_self _⟩
  have hattached : foreignRoute.Attached guardedListener { nameSpace := "infra", name := "edge" } :=
    ⟨_, List.mem_singleton_self _, by decide +kernel⟩
  cases hir : translateHTTPListener (fun _ _ => (none : Option (FilterPolicy Unit)))
    (fun _ => some ()) guardedListener
      { nameSpace := "infra", name := "edge" } [foreignRoute] with
  | none =>
    obtain ⟨httpRoute, hmem, -, m, ⟨rule, hrule, hm⟩, header, hheader, -⟩ :=
      translateHTTPListener_eq_none_iff.1 hir
    obtain rfl := List.mem_singleton.1 hmem
    obtain rfl := List.mem_singleton.1 hrule
    obtain rfl := List.mem_singleton.1 hm
    cases hheader
  | some ir =>
    obtain ⟨parentRef, hmem, -, haccepted⟩ := h ir hir foreignRoute (List.mem_singleton_self _)
      (translateHTTPRoute_ne_nil_iff.2 ⟨hattached, {}, hmatch⟩)
    obtain rfl := List.mem_singleton.1 hmem
    revert haccepted
    decide +kernel

end Pixiu.Controller
