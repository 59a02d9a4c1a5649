import Pixiu.Routing.TrieMap

/-!
# The API route table

`Route` of `pkg/router/route.go`: APIs are kept in one routing trie, keyed by verb and
lower-case path.

A Go map (`Headers`, `Metadata`) is passed around by reference and never looked into
here; it is modelled by its address.  `toLower` stands for `strings.ToLower`.

Besides the model, `getNode_real` says what is found in terms of the one mark that is looked at.
-/

namespace Pixiu.Api

open Pixiu Routing

/-! ## APIs -/

/-- The address of a Go map. -/
abbrev MapRef := Nat

/-- `config.Method`; `url` is the URL of its HTTP backend. -/
structure Method where
  id : Int := 0
  resourcePath : String := ""
  enable : Bool := true
  timeout : Int := 0
  mock : Bool := false
  httpVerb : String
  url : String := ""
  deriving DecidableEq, Repr

/-- `API`; its method is embedded. -/
structure API where
  urlPattern : String
  method : Method
  headers : Option MapRef := none
  metadata : Option MapRef := none
  deriving DecidableEq, Repr

/-- `Node`, what a trie node of the table points to. -/
structure RouteNode where
  fullPath : String
  method : Method
  headers : Option MapRef
  metadata : Option MapRef
  deriving DecidableEq, Repr

/-- `Route`. -/
structure Route where
  tree : Trie RouteNode

/-- `getTrieKey`. -/
def getTrieKey (method path : String) (isPrefix : Bool) : String :=
  if isPrefix then
    let path := if path.toList.getLast? = some '/' then path else path ++ "/"
    Routing.getTrieKey method (path ++ "**")
  else Routing.getTrieKey method path

/-- The API a node of the table stands for. -/
def RouteNode.api (n : RouteNode) : API := ⟨n.fullPath, n.method, n.headers, n.metadata⟩

/-- `NewRoute`. -/
def newRoute : Route := ⟨Trie.newTrie⟩

namespace Route

/-- `Route.getNode`. -/
def getNode (rt : Route) (fullPath : String) : Option RouteNode :=
  match rt.tree.get fullPath with
  | .error _ => none
  | .ok (trieNode, _) => trieNode.bind (·.bizInfo)

/-- `Route.matchNode`. -/
def matchNode (rt : Route) (fullPath : String) : Option RouteNode :=
  (rt.tree.match? fullPath).bind (·.1.bizInfo)

section ToLower

variable (toLower : String → String)

/-- The key of an API. -/
def keyOf (urlPattern httpVerb : String) : String := getTrieKey httpVerb (toLower urlPattern) false

/-- The node `PutAPI` makes for an API. -/
def nodeOf (api : API) : RouteNode :=
  ⟨toLower api.urlPattern, api.method, api.headers, api.metadata⟩

/-- `Route.PutAPI`, with its error. -/
def putAPI (rt : Route) (api : API) : Route × Option String :=
  let key := keyOf toLower api.urlPattern api.method.httpVerb
  match rt.getNode key with
  | none => (⟨(rt.tree.put key (some (nodeOf toLower api))).1⟩, none)
  | some node => (rt, some ("Method " ++ api.method.httpVerb ++ " with address " ++
      toLower api.urlPattern ++ " already exists in path " ++ node.fullPath))

/-- `Route.MatchAPI`. -/
def matchAPI (rt : Route) (fullPath httpverb : String) : Option API :=
  (rt.matchNode (keyOf toLower fullPath httpverb)).map RouteNode.api

end ToLower

end Route

namespace Route

/-- A key with `**` at most at its end has one node to look at. -/
theorem getNode_real {key : String} (hreal : IsReal (split key)) (rt : Route) :
    rt.getNode key = (rt.tree.seen (addr (split key))).bind (·.bizInfo) := by
  obtain ⟨n, ok, hget, hn, -⟩ := Trie.get_real hreal rt.tree
  rw [getNode, hget, ← hn]
  cases n <;> rfl

end Route

end Pixiu.Api
