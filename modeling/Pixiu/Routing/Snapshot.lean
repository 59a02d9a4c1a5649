import Pixiu.Routing.Trie

/-!
# Route snapshots

The routing core of the gateway: how a list of routes becomes a read-only
snapshot (`buildRouteConfiguration` of `pkg/common/router/router.go`, `ToSnapshot`
of `pkg/model/router_snapshot.go`) and how a request is answered from it
(`RouterCoordinator.route`).

A snapshot has one trie per method text.  The trie nodes point to shared lists of
candidates, one list per route identity; a pointer is modelled by that identity and
`RouteSnapshot.routeCandidates` holds the lists.  Regular expressions are outside
the model: `compile` stands for `regexp.Compile`, and a compiled expression is its
match function.

Nothing is proved here; `Pixiu.Routing.Entries` says what a snapshot holds.
-/

namespace Pixiu.Routing

open Pixiu

/-! ## Routes and requests -/

/-- `HeaderMatcher`; `valueRE` is the expression compiled by `SetValueRegex`. -/
structure HeaderMatcher where
  name : String
  values : List String
  regex : Bool
  valueRE : Option (String → Bool) := none

/-- `RouterMatch`. -/
structure RouterMatch where
  pre : String := ""
  path : String := ""
  methods : List String := []
  headers : List HeaderMatcher := []

/-- `RouteAction`. -/
structure RouteAction where
  cluster : String
  clusterNotFoundResponseCode : Int := 0
  deriving DecidableEq, Repr

/-- `Router`. -/
structure Router where
  id : String := ""
  routerMatch : RouterMatch
  route : RouteAction

/-- The characters of an HTTP token. -/
def isTokenChar (c : Char) : Bool := c.isAlphanum || "!#$%&'*+-.^_`|~".toList.contains c

/-- The HTTP server only lets requests through whose method is a token. -/
def IsToken (m : String) : Prop := m ≠ "" ∧ m.toList.all isTokenChar = true

instance (m : String) : Decidable (IsToken m) := inferInstanceAs (Decidable (_ ∧ _))

/-- What routing reads of a request: `Method`, `URL.Path` and `Header.Get`. -/
structure Request where
  method : String
  path : String
  header : String → String
  isToken : IsToken method

/-! ## Compiled headers -/

/-- `CompiledHeader`. -/
structure CompiledHeader where
  name : String
  regex : Option (String → Bool) := none
  values : List String := []

section Compile

variable (compile : String → Option (String → Bool))

/-- `HeaderMatcher.SetValueRegex`: an expression that does not compile disables the regex. -/
def HeaderMatcher.setValueRegex (hm : HeaderMatcher) (regex : String) : HeaderMatcher :=
  match compile regex with
  | some re => { hm with valueRE := some re }
  | none => { hm with regex := false }

/-- The loop body of `initRegex`. -/
def HeaderMatcher.initRegex (hm : HeaderMatcher) : HeaderMatcher :=
  match hm.regex, hm.values with
  | true, v :: _ => hm.setValueRegex compile v
  | _, _ => hm

/-- A route with its header expressions compiled. -/
def Router.initRegex (r : Router) : Router :=
  { r with routerMatch := { r.routerMatch with
      headers := r.routerMatch.headers.map (HeaderMatcher.initRegex compile) } }

/-- `initRegex`. -/
def initRegex (routes : List Router) : List Router := routes.map (Router.initRegex compile)

/-- `compileRegexHeader`; `none` is the result `false`. -/
def compileRegexHeader (h : HeaderMatcher) : Option CompiledHeader :=
  match h.valueRE with
  | some re => some { name := h.name, regex := some re }
  | none =>
      match h.values with
      | [] => some { name := h.name }
      | v :: _ =>
          if v = "" then some { name := h.name }
          else (compile v).map fun re => { name := h.name, regex := some re }

/-- `compileHeader`; `none` is the result `false`. -/
def compileHeader (h : HeaderMatcher) : Option CompiledHeader :=
  if h.regex then compileRegexHeader compile h else some { name := h.name, values := h.values }

/-- `compileHeaders`. -/
def compileHeaders (headers : List HeaderMatcher) : List CompiledHeader :=
  headers.filterMap (compileHeader compile)

end Compile

/-- `matchHeaders`. -/
def matchHeaders (chs : List CompiledHeader) (req : Request) : Bool :=
  chs.all fun ch =>
    let val := req.header ch.name
    if val = "" then false
    else match ch.regex with
      | some re => re val
      | none => ch.values.contains val

/-! ## Snapshots -/

/-- `constMethods`. -/
def constMethods : List String := ["GET", "POST", "PUT", "DELETE", "PATCH", "OPTIONS", "HEAD"]

/-- `MethodAllowed`. -/
def methodAllowed (methods : List String) (m : String) : Bool :=
  methods.isEmpty || methods.any fun x => x == "*" || x == m

/-- `HeaderRoute`. -/
structure HeaderRoute where
  methods : List String
  headers : List CompiledHeader
  action : RouteAction

/-- `RouteCandidate`. -/
structure RouteCandidate where
  headers : List CompiledHeader
  action : RouteAction

/-- What a trie node holds: a pointer to a candidate list, an action, or anything else. -/
inductive BizInfo where
  | candidates (identity : String)
  | action (a : RouteAction)
  | other

/-- `RouteSnapshot`, with the candidate lists its nodes point to. -/
structure RouteSnapshot where
  methodTries : String → Option (Trie BizInfo)
  headerOnly : List HeaderRoute
  routeCandidates : String → Option (List RouteCandidate)

/-- `RouteConfiguration`. -/
structure RouteConfiguration where
  routeTrie : Trie BizInfo
  routes : List Router
  dynamic : Bool

/-- The methods of a route in the tries. -/
def Router.trieMethods (r : Router) : List String :=
  if r.routerMatch.methods.isEmpty then constMethods else r.routerMatch.methods

/-- The trie key of a route for one of its methods. -/
def Router.trieKey (r : Router) (m : String) : String :=
  getTrieKeyWithPrefix m r.routerMatch.path r.routerMatch.pre (r.routerMatch.pre ≠ "")

/-- `fillTrieFromRoutes`. -/
def fillTrieFromRoutes (routes : List Router) (t : Trie BizInfo) : Trie BizInfo :=
  routes.foldl (fun t r => r.trieMethods.foldl
    (fun t m => (t.put (r.trieKey m) (some (.action r.route))).1) t) t

/-- `buildRouteConfiguration`. -/
def buildRouteConfiguration (compile : String → Option (String → Bool)) (routes : List Router) :
    RouteConfiguration :=
  let routes := initRegex compile routes
  { routeTrie := fillTrieFromRoutes routes Trie.newTrie, routes, dynamic := false }

/-- A route with headers and neither path nor prefix. -/
def Router.isHeaderOnly (r : Router) : Bool :=
  r.routerMatch.path == "" && r.routerMatch.pre == "" && !r.routerMatch.headers.isEmpty

/-- How `trieRouteIdentity` spells a segment after the first. -/
def normalSegment (k : String) : String := if isPathVariableOrWildcard k then "*" else k

/-- `trieRouteIdentity`: the key itself unless it has a parameter to normalise. -/
def trieRouteIdentity (key : String) : String :=
  match Text.split '/' key with
  | [] => key
  | p :: ps =>
      if ps.any isPathVariableOrWildcard then Text.join '/' (p :: ps.map normalSegment) else key

/-- One round of the method loop of `ToSnapshot`. -/
def RouteSnapshot.addTrieRoute (s : RouteSnapshot) (r : Router) (headers : List CompiledHeader)
    (m : String) : RouteSnapshot :=
  let t := (s.methodTries m).getD Trie.newTrie
  let key := r.trieKey m
  let identity := trieRouteIdentity key
  let candidates := (s.routeCandidates identity).getD []
  { s with
    methodTries :=
      Function.update s.methodTries m (some (t.put key (some (.candidates identity))).1)
    routeCandidates := Function.update s.routeCandidates identity
      (some (candidates ++ [{ headers, action := r.route }])) }

/-- One round of the route loop of `ToSnapshot`. -/
def RouteSnapshot.addRoute (compile : String → Option (String → Bool)) (s : RouteSnapshot)
    (r : Router) : RouteSnapshot :=
  let headers := compileHeaders compile r.routerMatch.headers
  if r.isHeaderOnly then
    { s with headerOnly := s.headerOnly ++
        [{ methods := r.routerMatch.methods, headers, action := r.route }] }
  else r.trieMethods.foldl (fun s m => s.addTrieRoute r headers m) s

/-- `ToSnapshot`. -/
def toSnapshot (compile : String → Option (String → Bool)) (routes : List Router) : RouteSnapshot :=
  routes.foldl (RouteSnapshot.addRoute compile)
    { methodTries := fun _ => none, headerOnly := [], routeCandidates := fun _ => none }

/-! ## Answering a request -/

/-- `firstMatchingCandidate`; no request is the `nil` one, which any candidate suits. -/
def firstMatchingCandidate (candidates : List RouteCandidate) (req : Option Request) :
    Option RouteCandidate :=
  candidates.find? fun c => match req with
    | none => true
    | some r => matchHeaders c.headers r

/-- The predicate `matchInTrie` searches with: a node that is not a candidate list is
always accepted. -/
def RouteSnapshot.accepts (s : RouteSnapshot) (req : Option Request) (node : Node BizInfo) : Bool :=
  match node.bizInfo with
  | some (.candidates identity) =>
      (firstMatchingCandidate ((s.routeCandidates identity).getD []) req).isSome
  | _ => true

/-- `matchInTrie`: `ok none` is a miss, after which the caller may try the next trie. -/
def RouteSnapshot.matchInTrie (s : RouteSnapshot) (t : Option (Trie BizInfo)) (key : String)
    (req : Option Request) : Except String (Option RouteAction) :=
  match t with
  | none => .ok none
  | some t =>
      let found := match req with
        | none => t.match? key
        | some _ => t.matchWithPredicate key (s.accepts req)
      match found with
      | none => .ok none
      | some (node, _) =>
          match node.bizInfo with
          | none => .ok none
          | some (.candidates identity) =>
              .ok ((firstMatchingCandidate ((s.routeCandidates identity).getD []) req).map
                (·.action))
          | some (.action a) => .ok (some a)
          | some .other => .error ("route failed for " ++ key ++ ", invalid route action type")

/-- The two lookups of `route` and `RouteByPathAndName`: the trie of the method, then the
trie of `*`. -/
def RouteSnapshot.lookup (s : RouteSnapshot) (method key : String) (req : Option Request) :
    Except String RouteAction :=
  let miss : Except String RouteAction :=
    .error ("route failed for " ++ key ++ ", no rules matched")
  match s.matchInTrie (s.methodTries method) key req with
  | .error e => .error e
  | .ok (some act) => .ok act
  | .ok none =>
      if method ≠ "*" then
        match s.matchInTrie (s.methodTries "*") key req with
        | .error e => .error e
        | .ok (some act) => .ok act
        | .ok none => miss
      else miss

/-- `RouterCoordinator.route`, on the published snapshot if there is one. -/
def route (mainSnapshot : Option RouteSnapshot) (req : Request) : Except String RouteAction :=
  match mainSnapshot with
  | none => .error "router configuration is empty"
  | some s =>
      match s.headerOnly.find? fun hr =>
          methodAllowed hr.methods req.method && matchHeaders hr.headers req with
      | some hr =>
          if hr.action.cluster = "" then
            .error "action is nil. please check your configuration."
          else .ok hr.action
      | none => s.lookup req.method (getTrieKey req.method req.path) (some req)

end Pixiu.Routing
