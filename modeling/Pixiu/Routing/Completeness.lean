import Pixiu.Routing.Entries

/-!
# Is routing complete?

What a route says about a request can be read off the route alone
(`Router.declares`): its methods, its path or prefix segment by segment, its
headers.  Routing is complete when a request gets an action exactly if some route
declares a match.  It is not, and `route_complete_iff` says when it is:

* a match that the search sees (`Router.Seen`) is always answered;
* a declared match is missed when the pattern is a parameter followed by `**` (or a
  `*` method with a root prefix) and the path stops at the parameter, when the
  wildcard of a prefix is swallowed by its own text, and when the method text is `**`;
* an undeclared match is answered when a method text holds a slash, so that its key
  coincides with another route's, or is `**` (`Misled`).
-/

namespace Pixiu.Routing

open Pixiu

variable (compile : String → Option (String → Bool))

/-! ## What routes declare -/

/-- The expression a header is matched with: the first value of a regex header, if it
compiles. -/
def HeaderMatcher.expression (h : HeaderMatcher) : Option (String → Bool) :=
  if h.regex then
    match h.values with
    | v :: _ => compile v
    | [] => h.valueRE
  else none

/-- A header matches when it is present and its expression, or without one its values,
accept it. -/
def HeaderMatcher.admits (h : HeaderMatcher) (req : Request) : Bool :=
  req.header h.name != "" &&
    match h.expression compile with
    | some re => re (req.header h.name)
    | none => h.values.contains (req.header h.name)

/-- All headers of the route match. -/
def Router.headersMatch (r : Router) (req : Request) : Bool :=
  r.routerMatch.headers.all (·.admits compile req)

/-- The path pattern of a route; a prefix stands for everything from it downwards. -/
def Router.pattern (r : Router) : List String :=
  if r.routerMatch.pre ≠ "" then pathSegments r.routerMatch.pre ++ ["**"]
  else pathSegments r.routerMatch.path

/-- The route matches the request, by what it says. -/
def Router.declares (r : Router) (req : Request) : Bool :=
  r.headersMatch compile req &&
    if r.isHeaderOnly then methodAllowed r.routerMatch.methods req.method
    else r.trieMethods.any (fun m => m == req.method || m == "*") &&
      covers (r.pattern.map edge) (pathSegments req.path)

/-- The request gets an action from the snapshot of the routes. -/
def Answered (routes : List Router) (req : Request) : Prop :=
  (route (some (toSnapshot compile (buildRouteConfiguration compile routes).routes)) req).isOk =
    true

/-! ## Headers -/

/-- A header is never dropped: once its expression is initialised it compiles to that
expression, or to its values. -/
theorem HeaderMatcher.compileHeader_initRegex (h : HeaderMatcher) :
    compileHeader compile (h.initRegex compile) = some
      { name := h.name, regex := h.expression compile,
        values := if (h.expression compile).isSome then [] else h.values } := by
  obtain ⟨name, values, regex, valueRE⟩ := h
  cases regex with
  | false => rfl
  | true =>
    cases values with
    | nil => cases valueRE <;> rfl
    | cons v vs =>
      cases hv : compile v <;>
        simp [initRegex, setValueRegex, hv, compileHeader, compileRegexHeader, expression]

theorem matchHeaders_cons (ch : CompiledHeader) (chs : List CompiledHeader) (req : Request) :
    matchHeaders (ch :: chs) req = (matchHeaders [ch] req && matchHeaders chs req) := by
  simp [matchHeaders]

/-- Compiling headers keeps their meaning. -/
theorem matchHeaders_compileHeaders (headers : List HeaderMatcher) (req : Request) :
    matchHeaders (compileHeaders compile (headers.map (HeaderMatcher.initRegex compile))) req =
      headers.all (·.admits compile req) := by
  induction headers with
  | nil => rfl
  | cons h hs ih =>
    rw [List.map_cons, compileHeaders, List.filterMap_cons, h.compileHeader_initRegex compile,
      matchHeaders_cons, ← compileHeaders, ih, List.all_cons]
    congr 1
    by_cases hval : req.header h.name = ""
    · simp [matchHeaders, HeaderMatcher.admits, hval]
    · cases hre : h.expression compile <;> simp [matchHeaders, HeaderMatcher.admits, hval, hre]

/-! ## The entries of the published routes -/

/-- The entry a configured route publishes for one of its methods. -/
def Router.published (r : Router) (m : String) : Entry :=
  r.entry (compileHeaders compile (r.routerMatch.headers.map (HeaderMatcher.initRegex compile))) m

theorem Router.entry_initRegex (r : Router) (headers : List CompiledHeader) (m : String) :
    (r.initRegex compile).entry headers m = r.entry headers m := by
  simp only [Router.entry, Router.trieSegs, Router.trieKey, Router.initRegex]
  rfl

theorem Router.isHeaderOnly_initRegex (r : Router) :
    (r.initRegex compile).isHeaderOnly = r.isHeaderOnly := by
  simp [Router.isHeaderOnly, Router.initRegex]

/-- The entries of the routes as they are published. -/
def publishedEntries (routes : List Router) : List Entry :=
  entries compile (buildRouteConfiguration compile routes).routes

theorem mem_publishedEntries {routes : List Router} {e : Entry} :
    e ∈ publishedEntries compile routes ↔
      ∃ r ∈ routes, r.isHeaderOnly = false ∧ ∃ m ∈ r.trieMethods, r.published compile m = e := by
  have hmem : ∀ r : Router, e ∈ (r.initRegex compile).entries compile ↔
      r.isHeaderOnly = false ∧ ∃ m ∈ r.trieMethods, r.published compile m = e := by
    intro r
    rw [Router.entries, r.isHeaderOnly_initRegex compile]
    cases r.isHeaderOnly with
    | true => simp
    | false =>
      simp only [Bool.false_eq_true, if_false, List.mem_map, r.entry_initRegex, true_and]
      exact Iff.rfl
  simp only [publishedEntries, entries, buildRouteConfiguration, initRegex, List.mem_flatMap,
    List.mem_map,
    exists_exists_and_eq_and, hmem]

theorem Router.matchHeaders_published (r : Router) (m : String) (req : Request) :
    matchHeaders (r.published compile m).candidate.headers req = r.headersMatch compile req :=
  matchHeaders_compileHeaders compile _ req

/-- The header-only routes as they are published. -/
def publishedHeaderRoutes (routes : List Router) : List HeaderRoute :=
  headerRoutes compile (buildRouteConfiguration compile routes).routes

theorem mem_publishedHeaderRoutes {routes : List Router} {hr : HeaderRoute} :
    hr ∈ publishedHeaderRoutes compile routes ↔
      ∃ r ∈ routes, r.isHeaderOnly = true ∧
        ⟨r.routerMatch.methods, compileHeaders compile
          (r.routerMatch.headers.map (HeaderMatcher.initRegex compile)), r.route⟩ = hr := by
  simp only [publishedHeaderRoutes, headerRoutes, buildRouteConfiguration, initRegex, List.mem_map,
    List.mem_filter,
    exists_exists_and_eq_and, and_assoc, Router.isHeaderOnly_initRegex]
  exact Iff.rfl

/-- The header-only route suits the request. -/
def HeaderRoute.suits (req : Request) (hr : HeaderRoute) : Bool :=
  methodAllowed hr.methods req.method && matchHeaders hr.headers req

theorem answered_iff_find? (routes : List Router) (req : Request) :
    Answered compile routes req ↔
      match (publishedHeaderRoutes compile routes).find? (HeaderRoute.suits req) with
      | some hr => hr.action.cluster ≠ ""
      | none => Finds (publishedEntries compile routes) req :=
  (holds_toSnapshot compile _).route_isOk req

/-- A header-only route is suitable exactly when the route it comes from declares a match. -/
theorem Router.suits_iff {r : Router} (honly : r.isHeaderOnly = true) (req : Request) :
    HeaderRoute.suits req ⟨r.routerMatch.methods, compileHeaders compile
        (r.routerMatch.headers.map (HeaderMatcher.initRegex compile)), r.route⟩ =
      r.declares compile req := by
  rw [HeaderRoute.suits, matchHeaders_compileHeaders, Router.declares, if_pos honly,
    Router.headersMatch, Bool.and_comm]

/-- With non-empty clusters in the header-only routes, a request is answered when one of
those declares it or the lookups find it. -/
theorem answered_iff {routes : List Router} (req : Request)
    (hcluster : ∀ r ∈ routes, r.isHeaderOnly = true → r.route.cluster ≠ "") :
    Answered compile routes req ↔
      (∃ r ∈ routes, r.isHeaderOnly = true ∧ r.declares compile req = true) ∨
        Finds (publishedEntries compile routes) req := by
  rw [answered_iff_find?]
  cases hfind : (publishedHeaderRoutes compile routes).find? (HeaderRoute.suits req) with
  | some hr =>
    obtain ⟨r, hr, honly, rfl⟩ :=
      (mem_publishedHeaderRoutes compile).1 (List.mem_of_find?_eq_some hfind)
    have hdeclares := List.find?_some hfind
    rw [Router.suits_iff compile honly] at hdeclares
    exact iff_of_true (hcluster r hr honly) (Or.inl ⟨r, hr, honly, hdeclares⟩)
  | none =>
    refine ⟨Or.inr, fun h => h.resolve_left ?_⟩
    rintro ⟨r, hr, honly, hd⟩
    rw [← Router.suits_iff compile honly] at hd
    exact List.find?_eq_none.1 hfind _ ((mem_publishedHeaderRoutes compile).2 ⟨r, hr, honly, rfl⟩)
      hd

/-! ## What the search sees -/

/-- The search comes to the node of the route's key for method `m`: the method is the
request's or `*`, the key covers the request, and the path does not stop at a parameter
followed by `**`. -/
def Router.Reached (r : Router) (m : String) (req : Request) : Prop :=
  (m = req.method ∨ m = "*") ∧ IsReal (m :: r.trieSegs) ∧
    covers ((m :: r.trieSegs).map edge) (req.method :: pathSegments req.path) = true ∧
    ¬ stopsAtParam ((m :: r.trieSegs).map edge) (req.method :: pathSegments req.path)

/-- The route matches the request and the search sees it. -/
def Router.Seen (r : Router) (req : Request) : Prop :=
  r.headersMatch compile req = true ∧
    if r.isHeaderOnly then methodAllowed r.routerMatch.methods req.method = true
    else ∃ m ∈ r.trieMethods, m ≠ "**" ∧ r.Reached m req

/-- The search comes to the node of one route and takes the candidate of another, whose
method text holds a slash, or the node is that of a method text `**`. -/
def Misled (routes : List Router) (req : Request) : Prop :=
  ∃ r ∈ routes, r.isHeaderOnly = false ∧ ∃ m ∈ r.trieMethods, r.Reached m req ∧
    ∃ r' ∈ routes, r'.isHeaderOnly = false ∧ ∃ m' ∈ r'.trieMethods,
      trieRouteIdentity (r'.trieKey m') = trieRouteIdentity (r.trieKey m) ∧
      r'.headersMatch compile req = true ∧ ('/' ∈ m'.toList ∨ m = "**")

theorem isWord_of_asked {m : String} {req : Request} (h : m = req.method ∨ m = "*") : IsWord m := by
  rcases h with rfl | rfl
  · exact req.isWord
  · exact isWord_star

theorem Router.split_published (r : Router) {m : String} (hm : IsWord m) :
    split (r.published compile m).key = m :: r.trieSegs :=
  Entry.split_of_isWord (e := r.published compile m) hm

/-- A node is visited with data exactly when the key of one of its routes is reached. -/
theorem Router.reached_iff (r : Router) {m : String} {req : Request}
    (hm : m = req.method ∨ m = "*") : r.Reached m req ↔ (r.published compile m).IsReal ∧
      (r.published compile m).addr ∈ traversal (req.method :: pathSegments req.path) := by
  rw [Router.Reached, Entry.IsReal, Entry.addr, r.split_published compile (isWord_of_asked hm)]
  simp only [hm, true_and]
  refine and_congr_right fun hreal => ?_
  rw [addr_of_isReal hreal, mem_traversal (by simp)]

/-- Being reached does not depend on parameter names. -/
theorem Router.Reached.congr {r r' : Router} {m : String} {req : Request} (h : r.Reached m req)
    (hsegs : r'.trieSegs.map edge = r.trieSegs.map edge) : r'.Reached m req := by
  rw [Router.Reached, isReal_iff, List.map_cons] at h ⊢
  rw [hsegs]
  exact h

/-- The path patterns of the routes use `**` only as a last segment. -/
def WildcardsLast (routes : List Router) : Prop :=
  ∀ r ∈ routes, r.isHeaderOnly = false → IsReal r.pattern

variable {compile}

/-- The key of a route is its pattern, or the pattern without its wildcard. -/
theorem Router.trieSegs_cases (r : Router) : r.trieSegs = r.pattern ∨
    (r.routerMatch.pre ≠ "" ∧ r.trieSegs = pathSegments r.routerMatch.pre) := by
  rw [Router.trieSegs, Router.pattern]
  by_cases hpre : r.routerMatch.pre ≠ ""
  · rw [if_pos hpre, if_pos hpre]
    exact (pathSegments_prefixPattern hpre).imp_right fun h => ⟨hpre, h⟩
  · rw [if_neg hpre, if_neg hpre]
    exact Or.inl rfl

/-- The text of a prefix holds no `**`. -/
theorem Router.pre_ne_all {r : Router} (h : IsReal r.pattern) (hpre : r.routerMatch.pre ≠ "") :
    ∀ k ∈ pathSegments r.routerMatch.pre, k ≠ "**" := by
  rw [Router.pattern, if_pos hpre, IsReal, List.dropLast_concat] at h
  exact h

theorem isReal_trieSegs {r : Router} (h : IsReal r.pattern) : IsReal r.trieSegs := by
  rcases r.trieSegs_cases with heq | ⟨hpre, heq⟩
  · rwa [heq]
  · rw [heq]
    exact fun k hk => Router.pre_ne_all h hpre k (List.mem_of_mem_dropLast hk)

/-- The key of a route covers no more than its pattern. -/
theorem covers_pattern {r : Router} (h : IsReal r.pattern) {parts : List String}
    (hc : covers (r.trieSegs.map edge) parts = true) :
    covers (r.pattern.map edge) parts = true := by
  rcases r.trieSegs_cases with heq | ⟨hpre, heq⟩
  · rwa [heq] at hc
  · rw [heq] at hc
    rw [Router.pattern, if_pos hpre, List.map_append]
    refine covers_append_all ?_ hc
    intro hall
    obtain ⟨k, hk, hedge⟩ := List.mem_map.1 hall
    exact Router.pre_ne_all h hpre k hk (edge_eq_all.1 hedge)

/-- What the search sees is declared. -/
theorem Router.Seen.declares {r : Router} {req : Request}
    (hreal : r.isHeaderOnly = false → IsReal r.pattern) (h : r.Seen compile req) :
    r.declares compile req = true := by
  obtain ⟨hheaders, h⟩ := h
  rw [Router.declares, hheaders, Bool.true_and]
  cases honly : r.isHeaderOnly with
  | true => simpa [honly] using h
  | false =>
    simp only [honly, Bool.false_eq_true, if_false] at h ⊢
    obtain ⟨m, hm, hne, hasked, -, hcovers, -⟩ := h
    have hseg : covers (r.trieSegs.map edge) (pathSegments req.path) = true := by
      rw [List.map_cons, covers_cons_right] at hcovers
      rcases hcovers with hall | ⟨b, hb, hcovers⟩
      · exact absurd (edge_eq_all.1 (List.cons.inj hall).1) hne
      · obtain rfl : r.trieSegs.map edge = b :=
          hb.elim (fun hb => (List.cons.inj hb).2) fun hb => (List.cons.inj hb).2
        exact hcovers
    rw [Bool.and_eq_true, List.any_eq_true]
    exact ⟨⟨m, hm, by simpa using hasked⟩, covers_pattern (hreal honly) hseg⟩

/-- With `**` only last, only the method text `**` leaves holes, and they are filled if
anything of that method can be found at all. -/
theorem not_hole_of_serves {routes : List Router} (hlast : WildcardsLast routes) {req : Request}
    {m : String} (hm : IsWord m) {a b : List Edge}
    (hb : Serves (publishedEntries compile routes) m req b) :
    ¬ Hole (publishedEntries compile routes) m a := by
  rintro ⟨⟨e, he, hem, rfl⟩, hnone⟩
  obtain ⟨r, hr, honly, m', -, rfl⟩ := (mem_publishedEntries compile).1 he
  obtain rfl : m' = m := hem
  obtain ⟨e₂, he₂, hm₂, hreal₂, -⟩ := hb
  have hsplit := r.split_published compile hm
  have hsplit₂ : split e₂.key = m' :: e₂.segs :=
    (Entry.split_of_isWord (hm₂ ▸ hm)).trans (congrArg (· :: e₂.segs) hm₂)
  by_cases hall : edge m' = .all
  · -- every node of this trie is the one at `**`
    refine hnone ⟨e₂, he₂, hm₂, hreal₂, ?_⟩
    rw [Entry.addr, Entry.addr, hsplit, hsplit₂, addr_cons_of_all hall, addr_cons_of_all hall]
  · refine hnone ⟨_, he, rfl, ?_, rfl⟩
    have hsegs := isReal_trieSegs (hlast r hr honly)
    rw [Entry.IsReal, hsplit]
    cases hs : r.trieSegs with
    | nil => exact isReal_singleton m'
    | cons k ks => exact isReal_cons_cons.2 ⟨hall, hs ▸ hsegs⟩

/-- With `**` only last, the lookups find a request exactly when the search comes to a node
with a suitable candidate: nothing else stops it. -/
theorem finds_iff {routes : List Router} (hlast : WildcardsLast routes) (req : Request) :
    Finds (publishedEntries compile routes) req ↔
      ∃ r ∈ routes, r.isHeaderOnly = false ∧ ∃ m ∈ r.trieMethods, r.Reached m req ∧
        ∃ r' ∈ routes, r'.isHeaderOnly = false ∧ ∃ m' ∈ r'.trieMethods,
          trieRouteIdentity (r'.trieKey m') = trieRouteIdentity (r.trieKey m) ∧
          r'.headersMatch compile req = true := by
  set es := publishedEntries compile routes with hes
  have hexists : ∀ m, IsWord m → (Search.FindsBefore (Serves es m req) (Hole es m)
      (traversal (req.method :: pathSegments req.path)) ↔
        ∃ a ∈ traversal (req.method :: pathSegments req.path), Serves es m req a) :=
    fun m hm => Search.findsBefore_iff_exists fun a _ ⟨b, _, hb⟩ => not_hole_of_serves hlast hm hb
  constructor
  · rintro ⟨m, hasked, hfinds⟩
    obtain ⟨a, ha, e, he, hem, hreal, rfl, e', he', hid, hmatch⟩ :=
      (hexists m (isWord_of_asked hasked)).1 hfinds
    obtain ⟨r, hr, honly, m₁, hm₁, rfl⟩ := (mem_publishedEntries compile).1 he
    obtain ⟨r', hr', honly', m', hm', rfl⟩ := (mem_publishedEntries compile).1 he'
    obtain rfl : m₁ = m := hem
    exact ⟨r, hr, honly, m₁, hm₁, (r.reached_iff compile hasked).2 ⟨hreal, ha⟩, r', hr', honly', m',
      hm', hid, (r'.matchHeaders_published compile m' req) ▸ hmatch⟩
  · rintro ⟨r, hr, honly, m, hm, hreached, r', hr', honly', m', hm', hid, hmatch⟩
    have hasked := hreached.1
    obtain ⟨hreal, ha⟩ := (r.reached_iff compile hasked).1 hreached
    refine ⟨m, hasked, (hexists m (isWord_of_asked hasked)).2 ⟨_, ha, ?_⟩⟩
    exact ⟨_, (mem_publishedEntries compile).2 ⟨r, hr, honly, m, hm, rfl⟩, rfl, hreal, rfl, _,
      (mem_publishedEntries compile).2 ⟨r', hr', honly', m', hm', rfl⟩, hid,
      (r'.matchHeaders_published compile m' req).symm ▸ hmatch⟩

/-- With `**` only last, a request is answered exactly when the search sees a match or is
misled to one. -/
theorem answered_iff_seen {routes : List Router} (hlast : WildcardsLast routes) (req : Request)
    (hcluster : ∀ r ∈ routes, r.isHeaderOnly = true → r.route.cluster ≠ "") :
    Answered compile routes req ↔ (∃ r ∈ routes, r.Seen compile req) ∨
      Misled compile routes req := by
  rw [answered_iff compile req hcluster, finds_iff hlast]
  constructor
  · rintro (⟨r, hr, honly, hd⟩ | ⟨r, hr, honly, m, hm, hreached, r', hr', honly', m', hm', hid,
      hmatch⟩)
    · rw [Router.declares, if_pos honly, Bool.and_eq_true] at hd
      exact Or.inl ⟨r, hr, hd.1, by rw [if_pos honly]; exact hd.2⟩
    · by_cases hmis : '/' ∈ m'.toList ∨ m = "**"
      · exact Or.inr ⟨r, hr, honly, m, hm, hreached, r', hr', honly', m', hm', hid, hmatch, hmis⟩
      · -- plain methods: the lender has the same method and the same path
        rw [not_or] at hmis
        have hword := isWord_of_asked hreached.1
        have hid' : (r'.published compile m').identity = (r.published compile m).identity := hid
        obtain ⟨hmethod, hsegs⟩ := (Entry.identity_eq_iff hmis.1 hword.2).1 hid'
        obtain rfl : m' = m := hmethod
        refine Or.inl ⟨r', hr', hmatch, ?_⟩
        rw [honly', if_neg (by simp)]
        exact ⟨m', hm', hmis.2, hreached.congr hsegs⟩
  · rintro (⟨r, hr, hs⟩ | ⟨r, hr, honly, m, hm, hreached, r', hr', honly', m', hm', hid, hmatch, -⟩)
    · obtain ⟨hheaders, hs⟩ := id hs
      cases honly : r.isHeaderOnly with
      | true =>
        refine Or.inl ⟨r, hr, honly, ?_⟩
        rw [if_pos honly] at hs
        rw [Router.declares, if_pos honly, hheaders, hs, Bool.and_self]
      | false =>
        simp only [honly, Bool.false_eq_true, if_false] at hs
        obtain ⟨m, hm, -, hreached⟩ := hs
        exact Or.inr ⟨r, hr, honly, m, hm, hreached, r, hr, honly, m, hm, rfl, hheaders⟩
    · exact Or.inr ⟨r, hr, honly, m, hm, hreached, r', hr', honly', m', hm', hid, hmatch⟩

/-- **Routing is complete for a request exactly when** a declared match is among those the
search sees or is misled to, and it is misled only if some match is declared. -/
theorem route_complete_iff {routes : List Router} (hlast : WildcardsLast routes) (req : Request)
    (hcluster : ∀ r ∈ routes, r.isHeaderOnly = true → r.route.cluster ≠ "") :
    (Answered compile routes req ↔ ∃ r ∈ routes, r.declares compile req = true) ↔
      ((∃ r ∈ routes, r.declares compile req = true) →
        (∃ r ∈ routes, r.Seen compile req) ∨ Misled compile routes req) ∧
      (Misled compile routes req → ∃ r ∈ routes, r.declares compile req = true) := by
  have hseen : (∃ r ∈ routes, r.Seen compile req) →
      ∃ r ∈ routes, r.declares compile req = true := by
    rintro ⟨r, hr, hs⟩
    exact ⟨r, hr, hs.declares (hlast r hr)⟩
  rw [answered_iff_seen hlast req hcluster]
  constructor
  · intro h
    exact ⟨h.2, fun hm => h.1 (Or.inr hm)⟩
  · rintro ⟨h₁, h₂⟩
    exact ⟨fun h => h.elim hseen h₂, h₁⟩

/-- A parameter followed by `**`. -/
def ordersRoute : Router :=
  { routerMatch := { path := "/users/:id/**", methods := ["GET"] },
    route := { cluster := "users" } }

theorem isToken_get : IsToken "GET" := by decide

/-- A `GET` request without headers. -/
def getRequest (path : String) : Request := ⟨"GET", path, fun _ => "", isToken_get⟩

/-- Below the parameter the route is seen, so routing is complete there. -/
theorem route_complete_ordersRoute :
    Answered (fun _ => none) [ordersRoute] (getRequest "/users/5/orders") ↔
      ∃ r ∈ [ordersRoute], r.declares (fun _ => none) (getRequest "/users/5/orders") = true := by
  have hdeclared : ∃ r ∈ [ordersRoute],
      r.declares (fun _ => none) (getRequest "/users/5/orders") = true :=
    ⟨ordersRoute, by simp, by decide +kernel⟩
  refine (route_complete_iff ?_ _ ?_).2 ⟨fun _ => Or.inl ⟨ordersRoute, by simp, ?_⟩,
    fun _ => hdeclared⟩
  · intro r hr _
    obtain rfl := List.mem_singleton.1 hr
    decide +kernel
  · intro r hr honly
    obtain rfl := List.mem_singleton.1 hr
    exact absurd honly (by decide)
  · refine ⟨by decide, ?_⟩
    rw [if_neg (by decide)]
    exact ⟨"GET", by decide, by decide, Or.inl rfl, by decide +kernel, by decide +kernel,
      by decide +kernel⟩

/-- At the parameter itself the route declares a match, and the request is not answered. -/
theorem not_route_complete_ordersRoute :
    ¬ (Answered (fun _ => none) [ordersRoute] (getRequest "/users/5") ↔
      ∃ r ∈ [ordersRoute], r.declares (fun _ => none) (getRequest "/users/5") = true) := by
  intro h
  have hnot : ¬ Answered (fun _ => none) [ordersRoute] (getRequest "/users/5") := by
    unfold Answered
    decide +kernel
  exact hnot (h.2 ⟨ordersRoute, by simp, by decide +kernel⟩)

end Pixiu.Routing
