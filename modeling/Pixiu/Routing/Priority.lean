import Pixiu.Routing.Order
import Pixiu.Routing.Completeness

/-!
# Which route answers

The priority a reader of the routing core expects (`Prioritised`): the first header-only route that
declares the request, else the winner of the method's own trie, else the winner of the `*` trie.  A
winner (`Winner`) has the lowest rank among the routes of the trie that match path and headers, and
is the earliest among those with the same pattern.

The search keeps to it except where it strays:

* a candidate list is shared with a method text that holds a slash (`Strays.lent`,
  `Strays.lentAny`);
* a `**` inside a path leaves a node without data, and the search that comes to it first leaves the
  own trie although a route there matches (`Strays.hidden`).

`prioritised_unless_strays` says that these are the only exceptions, and `not_strays_of_plain` that
there are none without such method texts and paths.
-/

namespace Pixiu.Routing

open Pixiu

/-! ## The priority -/

/-- The segments a request is searched by. -/
def Request.segments (req : Request) : List String := req.method :: pathSegments req.path

/-- The pattern of a route in the trie of a method. -/
def Router.patternIn (r : Router) (m : String) : List Edge := (m :: r.trieSegs).map edge

section

variable (compile : String → Option (String → Bool))

/-- The route is in the trie of the method and matches path and headers. -/
structure Router.Competes (r : Router) (m : String) (req : Request) : Prop where
  inTrie : r.isHeaderOnly = false
  method : m ∈ r.trieMethods
  headers : r.headersMatch compile req = true
  path : patternMatches (r.patternIn m) req.segments = true

/-- The action is that of the winner of a trie: of all competing routes the one with the lowest
rank, and the earliest among those with its pattern. -/
def Winner (routes : List Router) (m : String) (req : Request) (act : RouteAction) : Prop :=
  ∃ before r after, routes = before ++ r :: after ∧ r.Competes compile m req ∧ r.route = act ∧
    (∀ r' ∈ routes, r'.Competes compile m req → r'.patternIn m ≠ r.patternIn m →
      rank (r.patternIn m) req.segments < rank (r'.patternIn m) req.segments) ∧
    ∀ r' ∈ before, r'.Competes compile m req → r'.patternIn m ≠ r.patternIn m

/-- The action is the one that the priority gives. -/
def Prioritised (routes : List Router) (req : Request) (act : RouteAction) : Prop :=
  match routes.find? fun r => r.isHeaderOnly && r.declares compile req with
  | some r => act = r.route
  | none =>
      Winner compile routes req.method req act ∨
        (¬ ∃ r ∈ routes, r.Competes compile req.method req) ∧ Winner compile routes "*" req act

end

/-! ## Where the search stops -/

section Search

variable {s : RouteSnapshot} {hs : List HeaderRoute} {es : List Entry} {m : String} {req : Request}

/-- The search of a trie stops at this address first. -/
structure StopsFirst (es : List Entry) (m : String) (req : Request) (a : List Edge) : Prop where
  matching : patternMatches a req.segments = true
  stops : Serves es m req a ∨ Hole es m a
  first : ∀ b, patternMatches b req.segments = true → Serves es m req b ∨ Hole es m b → b ≠ a →
    rank a req.segments < rank b req.segments

theorem stopsFirst_iff {a : List Edge} :
    firstStop es m req (traversal req.segments) = some a ↔ StopsFirst es m req a := by
  classical
  have hparts : req.segments ≠ [] := List.cons_ne_nil _ _
  have hof : ∀ {b}, firstStop es m req (traversal req.segments) = some b →
      StopsFirst es m req b := by
    intro b hb
    have hstops := List.find?_some hb
    refine ⟨(mem_traversal_iff hparts).1 (List.mem_of_find?_eq_some hb), of_decide_eq_true hstops,
      ?_⟩
    intro c hc hstopc hne
    exact rank_lt_of_find? hb ((mem_traversal_iff hparts).2 hc) (decide_eq_true hstopc) hne
  refine ⟨hof, fun ha => ?_⟩
  have hsome : (firstStop es m req (traversal req.segments)).isSome :=
    List.find?_isSome.2 ⟨a, (mem_traversal_iff hparts).2 ha.matching, decide_eq_true ha.stops⟩
  obtain ⟨b, hb⟩ := Option.isSome_iff_exists.1 hsome
  have hfirst := hof hb
  -- two addresses cannot both come before the other
  by_cases hne : b = a
  · exact hne ▸ hb
  · exact absurd (ha.first b hfirst.matching hfirst.stops hne)
      (lt_asymm (hfirst.first a ha.matching ha.stops (Ne.symm hne)))

/-- If the search can stop at all, it stops somewhere first. -/
theorem exists_stopsFirst {a : List Edge} (hmatch : patternMatches a req.segments = true)
    (hstop : Serves es m req a ∨ Hole es m a) : ∃ b, StopsFirst es m req b := by
  classical
  have hsome : (firstStop es m req (traversal req.segments)).isSome :=
    List.find?_isSome.2 ⟨a, (mem_traversal_iff (List.cons_ne_nil _ _)).2 hmatch,
      decide_eq_true hstop⟩
  obtain ⟨b, hb⟩ := Option.isSome_iff_exists.1 hsome
  exact ⟨b, stopsFirst_iff.1 hb⟩

/-- A trie offers an entry: the search stops at the node of a route first, and the entry is the
first there whose headers match. -/
def Offers (es : List Entry) (m : String) (req : Request) (e : Entry) : Prop :=
  ∃ owner ∈ es, owner.method = m ∧ owner.IsReal ∧ StopsFirst es m req owner.addr ∧
    firstCandidate es owner.identity req = some e

theorem exists_offers_of_serves {a : List Edge} (hfirst : StopsFirst es m req a)
    (hserves : Serves es m req a) : ∃ e, Offers es m req e := by
  obtain ⟨owner, howner, hmethod, hreal, rfl, e', he', hid, hmatch⟩ := hserves
  have hsome : (firstCandidate es owner.identity req).isSome :=
    List.find?_isSome.2 ⟨e', he', decide_eq_true ⟨hid, hmatch⟩⟩
  obtain ⟨e, he⟩ := Option.isSome_iff_exists.1 hsome
  exact ⟨e, owner, howner, hmethod, hreal, hfirst, he⟩

theorem not_offers_of_hole {a : List Edge} (hfirst : StopsFirst es m req a) (hhole : Hole es m a) :
    ¬ ∃ e, Offers es m req e := by
  rintro ⟨e, owner, howner, hmethod, hreal, hstop, -⟩
  have haddr := Option.some.inj ((stopsFirst_iff.2 hstop).symm.trans (stopsFirst_iff.2 hfirst))
  exact hhole.2 ⟨owner, howner, hmethod, hreal, haddr⟩

/-- The lookup in one trie gives the action of the entry it offers. -/
theorem Outcome.eq_some_iff {r : Option RouteAction} (hm : IsWord m)
    (h : Outcome es m req (traversal req.segments) r) (act : RouteAction) :
    r = some act ↔ ∃ e, Offers es m req e ∧ e.candidate.action = act := by
  cases h with
  | miss hstop =>
    refine iff_of_false (by simp) ?_
    rintro ⟨e, ⟨owner, -, -, -, hfirst, -⟩, -⟩
    rw [stopsFirst_iff.2 hfirst] at hstop
    cases hstop
  | hole a hstop hhole =>
    refine iff_of_false (by simp) ?_
    rintro ⟨e, he, -⟩
    exact not_offers_of_hole (stopsFirst_iff.1 hstop) hhole ⟨e, he⟩
  | answer owner e hstop howner hmethod hreal hfirst =>
    rw [Option.some_inj]
    constructor
    · rintro rfl
      exact ⟨e, ⟨owner, howner, hmethod, hreal, stopsFirst_iff.1 hstop, hfirst⟩, rfl⟩
    · rintro ⟨e', ⟨owner', howner', hmethod', hreal', hstop', hfirst'⟩, rfl⟩
      have haddr := Option.some.inj (hstop.symm.trans (stopsFirst_iff.2 hstop'))
      have hid : owner'.identity = owner.identity :=
        Entry.identity_eq_of_addr (hmethod ▸ hm) (hmethod'.trans hmethod.symm) hreal hreal'
          haddr.symm
      rw [hid, hfirst] at hfirst'
      rw [Option.some.inj hfirst']

/-- **What a request gets without a header-only route**: what its own trie offers, else what the `*`
trie offers. -/
theorem Holds.lookup_eq_ok_iff (h : Holds s hs es) (act : RouteAction) :
    s.lookup req.method (getTrieKey req.method req.path) (some req) = .ok act ↔
      (∃ e, Offers es req.method req e ∧ e.candidate.action = act) ∨
        (¬ ∃ e, Offers es req.method req e) ∧ ∃ e, Offers es "*" req e ∧
        e.candidate.action = act := by
  obtain ⟨r, hr, hout⟩ := h.matchInTrie_outcome req.isWord (getTrieKey req.method req.path) req
  obtain ⟨r', hr', hout'⟩ := h.matchInTrie_outcome isWord_star (getTrieKey req.method req.path) req
  rw [req.parts] at hout hout'
  have hown := hout.eq_some_iff req.isWord
  have hany := hout'.eq_some_iff isWord_star
  rw [RouteSnapshot.lookup, hr]
  cases r with
  | some act' =>
    have hoffers : ∃ e, Offers es req.method req e := by
      obtain ⟨e, he, -⟩ := (hown act').1 rfl
      exact ⟨e, he⟩
    simp only [hoffers, not_true, false_and, or_false, ← hown, Option.some.injEq, Except.ok.injEq]
  | none =>
    have hnone : ¬ ∃ e, Offers es req.method req e := by
      rintro ⟨e, he⟩
      cases (hown _).2 ⟨e, he, rfl⟩
    simp only [← hown, ← hany, hnone, not_false_eq_true, true_and, reduceCtorEq, false_or]
    by_cases hstar : req.method = "*"
    · have hnone' : r' = none := by
        by_contra hr'
        obtain ⟨act', rfl⟩ := Option.ne_none_iff_exists'.1 hr'
        obtain ⟨e, he, -⟩ := (hany act').1 rfl
        exact hnone ⟨e, hstar.symm ▸ he⟩
      simp [hstar, hnone']
    · rw [hr']
      cases r' <;> simp [hstar]

end Search

/-! ## Winners -/

section Published

variable {compile : String → Option (String → Bool)} {routes : List Router} {m : String}
  {req : Request}

theorem publishedEntries_eq (compile : String → Option (String → Bool)) (routes : List Router) :
    publishedEntries compile routes = routes.flatMap fun r =>
      if r.isHeaderOnly then [] else r.trieMethods.map (r.published compile) := by
  rw [publishedEntries, entries, buildRouteConfiguration, initRegex, List.flatMap_map]
  congr 1
  funext r
  rw [Router.entries, r.isHeaderOnly_initRegex compile]
  congr 1

/-- The node of a competing route serves the request. -/
theorem Router.Competes.serves {r : Router} (hr : r ∈ routes) (hm : IsWord m)
    (h : r.Competes compile m req) :
    Serves (publishedEntries compile routes) m req (r.patternIn m) := by
  have hsplit := r.split_published compile hm
  have hreal : (r.published compile m).IsReal := by
    rw [Entry.IsReal, hsplit]
    exact isReal_iff.2 (all_notMem_dropLast_of_patternMatches h.path)
  have haddr : (r.published compile m).addr = r.patternIn m := by
    rw [Entry.addr, addr_of_isReal hreal, hsplit, Router.patternIn]
  have hmem : r.published compile m ∈ publishedEntries compile routes :=
    (mem_publishedEntries compile).2 ⟨r, hr, h.inTrie, m, h.method, rfl⟩
  exact ⟨_, hmem, rfl, hreal, haddr, _, hmem, rfl, (r.matchHeaders_published compile m req).trans
    h.headers⟩

/-- **What a trie offers wins**, unless it is lent by a method text with a slash. -/
theorem Offers.winner {e : Entry} (hm : IsWord m)
    (h : Offers (publishedEntries compile routes) m req e)
    (hslash : '/' ∉ e.method.toList) : Winner compile routes m req e.candidate.action := by
  obtain ⟨owner, howner, rfl, hreal, hstop, hfirst⟩ := h
  -- the route the entry comes from, and those before it
  have hfind := hfirst
  rw [firstCandidate, publishedEntries_eq, List.find?_flatMap, List.findSome?_eq_some_iff] at hfind
  obtain ⟨before, r, after, hroutes, hr, hbefore⟩ := hfind
  have hmatch := List.find?_some hr
  obtain ⟨hid, hheaders⟩ := of_decide_eq_true hmatch
  obtain ⟨honly, m', hm', rfl⟩ : r.isHeaderOnly = false ∧
      ∃ m' ∈ r.trieMethods, r.published compile m' = e := by
    have hmem := List.mem_of_find?_eq_some hr
    cases honly : r.isHeaderOnly with
    | true => simp [honly] at hmem
    | false => simpa [honly] using hmem
  obtain ⟨hmethod, hsegs⟩ := (Entry.identity_eq_iff hslash hm.2).1 hid
  obtain rfl : m' = owner.method := hmethod
  have hpattern : owner.addr = r.patternIn owner.method := by
    rw [Entry.addr, addr_of_isReal hreal, Entry.split_of_isWord hm, Router.patternIn, List.map_cons,
      List.map_cons, ← hsegs]
    rfl
  rw [hpattern] at hstop
  refine ⟨before, r, after, hroutes, ⟨honly, hm', ?_, hstop.matching⟩, rfl, ?_, ?_⟩
  · rw [← r.matchHeaders_published compile owner.method]
    exact hheaders
  · intro r' hr' hcompetes hne
    exact hstop.first _ hcompetes.path (Or.inl (hcompetes.serves hr' hm)) hne
  · intro r' hr' hcompetes heq
    -- an earlier route with this pattern would have been the first candidate
    have hnone := hbefore r' hr'
    rw [hcompetes.inTrie, if_neg (by simp), List.find?_eq_none] at hnone
    refine hnone _ (List.mem_map_of_mem hcompetes.method) (decide_eq_true ⟨?_, ?_⟩)
    · refine (Entry.identity_eq_iff (e := r'.published compile owner.method) hm.2 hm.2).2 ⟨rfl, ?_⟩
      exact (List.cons.inj heq).2.trans hsegs
    · exact (r'.matchHeaders_published compile owner.method req).trans hcompetes.headers

/-! ## Where the search strays -/

/-- The search comes to an action other than by priority. -/
inductive Strays (compile : String → Option (String → Bool)) (routes : List Router)
    (req : Request) :
    RouteAction → Prop where
  /-- The own trie offers a candidate that a method text with a slash has put into the list. -/
  | lent (e : Entry) (hoffers : Offers (publishedEntries compile routes) req.method req e)
      (hslash : '/' ∈ e.method.toList) : Strays compile routes req e.candidate.action
  /-- The own trie offers nothing, and the `*` trie such a candidate. -/
  | lentAny (e : Entry) (hown : ¬ ∃ e, Offers (publishedEntries compile routes) req.method req e)
      (hoffers : Offers (publishedEntries compile routes) "*" req e)
      (hslash : '/' ∈ e.method.toList) : Strays compile routes req e.candidate.action
  /-- A route of the own trie matches, but the search comes to a hole first. -/
  | hidden (r : Router) (a : List Edge) (e : Entry) (hr : r ∈ routes)
      (hcompetes : r.Competes compile req.method req)
      (hstop : StopsFirst (publishedEntries compile routes) req.method req a)
      (hhole : Hole (publishedEntries compile routes) req.method a)
      (hoffers : Offers (publishedEntries compile routes) "*" req e) :
      Strays compile routes req e.candidate.action

/-- The gateway's answer to a request, for these routes. -/
def answer (compile : String → Option (String → Bool)) (routes : List Router) (req : Request) :
    Except String RouteAction :=
  route (some (toSnapshot compile (buildRouteConfiguration compile routes).routes)) req

/-- The first suitable header-only route is the first that declares the request. -/
theorem find?_publishedHeaderRoutes (compile : String → Option (String → Bool))
    (routes : List Router)
    (req : Request) :
    (publishedHeaderRoutes compile routes).find? (HeaderRoute.suits req) =
      (routes.find? fun r => r.isHeaderOnly && r.declares compile req).map fun r =>
        ⟨r.routerMatch.methods, compileHeaders compile
          (r.routerMatch.headers.map (HeaderMatcher.initRegex compile)), r.route⟩ := by
  rw [publishedHeaderRoutes, headerRoutes, buildRouteConfiguration, initRegex, List.find?_map,
    List.find?_filter, List.find?_map, Option.map_map]
  have hpred : ∀ r ∈ routes, (decide ((r.initRegex compile).isHeaderOnly = true ∧
      HeaderRoute.suits req ⟨(r.initRegex compile).routerMatch.methods,
        compileHeaders compile (r.initRegex compile).routerMatch.headers,
          (r.initRegex compile).route⟩ = true)) =
      (r.isHeaderOnly && r.declares compile req) := by
    intro r _
    rw [r.isHeaderOnly_initRegex compile]
    cases honly : r.isHeaderOnly with
    | false => simp
    | true =>
      rw [← Router.suits_iff compile honly]
      simp [Router.initRegex]
  refine congrArg₂ _ rfl ?_
  rw [← List.find?_congr hpred]
  rfl

/-- **The answer follows the search**: a header-only route that declares the request decides, and
without one the two tries do. -/
theorem answer_eq_ok_iff (act : RouteAction) :
    answer compile routes req = .ok act ↔
      match routes.find? fun r => r.isHeaderOnly && r.declares compile req with
      | some r => r.route.cluster ≠ "" ∧ r.route = act
      | none =>
        (∃ e, Offers (publishedEntries compile routes) req.method req e ∧ e.candidate.action =
          act) ∨
          (¬ ∃ e, Offers (publishedEntries compile routes) req.method req e) ∧
            ∃ e, Offers (publishedEntries compile routes) "*" req e ∧ e.candidate.action = act := by
  have hholds : Holds (toSnapshot compile (buildRouteConfiguration compile routes).routes)
      (publishedHeaderRoutes compile routes) (publishedEntries compile routes) :=
        holds_toSnapshot compile _
  rw [answer, route, hholds.headerOnly,
    show (fun hr : HeaderRoute => methodAllowed hr.methods req.method && matchHeaders hr.headers
        req) =
      HeaderRoute.suits req from rfl, find?_publishedHeaderRoutes]
  cases routes.find? fun r => r.isHeaderOnly && r.declares compile req with
  | some r => by_cases hc : r.route.cluster = "" <;> simp [hc]
  | none => exact hholds.lookup_eq_ok_iff act

/-- A competing route that is not offered is hidden by a hole. -/
theorem Router.Competes.hole {r : Router} (hr : r ∈ routes) (hm : IsWord m)
    (h : r.Competes compile m req)
    (hnone : ¬ ∃ e, Offers (publishedEntries compile routes) m req e) :
    ∃ a, StopsFirst (publishedEntries compile routes) m req a ∧
      Hole (publishedEntries compile routes) m a := by
  obtain ⟨a, ha⟩ := exists_stopsFirst h.path (Or.inl (h.serves hr hm))
  rcases ha.stops with hserves | hhole
  · exact absurd (exists_offers_of_serves ha hserves) hnone
  · exact ⟨a, ha, hhole⟩

/-- Where the search strays to, the answer is. -/
theorem Strays.answer_eq
    (hfree : (routes.find? fun r => r.isHeaderOnly && r.declares compile req) = none)
    {act : RouteAction} (h : Strays compile routes req act) :
    answer compile routes req = .ok act := by
  rw [answer_eq_ok_iff, hfree]
  cases h with
  | lent e hoffers hslash => exact Or.inl ⟨e, hoffers, rfl⟩
  | lentAny e hown hoffers hslash => exact Or.inr ⟨hown, e, hoffers, rfl⟩
  | hidden r a e hr hcompetes hstop hhole hoffers =>
    exact Or.inr ⟨not_offers_of_hole hstop hhole, e, hoffers, rfl⟩

/-- Without a slash in a method text and without a `**` inside a path the search does not stray. -/
theorem not_strays_of_plain
    (h : ∀ e ∈ publishedEntries compile routes, '/' ∉ e.method.toList ∧ e.IsReal)
    (act : RouteAction) : ¬Strays compile routes req act := by
  have hmem : ∀ {m e}, Offers (publishedEntries compile routes) m req e →
      e ∈ publishedEntries compile routes := by
    rintro m e ⟨owner, -, -, -, -, hfirst⟩
    exact List.mem_of_find?_eq_some hfirst
  intro hstrays
  cases hstrays with
  | lent e hoffers hslash => exact (h e (hmem hoffers)).1 hslash
  | lentAny e hown hoffers hslash => exact (h e (hmem hoffers)).1 hslash
  | hidden r a e hr hcompetes hstop hhole hoffers =>
    obtain ⟨⟨e', he', hmethod, haddr⟩, hunreal⟩ := hhole
    exact hunreal ⟨e', he', hmethod, (h e' he').2, haddr⟩

/-- **The answers follow the priority if** a header-only route decides or the search does not stray;
and where it strays, its answer is the action that it strays to. -/
theorem prioritised_unless_strays (compile : String → Option (String → Bool))
    (routes : List Router) (req : Request) :
    ((∃ r ∈ routes, r.isHeaderOnly = true ∧ r.declares compile req = true) ∨
        (∀ act, ¬Strays compile routes req act) →
      ∀ act, answer compile routes req = .ok act → Prioritised compile routes req act) ∧
    ((∀ r ∈ routes, r.isHeaderOnly = true → r.declares compile req = false) →
      ∀ act, Strays compile routes req act → answer compile routes req = .ok act) := by
  cases hfind : routes.find? fun r => r.isHeaderOnly && r.declares compile req with
  | some r =>
    have hdeclares := List.find?_some hfind
    rw [Bool.and_eq_true] at hdeclares
    refine ⟨fun _ act hact => ?_, fun hnone => ?_⟩
    · rw [answer_eq_ok_iff, hfind] at hact
      rw [Prioritised, hfind]
      exact hact.2.symm
    · rw [hnone r (List.mem_of_find?_eq_some hfind) hdeclares.1] at hdeclares
      exact absurd hdeclares.2 Bool.false_ne_true
  | none =>
    have hnone : ¬∃ r ∈ routes, r.isHeaderOnly = true ∧ r.declares compile req = true := by
      rintro ⟨r, hr, hdeclares⟩
      exact List.find?_eq_none.1 hfind r hr (Bool.and_eq_true_iff.2 hdeclares)
    rw [or_iff_right hnone]
    refine ⟨fun h act hact => ?_, fun _ act hstrays => hstrays.answer_eq hfind⟩
    rw [answer_eq_ok_iff, hfind] at hact
    rw [Prioritised, hfind]
    rcases hact with ⟨e, hoffers, rfl⟩ | ⟨hown, e, hoffers, rfl⟩
    · by_cases hslash : '/' ∈ e.method.toList
      · exact absurd (.lent e hoffers hslash) (h _)
      · exact Or.inl (hoffers.winner req.isWord hslash)
    · by_cases hcompetes : ∃ r ∈ routes, r.Competes compile req.method req
      · obtain ⟨r, hr, hcompetes⟩ := hcompetes
        obtain ⟨a, hstop, hhole⟩ := hcompetes.hole hr req.isWord hown
        exact absurd (.hidden r a e hr hcompetes hstop hhole hoffers) (h _)
      · by_cases hslash : '/' ∈ e.method.toList
        · exact absurd (.lentAny e hown hoffers hslash) (h _)
        · exact Or.inr ⟨hcompetes, hoffers.winner isWord_star hslash⟩

/-- A canary for one header, a route with a parameter, and routes for the rest. -/
def plainRoutes : List Router :=
  [{ routerMatch := { path := "/users/:id", methods := ["GET"]
                      headers := [{ name := "x-env", values := ["canary"], regex := false }] }
     route := { cluster := "canary" } },
   { routerMatch := { path := "/users/**", methods := ["GET"] }, route := { cluster := "users" } },
   { routerMatch := { path := "/**", methods := ["GET"] }, route := { cluster := "own" } },
   { routerMatch := { path := "/users/7", methods := ["*"] }, route := { cluster := "any" } }]

/-- Without the header the canary is passed over, and the own trie goes before the `*` trie. -/
theorem prioritised_plainRoutes :
    answer (fun _ => none) plainRoutes (getRequest "/users/7") = .ok { cluster := "users" } ∧
      Prioritised (fun _ => none) plainRoutes (getRequest "/users/7") { cluster := "users" } := by
  have hanswer : answer (fun _ => none) plainRoutes (getRequest "/users/7") =
      .ok { cluster := "users" } := by decide +kernel
  have hplain : ∀ e ∈ publishedEntries (fun _ => none) plainRoutes,
      '/' ∉ e.method.toList ∧ Routing.IsReal (split e.key) := by decide +kernel
  exact ⟨hanswer, (prioritised_unless_strays (fun _ => none) plainRoutes (getRequest "/users/7")).1
    (Or.inr (not_strays_of_plain hplain)) _ hanswer⟩

/-- A `**` inside the first path hides the second route from `/a/c`, and the third answers. -/
def hidingRoutes : List Router :=
  [{ routerMatch := { path := "/a/**/b", methods := ["GET"] }, route := { cluster := "inner" } },
   { routerMatch := { path := "/**", methods := ["GET"] }, route := { cluster := "own" } },
   { routerMatch := { path := "/**", methods := ["*"] }, route := { cluster := "any" } }]

/-- The `*` trie answers although a route of the own trie matches. -/
theorem not_prioritised_hidingRoutes :
    answer (fun _ => none) hidingRoutes (getRequest "/a/c") = .ok { cluster := "any" } ∧
      ¬ Prioritised (fun _ => none) hidingRoutes (getRequest "/a/c") { cluster := "any" } := by
  refine ⟨by decide +kernel, ?_⟩
  rw [Prioritised, show (hidingRoutes.find? fun r => r.isHeaderOnly &&
    r.declares (fun _ => none) (getRequest "/a/c")) = none from rfl]
  rintro (⟨before, r, after, hroutes, hcompetes, hact, -⟩ | ⟨hnone, -⟩)
  · have hr : r ∈ hidingRoutes := hroutes ▸ by simp
    simp only [hidingRoutes, List.mem_cons, List.not_mem_nil, or_false] at hr
    rcases hr with rfl | rfl | rfl
    · exact absurd hact (by decide)
    · exact absurd hact (by decide)
    · exact absurd hcompetes.method (by decide)
  · exact hnone ⟨_, List.mem_cons_of_mem _ (List.mem_cons_self ..), rfl, by decide, rfl,
      by decide +kernel⟩

end Published

end Pixiu.Routing
