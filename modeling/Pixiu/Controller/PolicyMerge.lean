import Pixiu.Controller.Translator

/-!
# Merging a policy into a connection manager

`mergeFilterConfig` appends the routes that a policy declares to those of an existing HTTP
connection manager, one after the other, unless a route is there already.  Whether it is there is
decided by the path or prefix and the cluster alone, so a route may be dropped in favour of one with
other methods or headers.

What `json.Unmarshal` makes of the parts of a configuration is a parameter.

* `mem_or_covered` — what became of a declared route.
* `merge_keeps_routes_iff` — when none is lost.
-/

namespace Pixiu.Controller

open Routing (Router)

/-- `HTTPConnectionManagerConfig`. -/
structure HTTPConnectionManagerConfig (κ : Type) where
  routes : List Router
  httpFilters : List (HTTPFilter κ)

/-- The configuration of a filter: one of the type above, a map, or something else. -/
inductive FilterConfig (κ ρ : Type) where
  | typed (config : HTTPConnectionManagerConfig κ)
  | untyped (config : ρ)
  | other

/-- The parts of the `configMap` of a policy that are read, if they are lists; `whole` is all of
it. -/
structure PolicyConfig (ρ : Type) where
  routes : Option (List ρ)
  httpFilters : Option (List ρ)
  whole : ρ

/-- What `json.Unmarshal` makes of a value. -/
structure Json (κ ρ : Type) where
  config : ρ → Option (HTTPConnectionManagerConfig κ)
  route : ρ → Option Router
  httpFilter : ρ → Option (HTTPFilter κ)

section

variable {κ ρ : Type} (json : Json κ ρ)

/-- The comparison of a route with an existing one. -/
def covers (existing route : Router) : Bool :=
  ((existing.routerMatch.pre != "" && existing.routerMatch.pre == route.routerMatch.pre) ||
    (existing.routerMatch.path != "" && existing.routerMatch.path == route.routerMatch.path)) &&
  existing.route.cluster == route.route.cluster

/-- One round of the loop over the declared routes. -/
def mergeRoute (routes : List Router) (route : Router) : List Router :=
  if routes.any (covers · route) then routes else routes ++ [route]

/-- The loop over the declared filters, and the removal of the default proxy. -/
def mergeHTTPFilters (existing : List (HTTPFilter κ)) (raws : List ρ) : List (HTTPFilter κ) :=
  let declared := (raws.filterMap json.httpFilter).map fun filter =>
    if filter.name = "dgp.filter.http.dubboproxy" then
      { filter with name := "dgp.filter.http.directdubboproxy" } else filter
  let merged := declared.foldl (fun filters filter =>
    if filters.any (·.name = filter.name) then filters else filters ++ [filter]) existing
  let hasDubboProxy := declared.any (·.name = "dgp.filter.http.directdubboproxy")
  let requestsHttpProxy := declared.any (·.name = "dgp.filter.http.httpproxy")
  if hasDubboProxy || (!requestsHttpProxy && !raws.isEmpty) then
    merged.filter (·.name ≠ "dgp.filter.http.httpproxy")
  else merged

/-- The existing configuration as one of an HTTP connection manager, if it can be converted. -/
def FilterConfig.existing : FilterConfig κ ρ → Option (HTTPConnectionManagerConfig κ)
  | .typed config => some config
  | .untyped config => json.config config
  | .other => none

/-- The routes that a policy declares. -/
def PolicyConfig.declared (policy : PolicyConfig ρ) : List Router :=
  (policy.routes.getD []).filterMap json.route

/-- `mergeFilterConfig` for an HTTP connection manager. -/
def mergeFilterConfig (config : FilterConfig κ ρ) (policy : PolicyConfig ρ) : FilterConfig κ ρ :=
  match config.existing json with
  | some existing => .typed
    { routes := (policy.declared json).foldl mergeRoute existing.routes
      httpFilters :=
        (policy.httpFilters.map (mergeHTTPFilters json existing.httpFilters)).getD
          existing.httpFilters }
  | none => (json.config policy.whole).elim (.untyped policy.whole) .typed

end

/-! ## The routes -/

/-- What has to be kept of a route. -/
def ruleOf (r : Router) : String × String × List String × List Routing.HeaderMatcher × String :=
  (r.routerMatch.pre, r.routerMatch.path, r.routerMatch.methods, r.routerMatch.headers,
    r.route.cluster)

/-- Some route of the list is the same as a given one. -/
def HasRule (routes : List Router) (r : Router) : Prop := ∃ e ∈ routes, ruleOf e = ruleOf r

/-- A declared route that an earlier one covers, existing or declared, has an earlier one that is
the same. -/
def Repeated (existing declared : List Router) : Prop :=
  ∀ before r after, declared = before ++ r :: after →
    (∃ e ∈ existing ++ before, covers e r = true) → HasRule (existing ++ before) r

theorem covers_of_rule {e e' r r' : Router} (he : ruleOf e = ruleOf e')
    (hr : ruleOf r = ruleOf r') :
    covers e r = covers e' r' := by
  simp only [ruleOf, Prod.mk.injEq] at he hr
  simp [covers, he, hr]

/-- What one round does. -/
theorem mergeRoute_cases (routes : List Router) (r : Router) :
    mergeRoute routes r = routes ∧ (∃ e ∈ routes, covers e r = true) ∨
      mergeRoute routes r = routes ++ [r] ∧ ∀ e ∈ routes, covers e r = false := by
  unfold mergeRoute
  by_cases h : routes.any (covers · r) = true
  · exact Or.inl ⟨if_pos h, by simpa using h⟩
  · exact Or.inr ⟨if_neg h, by simpa using h⟩

section Merge

variable {existing declared : List Router} {r : Router}

theorem mem_mergeRoute {routes : List Router} {e : Router} (h : e ∈ routes) :
    e ∈ mergeRoute routes r := by
  rcases mergeRoute_cases routes r with ⟨heq, -⟩ | ⟨heq, -⟩
  · rwa [heq]
  · rw [heq]
    exact List.mem_append_left _ h

/-- Existing routes stay where they are, and what comes after them was declared. -/
theorem exists_append (existing declared : List Router) :
    ∃ kept, declared.foldl mergeRoute existing = existing ++ kept ∧ kept ⊆ declared := by
  induction declared generalizing existing with
  | nil => exact ⟨[], by simp⟩
  | cons r declared ih =>
    obtain ⟨kept, hkept, hsub⟩ := ih (mergeRoute existing r)
    rw [List.foldl_cons, hkept]
    rcases mergeRoute_cases existing r with ⟨heq, -⟩ | ⟨heq, -⟩
    · exact ⟨kept, by rw [heq], fun e he => List.mem_cons_of_mem _ (hsub he)⟩
    · exact ⟨r :: kept, by simp [heq], List.cons_subset_cons r hsub⟩

/-- A declared route is in the list, or one that covers it. -/
theorem mem_or_covered (existing : List Router) (h : r ∈ declared) :
    r ∈ declared.foldl mergeRoute existing ∨ ∃ e ∈ declared.foldl mergeRoute existing, covers e r =
      true := by
  induction declared generalizing existing with
  | nil => cases h
  | cons first declared ih =>
    rw [List.foldl_cons]
    rcases List.mem_cons.1 h with rfl | h
    · obtain ⟨kept, hkept, -⟩ := exists_append (mergeRoute existing r) declared
      rw [hkept]
      rcases mergeRoute_cases existing r with ⟨heq, e, he, hcovers⟩ | ⟨heq, -⟩
      · exact Or.inr ⟨e, List.mem_append_left _ (mem_mergeRoute he), hcovers⟩
      · exact Or.inl (by simp [heq])
    · exact ih _ h

theorem repeated_concat : Repeated existing (declared ++ [r]) ↔ Repeated existing declared ∧
    ((∃ e ∈ existing ++ declared, covers e r = true) → HasRule (existing ++ declared) r) := by
  constructor
  · exact fun h => ⟨fun before r' after heq => h before r' (after ++ [r]) (by simp [heq]),
      h declared r [] rfl⟩
  · rintro ⟨h, hlast⟩ before r' after heq
    rcases List.eq_nil_or_concat after with rfl | ⟨after, last, rfl⟩
    · obtain ⟨rfl, hsingle⟩ := List.append_inj' heq rfl
      obtain rfl := List.singleton_inj.1 hsingle
      exact hlast
    · have hsplit : declared ++ [r] = (before ++ r' :: after) ++ [last] := by simpa using heq
      exact h before r' after (List.append_inj' hsplit rfl).1

/-- By induction on the declared routes, the last one first. -/
theorem all_kept_iff (existing declared : List Router) :
    (∀ r ∈ declared, HasRule (declared.foldl mergeRoute existing) r) ↔
      Repeated existing declared := by
  induction declared using List.reverseRecOn with
  | nil => exact iff_of_true (by simp) fun before r after heq => by simp at heq
  | append_singleton declared r ih =>
    rw [repeated_concat, ← ih, List.foldl_concat]
    obtain ⟨kept, hroutes, hkept⟩ := exists_append existing declared
    have hcovered := fun q (hq : q ∈ declared) => mem_or_covered existing hq
    generalize declared.foldl mergeRoute existing = routes at *
    have hsource : routes ⊆ existing ++ declared := by
      rw [hroutes]
      exact fun e he => List.mem_append.2 ((List.mem_append.1 he).imp_right fun h => hkept h)
    -- where all earlier routes were kept, the list has the rules of the existing and the declared
    -- ones
    have htarget : (∀ q ∈ declared, HasRule routes q) →
        ∀ e ∈ existing ++ declared, HasRule routes e := by
      intro hall e he
      rcases List.mem_append.1 he with he | he
      · exact ⟨e, hroutes ▸ List.mem_append_left _ he, rfl⟩
      · exact hall e he
    constructor
    · intro hall
      have hearlier : ∀ q ∈ declared, HasRule routes q := by
        intro q hq
        obtain ⟨e, he, hrule⟩ := hall q (List.mem_append_left _ hq)
        rcases mergeRoute_cases routes r with ⟨heq, -⟩ | ⟨heq, hfree⟩ <;> rw [heq] at he
        · exact ⟨e, he, hrule⟩
        · rcases List.mem_append.1 he with he | he
          · exact ⟨e, he, hrule⟩
          · -- the last route cannot stand for one that was dropped: it would be dropped as well
            obtain rfl := List.mem_singleton.1 he
            rcases hcovered q hq with hmem | ⟨x, hx, hcovers⟩
            · exact ⟨q, hmem, rfl⟩
            · exact absurd (hfree x hx) (by rw [covers_of_rule rfl hrule, hcovers]; decide)
      refine ⟨hearlier, fun ⟨e, he, hcovers⟩ => ?_⟩
      obtain ⟨e', he', hrule⟩ := htarget hearlier e he
      rcases mergeRoute_cases routes r with ⟨heq, -⟩ | ⟨-, hfree⟩
      · obtain ⟨x, hx, hsame⟩ := hall r (by simp)
        exact ⟨x, hsource (heq ▸ hx), hsame⟩
      · exact absurd (hfree e' he') (by rw [covers_of_rule hrule rfl, hcovers]; decide)
    · rintro ⟨hearlier, hrepeat⟩ q hq
      rcases List.mem_append.1 hq with hq | hq
      · obtain ⟨e, he, hrule⟩ := hearlier q hq
        exact ⟨e, mem_mergeRoute he, hrule⟩
      · obtain rfl := List.mem_singleton.1 hq
        rcases mergeRoute_cases routes q with ⟨heq, e, he, hcovers⟩ | ⟨heq, -⟩ <;> rw [heq]
        · obtain ⟨x, hx, hsame⟩ := hrepeat ⟨e, hsource he, hcovers⟩
          obtain ⟨y, hy, hrule⟩ := htarget hearlier x hx
          exact ⟨y, hy, hrule.trans hsame⟩
        · exact ⟨q, by simp, rfl⟩

end Merge

/-- The merged routes start with the existing ones, and they have every declared one exactly if a
route is only taken to be there where it is. -/
theorem merge_keeps_routes_iff {κ ρ : Type} {json : Json κ ρ} {config : FilterConfig κ ρ}
    {policy : PolicyConfig ρ}
    {existing : HTTPConnectionManagerConfig κ} (hexisting : config.existing json = some existing) :
    ∃ merged, mergeFilterConfig json config policy = .typed merged ∧
      existing.routes <+: merged.routes ∧
      ((∀ r ∈ policy.declared json, HasRule merged.routes r) ↔
        Repeated existing.routes (policy.declared json)) := by
  unfold mergeFilterConfig
  rw [hexisting]
  obtain ⟨kept, hkept, -⟩ := exists_append existing.routes (policy.declared json)
  exact ⟨_, rfl, ⟨kept, hkept.symm⟩, all_kept_iff _ _⟩

namespace Sample

/-- A route for a method of `/orders`. -/
def orders (method : String) : Router :=
  ⟨"", { pre := "/orders", methods := [method] }, { cluster := "orders" }⟩

/-- Policies whose routes are written as their methods. -/
def json : Json Unit String := ⟨fun _ => none, fun method => some (orders method), fun _ => none⟩

/-- One route that is there already. -/
def existing : HTTPConnectionManagerConfig Unit := ⟨[orders "GET"], []⟩

end Sample

theorem merge_keeps_routes_iff_post : ∃ merged,
    mergeFilterConfig Sample.json (.typed Sample.existing) ⟨some ["POST"], none, ""⟩ =
      .typed merged ∧
    Sample.existing.routes <+: merged.routes ∧
    ((∀ r ∈ PolicyConfig.declared Sample.json ⟨some ["POST"], none, ""⟩, HasRule merged.routes r) ↔
      Repeated Sample.existing.routes
        (PolicyConfig.declared Sample.json ⟨some ["POST"], none, ""⟩)) :=
  merge_keeps_routes_iff rfl

/-- A route for another method is dropped. -/
theorem post_route_lost :
    mergeFilterConfig Sample.json (.typed Sample.existing) ⟨some ["POST"], none, ""⟩ =
      .typed Sample.existing ∧
      ¬ HasRule Sample.existing.routes (Sample.orders "POST") := by
  refine ⟨rfl, ?_⟩
  rintro ⟨e, he, hrule⟩
  obtain rfl := List.mem_singleton.1 he
  exact absurd (congrArg (·.2.2.1) hrule) (by decide)

end Pixiu.Controller
