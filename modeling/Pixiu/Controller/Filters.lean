import Pixiu.Controller.Translator

/-!
# The filters of a listener

Filters are declared by the rules of an HTTPRoute, but `convertHTTPListener` puts all of them into
the one connection manager of the listener, which runs them for every request, and puts the proxy
there only if there are none.

* `httpFilters_generateListener` — what the filters of a listener are.
* `filters_isolated_iff` — when the filters of one HTTPRoute make no difference to the others.
-/

namespace Pixiu.Controller

section Filters

variable {ρ κ σ : Type} (policies : String → String → Option (FilterPolicy ρ))
  (unmarshal : ρ → Option κ)

/-- The listener of the configuration that is made of a Gateway's listener; `none` is a panic. -/
def generateListener (noConfig : κ) (listener : GatewayListener σ) (gateway : Gateway)
    (httpRoutes : List HTTPRoute) :
    Option (Listener κ) :=
  (translateHTTPListener policies unmarshal listener gateway httpRoutes).bind
    (convertHTTPListener noConfig)

/-- The filters that an HTTPRoute declares for a listener, once for each match of the rule that has
them. -/
def HTTPRoute.declaredFilters (httpRoute : HTTPRoute) (listener : GatewayListener σ)
    (gateway : Gateway) :
    List (HTTPFilter κ) :=
  if httpRoute.parentRefs.any (attaches listener gateway httpRoute) then
    httpRoute.rules.flatMap fun rule => rule.ruleMatches.flatMap fun _ =>
      rule.filters.filterMap (translateFilter policies unmarshal httpRoute)
  else []

/-- The HTTPRoute without its filters of type `ExtensionRef`. -/
def HTTPRoute.withoutExtensionRefs (httpRoute : HTTPRoute) : HTTPRoute :=
  { httpRoute with
    rules := httpRoute.rules.map fun rule =>
      { rule with filters := rule.filters.filter fun filter => !filter.isExtensionRef } }

/-- Between two lists of HTTPRoutes that differ only in the `ExtensionRef` filters of `r`, the
filters that are run for the routes of the others do not change. -/
def FiltersIsolated (noConfig : κ) (listener : GatewayListener σ) (gateway : Gateway)
    (pre post : List HTTPRoute)
    (r r' : HTTPRoute) : Prop :=
  r.withoutExtensionRefs = r'.withoutExtensionRefs →
    ∀ l l', generateListener policies unmarshal noConfig listener gateway (pre ++ r :: post) =
      some l →
      generateListener policies unmarshal noConfig listener gateway (pre ++ r' :: post) = some l' →
        (∃ other ∈ pre ++ post, translateHTTPRoute policies unmarshal listener gateway other ≠
          some []) →
          l.httpFilters = l'.httpFilters

end Filters

section Filters

variable {ρ κ σ : Type} {policies : String → String → Option (FilterPolicy ρ)}
  {unmarshal : ρ → Option κ}
variable {noConfig : κ} {listener : GatewayListener σ} {gateway : Gateway} {httpRoute : HTTPRoute}

/-! ## The filters of a listener -/

/-- The routes of an HTTPRoute carry the filters it declares. -/
theorem flatMap_filters_translateHTTPRoute {routes : List (IrRoute κ)}
    (h : translateHTTPRoute policies unmarshal listener gateway httpRoute = some routes) :
    routes.flatMap IrRoute.filters = httpRoute.declaredFilters policies unmarshal listener
      gateway := by
  have hpairs : ∀ {pairs : List (HTTPRouteRule × HTTPRouteMatch)} {irRoutes : List (IrRoute κ)},
      List.Forall₂
        (fun pair irRoute => translateHTTPRouteMatch policies unmarshal pair.2 httpRoute
          pair.1.backendRefs
        pair.1.filters = some irRoute) pairs irRoutes →
      irRoutes.flatMap IrRoute.filters =
        pairs.flatMap fun pair =>
          pair.1.filters.filterMap (translateFilter policies unmarshal httpRoute) := by
    intro pairs irRoutes h
    induction h with
    | nil => rfl
    | cons hpair _ ih =>
      rw [translateHTTPRouteMatch, Option.bind_eq_bind, Option.bind_eq_some_iff] at hpair
      obtain ⟨headers, -, hpair⟩ := hpair
      obtain rfl := Option.some.inj hpair
      rw [List.flatMap_cons, List.flatMap_cons, ih]
  rw [translateHTTPRoute] at h
  rw [HTTPRoute.declaredFilters]
  split_ifs at h ⊢ with hattached
  · rw [hpairs (mapM_eq_some_iff.1 h), List.flatMap_assoc]
    simp only [List.flatMap_map]
  · obtain rfl := Option.some.inj h
    rfl

theorem flatMap_filters_translateHTTPListener {httpRoutes : List HTTPRoute} {ir : IrListener κ}
    (h : translateHTTPListener policies unmarshal listener gateway httpRoutes = some ir) :
    ir.name = listener.name ∧ ir.routes.flatMap IrRoute.filters =
      httpRoutes.flatMap fun httpRoute => httpRoute.declaredFilters policies unmarshal listener
        gateway := by
  rw [translateHTTPListener, Option.bind_eq_bind, Option.bind_eq_some_iff] at h
  obtain ⟨routes, hroutes, h⟩ := h
  obtain rfl := Option.some.inj h
  refine ⟨rfl, ?_⟩
  rw [mapM_eq_some_iff] at hroutes
  induction hroutes with
  | nil => rfl
  | cons hhead _ ih =>
    simp only [List.flatten_cons, List.flatMap_append, List.flatMap_cons] at ih ⊢
    rw [ih rfl, flatMap_filters_translateHTTPRoute hhead]

/-- A listener has the filters that its HTTPRoutes declare, or the proxy if they declare none. -/
theorem httpFilters_generateListener {httpRoutes : List HTTPRoute} {l : Listener κ}
    (h : generateListener policies unmarshal noConfig listener gateway httpRoutes = some l) :
    l.httpFilters =
      let custom :=
  httpRoutes.flatMap fun httpRoute => httpRoute.declaredFilters policies unmarshal listener gateway
      if listener.name.toLower == "grpc" then [] else if custom.isEmpty then
        [defaultFilter noConfig] else custom := by
  rw [generateListener, Option.bind_eq_some_iff] at h
  obtain ⟨ir, hir, hl⟩ := h
  obtain ⟨hname, hfilters⟩ := flatMap_filters_translateHTTPListener hir
  rw [convertHTTPListener, Option.bind_eq_bind, Option.bind_eq_some_iff] at hl
  obtain ⟨routes, -, hl⟩ := hl
  obtain rfl := Option.some.inj hl
  simp only [hname, hfilters]

/-- A route that was translated is converted. -/
theorem convertHTTPRoute_ne_none {routes : List (IrRoute κ)} {irRoute : IrRoute κ}
    (h : translateHTTPRoute policies unmarshal listener gateway httpRoute = some routes)
    (hmem : irRoute ∈ routes) :
    convertHTTPRoute irRoute ≠ none := by
  rw [translateHTTPRoute] at h
  split_ifs at h
  · obtain ⟨pair, -, hpair⟩ := exists_of_mem_mapM h hmem
    obtain ⟨route, hroute⟩ := exists_convertHTTPRoute hpair
    rw [hroute]
    exact Option.some_ne_none route
  · obtain rfl := Option.some.inj h
    cases hmem

/-- A listener whose translation does not panic is generated. -/
theorem exists_generateListener {httpRoutes : List HTTPRoute}
    (htyped : ∀ httpRoute ∈ httpRoutes, httpRoute.Attached listener gateway →
      ∀ m, httpRoute.HasMatch m → ¬m.Untyped) :
    ∃ l, generateListener policies unmarshal noConfig listener gateway httpRoutes = some l := by
  cases hir : translateHTTPListener policies unmarshal listener gateway httpRoutes with
  | none =>
    obtain ⟨other, hother, hattached, m, hmatch, huntyped⟩ :=
      translateHTTPListener_eq_none_iff.1 hir
    exact absurd huntyped (htyped other hother hattached m hmatch)
  | some ir =>
    have hconverted : ir.routes.mapM convertHTTPRoute ≠ none := by
      rw [ne_eq, mapM_eq_none_iff]
      rintro ⟨irRoute, hmem, hnone⟩
      rw [translateHTTPListener, Option.bind_eq_bind, Option.bind_eq_some_iff] at hir
      obtain ⟨routes, hroutes, hir⟩ := hir
      obtain rfl := Option.some.inj hir
      obtain ⟨part, hpart, hmem⟩ := List.mem_flatten.1 hmem
      obtain ⟨httpRoute, -, hroute⟩ := exists_of_mem_mapM hroutes hpart
      exact convertHTTPRoute_ne_none hroute hmem hnone
    obtain ⟨routes, hroutes⟩ := Option.ne_none_iff_exists'.1 hconverted
    rw [generateListener, hir, Option.bind_some, convertHTTPListener, hroutes]
    exact ⟨_, rfl⟩

/-! ## Isolation -/

theorem attached_withoutExtensionRefs :
    httpRoute.withoutExtensionRefs.Attached listener gateway ↔
      httpRoute.Attached listener gateway := Iff.rfl

theorem hasMatch_withoutExtensionRefs {m : HTTPRouteMatch} :
    httpRoute.withoutExtensionRefs.HasMatch m ↔ httpRoute.HasMatch m := by
  constructor
  · rintro ⟨rule, hrule, hm⟩
    obtain ⟨declared, hdeclared, rfl⟩ := List.mem_map.1 hrule
    exact ⟨declared, hdeclared, hm⟩
  · rintro ⟨rule, hrule, hm⟩
    exact ⟨_, List.mem_map.2 ⟨rule, hrule, rfl⟩, hm⟩

/-- With other `ExtensionRef` filters the translation does not panic either. -/
theorem typed_of_withoutExtensionRefs {pre post : List HTTPRoute} {r r' : HTTPRoute}
    (hsame : r.withoutExtensionRefs = r'.withoutExtensionRefs)
    (htyped : ∀ httpRoute ∈ pre ++ r :: post, httpRoute.Attached listener gateway →
      ∀ m, httpRoute.HasMatch m → ¬m.Untyped) :
    ∀ httpRoute ∈ pre ++ r' :: post, httpRoute.Attached listener gateway →
      ∀ m, httpRoute.HasMatch m → ¬m.Untyped := by
  intro httpRoute hmem hattached m hmatch
  rcases List.mem_append.1 hmem with hpre | hrest
  · exact htyped httpRoute (List.mem_append_left _ hpre) hattached m hmatch
  rcases List.mem_cons.1 hrest with rfl | hpost
  · rw [← attached_withoutExtensionRefs, ← hsame, attached_withoutExtensionRefs] at hattached
    rw [← hasMatch_withoutExtensionRefs, ← hsame, hasMatch_withoutExtensionRefs] at hmatch
    exact htyped r (List.mem_append_right _ (List.mem_cons_self ..)) hattached m hmatch
  · exact htyped httpRoute (List.mem_append_right _ (List.mem_cons_of_mem _ hpost)) hattached m
      hmatch

/-- Two lists of filters, with the default for an empty one, are the same in the same
surroundings. -/
theorem filters_eq_iff {α : Type} {default : α} {pre post a b : List α} :
    ((if (pre ++ (a ++ post)).isEmpty then [default] else pre ++ (a ++ post)) =
      if (pre ++ (b ++ post)).isEmpty then [default] else pre ++ (b ++ post)) ↔
      a = b ∨ (pre = [] ∧ post = []) ∧ (a = [] ∧ b = [default] ∨ a = [default] ∧ b = []) := by
  by_cases hothers : pre = [] ∧ post = []
  · obtain ⟨rfl, rfl⟩ := hothers
    cases a <;> cases b <;> simp [eq_comm]
  · have hne : ∀ c : List α, (pre ++ (c ++ post)).isEmpty = false := by
      intro c
      rw [Bool.eq_false_iff, ne_eq, List.isEmpty_iff, List.append_eq_nil_iff,
        List.append_eq_nil_iff]
      exact fun h => hothers ⟨h.1, h.2.2⟩
    simp [hne, hothers]

/-- The filters of `r` make no difference to the others exactly if the translation panics, the
listener has no route of the others or is a gRPC one, `r` declares the same filters, or it changes
between none and the default while nobody else declares any. -/
theorem filters_isolated_iff {pre post : List HTTPRoute} {r r' : HTTPRoute} :
    FiltersIsolated policies unmarshal noConfig listener gateway pre post r r' ↔
      (r.withoutExtensionRefs = r'.withoutExtensionRefs →
        (∀ httpRoute ∈ pre ++ r :: post, httpRoute.Attached listener gateway →
          ∀ m, httpRoute.HasMatch m → ¬m.Untyped) →
        (∃ other ∈ pre ++ post, other.Attached listener gateway ∧ ∃ m, other.HasMatch m) →
        (listener.name.toLower == "grpc") = false →
          let declared :=
            fun httpRoute => HTTPRoute.declaredFilters policies unmarshal httpRoute listener gateway
          declared r = declared r' ∨ (pre.flatMap declared = [] ∧ post.flatMap declared = []) ∧
            (declared r = [] ∧ declared r' = [defaultFilter noConfig] ∨
              declared r = [defaultFilter noConfig] ∧ declared r' = [])) := by
  have hothers :
      (∃ other ∈ pre ++ post, translateHTTPRoute policies unmarshal listener gateway other ≠
        some []) ↔
      ∃ other ∈ pre ++ post, other.Attached listener gateway ∧ ∃ m, other.HasMatch m :=
    exists_congr fun _ => and_congr_right fun _ => translateHTTPRoute_ne_nil_iff
  rw [FiltersIsolated]
  refine forall_congr' fun hsame => ?_
  rw [hothers]
  constructor
  · intro h htyped hother hgrpc
    obtain ⟨l, hl⟩ := exists_generateListener htyped
    obtain ⟨l', hl'⟩ := exists_generateListener (typed_of_withoutExtensionRefs hsame htyped)
    have heq := h l l' hl hl' hother
    rw [httpFilters_generateListener hl, httpFilters_generateListener hl'] at heq
    simp only [hgrpc, Bool.false_eq_true, if_false, List.flatMap_append, List.flatMap_cons] at heq
    exact filters_eq_iff.1 heq
  · intro h l l' hl hl' hother
    have htyped : ∀ httpRoute ∈ pre ++ r :: post, httpRoute.Attached listener gateway →
        ∀ m, httpRoute.HasMatch m → ¬m.Untyped := by
      intro other hmem hattached m hmatch huntyped
      rw [generateListener, translateHTTPListener_eq_none_iff.2
        ⟨other, hmem, hattached, m, hmatch, huntyped⟩] at hl
      cases hl
    rw [httpFilters_generateListener hl, httpFilters_generateListener hl']
    cases hgrpc : listener.name.toLower == "grpc" with
    | true => rfl
    | false =>
      simp only [Bool.false_eq_true, if_false, List.flatMap_append, List.flatMap_cons]
      exact filters_eq_iff.2 (h htyped hother hgrpc)

end Filters

/-- A policy for the HTTPRoute `shop` that authenticates its requests. -/
def shopPolicy (_ _ : String) : Option (FilterPolicy Unit) :=
  some { targetKind := "HTTPRoute", targetName := "shop", filterType := "dgp.filter.http.auth.jwt",
         config := some () }

/-- The HTTPRoute `shop`, with filters. -/
def shopRoute (filters : List HTTPRouteFilter) : HTTPRoute :=
  { nameSpace := "infra", name := "shop", parentRefs := [{ name := "edge" }],
    rules := [{ ruleMatches := [{}], filters }] }

/-- Another HTTPRoute of the listener, without filters. -/
def newsRoute : HTTPRoute :=
  { nameSpace := "infra", name := "news", parentRefs := [{ name := "edge" }],
    rules := [{ ruleMatches := [{}] }] }

/-- The filter of `shop` replaces the proxy of the other HTTPRoute. -/
theorem shop_filter_applies_to_news :
    ¬FiltersIsolated shopPolicy (fun _ => some ())
      () openListener { nameSpace := "infra", name := "edge" } [] [newsRoute]
      (shopRoute []) (shopRoute [{ isExtensionRef := true
                                   extensionRef :=
                                     some ⟨"pixiu.apache.org", "PixiuFilterPolicy", "jwt"⟩ }]) := by
  intro h
  have hisolated := h (by decide +kernel)
  obtain ⟨l, hl⟩ := Option.isSome_iff_exists.1 (by decide +kernel :
    (generateListener shopPolicy (fun _ => some ())
      () openListener { nameSpace := "infra", name := "edge" }
      ([] ++ shopRoute [] :: [newsRoute])).isSome = true)
  obtain ⟨l', hl'⟩ := Option.isSome_iff_exists.1 (by decide +kernel :
    (generateListener shopPolicy (fun _ => some ())
      () openListener { nameSpace := "infra", name := "edge" }
      ([] ++ shopRoute [{ isExtensionRef := true
                          extensionRef := some ⟨"pixiu.apache.org", "PixiuFilterPolicy", "jwt"⟩
                            }] :: [newsRoute])).isSome =
        true)
  have heq :=
    hisolated l l' hl hl' ⟨newsRoute, List.mem_singleton_self _, translateHTTPRoute_ne_nil_iff.2
    ⟨⟨_, List.mem_singleton_self _, by decide +kernel⟩, {}, _, List.mem_singleton_self _,
      List.mem_singleton_self _⟩⟩
  rw [httpFilters_generateListener hl, httpFilters_generateListener hl'] at heq
  revert heq
  decide +kernel

end Pixiu.Controller
