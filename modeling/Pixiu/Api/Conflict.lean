import Pixiu.Api.Route

/-!
# The conflict key of the admin

`runtimeRouteConflictKey` of `admin/logic/route_binding.go`: before the admin publishes a route, it
compares a text made of the verb and the path with those of the routes that exist, so as to refuse
what `PutAPI` of the gateway would refuse.

* `runtimeRouteConflictKey_eq_iff` — the texts are equal when the verbs are and the paths read
  alike;
* `isSome_putAPI_iff` — the gateway refuses what reads alike, the verb included, unless a `**`
  stands before the end;
* `mirrors_iff` — so the two agree except about verbs that look like a parameter or like `**`.
-/

namespace Pixiu.Api

open Pixiu Routing

section Key

variable (toUpper toLower : String → String)

/-- How the key writes a segment of the path. -/
def conflictSegment (segment : String) : String :=
  if isPathVariableOrWildcard segment && !isMatchAll segment then ":" else segment

/-- `runtimeRouteConflictKey`; `toUpper` and `toLower` stand for the functions of `strings`. -/
def runtimeRouteConflictKey (method path : String) : String :=
  let key := Routing.getTrieKey (toUpper method) (toLower path)
  let segments := match Text.split '/' key with
    | [] => []
    | first :: rest => first :: rest.map conflictSegment
  Text.join '/' segments

end Key

/-- The key is equal exactly when, on an empty route table, the second API is refused after the
first. -/
def Mirrors (toUpper toLower : String → String) (api₁ api₂ : API) : Prop :=
  runtimeRouteConflictKey toUpper toLower api₁.method.httpVerb api₁.urlPattern =
      runtimeRouteConflictKey toUpper toLower api₂.method.httpVerb api₂.urlPattern ↔
    (((newRoute.putAPI toLower api₁).1.putAPI toLower api₂).2).isSome

/-- The segments of an API's path, in lower case. -/
def API.segments (toLower : String → String) (api : API) : List String :=
  pathSegments (toLower api.urlPattern)

variable {toUpper toLower : String → String} {api₁ api₂ : API}

/-! ## The key -/

/-- Segments are written alike when the trie reads them alike. -/
theorem conflictSegment_eq (segment : String) :
    conflictSegment segment = match edge segment with
      | .var => ":"
      | .all => "**"
      | .lit s => s := by
  unfold conflictSegment edge isMatchAll
  by_cases hvar : isPathVariableOrWildcard segment = true
  · have hall : (segment == "**") = false := by
      by_contra hall
      rw [Bool.not_eq_false, beq_iff_eq] at hall
      subst hall
      exact absurd hvar (by decide)
    simp [hvar, hall]
  · by_cases hall : segment = "**"
    · subst hall
      decide
    · simp [hvar, hall]

theorem conflictSegment_eq_iff {s₁ s₂ : String} : conflictSegment s₁ = conflictSegment s₂ ↔
    edge s₁ = edge s₂ := by
  constructor
  · intro h
    -- neither `:` nor `**` is read as a literal
    have hcolon : ∀ {s : String}, edge s ≠ .lit ":" := fun hs => by
      obtain rfl := edge_eq_lit hs
      exact absurd hs (by decide)
    have hall : ∀ {s : String}, edge s ≠ .lit "**" := fun hs => by
      obtain rfl := edge_eq_lit hs
      exact absurd hs (by decide)
    rw [conflictSegment_eq, conflictSegment_eq] at h
    cases h₁ : edge s₁ with
    | var =>
      cases h₂ : edge s₂ with
      | var => rfl
      | all =>
        simp only [h₁, h₂] at h
        exact absurd h (by decide)
      | lit t =>
        simp only [h₁, h₂] at h
        exact absurd (h ▸ h₂) hcolon
    | all =>
      cases h₂ : edge s₂ with
      | var =>
        simp only [h₁, h₂] at h
        exact absurd h (by decide)
      | all => rfl
      | lit t =>
        simp only [h₁, h₂] at h
        exact absurd (h ▸ h₂) hall
    | lit s =>
      cases h₂ : edge s₂ with
      | var =>
        simp only [h₁, h₂] at h
        exact absurd (h ▸ h₁) hcolon
      | all =>
        simp only [h₁, h₂] at h
        exact absurd (h ▸ h₁) hall
      | lit t =>
        simp only [h₁, h₂] at h
        rw [h]
  · intro h
    rw [conflictSegment_eq, conflictSegment_eq, h]

theorem map_conflictSegment_eq_iff {l₁ l₂ : List String} :
    l₁.map conflictSegment = l₂.map conflictSegment ↔ l₁.map edge = l₂.map edge := by
  induction l₁ generalizing l₂ with
  | nil => simp only [List.map_nil, List.nil_eq, List.map_eq_nil_iff]
  | cons s₁ l₁ ih =>
    cases l₂ with
    | nil => simp
    | cons s₂ l₂ => simp only [List.map_cons, List.cons.injEq, conflictSegment_eq_iff, ih]

theorem slash_not_mem_conflictSegment {s : String} (h : '/' ∉ s.toList) :
    '/' ∉ (conflictSegment s).toList := by
  unfold conflictSegment
  split
  · decide
  · exact h

/-- The segments of the key of a plain word. -/
theorem split_runtimeRouteConflictKey {m : String} (hword : IsWord m) (hupper : toUpper m = m)
    (path : String) :
    Text.split '/' (runtimeRouteConflictKey toUpper toLower m path) =
      m :: (pathSegments (toLower path)).map conflictSegment := by
  have hsplit : Text.split '/' (Routing.getTrieKey m (toLower path)) =
      m :: pathSegments (toLower path) := by
    rw [textSplit_getTrieKey, Text.split_of_not_mem hword.2, List.singleton_append]
  rw [runtimeRouteConflictKey, hupper, hsplit]
  refine Text.split_join (List.cons_ne_nil _ _) fun p hp => ?_
  rcases List.mem_cons.1 hp with rfl | hp
  · exact hword.2
  · obtain ⟨s, hs, rfl⟩ := List.mem_map.1 hp
    exact slash_not_mem_conflictSegment
      (Text.not_mem_of_mem_split (hsplit ▸ List.mem_cons_of_mem m hs))

variable (hword₁ : IsWord api₁.method.httpVerb) (hword₂ : IsWord api₂.method.httpVerb)
include hword₁ hword₂

theorem runtimeRouteConflictKey_eq_iff
    (hupper₁ : toUpper api₁.method.httpVerb = api₁.method.httpVerb)
    (hupper₂ : toUpper api₂.method.httpVerb = api₂.method.httpVerb) :
    runtimeRouteConflictKey toUpper toLower api₁.method.httpVerb api₁.urlPattern =
        runtimeRouteConflictKey toUpper toLower api₂.method.httpVerb api₂.urlPattern ↔
      api₁.method.httpVerb = api₂.method.httpVerb ∧
        (api₁.segments toLower).map edge = (api₂.segments toLower).map edge := by
  have hinj : ∀ s t, Text.split '/' s = Text.split '/' t ↔ s = t := fun _ _ => Text.split_inj
  rw [← hinj, split_runtimeRouteConflictKey hword₁ hupper₁,
    split_runtimeRouteConflictKey hword₂ hupper₂,
    List.cons.injEq, map_conflictSegment_eq_iff]
  rfl

omit hword₁ hword₂

/-! ## The route table -/

/-- An empty table refuses nothing. -/
theorem getNode_newRoute (key : String) : newRoute.getNode key = none := by
  by_cases hreal : IsReal (split key)
  · obtain ⟨e, es, hes⟩ := List.exists_cons_of_ne_nil (addr_ne_nil (split_ne_nil key))
    rw [Route.getNode_real hreal, Trie.seen, hes]
    show (((Node.fresh : Node RouteNode).look (e :: es)).filter _).bind _ = none
    rw [Node.look_fresh_cons]
    rfl
  · rcases Node.get_of_not_isReal hreal (newRoute.tree.root) with ⟨e, he⟩ | hn
    · rw [Route.getNode, Trie.get, he]
    · rw [Route.getNode, Trie.get, hn]
      rfl

/-- A table with one API has information for the keys that the trie reads like that of the API. -/
theorem isSome_getNode_put (key₁ key₂ : String) (node : RouteNode) :
    (Route.getNode ⟨(Trie.newTrie.put key₁ (some node)).1⟩ key₂).isSome ↔
      IsReal (split key₁) ∧ IsReal (split key₂) ∧
      (split key₁).map edge = (split key₂).map edge := by
  by_cases hreal₂ : IsReal (split key₂)
  · rw [Route.getNode_real hreal₂, Trie.seen]
    obtain ⟨e, es, hes⟩ := List.exists_cons_of_ne_nil (addr_ne_nil (split_ne_nil key₂))
    have hlook : ((Trie.newTrie.put key₁ (some node)).1).root.look (addr (split key₂)) =
        Node.putLook (split key₁) node (addr (split key₂)) none := by
      show ((Node.fresh.internalPut (split key₁) node).1).look _ = _
      rw [Node.look_internalPut (split_ne_nil key₁), hes, Node.look_fresh_cons]
    rw [hlook]
    by_cases hsame : addr (split key₂) = addr (split key₁) ∧ IsReal (split key₁)
    · obtain ⟨haddr, hreal₁⟩ := hsame
      rw [haddr, Node.putLook_addr hreal₁]
      refine iff_of_true ?_ ⟨hreal₁, hreal₂, ?_⟩
      · simp [Node.plantMark, Option.filter]
      · rw [← addr_of_isReal hreal₁, ← addr_of_isReal hreal₂, haddr]
    · refine iff_of_false ?_ ?_
      · rw [Node.putLook, if_neg hsame]
        split <;> simp [Mark.blank, Option.filter]
      · rintro ⟨hreal₁, -, hmap⟩
        exact hsame ⟨by rw [addr_of_isReal hreal₁, addr_of_isReal hreal₂, hmap], hreal₁⟩
  · refine iff_of_false ?_ fun h => hreal₂ h.2.1
    rcases Node.get_of_not_isReal hreal₂ (Trie.newTrie.put key₁ (some node)).1.root with ⟨e, he⟩ |
      hn
    · rw [Route.getNode, Trie.get, he]
      simp
    · rw [Route.getNode, Trie.get, hn]
      simp

include hword₁ hword₂

/-- The gateway refuses the second API when the trie reads both alike, and a `**` is the end. -/
theorem isSome_putAPI_iff :
    (((newRoute.putAPI toLower api₁).1.putAPI toLower api₂).2).isSome ↔
      IsReal (api₁.method.httpVerb :: api₁.segments toLower) ∧
      IsReal (api₂.method.httpVerb :: api₂.segments toLower) ∧
        edge api₁.method.httpVerb = edge api₂.method.httpVerb ∧
        (api₁.segments toLower).map edge = (api₂.segments toLower).map edge := by
  have hsplit₁ : split (Route.keyOf toLower api₁.urlPattern api₁.method.httpVerb) =
      api₁.method.httpVerb :: api₁.segments toLower := split_getTrieKey hword₁ _
  have hsplit₂ : split (Route.keyOf toLower api₂.urlPattern api₂.method.httpVerb) =
      api₂.method.httpVerb :: api₂.segments toLower := split_getTrieKey hword₂ _
  have hiff := isSome_getNode_put (Route.keyOf toLower api₁.urlPattern api₁.method.httpVerb)
    (Route.keyOf toLower api₂.urlPattern api₂.method.httpVerb) (Route.nodeOf toLower api₁)
  rw [hsplit₁, hsplit₂, List.map_cons, List.map_cons, List.cons.injEq] at hiff
  rw [← hiff, Route.putAPI, Route.putAPI, getNode_newRoute]
  dsimp only
  split
  · rename_i hnone
    rw [show newRoute.tree = Trie.newTrie from rfl] at hnone
    simp [hnone]
  · rename_i node hsome
    rw [show newRoute.tree = Trie.newTrie from rfl] at hsome
    simp [hsome]

/-! ## Both -/

omit hword₁ hword₂ in
/-- Before segments in which a `**` is the end, only a verb `**` is not at the end. -/
theorem isReal_cons_iff {m : String} {segments : List String} (hreal : IsReal segments) :
    IsReal (m :: segments) ↔ (edge m = .all → segments = []) := by
  cases segments with
  | nil => exact iff_of_true (isReal_singleton m) fun _ => rfl
  | cons s rest => simp [isReal_cons_cons, hreal]

/-- **The key mirrors the route table** except for two different verbs that look like a parameter
and for the verb `**`. -/
theorem mirrors_iff (hupper₁ : toUpper api₁.method.httpVerb = api₁.method.httpVerb)
    (hupper₂ : toUpper api₂.method.httpVerb = api₂.method.httpVerb)
    (hreal₁ : IsReal (api₁.segments toLower)) (hreal₂ : IsReal (api₂.segments toLower)) :
    Mirrors toUpper toLower api₁ api₂ ↔
      ((api₁.segments toLower).map edge = (api₂.segments toLower).map edge →
        (edge api₁.method.httpVerb = .var → edge api₂.method.httpVerb = .var →
          api₁.method.httpVerb = api₂.method.httpVerb) ∧
        (edge api₁.method.httpVerb = .all → edge api₂.method.httpVerb = .all →
          api₁.segments toLower = [])) := by
  rw [Mirrors, runtimeRouteConflictKey_eq_iff hword₁ hword₂ hupper₁ hupper₂,
    isSome_putAPI_iff hword₁ hword₂,
    isReal_cons_iff hreal₁, isReal_cons_iff hreal₂]
  by_cases hpath : (api₁.segments toLower).map edge = (api₂.segments toLower).map edge
  · have hnil : api₁.segments toLower = [] ↔ api₂.segments toLower = [] := by
      rw [← List.map_eq_nil_iff (f := edge), hpath, List.map_eq_nil_iff]
    simp only [hpath, and_true, true_implies]
    constructor
    · intro h
      constructor
      · intro hvar₁ hvar₂
        refine h.2 ⟨fun hall => ?_, fun hall => ?_, hvar₁.trans hvar₂.symm⟩
        · cases hvar₁.symm.trans hall
        · cases hvar₂.symm.trans hall
      · intro hall₁ hall₂
        exact (h.1 ((edge_eq_all.1 hall₁).trans (edge_eq_all.1 hall₂).symm)).1 hall₁
    · rintro ⟨hvar, hall⟩
      constructor
      · intro hverb
        refine ⟨fun hall₁ => hall hall₁ (hverb ▸ hall₁), fun hall₂ => ?_, congrArg edge hverb⟩
        exact hnil.1 (hall (hverb ▸ hall₂) hall₂)
      · rintro ⟨-, -, hedge⟩
        cases hedge₁ : edge api₁.method.httpVerb with
        | var => exact hvar hedge₁ (hedge ▸ hedge₁)
        | all => exact (edge_eq_all.1 hedge₁).trans (edge_eq_all.1 (hedge ▸ hedge₁)).symm
        | lit s => exact (edge_eq_lit hedge₁).symm.trans (edge_eq_lit (hedge ▸ hedge₁))
  · simp only [hpath, and_false, false_implies]

omit hword₁ hword₂

/-- An API with this verb and path. -/
def plainAPI (httpVerb urlPattern : String) : API := { urlPattern, method := { httpVerb } }

/-- A path and the same path with another parameter name. -/
theorem mirrors_users :
    Mirrors id id (plainAPI "GET" "/users/:id") (plainAPI "GET" "/users/:name/") := by
  have hword : IsWord "GET" := ⟨by decide, by decide⟩
  exact (mirrors_iff hword hword rfl rfl (by decide +kernel) (by decide +kernel)).2 fun _ =>
    ⟨fun _ _ => rfl, fun hall => absurd hall (by decide)⟩

/-- The gateway takes the verbs `*` and `:A` for one parameter. -/
theorem not_mirrors_wildcard :
    ¬ Mirrors id id (plainAPI "*" "/users") (plainAPI ":A" "/users") := by
  intro h
  have hconflict :
      ((newRoute.putAPI id (plainAPI "*" "/users")).1.putAPI id
        (plainAPI ":A" "/users")).2.isSome :=
    (isSome_putAPI_iff ⟨by decide, by decide⟩ ⟨by decide, by decide⟩).2
      ⟨by decide +kernel, by decide +kernel, by decide, by decide +kernel⟩
  exact absurd (h.2 hconflict) (by decide +kernel)

end Pixiu.Api
