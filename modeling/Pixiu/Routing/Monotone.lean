import Pixiu.Routing.Completeness

/-!
# Does adding a route keep requests answered?

A further route adds entries and candidates, which only helps, but a route with `**` in
the middle of its path also leaves a node behind that carries no data.  The search takes
such a node for a match (`Hole`), so the new route can hide an older, less specific one.

`answered_append_iff` says exactly when an answered request stays answered: it is settled
by a header-only route, or the new route is header-only, or one of the two searches still
comes to an old answer before it comes to an old hole or to one the new route leaves.
-/

namespace Pixiu.Routing

open Pixiu

variable (compile : String → Option (String → Bool))

/-- Adding the route leaves a hole at the address: its key stops there at a `**` that is not
its last segment, and no route so far ends there. -/
def Router.LeavesHole (r : Router) (es : List Entry) (m : String) (a : List Edge) : Prop :=
  r.isHeaderOnly = false ∧ m ∈ r.trieMethods ∧ ¬ IsReal (m :: r.trieSegs) ∧
    addr (m :: r.trieSegs) = a ∧ ¬ ∃ e ∈ es, e.method = m ∧ e.IsReal ∧ e.addr = a

/-- The further route leaves the way to an old answer open. -/
def KeepsOpen (routes : List Router) (r : Router) (req : Request) : Prop :=
  (∃ r' ∈ routes, r'.isHeaderOnly = true ∧ r'.declares compile req = true) ∨
  r.isHeaderOnly = true ∨
  ∃ m, (m = req.method ∨ m = "*") ∧ Search.FindsBefore
    (Serves (publishedEntries compile routes) m req)
    (fun a => Hole (publishedEntries compile routes) m a ∨
      r.LeavesHole (publishedEntries compile routes) m a)
    (traversal (req.method :: pathSegments req.path))

/-! ## What a further route adds -/

variable {compile}

theorem mem_publishedEntries_append {routes : List Router} {r : Router} {e : Entry} :
    e ∈ publishedEntries compile (routes ++ [r]) ↔ e ∈ publishedEntries compile routes ∨
      (r.isHeaderOnly = false ∧ ∃ m ∈ r.trieMethods, r.published compile m = e) := by
  simp only [mem_publishedEntries, List.mem_append, List.mem_singleton,
    or_and_right, exists_or, exists_eq_left]

theorem Serves.append {routes : List Router} {r : Router} {m : String} {req : Request}
    {a : List Edge} (h : Serves (publishedEntries compile routes) m req a) :
    Serves (publishedEntries compile (routes ++ [r])) m req a := by
  obtain ⟨e, he, hm, hreal, ha, e', he', hid, hmatch⟩ := h
  exact ⟨e, mem_publishedEntries_append.2 (Or.inl he), hm, hreal, ha, e',
    mem_publishedEntries_append.2 (Or.inl he'), hid, hmatch⟩

/-- A hole after the addition was one before or is left by the new route. -/
theorem Hole.of_append {routes : List Router} {r : Router} {m : String} {a : List Edge}
    (hm : IsWord m) (h : Hole (publishedEntries compile (routes ++ [r])) m a) :
    Hole (publishedEntries compile routes) m a ∨
      r.LeavesHole (publishedEntries compile routes) m a := by
  obtain ⟨⟨e, he, hem, ha⟩, hnone⟩ := h
  have hold : ¬ ∃ e ∈ publishedEntries compile routes, e.method = m ∧ e.IsReal ∧ e.addr = a :=
    fun ⟨e, he, h⟩ => hnone ⟨e, mem_publishedEntries_append.2 (Or.inl he), h⟩
  rcases mem_publishedEntries_append.1 he with he' | ⟨honly, m', hm', rfl⟩
  · exact Or.inl ⟨⟨e, he', hem, ha⟩, hold⟩
  · obtain rfl : m' = m := hem
    have hsplit := r.split_published compile hm
    refine Or.inr ⟨honly, hm', ?_, ?_, hold⟩
    · intro hreal
      exact hnone ⟨_, he, rfl, by rw [Entry.IsReal, hsplit]; exact hreal, ha⟩
    · rw [← ha, Entry.addr, hsplit]

section Unreal

variable {routes : List Router} {r : Router} (hunreal : ¬ IsReal r.trieSegs)

include hunreal

/-- No key of a route with `**` in the middle of its path is walked to its end. -/
theorem published_not_isReal {m : String} (hm : IsWord m) : ¬ (r.published compile m).IsReal := by
  intro hreal
  exact hunreal (Entry.isReal_segs_of_identity (e := r.published compile m) hm hreal rfl)

/-- Such a route answers nothing itself and lends no candidate. -/
theorem Serves.of_append {m : String} (hm : IsWord m) {req : Request} {a : List Edge}
    (h : Serves (publishedEntries compile (routes ++ [r])) m req a) :
    Serves (publishedEntries compile routes) m req a := by
  obtain ⟨e, he, rfl, hreal, ha, e', he', hid, hmatch⟩ := h
  rcases mem_publishedEntries_append.1 he with he | ⟨-, m₁, -, rfl⟩
  · rcases mem_publishedEntries_append.1 he' with he' | ⟨-, m', -, rfl⟩
    · exact ⟨e, he, rfl, hreal, ha, e', he', hid, hmatch⟩
    · exact absurd (Entry.isReal_segs_of_identity hm hreal hid) hunreal
  · exact absurd hreal (published_not_isReal hunreal hm)

/-- The holes so far and those such a route leaves are holes after the addition. -/
theorem hole_append {m : String} (hm : IsWord m) {a : List Edge}
    (h : Hole (publishedEntries compile routes) m a ∨
      r.LeavesHole (publishedEntries compile routes) m a) :
    Hole (publishedEntries compile (routes ++ [r])) m a := by
  have hnone : (¬ ∃ e ∈ publishedEntries compile routes, e.method = m ∧ e.IsReal ∧ e.addr = a) →
      ¬ ∃ e ∈ publishedEntries compile (routes ++ [r]), e.method = m ∧ e.IsReal ∧ e.addr = a := by
    rintro hold ⟨e, he, rfl, hreal, ha⟩
    rcases mem_publishedEntries_append.1 he with he | ⟨-, m', -, rfl⟩
    · exact hold ⟨e, he, rfl, hreal, ha⟩
    · exact published_not_isReal hunreal hm hreal
  rcases h with ⟨⟨e, he, hem, ha⟩, hold⟩ | ⟨honly, hmem, -, ha, hold⟩
  · exact ⟨⟨e, mem_publishedEntries_append.2 (Or.inl he), hem, ha⟩, hnone hold⟩
  · refine ⟨⟨r.published compile m, mem_publishedEntries_append.2 (Or.inr ⟨honly, m, hmem, rfl⟩),
      rfl, ?_⟩,
      hnone hold⟩
    rw [Entry.addr, r.split_published compile hm, ha]

end Unreal

/-- A route with `**` only last leaves no hole in a trie where anything can be found. -/
theorem not_leavesHole {routes : List Router} {r : Router} (hreal : IsReal r.trieSegs)
    {m : String} (hm : IsWord m) {req : Request} {a b : List Edge}
    (hb : Serves (publishedEntries compile routes) m req b) :
    ¬ r.LeavesHole (publishedEntries compile routes) m a := by
  rintro ⟨-, -, hunreal, ha, hnone⟩
  obtain ⟨e, he, hem, her, heb, -⟩ := hb
  by_cases hall : edge m = .all
  · -- every node of this trie is the one at `**`
    refine hnone ⟨e, he, hem, her, ?_⟩
    rw [← ha, Entry.addr, Entry.split_of_isWord (hem ▸ hm), hem, addr_cons_of_all hall,
      addr_cons_of_all hall]
  · refine hunreal ?_
    cases hs : r.trieSegs with
    | nil => exact isReal_singleton m
    | cons k ks => exact isReal_cons_cons.2 ⟨hall, hs ▸ hreal⟩

/-- The lookups after the addition, for a request the lookups found before. -/
theorem finds_append_iff {routes : List Router} {r : Router} {req : Request}
    (h : Finds (publishedEntries compile routes) req) :
    Finds (publishedEntries compile (routes ++ [r])) req ↔
      ∃ m, (m = req.method ∨ m = "*") ∧ Search.FindsBefore
        (Serves (publishedEntries compile routes) m req)
        (fun a => Hole (publishedEntries compile routes) m a ∨
          r.LeavesHole (publishedEntries compile routes) m a)
        (traversal (req.method :: pathSegments req.path)) := by
  constructor
  · intro h'
    by_cases hreal : IsReal r.trieSegs
    · obtain ⟨m, hasked, hfinds⟩ := h
      obtain ⟨b, -, hb⟩ := hfinds.exists
      refine ⟨m, hasked, hfinds.mono (fun a _ hs => hs) fun a _ hbad => ?_⟩
      exact hbad.resolve_right (not_leavesHole hreal (isWord_of_asked hasked) hb)
    · obtain ⟨m, hasked, hfinds⟩ := h'
      have hm := isWord_of_asked hasked
      exact ⟨m, hasked, hfinds.mono (fun a _ hs => hs.of_append hreal hm)
        fun a _ hbad => hole_append hreal hm hbad⟩
  · rintro ⟨m, hasked, hfinds⟩
    exact ⟨m, hasked, hfinds.mono (fun a _ hs => hs.append)
      fun a _ hbad => hbad.of_append (isWord_of_asked hasked)⟩

theorem publishedHeaderRoutes_append (routes : List Router) (r : Router) :
    publishedHeaderRoutes compile (routes ++ [r]) =
      publishedHeaderRoutes compile routes ++ publishedHeaderRoutes compile [r] := by
  simp [publishedHeaderRoutes, headerRoutes, buildRouteConfiguration, initRegex, List.filter_append]

/-- **An answered request stays answered exactly when** the further route leaves the way to
an old answer open. -/
theorem answered_append_iff {routes : List Router} {r : Router} (hcluster : r.route.cluster ≠ "")
    {req : Request} (h : Answered compile routes req) :
    Answered compile (routes ++ [r]) req ↔ KeepsOpen compile routes r req := by
  rw [answered_iff_find?] at h ⊢
  rw [publishedHeaderRoutes_append, List.find?_append]
  cases hfind : (publishedHeaderRoutes compile routes).find? (HeaderRoute.suits req) with
  | some hr =>
    -- a header-only route decides before and after
    rw [hfind] at h
    obtain ⟨r', hr', honly, rfl⟩ :=
      (mem_publishedHeaderRoutes compile).1 (List.mem_of_find?_eq_some hfind)
    have hdeclares := List.find?_some hfind
    rw [Router.suits_iff compile honly] at hdeclares
    exact iff_of_true h (Or.inl ⟨r', hr', honly, hdeclares⟩)
  | none =>
    rw [hfind] at h
    rw [Option.none_or]
    have hno : ¬ ∃ r' ∈ routes, r'.isHeaderOnly = true ∧ r'.declares compile req = true := by
      rintro ⟨r', hr', honly, hd⟩
      rw [← Router.suits_iff compile honly] at hd
      exact List.find?_eq_none.1 hfind _
        ((mem_publishedHeaderRoutes compile).2 ⟨r', hr', honly, rfl⟩) hd
    cases honly : r.isHeaderOnly with
    | true =>
      refine iff_of_true ?_ (Or.inr (Or.inl honly))
      cases hfind' : (publishedHeaderRoutes compile [r]).find? (HeaderRoute.suits req) with
      | some hr =>
        obtain ⟨r', hr', -, rfl⟩ :=
          (mem_publishedHeaderRoutes compile).1 (List.mem_of_find?_eq_some hfind')
        obtain rfl := List.mem_singleton.1 hr'
        exact hcluster
      | none =>
        have hsame : ∀ e, e ∈ publishedEntries compile (routes ++ [r]) ↔
            e ∈ publishedEntries compile routes := by
          intro e
          simp [mem_publishedEntries_append, honly]
        obtain ⟨m, hasked, hfinds⟩ := h
        refine ⟨m, hasked, hfinds.mono (fun a _ hs => hs.append) fun a _ hbad => ?_⟩
        simpa only [Hole, hsame] using hbad
    | false =>
      have hnone : publishedHeaderRoutes compile [r] = [] := by
        rw [List.eq_nil_iff_forall_not_mem]
        intro hr hmem
        obtain ⟨r', hr', honly', -⟩ := (mem_publishedHeaderRoutes compile).1 hmem
        obtain rfl := List.mem_singleton.1 hr'
        rw [honly] at honly'
        exact Bool.false_ne_true honly'
      rw [hnone, List.find?_nil]
      simp only [KeepsOpen, honly, Bool.false_eq_true, false_or, hno]
      exact finds_append_iff h

/-- A prefix route for everything. -/
def rootRoute : Router :=
  { routerMatch := { pre := "/", methods := ["GET"] }, route := { cluster := "root" } }

/-- A route for one path. -/
def exactRoute : Router :=
  { routerMatch := { path := "/a/x", methods := ["GET"] }, route := { cluster := "exact" } }

/-- `**` in the middle of the path. -/
def middleRoute : Router :=
  { routerMatch := { path := "/a/**/b", methods := ["GET"] }, route := { cluster := "middle" } }

/-- The search comes to the route for one path before it comes to the hole. -/
theorem answered_append_exactRoute :
    Answered (fun _ => none) ([exactRoute] ++ [middleRoute]) (getRequest "/a/x") := by
  refine (answered_append_iff (by decide) (by unfold Answered; decide +kernel)).2 ?_
  have hserves : Serves (publishedEntries (fun _ => none) [exactRoute]) "GET" (getRequest "/a/x")
      [.lit "GET", .lit "a", .lit "x"] := by
    have hmem : exactRoute.published (fun _ => none) "GET" ∈
        publishedEntries (fun _ => none) [exactRoute] :=
      (mem_publishedEntries _).2 ⟨_, List.mem_cons_self .., by decide, "GET", by decide, rfl⟩
    exact ⟨_, hmem, rfl, by unfold Entry.IsReal; decide +kernel, by decide +kernel, _, hmem, rfl,
      rfl⟩
  have hsegments : pathSegments (getRequest "/a/x").path = ["a", "x"] := by decide +kernel
  refine Or.inr (Or.inr ⟨"GET", Or.inl rfl, ?_⟩)
  rw [hsegments]
  exact Or.inl hserves

/-- Adding it takes the answer away from a request it does not even match. -/
theorem not_answered_append_middleRoute :
    ¬ (Answered (fun _ => none) [rootRoute] (getRequest "/a/x") →
      Answered (fun _ => none) ([rootRoute] ++ [middleRoute]) (getRequest "/a/x")) := by
  unfold Answered
  decide +kernel

end Pixiu.Routing
