import Pixiu.Base.Loops
import Pixiu.Routing.Traversal
import Pixiu.Routing.Snapshot

/-!
# What a snapshot holds, and what a lookup in it finds

`ToSnapshot` is two nested loops over tries and shared candidate lists.  Here it is
reduced to data: a route contributes one `Entry` per method, and

* `planted_plantAll` — a trie built by puts has a node for every beginning of a key,
  and a node holds data exactly when some key really ends there;
* `holds_toSnapshot` — the snapshot holds exactly the entries of the routes, trie by
  trie and candidate list by candidate list;
* `matchInTrie_isSome` — a lookup in one trie finds an action exactly when the search
  comes to an address that serves the request (`Serves`) before it comes to a `Hole`,
  a `**` node that some key left behind on its way and no key ends at.
-/

namespace Pixiu.Routing

open Pixiu

/-! ## Tries built by puts -/

section Planted

variable {β : Type}

/-- The trie after a list of puts. -/
def plantAll (puts : List (String × β)) : Trie β :=
  puts.foldl (fun t p => (t.put p.1 (some p.2)).1) Trie.newTrie

theorem plantAll_append_singleton (puts : List (String × β)) (p : String × β) :
    plantAll (puts ++ [p]) = ((plantAll puts).put p.1 (some p.2)).1 := by
  simp only [plantAll, List.foldl_append, List.foldl_cons, List.foldl_nil]

/-- Some put with this data really ends at the address. -/
def Owns (puts : List (String × β)) (a : List Edge) (b : β) : Prop :=
  ∃ p ∈ puts, IsReal (split p.1) ∧ addr (split p.1) = a ∧ p.2 = b

theorem owns_append_singleton {puts : List (String × β)} {p : String × β} {a : List Edge} {b : β} :
    Owns (puts ++ [p]) a b ↔
      Owns puts a b ∨ (IsReal (split p.1) ∧ addr (split p.1) = a ∧ p.2 = b) := by
  simp only [Owns, List.mem_append, List.mem_singleton, or_and_right, exists_or, exists_eq_left]

/-- A node says what the puts say about its address. -/
structure Mark.Fits (puts : List (String × β)) (a : List Edge) (m : Mark β) : Prop where
  /-- Its data come from a put that ends there. -/
  owned : ∀ b, m.bizInfo = some b → Owns puts a b
  /-- It has data if a put ends there. -/
  isSome : (∃ b, Owns puts a b) → m.bizInfo.isSome
  /-- It is flagged only if a put ends there. -/
  of_flag : m.endOfPath = true → ∃ b, Owns puts a b
  /-- It is flagged if a put ends there, unless it is a `**`. -/
  flag : a.getLast? ≠ some .all → (∃ b, Owns puts a b) → m.endOfPath = true

/-- A trie has the nodes the puts made, and each says what the puts say. -/
structure Planted (puts : List (String × β)) (t : Trie β) : Prop where
  exists_iff : ∀ a, a ≠ [] → ((t.root.look a).isSome ↔ ∃ p ∈ puts, a <+: addr (split p.1))
  fits : ∀ a m, a ≠ [] → t.root.look a = some m → m.Fits puts a

theorem planted_nil : Planted ([] : List (String × β)) Trie.newTrie where
  exists_iff := by
    intro a ha
    obtain ⟨e, es, rfl⟩ := List.exists_cons_of_ne_nil ha
    simp [Trie.newTrie, Node.look_fresh_cons]
  fits := by
    intro a m ha hm
    obtain ⟨e, es, rfl⟩ := List.exists_cons_of_ne_nil ha
    simp [Trie.newTrie, Node.look_fresh_cons] at hm

theorem Planted.not_owns {puts : List (String × β)} {t : Trie β} (ht : Planted puts t)
    {a : List Edge} (hne : a ≠ []) (hlook : t.root.look a = none) : ¬ ∃ b, Owns puts a b := by
  rintro ⟨b, p, hp, -, haddr, -⟩
  have hsome := (ht.exists_iff a hne).2 ⟨p, hp, haddr ▸ List.prefix_refl _⟩
  rw [hlook] at hsome
  simp at hsome

/-- The mark a put leaves at its own address. -/
theorem Planted.fits_own {puts : List (String × β)} {t : Trie β} (ht : Planted puts t)
    (p : String × β) (hreal : IsReal (split p.1)) {m : Mark β}
    (hm : (t.put p.1 (some p.2)).1.root.look (addr (split p.1)) = some m) :
    m.Fits (puts ++ [p]) (addr (split p.1)) := by
  have hne : addr (split p.1) ≠ [] := addr_ne_nil (split_ne_nil _)
  have hown : Owns (puts ++ [p]) (addr (split p.1)) p.2 :=
    owns_append_singleton.2 (Or.inr ⟨hreal, rfl, rfl⟩)
  have hmono : ∀ b, Owns puts (addr (split p.1)) b → Owns (puts ++ [p]) (addr (split p.1)) b :=
    fun b hb => owns_append_singleton.2 (Or.inl hb)
  rw [Trie.look_put, Node.putLook_addr hreal] at hm
  cases hold : t.root.look (addr (split p.1)) with
  | none =>
    rw [hold] at hm
    obtain rfl : (⟨true, some p.2⟩ : Mark β) = m := by simpa [Node.plantMark] using hm
    exact ⟨fun b hb => Option.some.inj hb ▸ hown, fun _ => rfl, fun _ => ⟨_, hown⟩, fun _ _ => rfl⟩
  | some old =>
    have hfits := ht.fits _ old hne hold
    rw [hold] at hm
    by_cases hflag : old.endOfPath = true
    · obtain rfl : old = m := by simpa [Node.plantMark, hflag] using hm
      exact ⟨fun b hb => hmono b (hfits.owned b hb), fun _ => hfits.isSome (hfits.of_flag hflag),
        fun _ => ⟨_, hown⟩, fun _ _ => hflag⟩
    · obtain rfl : (⟨(addr (split p.1)).getLast?.getD .all != .all, some p.2⟩ : Mark β) = m := by
        simpa [Node.plantMark, hflag] using hm
      refine ⟨fun b hb => Option.some.inj hb ▸ hown, fun _ => rfl, fun _ => ⟨_, hown⟩, ?_⟩
      intro hlast _
      have hsome : (addr (split p.1)).getLast? ≠ none := by simp [hne]
      obtain ⟨e, he⟩ := Option.ne_none_iff_exists'.1 hsome
      rw [he, Ne, Option.some_inj] at hlast
      simpa [he] using hlast

theorem Planted.put {puts : List (String × β)} {t : Trie β} (ht : Planted puts t)
    (p : String × β) : Planted (puts ++ [p]) (t.put p.1 (some p.2)).1 where
  exists_iff := by
    intro a hne
    simp only [List.mem_append, List.mem_singleton, or_and_right, exists_or, exists_eq_left]
    rw [Trie.look_put, ← ht.exists_iff a hne]
    by_cases hpre : a <+: addr (split p.1)
    · exact iff_of_true (Node.putLook_isSome hne hpre _ _) (Or.inr hpre)
    · rw [Node.putLook_off_path hpre]
      simp [hpre]
  fits := by
    intro a m hne hm
    by_cases hown : IsReal (split p.1) ∧ addr (split p.1) = a
    · obtain ⟨hreal, rfl⟩ := hown
      exact ht.fits_own p hreal hm
    · have howns : ∀ b, Owns (puts ++ [p]) a b ↔ Owns puts a b := by
        intro b
        rw [owns_append_singleton]
        exact ⟨fun h => h.elim id fun h => absurd ⟨h.1, h.2.1⟩ hown, Or.inl⟩
      suffices m.Fits puts a by
        obtain ⟨h₁, h₂, h₃, h₄⟩ := this
        exact ⟨by simpa only [howns] using h₁, by simpa only [howns] using h₂,
          by simpa only [howns] using h₃, by simpa only [howns] using h₄⟩
      rw [Trie.look_put, Node.putLook, if_neg (fun h => hown ⟨h.2, h.1.symm⟩)] at hm
      cases hold : t.root.look a with
      | none =>
        have hnot := ht.not_owns hne hold
        rw [hold] at hm
        by_cases hpre : a ≠ [] ∧ a <+: addr (split p.1)
        · rw [if_pos hpre] at hm
          obtain rfl : (Mark.blank : Mark β) = m := by simpa using hm
          exact ⟨by simp [Mark.blank], fun h => absurd h hnot, by simp [Mark.blank],
            fun _ h => absurd h hnot⟩
        · rw [if_neg hpre] at hm
          simp at hm
      | some old =>
        rw [hold] at hm
        obtain rfl : old = m := by
          by_cases hpre : a ≠ [] ∧ a <+: addr (split p.1)
          · simpa [hpre] using hm
          · rw [if_neg hpre] at hm
            exact Option.some.inj hm
        exact ht.fits a old hne hold

/-- **A trie built by puts** has exactly their nodes and their data. -/
theorem planted_plantAll (puts : List (String × β)) : Planted puts (plantAll puts) := by
  induction puts using List.reverseRecOn with
  | nil => exact planted_nil
  | append_singleton puts p ih =>
    rw [plantAll_append_singleton]
    exact ih.put p

end Planted

/-! ## Entries -/

/-- What a route puts into the trie of one method. -/
structure Entry where
  method : String
  /-- The path segments of the key. -/
  segs : List String
  key : String
  candidate : RouteCandidate
  /-- The key is the method text followed by the path segments. -/
  split_key : Text.split '/' key = Text.split '/' method ++ segs

namespace Entry

/-- The candidate list the node of an entry points to. -/
def identity (e : Entry) : String := trieRouteIdentity e.key

/-- The node of an entry. -/
def addr (e : Entry) : List Edge := Routing.addr (split e.key)

/-- The key of an entry is walked to its end. -/
def IsReal (e : Entry) : Prop := Routing.IsReal (split e.key)

end Entry

/-- The path segments of the keys of a route. -/
def Router.trieSegs (r : Router) : List String :=
  pathSegments (if r.routerMatch.pre ≠ "" then prefixPattern r.routerMatch.pre
    else r.routerMatch.path)

theorem Router.textSplit_trieKey (r : Router) (m : String) :
    Text.split '/' (r.trieKey m) = Text.split '/' m ++ r.trieSegs := by
  rw [Router.trieKey, getTrieKeyWithPrefix, Router.trieSegs]
  by_cases h : r.routerMatch.pre ≠ ""
  · simp only [h, ne_eq, not_false_eq_true, decide_true, if_true, textSplit_getTrieKey]
  · simp only [h, decide_false, Bool.false_eq_true, if_false, textSplit_getTrieKey]

/-- The entry of a route for one of its methods. -/
def Router.entry (r : Router) (headers : List CompiledHeader) (m : String) : Entry :=
  ⟨m, r.trieSegs, r.trieKey m, ⟨headers, r.route⟩, r.textSplit_trieKey m⟩

section

variable (compile : String → Option (String → Bool))

/-- The entries of a route, one for each method; a header-only route has none. -/
def Router.entries (r : Router) : List Entry :=
  if r.isHeaderOnly then []
  else r.trieMethods.map (r.entry (compileHeaders compile r.routerMatch.headers))

/-- The entries of a list of routes. -/
def entries (routes : List Router) : List Entry := routes.flatMap (Router.entries compile)

/-- The header-only routes of a list of routes. -/
def headerRoutes (routes : List Router) : List HeaderRoute :=
  (routes.filter Router.isHeaderOnly).map fun r =>
    ⟨r.routerMatch.methods, compileHeaders compile r.routerMatch.headers, r.route⟩

end

/-! ## Identities and addresses -/

theorem normalSegment_eq_iff {k k' : String} :
    normalSegment k = normalSegment k' ↔ edge k = edge k' := by
  have hstar : isPathVariableOrWildcard "*" = true := by decide
  unfold normalSegment edge isMatchAll
  by_cases h : isPathVariableOrWildcard k = true
  · by_cases h' : isPathVariableOrWildcard k' = true
    · simp [h, h']
    · have hne : "*" ≠ k' := fun hc => h' (hc ▸ hstar)
      rw [if_pos h, if_neg h', if_pos h, if_neg h']
      refine iff_of_false hne ?_
      split_ifs <;> simp
  · by_cases h' : isPathVariableOrWildcard k' = true
    · have hne : k ≠ "*" := fun hc => h (hc ▸ hstar)
      rw [if_neg h, if_pos h', if_neg h, if_pos h']
      refine iff_of_false hne ?_
      split_ifs <;> simp
    · rw [if_neg h, if_neg h', if_neg h, if_neg h']
      by_cases hk : k = "**"
      · by_cases hk' : k' = "**"
        · simp [hk, hk']
        · exact iff_of_false (fun hc => hk' (hc ▸ hk)) (by simp [hk, hk'])
      · by_cases hk' : k' = "**"
        · exact iff_of_false (fun hc => hk (hc ▸ hk')) (by simp [hk, hk'])
        · simp [hk, hk']

theorem map_normalSegment_eq_iff (ps qs : List String) :
    ps.map normalSegment = qs.map normalSegment ↔ ps.map edge = qs.map edge := by
  induction ps generalizing qs with
  | nil => simp
  | cons p ps ih =>
    cases qs with
    | nil => simp
    | cons q qs => simp only [List.map_cons, List.cons.injEq, normalSegment_eq_iff, ih]

theorem textSplit_trieRouteIdentity {key p : String} {ps : List String}
    (h : Text.split '/' key = p :: ps) :
    Text.split '/' (trieRouteIdentity key) = p :: ps.map normalSegment := by
  rw [trieRouteIdentity, h]
  dsimp only
  split_ifs with hany
  · refine Text.split_join (by simp) ?_
    intro q hq
    rcases List.mem_cons.1 hq with rfl | hq
    · exact Text.not_mem_of_mem_split (h ▸ List.mem_cons_self ..)
    · obtain ⟨k, hk, rfl⟩ := List.mem_map.1 hq
      rw [normalSegment]
      split_ifs
      · decide
      · exact Text.not_mem_of_mem_split (h ▸ List.mem_cons_of_mem _ hk)
  · rw [h]
    have hid : ∀ k ∈ ps, normalSegment k = k := by
      intro k hk
      rw [normalSegment, if_neg]
      exact fun hc => hany (List.any_eq_true.2 ⟨k, hk, hc⟩)
    rw [List.map_congr_left hid, List.map_id']

namespace Entry

/-- Two entries with plain methods share a candidate list exactly when they have the same
method and the same path up to parameter names. -/
theorem identity_eq_iff {e e' : Entry} (h : '/' ∉ e.method.toList) (h' : '/' ∉ e'.method.toList) :
    e.identity = e'.identity ↔ e.method = e'.method ∧ e.segs.map edge = e'.segs.map edge := by
  have hsplit : ∀ {e : Entry}, '/' ∉ e.method.toList →
      Text.split '/' e.identity = e.method :: e.segs.map normalSegment := by
    intro e he
    refine textSplit_trieRouteIdentity ?_
    rw [e.split_key, Text.split_of_not_mem he, List.singleton_append]
  calc e.identity = e'.identity
      ↔ Text.split '/' e.identity = Text.split '/' e'.identity := Text.split_inj.symm
    _ ↔ e.method = e'.method ∧ e.segs.map normalSegment = e'.segs.map normalSegment := by
        rw [hsplit h, hsplit h', List.cons.injEq]
    _ ↔ e.method = e'.method ∧ e.segs.map edge = e'.segs.map edge := by
        rw [map_normalSegment_eq_iff]

theorem split_of_isWord {e : Entry} (h : IsWord e.method) : split e.key = e.method :: e.segs := by
  have hsplit : Text.split '/' e.key = e.method :: e.segs := by
    rw [e.split_key, Text.split_of_not_mem h.2, List.singleton_append]
  have hhead : e.key.toList.head? ≠ some '/' := by
    rw [← Text.join_split '/' e.key, hsplit, Text.head?_join_cons]
    cases hm : e.method.toList.head? with
    | none => exact absurd (by simpa using hm) h.1
    | some c => simpa [hm] using h.head_ne
  rw [split, Text.trimLeft_of_head_ne hhead, hsplit]

/-- Entries of one plain method at one node share their candidate list. -/
theorem identity_eq_of_addr {e e' : Entry} (hm : IsWord e.method) (hm' : e'.method = e.method)
    (hr : e.IsReal) (hr' : e'.IsReal) (ha : e'.addr = e.addr) : e'.identity = e.identity := by
  rw [addr, addr, addr_of_isReal hr, addr_of_isReal hr', split_of_isWord hm,
    split_of_isWord (hm' ▸ hm), List.map_cons, List.map_cons, List.cons.injEq] at ha
  exact (identity_eq_iff (hm' ▸ hm.2) hm.2).2 ⟨hm', ha.2⟩

/-- An entry that shares its candidate list with one whose key is walked to its end has a
path with `**` only last. -/
theorem isReal_segs_of_identity {e e' : Entry} (hm : IsWord e.method) (hr : e.IsReal)
    (hid : e'.identity = e.identity) : Routing.IsReal e'.segs := by
  obtain ⟨p, qs, hqs⟩ := List.exists_cons_of_ne_nil (Text.split_ne_nil '/' e'.method)
  have hsplit' : Text.split '/' e'.key = p :: (qs ++ e'.segs) := by rw [e'.split_key, hqs]; rfl
  have hsplit : Text.split '/' e.key = e.method :: e.segs := by
    rw [e.split_key, Text.split_of_not_mem hm.2, List.singleton_append]
  have hedges : (qs ++ e'.segs).map edge = e.segs.map edge := by
    rw [← map_normalSegment_eq_iff]
    have hparts := textSplit_trieRouteIdentity hsplit'
    rw [show trieRouteIdentity e'.key = trieRouteIdentity e.key from hid,
      textSplit_trieRouteIdentity hsplit] at hparts
    exact (List.cons.inj hparts).2.symm
  rw [IsReal, split_of_isWord hm, isReal_iff, List.map_cons, ← hedges, List.map_append] at hr
  rw [isReal_iff]
  intro hall
  have hne : e'.segs.map edge ≠ [] := by
    rintro hnil
    rw [hnil] at hall
    simp at hall
  refine hr ?_
  rw [← List.cons_append, List.dropLast_append_of_ne_nil hne]
  exact List.mem_append_right _ hall

end Entry

/-! ## What the snapshot holds -/

/-- The puts into the trie of one method. -/
def putsOf (es : List Entry) (m : String) : List (String × BizInfo) :=
  (es.filter (·.method = m)).map fun e => (e.key, .candidates e.identity)

/-- A snapshot holds exactly these header-only routes and entries. -/
structure Holds (s : RouteSnapshot) (hs : List HeaderRoute) (es : List Entry) : Prop where
  headerOnly : s.headerOnly = hs
  tries : ∀ m, (s.methodTries m).getD Trie.newTrie = plantAll (putsOf es m)
  candidates : ∀ i, (s.routeCandidates i).getD [] = (es.filter (·.identity = i)).map (·.candidate)

theorem Holds.addTrieRoute {s : RouteSnapshot} {hs : List HeaderRoute} {es : List Entry}
    (h : Holds s hs es) (r : Router) (headers : List CompiledHeader) (m : String) :
    Holds (s.addTrieRoute r headers m) hs (es ++ [r.entry headers m]) where
  headerOnly := h.headerOnly
  tries := by
    intro m'
    simp only [RouteSnapshot.addTrieRoute, putsOf, List.filter_append, List.map_append]
    by_cases hm : m' = m
    · subst hm
      rw [Function.update_self, Option.getD_some, h.tries]
      have hself : ([r.entry headers m'].filter (·.method = m')).map
          (fun e => (e.key, BizInfo.candidates e.identity)) =
            [(r.trieKey m', BizInfo.candidates (trieRouteIdentity (r.trieKey m')))] := by
        simp [Router.entry, Entry.identity]
      rw [hself, plantAll_append_singleton]
      rfl
    · rw [Function.update_of_ne hm, h.tries]
      have hother : [r.entry headers m].filter (·.method = m') = [] := by
        simpa [Router.entry] using Ne.symm hm
      rw [hother, List.map_nil, List.append_nil, putsOf]
  candidates := by
    intro i
    simp only [RouteSnapshot.addTrieRoute, List.filter_append, List.map_append]
    by_cases hi : i = trieRouteIdentity (r.trieKey m)
    · subst hi
      rw [Function.update_self, Option.getD_some, h.candidates]
      simp [Router.entry, Entry.identity]
    · rw [Function.update_of_ne hi, h.candidates]
      have hother : [r.entry headers m].filter (·.identity = i) = [] := by
        simp [Router.entry, Entry.identity, Ne.symm hi]
      rw [hother, List.map_nil, List.append_nil]

/-- The method loop adds one entry per method. -/
theorem Holds.addTrieRoutes {s : RouteSnapshot} {hs : List HeaderRoute} {es : List Entry}
    (h : Holds s hs es) (r : Router) (headers : List CompiledHeader) (ms : List String) :
    Holds (ms.foldl (fun s m => s.addTrieRoute r headers m) s) hs
      (es ++ ms.map (r.entry headers)) := by
  induction ms generalizing s es with
  | nil => simpa using h
  | cons m ms ih =>
    have hstep := ih (h.addTrieRoute r headers m)
    rwa [List.append_assoc, List.singleton_append] at hstep

theorem Holds.addRoute {s : RouteSnapshot} {hs : List HeaderRoute} {es : List Entry}
    (compile : String → Option (String → Bool)) (h : Holds s hs es) (r : Router) :
    Holds (s.addRoute compile r) (hs ++ headerRoutes compile [r]) (es ++ r.entries compile) := by
  rw [RouteSnapshot.addRoute, Router.entries]
  by_cases hr : r.isHeaderOnly = true
  · rw [if_pos hr, if_pos hr, List.append_nil]
    exact ⟨by simp [headerRoutes, hr, h.headerOnly], h.tries, h.candidates⟩
  · rw [if_neg hr, if_neg hr]
    have hnone : headerRoutes compile [r] = [] := by simp [headerRoutes, hr]
    rw [hnone, List.append_nil]
    exact h.addTrieRoutes r _ _

/-- **A snapshot holds the entries of its routes**, and nothing else. -/
theorem holds_toSnapshot (compile : String → Option (String → Bool)) (routes : List Router) :
    Holds (toSnapshot compile routes) (headerRoutes compile routes) (entries compile routes) := by
  induction routes using List.reverseRecOn with
  | nil => exact ⟨rfl, fun m => rfl, fun i => rfl⟩
  | append_singleton routes r ih =>
    have hstep := ih.addRoute compile r
    have hhs : headerRoutes compile (routes ++ [r]) =
        headerRoutes compile routes ++ headerRoutes compile [r] := by
      simp [headerRoutes, List.filter_append]
    have hes : entries compile (routes ++ [r]) = entries compile routes ++ r.entries compile := by
      simp [entries]
    rw [hhs, hes, toSnapshot, List.foldl_append]
    exact hstep

/-! ## What a lookup finds -/

/-- The address answers the request: a route really ends there, and one of the candidates
its node points to has matching headers. -/
def Serves (es : List Entry) (m : String) (req : Request) (a : List Edge) : Prop :=
  ∃ e ∈ es, e.method = m ∧ e.IsReal ∧ e.addr = a ∧
    ∃ e' ∈ es, e'.identity = e.identity ∧ matchHeaders e'.candidate.headers req = true

/-- The address ends the search without an answer: a route passed `**` there on its way
and none ends there. -/
def Hole (es : List Entry) (m : String) (a : List Edge) : Prop :=
  (∃ e ∈ es, e.method = m ∧ e.addr = a) ∧ ¬ ∃ e ∈ es, e.method = m ∧ e.IsReal ∧ e.addr = a

theorem Serves.not_hole {es : List Entry} {m : String} {req : Request} {a : List Edge}
    (h : Serves es m req a) : ¬ Hole es m a := by
  obtain ⟨e, he, hm, hr, ha, -⟩ := h
  exact fun hole => hole.2 ⟨e, he, hm, hr, ha⟩

theorem owns_putsOf {es : List Entry} {m : String} {a : List Edge} {b : BizInfo} :
    Owns (putsOf es m) a b ↔
      ∃ e ∈ es, e.method = m ∧ e.IsReal ∧ e.addr = a ∧ BizInfo.candidates e.identity = b := by
  constructor
  · rintro ⟨p, hp, hr, ha, hb⟩
    obtain ⟨e, he, rfl⟩ := List.mem_map.1 hp
    rw [List.mem_filter, decide_eq_true_iff] at he
    exact ⟨e, he.1, he.2, hr, ha, hb⟩
  · rintro ⟨e, he, hm, hr, ha, hb⟩
    exact ⟨_, List.mem_map.2 ⟨e, List.mem_filter.2 ⟨he, by simpa using hm⟩, rfl⟩, hr, ha, hb⟩

theorem exists_putsOf {es : List Entry} {m : String} {a : List Edge} :
    (∃ p ∈ putsOf es m, a <+: addr (split p.1)) ↔ ∃ e ∈ es, e.method = m ∧ a <+: e.addr := by
  constructor
  · rintro ⟨p, hp, ha⟩
    obtain ⟨e, he, rfl⟩ := List.mem_map.1 hp
    rw [List.mem_filter, decide_eq_true_iff] at he
    exact ⟨e, he.1, he.2, ha⟩
  · rintro ⟨e, he, hm, ha⟩
    exact ⟨_, List.mem_map.2 ⟨e, List.mem_filter.2 ⟨he, by simpa using hm⟩, rfl⟩, ha⟩

/-- A candidate list suits a request exactly when one of its entries does. -/
theorem Holds.firstMatching_isSome {s : RouteSnapshot} {hs : List HeaderRoute} {es : List Entry}
    (h : Holds s hs es) (i : String) (req : Request) :
    (firstMatchingCandidate ((s.routeCandidates i).getD []) (some req)).isSome ↔
      ∃ e ∈ es, e.identity = i ∧ matchHeaders e.candidate.headers req = true := by
  rw [h.candidates, firstMatchingCandidate, List.find?_isSome]
  constructor
  · rintro ⟨c, hc, hmatch⟩
    obtain ⟨e, he, rfl⟩ := List.mem_map.1 hc
    rw [List.mem_filter, decide_eq_true_iff] at he
    exact ⟨e, he.1, he.2, hmatch⟩
  · rintro ⟨e, he, hi, hmatch⟩
    exact ⟨_, List.mem_map.2 ⟨e, List.mem_filter.2 ⟨he, by simpa using hi⟩, rfl⟩, hmatch⟩

/-- What the search makes of one address: it is skipped, it answers, or it is a hole. -/
inductive Verdict (s : RouteSnapshot) (es : List Entry) (m : String) (req : Request)
    (a : List Edge) : Option (Node BizInfo) → Prop where
  | skip (hserves : ¬ Serves es m req a) (hhole : ¬ Hole es m a) : Verdict s es m req a none
  | answer (c : Node BizInfo) (i : String) (hbiz : c.bizInfo = some (.candidates i))
      (hmatch : (firstMatchingCandidate ((s.routeCandidates i).getD []) (some req)).isSome)
      (hserves : Serves es m req a) : Verdict s es m req a (some c)
  | hole (c : Node BizInfo) (hbiz : c.bizInfo = none) (hhole : Hole es m a) :
      Verdict s es m req a (some c)

/-- Visiting an address of the trie of a plain method. -/
theorem Holds.verdict {s : RouteSnapshot} {hs : List HeaderRoute} {es : List Entry}
    (h : Holds s hs es) {m : String} (hm : IsWord m) (req : Request) {a : List Edge}
    (hne : a ≠ []) :
    Verdict s es m req a ((plantAll (putsOf es m)).root.visit (s.accepts (some req)) a) := by
  have hplanted := planted_plantAll (putsOf es m)
  set t := plantAll (putsOf es m)
  have hexists := hplanted.exists_iff a hne
  rw [exists_putsOf] at hexists
  cases hat : t.root.at? a with
  | none =>
    have hnone : ¬ ∃ e ∈ es, e.method = m ∧ a <+: e.addr := by
      rw [← hexists]
      simp [Node.look, hat]
    rw [Node.visit, hat]
    refine .skip ?_ ?_
    · rintro ⟨e, he, hem, -, rfl, -⟩
      exact hnone ⟨e, he, hem, List.prefix_refl _⟩
    · rintro ⟨⟨e, he, hem, rfl⟩, -⟩
      exact hnone ⟨e, he, hem, List.prefix_refl _⟩
  | some c =>
    have hlook : t.root.look a = some c.mark := by simp [Node.look, hat]
    have hfits := hplanted.fits a _ hne hlook
    by_cases hown : ∃ b, Owns (putsOf es m) a b
    · -- a route ends here, so the node points to its candidates
      obtain ⟨b, hb⟩ := Option.isSome_iff_exists.1 (hfits.isSome hown)
      obtain ⟨e, he, hem, hreal, ha, rfl⟩ := owns_putsOf.1 (hfits.owned b hb)
      have hbiz : c.bizInfo = some (.candidates e.identity) := hb
      have helig : eligible a c = true := by
        by_cases hlast : a.getLast? = some .all
        · simp [eligible, hlast]
        · have hflag := hfits.flag hlast hown
          rw [Node.mark_endOfPath] at hflag
          simp [eligible, hflag]
      have hacc : s.accepts (some req) c =
          (firstMatchingCandidate ((s.routeCandidates e.identity).getD []) (some req)).isSome := by
        simp only [RouteSnapshot.accepts, hbiz]
      by_cases hmatch :
          (firstMatchingCandidate ((s.routeCandidates e.identity).getD []) (some req)).isSome
      · have hvisit : t.root.visit (s.accepts (some req)) a = some c := by
          simp [Node.visit, hat, helig, hacc, hmatch, Option.filter]
        rw [hvisit]
        exact .answer c e.identity hbiz hmatch
          ⟨e, he, hem, hreal, ha, (h.firstMatching_isSome _ _).1 hmatch⟩
      · have hvisit : t.root.visit (s.accepts (some req)) a = none := by
          simp [Node.visit, hat, hacc, hmatch, Option.filter]
        rw [hvisit]
        refine .skip ?_ fun hole => hole.2 ⟨e, he, hem, hreal, ha⟩
        rintro ⟨e₂, he₂, hem₂, hreal₂, ha₂, e', he', hi', hmatch'⟩
        refine hmatch ((h.firstMatching_isSome _ _).2 ⟨e', he', ?_, hmatch'⟩)
        rw [hi']
        exact Entry.identity_eq_of_addr (hem ▸ hm) (hem₂.trans hem.symm) hreal hreal₂
          (ha₂.trans ha.symm)
    · -- no route ends here: an inner node, or a `**` left behind
      have hreal : ¬ ∃ e ∈ es, e.method = m ∧ e.IsReal ∧ e.addr = a := by
        rintro ⟨e, he, hem, hr, ha⟩
        exact hown ⟨_, owns_putsOf.2 ⟨e, he, hem, hr, ha, rfl⟩⟩
      have hbiz : c.bizInfo = none := by
        by_contra hc
        obtain ⟨b, hb⟩ := Option.ne_none_iff_exists'.1 hc
        exact hown ⟨b, hfits.owned b hb⟩
      have hflag : c.endOfPath = false := by
        by_contra hc
        exact hown (hfits.of_flag (by simpa using hc))
      have hacc : s.accepts (some req) c = true := by simp only [RouteSnapshot.accepts, hbiz]
      by_cases hlast : a.getLast? = some .all
      · have hvisit : t.root.visit (s.accepts (some req)) a = some c := by
          simp [Node.visit, hat, eligible, hlast, hacc, Option.filter]
        rw [hvisit]
        obtain ⟨e, he, hem, hpre⟩ := hexists.1 (by simp [hlook])
        exact .hole c hbiz ⟨⟨e, he, hem, (eq_addr_of_prefix_all hpre hlast).symm⟩, hreal⟩
      · have hvisit : t.root.visit (s.accepts (some req)) a = none := by
          simp [Node.visit, hat, eligible, hlast, hflag, Option.filter]
        rw [hvisit]
        refine .skip ?_ ?_
        · rintro ⟨e, he, hem, hr, ha, -⟩
          exact hreal ⟨e, he, hem, hr, ha⟩
        · rintro ⟨⟨e, he, hem, ha⟩, -⟩
          have hnot : ¬ e.IsReal := fun hr => hreal ⟨e, he, hem, hr, ha⟩
          exact hlast (ha ▸ addr_getLast_of_not_isReal hnot)

theorem Holds.visit_isSome {s : RouteSnapshot} {hs : List HeaderRoute} {es : List Entry}
    (h : Holds s hs es) {m : String} (hm : IsWord m) (req : Request) {a : List Edge}
    (hne : a ≠ []) :
    ((plantAll (putsOf es m)).root.visit (s.accepts (some req)) a).isSome ↔
      Serves es m req a ∨ Hole es m a := by
  have hv := h.verdict hm req hne
  cases hvisit : (plantAll (putsOf es m)).root.visit (s.accepts (some req)) a with
  | none =>
    rw [hvisit] at hv
    cases hv with
    | skip hserves hhole => simp [hserves, hhole]
  | some c =>
    rw [hvisit] at hv
    cases hv with
    | answer _ i hbiz hmatch hserves => simp [hserves]
    | hole _ hbiz hhole => simp [hhole]

open Classical in
/-- The first address of a search where it stops. -/
noncomputable def firstStop (es : List Entry) (m : String) (req : Request) (l : List (List Edge)) :
    Option (List Edge) :=
  l.find? fun a => Serves es m req a ∨ Hole es m a

/-- The first candidate of an identity whose headers match. -/
def firstCandidate (es : List Entry) (identity : String) (req : Request) : Option Entry :=
  es.find? fun e => e.identity = identity ∧ matchHeaders e.candidate.headers req = true

/-- How the search of one trie ends: it does not stop, it stops at a hole, or it stops at the node
of a route and takes the first candidate there. -/
inductive Outcome (es : List Entry) (m : String) (req : Request) (l : List (List Edge)) :
    Option RouteAction → Prop where
  | miss (hstop : firstStop es m req l = none) : Outcome es m req l none
  | hole (a : List Edge) (hstop : firstStop es m req l = some a) (hhole : Hole es m a) :
      Outcome es m req l none
  | answer (owner e : Entry) (hstop : firstStop es m req l = some owner.addr) (howner : owner ∈ es)
      (hmethod : owner.method = m) (hreal : owner.IsReal)
      (hfirst : firstCandidate es owner.identity req = some e) :
      Outcome es m req l (some e.candidate.action)

theorem Holds.firstMatchingCandidate_eq {s : RouteSnapshot} {hs : List HeaderRoute}
    {es : List Entry}
    (h : Holds s hs es) (i : String) (req : Request) :
    firstMatchingCandidate ((s.routeCandidates i).getD []) (some req) =
      (firstCandidate es i req).map (·.candidate) := by
  rw [h.candidates, firstMatchingCandidate, List.find?_map, List.find?_filter, firstCandidate]
  congr 2
  funext e
  by_cases hi : e.identity = i <;> simp [hi]

/-- **The lookup in one trie** never fails, and ends as the search does. -/
theorem Holds.matchInTrie_outcome {s : RouteSnapshot} {hs : List HeaderRoute} {es : List Entry}
    (h : Holds s hs es) {m : String} (hm : IsWord m) (key : String) (req : Request) :
    ∃ r, s.matchInTrie (s.methodTries m) key (some req) = .ok r ∧
      Outcome es m req (traversal (split (Text.before '?' key))) r := by
  classical
  set l := traversal (split (Text.before '?' key)) with hl
  set t := plantAll (putsOf es m) with ht
  have hfind : l.find? (fun a => (t.root.visit (s.accepts (some req)) a).isSome) =
      firstStop es m req l := by
    rw [firstStop]
    refine List.find?_congr fun a ha => ?_
    rw [Bool.eq_iff_iff, decide_eq_true_iff]
    exact h.visit_isSome hm req (ne_nil_of_mem_traversal ha)
  have htrie := h.tries m
  rw [← ht] at htrie
  cases hmt : s.methodTries m with
  | none =>
    have hempty : firstStop es m req l = none := by
      rw [← hfind, List.find?_eq_none]
      intro a ha
      obtain ⟨e, es', rfl⟩ := List.exists_cons_of_ne_nil (ne_nil_of_mem_traversal ha)
      rw [hmt, Option.getD_none] at htrie
      simp [← htrie, Node.visit, Trie.newTrie]
    exact ⟨none, rfl, .miss hempty⟩
  | some t' =>
    obtain rfl : t' = t := by simpa [hmt] using htrie
    have haddr : t.matchAddr key (s.accepts (some req)) = firstStop es m req l := hfind
    simp only [RouteSnapshot.matchInTrie, Trie.matchWithPredicate_eq, haddr]
    cases hstop : firstStop es m req l with
    | none => exact ⟨none, rfl, .miss hstop⟩
    | some a =>
      obtain ⟨hmem, hvisit⟩ := Trie.visit_matchAddr (haddr.trans hstop)
      have hne := ne_nil_of_mem_traversal hmem
      obtain ⟨c, hc⟩ := Option.isSome_iff_exists.1 hvisit
      have hat : t.root.at? a = some c := (Option.filter_eq_some_iff.1 hc).1
      have hv := h.verdict hm req hne
      rw [← ht, hc] at hv
      simp only [hat, Option.bind_some, Option.map_some]
      cases hv with
      | answer _ i hbiz hmatch hserves =>
        have hlook : t.root.look a = some c.mark := by simp [Node.look, hat]
        obtain ⟨owner, howner, hmethod, hreal, rfl, hid⟩ :=
          owns_putsOf.1 (((planted_plantAll (putsOf es m)).fits a _ hne hlook).owned _ hbiz)
        obtain rfl := BizInfo.candidates.inj hid
        rw [h.firstMatchingCandidate_eq, Option.isSome_map] at hmatch
        obtain ⟨e, he⟩ := Option.isSome_iff_exists.1 hmatch
        refine ⟨some e.candidate.action, ?_, .answer owner e hstop howner hmethod hreal he⟩
        rw [hbiz]
        simp only [h.firstMatchingCandidate_eq, he, Option.map_some]
      | hole _ hbiz hhole => exact ⟨none, by rw [hbiz], .hole a hstop hhole⟩

/-- An answer needs an address that serves. -/
theorem Serves.of_answer {es : List Entry} {m : String} {req : Request} {owner e : Entry}
    (howner : owner ∈ es) (hmethod : owner.method = m) (hreal : owner.IsReal)
    (hfirst : firstCandidate es owner.identity req = some e) : Serves es m req owner.addr := by
  have hmatch := List.find?_some hfirst
  rw [decide_eq_true_iff] at hmatch
  exact ⟨owner, howner, hmethod, hreal, rfl, e, List.mem_of_find?_eq_some hfirst, hmatch.1,
    hmatch.2⟩

/-- The lookup in one trie never fails, and finds an action exactly when the search comes
to an address that serves the request before it comes to a hole. -/
theorem Holds.matchInTrie_isSome {s : RouteSnapshot} {hs : List HeaderRoute} {es : List Entry}
    (h : Holds s hs es) {m : String} (hm : IsWord m) (key : String) (req : Request) :
    ∃ r, s.matchInTrie (s.methodTries m) key (some req) = .ok r ∧
      (r.isSome ↔ Search.FindsBefore (Serves es m req) (Hole es m)
        (traversal (split (Text.before '?' key)))) := by
  classical
  obtain ⟨r, hr, hout⟩ := h.matchInTrie_outcome hm key req
  refine ⟨r, hr, ?_⟩
  have hfinds : Search.FindsBefore (Serves es m req) (Hole es m)
      (traversal (split (Text.before '?' key))) ↔
      ∃ a, firstStop es m req (traversal (split (Text.before '?' key))) = some a ∧
        Serves es m req a :=
    Search.findsBefore_iff_find? (fun a _ => decide_eq_true_iff) fun a _ hs => hs.not_hole
  rw [hfinds]
  cases hout with
  | miss hstop => simp [hstop]
  | hole a hstop hhole => simpa [hstop] using fun hs : Serves es m req a => hs.not_hole hhole
  | answer owner e hstop howner hmethod hreal hfirst =>
    simpa [hstop] using Serves.of_answer howner hmethod hreal hfirst

/-- The two lookups of a request find an action. -/
def Finds (es : List Entry) (req : Request) : Prop :=
  ∃ m, (m = req.method ∨ m = "*") ∧ Search.FindsBefore (Serves es m req) (Hole es m)
    (traversal (req.method :: pathSegments req.path))

theorem Request.notMem_method (req : Request) {c : Char} (hc : isTokenChar c = false) :
    c ∉ req.method.toList := by
  intro h
  have := List.all_eq_true.1 req.isToken.2 c h
  rw [hc] at this
  exact Bool.false_ne_true this

theorem Request.isWord (req : Request) : IsWord req.method :=
  ⟨req.isToken.1, req.notMem_method (by decide)⟩

theorem isWord_star : IsWord "*" := ⟨by decide, by decide⟩

/-- The segments the tries are searched for. -/
theorem Request.parts (req : Request) :
    split (Text.before '?' (getTrieKey req.method req.path)) =
      req.method :: pathSegments req.path := by
  rw [Text.before_of_not_mem (query_notMem_getTrieKey (req.notMem_method (by decide)) _),
    split_getTrieKey req.isWord]

theorem RouteSnapshot.lookup_isOk {s : RouteSnapshot} {method key : String} {req : Option Request}
    {r r' : Option RouteAction} (hr : s.matchInTrie (s.methodTries method) key req = .ok r)
    (hr' : s.matchInTrie (s.methodTries "*") key req = .ok r') :
    (s.lookup method key req).isOk = true ↔ r.isSome ∨ r'.isSome := by
  rw [RouteSnapshot.lookup, hr]
  cases r with
  | some act => simp [Except.isOk, Except.toBool]
  | none =>
    by_cases hm : method = "*"
    · subst hm
      obtain rfl : none = r' := by rw [hr] at hr'; exact Except.ok.inj hr'
      simp [Except.isOk, Except.toBool]
    · rw [hr']
      cases r' <;> simp [hm, Except.isOk, Except.toBool]

/-- **What a request gets**: the first header-only route that suits it decides, and without
one the two lookups do. -/
theorem Holds.route_isOk {s : RouteSnapshot} {hs : List HeaderRoute} {es : List Entry}
    (h : Holds s hs es) (req : Request) :
    (route (some s) req).isOk = true ↔
      match hs.find? fun hr => methodAllowed hr.methods req.method && matchHeaders hr.headers
        req with
      | some hr => hr.action.cluster ≠ ""
      | none => Finds es req := by
  rw [route, h.headerOnly]
  cases hs.find? fun hr => methodAllowed hr.methods req.method && matchHeaders hr.headers req with
  | some hr => by_cases hc : hr.action.cluster = "" <;> simp [hc, Except.isOk, Except.toBool]
  | none =>
    obtain ⟨r, hr, hfind⟩ := h.matchInTrie_isSome req.isWord (getTrieKey req.method req.path) req
    obtain ⟨r', hr', hfind'⟩ :=
      h.matchInTrie_isSome isWord_star (getTrieKey req.method req.path) req
    rw [req.parts] at hfind hfind'
    simp only [RouteSnapshot.lookup_isOk hr hr', hfind, hfind', Finds, or_and_right, exists_or,
      exists_eq_left]

end Pixiu.Routing
