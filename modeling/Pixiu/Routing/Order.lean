import Pixiu.Routing.Entries

/-!
# Which pattern wins

`Pixiu.Routing.Traversal` reduces the search of `Match` to a list of addresses.  This file says what
that list is without the list: which patterns match a path, and which of two matching patterns is
tried first.

* `patternMatches` — `:x` and `*` match one segment, `**` matches the rest, which may be nothing
  right after a literal;
* `rank` — how a pattern takes a path, level by level, so that patterns can be compared;
* `rank_lt_of_find?` — the search tries lower ranks first;
* `matchWithPredicate_spec` — **a trie built by puts** finds a node exactly when a stored pattern
  matches and is accepted, namely that of the lowest rank, with the segments at its parameters.
-/

namespace Pixiu.Routing

open Pixiu

variable {β : Type}

/-! ## Patterns and paths -/

/-- Does a pattern match a path? -/
def patternMatches : List Edge → List String → Bool
  | [.all], _ :: _ => true
  | [.lit k, .all], [s] => k == s
  | [], [] => true
  | .lit k :: es, s :: ss => k == s && patternMatches es ss
  | .var :: es, _ :: ss => patternMatches es ss
  | _, _ => false

/-- How a pattern takes the segments of a path, one after another: a literal comes before a
parameter, and that before `**`.  A `**` that stands for nothing after a final literal comes between
the two last. -/
def rank : List Edge → List String → List ℕ
  | [.lit _, .all], [_] => [2]
  | .lit _ :: es, _ :: ss => 0 :: rank es ss
  | .var :: es, _ :: ss => 1 :: rank es ss
  | .all :: _, _ => [3]
  | _, _ => []

/-- The pattern of a key. -/
def patternOf (withOutHost : String) : List Edge := (split withOutHost).map edge

/-- The segments of a requested path. -/
def requestSegments (withOutHost : String) : List String := split (Text.before '?' withOutHost)

/-- The segments at the parameters of a pattern, in path order. -/
def segmentsAtParams (a : List Edge) (parts : List String) : List String :=
  ((a.zip parts).filter (·.1 = .var)).map Prod.snd

theorem patternMatches_singleton {a : List Edge} {s : String} :
    patternMatches a [s] = true ↔ a = [.lit s] ∨ a = [.var] ∨ a = [.lit s, .all] ∨ a = [.all] := by
  rcases a with - | ⟨e, - | ⟨e₂, - | ⟨e₃, es⟩⟩⟩
  · simp [patternMatches]
  · cases e <;> simp [patternMatches]
  · cases e <;> cases e₂ <;> simp [patternMatches]
  · cases e <;> cases e₂ <;> simp [patternMatches]

theorem patternMatches_lit_cons {k s s₂ : String} {es : List Edge} {ss : List String} :
    patternMatches (.lit k :: es) (s :: s₂ :: ss) = (k == s && patternMatches es (s₂ :: ss)) := by
  rcases es with - | ⟨e, - | ⟨e₂, es⟩⟩
  · rfl
  · cases e <;> rfl
  · cases e <;> rfl

theorem patternMatches_cons_cons {a : List Edge} {s s₂ : String} {ss : List String} :
    patternMatches a (s :: s₂ :: ss) = true ↔
      a = [.all] ∨ ∃ b, (a = .lit s :: b ∨ a = .var :: b) ∧ patternMatches b (s₂ :: ss) = true := by
  rcases a with - | ⟨e, es⟩
  · simp [patternMatches]
  · cases e with
    | lit k =>
      rw [patternMatches_lit_cons, Bool.and_eq_true, beq_iff_eq]
      constructor
      · rintro ⟨rfl, h⟩
        exact Or.inr ⟨es, Or.inl rfl, h⟩
      · rintro (h | ⟨b, h | h, hb⟩)
        · cases h
        · cases h
          exact ⟨rfl, hb⟩
        · cases h
    | var => simp [patternMatches]
    | all => cases es <;> simp [patternMatches]

/-- A pattern that matches anything has `**` only last. -/
theorem all_notMem_dropLast_of_patternMatches {a : List Edge} {parts : List String}
    (h : patternMatches a parts = true) : Edge.all ∉ a.dropLast := by
  fun_induction patternMatches a parts with
  | case1 => simp
  | case2 => simp
  | case3 => simp
  | case4 k es s ss _ ih =>
    rw [Bool.and_eq_true] at h
    cases es with
    | nil => simp
    | cons e es => simpa using ih h.2
  | case5 es s ss ih =>
    cases es with
    | nil => simp
    | cons e es => simpa using ih h
  | case6 => cases h

/-- **The search visits** the patterns that match. -/
theorem mem_traversal_iff {parts : List String} (hparts : parts ≠ []) {a : List Edge} :
    a ∈ traversal parts ↔ patternMatches a parts = true := by
  induction parts generalizing a with
  | nil => exact absurd rfl hparts
  | cons s ss ih =>
    cases ss with
    | nil => simp [traversal, patternMatches_singleton]
    | cons s₂ ss =>
      have hrest : ∀ b, b ∈ traversal (s₂ :: ss) ↔ patternMatches b (s₂ :: ss) = true :=
        fun b => ih (List.cons_ne_nil _ _)
      have hall : patternMatches [.all] (s₂ :: ss) = true := rfl
      rw [mem_traversal_cons, patternMatches_cons_cons]
      constructor
      · rintro (h | rfl | ⟨h, -⟩ | ⟨b, hb, h⟩)
        · exact Or.inl h
        · exact Or.inr ⟨[.all], Or.inl rfl, hall⟩
        · cases h
        · exact Or.inr ⟨b, h, (hrest b).1 hb⟩
      · rintro (h | ⟨b, h, hb⟩)
        · exact Or.inl h
        · exact Or.inr (Or.inr (Or.inr ⟨b, (hrest b).2 hb, h⟩))

/-! ## The order of the search -/

theorem rank_lit_cons {k s s₂ : String} {es : List Edge} {ss : List String} :
    rank (.lit k :: es) (s :: s₂ :: ss) = 0 :: rank es (s₂ :: ss) := by
  rcases es with - | ⟨e, - | ⟨e₂, es⟩⟩
  · rfl
  · cases e <;> rfl
  · cases e <;> rfl

theorem rank_var_cons {s : String} {es : List Edge} {ss : List String} :
    rank (.var :: es) (s :: ss) = 1 :: rank es ss := by
  cases es <;> rfl

theorem rank_all {parts : List String} : rank [.all] parts = [3] := by
  cases parts <;> rfl

/-- The order at the last segment. -/
theorem rank_lt_of_find?_singleton {k : String} {p : List Edge → Bool} {a b : List Edge}
    (hfind : (traversal [k]).find? p = some a) (hb : b ∈ traversal [k]) (hpb : p b = true)
    (hne : b ≠ a) :
    rank a [k] < rank b [k] := by
  simp only [traversal, List.mem_cons, List.not_mem_nil, or_false] at hb
  simp only [traversal, List.find?_cons_eq_some, List.find?_nil, Bool.not_eq_true', reduceCtorEq,
    and_false, or_false] at hfind
  rcases hfind with ⟨-, rfl⟩ | ⟨hlit, ⟨-, rfl⟩ | ⟨hvar, ⟨-, rfl⟩ | ⟨hlitAll, -, rfl⟩⟩⟩
  · rcases hb with rfl | rfl | rfl | rfl
    · exact absurd rfl hne
    · exact show [0] < [1] by decide
    · exact show [0] < [2] by decide
    · exact show [0] < [3] by decide
  · rcases hb with rfl | rfl | rfl | rfl
    · rw [hlit] at hpb
      cases hpb
    · exact absurd rfl hne
    · exact show [1] < [2] by decide
    · exact show [1] < [3] by decide
  · rcases hb with rfl | rfl | rfl | rfl
    · rw [hlit] at hpb
      cases hpb
    · rw [hvar] at hpb
      cases hpb
    · exact absurd rfl hne
    · exact show [2] < [3] by decide
  · rcases hb with rfl | rfl | rfl | rfl
    · rw [hlit] at hpb
      cases hpb
    · rw [hvar] at hpb
      cases hpb
    · rw [hlitAll] at hpb
      cases hpb
    · exact absurd rfl hne

/-- What a search over several segments finds: below the literal child, or failing that below the
parameter, or failing that `**` itself.  The literal's own `**` has been tried with the literal. -/
theorem find?_traversal_cons_cons {k k₂ : String} {ks : List String} {p : List Edge → Bool}
    {a : List Edge}
    (hfind : (traversal (k :: k₂ :: ks)).find? p = some a) :
    (∃ b, a = .lit k :: b ∧ (traversal (k₂ :: ks)).find? (fun b => p (.lit k :: b)) = some b) ∨
      (∀ b ∈ traversal (k₂ :: ks), p (.lit k :: b) = false) ∧
        ((∃ b, a = .var :: b ∧ (traversal (k₂ :: ks)).find? (fun b => p (.var :: b)) = some b) ∨
          (∀ b ∈ traversal (k₂ :: ks), p (.var :: b) = false) ∧ a = [.all]) := by
  have hall : [Edge.all] ∈ traversal (k₂ :: ks) := (mem_traversal_iff (List.cons_ne_nil _ _)).2 rfl
  rw [traversal, List.find?_append, List.find?_append, List.find?_map, List.find?_map] at hfind
  cases hlit : (traversal (k₂ :: ks)).find? (p ∘ (Edge.lit k :: ·)) with
  | some b =>
    rw [hlit, Option.map_some, Option.some_or] at hfind
    exact Or.inl ⟨b, (Option.some.inj hfind).symm, hlit⟩
  | none =>
    have hnolit : ∀ b ∈ traversal (k₂ :: ks), p (.lit k :: b) = false :=
      fun b hb => Bool.not_eq_true _ ▸ List.find?_eq_none.1 hlit b hb
    rw [hlit, Option.map_none, Option.none_or] at hfind
    refine Or.inr ⟨hnolit, ?_⟩
    cases hvar : (traversal (k₂ :: ks)).find? (p ∘ (Edge.var :: ·)) with
    | some b =>
      rw [hvar, Option.map_some, Option.some_or] at hfind
      exact Or.inl ⟨b, (Option.some.inj hfind).symm, hvar⟩
    | none =>
      rw [hvar, Option.map_none, Option.none_or, List.find?_cons_of_neg (by simp [hnolit _ hall]),
        List.find?_cons_eq_some] at hfind
      refine Or.inr ⟨fun b hb => Bool.not_eq_true _ ▸ List.find?_eq_none.1 hvar b hb, ?_⟩
      rcases hfind with ⟨-, h⟩ | ⟨-, h⟩
      · exact h.symm
      · cases h

/-- **The search tries lower ranks first**: what it finds comes before everything else that it would
have taken. -/
theorem rank_lt_of_find? {parts : List String} {p : List Edge → Bool} {a b : List Edge}
    (hfind : (traversal parts).find? p = some a) (hb : b ∈ traversal parts) (hpb : p b = true)
    (hne : b ≠ a) :
    rank a parts < rank b parts := by
  induction parts generalizing p a b with
  | nil => simp [traversal] at hb
  | cons k ks ih =>
    cases ks with
    | nil => exact rank_lt_of_find?_singleton hfind hb hpb hne
    | cons k₂ ks =>
      have hrest : ∀ c, patternMatches c (k₂ :: ks) = true → c ∈ traversal (k₂ :: ks) :=
        fun c => (mem_traversal_iff (List.cons_ne_nil _ _)).2
      rw [mem_traversal_iff (List.cons_ne_nil _ _), patternMatches_cons_cons] at hb
      rcases find?_traversal_cons_cons hfind with ⟨c, rfl, hc⟩ |
        ⟨hnolit, ⟨c, rfl, hc⟩ | ⟨hnovar, rfl⟩⟩
      · rw [rank_lit_cons]
        rcases hb with rfl | ⟨d, rfl | rfl, hd⟩
        · rw [rank_all]
          exact List.Lex.rel (by decide)
        · rw [rank_lit_cons]
          exact List.Lex.cons (ih hc (hrest d hd) hpb fun h => hne (h ▸ rfl))
        · rw [rank_var_cons]
          exact List.Lex.rel (by decide)
      · rw [rank_var_cons]
        rcases hb with rfl | ⟨d, rfl | rfl, hd⟩
        · rw [rank_all]
          exact List.Lex.rel (by decide)
        · exact absurd hpb (Bool.not_eq_true _ ▸ hnolit d (hrest d hd))
        · rw [rank_var_cons]
          exact List.Lex.cons (ih hc (hrest d hd) hpb fun h => hne (h ▸ rfl))
      · rcases hb with rfl | ⟨d, rfl | rfl, hd⟩
        · exact absurd rfl hne
        · exact absurd hpb (Bool.not_eq_true _ ▸ hnolit d (hrest d hd))
        · exact absurd hpb (Bool.not_eq_true _ ▸ hnovar d (hrest d hd))

/-- The search collects the segments at the parameters, last one first. -/
theorem reverse_paramsOf {a : List Edge} {parts : List String} (h : Edge.all ∉ a.dropLast) :
    (paramsOf a parts).reverse = segmentsAtParams a parts := by
  induction a generalizing parts with
  | nil => simp [paramsOf, segmentsAtParams]
  | cons e es ih =>
    cases parts with
    | nil => cases e <;> simp [paramsOf, segmentsAtParams]
    | cons k ks =>
      have hes : Edge.all ∉ es.dropLast := by
        cases es with
        | nil => simp
        | cons e₂ es => exact fun hmem => h (List.mem_cons_of_mem _ hmem)
      cases e with
      | lit s => simpa [paramsOf, segmentsAtParams] using ih hes
      | var => simpa [paramsOf, segmentsAtParams] using ih hes
      | all =>
        -- nothing follows a `**`
        cases es with
        | nil => simp [paramsOf, segmentsAtParams]
        | cons e₂ es => exact absurd (List.mem_cons_self ..) h

/-! ## A trie built by puts -/

section Planted

variable {puts : List (String × β)} {predicate : Node β → Bool} {withOutHost : String}

/-- The node of a key is there and the predicate accepts it. -/
def Accepted (t : Trie β) (predicate : Node β → Bool) (key : String) : Prop :=
  ∃ node, t.root.at? (patternOf key) = some node ∧ predicate node = true

/-- A stored pattern that matches the request and whose node is accepted. -/
structure Applies (puts : List (String × β)) (predicate : Node β → Bool) (withOutHost : String)
    (p : String × β) : Prop where
  stored : p ∈ puts
  matching : patternMatches (patternOf p.1) (requestSegments withOutHost) = true
  accepted : Accepted (plantAll puts) predicate p.1

theorem addr_eq_patternOf {key : String} (h : IsReal (split key)) :
    addr (split key) = patternOf key :=
  addr_of_isReal h

/-- The search takes a node exactly when it is that of a stored pattern and accepted. -/
theorem visit_isSome_iff (hlast : ∀ p ∈ puts, IsReal (split p.1)) {a : List Edge} (ha : a ≠ []) :
    ((plantAll puts).root.visit predicate a).isSome ↔
      ∃ p ∈ puts, patternOf p.1 = a ∧ Accepted (plantAll puts) predicate p.1 := by
  have ht := planted_plantAll puts
  have hexists : ((plantAll puts).root.at? a).isSome ↔ ∃ p ∈ puts, a <+: addr (split p.1) := by
    simpa [Node.look] using ht.exists_iff a ha
  rw [Node.visit, Option.isSome_filter, Option.any_eq_true]
  constructor
  · rintro ⟨node, hat, hok⟩
    obtain ⟨heligible, haccept⟩ := Bool.and_eq_true_iff.1 hok
    -- either kind of eligible node is where a put ended
    obtain ⟨p, hp, haddr⟩ : ∃ p ∈ puts, addr (split p.1) = a := by
      rw [eligible, Bool.or_eq_true, beq_iff_eq] at heligible
      rcases heligible with hall | hflag
      · obtain ⟨p, hp, hpre⟩ := hexists.1 (Option.isSome_of_eq_some hat)
        exact ⟨p, hp, (eq_addr_of_prefix_all hpre hall).symm⟩
      · obtain ⟨b, p, hp, -, haddr, -⟩ :=
          (ht.fits a node.mark ha (by rw [Node.look, hat]; rfl)).of_flag hflag
        exact ⟨p, hp, haddr⟩
    rw [addr_eq_patternOf (hlast p hp)] at haddr
    exact ⟨p, hp, haddr, node, haddr ▸ hat, haccept⟩
  · rintro ⟨p, hp, rfl, node, hat, haccept⟩
    refine ⟨node, hat, Bool.and_eq_true_iff.2 ⟨?_, haccept⟩⟩
    rw [eligible, Bool.or_eq_true, beq_iff_eq]
    by_cases hall : (patternOf p.1).getLast? = some .all
    · exact Or.inl hall
    · exact Or.inr ((ht.fits _ node.mark ha (by rw [Node.look, hat]; rfl)).flag hall
        ⟨p.2, p, hp, hlast p hp, addr_eq_patternOf (hlast p hp), rfl⟩)

theorem matchAddr_isSome_iff (hlast : ∀ p ∈ puts, IsReal (split p.1)) :
    ((plantAll puts).matchAddr withOutHost predicate).isSome ↔
      ∃ p, Applies puts predicate withOutHost p := by
  have hparts : requestSegments withOutHost ≠ [] := split_ne_nil _
  rw [Trie.matchAddr, List.find?_isSome]
  constructor
  · rintro ⟨a, ha, hvisit⟩
    obtain ⟨p, hp, rfl, haccept⟩ := (visit_isSome_iff hlast (ne_nil_of_mem_traversal ha)).1 hvisit
    exact ⟨p, hp, (mem_traversal_iff hparts).1 ha, haccept⟩
  · rintro ⟨p, hp, hmatch, haccept⟩
    have hmem := (mem_traversal_iff hparts).2 hmatch
    exact ⟨_, hmem, (visit_isSome_iff hlast (ne_nil_of_mem_traversal hmem)).2 ⟨p, hp, rfl, haccept⟩⟩

/-- **The match of a trie built by puts.**  It succeeds exactly when a stored pattern matches and
its node is accepted; the node is that of the first such pattern; the parameters are the segments at
that pattern's parameters. -/
theorem matchWithPredicate_spec (puts : List (String × β)) (hlast : ∀ p ∈ puts, IsReal (split p.1))
    (withOutHost : String) (predicate : Node β → Bool) :
    (((plantAll puts).matchWithPredicate withOutHost predicate).isSome ↔
        ∃ p, Applies puts predicate withOutHost p) ∧
      ∀ node params, (plantAll puts).matchWithPredicate withOutHost predicate =
        some (node, params) →
        ∃ p, Applies puts predicate withOutHost p ∧
          (plantAll puts).root.at? (patternOf p.1) = some node ∧
          params = segmentsAtParams (patternOf p.1) (requestSegments withOutHost) ∧
          ∀ q, Applies puts predicate withOutHost q → patternOf q.1 ≠ patternOf p.1 →
            rank (patternOf p.1) (requestSegments withOutHost) <
              rank (patternOf q.1) (requestSegments withOutHost) := by
  have hparts : requestSegments withOutHost ≠ [] := split_ne_nil _
  rw [Trie.matchWithPredicate_eq]
  constructor
  · rw [← matchAddr_isSome_iff hlast]
    cases h : (plantAll puts).matchAddr withOutHost predicate with
    | none => simp
    | some a =>
      obtain ⟨ha, hvisit⟩ := Trie.visit_matchAddr h
      obtain ⟨p, -, rfl, node, hat, -⟩ :=
        (visit_isSome_iff hlast (ne_nil_of_mem_traversal ha)).1 hvisit
      simp [hat]
  · intro node params hmatch
    obtain ⟨a, haddr, hnode⟩ := Option.bind_eq_some_iff.1 hmatch
    obtain ⟨node', hat, heq⟩ := Option.map_eq_some_iff.1 hnode
    obtain ⟨rfl, rfl⟩ := Prod.mk.inj heq
    obtain ⟨ha, hvisit⟩ := Trie.visit_matchAddr haddr
    obtain ⟨p, hp, rfl, haccept⟩ := (visit_isSome_iff hlast (ne_nil_of_mem_traversal ha)).1 hvisit
    have hdrop : Edge.all ∉ (patternOf p.1).dropLast :=
      addr_eq_patternOf (hlast p hp) ▸ all_notMem_dropLast_addr (split p.1)
    refine ⟨p, ⟨hp, (mem_traversal_iff hparts).1 ha, haccept⟩, hat, reverse_paramsOf hdrop, ?_⟩
    intro q hq hne
    have hmem := (mem_traversal_iff hparts).2 hq.matching
    exact rank_lt_of_find? haddr hmem
      ((visit_isSome_iff hlast (ne_nil_of_mem_traversal hmem)).2 ⟨q, hq.stored, rfl, hq.accepted⟩)
        hne

/-- Of `/a/:x` and `/a/**`, the first is found, with its parameter. -/
theorem matchWithPredicate_spec_param :
    ∃ p, Applies [("/a/**", 1), ("/a/:x", 2)] (fun _ => true) "/a/b" p ∧
      ((plantAll [("/a/**", 1), ("/a/:x", 2)]).matchWithPredicate "/a/b" fun _ => true).isSome := by
  have hlast : ∀ p ∈ [("/a/**", 1), ("/a/:x", 2)], IsReal (split p.1) := by decide +kernel
  have hsome : ((plantAll [("/a/**", 1), ("/a/:x", 2)]).matchWithPredicate "/a/b" fun _ =>
      true).isSome := by
    decide +kernel
  obtain ⟨p, hp⟩ := (matchWithPredicate_spec _ hlast "/a/b" fun _ => true).1.1 hsome
  exact ⟨p, hp, hsome⟩

end Planted

end Pixiu.Routing
