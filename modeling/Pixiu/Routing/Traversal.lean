import Pixiu.Routing.Access

/-!
# The traversal order of `Match`

`Node.match` backtracks: literal child, then parameter child, then `**`.  Which
addresses it visits does not depend on the tree, only on the request, so the
whole search is one list of addresses, `traversal`, and the search is "the first
visited node that is accepted":

* `matchParts_eq` — `match` is `findSome?` over `traversal`;
* `matchAddr`, `matchWithPredicate_eq` — the address of the node that
  `MatchWithPredicate` returns;
* `covers` — when a pattern matches a path, segment by segment, read off the
  pattern and not off the search;
* `mem_traversal` — **what the search visits**: every pattern that covers the
  path, except that a trailing `**` is not visited for its own base path when the
  segment before it is a parameter.
-/

namespace Pixiu.Routing

variable {β : Type}

/-! ## The visited addresses -/

/-- The addresses `Node.match` visits, in its order. -/
def traversal : List String → List (List Edge)
  | [] => []
  | [k] => [[.lit k], [.var], [.lit k, .all], [.all]]
  | k :: k₂ :: ks =>
      (traversal (k₂ :: ks)).map (.lit k :: ·) ++
        ((traversal (k₂ :: ks)).map (.var :: ·) ++ [[.lit k, .all], [.all]])

/-- A `**` node is a candidate as soon as it exists, any other only if a path ends there. -/
def eligible (a : List Edge) (n : Node β) : Bool := a.getLast? == some .all || n.endOfPath

/-- The request segments at the parameters of an address, last one first. -/
def paramsOf : List Edge → List String → List String
  | .var :: es, k :: ks => paramsOf es ks ++ [k]
  | .lit _ :: es, _ :: ks => paramsOf es ks
  | _, _ => []

theorem eligible_cons {e : Edge} {es : List Edge} (hes : es ≠ []) :
    eligible (β := β) (e :: es) = eligible es := by
  obtain ⟨e₂, es₂, rfl⟩ := List.exists_cons_of_ne_nil hes
  funext c
  rw [eligible, eligible, List.getLast?_cons_cons]

theorem ne_nil_of_mem_traversal {parts : List String} {a : List Edge} (h : a ∈ traversal parts) :
    a ≠ [] := by
  rcases parts with - | ⟨k, - | ⟨k₂, ks⟩⟩
  · simp [traversal] at h
  · simp only [traversal, List.mem_cons, List.not_mem_nil, or_false] at h
    rcases h with rfl | rfl | rfl | rfl <;> simp
  · simp only [traversal, List.mem_append, List.mem_map, List.mem_cons, List.not_mem_nil,
      or_false] at h
    rcases h with ⟨b, -, rfl⟩ | ⟨b, -, rfl⟩ | rfl | rfl <;> simp

namespace Node

/-- The visit of one address: the node there, if it is eligible and accepted. -/
def visit (predicate : Node β → Bool) (n : Node β) (a : List Edge) : Option (Node β) :=
  (n.at? a).filter fun c => eligible a c && predicate c

theorem visit_cons {predicate : Node β → Bool} {n : Node β} {e : Edge} {es : List Edge}
    (hes : es ≠ []) :
    n.visit predicate (e :: es) = (n.child? e).bind (visit predicate · es) := by
  rw [visit, at?_cons, eligible_cons hes]
  cases n.child? e <;> rfl

theorem visit_lit (predicate : Node β → Bool) (n : Node β) (k : String) :
    n.visit predicate [.lit k] = n.matchLiteralEnd k predicate := by
  rw [visit, at?_cons, matchLiteralEnd]
  cases n.child? (.lit k) <;> rfl

theorem visit_var (predicate : Node β → Bool) (n : Node β) :
    n.visit predicate [.var] = n.matchPathVariableEnd predicate := by
  rw [visit, at?_cons, matchPathVariableEnd, child?]
  cases n.pathVariableNode <;> rfl

theorem visit_all (predicate : Node β → Bool) (n : Node β) :
    n.visit predicate [.all] = n.matchAllNode.filter predicate := by
  rw [visit, at?_cons, child?]
  cases n.matchAllNode <;> rfl

theorem visit_lit_all (predicate : Node β → Bool) (n : Node β) (k : String) :
    n.visit predicate [.lit k, .all] = (n.matchAllChild k).filter predicate := by
  rw [visit_cons (by simp), matchAllChild]
  cases n.child? (.lit k) with
  | none => rfl
  | some c => exact visit_all predicate c

/-- The last two addresses of every traversal are those of `matchAll`. -/
theorem matchAll_eq (predicate : Node β → Bool) (n : Node β) (k : String) (ks : List String) :
    n.matchAll k predicate = [[.lit k, .all], [.all]].findSome? fun a =>
      (n.visit predicate a).map (·, paramsOf a (k :: ks)) := by
  simp only [List.findSome?_cons, List.findSome?_nil, visit_lit_all, visit_all, matchAll, paramsOf]
  cases (n.matchAllChild k).filter predicate with
  | some c => cases ks <;> rfl
  | none => cases n.matchAllNode.filter predicate <;> rfl

/-- Visiting below one child is visiting the same addresses one edge longer. -/
theorem findSome?_below (predicate : Node β → Bool) (n : Node β) (e : Edge) (k : String)
    (parts : List String) (g : List String → List String)
    (hg : ∀ es, paramsOf (e :: es) (k :: parts) = g (paramsOf es parts)) :
    (((traversal parts).map (e :: ·)).findSome? fun a =>
        (n.visit predicate a).map (·, paramsOf a (k :: parts))) =
      (n.child? e).bind fun c => ((traversal parts).findSome? fun a =>
        (c.visit predicate a).map (·, paramsOf a parts)).map fun r => (r.1, g r.2) := by
  rw [List.findSome?_map]
  cases hc : n.child? e with
  | none =>
    rw [Option.bind_none, List.findSome?_eq_none_iff]
    intro a ha
    simp [visit_cons (ne_nil_of_mem_traversal ha), hc]
  | some c =>
    rw [Option.bind_some, List.map_findSome?, ← List.head?_filterMap, ← List.head?_filterMap]
    refine congrArg List.head? (List.filterMap_congr ?_)
    intro a ha
    simp only [Function.comp_apply, visit_cons (ne_nil_of_mem_traversal ha), hc, Option.bind_some,
      Option.map_map, hg]
    rfl

/-- **The search is its traversal**: `match` returns the first visited node that is
eligible and accepted, with the request segments at the parameters of its address. -/
theorem matchParts_eq (predicate : Node β → Bool) (parts : List String) :
    ∀ n : Node β, n.matchParts predicate parts = (traversal parts).findSome? fun a =>
      (n.visit predicate a).map (·, paramsOf a parts) := by
  induction parts with
  | nil => intro n; rfl
  | cons k ks ih =>
    intro n
    cases ks with
    | nil =>
      have hall := matchAll_eq predicate n k []
      simp only [List.findSome?_cons, List.findSome?_nil] at hall
      simp only [matchParts, matchEnd, hall, traversal, List.findSome?_cons, List.findSome?_nil,
        visit_lit, visit_var, paramsOf]
      cases n.matchLiteralEnd k predicate with
      | some c => rfl
      | none =>
        cases n.matchPathVariableEnd predicate with
        | some c => rfl
        | none => rfl
    | cons k₂ ks =>
      rw [matchParts, traversal, List.findSome?_append, List.findSome?_append,
        findSome?_below predicate n (.lit k) k (k₂ :: ks) id fun es => rfl,
        findSome?_below predicate n .var k (k₂ :: ks) (· ++ [k]) fun es => rfl,
        ← matchAll_eq predicate n k (k₂ :: ks)]
      simp only [ih]
      cases n.child? (.lit k) <;> cases hv : n.pathVariableNode <;> simp [child?, hv]

end Node

namespace Trie

/-- The address of the first visited node that is eligible and accepted. -/
def matchAddr (t : Trie β) (withOutHost : String) (predicate : Node β → Bool) :
    Option (List Edge) :=
  (traversal (split (Text.before '?' withOutHost))).find? fun a =>
    (t.root.visit predicate a).isSome

theorem visit_matchAddr {t : Trie β} {withOutHost : String} {predicate : Node β → Bool}
    {a : List Edge} (h : t.matchAddr withOutHost predicate = some a) :
    a ∈ traversal (split (Text.before '?' withOutHost)) ∧ (t.root.visit predicate a).isSome := by
  rw [matchAddr] at h
  have hsome := List.find?_some h
  exact ⟨List.mem_of_find?_eq_some h, hsome⟩

/-- `MatchWithPredicate` returns the node at `matchAddr` and the request segments at
the parameters of that address, in path order. -/
theorem matchWithPredicate_eq (t : Trie β) (withOutHost : String) (predicate : Node β → Bool) :
    t.matchWithPredicate withOutHost predicate =
      (t.matchAddr withOutHost predicate).bind fun a =>
        (t.root.at? a).map (·, (paramsOf a (split (Text.before '?' withOutHost))).reverse) := by
  rw [matchWithPredicate, Node.matchParts_eq, matchAddr]
  set parts := split (Text.before '?' withOutHost)
  induction traversal parts with
  | nil => rfl
  | cons a as ih =>
    rw [List.findSome?_cons, List.find?_cons]
    cases hv : t.root.visit predicate a with
    | none => exact ih
    | some c =>
      obtain ⟨hat, -⟩ := Option.filter_eq_some_iff.1 hv
      simp [hat]

end Trie

/-! ## What the search visits -/

/-- Does a pattern match a path?  A literal equals its segment, a parameter takes any
one segment, a trailing `**` takes whatever is left, nothing included. -/
def covers : List Edge → List String → Bool
  | [.all], _ => true
  | [], [] => true
  | .lit k :: es, s :: ss => k == s && covers es ss
  | .var :: es, _ :: ss => covers es ss
  | _, _ => false

/-- The pattern is a parameter followed by `**`, and the path stops at the parameter. -/
def stopsAtParam (a : List Edge) (parts : List String) : Prop :=
  a.length = parts.length + 1 ∧ a.dropLast.getLast? = some .var

instance (a : List Edge) (parts : List String) : Decidable (stopsAtParam a parts) :=
  inferInstanceAs (Decidable (_ ∧ _))

theorem mem_traversal_cons {s : String} {ss : List String} {a : List Edge} :
    a ∈ traversal (s :: ss) ↔ a = [.all] ∨ a = [.lit s, .all] ∨
      (ss = [] ∧ (a = [.lit s] ∨ a = [.var])) ∨
      ∃ b ∈ traversal ss, a = .lit s :: b ∨ a = .var :: b := by
  cases ss with
  | nil =>
    simp only [traversal, List.mem_cons, List.not_mem_nil, or_false, true_and, false_and,
      exists_false]
    tauto
  | cons s₂ ss =>
    simp only [traversal, List.mem_append, List.mem_map, List.mem_cons, List.not_mem_nil, or_false,
      reduceCtorEq, false_and, false_or]
    constructor
    · rintro (⟨b, hb, rfl⟩ | ⟨b, hb, rfl⟩ | h | h)
      · exact Or.inr (Or.inr ⟨b, hb, Or.inl rfl⟩)
      · exact Or.inr (Or.inr ⟨b, hb, Or.inr rfl⟩)
      · exact Or.inr (Or.inl h)
      · exact Or.inl h
    · rintro (h | h | ⟨b, hb, rfl | rfl⟩)
      · exact Or.inr (Or.inr (Or.inr h))
      · exact Or.inr (Or.inr (Or.inl h))
      · exact Or.inl ⟨b, hb, rfl⟩
      · exact Or.inr (Or.inl ⟨b, hb, rfl⟩)

theorem covers_nil_right {a : List Edge} : covers a [] = true ↔ a = [] ∨ a = [.all] := by
  rcases a with - | ⟨e, - | ⟨e₂, es⟩⟩
  · simp [covers]
  · cases e <;> simp [covers]
  · cases e <;> simp [covers]

theorem covers_cons_right {a : List Edge} {s : String} {ss : List String} :
    covers a (s :: ss) = true ↔
      a = [.all] ∨ ∃ b, (a = .lit s :: b ∨ a = .var :: b) ∧ covers b ss = true := by
  rcases a with - | ⟨e, es⟩
  · simp [covers]
  · cases e with
    | lit k =>
      simp only [covers, Bool.and_eq_true, beq_iff_eq, List.cons.injEq, reduceCtorEq, false_and,
        false_or, Edge.lit.injEq, or_false]
      constructor
      · rintro ⟨rfl, h⟩
        exact ⟨es, ⟨rfl, rfl⟩, h⟩
      · rintro ⟨b, ⟨rfl, rfl⟩, h⟩
        exact ⟨rfl, h⟩
    | var => simp [covers]
    | all => cases es <;> simp [covers]

/-- A trailing `**` adds to what a pattern covers. -/
theorem covers_append_all {a : List Edge} (ha : Edge.all ∉ a) :
    ∀ {parts : List String}, covers a parts = true → covers (a ++ [.all]) parts = true := by
  induction a with
  | nil => intro parts _; cases parts <;> rfl
  | cons e es ih =>
    have hes : Edge.all ∉ es := fun h => ha (List.mem_cons_of_mem _ h)
    intro parts h
    cases parts with
    | nil => cases e <;> cases es <;> simp_all [covers]
    | cons s ss =>
      cases e with
      | lit k =>
        simp only [covers, Bool.and_eq_true, List.cons_append] at h ⊢
        exact ⟨h.1, ih hes h.2⟩
      | var =>
        simp only [covers, List.cons_append] at h ⊢
        exact ih hes h
      | all => exact absurd (List.mem_cons_self ..) ha

/-- One more leading segment does not change whether a path stops at a parameter. -/
theorem stopsAtParam_cons {e : Edge} {b : List Edge} {s : String} {ss : List String}
    (hss : ss ≠ []) : stopsAtParam (e :: b) (s :: ss) ↔ stopsAtParam b ss := by
  simp only [stopsAtParam, List.length_cons, Nat.add_right_cancel_iff]
  refine and_congr_right fun hlen => ?_
  have hpos : 0 < ss.length := List.length_pos_iff.2 hss
  obtain ⟨e₁, e₂, es, rfl⟩ : ∃ e₁ e₂ es, b = e₁ :: e₂ :: es := by
    rcases b with - | ⟨e₁, - | ⟨e₂, es⟩⟩
    · simp at hlen
    · simp only [List.length_cons, List.length_nil] at hlen
      omega
    · exact ⟨e₁, e₂, es, rfl⟩
  simp only [List.dropLast_cons_cons, List.getLast?_cons_cons]

/-- **What the search visits**: the patterns that cover the path, except a parameter
followed by `**` when the path stops at the parameter. -/
theorem mem_traversal {parts : List String} (hparts : parts ≠ []) :
    ∀ a : List Edge, a ∈ traversal parts ↔ covers a parts = true ∧ ¬ stopsAtParam a parts := by
  induction parts with
  | nil => exact absurd rfl hparts
  | cons s ss ih =>
    intro a
    rw [mem_traversal_cons, covers_cons_right]
    by_cases hss : ss = []
    · subst hss
      simp only [traversal, List.not_mem_nil, false_and, exists_false, or_false, true_and,
        covers_nil_right]
      constructor
      · rintro (rfl | rfl | rfl | rfl)
        · exact ⟨Or.inl rfl, by simp [stopsAtParam]⟩
        · exact ⟨Or.inr ⟨[.all], Or.inl rfl, Or.inr rfl⟩, by simp [stopsAtParam]⟩
        · exact ⟨Or.inr ⟨[], Or.inl rfl, Or.inl rfl⟩, by simp [stopsAtParam]⟩
        · exact ⟨Or.inr ⟨[], Or.inr rfl, Or.inl rfl⟩, by simp [stopsAtParam]⟩
      · rintro ⟨rfl | ⟨b, rfl | rfl, rfl | rfl⟩, hstop⟩
        · simp
        · simp
        · simp
        · simp
        · exact absurd ⟨rfl, rfl⟩ hstop
    · have hall : [Edge.all] ∈ traversal ss := by
        rw [ih hss]
        exact ⟨by cases ss <;> rfl, by simp [stopsAtParam, hss]⟩
      constructor
      · rintro (rfl | rfl | ⟨h, -⟩ | ⟨b, hb, hab⟩)
        · exact ⟨Or.inl rfl, by simp [stopsAtParam]⟩
        · rw [ih hss] at hall
          exact ⟨Or.inr ⟨_, Or.inl rfl, hall.1⟩, by rw [stopsAtParam_cons hss]; exact hall.2⟩
        · exact absurd h hss
        · rw [ih hss] at hb
          refine ⟨Or.inr ⟨b, hab, hb.1⟩, ?_⟩
          rcases hab with rfl | rfl <;> (rw [stopsAtParam_cons hss]; exact hb.2)
      · rintro ⟨rfl | ⟨b, hab, hb⟩, hstop⟩
        · exact Or.inl rfl
        · refine Or.inr (Or.inr (Or.inr ⟨b, (ih hss b).2 ⟨hb, ?_⟩, hab⟩))
          rcases hab with rfl | rfl <;> rwa [stopsAtParam_cons hss] at hstop

end Pixiu.Routing
