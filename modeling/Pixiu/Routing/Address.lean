import Pixiu.Routing.Trie

/-!
# Reading the trie by address

A node is named by its *address*, the list of edges from the root, and what a
node says about itself is its `Mark`: the `endOfPath` flag and the route
information.  `look` reads the mark at an address.  The mutating operations are
then described completely by what they do to the marks, so that no later file
unfolds them again:

* `look_internalPut` — a put creates the missing nodes along its key and marks
  the last one, except that a `**` before the last segment ends the walk there
  and marks nothing (`addr`, `IsReal`);
* `internalPut_snd` — it reports failure exactly when the last node was already
  marked as the end of a path.

`Pixiu.Routing.Access` does the same for reading and for changing what was read.
-/

namespace Pixiu.Routing

variable {β : Type}

/-! ## Addresses -/

/-- Where the walk of a key ends: at its last segment, or at the first `**`. -/
def addr : List String → List Edge
  | [] => []
  | k :: ks =>
      match edge k with
      | .all => [.all]
      | e => e :: addr ks

/-- The walk reaches the last segment: `**` occurs at most as the last one. -/
def IsReal (keys : List String) : Prop := ∀ k ∈ keys.dropLast, k ≠ "**"

instance (keys : List String) : Decidable (IsReal keys) :=
  inferInstanceAs (Decidable (∀ k ∈ keys.dropLast, k ≠ "**"))

theorem isReal_singleton (k : String) : IsReal [k] := by
  intro x hx
  simp at hx

theorem isReal_cons_cons {k k₂ : String} {ks : List String} :
    IsReal (k :: k₂ :: ks) ↔ edge k ≠ .all ∧ IsReal (k₂ :: ks) := by
  simp only [IsReal, List.dropLast_cons_cons, List.mem_cons, forall_eq_or_imp, ne_eq, edge_eq_all]

/-- The first segments of a real key are a real key. -/
theorem IsReal.take {keys : List String} (h : IsReal keys) (n : ℕ) : IsReal (keys.take n) := by
  intro k hk
  refine h k ?_
  rw [List.dropLast_eq_take, List.take_take] at hk
  rw [List.dropLast_eq_take]
  refine List.take_subset_take_left keys ?_ hk
  simp only [List.length_take]
  omega

/-- Whether a key is real can be read off its edges. -/
theorem isReal_iff {keys : List String} : IsReal keys ↔ Edge.all ∉ (keys.map edge).dropLast := by
  rw [← List.map_dropLast]
  simp only [IsReal, List.mem_map, edge_eq_all, not_exists, not_and, ne_eq]

theorem addr_cons_of_ne_all {k : String} {ks : List String} (h : edge k ≠ .all) :
    addr (k :: ks) = edge k :: addr ks := by
  rw [addr]
  cases he : edge k with
  | all => exact absurd he h
  | lit s => rfl
  | var => rfl

theorem addr_cons_of_all {k : String} {ks : List String} (h : edge k = .all) :
    addr (k :: ks) = [.all] := by
  rw [addr, h]

@[simp] theorem addr_singleton (k : String) : addr [k] = [edge k] := by
  by_cases h : edge k = .all
  · rw [addr_cons_of_all h, h]
  · rw [addr_cons_of_ne_all h, addr]

theorem addr_ne_nil {keys : List String} (h : keys ≠ []) : addr keys ≠ [] := by
  cases keys with
  | nil => exact absurd rfl h
  | cons k ks =>
    by_cases he : edge k = .all
    · rw [addr_cons_of_all he]; simp
    · rw [addr_cons_of_ne_all he]; simp

/-- A key with `**` at most at its end is addressed segment by segment. -/
theorem addr_of_isReal {keys : List String} (h : IsReal keys) : addr keys = keys.map edge := by
  induction keys with
  | nil => rfl
  | cons k ks ih =>
    cases ks with
    | nil => simp
    | cons k₂ ks =>
      obtain ⟨hk, hks⟩ := isReal_cons_cons.1 h
      rw [addr_cons_of_ne_all hk, ih hks]
      rfl

/-- A key that is not walked to its end stops at a `**`. -/
theorem addr_getLast_of_not_isReal {keys : List String} (h : ¬ IsReal keys) :
    (addr keys).getLast? = some .all := by
  induction keys with
  | nil => exact absurd (by intro x hx; simp at hx) h
  | cons k ks ih =>
    by_cases hk : edge k = .all
    · rw [addr_cons_of_all hk]; rfl
    · cases ks with
      | nil => exact absurd (isReal_singleton k) h
      | cons k₂ ks =>
        rw [isReal_cons_cons] at h
        have hks : ¬ IsReal (k₂ :: ks) := fun hr => h ⟨hk, hr⟩
        rw [addr_cons_of_ne_all hk, List.getLast?_cons, ih hks]
        rfl

/-- `**` is at most the last edge of an address. -/
theorem all_notMem_dropLast_addr (keys : List String) : Edge.all ∉ (addr keys).dropLast := by
  induction keys with
  | nil => simp [addr]
  | cons k ks ih =>
    by_cases hk : edge k = .all
    · simp [addr_cons_of_all hk]
    · rw [addr_cons_of_ne_all hk]
      cases hks : addr ks with
      | nil => simp
      | cons e es =>
        rw [hks] at ih
        simpa [List.dropLast_cons_cons] using ⟨Ne.symm hk, ih⟩

/-- A beginning of an address that ends in `**` is the whole address. -/
theorem eq_addr_of_prefix_all {keys : List String} {a : List Edge} (h : a <+: addr keys)
    (hlast : a.getLast? = some .all) : a = addr keys := by
  obtain ⟨b, hb⟩ := h
  cases b with
  | nil => simpa using hb
  | cons e es =>
    exfalso
    apply all_notMem_dropLast_addr keys
    rw [← hb, List.dropLast_append_of_ne_nil (by simp)]
    exact List.mem_append_left _ (List.mem_of_getLast? hlast)

/-! ## Marks -/

/-- What a node says about itself. -/
structure Mark (β : Type) where
  /-- Does a registered path end here? -/
  endOfPath : Bool
  /-- The route information. -/
  bizInfo : Option β

/-- The mark of a node that was only passed through. -/
def Mark.blank : Mark β := ⟨false, none⟩

namespace Node

/-- The node at an address. -/
def at? : Node β → List Edge → Option (Node β)
  | n, [] => some n
  | n, e :: es => (n.child? e).bind (at? · es)

/-- The mark of a node. -/
def mark (n : Node β) : Mark β := ⟨n.endOfPath, n.bizInfo⟩

@[simp] theorem mark_endOfPath (n : Node β) : n.mark.endOfPath = n.endOfPath := rfl

/-- The mark at an address. -/
def look (n : Node β) (a : List Edge) : Option (Mark β) := (n.at? a).map mark

@[simp] theorem at?_nil (n : Node β) : n.at? [] = some n := rfl

@[simp] theorem at?_cons (n : Node β) (e : Edge) (es : List Edge) :
    n.at? (e :: es) = (n.child? e).bind (at? · es) := rfl

@[simp] theorem look_nil (n : Node β) : n.look [] = some n.mark := rfl

theorem look_cons (n : Node β) (e : Edge) (es : List Edge) :
    n.look (e :: es) = (n.child? e).bind (look · es) := by
  simp only [look, at?_cons, Option.map_bind]
  rfl

theorem child?_setChild (n : Node β) (e e' : Edge) (c : Node β) :
    (n.setChild e c).child? e' = if e' = e then some c else n.child? e' := by
  cases e with
  | lit s =>
    cases e' with
    | lit s' =>
      by_cases hs : s' = s
      · subst hs; simp [setChild, child?]
      · have : (Edge.lit s' = Edge.lit s) = False := by simpa using hs
        rw [if_neg (by simpa using hs)]
        cases hc : n.children <;> simp [setChild, child?, hc, Function.update_of_ne hs]
    | var => simp [setChild, child?]
    | all => simp [setChild, child?]
  | var => cases e' <;> simp [setChild, child?]
  | all => cases e' <;> simp [setChild, child?]

@[simp] theorem mark_setChild (n : Node β) (e : Edge) (c : Node β) :
    (n.setChild e c).mark = n.mark := by
  cases e <;> rfl

theorem look_setChild (n : Node β) (e e' : Edge) (c : Node β) (es : List Edge) :
    (n.setChild e c).look (e' :: es) = if e' = e then c.look es else n.look (e' :: es) := by
  rw [look_cons, child?_setChild]
  by_cases h : e' = e
  · simp [h]
  · simp [h, look_cons]

@[simp] theorem child?_initChildren (n : Node β) (e : Edge) :
    n.initChildren.child? e = n.child? e := by
  cases e with
  | lit s => cases hc : n.children <;> simp [initChildren, child?, hc]
  | var => rfl
  | all => rfl

@[simp] theorem look_initChildren (n : Node β) (a : List Edge) :
    n.initChildren.look a = n.look a := by
  cases a with
  | nil => rfl
  | cons e es => simp [look_cons]

@[simp] theorem child?_fresh (e : Edge) : (fresh : Node β).child? e = none := by
  cases e <;> rfl

theorem look_fresh_cons (e : Edge) (es : List Edge) : (fresh : Node β).look (e :: es) = none := by
  simp [look_cons]

/-! ## What a put does -/

/-- The mark of the last node of a key after a put, `none` when the put is refused. -/
def plantMark (e : Edge) (old : Option (Mark β)) (b : β) : Option (Mark β) :=
  match old with
  | none => some ⟨true, some b⟩
  | some m => if m.endOfPath then none else some ⟨e != .all, some b⟩

/-- A child that is planted: one that is missing is made, one that is marked refuses, any other
keeps what is below it. -/
theorem plant_child (e : Edge) (old : Option (Node β)) (b : β) {result : Option (Node β)}
    {place : Node β → Node β}
    (hnone :
    old = none →
      result = some (place { (fresh : Node β) with bizInfo := some b, endOfPath := true }))
    (hmarked : ∀ c, old = some c → c.endOfPath = true → result = none)
    (hfree : ∀ c, old = some c → c.endOfPath = false →
      result = some (place { c with bizInfo := some b, endOfPath := e != .all })) :
    (∃ c, old = some c ∧ c.endOfPath = true ∧ result = none) ∨
    (∃ c, result = some (place c) ∧ plantMark e (old.map mark) b = some c.mark ∧
      ∀ e', c.child? e' = old.bind (·.child? e')) := by
  cases old with
  | none => exact Or.inr ⟨_, hnone rfl, rfl, fun e' => by cases e' <;> rfl⟩
  | some c =>
    cases hend : c.endOfPath with
    | true => exact Or.inl ⟨c, rfl, hend, hmarked c rfl hend⟩
    | false =>
      refine Or.inr ⟨_, hfree c rfl hend, ?_, fun e' => by cases e' <;> rfl⟩
      simp [plantMark, mark, hend]

/-- One real `put` changes the child along its edge and nothing else. -/
theorem put_real (n : Node β) (k : String) (b : β) :
    (∃ c, n.child? (edge k) = some c ∧ c.endOfPath = true ∧ n.put k true b = none) ∨
    (∃ c, n.put k true b = some (n.setChild (edge k) c) ∧
      plantMark (edge k) ((n.child? (edge k)).map mark) b = some c.mark ∧
      ∀ e, c.child? e = (n.child? (edge k)).bind (·.child? e)) := by
  unfold put
  cases edge k with
  | var =>
    refine plant_child .var n.pathVariableNode b ?_ ?_ ?_
    · intro hnone
      simp [putPathVariable, hnone, fresh]
    · intro c hc hend
      simp [putPathVariable, hc, hend]
    · intro c hc hend
      simp [putPathVariable, hc, hend]
      rfl
  | all =>
    refine plant_child .all n.matchAllNode b ?_ ?_ ?_
    · intro hnone
      simp [putMatchAllNode, hnone]
    · intro c hc hend
      simp [putMatchAllNode, hc, hend]
    · intro c hc hend
      simp [putMatchAllNode, hc, hend]
  | lit s =>
    refine plant_child (.lit s) (n.child? (.lit s)) b ?_ ?_ ?_
    · intro hnone
      simp [putNode, hnone]
    · intro c hc hend
      simp [putNode, hc, hend]
    · intro c hc hend
      simp [putNode, hc, hend]
      rfl

theorem eta (c : Node β) :
    (⟨c.children, c.pathVariableNode, c.matchAllNode, c.endOfPath, c.bizInfo⟩ : Node β) = c := by
  cases c; rfl

/-- A `put` on the way only makes the child if it is missing. -/
theorem put_passing (n : Node β) (k : String) (b : β) :
    n.put k false b = some (n.setChild (edge k) ((n.child? (edge k)).getD fresh)) := by
  unfold put
  cases he : edge k with
  | var => simp [putPathVariable, child?, eta]
  | all => cases hc : n.matchAllNode <;> simp [putMatchAllNode, child?, hc, fresh, eta]
  | lit s => cases hc : n.child? (.lit s) <;> simp [putNode, hc, fresh, eta]

theorem isMatchAll_iff {k : String} : isMatchAll k = true ↔ edge k = .all := by
  rw [edge_eq_all]
  simp [isMatchAll]

theorem setChild_setChild (n : Node β) (e : Edge) (c d : Node β) :
    (n.setChild e c).setChild e d = n.setChild e d := by
  cases e with
  | lit s => simp [setChild, Function.update_idem]
  | var => rfl
  | all => rfl

/-- The step of a put that goes on below the child along its edge. -/
theorem internalPut_cons_cons {n : Node β} {k k₂ : String} {ks : List String} {b : β}
    (hk : edge k ≠ .all) :
    n.internalPut (k :: k₂ :: ks) b =
      (n.initChildren.setChild (edge k)
          (((n.child? (edge k)).getD fresh).internalPut (k₂ :: ks) b).1,
        (((n.child? (edge k)).getD fresh).internalPut (k₂ :: ks) b).2) := by
  have hall : ¬ isMatchAll k = true := fun h => hk (isMatchAll_iff.1 h)
  conv_lhs => rw [internalPut]
  simp only [List.isEmpty_cons, put_passing, child?_initChildren, if_neg hall, child?_setChild,
    if_true, Option.getD_some, setChild_setChild]

/-- A `**` on the way ends the walk. -/
theorem internalPut_all_cons {n : Node β} {k k₂ : String} {ks : List String} {b : β}
    (hk : edge k = .all) :
    n.internalPut (k :: k₂ :: ks) b =
      (n.initChildren.setChild .all ((n.child? .all).getD fresh), true) := by
  rw [internalPut]
  simp only [List.isEmpty_cons, put_passing, child?_initChildren, if_pos (isMatchAll_iff.2 hk), hk]

/-- The last step of a put: refused, or the child along the edge gets its mark. -/
theorem internalPut_singleton (n : Node β) (k : String) (b : β) :
    (plantMark (edge k) (n.look [edge k]) b = none ∧ n.internalPut [k] b =
      (n.initChildren, false)) ∨
    (∃ c, n.internalPut [k] b = (n.initChildren.setChild (edge k) c, true) ∧
      plantMark (edge k) (n.look [edge k]) b = some c.mark ∧
      ∀ e, c.child? e = (n.child? (edge k)).bind (·.child? e)) := by
  have hlook : n.look [edge k] = (n.child? (edge k)).map mark := by
    rw [look_cons, Option.map_eq_bind]
    rfl
  rw [hlook, internalPut, List.isEmpty_nil]
  obtain ⟨c, hc, hend, hput⟩ | ⟨c, hput, hmark, hchild⟩ := put_real n.initChildren k b
  · rw [child?_initChildren] at hc
    rw [hput]
    exact Or.inl ⟨by simp [hc, plantMark, mark, hend], rfl⟩
  · simp only [child?_initChildren] at hmark hchild
    rw [hput]
    refine Or.inr ?_
    by_cases hall : isMatchAll k = true
    · exact ⟨c, by simp only [if_pos hall], hmark, hchild⟩
    · -- below a literal or a parameter the walk visits the new child once more
      refine ⟨c.initChildren, ?_, hmark, fun e => by rw [child?_initChildren, hchild]⟩
      simp only [if_neg hall, child?_setChild, if_true, Option.getD_some, internalPut,
        setChild_setChild]

/-- What a put leaves at an address, from what stood there. -/
def putLook (keys : List String) (b : β) (a : List Edge) (old : Option (Mark β)) :
    Option (Mark β) :=
  if a = addr keys ∧ IsReal keys then (plantMark (a.getLast?.getD .all) old b).or old
  else if a ≠ [] ∧ a <+: addr keys then some (old.getD .blank)
  else old

theorem putLook_nil {keys : List String} (h : keys ≠ []) (b : β) (old : Option (Mark β)) :
    putLook keys b [] old = old := by
  rw [putLook, if_neg (fun hc => addr_ne_nil h hc.1.symm), if_neg (by simp)]

theorem putLook_off_path {keys : List String} {a : List Edge} (h : ¬ a <+: addr keys) (b : β)
    (old : Option (Mark β)) : putLook keys b a old = old := by
  have hne : a ≠ addr keys := fun hc => h (hc ▸ List.prefix_refl _)
  rw [putLook, if_neg (fun hc => hne hc.1), if_neg (fun hc => h hc.2)]

/-- On the way to its last node a put makes what is missing. -/
theorem putLook_on_path {keys : List String} {a : List Edge} (hne : a ≠ []) (h : a <+: addr keys)
    (ha : a ≠ addr keys) (b : β) (old : Option (Mark β)) :
    putLook keys b a old = some (old.getD .blank) := by
  rw [putLook, if_neg (fun hc => ha hc.1), if_pos ⟨hne, h⟩]

/-- At its last node a real put plants its mark, or leaves the node if that is refused. -/
theorem putLook_addr {keys : List String} (hreal : IsReal keys) (b : β) (old : Option (Mark β)) :
    putLook keys b (addr keys) old =
      (plantMark ((addr keys).getLast?.getD .all) old b).or old := by
  rw [putLook, if_pos ⟨rfl, hreal⟩]

theorem putLook_isSome {keys : List String} {a : List Edge} (hne : a ≠ []) (h : a <+: addr keys)
    (b : β) (old : Option (Mark β)) : (putLook keys b a old).isSome := by
  by_cases ha : a = addr keys ∧ IsReal keys
  · rw [putLook, if_pos ha]
    cases old <;> simp [plantMark]
  · rw [putLook, if_neg ha, if_pos ⟨hne, h⟩, Option.isSome_some]

theorem putLook_cons_cons {k k₂ : String} {ks : List String} (hk : edge k ≠ .all) {es : List Edge}
    (hes : es ≠ []) (b : β) (old : Option (Mark β)) :
    putLook (k :: k₂ :: ks) b (edge k :: es) old = putLook (k₂ :: ks) b es old := by
  have hlast : (edge k :: es).getLast? = es.getLast? := by
    obtain ⟨e₂, es₂, rfl⟩ := List.exists_cons_of_ne_nil hes
    exact List.getLast?_cons_cons
  simp only [putLook, addr_cons_of_ne_all hk, List.cons.injEq, true_and, isReal_cons_cons, hk,
    ne_eq, not_false_eq_true, List.cons_prefix_cons, hlast, reduceCtorEq, hes]

/-- Below a child, a missing node looks like a fresh one. -/
theorem look_getD_fresh (n : Node β) (e : Edge) {es : List Edge} (hes : es ≠ []) :
    ((n.child? e).getD fresh).look es = n.look (e :: es) := by
  rw [look_cons]
  cases n.child? e with
  | some c => rfl
  | none =>
    obtain ⟨e₂, es₂, rfl⟩ := List.exists_cons_of_ne_nil hes
    simp [look_fresh_cons]

theorem mark_getD_fresh (n : Node β) (e : Edge) :
    ((n.child? e).getD fresh).mark = (n.look [e]).getD .blank := by
  rw [look_cons]
  cases n.child? e <;> rfl

theorem mark_internalPut (n : Node β) (keys : List String) (b : β) :
    (n.internalPut keys b).1.mark = n.mark := by
  rcases keys with - | ⟨k, - | ⟨k₂, ks⟩⟩
  · rfl
  · obtain ⟨-, h⟩ | ⟨c, h, -⟩ := internalPut_singleton n k b
    · rw [h]; rfl
    · rw [h, mark_setChild]; rfl
  · by_cases hk : edge k = .all
    · rw [internalPut_all_cons hk, mark_setChild]; rfl
    · rw [internalPut_cons_cons hk, mark_setChild]; rfl

theorem look_internalPut_singleton (n : Node β) (k : String) (b : β) (e : Edge) (es : List Edge) :
    (n.internalPut [k] b).1.look (e :: es) = putLook [k] b (e :: es) (n.look (e :: es)) := by
  by_cases hpre : e :: es <+: addr [k]
  · rw [addr_singleton, List.cons_prefix_cons, List.prefix_nil] at hpre
    obtain ⟨rfl, rfl⟩ := hpre
    rw [putLook, if_pos ⟨(addr_singleton k).symm, isReal_singleton k⟩]
    obtain ⟨hp, h⟩ | ⟨c, h, hp, -⟩ := internalPut_singleton n k b
    · rw [h, look_initChildren, List.getLast?_singleton, Option.getD_some, hp, Option.none_or]
    · rw [h, look_setChild, if_pos rfl, List.getLast?_singleton, Option.getD_some, hp, look_nil,
        Option.some_or]
  · rw [putLook_off_path hpre]
    obtain ⟨-, h⟩ | ⟨c, h, -, hchild⟩ := internalPut_singleton n k b
    · rw [h, look_initChildren]
    · rw [h, look_setChild, look_initChildren]
      by_cases he : e = edge k
      · subst he
        have hes : es ≠ [] := by
          rintro rfl
          exact hpre (by simp)
        obtain ⟨e₂, es₂, rfl⟩ := List.exists_cons_of_ne_nil hes
        rw [if_pos rfl, look_cons, hchild, look_cons, Option.bind_assoc]
        exact congrArg _ (funext fun c => (look_cons c e₂ es₂).symm)
      · rw [if_neg he]

/-- A put is described by what it leaves at each address. -/
theorem look_internalPut {keys : List String} (hkeys : keys ≠ []) (b : β) :
    ∀ (n : Node β) (a : List Edge),
      (n.internalPut keys b).1.look a = putLook keys b a (n.look a) := by
  induction keys with
  | nil => exact absurd rfl hkeys
  | cons k ks ih =>
    intro n a
    cases a with
    | nil => rw [putLook_nil hkeys, look_nil, mark_internalPut, look_nil]
    | cons e es =>
      cases ks with
      | nil => exact look_internalPut_singleton n k b e es
      | cons k₂ ks =>
        by_cases hk : edge k = .all
        · rw [internalPut_all_cons hk, look_setChild, look_initChildren]
          by_cases he : e = .all
          · subst he
            rw [if_pos rfl]
            by_cases hes : es = []
            · subst hes
              rw [look_nil, mark_getD_fresh, putLook, if_neg, if_pos]
              · rw [addr_cons_of_all hk]; simp
              · exact fun hc => (isReal_cons_cons.1 hc.2).1 hk
            · rw [look_getD_fresh n .all hes, putLook_off_path]
              rw [addr_cons_of_all hk]
              simpa using hes
          · rw [if_neg he, putLook_off_path]
            rw [addr_cons_of_all hk]
            simp [he]
        · rw [internalPut_cons_cons hk, look_setChild, look_initChildren]
          by_cases he : e = edge k
          · subst he
            rw [if_pos rfl, ih (by simp)]
            by_cases hes : es = []
            · subst hes
              rw [putLook_nil (by simp), look_nil, mark_getD_fresh, putLook, if_neg, if_pos]
              · rw [addr_cons_of_ne_all hk]; simp
              · rw [addr_cons_of_ne_all hk]
                intro hc
                have hne : addr (k₂ :: ks) ≠ [] := addr_ne_nil (by simp)
                exact hne (List.cons.inj hc.1).2.symm
            · rw [look_getD_fresh n _ hes, putLook_cons_cons hk hes]
          · rw [if_neg he, putLook_off_path]
            rw [addr_cons_of_ne_all hk]
            simp [he]

/-- A put fails exactly when a path already ends at the last node of its key. -/
theorem internalPut_snd {keys : List String} (hkeys : keys ≠ []) (b : β) :
    ∀ n : Node β, (n.internalPut keys b).2 = false ↔
      IsReal keys ∧ ∃ m, n.look (addr keys) = some m ∧ m.endOfPath = true := by
  induction keys with
  | nil => exact absurd rfl hkeys
  | cons k ks ih =>
    intro n
    cases ks with
    | nil =>
      rw [addr_singleton]
      have hplant : plantMark (edge k) (n.look [edge k]) b = none ↔
          ∃ m, n.look [edge k] = some m ∧ m.endOfPath = true := by
        cases n.look [edge k] with
        | none => simp [plantMark]
        | some m => by_cases hm : m.endOfPath = true <;> simp [plantMark, hm]
      rw [← hplant]
      obtain ⟨hp, h⟩ | ⟨c, h, hp, -⟩ := internalPut_singleton n k b
      · simp [h, hp, isReal_singleton]
      · simp [h, hp]
    | cons k₂ ks =>
      by_cases hk : edge k = .all
      · rw [internalPut_all_cons hk, isReal_cons_cons]
        simp [hk]
      · rw [internalPut_cons_cons hk, ih (by simp), isReal_cons_cons, addr_cons_of_ne_all hk,
          look_getD_fresh n _ (addr_ne_nil (by simp))]
        simp [hk]

end Node

end Pixiu.Routing
