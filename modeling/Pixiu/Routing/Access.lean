import Pixiu.Routing.Address

/-!
# Reading the trie and changing what was read

`Get` returns a node, and its callers change the trie through that pointer.  Both are
described by marks:

* `get_eq`, `get_of_not_isReal` — `Get` reads the node at the key's address, with the
  `endOfPath` flag consulted for parameters only, and returns no node for a key with a
  `**` on the way;
* `look_modify` — changing the node that `Get` returns changes that mark only;
* `Trie.seen`, `Trie.get_real`, `Trie.contains_real`, `Trie.look_modify_real`,
  `Trie.look_remove` — the same for the trie's own operations, with what `Get` sees at
  an address as the one notion they share.
-/

namespace Pixiu.Routing

variable {β : Type}

namespace Node

/-! ## What `Get` reads -/

/-- Whether `Get` returns the node at an address: for a parameter only when a
path ends there. -/
def visible (a : List Edge) (n : Node β) : Bool := a.getLast? != some .var || n.endOfPath

theorem visible_singleton (e : Edge) (c : Node β) :
    visible [e] c = false ↔ e = .var ∧ c.endOfPath = false := by
  simp [visible]

theorem visible_cons {e : Edge} {es : List Edge} (hes : es ≠ []) :
    visible (β := β) (e :: es) = visible es := by
  obtain ⟨e₂, es₂, rfl⟩ := List.exists_cons_of_ne_nil hes
  funext c
  rw [visible, visible, List.getLast?_cons_cons]

theorem get_cons_cons {n : Node β} {k k₂ : String} {ks : List String} (hk : edge k ≠ .all) :
    n.get (k :: k₂ :: ks) = match n.child? (edge k) with
      | none => .ok (none, false)
      | some c => c.get (k₂ :: ks) := by
  rw [get]
  cases he : edge k with
  | all => exact absurd he hk
  | lit s => rfl
  | var => rfl

/-- `Get` on a key with `**` at most at its end; a node never comes without the `ok` flag. -/
theorem get_eq {keys : List String} (hkeys : keys ≠ []) (hreal : IsReal keys) :
    ∀ n : Node β, ∃ ok, n.get keys = .ok ((n.at? (addr keys)).filter (visible (addr keys)), ok) ∧
      (((n.at? (addr keys)).filter (visible (addr keys))).isSome → ok = true) := by
  induction keys with
  | nil => exact absurd rfl hkeys
  | cons k ks ih =>
    intro n
    cases ks with
    | nil =>
      rw [addr_singleton, get]
      cases he : edge k with
      | var =>
        cases hc : n.pathVariableNode with
        | none => exact ⟨false, by simp [child?, hc], by simp [child?, hc]⟩
        | some c =>
          by_cases hend : c.endOfPath = true
          · exact ⟨true, by simp [child?, hc, hend, visible, Option.filter], fun _ => rfl⟩
          · refine ⟨false, by simp [child?, hc, hend, visible, Option.filter], ?_⟩
            simp [child?, hc, hend, visible, Option.filter]
      | all =>
        refine ⟨true, ?_, fun _ => rfl⟩
        cases hc : n.matchAllNode <;> simp [child?, hc, visible, Option.filter]
      | lit s =>
        cases hc : n.children with
        | none => exact ⟨false, by simp [child?, hc], by simp [child?, hc]⟩
        | some f =>
          refine ⟨true, ?_, fun _ => rfl⟩
          cases hf : f s <;> simp [child?, hc, hf, visible, Option.filter]
    | cons k₂ ks =>
      obtain ⟨hk, hks⟩ := isReal_cons_cons.1 hreal
      rw [addr_cons_of_ne_all hk, visible_cons (addr_ne_nil (by simp)), at?_cons]
      rw [get_cons_cons hk]
      cases n.child? (edge k) with
      | none => exact ⟨false, rfl, by simp⟩
      | some c => exact ih (by simp) hks c

/-- `Get` on a key with a `**` on the way never returns a node. -/
theorem get_of_not_isReal {keys : List String} (hreal : ¬ IsReal keys) :
    ∀ n : Node β, (∃ e, n.get keys = .error e) ∨ n.get keys = .ok (none, false) := by
  induction keys with
  | nil => exact absurd (by intro x hx; simp at hx) hreal
  | cons k ks ih =>
    intro n
    cases ks with
    | nil => exact absurd (isReal_singleton k) hreal
    | cons k₂ ks =>
      by_cases hk : edge k = .all
      · exact Or.inl ⟨_, by rw [get, hk]⟩
      · have hks : ¬ IsReal (k₂ :: ks) := fun h => hreal (isReal_cons_cons.2 ⟨hk, h⟩)
        rw [get_cons_cons hk]
        cases n.child? (edge k) with
        | none => exact Or.inr rfl
        | some c => exact ih hks c

/-! ## What changing the returned node does -/

theorem modify_cons_cons {f : Node β → Node β} {n : Node β} {k k₂ : String} {ks : List String}
    (hk : edge k ≠ .all) : n.modify f (k :: k₂ :: ks) = match n.child? (edge k) with
      | none => n
      | some c => n.setChild (edge k) (c.modify f (k₂ :: ks)) := by
  rw [modify]
  cases he : edge k with
  | all => exact absurd he hk
  | lit s => rfl
  | var => rfl

theorem mark_modify (f : Node β → Node β) (n : Node β) (keys : List String) :
    (n.modify f keys).mark = n.mark := by
  rcases keys with - | ⟨k, - | ⟨k₂, ks⟩⟩
  · rfl
  · rw [modify]
    cases n.child? (edge k) with
    | none => rfl
    | some c => simp only; split_ifs <;> simp
  · by_cases hk : edge k = .all
    · rw [modify, hk]
    · rw [modify_cons_cons hk]
      cases n.child? (edge k) <;> simp

/-- `modify` on a key with `**` at most at its end, for a change that leaves the
children alone: the mark at the key's address changes if `Get` sees it, every
other mark stays. -/
theorem look_modify {f : Node β → Node β} (hf : ∀ c e, (f c).child? e = c.child? e)
    {keys : List String} (hkeys : keys ≠ []) (hreal : IsReal keys) :
    ∀ (n : Node β) (a : List Edge), (n.modify f keys).look a =
      if a = addr keys then (n.at? a).map fun c => if visible a c then (f c).mark else c.mark
      else n.look a := by
  have hlookf : ∀ (c : Node β) e es, (f c).look (e :: es) = c.look (e :: es) := by
    intro c e es
    rw [look_cons, look_cons, hf]
  induction keys with
  | nil => exact absurd rfl hkeys
  | cons k ks ih =>
    intro n a
    cases a with
    | nil => rw [if_neg (addr_ne_nil hkeys).symm, look_nil, mark_modify, look_nil]
    | cons e es =>
      cases ks with
      | nil =>
        rw [addr_singleton, modify]
        cases hc : n.child? (edge k) with
        | none =>
          by_cases ha : e :: es = [edge k]
          · rw [if_pos ha, ha]
            simp [look_cons, hc]
          · rw [if_neg ha]
        | some c =>
          by_cases hv : edge k = .var ∧ c.endOfPath = false
          · simp only [if_pos hv]
            by_cases ha : e :: es = [edge k]
            · rw [if_pos ha, ha, look_cons, at?_cons, hc]
              simp [(visible_singleton (edge k) c).2 hv]
            · rw [if_neg ha]
          · simp only [if_neg hv]
            have hvis : visible [edge k] c = true := by
              rwa [← visible_singleton, Bool.not_eq_false] at hv
            rw [look_setChild]
            by_cases he : e = edge k
            · subst he
              cases es with
              | nil => simp [hc, hvis]
              | cons e₂ es₂ =>
                rw [if_pos rfl, if_neg (by simp), hlookf, look_cons n, hc]
                rfl
            · rw [if_neg he, if_neg (by simp [he])]
      | cons k₂ ks =>
        obtain ⟨hk, hks⟩ := isReal_cons_cons.1 hreal
        have hne : addr (k₂ :: ks) ≠ [] := addr_ne_nil (by simp)
        rw [modify_cons_cons hk, addr_cons_of_ne_all hk]
        cases hc : n.child? (edge k) with
        | none =>
          by_cases ha : e :: es = edge k :: addr (k₂ :: ks)
          · rw [if_pos ha, ha]
            simp [look_cons, hc]
          · rw [if_neg ha]
        | some c =>
          rw [look_setChild]
          by_cases he : e = edge k
          · subst he
            rw [if_pos rfl, ih (by simp) hks c es]
            by_cases ha : es = addr (k₂ :: ks)
            · rw [if_pos ha, if_pos (by rw [ha]), at?_cons, hc, visible_cons (ha ▸ hne)]
              rfl
            · rw [if_neg ha, if_neg (by simpa using ha), look_cons, hc]
              rfl
          · rw [if_neg he, if_neg (by simp [he])]

end Node

/-! ## The trie's operations -/

namespace Trie

theorem root_put (t : Trie β) (withOutHost : String) (b : β) :
    (t.put withOutHost (some b)).1.root = (t.root.internalPut (split withOutHost) b).1 := by
  simp only [Trie.put]

theorem look_put (t : Trie β) (withOutHost : String) (b : β) (a : List Edge) :
    (t.put withOutHost (some b)).1.root.look a =
      Node.putLook (split withOutHost) b a (t.root.look a) := by
  rw [root_put, Node.look_internalPut (split_ne_nil _)]

/-- The mark that `Get` sees at an address: a parameter's only if a path ends there. -/
def seen (t : Trie β) (a : List Edge) : Option (Mark β) :=
  (t.root.look a).filter fun m => a.getLast? != some .var || m.endOfPath

theorem seen_eq (t : Trie β) (a : List Edge) :
    t.seen a = ((t.root.at? a).filter (Node.visible a)).map Node.mark := by
  rw [seen, Node.look]
  cases t.root.at? a with
  | none => rfl
  | some c => by_cases h : Node.visible a c = true <;> simp_all [Node.visible, Option.filter]

section Real

variable {withOutHost : String} (hreal : IsReal (split withOutHost))

include hreal

/-- `Get` on a key with `**` at most at its end returns the node it sees. -/
theorem get_real (t : Trie β) : ∃ n ok, t.get withOutHost = .ok (n, ok) ∧
    n.map Node.mark = t.seen (addr (split withOutHost)) ∧ (n.isSome → ok = true) := by
  obtain ⟨ok, hget, hok⟩ := Node.get_eq (split_ne_nil withOutHost) hreal t.root
  exact ⟨_, ok, by rw [Trie.get, hget], (seen_eq t _).symm, hok⟩

theorem contains_real (t : Trie β) :
    t.contains withOutHost = ((t.seen (addr (split withOutHost))).isSome, none) := by
  obtain ⟨n, ok, hget, hn, -⟩ := get_real hreal t
  rw [Trie.contains, hget, ← hn, Option.isSome_map]

/-- Changing what the node that `Get` returns says about itself. -/
theorem look_modify_real (t : Trie β) {f : Node β → Node β} {g : Mark β → Mark β}
    (hchild : ∀ c e, (f c).child? e = c.child? e) (hmark : ∀ c, (f c).mark = g c.mark)
    (a : List Edge) : (t.modify withOutHost f).root.look a =
      if a = addr (split withOutHost) ∧ (t.seen a).isSome then (t.root.look a).map g
      else t.root.look a := by
  rw [Trie.modify, Node.look_modify hchild (split_ne_nil _) hreal, seen_eq]
  by_cases ha : a = addr (split withOutHost)
  · rw [if_pos ha, Node.look]
    cases t.root.at? a with
    | none => simp
    | some c =>
      by_cases hv : Node.visible a c = true <;> simp [ha, hmark, Option.filter, ha ▸ hv]
  · rw [if_neg ha, if_neg fun h => ha h.1]

/-- A removal clears one flag.  A parameter that `Get` does not see has it cleared already. -/
theorem look_remove (t : Trie β) (a : List Edge) :
    (t.remove withOutHost).1.root.look a =
      if a = addr (split withOutHost) then (t.root.look a).map fun m =>
        { m with endOfPath := false }
      else t.root.look a := by
  obtain ⟨n, ok, hget, -⟩ := get_real hreal t
  have hchild : ∀ (c : Node β) e, ({ c with endOfPath := false } : Node β).child? e = c.child? e :=
    fun c e => by cases e <;> rfl
  rw [Trie.remove, hget]
  dsimp only
  rw [look_modify_real hreal t hchild (g := fun m => { m with endOfPath := false }) fun c => rfl]
  by_cases ha : a = addr (split withOutHost)
  · rw [if_pos ha]
    split_ifs with hseen
    · rfl
    · cases hlook : t.root.look a with
      | none => rfl
      | some m =>
        have hflag : m.endOfPath = false := by
          have hnot : ¬ (t.seen a).isSome := fun h => hseen ⟨ha, h⟩
          simp only [seen, hlook, Option.filter] at hnot
          by_contra hc
          simp [hc] at hnot
        simp [← hflag]
  · rw [if_neg ha, if_neg fun h => ha h.1]

end Real

end Trie

end Pixiu.Routing
