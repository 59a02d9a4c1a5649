import Mathlib.Data.Finset.Card
import Mathlib.Data.Finset.SDiff
import Mathlib.Data.List.Basic
import Mathlib.Logic.Relation

/-!
# Depth-first search in post-order

A search through a graph whose nodes are found by their keys.  A node is entered if it is neither on
the stack nor done, its successors are searched, and then it is added to the result.  A key that is
on the stack closes a cycle, and is passed over like one that is not found.

With more fuel than there are keys off the stack a search ends (`visit_spec`).  What carries the
proof is that every key on the stack leads to the key that is searched: a successor that is still on
the stack when a node is added lies on a cycle with it.
-/

namespace Pixiu.PostOrder

variable {κ ν : Type*}

/-- The state of a search. -/
structure Search (κ ν : Type*) where
  visited : Finset κ := ∅
  inStack : Finset κ := ∅
  result : List ν := []

section Define

variable [DecidableEq κ] (find : κ → Option ν) (successors : ν → List κ) (key : ν → κ)

/-- Enters a node. -/
def Search.enter (s : Search κ ν) (k : κ) : Search κ ν := { s with inStack := insert k s.inStack }

/-- Leaves a node. -/
def Search.leave (s : Search κ ν) (k : κ) (v : ν) : Search κ ν where
  visited := insert k s.visited
  inStack := s.inStack.erase k
  result := s.result ++ [v]

/-- The search from a key; nothing if the fuel runs out. -/
def visit : ℕ → Search κ ν → κ → Option (Search κ ν)
  | 0, _, _ => none
  | fuel + 1, s, k =>
      if k ∈ s.inStack then some s
      else if k ∈ s.visited then some s
      else match find k with
        | none => some s
        | some v => ((successors v).foldlM (visit fuel) (s.enter k)).map (·.leave k v)

/-- A node has another one as its successor. -/
def Edge (k k' : κ) : Prop := ∃ v, find k = some v ∧ k' ∈ successors v ∧ (find k').isSome

/-- A key from which no cycle can be reached. -/
def Acyclic (k : κ) : Prop :=
  ∀ k', Relation.ReflTransGen (Edge find successors) k k' →
    ¬ Relation.TransGen (Edge find successors) k' k'

/-- Every node that reaches no cycle stands behind its successors. -/
def SuccessorsFirst (result : List ν) : Prop :=
  ∀ before v after, result = before ++ v :: after → Acyclic find successors (key v) →
    ∀ k ∈ successors v, (find k).isSome → k ∈ before.map key

/-- What holds between visits. -/
structure Good (s : Search κ ν) : Prop where
  mem_visited : ∀ k, k ∈ s.visited ↔ k ∈ s.result.map key
  nodup : (s.result.map key).Nodup
  found : ∀ v ∈ s.result, find (key v) = some v
  disjoint : ∀ k ∈ s.visited, k ∉ s.inStack
  successorsFirst : SuccessorsFirst find successors key s.result

/-- What a visit does not change. -/
structure Extends (s s' : Search κ ν) : Prop where
  inStack : s'.inStack = s.inStack
  visited : s.visited ⊆ s'.visited

end Define

variable {find : κ → Option ν} {successors : ν → List κ} {key : ν → κ} {s s' : Search κ ν}

theorem good_empty : Good find successors key ({} : Search κ ν) where
  mem_visited k := by simp
  nodup := List.nodup_nil
  found v hv := by simp at hv
  disjoint k hk := by simp at hk
  successorsFirst before v after h := by simp at h

theorem Extends.refl (s : Search κ ν) : Extends s s := ⟨rfl, Finset.Subset.refl _⟩

theorem Extends.trans {s₁ s₂ s₃ : Search κ ν} (h₁ : Extends s₁ s₂) (h₂ : Extends s₂ s₃) :
    Extends s₁ s₃ :=
  ⟨h₂.inStack.trans h₁.inStack, h₁.visited.trans h₂.visited⟩

theorem successorsFirst_concat {result : List ν} {v : ν}
    (h : SuccessorsFirst find successors key result)
    (hv : Acyclic find successors (key v) → ∀ k ∈ successors v, (find k).isSome →
      k ∈ result.map key) :
    SuccessorsFirst find successors key (result ++ [v]) := by
  intro before w after heq
  rcases List.eq_nil_or_concat after with rfl | ⟨after, z, rfl⟩
  · obtain ⟨rfl, hw⟩ := List.append_inj' heq rfl
    obtain rfl : v = w := List.singleton_inj.1 hw
    exact hv
  · rw [List.concat_eq_append, ← List.cons_append, ← List.append_assoc] at heq
    obtain ⟨rfl, -⟩ := List.append_inj' heq rfl
    exact h before w after rfl

variable [DecidableEq κ]

theorem Good.enter (h : Good find successors key s) {k : κ} (hk : k ∉ s.visited) :
    Good find successors key (s.enter k) where
  mem_visited := h.mem_visited
  nodup := h.nodup
  found := h.found
  disjoint k' hk' := by
    rw [Search.enter, Finset.mem_insert]
    rintro (rfl | hstack)
    · exact hk hk'
    · exact h.disjoint k' hk' hstack
  successorsFirst := h.successorsFirst

/-- A node whose successors have been searched may be added. -/
theorem Good.leave (h : Good find successors key s) (hkey : ∀ k v, find k = some v → key v = k)
    {k : κ} {v : ν}
    (hfind : find k = some v) (hstack : k ∈ s.inStack)
    (hpath : ∀ x ∈ s.inStack, Relation.ReflTransGen (Edge find successors) x k)
    (hdone : ∀ k' ∈ successors v, (find k').isSome → k' ∈ s.inStack ∨ k' ∈ s.visited) :
    Good find successors key (s.leave k v) := by
  have hv : key v = k := hkey k v hfind
  have hnew : k ∉ s.visited := fun hk => h.disjoint k hk hstack
  refine ⟨fun k' => ?_, ?_, fun w hw => ?_, fun k' hk' => ?_, ?_⟩
  · rw [Search.leave, Finset.mem_insert, h.mem_visited, List.map_append, List.mem_append,
      List.map_singleton,
      List.mem_singleton, hv, or_comm]
  · rw [Search.leave, List.map_append, List.map_singleton, hv, List.nodup_append]
    refine ⟨h.nodup, List.nodup_singleton k, ?_⟩
    rintro a ha b hb rfl
    rw [List.mem_singleton] at hb
    exact hnew ((h.mem_visited k).2 (hb ▸ ha))
  · rcases List.mem_append.1 hw with hold | hlast
    · exact h.found w hold
    · rw [List.mem_singleton.1 hlast, hv]
      exact hfind
  · rw [Search.leave, Finset.mem_insert] at hk'
    rw [Search.leave, Finset.mem_erase]
    rintro ⟨hne, hin⟩
    rcases hk' with rfl | hold
    · exact hne rfl
    · exact h.disjoint k' hold hin
  · refine successorsFirst_concat h.successorsFirst fun hacyclic k' hk' hsome => ?_
    rcases hdone k' hk' hsome with hin | hvisited
    · -- a successor on the stack leads back here
      have hedge : Edge find successors k k' := ⟨v, hfind, hk', hsome⟩
      rw [hv] at hacyclic
      exact absurd (Relation.TransGen.head' hedge (hpath k' hin)) (hacyclic k .refl)
    · exact (h.mem_visited k').1 hvisited

section Spec

variable {keys : Finset κ}

/-- Visits one after another, given what each of them does. -/
theorem foldlM_visit_spec {fuel : ℕ} (stack : Finset κ)
    (hvisit : ∀ (s : Search κ ν) k, Good find successors key s → s.inStack = stack →
      (∀ x ∈ stack, Relation.TransGen (Edge find successors) x k ∨ find k = none) →
      ∃ s', visit find successors fuel s k = some s' ∧ Good find successors key s' ∧ Extends s s' ∧
        ((find k).isSome → k ∈ s'.inStack ∨ k ∈ s'.visited))
    (ks : List κ)
    (hpath : ∀ k ∈ ks, ∀ x ∈ stack, Relation.TransGen (Edge find successors) x k ∨ find k = none)
    (hgood : Good find successors key s) (hstack : s.inStack = stack) :
    ∃ s', ks.foldlM (visit find successors fuel) s = some s' ∧ Good find successors key s' ∧
      Extends s s' ∧
      ∀ k ∈ ks, (find k).isSome → k ∈ s'.inStack ∨ k ∈ s'.visited := by
  induction ks generalizing s with
  | nil => exact ⟨s, rfl, hgood, .refl s, fun k hk => by simp at hk⟩
  | cons k ks ih =>
    obtain ⟨hk, hks⟩ := List.forall_mem_cons.1 hpath
    obtain ⟨s₁, hfirst, hgood₁, hext₁, hdone₁⟩ := hvisit s k hgood hstack hk
    obtain ⟨s₂, hrest, hgood₂, hext₂, hdone₂⟩ := ih hks hgood₁ (hext₁.inStack.trans hstack)
    refine ⟨s₂, ?_, hgood₂, hext₁.trans hext₂, ?_⟩
    · rw [List.foldlM_cons, hfirst]
      exact hrest
    · refine List.forall_mem_cons.2 ⟨fun hsome => ?_, hdone₂⟩
      rcases hdone₁ hsome with hin | hvisited
      · exact .inl (hext₂.inStack ▸ hin)
      · exact .inr (hext₂.visited hvisited)

/-- **A visit ends**, and afterwards its key is on the stack or done. -/
theorem visit_spec (hkey : ∀ k v, find k = some v → key v = k)
    (hkeys : ∀ k, (find k).isSome → k ∈ keys) {fuel : ℕ}
    {k : κ} (hfuel : (keys \ s.inStack).card < fuel) (hgood : Good find successors key s)
    (hpath : ∀ x ∈ s.inStack, Relation.TransGen (Edge find successors) x k ∨ find k = none) :
    ∃ s', visit find successors fuel s k = some s' ∧ Good find successors key s' ∧ Extends s s' ∧
      ((find k).isSome → k ∈ s'.inStack ∨ k ∈ s'.visited) := by
  -- the fuel is spent one key of the stack at a time
  induction fuel generalizing s k with
  | zero => exact absurd hfuel (Nat.not_lt_zero _)
  | succ fuel ih =>
    rw [visit]
    by_cases hin : k ∈ s.inStack
    · rw [if_pos hin]
      exact ⟨s, rfl, hgood, .refl s, fun _ => .inl hin⟩
    rw [if_neg hin]
    by_cases hvisited : k ∈ s.visited
    · rw [if_pos hvisited]
      exact ⟨s, rfl, hgood, .refl s, fun _ => .inr hvisited⟩
    rw [if_neg hvisited]
    cases hfind : find k with
    | none => exact ⟨s, rfl, hgood, .refl s, fun h => by simp at h⟩
    | some v =>
      have hless : (keys \ (s.enter k).inStack).card < fuel := by
        have hmem : k ∈ keys \ s.inStack := Finset.mem_sdiff.2 ⟨hkeys k (by simp [hfind]), hin⟩
        have hcard := Finset.card_erase_lt_of_mem hmem
        rw [← Finset.sdiff_insert] at hcard
        exact lt_of_lt_of_le hcard (Nat.le_of_lt_succ hfuel)
      have hpath' : ∀ x ∈ (s.enter k).inStack, Relation.ReflTransGen (Edge find successors) x
          k := by
        intro x hx
        rcases Finset.mem_insert.1 hx with rfl | hx
        · exact .refl
        · rcases hpath x hx with hx | hx
          · exact hx.to_reflTransGen
          · rw [hfind] at hx
            cases hx
      have hsuccessors : ∀ k' ∈ successors v, ∀ x ∈ (s.enter k).inStack,
          Relation.TransGen (Edge find successors) x k' ∨ find k' = none := by
        intro k' hk' x hx
        cases hk : find k' with
        | none => exact .inr rfl
        | some v' =>
          exact .inl (Relation.TransGen.tail' (hpath' x hx) ⟨v, hfind, hk', by simp [hk]⟩)
      obtain ⟨s₁, hrun, hgood₁, hext, hdone⟩ := foldlM_visit_spec (s.enter k).inStack
        (fun s' k' hgood' hstack' hp => ih (hstack' ▸ hless) hgood' (hstack' ▸ hp))
          (successors v) hsuccessors
        (hgood.enter hvisited) rfl
      have hon : k ∈ s₁.inStack := hext.inStack ▸ Finset.mem_insert_self k _
      refine ⟨s₁.leave k v, ?_, ?_, ⟨?_, ?_⟩, fun _ => .inr (Finset.mem_insert_self k _)⟩
      · simp only [hrun, Option.map_some]
      · exact hgood₁.leave hkey hfind hon (hext.inStack ▸ hpath') hdone
      · rw [Search.leave, hext.inStack, Search.enter, Finset.erase_insert hin]
      · exact hext.visited.trans (Finset.subset_insert k _)

variable (find successors) in
/-- Visits of keys, from the empty search. -/
theorem foldlM_visit (hkey : ∀ k v, find k = some v → key v = k)
    (hkeys : ∀ k, (find k).isSome → k ∈ keys) {fuel : ℕ}
    (hfuel : keys.card < fuel) (ks : List κ) :
    ∃ s', ks.foldlM (visit find successors fuel) {} = some s' ∧ Good find successors key s' ∧
      ∀ k ∈ ks, (find k).isSome → k ∈ s'.result.map key := by
  obtain ⟨s', hrun, hgood, hext, hdone⟩ := foldlM_visit_spec ∅
    (fun s k hgood hstack hpath =>
      visit_spec hkey hkeys (by rw [hstack, Finset.sdiff_empty]; exact hfuel) hgood
      (hstack ▸ hpath)) ks (fun k _ x hx => absurd hx (Finset.notMem_empty x)) good_empty rfl
  refine ⟨s', hrun, hgood, fun k hk hsome => ?_⟩
  rcases hdone k hk hsome with hin | hvisited
  · rw [hext.inStack] at hin
    exact absurd hin (Finset.notMem_empty k)
  · exact (hgood.mem_visited k).1 hvisited

end Spec

end Pixiu.PostOrder
