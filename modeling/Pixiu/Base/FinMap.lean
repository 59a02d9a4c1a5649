import Mathlib

/-!
# Finite maps

A map in the sense of a hash table: a partial function together with the finite set of its keys, so
that it can be counted.  `insert`, `erase` and `filter` are described by what they do to `lookup`
and to `size`.
-/

namespace Pixiu

/-- A partial function with the finite set of the keys it is defined on. -/
structure FinMap (κ ν : Type*) where
  lookup : κ → Option ν
  keys : Finset κ
  mem_keys : ∀ k, k ∈ keys ↔ (lookup k).isSome

namespace FinMap

variable {κ ν : Type*} {m m' : FinMap κ ν} {k k' : κ} {v : ν}

/-- The keys of a map follow from its entries. -/
@[ext] theorem ext (h : ∀ k, m.lookup k = m'.lookup k) : m = m' := by
  obtain ⟨lookup, keys, hkeys⟩ := m
  obtain ⟨lookup', keys', hkeys'⟩ := m'
  obtain rfl : lookup = lookup' := funext h
  obtain rfl : keys = keys' := by
    ext k
    rw [hkeys, hkeys']
  rfl

theorem notMem_keys : k ∉ m.keys ↔ m.lookup k = none := by
  rw [m.mem_keys, Bool.not_eq_true, Option.isSome_eq_false_iff, Option.isNone_iff_eq_none]

/-- The number of entries. -/
def size (m : FinMap κ ν) : ℕ := m.keys.card

/-- The map without entries. -/
def empty : FinMap κ ν := ⟨fun _ => none, ∅, by simp⟩

@[simp] theorem lookup_empty : (empty : FinMap κ ν).lookup k = none := rfl

theorem eq_empty_of_size (h : m.size = 0) : m = empty := by
  ext1 k
  rw [lookup_empty, ← notMem_keys, Finset.card_eq_zero.1 h]
  exact Finset.notMem_empty k

/-- The entries whose key passes a test. -/
def filter (m : FinMap κ ν) (p : κ → Bool) : FinMap κ ν where
  lookup k := if p k then m.lookup k else none
  keys := m.keys.filter (p ·)
  mem_keys k := by
    rw [Finset.mem_filter, m.mem_keys]
    split <;> simp [*]

@[simp] theorem lookup_filter (p : κ → Bool) :
    (m.filter p).lookup k = if p k then m.lookup k else none := rfl

theorem size_filter_le (p : κ → Bool) : (m.filter p).size ≤ m.size :=
  Finset.card_filter_le _ _

/-- All entries changed. -/
def map (m : FinMap κ ν) (f : ν → ν) : FinMap κ ν where
  lookup k := (m.lookup k).map f
  keys := m.keys
  mem_keys k := by rw [m.mem_keys, Option.isSome_map]

@[simp] theorem lookup_map (f : ν → ν) : (m.map f).lookup k = (m.lookup k).map f := rfl

variable [DecidableEq κ]

/-- The entries of a map, and below them those of another. -/
def overlay (m m' : FinMap κ ν) : FinMap κ ν where
  lookup k := (m.lookup k).or (m'.lookup k)
  keys := m.keys ∪ m'.keys
  mem_keys k := by rw [Finset.mem_union, m.mem_keys, m'.mem_keys, Option.isSome_or, Bool.or_eq_true]

@[simp] theorem lookup_overlay : (m.overlay m').lookup k = (m.lookup k).or (m'.lookup k) := rfl

/-- An order in which the map can be ranged over. -/
def Ranges (m : FinMap κ ν) (order : List κ) : Prop := order.Nodup ∧ order.toFinset = m.keys

instance (order : List κ) : Decidable (m.Ranges order) := inferInstanceAs (Decidable (_ ∧ _))

theorem Ranges.mem_iff {order : List κ} (h : m.Ranges order) :
    k ∈ order ↔ ∃ v, m.lookup k = some v := by
  rw [← List.mem_toFinset, h.2, m.mem_keys, Option.isSome_iff_exists]

/-- One entry added or replaced. -/
def insert (m : FinMap κ ν) (k : κ) (v : ν) : FinMap κ ν where
  lookup := Function.update m.lookup k (some v)
  keys := Insert.insert k m.keys
  mem_keys k' := by
    rcases eq_or_ne k' k with rfl | hne
    · simp
    · rw [Finset.mem_insert, Function.update_of_ne hne, m.mem_keys]
      simp [hne]

@[simp] theorem lookup_insert_self : (m.insert k v).lookup k = some v := Function.update_self ..

theorem lookup_insert_of_ne (h : k' ≠ k) : (m.insert k v).lookup k' = m.lookup k' :=
  Function.update_of_ne h ..

theorem lookup_insert : (m.insert k v).lookup k' = if k' = k then some v else m.lookup k' :=
  Function.update_apply ..

/-- In a map filled from a list whose keys differ, every value is found under its key. -/
theorem lookup_foldl_insert_of_nodup {α : Type*} (key : α → κ) {l : List α}
    (h : (l.map key).Nodup) (a : α) :
    (l.foldl (fun m a => m.insert (key a) a) empty).lookup k = some a ↔ a ∈ l ∧ key a = k := by
  induction l using List.reverseRecOn with
  | nil => simp
  | append_singleton l b ih =>
    rw [List.map_append, List.nodup_append] at h
    rw [List.foldl_append, List.foldl_cons, List.foldl_nil, lookup_insert]
    by_cases hk : k = key b
    · rw [if_pos hk]
      constructor
      · intro hb
        obtain rfl := Option.some.inj hb
        exact ⟨by simp, hk.symm⟩
      · rintro ⟨ha, hkey⟩
        rcases List.mem_append.1 ha with ha | ha
        · exact absurd (hkey.trans hk) (h.2.2 _ (List.mem_map_of_mem ha) _ List.mem_cons_self)
        · rw [List.mem_singleton.1 ha]
    · rw [if_neg hk, ih h.1, List.mem_append, List.mem_singleton]
      refine and_congr_left fun hkey => (or_iff_left ?_).symm
      rintro rfl
      exact hk hkey.symm

theorem isSome_lookup_foldl_insert {α : Type*} (key : α → κ) (l : List α) (m : FinMap κ α) :
    ((l.foldl (fun m a => m.insert (key a) a) m).lookup k).isSome ↔
      (m.lookup k).isSome ∨ ∃ a ∈ l, key a = k := by
  induction l generalizing m with
  | nil => simp
  | cons b l ih =>
    rw [List.foldl_cons, ih, lookup_insert]
    by_cases hk : k = key b
    · simp [hk]
    · simp [hk, Ne.symm hk]

theorem size_insert_of_none (h : m.lookup k = none) : (m.insert k v).size = m.size + 1 :=
  Finset.card_insert_of_notMem (notMem_keys.2 h)

theorem size_insert_of_some {w : ν} (h : m.lookup k = some w) : (m.insert k v).size = m.size := by
  have hmem : k ∈ m.keys := (m.mem_keys k).2 (by simp [h])
  exact congrArg Finset.card (Finset.insert_eq_of_mem hmem)

/-- One entry removed. -/
def erase (m : FinMap κ ν) (k : κ) : FinMap κ ν where
  lookup := Function.update m.lookup k none
  keys := m.keys.erase k
  mem_keys k' := by
    rcases eq_or_ne k' k with rfl | hne
    · simp
    · rw [Finset.mem_erase, Function.update_of_ne hne, m.mem_keys]
      simp [hne]

@[simp] theorem lookup_erase_self : (m.erase k).lookup k = none := Function.update_self ..

theorem lookup_erase_of_ne (h : k' ≠ k) : (m.erase k).lookup k' = m.lookup k' :=
  Function.update_of_ne h ..

theorem lookup_erase : (m.erase k).lookup k' = if k' = k then none else m.lookup k' :=
  Function.update_apply ..

theorem size_erase_le : (m.erase k).size ≤ m.size := Finset.card_erase_le

/-- One entry changed, if it is there. -/
def modify (m : FinMap κ ν) (k : κ) (f : ν → ν) : FinMap κ ν where
  lookup := Function.update m.lookup k ((m.lookup k).map f)
  keys := m.keys
  mem_keys k' := by
    rw [m.mem_keys, Function.update_apply]
    split_ifs with h
    · rw [h, Option.isSome_map]
    · rfl

theorem lookup_modify (f : ν → ν) :
    (m.modify k f).lookup k' = if k' = k then (m.lookup k).map f else m.lookup k' :=
  Function.update_apply ..

section FoldModify

variable {α : Type*} {l : List α} (key : α → κ) (f : α → ν → ν)

theorem lookup_foldl_modify_of_notMem (h : k ∉ l.map key) :
    (l.foldl (fun m a => m.modify (key a) (f a)) m).lookup k = m.lookup k := by
  induction l generalizing m with
  | nil => rfl
  | cons a l ih =>
    rw [List.map_cons, List.mem_cons, not_or] at h
    rw [List.foldl_cons, ih h.2, lookup_modify, if_neg h.1]

/-- Entries with different keys are changed once each. -/
theorem lookup_foldl_modify_of_mem (hnodup : (l.map key).Nodup) {a : α} (ha : a ∈ l) :
    (l.foldl (fun m a => m.modify (key a) (f a)) m).lookup (key a) =
      (m.lookup (key a)).map (f a) := by
  induction l generalizing m with
  | nil => cases ha
  | cons a' l ih =>
    rw [List.map_cons, List.nodup_cons] at hnodup
    rw [List.foldl_cons]
    rcases List.mem_cons.1 ha with rfl | ha
    · rw [lookup_foldl_modify_of_notMem key f hnodup.1, lookup_modify, if_pos rfl]
    · have hne : key a ≠ key a' := fun heq => hnodup.1 (heq ▸ List.mem_map_of_mem ha)
      rw [ih hnodup.2 ha, lookup_modify, if_neg hne]

end FoldModify

end FinMap

/-! ## Tables filled from lists

A table is a partial function.  `fill` puts the entries of a list in it, one after another; when the
keys of the list are distinct, every entry is found afterwards and every other key is as before. -/

namespace Table

variable {κ ν : Type*} [DecidableEq κ]

/-- The entries of a list, put in a table one after another. -/
def fill (m : κ → Option ν) (l : List (κ × ν)) : κ → Option ν :=
  l.foldl (fun m p => Function.update m p.1 (some p.2)) m

@[simp] theorem fill_cons (m : κ → Option ν) (p : κ × ν) (l : List (κ × ν)) :
    fill m (p :: l) = fill (Function.update m p.1 (some p.2)) l := rfl

theorem fill_of_notMem {m : κ → Option ν} {l : List (κ × ν)} {k : κ} (h : k ∉ l.map Prod.fst) :
    fill m l k = m k := by
  induction l generalizing m with
  | nil => rfl
  | cons p l ih =>
    rw [List.map_cons, List.mem_cons, not_or] at h
    rw [fill_cons, ih h.2, Function.update_of_ne h.1]

theorem fill_of_mem {m : κ → Option ν} {l : List (κ × ν)} (hnodup : (l.map Prod.fst).Nodup) {k : κ}
    {v : ν} (h : (k, v) ∈ l) : fill m l k = some v := by
  induction l generalizing m with
  | nil => cases h
  | cons p l ih =>
    rw [List.map_cons, List.nodup_cons] at hnodup
    rcases List.mem_cons.1 h with rfl | h
    · rw [fill_cons, fill_of_notMem hnodup.1, Function.update_self]
    · exact ih hnodup.2 h

end Table

end Pixiu
