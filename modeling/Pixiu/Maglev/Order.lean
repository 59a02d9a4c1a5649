import Pixiu.Maglev.Filling

/-!
# Populating a new table, in any order

`Populate` takes the permutations in the order in which Go delivers the entries of a map, and that
order differs from run to run.  In every order, the slots of a new table are what taking turns
leaves, and the slots on no host's permutation go to the first host that got the least
(`Fresh.slots_populate`).
-/

namespace Pixiu.Maglev

open Turns

namespace LookUpTable

/-- `Populate` does not panic. -/
structure Usable (t : LookUpTable) : Prop where
  size : 0 ≤ t.size
  modulus : t.modulus ≠ 0
  modulus_sub_one : t.modulus - 1 ≠ 0

/-! ## New tables -/

/-- What `NewLookUpTable` sets up. -/
structure Fresh (t : LookUpTable) (hosts : List Host) : Prop where
  hosts_eq : t.buckets.map Prod.snd = hosts
  bucket : ∀ e ∈ t.buckets, t.bucket e.1 = e.2
  nodup : t.buckets.Nodup
  length : t.buckets.length = t.endpointNum

theorem lookup_of_mem {buckets : List (ℕ × Host)} (hkeys : (buckets.map Prod.fst).Nodup)
    {e : ℕ × Host}
    (he : e ∈ buckets) : buckets.lookup e.1 = some e.2 := by
  induction buckets with
  | nil => cases he
  | cons b buckets ih =>
    obtain ⟨k, host⟩ := b
    rw [List.map_cons, List.nodup_cons] at hkeys
    rcases List.mem_cons.1 he with rfl | hmem
    · simp
    · have hne : e.1 ≠ k := by
        rintro rfl
        exact hkeys.1 (List.mem_map.2 ⟨e, hmem, rfl⟩)
      rw [List.lookup_cons, beq_false_of_ne hne]
      exact ih hkeys.2 hmem

theorem bucket_of_mem {t : LookUpTable} (hkeys : (t.buckets.map Prod.fst).Nodup) {e : ℕ × Host}
    (he : e ∈ t.buckets) : t.bucket e.1 = e.2 := by
  rw [bucket, lookup_of_mem hkeys he]
  rfl

theorem keys_zipIdx_swap (hosts : List Host) :
    ((hosts.zipIdx.map Prod.swap).map Prod.fst).Nodup := by
  have hkeys : (hosts.zipIdx.map Prod.swap).map Prod.fst = hosts.zipIdx.map Prod.snd := by
    rw [List.map_map]
    rfl
  rw [hkeys, List.zipIdx_map_snd]
  exact List.nodup_range'

theorem newLookUpTable_eq {tableSize : ℤ} {hosts : List Host} {t : LookUpTable}
    (h : newLookUpTable tableSize hosts = .ok t) :
    ∃ size, t = { buckets := hosts.zipIdx.map Prod.swap, endpointNum := hosts.length, size } := by
  simp only [newLookUpTable] at h
  generalize (if tableSize = 0 then _ else tableSize) = size at h
  split_ifs at h
  cases h
  exact ⟨size, rfl⟩

theorem keys_newLookUpTable {tableSize : ℤ} {hosts : List Host} {t : LookUpTable}
    (h : newLookUpTable tableSize hosts = .ok t) : (t.buckets.map Prod.fst).Nodup := by
  obtain ⟨size, rfl⟩ := newLookUpTable_eq h
  exact keys_zipIdx_swap hosts

theorem fresh_newLookUpTable {tableSize : ℤ} {hosts : List Host} {t : LookUpTable}
    (h : newLookUpTable tableSize hosts = .ok t) : t.Fresh hosts := by
  have hkeys := keys_newLookUpTable h
  refine ⟨?_, fun e he => bucket_of_mem hkeys he, List.Nodup.of_map Prod.fst hkeys, ?_⟩
  · obtain ⟨size, rfl⟩ := newLookUpTable_eq h
    rw [List.map_map]
    exact List.zipIdx_map_fst 0 hosts
  · obtain ⟨size, rfl⟩ := newLookUpTable_eq h
    simp

/-! ## Populating -/

section Populate

variable {t : LookUpTable} {hash1 hash2 : String → UInt32} {hosts : List Host}
  {order : List (ℕ × Host)}

variable (hash1 hash2) in
theorem generatePerm_of_usable (h : t.Usable) (host : Host) (i : ℕ) :
    t.generatePerm hash1 hash2 host i = some (t.permutationOf hash1 hash2 host i) :=
  if_neg fun hzero => hzero.elim h.modulus h.modulus_sub_one

theorem generatePerms_of_usable (h : t.Usable) (order : List (ℕ × Host)) :
    t.generatePerms hash1 hash2 order =
      some (order.map fun e => t.permutationOf hash1 hash2 e.2 e.1) := by
  rw [generatePerms]
  simp only [generatePerm_of_usable hash1 hash2 h]
  exact List.mapM_pure

theorem populate_of_usable (h : t.Usable) (order : List (ℕ × Host)) :
    t.populate hash1 hash2 order =
      some (t.populateFrom (order.map fun e => t.permutationOf hash1 hash2 e.2 e.1)) := by
  rw [populate, generatePerms_of_usable h]
  exact if_neg h.size.not_gt

/-- Where it panics, it panics in every order. -/
theorem populate_of_not_usable (h : ¬ t.Usable) (horder : order ≠ []) :
    t.populate hash1 hash2 order = none := by
  by_cases hmodulus : t.modulus = 0 ∨ t.modulus - 1 = 0
  · have hperms : t.generatePerms hash1 hash2 order = none := by
      obtain ⟨e, order, rfl⟩ := List.exists_cons_of_ne_nil horder
      rw [generatePerms, List.mapM_cons, generatePerm, if_pos hmodulus]
      rfl
    rw [populate, hperms]
    rfl
  · have hsize : t.size < 0 := by
      by_contra hsize
      rw [not_or] at hmodulus
      exact h ⟨not_lt.1 hsize, hmodulus.1, hmodulus.2⟩
    rw [populate]
    cases t.generatePerms hash1 hash2 order with
    | none => rfl
    | some permutations => exact if_pos hsize

/-- The slots of a fresh table, populated in an order. -/
theorem Fresh.slots_populate (hfresh : t.Fresh hosts) (h : t.Usable) (hperm : order.Perm t.buckets)
    (hhosts : hosts ≠ []) :
    ∃ k, ∀ n, k ≤ n →
      (∀ host ∈ hosts, ∀ x ∈ t.wish hash1 hash2 host,
        ((rounds (t.wish hash1 hash2) Prod.snd order n).owner x).isSome) ∧
      ∃ m, IsFirstMin (rounds (t.wish hash1 hash2) Prod.snd order n).hits order m ∧
        (t.populate hash1 hash2 order).map (·.slots) =
          some (t.renderWith (rounds (t.wish hash1 hash2) Prod.snd order n) m.2) := by
  have horder : order ≠ [] := by
    rintro rfl
    rw [← hfresh.hosts_eq, List.nil_perm.1 hperm] at hhosts
    exact hhosts rfl
  obtain ⟨k, hk⟩ := slots_populateFrom hash1 hash2 h.modulus
    (fun e he => hfresh.bucket e (hperm.mem_iff.1 he)) (hperm.nodup_iff.2 hfresh.nodup)
    (hperm.length_eq.trans hfresh.length) horder
  refine ⟨k, fun n hn => ?_⟩
  obtain ⟨howned, m, hmin, hslots⟩ := hk n hn
  refine ⟨fun host hhost => ?_, m, hmin, ?_⟩
  · rw [← hfresh.hosts_eq] at hhost
    obtain ⟨e, he, rfl⟩ := List.mem_map.1 hhost
    exact howned e (hperm.mem_iff.2 he)
  · rw [populate_of_usable h, Option.map_some, hslots]

theorem Fresh.labels_perm (hfresh : t.Fresh hosts) (hperm : order.Perm t.buckets) :
    (order.map Prod.snd).Perm hosts := hfresh.hosts_eq ▸ hperm.map Prod.snd

end Populate

end LookUpTable

end Pixiu.Maglev
