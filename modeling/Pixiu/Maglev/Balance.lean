import Pixiu.Base.EvenTurns
import Pixiu.Maglev.Order

/-!
# The share of a host

For a table whose size `m` is prime and so small that `m * (m - 1)` fits into 32 bits, a permutation
visits every slot once (`place_bijOn`): nothing wraps around, and the skip has no factor in common
with the size. Then every host wishes for every slot, and the hosts get the same number of them, up
to one (`populate_balanced`).
-/

namespace Pixiu.Maglev

open Turns

namespace LookUpTable

variable {t : LookUpTable} {hash1 hash2 : String → UInt32} {m : ℕ}

/-! ## Permutations of a small prime size -/

/-- A table of prime size in which a position is computed without wrapping around. -/
structure SmallPrime (t : LookUpTable) (m : ℕ) : Prop where
  size : t.size = m
  prime : m.Prime
  bound : m * (m - 1) < 2 ^ 32

theorem SmallPrime.len (h : t.SmallPrime m) : t.len = m :=
  by rw [LookUpTable.len, h.size, Int.toNat_natCast]

theorem SmallPrime.lt (h : t.SmallPrime m) : m < 2 ^ 32 := by
  have htwo := h.prime.two_le
  have hle : m * 1 ≤ m * (m - 1) := Nat.mul_le_mul_left m (by omega)
  have hbound := h.bound
  omega

theorem SmallPrime.toNat_modulus (h : t.SmallPrime m) : t.modulus.toNat = m := by
  rw [modulus, h.len, UInt32.toNat_ofNat', Nat.mod_eq_of_lt h.lt]

theorem SmallPrime.toNat_modulus_sub_one (h : t.SmallPrime m) : (t.modulus - 1).toNat = m - 1 := by
  have hone : (1 : UInt32) ≤ t.modulus := by
    rw [UInt32.le_iff_toNat_le, h.toNat_modulus]
    exact h.prime.one_le
  rw [UInt32.toNat_sub_of_le _ _ hone, h.toNat_modulus]
  rfl

theorem SmallPrime.usable (h : t.SmallPrime m) : t.Usable where
  size := by
    rw [h.size]
    exact Int.natCast_nonneg m
  modulus heq := by
    have := h.toNat_modulus
    rw [heq] at this
    exact h.prime.ne_zero this.symm
  modulus_sub_one heq := by
    have := h.toNat_modulus_sub_one
    rw [heq] at this
    have htwo := h.prime.two_le
    change 0 = m - 1 at this
    omega

section Place

variable (hash1 hash2) (host : Host) (i : ℕ)

theorem SmallPrime.offset_lt (h : t.SmallPrime m) :
    (t.permutationOf hash1 hash2 host i).offset.toNat < m := by
  rw [permutationOf, UInt32.toNat_mod, h.toNat_modulus]
  exact Nat.mod_lt _ h.prime.pos

theorem SmallPrime.skip_bounds (h : t.SmallPrime m) :
    0 < (t.permutationOf hash1 hash2 host i).skip.toNat ∧
      (t.permutationOf hash1 hash2 host i).skip.toNat ≤ m - 1 := by
  have htwo := h.prime.two_le
  have hlt := h.lt
  have hmod : (hash2 host).toNat % (m - 1) < m - 1 := Nat.mod_lt _ (by omega)
  rw [permutationOf, UInt32.toNat_add, UInt32.toNat_mod, h.toNat_modulus_sub_one, UInt32.toNat_one,
    Nat.mod_eq_of_lt (by omega)]
  omega

/-- Nothing wraps around. -/
theorem SmallPrime.position_eq (h : t.SmallPrime m) {j : ℕ} (hj : j < m) :
    ((t.permutationOf hash1 hash2 host i).position j t.modulus).toNat =
      ((t.permutationOf hash1 hash2 host i).offset.toNat +
        j * (t.permutationOf hash1 hash2 host i).skip.toNat) % m := by
  have hoffset := h.offset_lt hash1 hash2 host i
  obtain ⟨-, hskip⟩ := h.skip_bounds hash1 hash2 host i
  have hlt := h.lt
  have hproduct : j * (t.permutationOf hash1 hash2 host i).skip.toNat ≤ (m - 1) * (m - 1) :=
    Nat.mul_le_mul (by omega) hskip
  have hbound : (m - 1) * (m - 1) + (m - 1) = m * (m - 1) := by
    rw [← Nat.succ_mul, Nat.succ_eq_add_one, Nat.sub_add_cancel h.prime.one_le]
  have hmax := h.bound
  have hproduct' : j * (t.permutationOf hash1 hash2 host i).skip.toNat < 2 ^ 32 := by omega
  have hsum : (t.permutationOf hash1 hash2 host i).offset.toNat +
      j * (t.permutationOf hash1 hash2 host i).skip.toNat < 2 ^ 32 := by omega
  rw [Permutation.position, UInt32.toNat_mod, UInt32.toNat_add, UInt32.toNat_mul,
    UInt32.toNat_ofNat',
    h.toNat_modulus, Nat.mod_eq_of_lt (hj.trans hlt), Nat.mod_eq_of_lt hproduct',
      Nat.mod_eq_of_lt hsum]

/-- **A permutation visits every slot once.** -/
theorem SmallPrime.position_bijOn (h : t.SmallPrime m) :
    Set.BijOn (fun j => ((t.permutationOf hash1 hash2 host i).position j t.modulus).toNat)
      (Finset.range m) (Finset.range m) := by
  have hmaps :
      Set.MapsTo (fun j => ((t.permutationOf hash1 hash2 host i).position j t.modulus).toNat)
      (Finset.range m) (Finset.range m) := by
    intro j hj
    rw [Finset.mem_coe, Finset.mem_range] at hj ⊢
    simp only [h.position_eq hash1 hash2 host i hj]
    exact Nat.mod_lt _ h.prime.pos
  have hinj : Set.InjOn (fun j => ((t.permutationOf hash1 hash2 host i).position j t.modulus).toNat)
      (Finset.range m) := by
    intro j hj k hk heq
    rw [Finset.mem_coe, Finset.mem_range] at hj hk
    simp only [h.position_eq hash1 hash2 host i hj, h.position_eq hash1 hash2 host i hk] at heq
    -- the skip can be cancelled, as it is smaller than a prime
    obtain ⟨hpos, hskip⟩ := h.skip_bounds hash1 hash2 host i
    have hone := h.prime.one_le
    have hcoprime : m.Coprime (t.permutationOf hash1 hash2 host i).skip.toNat :=
      Nat.coprime_of_lt_prime hpos.ne' (by omega) h.prime
    have hcancel : j ≡ k [MOD m] :=
      Nat.ModEq.cancel_right_of_coprime hcoprime (Nat.ModEq.add_left_cancel' _ heq)
    rwa [Nat.ModEq, Nat.mod_eq_of_lt hj, Nat.mod_eq_of_lt hk] at hcancel
  exact ⟨hmaps, hinj, Finset.surjOn_of_injOn_of_card_le _ hmaps hinj le_rfl⟩

/-- Every host wishes for every slot. -/
theorem SmallPrime.mem_wish (h : t.SmallPrime m) {x : ℕ} : x ∈ t.wish hash1 hash2 host ↔ x < m := by
  have hbij := h.position_bijOn hash1 hash2 host 0
  rw [wish, List.mem_map, h.len]
  constructor
  · rintro ⟨j, hj, rfl⟩
    exact Finset.mem_range.1 (hbij.mapsTo (Finset.mem_range.2 (List.mem_range.1 hj)))
  · intro hx
    obtain ⟨j, hj, hjx⟩ := hbij.surjOn (Finset.mem_coe.2 (Finset.mem_range.2 hx))
    exact ⟨j, List.mem_range.2 (Finset.mem_range.1 hj), hjx⟩

end Place

/-! ## Tables of a small prime size -/

theorem newLookUpTable_of_prime (hm : m.Prime) (hbound : m * (m - 1) < 2 ^ 32) (hosts : List Host) :
    ∃ t, newLookUpTable m hosts = .ok t ∧ t.SmallPrime m := by
  have hlt : m < 2 ^ 32 :=
    SmallPrime.lt (t := { buckets := [], endpointNum := 0, size := m }) ⟨rfl, hm, hbound⟩
  have hsize : ((m : ℤ) % 2 ^ 64).toNat = m := by omega
  refine ⟨{ buckets := hosts.zipIdx.map Prod.swap, endpointNum := hosts.length, size := m }, ?_,
    rfl, hm, hbound⟩
  simp only [newLookUpTable, Nat.cast_eq_zero, hm.ne_zero, if_false, hsize, hm, not_true_eq_false,
    and_false]

/-- What a host owns is counted in the slots. -/
theorem count_renderWith (s : State (ℕ × Host) ℕ Host) (hall : ∀ x < t.len, (s.owner x).isSome)
    (other host : Host) :
    (t.renderWith s other).count host.val = (ownedBy (Finset.range t.len) s host).card := by
  have hslot : ∀ x ∈ List.range t.len, (((s.owner x).getD other).val == host.val) = true ↔
      decide (s.owner x = some host) = true := by
    intro x hx
    obtain ⟨owner, howner⟩ := Option.isSome_iff_exists.1 (hall x (List.mem_range.1 hx))
    rw [howner, beq_iff_eq, decide_eq_true_eq, Option.getD_some, Option.some_inj, Subtype.val_inj]
  rw [renderWith, List.count, List.countP_map]
  refine (List.countP_congr hslot).trans ?_
  rw [List.countP_eq_length_filter, ← List.toFinset_card_of_nodup (List.nodup_range.filter _),
    List.toFinset_filter, List.toFinset_range]
  simp only [decide_eq_true_eq, ownedBy]

end LookUpTable

open LookUpTable

/-- **A table of prime size is balanced**: if positions do not wrap around, every permutation visits
every slot once, and every host owns the number of slots divided by the number of hosts, rounded
down or up. -/
theorem populate_balanced {m : ℕ} (hm : m.Prime) (hbound : m * (m - 1) < 2 ^ 32) {hosts : List Host}
    (hhosts : hosts ≠ []) (hnodup : hosts.Nodup) (hash1 hash2 : String → UInt32) :
    ∃ t, newLookUpTable m hosts = .ok t ∧ ∀ order, order.Perm t.buckets →
      (∃ permutations, t.generatePerms hash1 hash2 order = some permutations ∧
        ∀ p ∈ permutations, ∀ x < m, ∃! j, j < m ∧ (p.position j t.modulus).toNat = x) ∧
      ∃ t', t.populate hash1 hash2 order = some t' ∧ t'.slots.length = m ∧
        ∀ host ∈ hosts, t'.slots.count host.val = m / hosts.length ∨
          t'.slots.count host.val = (m + hosts.length - 1) / hosts.length := by
  obtain ⟨t, hnew, hprime⟩ := newLookUpTable_of_prime hm hbound hosts
  have hfresh := fresh_newLookUpTable hnew
  refine ⟨t, hnew, fun order hperm =>
    ⟨⟨_, generatePerms_of_usable hprime.usable order, fun p hp x hx => ?_⟩, ?_⟩⟩
  · obtain ⟨e, -, rfl⟩ := List.mem_map.1 hp
    have hbij := hprime.position_bijOn hash1 hash2 e.2 e.1
    obtain ⟨j, hj, hjx⟩ := hbij.surjOn (Finset.mem_coe.2 (Finset.mem_range.2 hx))
    refine ⟨j, ⟨Finset.mem_range.1 hj, hjx⟩, ?_⟩
    rintro k ⟨hk, hkx⟩
    exact hbij.injOn (Finset.mem_coe.2 (Finset.mem_range.2 hk)) hj (hkx.trans hjx.symm)
  · -- every host wishes for every slot
    have halike : Alike (t.wish hash1 hash2) Prod.snd (Finset.range m) order := fun e _ x => by
      rw [hprime.mem_wish hash1 hash2 e.2, Finset.mem_range]
    have hlabels : (order.map Prod.snd).Perm hosts := hfresh.labels_perm hperm
    have hlength : order.length = hosts.length :=
      by rw [← List.length_map Prod.snd, hlabels.length_eq]
    have horder : order.Nodup := hperm.nodup_iff.2 hfresh.nodup
    obtain ⟨k, hk⟩ := hfresh.slots_populate hprime.usable hperm hhosts
    obtain ⟨-, least, -, hslots⟩ :=
      hk (k + m / hosts.length + 1) (Nat.le_add_right_of_le (Nat.le_add_right k _))
    obtain ⟨t', ht', hslots'⟩ := Option.map_eq_some_iff.1 hslots
    refine ⟨t', ht', ?_, fun host hhost => ?_⟩
    · rw [hslots', renderWith, List.length_map, List.length_range, hprime.len]
    · obtain ⟨e, he, rfl⟩ := List.mem_map.1 (hlabels.mem_iff.2 hhost)
      have hlate : (Finset.range m).card / order.length < k + m / hosts.length + 1 := by
        rw [Finset.card_range, hlength]
        exact Nat.lt_succ_of_le (Nat.le_add_left _ k)
      have hall : ∀ x < t.len,
          ((rounds (t.wish hash1 hash2) Prod.snd order (k + m / hosts.length + 1)).owner
            x).isSome := by
        intro x hx
        rw [hprime.len] at hx
        exact isSome_owner_of_card (card_gone_rounds halike horder (List.ne_nil_of_mem he) hlate)
          (Finset.mem_range.2 hx)
      have hhits := hits_rounds_floor_or_ceil halike horder hlate he
      rw [← card_ownedBy_rounds (hlabels.nodup_iff.2 hnodup) halike _ e he, Finset.card_range,
        hlength] at hhits
      rwa [hslots', count_renderWith _ hall, hprime.len]

/-- Two hosts share a table of five slots. -/
theorem populate_balanced_five :
    ∃ t, newLookUpTable 5 [⟨"a", by decide⟩, ⟨"b", by decide⟩] = .ok t ∧
    ∀ order, order.Perm t.buckets →
      ∃ t', t.populate (fun _ => 0) (fun _ => 0) order = some t' ∧
        (t'.slots.count "a" = 2 ∨ t'.slots.count "a" = 3) := by
  obtain ⟨t, hnew, h⟩ := populate_balanced Nat.prime_five (by decide) (List.cons_ne_nil _ _)
    (show List.Nodup [(⟨"a", by decide⟩ : Host), ⟨"b", by decide⟩] by decide) (fun _ => 0)
      (fun _ => 0)
  refine ⟨t, hnew, fun order hperm => ?_⟩
  obtain ⟨-, t', ht', -, hshare⟩ := h order hperm
  exact ⟨t', ht', hshare _ List.mem_cons_self⟩

end Pixiu.Maglev
