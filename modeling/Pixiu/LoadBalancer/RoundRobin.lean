import Pixiu.LoadBalancer.Picking

/-!
# Round robin

`RoundRobin` of `pkg/cluster/loadbalancer/roundrobin/round_robin.go`.  The cursor is a 32-bit
counter; the endpoint is the one at the cursor modulo the number of endpoints.

`fair_iff`: as many picks as there are endpoints select each endpoint once, exactly when the number
of endpoints fits into 32 bits and the cursor does not wrap among the picks, or wraps where a round
ends anyway because the number divides `2 ^ 32`.
-/

namespace Pixiu.LoadBalancer

open Pixiu.Cluster

/-- The cursor that a pick adds to; without one it panics. -/
def PickContext.cursor? (c : PickContext) : Option UInt32 :=
  match c.roundRobinCursor, c.config with
  | some cursor, _ => some cursor
  | none, some _ => some c.prePickEndpointIndex
  | none, none => none

/-- `RoundRobin.HandlerWithSnapshot`: the choice and how far the cursor moves, or nothing where it
panics. -/
def RoundRobin.handlerWithSnapshot (c : PickContext) : Option (Pick × UInt32) :=
  if c.healthyEndpoints.length = 0 then some (.nil, 0)
  else do
    let index ← c.cursor?
    let len := UInt32.ofNat c.healthyEndpoints.length
    -- the remainder of a division by zero
    if len = 0 then none
    else
      let endpoint ← c.healthyEndpoints[(index % len).toNat]?
      pure (.owned endpoint, 1)

namespace RoundRobin

/-- So many picks in a row from the same endpoints. -/
def picks : ℕ → PickContext → Option (List Pick)
  | 0, _ => some []
  | n + 1, c => do
      let (pick, delta) ← handlerWithSnapshot c
      let rest ← picks n (c.advance delta)
      pure (pick :: rest)

/-- As many picks as there are endpoints select each endpoint once. -/
def Fair (c : PickContext) : Prop :=
  ∃ chosen, picks c.healthyEndpoints.length c = some chosen ∧
    chosen.Perm (c.healthyEndpoints.map .owned)

variable {c : PickContext} {cursor : UInt32}

/-! ## What the picks are -/

theorem cursor?_advance (hcursor : c.cursor? = some cursor) (delta : UInt32) :
    (c.advance delta).cursor? = some (cursor + delta) := by
  unfold PickContext.cursor? at hcursor
  unfold PickContext.advance PickContext.cursor?
  cases hrr : c.roundRobinCursor with
  | some current =>
    rw [hrr] at hcursor
    obtain rfl := Option.some_inj.1 hcursor
    rfl
  | none =>
    rw [hrr] at hcursor
    cases hconfig : c.config with
    | none =>
      rw [hconfig] at hcursor
      cases hcursor
    | some config =>
      rw [hconfig] at hcursor
      obtain rfl := Option.some_inj.1 hcursor
      rfl

@[simp] theorem healthyEndpoints_advance (c : PickContext) (delta : UInt32) :
    (c.advance delta).healthyEndpoints = c.healthyEndpoints := by
  unfold PickContext.advance
  split <;> rfl

theorem handlerWithSnapshot_eq (hcursor : c.cursor? = some cursor)
    (hlen : UInt32.ofNat c.healthyEndpoints.length ≠ 0) :
    handlerWithSnapshot c =
      c.healthyEndpoints[(cursor % UInt32.ofNat c.healthyEndpoints.length).toNat]?.map fun e =>
        (.owned e, 1) := by
  have hne : c.healthyEndpoints.length ≠ 0 := fun hzero => hlen (by rw [hzero]; rfl)
  rw [handlerWithSnapshot, if_neg hne, hcursor, Option.bind_eq_bind, Option.bind_some, if_neg hlen]
  cases c.healthyEndpoints[(cursor % UInt32.ofNat c.healthyEndpoints.length).toNat]? <;> rfl

/-- The pick after `k` others is at the cursor plus `k`. -/
theorem picks_eq (hcursor : c.cursor? = some cursor)
    (hlen : UInt32.ofNat c.healthyEndpoints.length ≠ 0) (n : ℕ) :
    ∃ chosen, picks n c = some chosen ∧ chosen.length = n ∧ ∀ k < n, ∃ e,
      c.healthyEndpoints[((cursor + UInt32.ofNat k) % UInt32.ofNat
        c.healthyEndpoints.length).toNat]? = some e ∧
      chosen[k]? = some (.owned e) := by
  induction n generalizing c cursor with
  | zero => exact ⟨[], rfl, rfl, fun k hk => absurd hk (Nat.not_lt_zero k)⟩
  | succ n ih =>
    have hlt : (cursor % UInt32.ofNat c.healthyEndpoints.length).toNat <
        c.healthyEndpoints.length := by
      have hpos : 0 < (UInt32.ofNat c.healthyEndpoints.length).toNat :=
        Nat.pos_of_ne_zero fun hzero => hlen (UInt32.toNat_inj.1 hzero)
      rw [UInt32.toNat_mod]
      exact (Nat.mod_lt _ hpos).trans_le (by rw [UInt32.toNat_ofNat']; exact Nat.mod_le _ _)
    obtain ⟨chosen, hchosen, hlength, hget⟩ := ih (cursor?_advance hcursor 1)
      (by rw [healthyEndpoints_advance]; exact hlen)
    rw [healthyEndpoints_advance] at hget
    obtain ⟨first, hfirst⟩ : ∃ e,
        c.healthyEndpoints[(cursor % UInt32.ofNat c.healthyEndpoints.length).toNat]? =
        some e := ⟨_, List.getElem?_eq_getElem hlt⟩
    refine ⟨.owned first :: chosen, ?_, congrArg (· + 1) hlength, ?_⟩
    · rw [picks, handlerWithSnapshot_eq hcursor hlen, hfirst]
      show (picks n (c.advance 1) >>= _) = _
      rw [hchosen]
      rfl
    · intro k hk
      cases k with
      | zero =>
        refine ⟨first, ?_, rfl⟩
        rw [show cursor + UInt32.ofNat 0 = cursor from UInt32.add_zero _, hfirst]
      | succ k =>
        obtain ⟨e, he, hk'⟩ := hget k (Nat.lt_of_succ_lt_succ hk)
        refine ⟨e, ?_, hk'⟩
        rw [UInt32.ofNat_add, add_comm (UInt32.ofNat k), ← add_assoc]
        exact he

/-- The index of that endpoint. -/
theorem toNat_index (cursor : UInt32) (k len : ℕ) :
    ((cursor + UInt32.ofNat k) % UInt32.ofNat len).toNat = (cursor.toNat + k) % 2 ^ 32 %
      (len % 2 ^ 32) := by
  rw [UInt32.toNat_mod, UInt32.toNat_add, UInt32.toNat_ofNat', UInt32.toNat_ofNat', Nat.add_mod_mod]

/-! ## A window without a break -/

/-- Where nothing is lost at `2 ^ 32`, the picks are the endpoints from the cursor on. -/
theorem fair_of_window (hcursor : c.cursor? = some cursor)
    (hlt : c.healthyEndpoints.length < 2 ^ 32)
    (hwindow : ∀ k < c.healthyEndpoints.length,
      (cursor.toNat + k) % 2 ^ 32 % c.healthyEndpoints.length =
        (cursor.toNat + k) % c.healthyEndpoints.length) :
    Fair c := by
  by_cases hzero : c.healthyEndpoints.length = 0
  · rw [Fair, hzero, List.length_eq_zero_iff.1 hzero]
    exact ⟨[], rfl, .nil⟩
  have hlen : UInt32.ofNat c.healthyEndpoints.length ≠ 0 := by
    rw [Ne, ← UInt32.toNat_inj, UInt32.toNat_ofNat', Nat.mod_eq_of_lt hlt]
    exact hzero
  obtain ⟨chosen, hchosen, hlength, hget⟩ := picks_eq hcursor hlen c.healthyEndpoints.length
  have hrotate : chosen = (c.healthyEndpoints.rotate cursor.toNat).map .owned := by
    refine List.ext_getElem? fun k => ?_
    by_cases hk : k < c.healthyEndpoints.length
    · obtain ⟨e, he, hpick⟩ := hget k hk
      rw [toNat_index, Nat.mod_eq_of_lt hlt, hwindow k hk, add_comm] at he
      rw [hpick, List.getElem?_map, List.getElem?_rotate hk, he]
      rfl
    · rw [List.getElem?_eq_none (hlength ▸ not_lt.1 hk), List.getElem?_eq_none]
      rw [List.length_map, List.length_rotate]
      exact not_lt.1 hk
  exact ⟨chosen, hchosen, hrotate ▸ (List.rotate_perm _ _).map _⟩

/-! ## A window with a break -/

/-- Two of the residues in a window that wraps at `m` are equal, if `n` does not divide `m`. -/
theorem exists_collision {m n cursor : ℕ} (hcursor : cursor < m) (hwrap : m < cursor + n)
    (hdvd : ¬ n ∣ m) :
    ∃ i j, i < j ∧ j < n ∧ (cursor + i) % m % n = (cursor + j) % m % n := by
  have hn : 0 < n := by omega
  have hpos : 0 < m % n := Nat.pos_of_ne_zero fun hzero => hdvd (Nat.dvd_of_mod_eq_zero hzero)
  have hmod := Nat.mod_lt m hn
  have hdiv := Nat.div_add_mod m n
  by_cases hle : m % n ≤ m - cursor
  · -- a multiple of `n` comes before the wrap, and `0` after it
    refine ⟨m - cursor - m % n, m - cursor, by omega, by omega, ?_⟩
    have hi : cursor + (m - cursor - m % n) = n * (m / n) := by omega
    have hj : cursor + (m - cursor) = m := by omega
    have hlt : n * (m / n) < m := by omega
    rw [hi, hj, Nat.mod_self, Nat.zero_mod, Nat.mod_eq_of_lt hlt, Nat.mul_mod_right]
  · -- the window starts after a multiple of `n` by less than what comes after the wrap
    refine ⟨0, m % n, hpos, hmod, ?_⟩
    have hj : cursor + m % n - m < n := by omega
    have hstart : cursor = cursor + m % n - m + n * (m / n) := by omega
    rw [Nat.mod_eq_sub_mod (by omega : m ≤ cursor + m % n),
      Nat.mod_eq_of_lt (by omega : cursor + m % n - m < m),
      Nat.mod_eq_of_lt hj, add_zero, Nat.mod_eq_of_lt hcursor]
    conv_lhs => rw [hstart]
    rw [Nat.add_mul_mod_self_left, Nat.mod_eq_of_lt hj]

variable (hnodup : c.healthyEndpoints.Nodup) (hfair : Fair c)
include hnodup hfair

/-- Fair picks are different. -/
theorem Fair.injective {chosen : List Pick}
    (hchosen : picks c.healthyEndpoints.length c = some chosen) :
    chosen.Perm (c.healthyEndpoints.map .owned) ∧ chosen.Nodup := by
  obtain ⟨chosen', hchosen', hperm⟩ := hfair
  obtain rfl := Option.some_inj.1 (hchosen.symm.trans hchosen')
  exact ⟨hperm, hperm.nodup_iff.2 (hnodup.map fun a b h => Pick.owned.inj h)⟩

theorem Fair.lt (hcursor : c.cursor? = some cursor) : c.healthyEndpoints.length < 2 ^ 32 := by
  by_contra hge
  have hpos : c.healthyEndpoints.length ≠ 0 := by omega
  by_cases hlen : UInt32.ofNat c.healthyEndpoints.length = 0
  · -- the first pick panics
    obtain ⟨n, hn⟩ := Nat.exists_eq_succ_of_ne_zero hpos
    obtain ⟨chosen, hchosen, -⟩ := hfair
    rw [hn, picks, handlerWithSnapshot, if_neg hpos, hcursor] at hchosen
    simp [hlen] at hchosen
  · -- the endpoint after all that 32 bits can count is not picked
    obtain ⟨chosen, hchosen, hlength, hget⟩ := picks_eq hcursor hlen c.healthyEndpoints.length
    obtain ⟨hperm, -⟩ := Fair.injective hnodup hfair hchosen
    have hmod : c.healthyEndpoints.length % 2 ^ 32 < 2 ^ 32 := Nat.mod_lt _ (by decide)
    have hlast : c.healthyEndpoints.length % 2 ^ 32 < c.healthyEndpoints.length := by omega
    have hmem : Pick.owned c.healthyEndpoints[c.healthyEndpoints.length % 2 ^ 32] ∈ chosen :=
      hperm.mem_iff.2 (List.mem_map_of_mem (List.getElem_mem hlast))
    obtain ⟨k, hk⟩ := List.mem_iff_getElem?.1 hmem
    have hklt : k < c.healthyEndpoints.length := hlength ▸ (List.getElem?_eq_some_iff.1 hk).1
    obtain ⟨e, he, hpick⟩ := hget k hklt
    obtain rfl := Pick.owned.inj (Option.some_inj.1 (hpick.symm.trans hk))
    rw [toNat_index] at he
    obtain ⟨hlt, hsame⟩ := List.getElem?_eq_some_iff.1 he
    have hindex := (hnodup.getElem_inj_iff).1 hsame
    have hne : 0 < c.healthyEndpoints.length % 2 ^ 32 := by
      refine Nat.pos_of_ne_zero fun hzero => hlen ?_
      rw [← UInt32.toNat_inj, UInt32.toNat_ofNat', hzero]
      rfl
    exact absurd hindex (Nat.mod_lt _ hne).ne

theorem Fair.dvd_or (hcursor : c.cursor? = some cursor) :
    c.healthyEndpoints.length ∣ 2 ^ 32 ∨ cursor.toNat + c.healthyEndpoints.length ≤ 2 ^ 32 := by
  by_contra hnot
  obtain ⟨hdvd, hwrap⟩ := not_or.1 hnot
  have hlt := Fair.lt hnodup hfair hcursor
  have hcursorLt : cursor.toNat < 2 ^ 32 := cursor.toNat_lt
  obtain ⟨i, j, hij, hj, hsame⟩ := exists_collision hcursorLt (not_le.1 hwrap) hdvd
  have hlen : UInt32.ofNat c.healthyEndpoints.length ≠ 0 := by
    rw [Ne, ← UInt32.toNat_inj, UInt32.toNat_ofNat', Nat.mod_eq_of_lt hlt]
    exact fun hzero => by
      rw [hzero] at hj
      exact absurd hj (Nat.not_lt_zero _)
  obtain ⟨chosen, hchosen, hlength, hget⟩ := picks_eq hcursor hlen c.healthyEndpoints.length
  obtain ⟨-, hchosenNodup⟩ := Fair.injective hnodup hfair hchosen
  obtain ⟨e, he, hpick⟩ := hget i (hij.trans hj)
  obtain ⟨e', he', hpick'⟩ := hget j hj
  rw [toNat_index, Nat.mod_eq_of_lt hlt] at he he'
  rw [hsame, he', Option.some_inj] at he
  subst he
  exact List.nodup_iff_getElem?_ne_getElem?.1 hchosenNodup i j hij (hlength ▸ hj)
    (hpick.trans hpick'.symm)

omit hnodup hfair

/-- **Round robin is fair** exactly where the counter of the picks does not lose a part of a
round. -/
theorem fair_iff (hcursor : c.cursor? = some cursor) (hnodup : c.healthyEndpoints.Nodup) :
    Fair c ↔ c.healthyEndpoints.length < 2 ^ 32 ∧
      (c.healthyEndpoints.length ∣ 2 ^ 32 ∨ cursor.toNat + c.healthyEndpoints.length ≤ 2 ^ 32) := by
  constructor
  · exact fun hfair => ⟨Fair.lt hnodup hfair hcursor, Fair.dvd_or hnodup hfair hcursor⟩
  · rintro ⟨hlt, hdvd | hwindow⟩
    · exact fair_of_window hcursor hlt fun k _ => Nat.mod_mod_of_dvd _ hdvd
    · refine fair_of_window hcursor hlt fun k hk => ?_
      have hbelow : cursor.toNat + k < 2 ^ 32 := by omega
      rw [Nat.mod_eq_of_lt hbelow]

/-- Three endpoints and a cursor. -/
def threeEndpoints (cursor : UInt32) : PickContext where
  config := none
  healthyEndpoints := [{ id := "a" }, { id := "b" }, { id := "c" }]
  roundRobinCursor := some cursor

theorem fair_threeEndpoints : Fair (threeEndpoints 7) :=
  (fair_iff (c := threeEndpoints 7) rfl (by decide)).2 ⟨by decide, .inr (by decide)⟩

/-- At the last value of the cursor the first endpoint is picked twice and the last one not at
all. -/
theorem not_fair_threeEndpoints :
    picks 3 (threeEndpoints 4294967295) =
      some [.owned { id := "a" }, .owned { id := "a" }, .owned { id := "b" }] ∧
    ¬ Fair (threeEndpoints 4294967295) :=
  ⟨rfl, fun hfair => absurd (Fair.dvd_or (by decide) hfair rfl) (by decide)⟩

end RoundRobin

end Pixiu.LoadBalancer
