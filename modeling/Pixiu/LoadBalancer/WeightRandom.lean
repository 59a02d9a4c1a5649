import Pixiu.LoadBalancer.Picking
import Pixiu.Base.Text

/-!
# Weighted random

`WeightRandom` of `pkg/cluster/loadbalancer/weightrandom/weight_random.go`.  A number is drawn below
the sum of the weights, and the first endpoint whose prefix sum is above the number is selected.

`proportional_iff`: every endpoint has as many of the numbers as its weight, exactly when the sum of
the weights is below `2 ^ 63`.  Above that the sum wraps.
-/

namespace Pixiu.LoadBalancer.WeightRandom

open Pixiu.Cluster

/-- Addition of `int`. -/
def addInt (a b : ℤ) : ℤ := (a + b).bmod (2 ^ 64)

/-- The weight of an endpoint: its metadata entry, or the default. -/
def weight (endpoint : Endpoint) : ℤ :=
  match (endpoint.metadata.lookup "weight").bind Text.atoi with
  | some w => if 0 ≤ w then w else 0
  | none => 0

/-- `totalWeight` after the first loop. -/
def totalWeight (endpoints : List Endpoint) : ℤ :=
  endpoints.foldl (fun total endpoint => addInt total (weight endpoint)) 0

/-- The second loop: the endpoint that corresponds to the random number, or nothing when the loop
ends. -/
def loop (randomNumber : ℤ) : ℤ → List Endpoint → Option Endpoint
  | _, [] => none
  | currentWeightSum, endpoint :: rest =>
      let currentWeightSum := addInt currentWeightSum (weight endpoint)
      if randomNumber < currentWeightSum then
        some endpoint else loop randomNumber currentWeightSum rest

/-- A call of `rand.Intn`: its argument, and the endpoint for each number it may return. -/
structure Draw where
  n : ℤ
  select : ℤ → Endpoint

/-- `WeightRandom.HandlerWithSnapshot`; without endpoints there is no draw. -/
def handlerWithSnapshot (c : PickContext) : Option Draw :=
  match c.healthyEndpoints with
  | [] => none
  | first :: rest =>
      let endpoints := first :: rest
      if totalWeight endpoints ≤ 0 then
        some { n := endpoints.length,
               select := fun randomIndex => endpoints.getD randomIndex.toNat first }
      else
        some { n := totalWeight endpoints,
               select := fun randomNumber => (loop randomNumber 0 endpoints).getD first }

/-- The selection is proportional to the weights. -/
structure Proportional (endpoints : List Endpoint) (draw : Draw) : Prop where
  n_eq : draw.n = (endpoints.map weight).sum
  card_eq : ∀ e ∈ endpoints, (((Finset.Ico 0 draw.n).filter (draw.select · = e)).card : ℤ) =
    weight e
  positive : ∀ r ∈ Finset.Ico 0 draw.n, 0 < weight (draw.select r)
  /-- The last line is not reached. -/
  isSome_loop : ∀ r ∈ Finset.Ico 0 draw.n, (loop r 0 endpoints).isSome

variable {c : PickContext} {endpoints : List Endpoint} {draw : Draw}

/-! ## Sums -/

theorem weight_nonneg (endpoint : Endpoint) : 0 ≤ weight endpoint := by
  unfold weight
  split
  · split
    · assumption
    · exact le_rfl
  · exact le_rfl

theorem sum_weight_nonneg (endpoints : List Endpoint) : 0 ≤ (endpoints.map weight).sum := by
  refine List.sum_nonneg fun w hw => ?_
  obtain ⟨e, -, rfl⟩ := List.mem_map.1 hw
  exact weight_nonneg e

theorem addInt_eq {a b : ℤ} (hle : 0 ≤ a + b) (hlt : a + b < 2 ^ 63) : addInt a b = a + b :=
  Int.bmod_eq_of_le (le_trans (by decide) hle) (lt_of_lt_of_eq hlt (by decide))

/-- The total is the sum up to wrapping. -/
theorem totalWeight_eq (endpoints : List Endpoint) :
    totalWeight endpoints = (endpoints.map weight).sum.bmod (2 ^ 64) := by
  suffices h : ∀ s : ℤ, endpoints.foldl (fun total endpoint => addInt total (weight endpoint))
      (s.bmod (2 ^ 64)) =
      (s + (endpoints.map weight).sum).bmod (2 ^ 64) by
    have hzero := h 0
    rwa [Int.zero_bmod, zero_add] at hzero
  induction endpoints with
  | nil =>
    intro s
    rw [List.map_nil, List.sum_nil, add_zero]
    rfl
  | cons e rest ih =>
    intro s
    rw [List.foldl_cons, addInt, Int.bmod_add_bmod, ih, List.map_cons, List.sum_cons, add_assoc]

theorem totalWeight_lt (endpoints : List Endpoint) : totalWeight endpoints < 2 ^ 63 := by
  rw [totalWeight_eq]
  exact lt_of_lt_of_eq (Int.bmod_lt (by decide)) (by decide)

theorem totalWeight_of_lt (hlt : (endpoints.map weight).sum < 2 ^ 63) :
    totalWeight endpoints = (endpoints.map weight).sum := by
  rw [totalWeight_eq]
  exact Int.bmod_eq_of_le (le_trans (by decide) (sum_weight_nonneg endpoints))
    (lt_of_lt_of_eq hlt (by decide))

theorem sum_pos (hpos : ∃ e ∈ endpoints, 0 < weight e) : 0 < (endpoints.map weight).sum := by
  obtain ⟨e, he, hweight⟩ := hpos
  refine hweight.trans_le (List.single_le_sum (fun w hw => ?_) _ (List.mem_map_of_mem he))
  obtain ⟨e', -, rfl⟩ := List.mem_map.1 hw
  exact weight_nonneg e'

/-! ## The loop -/

theorem mem_of_loop {r s : ℤ} {e : Endpoint} (h : loop r s endpoints = some e) : e ∈ endpoints := by
  induction endpoints generalizing s with
  | nil => cases h
  | cons first rest ih =>
    rw [loop] at h
    split at h
    · obtain rfl := Option.some_inj.1 h
      exact List.mem_cons_self
    · exact List.mem_cons_of_mem _ (ih h)

/-- One turn of the loop, while the sums do not wrap. -/
theorem loop_cons {r s : ℤ} {e : Endpoint} {rest : List Endpoint} (hs : 0 ≤ s)
    (hlt : s + ((e :: rest).map weight).sum < 2 ^ 63) :
    loop r s (e :: rest) = if r < s + weight e then some e else loop r (s + weight e) rest := by
  rw [List.map_cons, List.sum_cons] at hlt
  have hweight := weight_nonneg e
  have hrest := sum_weight_nonneg rest
  rw [loop, addInt_eq (by omega) (by omega)]

theorem isSome_loop {r s : ℤ} (hs : 0 ≤ s) (hlt : s + (endpoints.map weight).sum < 2 ^ 63)
    (hr : r < s + (endpoints.map weight).sum) (hle : s ≤ r) : (loop r s endpoints).isSome := by
  induction endpoints generalizing s with
  | nil =>
    rw [List.map_nil, List.sum_nil] at hr
    omega
  | cons e rest ih =>
    rw [loop_cons hs hlt]
    rw [List.map_cons, List.sum_cons] at hlt hr
    have hweight := weight_nonneg e
    split
    · rfl
    · exact ih (by omega) (by omega) (by omega) (by omega)

/-- An endpoint is found for as many numbers as its weight. -/
theorem card_loop {s : ℤ} {e : Endpoint} (hnodup : endpoints.Nodup) (he : e ∈ endpoints)
    (hs : 0 ≤ s)
    (hlt : s + (endpoints.map weight).sum < 2 ^ 63) :
    (((Finset.Ico s (s + (endpoints.map weight).sum)).filter (loop · s endpoints = some e)).card :
    ℤ) = weight e := by
  induction endpoints generalizing s with
  | nil => cases he
  | cons first rest ih =>
    obtain ⟨hnotmem, hnodup⟩ := List.nodup_cons.1 hnodup
    have hloop := fun r => loop_cons (r := r) hs hlt
    have hweight := weight_nonneg first
    have hrest := sum_weight_nonneg rest
    simp only [List.map_cons, List.sum_cons, ← add_assoc] at hlt ⊢
    -- the numbers of the first endpoint, and those of the rest
    rw [← Finset.Ico_union_Ico_eq_Ico (b := s + weight first) (by omega) (by omega),
      Finset.filter_union,
      Finset.card_union_of_disjoint
        (Finset.disjoint_filter_filter (Finset.Ico_disjoint_Ico_consecutive _ _ _))]
    have hfirst : ∀ r ∈ Finset.Ico s (s + weight first), loop r s (first :: rest) = some first := by
      intro r hr
      rw [hloop, if_pos (Finset.mem_Ico.1 hr).2]
    have hlater : ∀ r ∈ Finset.Ico (s + weight first) (s + weight first + (rest.map weight).sum),
        loop r s (first :: rest) = loop r (s + weight first) rest := by
      intro r hr
      rw [hloop, if_neg (not_lt.2 (Finset.mem_Ico.1 hr).1)]
    by_cases hsame : e = first
    · subst hsame
      rw [Finset.filter_true_of_mem hfirst, Finset.filter_false_of_mem, Int.card_Ico,
        Finset.card_empty]
      · omega
      · intro r hr hfound
        rw [hlater r hr] at hfound
        exact hnotmem (mem_of_loop hfound)
    · rw [Finset.filter_false_of_mem, Finset.card_empty, Finset.filter_congr fun r hr => by
        rw [hlater r hr]]
      · rw [Nat.zero_add]
        exact ih hnodup ((List.mem_cons.1 he).resolve_left hsame) (by omega) (by omega)
      · intro r hr hfound
        exact hsame (Option.some_inj.1 ((hfirst r hr).symm.trans hfound)).symm

/-! ## The draw -/

/-- Below `2 ^ 63` the draw is proportional. -/
theorem proportional_of_lt (hdraw : handlerWithSnapshot c = some draw)
    (hnodup : c.healthyEndpoints.Nodup)
    (hpos : ∃ e ∈ c.healthyEndpoints, 0 < weight e)
    (hlt : (c.healthyEndpoints.map weight).sum < 2 ^ 63) :
    Proportional c.healthyEndpoints draw := by
  rw [handlerWithSnapshot] at hdraw
  cases hc : c.healthyEndpoints with
  | nil =>
    rw [hc] at hdraw
    cases hdraw
  | cons first rest =>
    rw [hc] at hdraw hnodup hpos hlt
    have htotal := totalWeight_of_lt hlt
    dsimp only at hdraw
    rw [if_neg (not_le.2 (htotal ▸ sum_pos hpos)), Option.some_inj, htotal] at hdraw
    subst hdraw
    have hfound : ∀ r ∈ Finset.Ico 0 ((first :: rest).map weight).sum,
        (loop r 0 (first :: rest)).isSome := by
      intro r hr
      obtain ⟨hle, hr⟩ := Finset.mem_Ico.1 hr
      exact isSome_loop le_rfl (by rwa [zero_add]) (by rwa [zero_add]) hle
    have hcard : ∀ e ∈ first :: rest, (((Finset.Ico 0 ((first :: rest).map weight).sum).filter
        fun r => (loop r 0 (first :: rest)).getD first = e).card : ℤ) = weight e := by
      intro e he
      have hcount := card_loop hnodup he le_rfl (by rwa [zero_add])
      rw [zero_add] at hcount
      rw [← hcount]
      refine congrArg (fun numbers => (Finset.card numbers : ℤ))
        (Finset.filter_congr fun r hr => ?_)
      obtain ⟨e', he'⟩ := Option.isSome_iff_exists.1 (hfound r hr)
      rw [he', Option.getD_some, Option.some_inj]
    refine ⟨rfl, hcard, fun r hr => ?_, hfound⟩
    obtain ⟨e, he⟩ := Option.isSome_iff_exists.1 (hfound r hr)
    have hselect : (loop r 0 (first :: rest)).getD first = e := by rw [he, Option.getD_some]
    -- the number itself is one of those of its endpoint
    show 0 < weight ((loop r 0 (first :: rest)).getD first)
    rw [hselect, ← hcard e (mem_of_loop he)]
    exact_mod_cast Finset.card_pos.2 ⟨r, Finset.mem_filter.2 ⟨hr, hselect⟩⟩

/-- A draw has an argument below `2 ^ 63`, like the length of a slice. -/
theorem n_lt (hdraw : handlerWithSnapshot c = some draw)
    (hlength : c.healthyEndpoints.length < 2 ^ 63) :
    draw.n < 2 ^ 63 := by
  rw [handlerWithSnapshot] at hdraw
  cases hc : c.healthyEndpoints with
  | nil =>
    rw [hc] at hdraw
    cases hdraw
  | cons first rest =>
    rw [hc] at hdraw hlength
    dsimp only at hdraw
    split at hdraw
    · obtain rfl := Option.some_inj.1 hdraw
      show (((first :: rest).length : ℕ) : ℤ) < 2 ^ 63
      exact_mod_cast hlength
    · obtain rfl := Option.some_inj.1 hdraw
      exact totalWeight_lt _

/-- **The selection is proportional to the weights** exactly when their sum is an `int`. -/
theorem proportional_iff (hdraw : handlerWithSnapshot c = some draw)
    (hnodup : c.healthyEndpoints.Nodup)
    (hlength : c.healthyEndpoints.length < 2 ^ 63) (hpos : ∃ e ∈ c.healthyEndpoints, 0 < weight e) :
    Proportional c.healthyEndpoints draw ↔ (c.healthyEndpoints.map weight).sum < 2 ^ 63 := by
  constructor
  · intro h
    rw [← h.n_eq]
    exact n_lt hdraw hlength
  · exact proportional_of_lt hdraw hnodup hpos

/-- Two endpoints with these weights. -/
def twoWeights (a b : String) : PickContext where
  config := none
  healthyEndpoints :=
    [{ id := "a", metadata := [("weight", a)] }, { id := "b", metadata := [("weight", b)] }]

theorem proportional_threeAndZero :
    ∃ draw, handlerWithSnapshot (twoWeights "3" "0") = some draw ∧
      Proportional (twoWeights "3" "0").healthyEndpoints draw := by
  have hdraw : handlerWithSnapshot (twoWeights "3" "0") = some _ := rfl
  exact ⟨_, hdraw,
    (proportional_iff hdraw (by decide) (by decide) ⟨_, List.mem_cons_self, by decide⟩).2
      (by decide)⟩

/-- With two weights of `2 ^ 63 - 1`, the sum is `-2`, and one of two numbers is drawn. -/
theorem not_proportional_large :
    ∃ draw, handlerWithSnapshot (twoWeights "9223372036854775807" "9223372036854775807") =
      some draw ∧
      draw.n = 2 ∧ (∀ e ∈ (twoWeights "9223372036854775807" "9223372036854775807").healthyEndpoints,
        weight e = 2 ^ 63 - 1) ∧
      ¬ Proportional (twoWeights "9223372036854775807" "9223372036854775807").healthyEndpoints
        draw := by
  have hdraw : handlerWithSnapshot (twoWeights "9223372036854775807" "9223372036854775807") =
      some _ := rfl
  exact ⟨_, hdraw, rfl, by decide, fun h => absurd h.n_eq (by decide)⟩

end Pixiu.LoadBalancer.WeightRandom
