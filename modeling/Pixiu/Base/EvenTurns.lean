import Pixiu.Base.Turns

/-!
# Taking turns when everybody wishes for everything

Claimants who all wish for the same finite set of things, each in an order of its own, get the
same number of things, up to one:

* `hits_rounds_floor_or_ceil`: once everything is taken, each got the number of things divided by
  the number of claimants, rounded down or up;
* `card_ownedBy_rounds`: where the claimants have labels of their own, that is what is owned under
  the label of each.
-/

namespace Pixiu.Turns

variable {ι α β : Type*} {wish : β → List α} {label : ι → β} {things : Finset α} {s : State ι α β}
  {order : List ι}

/-- What is taken of a set of things. -/
def gone (things : Finset α) (s : State ι α β) : Finset α :=
  things.filter fun x => (s.owner x).isSome

/-- The claimants wish for the same things. -/
def Alike (wish : β → List α) (label : ι → β) (things : Finset α) (order : List ι) : Prop :=
  ∀ i ∈ order, ∀ x, x ∈ wish (label i) ↔ x ∈ things

theorem gone_subset (things : Finset α) (s : State ι α β) : gone things s ⊆ things :=
  Finset.filter_subset _ _

theorem isSome_owner_of_card (h : things.card ≤ (gone things s).card) {x : α} (hx : x ∈ things) :
    (s.owner x).isSome := by
  have heq : gone things s = things := Finset.eq_of_subset_of_card_le (gone_subset things s) h
  rw [← heq, gone, Finset.mem_filter] at hx
  exact hx.2

/-! ## One turn -/

variable [DecidableEq ι] [DecidableEq α]

theorem gone_give {x : α} (hx : x ∈ things) (i : ι) (h : β) :
    gone things (s.give x i h) = insert x (gone things s) := by
  ext y
  rw [gone, gone, Finset.mem_insert, Finset.mem_filter, Finset.mem_filter]
  by_cases hxy : y = x
  · subst hxy
    simp [hx]
  · simp [owner_give_of_ne hxy, hxy]

/-- Somebody who finds something left takes one thing. -/
theorem visit_of_lt {i : ι} (hwish : ∀ x, x ∈ wish (label i) ↔ x ∈ things)
    (hlt : (gone things s).card < things.card) :
    (gone things (visit wish label s i)).card = (gone things s).card + 1 ∧
      (visit wish label s i).hits i = s.hits i + 1 := by
  obtain ⟨y, hy, hfree⟩ := Finset.exists_mem_notMem_of_card_lt_card hlt
  have hexists : ∃ x ∈ wish (label i), (s.owner x).isNone = true := by
    refine ⟨y, (hwish y).2 hy, ?_⟩
    rw [gone, Finset.mem_filter, not_and, Bool.not_eq_true, Option.isSome_eq_false_iff] at hfree
    exact hfree hy
  obtain ⟨x, hchoice⟩ := Option.isSome_iff_exists.1 (List.find?_isSome.2 hexists)
  have hx : x ∈ things := (hwish x).1 (List.mem_of_find?_eq_some hchoice)
  have hnone : s.owner x = none := owner_of_choice hchoice
  rw [visit_of_choice hchoice, gone_give hx, hits_give_self]
  refine ⟨Finset.card_insert_of_notMem fun hmem => ?_, rfl⟩
  rw [gone, Finset.mem_filter, hnone] at hmem
  cases hmem.2

theorem visit_of_gone {i : ι} (hwish : ∀ x, x ∈ wish (label i) ↔ x ∈ things)
    (hall : things.card ≤ (gone things s).card) : visit wish label s i = s := by
  refine visit_of_none (List.find?_eq_none.2 fun x hx => ?_)
  have hsome := isSome_owner_of_card hall ((hwish x).1 hx)
  rw [Option.isNone_iff_eq_none]
  exact Option.isSome_iff_ne_none.1 hsome

/-! ## One round -/

/-- As many things go as there are claimants, if there are as many left. -/
theorem card_gone_round (hwish : Alike wish label things order) :
    (gone things (round wish label order s)).card =
      min ((gone things s).card + order.length) things.card := by
  induction order generalizing s with
  | nil => exact (min_eq_left (Finset.card_le_card (gone_subset things s))).symm
  | cons i order ih =>
    have hle := Finset.card_le_card (gone_subset things s)
    have hrest := ih (s := visit wish label s i) fun j hj => hwish j (List.mem_cons_of_mem _ hj)
    rw [round, List.foldl_cons]
    refine hrest.trans ?_
    rw [List.length_cons]
    rcases hle.lt_or_eq with hlt | heq
    · rw [(visit_of_lt (hwish i List.mem_cons_self) hlt).1]
      omega
    · rw [visit_of_gone (hwish i List.mem_cons_self) heq.ge]
      omega

theorem hits_visit_le (i j : ι) : (visit wish label s i).hits j ≤ s.hits j + 1 ∧
    s.hits j ≤ (visit wish label s i).hits j := by
  by_cases hij : j = i
  · subst hij
    cases hc : choice wish label s j with
    | none => simp [visit_of_none hc]
    | some x => simp [visit_of_choice hc]
  · simp [hits_visit_of_ne hij]

variable (wish label) in
/-- Nobody gets more than one thing in a round. -/
theorem hits_round_le (hnodup : order.Nodup) (j : ι) :
    (round wish label order s).hits j ≤ s.hits j + 1 ∧
      s.hits j ≤ (round wish label order s).hits j := by
  induction order generalizing s with
  | nil => exact ⟨Nat.le_succ _, le_rfl⟩
  | cons i order ih =>
    obtain ⟨hi, hnodup⟩ := List.nodup_cons.1 hnodup
    by_cases hij : j = i
    · subst hij
      have hsame : (round wish label (j :: order) s).hits j = (visit wish label s j).hits j :=
        hits_round_of_notMem hi
      rw [hsame]
      exact hits_visit_le j j
    · have hrest := ih (s := visit wish label s i) hnodup
      rwa [hits_visit_of_ne hij] at hrest

/-- Everybody gets one, if there are enough. -/
theorem hits_round_of_le (hwish : Alike wish label things order) (hnodup : order.Nodup)
    (hle : (gone things s).card + order.length ≤ things.card) {j : ι} (hj : j ∈ order) :
    (round wish label order s).hits j = s.hits j + 1 := by
  induction order generalizing s with
  | nil => cases hj
  | cons i order ih =>
    obtain ⟨hi, hnodup⟩ := List.nodup_cons.1 hnodup
    rw [List.length_cons] at hle
    obtain ⟨hcard, hhits⟩ := visit_of_lt (s := s) (hwish i List.mem_cons_self) (by omega)
    rcases List.mem_cons.1 hj with rfl | hj
    · exact (hits_round_of_notMem hi).trans hhits
    · have hne : j ≠ i := fun heq => hi (heq ▸ hj)
      have hleft : (gone things (visit wish label s i)).card + order.length ≤ things.card :=
        by omega
      have hrest := ih (fun j hj => hwish j (List.mem_cons_of_mem _ hj)) hnodup hleft hj
      rwa [hits_visit_of_ne hne] at hrest

/-! ## All rounds -/

/-- As long as there is something for everybody, everybody gets it. -/
theorem hits_rounds_of_le (hwish : Alike wish label things order) (hnodup : order.Nodup) {r : ℕ}
    (hle : r * order.length ≤ things.card) :
    (gone things (rounds wish label order r)).card = r * order.length ∧
      ∀ j ∈ order, (rounds wish label order r).hits j = r := by
  induction r with
  | zero => exact ⟨by simp [rounds, start, gone], fun _ _ => rfl⟩
  | succ r ih =>
    rw [Nat.succ_mul] at hle
    obtain ⟨hcard, hhits⟩ := ih (by omega)
    rw [rounds, Nat.succ_mul]
    refine ⟨?_, fun j hj => ?_⟩
    · rw [card_gone_round hwish, hcard, min_eq_left hle]
    · rw [hits_round_of_le hwish hnodup (by omega) hj, hhits j hj]

/-- After one more round than that, everything is taken. -/
theorem card_gone_rounds (hwish : Alike wish label things order) (hnodup : order.Nodup)
    (horder : order ≠ [])
    {r : ℕ} (hr : things.card / order.length < r) :
    things.card ≤ (gone things (rounds wish label order r)).card := by
  have hpos : 0 < order.length := List.length_pos_iff.2 horder
  have hdiv := Nat.div_mul_le_self things.card order.length
  have hlast : things.card ≤
      (gone things (rounds wish label order (things.card / order.length + 1))).card := by
    rw [rounds, card_gone_round hwish, (hits_rounds_of_le hwish hnodup hdiv).1]
    have := Nat.lt_div_mul_add hpos (a := things.card)
    omega
  have hsame : rounds wish label order r =
      rounds wish label order (things.card / order.length + 1) :=
    rounds_eq_of_le (fun i hi x hx => isSome_owner_of_card hlast ((hwish i hi x).1 hx)) hr
  rwa [hsame]

/-- **Everybody gets the same**, up to one. -/
theorem hits_rounds_floor_or_ceil (hwish : Alike wish label things order) (hnodup : order.Nodup)
    {r : ℕ}
    (hr : things.card / order.length < r) {j : ι} (hj : j ∈ order) :
    (rounds wish label order r).hits j = things.card / order.length ∨
      (rounds wish label order r).hits j = (things.card + order.length - 1) / order.length := by
  have horder : order ≠ [] := List.ne_nil_of_mem hj
  have hpos : 0 < order.length := List.length_pos_iff.2 horder
  have hdiv := Nat.div_mul_le_self things.card order.length
  have hall := card_gone_rounds hwish hnodup horder (Nat.lt_succ_self _)
  have hsame : rounds wish label order r =
      rounds wish label order (things.card / order.length + 1) :=
    rounds_eq_of_le (fun i hi x hx => isSome_owner_of_card hall ((hwish i hi x).1 hx)) hr
  obtain ⟨hcard, hhits⟩ := hits_rounds_of_le hwish hnodup hdiv
  rw [hsame, rounds]
  rcases hdiv.lt_or_eq with hlt | heq
  · -- the last round is not for everybody
    have hceil : (things.card + order.length - 1) / order.length = things.card / order.length +
        1 := by
      have hlt' := Nat.lt_div_mul_add hpos (a := things.card)
      refine Nat.div_eq_of_lt_le ?_ ?_
      · rw [Nat.succ_mul]
        omega
      · rw [Nat.succ_mul, Nat.succ_mul]
        omega
    have hround :=
      hits_round_le wish label hnodup j (s := rounds wish label order (things.card / order.length))
    rw [hhits j hj] at hround
    omega
  · refine .inl ?_
    have hround : round wish label order (rounds wish label order (things.card / order.length)) =
        rounds wish label order (things.card / order.length) := by
      refine round_eq_self fun i hi x hx => isSome_owner_of_card ?_ ((hwish i hi x).1 hx)
      rw [hcard, heq]
    rw [hround, hhits j hj]

/-! ## What each one owns -/

variable [DecidableEq β]

/-- What is owned under a label. -/
def ownedBy (things : Finset α) (s : State ι α β) (h : β) : Finset α :=
  things.filter fun x => s.owner x = some h

theorem ownedBy_give {x : α} (hx : x ∈ things) (hfree : s.owner x = none) (i : ι) (h g : β) :
    (ownedBy things (s.give x i h) g).card = (ownedBy things s g).card + if g = h then
      1 else 0 := by
  by_cases hgh : g = h
  · subst hgh
    have hinsert : ownedBy things (s.give x i g) g = insert x (ownedBy things s g) := by
      ext y
      rw [ownedBy, ownedBy, Finset.mem_insert, Finset.mem_filter, Finset.mem_filter]
      by_cases hxy : y = x
      · subst hxy
        simp [hx]
      · simp [owner_give_of_ne hxy, hxy]
    rw [hinsert, Finset.card_insert_of_notMem (by simp [ownedBy, hfree]), if_pos rfl]
  · rw [if_neg hgh]
    refine congrArg Finset.card (Finset.filter_congr fun y _ => ?_)
    by_cases hxy : y = x
    · subst hxy
      simp [hfree, Ne.symm hgh]
    · rw [owner_give_of_ne hxy]

/-- The counts of the claimants are right. -/
def Counts (things : Finset α) (label : ι → β) (order : List ι) (s : State ι α β) : Prop :=
  ∀ j ∈ order, (ownedBy things s (label j)).card = s.hits j

theorem Counts.visit (h : Counts things label order s) (hlabels : (order.map label).Nodup)
    (hwish : Alike wish label things order) {i : ι} (hi : i ∈ order) :
    Counts things label order (visit wish label s i) := by
  intro j hj
  cases hc : choice wish label s i with
  | none => rw [visit_of_none hc, h j hj]
  | some x =>
    have hx : x ∈ things := (hwish i hi x).1 (List.mem_of_find?_eq_some hc)
    rw [visit_of_choice hc, ownedBy_give hx (owner_of_choice hc), h j hj]
    by_cases hij : j = i
    · rw [hij, if_pos rfl, hits_give_self]
    · rw [if_neg fun heq => hij (List.inj_on_of_nodup_map hlabels hj hi heq), hits_give_of_ne hij,
        Nat.add_zero]

theorem Counts.round (h : Counts things label order s) (hlabels : (order.map label).Nodup)
    (hwish : Alike wish label things order) {turns : List ι} (hturns : turns ⊆ order) :
    Counts things label order (round wish label turns s) := by
  induction turns generalizing s with
  | nil => exact h
  | cons i turns ih =>
    rw [List.cons_subset] at hturns
    exact ih (h.visit hlabels hwish hturns.1) hturns.2

theorem card_ownedBy_rounds (hlabels : (order.map label).Nodup)
    (hwish : Alike wish label things order) (r : ℕ) :
    Counts things label order (rounds wish label order r) := by
  induction r with
  | zero => exact fun j _ => Finset.card_eq_zero.2 (Finset.filter_eq_empty_iff.2 nofun)
  | succ r ih => exact ih.round hlabels hwish (List.Subset.refl _)

end Pixiu.Turns
