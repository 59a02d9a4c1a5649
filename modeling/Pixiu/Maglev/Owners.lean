import Pixiu.Maglev.Membership

/-!
# Whose bucket took a slot

A slot holds a host, and two buckets may have the same host.  To say which bucket took a slot,
`populate` is run once more with the same permutations, on the same table with the number of every
bucket in the place of its host (`numbered`).  What is written plays no part in who takes what, so
the two runs go the same way (`marks_populateFrom`).
-/

namespace Pixiu.Maglev

/-- The number of a bucket, in the place of a host. -/
def numberOf (k : ℕ) : Host := ⟨k.repr, fun h => by simpa using congrArg String.toList h⟩

theorem numberOf_injective {k l : ℕ} (h : (numberOf k).val = (numberOf l).val) : k = l :=
  Nat.repr_injective h

namespace LookUpTable

variable {t : LookUpTable} {slots owners : List String} {f f' : Filling} {p : Permutation}
  {permutations : List Permutation}

/-- The table with the numbers of the buckets in the place of the hosts. -/
def numbered (t : LookUpTable) : LookUpTable :=
  { t with buckets := t.buckets.map fun b => (b.1, numberOf b.1) }

/-- The keys of the buckets. -/
def keys (t : LookUpTable) : List ℕ := t.buckets.map Prod.fst

/-- A slot and its owner: nobody has taken it, or a bucket has. -/
def Mark (t : LookUpTable) (slot owner : String) : Prop :=
  slot = "" ∧ owner = "" ∨ ∃ k ∈ t.keys, slot = t.bucket k ∧ owner = (numberOf k).val

/-- Slots and their owners. -/
structure Marks (t : LookUpTable) (slots owners : List String) : Prop where
  length : slots.length = owners.length
  mark : ∀ x, t.Mark (slots.getD x "") (owners.getD x "")

theorem bucket_ne_empty {k : ℕ} (hk : k ∈ t.keys) : t.bucket k ≠ "" := by
  rw [bucket]
  cases hlookup : t.buckets.lookup k with
  | none =>
    obtain ⟨b, hb, rfl⟩ := List.mem_map.1 hk
    rw [List.lookup_eq_none_iff] at hlookup
    simpa using hlookup b hb
  | some host => exact host.2

theorem bucket_numbered {k : ℕ} (hk : k ∈ t.keys) : t.numbered.bucket k = (numberOf k).val := by
  have hlookup : ∀ l : List (ℕ × Host), k ∈ l.map Prod.fst →
      (l.map fun b => (b.1, numberOf b.1)).lookup k = some (numberOf k) := by
    intro l hl
    induction l with
    | nil => cases hl
    | cons b l ih =>
      rw [List.map_cons, List.lookup_cons]
      by_cases hb : k = b.1
      · simp [hb]
      · rw [beq_false_of_ne hb]
        exact ih ((List.mem_cons.1 hl).resolve_left hb)
  rw [bucket, numbered, hlookup _ hk]
  rfl

@[simp] theorem keys_numbered : t.numbered.keys = t.keys := by
  rw [keys, numbered, List.map_map]
  rfl

theorem Mark.empty_iff {slot owner : String} (h : t.Mark slot owner) : slot = "" ↔ owner = "" := by
  rcases h with ⟨hslot, howner⟩ | ⟨k, hk, rfl, rfl⟩
  · simp [hslot, howner]
  · exact iff_of_false (bucket_ne_empty hk) (numberOf k).2

theorem Marks.set (h : t.Marks slots owners) {k : ℕ} (hk : k ∈ t.keys) (x : ℕ) :
    t.Marks (slots.set x (t.bucket k)) (owners.set x (numberOf k).val) := by
  refine ⟨by rw [List.length_set, List.length_set, h.length], fun y => ?_⟩
  have hy := h.mark y
  simp only [List.getD_eq_getElem?_getD] at hy ⊢
  rw [List.getElem?_set, List.getElem?_set, h.length]
  split_ifs
  · exact .inr ⟨k, hk, rfl, rfl⟩
  · exact .inl ⟨rfl, rfl⟩
  · exact hy

/-- What nobody has taken goes to one bucket. -/
theorem Marks.fill (h : t.Marks slots owners) {k : ℕ} (hk : k ∈ t.keys) :
    t.Marks (slots.map fun slot => if slot = "" then t.bucket k else slot)
      (owners.map fun owner => if owner = "" then (numberOf k).val else owner) := by
  refine ⟨by rw [List.length_map, List.length_map, h.length], fun x => ?_⟩
  have hx := h.mark x
  simp only [List.getD_eq_getElem?_getD, List.getElem?_map] at hx ⊢
  by_cases hlt : x < slots.length
  · rw [List.getElem?_eq_getElem hlt, List.getElem?_eq_getElem (h.length ▸ hlt)] at hx ⊢
    simp only [Option.map_some, Option.getD_some] at hx ⊢
    by_cases hempty : slots[x] = ""
    · rw [if_pos hempty, if_pos (hx.empty_iff.1 hempty)]
      exact .inr ⟨k, hk, rfl, rfl⟩
    · rw [if_neg hempty, if_neg fun howner => hempty (hx.empty_iff.2 howner)]
      exact hx
  · rw [List.getElem?_eq_none (not_lt.1 hlt), List.getElem?_eq_none (h.length ▸ not_lt.1 hlt)]
    exact .inl ⟨rfl, rfl⟩

/-! ## The two runs -/

theorem scan_numbered (h : t.Marks slots owners) (p : Permutation) :
    t.numbered.scan owners p = t.scan slots p := by
  have hfree : ∀ x, decide (owners.getD x "" = "") = decide (slots.getD x "" = "") := fun x =>
    decide_eq_decide.2 (h.mark x).empty_iff.symm
  simp only [scan]
  exact congrArg (Option.getD · _) (congrArg (List.find? · _) (funext fun start => hfree _))

/-- Two states of the loop, with hosts and with numbers. -/
structure Parallel (t : LookUpTable) (f f' : Filling) : Prop where
  marks : t.Marks f.slots f'.slots
  full : f.full = f'.full
  miss : f.miss = f'.miss

theorem parallel_visit (h : t.Parallel f f') (hp : p.index ∈ t.keys) :
    t.Parallel (t.visit f p).1 (t.numbered.visit f' p).1 ∧
      (t.visit f p).2 = (t.numbered.visit f' p).2 := by
  have hscan := scan_numbered h.marks p
  have hlen : t.numbered.len = t.len := rfl
  have hmodulus : t.numbered.modulus = t.modulus := rfl
  simp only [visit, hscan, hlen, hmodulus, bucket_numbered hp]
  split_ifs
  · exact ⟨h, rfl⟩
  · exact ⟨⟨h.marks.set hp _, congrArg (· + 1) h.full, h.miss⟩, rfl⟩
  · exact ⟨⟨h.marks, h.full, congrArg (· + 1) h.miss⟩, rfl⟩

theorem parallel_round (h : t.Parallel f f') (hkeys : ∀ p ∈ permutations, p.index ∈ t.keys) :
    t.Parallel (t.round f permutations).1 (t.numbered.round f' permutations).1 ∧
      (t.round f permutations).2 = (t.numbered.round f' permutations).2 := by
  induction permutations generalizing f f' with
  | nil => exact ⟨h, rfl⟩
  | cons p permutations ih =>
    obtain ⟨hvisit, hp⟩ := parallel_visit h (hkeys p List.mem_cons_self)
    obtain ⟨hrest, hps⟩ := ih hvisit fun q hq => hkeys q (List.mem_cons_of_mem _ hq)
    simp only [round]
    exact ⟨hrest, by rw [hp, hps]⟩

theorem index_round (hkeys : ∀ p ∈ permutations, p.index ∈ t.keys) (f : Filling) :
    ∀ p ∈ (t.round f permutations).2, p.index ∈ t.keys := by
  intro p hp
  have hmem : p.reset ∈ permutations.map (·.reset) :=
    reset_round (t := t) f permutations ▸ List.mem_map_of_mem hp
  obtain ⟨q, hq, heq⟩ := List.mem_map.1 hmem
  have hindex : q.reset.index = p.reset.index := congrArg Permutation.index heq
  exact show p.reset.index ∈ t.keys from hindex ▸ hkeys q hq

theorem parallel_loop (h : t.Parallel f f') (hkeys : ∀ p ∈ permutations, p.index ∈ t.keys)
    (fuel : ℕ) :
    t.Parallel (t.loop fuel f permutations).1 (t.numbered.loop fuel f' permutations).1 ∧
      (t.loop fuel f permutations).2 = (t.numbered.loop fuel f' permutations).2 ∧
      ∀ p ∈ (t.loop fuel f permutations).2, p.index ∈ t.keys := by
  induction fuel generalizing f f' permutations with
  | zero => exact ⟨h, rfl, hkeys⟩
  | succ fuel ih =>
    have hlen : t.numbered.len = t.len := rfl
    have hnum : t.numbered.endpointNum = t.endpointNum := rfl
    simp only [loop, hlen, hnum, ← h.full, ← h.miss]
    split_ifs
    · obtain ⟨hround, hps⟩ := parallel_round h hkeys
      rw [← hps]
      exact ih hround (index_round hkeys f)
    · exact ⟨h, rfl, hkeys⟩

theorem mem_of_leastPlaced (h : leastPlaced permutations = some p) : p ∈ permutations := by
  -- every step keeps what it has or takes the next
  have hfold : ∀ (g : Option Permutation → Permutation → Option Permutation),
      (∀ init q, g init q = init ∨ g init q = some q) →
      ∀ (l : List Permutation) (init : Option Permutation), l.foldl g init = some p →
        init = some p ∨ p ∈ l := by
    intro g hg l
    induction l with
    | nil => exact fun init h => .inl h
    | cons q l ih =>
      intro init h
      rcases ih _ h with h' | h'
      · rcases hg init q with hkeep | htake
        · exact .inl (hkeep ▸ h')
        · rw [htake] at h'
          obtain rfl := Option.some_inj.1 h'
          exact .inr List.mem_cons_self
      · exact .inr (List.mem_cons_of_mem _ h')
  refine (hfold _ ?_ permutations none h).resolve_left (by simp)
  intro init q
  cases init with
  | none => exact .inr rfl
  | some q' =>
    by_cases hlt : q.hit < q'.hit
    · exact .inr (if_pos hlt)
    · exact .inl (if_neg hlt)

/-- **The two runs go the same way.** -/
theorem marks_populateFrom (hkeys : ∀ p ∈ permutations, p.index ∈ t.keys) :
    t.Marks (t.populateFrom permutations).slots (t.numbered.populateFrom permutations).slots := by
  have hlen : t.numbered.len = t.len := rfl
  have hnum : t.numbered.endpointNum = t.endpointNum := rfl
  have hstart : t.Parallel { slots := List.replicate t.len "" }
      { slots := List.replicate t.len "" } := by
    refine ⟨⟨rfl, fun x => .inl ?_⟩, rfl, rfl⟩
    have hfree : (List.replicate t.len "").getD x "" = "" := by
      rw [List.getD_eq_getElem?_getD, List.getElem?_replicate]
      split_ifs <;> rfl
    exact ⟨hfree, hfree⟩
  obtain ⟨hloop, hps, hkeys'⟩ := parallel_loop hstart hkeys (t.len + t.endpointNum)
  simp only [populateFrom, hlen, hnum, ← hps, ← hloop.full, ← hloop.miss]
  split_ifs
  · simp only [fillMissingSlots]
    split
    next => exact hloop.marks
    next minP hleast =>
      -- what is left over goes to one bucket
      have hmin := hkeys' minP (mem_of_leastPlaced hleast)
      rw [bucket_numbered hmin]
      exact hloop.marks.fill hmin
  · exact hloop.marks

/-! ## What is taken stays taken -/

variable {x : ℕ} {slot : String}

theorem free_of_scan_lt (h : t.scan slots p < t.len) :
    slots.getD (p.position (t.scan slots p) t.modulus).toNat "" = "" := by
  rw [scan] at h ⊢
  cases hfind : (List.range' p.next (t.len - p.next)).find? _ with
  | none =>
    rw [hfind] at h
    exact absurd h (lt_irrefl _)
  | some start =>
    have hfree := List.find?_some hfind
    exact of_decide_eq_true hfree

theorem kept_visit (hx : f.slots[x]? = some slot) (hslot : slot ≠ "") :
    (t.visit f p).1.slots[x]? = some slot := by
  simp only [visit]
  split_ifs with hnext hstart
  · exact hx
  · -- the slot that is written is a free one
    have hfree := free_of_scan_lt hstart
    rw [List.getElem?_set_ne, hx]
    rintro rfl
    rw [List.getD_eq_getElem?_getD, hx] at hfree
    exact hslot hfree
  · exact hx

theorem kept_round (hx : f.slots[x]? = some slot) (hslot : slot ≠ "") :
    (t.round f permutations).1.slots[x]? = some slot := by
  induction permutations generalizing f with
  | nil => exact hx
  | cons p permutations ih => exact ih (kept_visit hx hslot)

theorem kept_loop (hx : f.slots[x]? = some slot) (hslot : slot ≠ "") (fuel : ℕ) :
    (t.loop fuel f permutations).1.slots[x]? = some slot := by
  induction fuel generalizing f permutations with
  | zero => exact hx
  | succ fuel ih =>
    rw [loop]
    split_ifs
    · exact ih (kept_round hx hslot)
    · exact hx

theorem kept_fillMissingSlots (hx : slots[x]? = some slot) (hslot : slot ≠ "") :
    (t.fillMissingSlots slots permutations).1[x]? = some slot := by
  rw [fillMissingSlots]
  split
  · exact hx
  · rw [List.getElem?_map, hx, Option.map_some, if_neg hslot]

/-- **Who comes first** gets the first slot of its permutation. -/
theorem slots_populateFrom_first (hmodulus : t.modulus ≠ 0) (hnum : 0 < t.endpointNum)
    (hnext : p.next = 0)
    (hp : p.index ∈ t.keys) (permutations : List Permutation) :
    (t.populateFrom (p :: permutations)).slots[(p.position 0 t.modulus).toNat]? =
      some (t.bucket p.index) := by
  have hlt : (p.position 0 t.modulus).toNat < t.len := toNat_mod_modulus_lt hmodulus _
  have hlen : 0 < t.len := by omega
  have hscan : t.scan (List.replicate t.len "") p = 0 := by
    obtain ⟨n, hn⟩ : ∃ n, t.len = n + 1 := ⟨t.len - 1, by omega⟩
    rw [scan, hnext, Nat.sub_zero, hn, List.range'_succ, List.find?_cons_of_pos]
    · rfl
    · rw [← hn, List.getD_eq_getElem?_getD, List.getElem?_replicate, if_pos hlt]
      rfl
  have hvisit :
      (t.visit { slots := List.replicate t.len "" } p).1.slots[(p.position 0 t.modulus).toNat]? =
      some (t.bucket p.index) := by
    rw [visit, if_neg (by omega)]
    simp only [hscan, if_pos hlen]
    rw [List.getElem?_set_self (by rwa [List.length_replicate])]
  have hloop : (t.loop (t.len + t.endpointNum) { slots := List.replicate t.len "" }
      (p :: permutations)).1.slots[(p.position 0 t.modulus).toNat]? = some (t.bucket p.index) := by
    obtain ⟨fuel, hfuel⟩ : ∃ fuel, t.len + t.endpointNum = fuel + 1 :=
      ⟨t.len + t.endpointNum - 1, by omega⟩
    rw [hfuel, loop, if_pos ⟨hnum, hlen⟩]
    exact kept_loop (kept_round hvisit (bucket_ne_empty hp)) (bucket_ne_empty hp) fuel
  simp only [populateFrom]
  split_ifs
  · exact kept_fillMissingSlots hloop (bucket_ne_empty hp)
  · exact hloop

end LookUpTable

end Pixiu.Maglev
