import Pixiu.Maglev.LookUpTable

/-!
# Filling a table is taking turns

The loop of `populate` keeps a place for every permutation and counts what is full and what is
missed.  None of that matters for the slots: they are what claimants with the hosts for labels get,
who wish for the slots of their permutations (`loop_spec`, `slots_populateFrom`).
-/

namespace Pixiu.Maglev.LookUpTable

open Turns

variable (t : LookUpTable) (hash1 hash2 : String → UInt32)

/-- The slot at a place of the permutation of a host. -/
def place (host : Host) (j : ℕ) : ℕ :=
  ((t.permutationOf hash1 hash2 host 0).position j t.modulus).toNat

/-- The slots of the permutation of a host. -/
def wish (host : Host) : List ℕ := (List.range t.len).map (t.place hash1 hash2 host)

/-- The slots of a state. -/
def render (s : State (ℕ × Host) ℕ Host) : List String :=
  (List.range t.len).map fun x => ((s.owner x).map Subtype.val).getD ""

/-- The loop and the claimants agree on the slots. -/
structure Fills (f : Filling) (s : State (ℕ × Host) ℕ Host) : Prop where
  slots : f.slots = t.render s
  full : f.full = ((Finset.range t.len).filter fun x => (s.owner x).isSome).card

/-- A permutation of the loop and its claimant. -/
structure Tracks (s : State (ℕ × Host) ℕ Host) (e : ℕ × Host) (p : Permutation) : Prop where
  offset : p.offset = (t.permutationOf hash1 hash2 e.2 e.1).offset
  skip : p.skip = (t.permutationOf hash1 hash2 e.2 e.1).skip
  index : p.index = e.1
  hit : p.hit = s.hits e
  next_le : p.next ≤ t.len
  owned : ∀ j < p.next, (s.owner (t.place hash1 hash2 e.2 j)).isSome

variable {t hash1 hash2} {f : Filling} {s : State (ℕ × Host) ℕ Host} {e : ℕ × Host}
  {p : Permutation}

theorem Tracks.position_eq (h : t.Tracks hash1 hash2 s e p) (j : ℕ) :
    (p.position j t.modulus).toNat = t.place hash1 hash2 e.2 j := by
  rw [Permutation.position, h.offset, h.skip]
  rfl

theorem toNat_mod_modulus_lt (hmodulus : t.modulus ≠ 0) (x : UInt32) :
    (x % t.modulus).toNat < t.len := by
  have hpos : 0 < t.modulus.toNat := Nat.pos_of_ne_zero fun h => hmodulus (UInt32.toNat_inj.1 h)
  have hle : t.modulus.toNat ≤ t.len := by
    rw [modulus, UInt32.toNat_ofNat']
    exact Nat.mod_le _ _
  rw [UInt32.toNat_mod]
  exact (Nat.mod_lt _ hpos).trans_le hle

variable (hash1 hash2) in
theorem place_lt (hmodulus : t.modulus ≠ 0) (host : Host) (j : ℕ) :
    t.place hash1 hash2 host j < t.len :=
  toNat_mod_modulus_lt hmodulus _

theorem getD_render (s : State (ℕ × Host) ℕ Host) {x : ℕ} (hx : x < t.len) :
    (t.render s).getD x "" = "" ↔ s.owner x = none := by
  rw [List.getD_eq_getElem?_getD, render, List.getElem?_map, List.getElem?_range hx,
    Option.map_some,
    Option.getD_some]
  cases hs : s.owner x with
  | none => simp
  | some host => simpa using host.2

/-- Who takes a slot is written into it. -/
theorem render_give {x : ℕ} (i : ℕ × Host) (host : Host) :
    t.render (s.give x i host) = (t.render s).set x host := by
  refine List.ext_getElem (by simp [render]) fun y hy _ => ?_
  rw [List.getElem_set]
  by_cases hxy : x = y
  · subst hxy
    simp [render]
  · rw [if_neg hxy]
    simp only [render, List.getElem_map, List.getElem_range, owner_give_of_ne (Ne.symm hxy)]

/-- One more slot is full. -/
theorem card_give {x : ℕ} (hx : x < t.len) (hfree : s.owner x = none) (i : ℕ × Host) (host : Host) :
    ((Finset.range t.len).filter fun y => ((s.give x i host).owner y).isSome).card =
      ((Finset.range t.len).filter fun y => (s.owner y).isSome).card + 1 := by
  have hinsert : ((Finset.range t.len).filter fun y => ((s.give x i host).owner y).isSome) =
      insert x ((Finset.range t.len).filter fun y => (s.owner y).isSome) := by
    ext y
    by_cases hxy : y = x
    · subst hxy
      simp [hx]
    · simp [owner_give_of_ne hxy, hxy]
  rw [hinsert, Finset.card_insert_of_notMem]
  simp [hfree]

/-- Where the count is that of all slots, every slot is taken. -/
theorem Fills.owned (h : t.Fills f s) (hfull : t.len ≤ f.full) {x : ℕ} (hx : x < t.len) :
    (s.owner x).isSome := by
  have hle := Finset.card_filter_le (Finset.range t.len) fun x => (s.owner x).isSome
  rw [← h.full, Finset.card_range] at hle
  refine Finset.card_filter_eq_iff.1 (h.full.symm.trans ?_) x (Finset.mem_range.2 hx)
  rw [Finset.card_range]
  omega

/-! ## One turn -/

/-- The inner loop stops at the first free place, or at the end. -/
theorem scan_spec (hmodulus : t.modulus ≠ 0) (h : t.Tracks hash1 hash2 s e p) :
    (t.scan (t.render s) p < t.len ∧
        choice (t.wish hash1 hash2) Prod.snd s e =
          some (t.place hash1 hash2 e.2 (t.scan (t.render s) p)) ∧
        ∀ j < t.scan (t.render s) p, (s.owner (t.place hash1 hash2 e.2 j)).isSome) ∨
      (t.scan (t.render s) p = t.len ∧ choice (t.wish hash1 hash2) Prod.snd s e = none ∧
        ∀ j < t.len, (s.owner (t.place hash1 hash2 e.2 j)).isSome) := by
  have hfree : ∀ j, decide ((t.render s).getD (p.position j t.modulus).toNat "" = "") =
      (s.owner (t.place hash1 hash2 e.2 j)).isNone := by
    intro j
    rw [h.position_eq, Bool.eq_iff_iff, decide_eq_true_eq,
      getD_render s (place_lt hash1 hash2 hmodulus e.2 j),
      Option.isNone_iff_eq_none]
  have hscan : t.scan (t.render s) p = ((List.range' p.next (t.len - p.next)).find? fun j =>
      (s.owner (t.place hash1 hash2 e.2 j)).isNone).getD t.len := by
    rw [scan]
    simp only [hfree]
  have hchoice : choice (t.wish hash1 hash2) Prod.snd s e = ((List.range t.len).find? fun j =>
      (s.owner (t.place hash1 hash2 e.2 j)).isNone).map (t.place hash1 hash2 e.2) := by
    rw [choice, wish, List.find?_map]
    rfl
  cases hfind : (List.range' p.next (t.len - p.next)).find? fun j =>
      (s.owner (t.place hash1 hash2 e.2 j)).isNone with
  | none =>
    rw [hfind, Option.getD_none] at hscan
    rw [List.find?_range'_eq_none] at hfind
    have hall : ∀ j < t.len, (s.owner (t.place hash1 hash2 e.2 j)).isSome := by
      intro j hj
      rcases Nat.lt_or_ge j p.next with hlt | hge
      · exact h.owned j hlt
      · simpa using hfind j hge (by omega)
    refine .inr ⟨hscan, ?_, hall⟩
    rw [hchoice, List.find?_range_eq_none.2, Option.map_none]
    intro j hj
    simpa using hall j hj
  | some start =>
    rw [hfind, Option.getD_some] at hscan
    rw [List.find?_range'_eq_some, List.mem_range'_1] at hfind
    obtain ⟨hstart, hrange, hbefore⟩ := hfind
    have hall : ∀ j < start, (s.owner (t.place hash1 hash2 e.2 j)).isSome := by
      intro j hj
      rcases Nat.lt_or_ge j p.next with hlt | hge
      · exact h.owned j hlt
      · simpa using hbefore j hge hj
    rw [hscan]
    refine .inl ⟨by omega, ?_, hall⟩
    rw [hchoice, List.find?_range_eq_some.2 ⟨hstart, List.mem_range.2 (by omega), fun j hj => ?_⟩,
      Option.map_some]
    simpa using hall j hj

/-- Slots that are taken stay taken. -/
theorem isSome_owner_visit {x : ℕ} (hx : (s.owner x).isSome) (i : ℕ × Host) :
    ((Turns.visit (t.wish hash1 hash2) Prod.snd s i).owner x).isSome := by
  obtain ⟨host, hhost⟩ := Option.isSome_iff_exists.1 hx
  exact Option.isSome_of_eq_some (owner_visit hhost)

/-- **One turn** of the loop is one turn of its claimant. -/
theorem visit_spec (hmodulus : t.modulus ≠ 0) (hbucket : t.bucket e.1 = e.2) (hf : t.Fills f s)
    (h : t.Tracks hash1 hash2 s e p) :
    t.Fills (t.visit f p).1 (Turns.visit (t.wish hash1 hash2) Prod.snd s e) ∧
      t.Tracks hash1 hash2 (Turns.visit (t.wish hash1 hash2) Prod.snd s e) e (t.visit f p).2 := by
  rw [visit]
  split_ifs with hnext
  · -- the permutation has come to its end before
    have hnone : choice (t.wish hash1 hash2) Prod.snd s e = none := by
      rw [choice, List.find?_eq_none]
      intro x hx
      obtain ⟨j, hj, rfl⟩ := List.mem_map.1 hx
      have := h.owned j (hnext ▸ List.mem_range.1 hj)
      simpa using Option.isSome_iff_ne_none.1 this
    rw [visit_of_none hnone]
    exact ⟨hf, h⟩
  · simp only [hf.slots]
    rcases scan_spec hmodulus h with ⟨hlt, hchoice, hbefore⟩ | ⟨heq, hchoice, hall⟩
    · have hfree := owner_of_choice hchoice
      rw [if_pos hlt, visit_of_choice hchoice]
      refine ⟨⟨?_, ?_⟩, h.offset, h.skip, h.index, ?_, hlt.le, fun j hj => ?_⟩
      · rw [render_give, h.position_eq, h.index, hbucket]
      · rw [card_give (place_lt hash1 hash2 hmodulus e.2 _) hfree, ← hf.full]
      · rw [hits_give_self, ← h.hit]
      · rw [← visit_of_choice hchoice]
        exact isSome_owner_visit (hbefore j hj) e
    · rw [if_neg heq.ge.not_gt, visit_of_none hchoice, heq]
      exact ⟨⟨rfl, hf.full⟩, h.offset, h.skip, h.index, h.hit, le_rfl, hall⟩

/-! ## One round -/

variable {order : List (ℕ × Host)} {permutations : List Permutation}

/-- The turns of others leave a permutation and its claimant alone. -/
theorem Tracks.of_round (h : t.Tracks hash1 hash2 s e p) (he : e ∉ order) :
    t.Tracks hash1 hash2 (Turns.round (t.wish hash1 hash2) Prod.snd order s) e p where
  offset := h.offset
  skip := h.skip
  index := h.index
  hit := by rw [hits_round_of_notMem he, h.hit]
  next_le := h.next_le
  owned j hj := by
    obtain ⟨host, hhost⟩ := Option.isSome_iff_exists.1 (h.owned j hj)
    exact Option.isSome_of_eq_some (owner_round hhost)

/-- **One round** of the loop is one round of the claimants. -/
theorem round_spec (hmodulus : t.modulus ≠ 0) (hbucket : ∀ e ∈ order, t.bucket e.1 = e.2)
    (hnodup : order.Nodup) (hf : t.Fills f s)
    (h : List.Forall₂ (t.Tracks hash1 hash2 s) order permutations) :
    t.Fills (t.round f permutations).1 (Turns.round (t.wish hash1 hash2) Prod.snd order s) ∧
      List.Forall₂ (t.Tracks hash1 hash2 (Turns.round (t.wish hash1 hash2) Prod.snd order s)) order
        (t.round f permutations).2 := by
  induction order generalizing f s permutations with
  | nil =>
    cases h
    exact ⟨hf, .nil⟩
  | cons e order ih =>
    obtain ⟨he, hnodup⟩ := List.nodup_cons.1 hnodup
    cases h with
    | @cons _ p _ permutations hp hrest =>
      obtain ⟨hf', hp'⟩ := visit_spec hmodulus (hbucket e List.mem_cons_self) hf hp
      have hrest' :
          List.Forall₂ (t.Tracks hash1 hash2 (Turns.visit (t.wish hash1 hash2) Prod.snd s e))
          order permutations := by
        have hothers : ∀ e' ∈ order, e' ∉ [e] :=
          fun e' he' heq => he (List.mem_singleton.1 heq ▸ he')
        exact ((List.forall₂_and_left _ _).2 ⟨hothers, hrest⟩).imp fun e' p' h => h.2.of_round h.1
      obtain ⟨hf'', hrest''⟩ :=
        ih (fun e he => hbucket e (List.mem_cons_of_mem _ he)) hnodup hf' hrest'
      exact ⟨hf'', .cons (hp'.of_round he) hrest''⟩

/-! ## The loop -/

/-- How many permutations have come to their end. -/
def missed (t : LookUpTable) (permutations : List Permutation) : ℕ :=
  permutations.countP fun p => p.next = t.len

theorem scan_cases (slots : List String) (p : Permutation) :
    t.scan slots p < t.len ∨ t.scan slots p = t.len := by
  rw [scan]
  cases hfind : (List.range' p.next (t.len - p.next)).find? _ with
  | none => exact .inr rfl
  | some start =>
    have := List.mem_range'_1.1 (List.mem_of_find?_eq_some hfind)
    exact .inl (by rw [Option.getD_some]; omega)

/-- A round counts what came to its end, and each permutation that had not is counted once. -/
theorem round_counts (f : Filling) (permutations : List Permutation) :
    (t.round f permutations).1.miss + t.missed permutations =
        f.miss + t.missed (t.round f permutations).2 ∧
      (t.round f permutations).1.full + (t.round f permutations).1.miss + t.missed permutations =
        f.full + f.miss + permutations.length := by
  induction permutations generalizing f with
  | nil => exact ⟨rfl, rfl⟩
  | cons p permutations ih =>
    obtain ⟨ih₁, ih₂⟩ := ih (t.visit f p).1
    simp only [round, missed, List.countP_cons, List.length_cons, decide_eq_true_eq] at ih₁ ih₂ ⊢
    have hvisit : ((t.visit f p) = (f, p) ∧ p.next = t.len) ∨
        ((t.visit f p).1.full = f.full + 1 ∧ (t.visit f p).1.miss = f.miss ∧
          (t.visit f p).2.next ≠ t.len ∧ p.next ≠ t.len) ∨
        ((t.visit f p).1.full = f.full ∧ (t.visit f p).1.miss = f.miss + 1 ∧
          (t.visit f p).2.next = t.len ∧ p.next ≠ t.len) := by
      simp only [visit]
      split_ifs with hnext hstart
      · exact .inl ⟨rfl, hnext⟩
      · exact .inr (.inl ⟨rfl, rfl, hstart.ne, hnext⟩)
      · exact .inr (.inr ⟨rfl, rfl, (scan_cases f.slots p).resolve_left hstart, hnext⟩)
    rcases hvisit with ⟨hsame, hnext⟩ | ⟨hfull, hmiss, hnext', hnext⟩ |
      ⟨hfull, hmiss, hnext', hnext⟩
    · simp only [hsame, hnext, if_true] at ih₁ ih₂ ⊢
      omega
    · rw [if_neg hnext, if_neg hnext']
      omega
    · rw [if_neg hnext, if_pos hnext']
      omega

/-- What the loop keeps. -/
structure Loops (t : LookUpTable) (hash1 hash2 : String → UInt32) (order : List (ℕ × Host)) (n : ℕ)
    (f : Filling) (permutations : List Permutation) : Prop where
  fills : t.Fills f (rounds (t.wish hash1 hash2) Prod.snd order n)
  tracks : List.Forall₂ (t.Tracks hash1 hash2 (rounds (t.wish hash1 hash2) Prod.snd order n)) order
    permutations
  miss : f.miss = t.missed permutations

/-- **The loop ends**, after some rounds, where its condition fails. -/
theorem loop_spec (hmodulus : t.modulus ≠ 0) (hbucket : ∀ e ∈ order, t.bucket e.1 = e.2)
    (hnodup : order.Nodup) (hlength : order.length = t.endpointNum) {n fuel : ℕ}
    (h : Loops t hash1 hash2 order n f permutations)
    (hfuel : t.len + t.endpointNum ≤ fuel + (f.full + f.miss)) :
    ∃ m, Loops t hash1 hash2 order m (t.loop fuel f permutations).1 (t.loop fuel f permutations).2 ∧
      ¬ ((t.loop fuel f permutations).1.miss < t.endpointNum ∧
        (t.loop fuel f permutations).1.full < t.len) := by
  induction fuel generalizing n f permutations with
  | zero =>
    refine ⟨n, h, ?_⟩
    simp only [loop]
    omega
  | succ fuel ih =>
    rw [loop]
    split_ifs with hcond
    · obtain ⟨hfills, htracks⟩ := round_spec hmodulus hbucket hnodup h.fills h.tracks
      obtain ⟨hmiss, hfull⟩ := round_counts (t := t) f permutations
      have hlen := h.tracks.length_eq
      have hmissed := h.miss
      refine ih (n := n + 1) ⟨hfills, htracks, ?_⟩ ?_
      · omega
      · omega
    · exact ⟨n, h, hcond⟩

theorem exists_tracks (h : List.Forall₂ (t.Tracks hash1 hash2 s) order permutations)
    (he : e ∈ order) :
    ∃ p ∈ permutations, t.Tracks hash1 hash2 s e p := by
  induction h with
  | nil => cases he
  | @cons e' p order permutations hp _ ih =>
    rcases List.mem_cons.1 he with rfl | he
    · exact ⟨p, List.mem_cons_self, hp⟩
    · obtain ⟨p', hp', htracks⟩ := ih he
      exact ⟨p', List.mem_cons_of_mem _ hp', htracks⟩

/-- Where the loop ends, no permutation finds a slot any more. -/
theorem Loops.owned {n : ℕ} (h : Loops t hash1 hash2 order n f permutations)
    (hmodulus : t.modulus ≠ 0)
    (hlength : order.length = t.endpointNum) (hcond : ¬ (f.miss < t.endpointNum ∧ f.full < t.len)) :
    ∀ e ∈ order, ∀ x ∈ t.wish hash1 hash2 e.2,
      ((rounds (t.wish hash1 hash2) Prod.snd order n).owner x).isSome := by
  intro e he x hx
  obtain ⟨j, hj, rfl⟩ := List.mem_map.1 hx
  rcases Nat.lt_or_ge f.miss t.endpointNum with hmiss | hmiss
  · exact h.fills.owned (by omega) (place_lt hash1 hash2 hmodulus e.2 j)
  · -- every permutation has come to its end
    have hall : ∀ p ∈ permutations, p.next = t.len := by
      have hle : t.missed permutations ≤ permutations.length := List.countP_le_length
      have hlen := h.tracks.length_eq
      have hmissed := h.miss
      have hcount : t.missed permutations = permutations.length := by omega
      simpa using List.countP_eq_length.1 hcount
    obtain ⟨p, hp, htracks⟩ := exists_tracks h.tracks he
    exact htracks.owned j (by rw [hall p hp]; exact List.mem_range.1 hj)

/-! ## The slots that nobody takes -/

/-- From one permutation on, the loop of `fillMissingSlots` keeps it or comes to the first of those
that were placed least. -/
theorem foldl_leastPlaced (h : List.Forall₂ (t.Tracks hash1 hash2 s) order permutations)
    (q : Permutation) :
    ∃ r, permutations.foldl (fun minP p => match minP with
        | none => some p
        | some q => if p.hit < q.hit then some p else some q) (some q) = some r ∧
      ((r = q ∧ ∀ e ∈ order, q.hit ≤ s.hits e) ∨
        ∃ m, t.Tracks hash1 hash2 s m r ∧ IsFirstMin s.hits order m ∧ s.hits m < q.hit) := by
  induction h generalizing q with
  | nil => exact ⟨q, rfl, .inl ⟨rfl, nofun⟩⟩
  | @cons e p order permutations hp hrest ih =>
    rw [List.foldl_cons]
    by_cases hlt : p.hit < q.hit
    · obtain ⟨r, hr, ⟨rfl, hall⟩ | ⟨m, hm, hmin, hltm⟩⟩ := ih p
      · refine ⟨r, by simpa [hlt] using hr,
          .inr ⟨e, hp, ⟨[], order, rfl, nofun, fun i hi => ?_⟩, ?_⟩⟩
        · exact hp.hit ▸ hall i hi
        · exact hp.hit ▸ hlt
      · obtain ⟨before, after, rfl, hbefore, hafter⟩ := hmin
        refine ⟨r, by simpa [hlt] using hr,
          .inr ⟨m, hm, ⟨e :: before, after, rfl, fun i hi => ?_, hafter⟩,
          hltm.trans hlt⟩⟩
        rcases List.mem_cons.1 hi with rfl | hi
        · exact hp.hit ▸ hltm
        · exact hbefore i hi
    · obtain ⟨r, hr, ⟨rfl, hall⟩ | ⟨m, hm, hmin, hltm⟩⟩ := ih q
      · refine ⟨r, by simpa [hlt] using hr, .inl ⟨rfl, fun i hi => ?_⟩⟩
        rcases List.mem_cons.1 hi with rfl | hi
        · exact hp.hit ▸ Nat.le_of_not_lt hlt
        · exact hall i hi
      · obtain ⟨before, after, rfl, hbefore, hafter⟩ := hmin
        refine ⟨r, by simpa [hlt] using hr,
          .inr ⟨m, hm, ⟨e :: before, after, rfl, fun i hi => ?_, hafter⟩,
          hltm⟩⟩
        rcases List.mem_cons.1 hi with rfl | hi
        · exact hp.hit ▸ hltm.trans_le (Nat.le_of_not_lt hlt)
        · exact hbefore i hi

theorem leastPlaced_spec (h : List.Forall₂ (t.Tracks hash1 hash2 s) order permutations)
    (horder : order ≠ []) :
    ∃ minP m, leastPlaced permutations = some minP ∧ t.Tracks hash1 hash2 s m minP ∧
      IsFirstMin s.hits order m := by
  cases h with
  | nil => exact absurd rfl horder
  | @cons e p order permutations hp hrest =>
    obtain ⟨r, hr, ⟨rfl, hall⟩ | ⟨m, hm, hmin, hltm⟩⟩ := foldl_leastPlaced hrest p
    · exact ⟨r, e, hr, hp, [], order, rfl, nofun, fun i hi => hp.hit ▸ hall i hi⟩
    · obtain ⟨before, after, rfl, hbefore, hafter⟩ := hmin
      refine ⟨r, m, hr, hm, e :: before, after, rfl, fun i hi => ?_, hafter⟩
      rcases List.mem_cons.1 hi with rfl | hi
      · exact hp.hit ▸ hltm
      · exact hbefore i hi

/-! ## The whole table -/

/-- The slots of a state, with what is left over given to a host. -/
def renderWith (t : LookUpTable) (s : State (ℕ × Host) ℕ Host) (host : Host) : List String :=
  (List.range t.len).map fun x => ((s.owner x).getD host).val

theorem map_render (s : State (ℕ × Host) ℕ Host) (host : Host) :
    ((t.render s).map fun slot => if slot = "" then host.val else slot) = t.renderWith s host := by
  rw [render, renderWith, List.map_map]
  refine List.map_congr_left fun x _ => ?_
  cases hs : s.owner x with
  | none => simp [hs]
  | some host => simp [hs, host.2]

theorem loops_start (horder : permutations = order.map fun e => t.permutationOf hash1 hash2 e.2 e.1)
    (hlen : t.len ≠ 0) :
    Loops t hash1 hash2 order 0 { slots := List.replicate t.len "" } permutations where
  fills := by
    refine ⟨?_, ?_⟩
    · simp [render, rounds, start, List.map_const']
    · simp [rounds, start]
  tracks := by
    rw [horder, List.forall₂_map_right_iff, List.forall₂_same]
    exact fun e _ => ⟨rfl, rfl, rfl, rfl, Nat.zero_le _, fun j hj => absurd hj (Nat.not_lt_zero j)⟩
  miss := by
    rw [missed, eq_comm, List.countP_eq_zero, horder]
    intro p hp
    obtain ⟨e, -, rfl⟩ := List.mem_map.1 hp
    exact fun h => hlen (of_decide_eq_true h).symm

variable (hash1 hash2) in
/-- **A populated table**: from some round on, every wish of the claimants is owned, and the slots
are theirs, with what is left over given to the first of those who got the least. -/
theorem slots_populateFrom (hmodulus : t.modulus ≠ 0) (hbucket : ∀ e ∈ order, t.bucket e.1 = e.2)
    (hnodup : order.Nodup) (hlength : order.length = t.endpointNum) (horder : order ≠ []) :
    ∃ k, ∀ n, k ≤ n →
      (∀ e ∈ order, ∀ x ∈ t.wish hash1 hash2 e.2,
        ((rounds (t.wish hash1 hash2) Prod.snd order n).owner x).isSome) ∧
      ∃ m, IsFirstMin (rounds (t.wish hash1 hash2) Prod.snd order n).hits order m ∧
        (t.populateFrom (order.map fun e => t.permutationOf hash1 hash2 e.2 e.1)).slots =
          t.renderWith (rounds (t.wish hash1 hash2) Prod.snd order n) m.2 := by
  have hlen : t.len ≠ 0 := fun h => by
    have := place_lt hash1 hash2 hmodulus (order.head horder).2 0
    omega
  have hstart : Loops t hash1 hash2 order 0 { slots := List.replicate t.len "" }
      (order.map fun e => t.permutationOf hash1 hash2 e.2 e.1) := loops_start rfl hlen
  have hfuel : t.len + t.endpointNum ≤ t.len + t.endpointNum + (0 + 0) := le_rfl
  obtain ⟨k, hloops, hcond⟩ := loop_spec hmodulus hbucket hnodup hlength hstart hfuel
  have howned := hloops.owned hmodulus hlength hcond
  refine ⟨k, fun n hn => ?_⟩
  rw [rounds_eq_of_le howned hn]
  refine ⟨howned, ?_⟩
  obtain ⟨minP, m, hleast, hm, hmin⟩ := leastPlaced_spec hloops.tracks horder
  refine ⟨m, hmin, ?_⟩
  simp only [populateFrom]
  split_ifs with hfill
  · simp only [fillMissingSlots, hleast, hloops.fills.slots]
    rw [hm.index, hbucket m hmin.mem, map_render]
  · -- every slot is taken
    have hfull : t.len ≤ (t.loop (t.len + t.endpointNum) { slots := List.replicate t.len "" }
        (order.map fun e => t.permutationOf hash1 hash2 e.2 e.1)).1.full := by
      have hpos := List.length_pos_iff.2 horder
      omega
    rw [hloops.fills.slots, render, renderWith]
    refine List.map_congr_left fun x hx => ?_
    obtain ⟨host, hhost⟩ :=
      Option.isSome_iff_exists.1 (hloops.fills.owned hfull (List.mem_range.1 hx))
    rw [hhost]
    rfl

end Pixiu.Maglev.LookUpTable
