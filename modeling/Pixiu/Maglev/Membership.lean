import Pixiu.Maglev.Order

/-!
# Hosts that join and leave a table

`Add` and `Remove` fill the table anew, with the permutations that are there.  What they keep up is
`Filled`: the table is one that `populate` has filled, for the buckets that it has, in some order.
From that follows all that users of the table rely on (`Filled.current`): the loop of `populate` has
come to its end, every slot holds one of the hosts that have joined and not left, and every key is
answered with such a host.

`current_iff`: so it is after every sequence of `Add` and `Remove`, with one exception.  A table
without hosts may be made for a single slot, or for a size that is 0 or 1 in 32 bits.  Such a table
cannot be given a host: `Add` panics, after it has entered the host into the buckets.
-/

namespace Pixiu.Maglev

open Turns

/-- A permutation before its first turn. -/
def Permutation.reset (p : Permutation) : Permutation := { p with next := 0, hit := 0 }

namespace LookUpTable

variable {t t' : LookUpTable} {hash1 hash2 : String → UInt32} {order : List (ℕ × Host)}
  {hosts : List Host}

/-! ## What filling a table leaves alone -/

theorem reset_visit (f : Filling) (p : Permutation) : (t.visit f p).2.reset = p.reset := by
  simp only [visit]
  split_ifs <;> rfl

theorem reset_round (f : Filling) (permutations : List Permutation) :
    (t.round f permutations).2.map (·.reset) = permutations.map (·.reset) := by
  induction permutations generalizing f with
  | nil => rfl
  | cons p permutations ih => rw [round, List.map_cons, List.map_cons, reset_visit, ih]

theorem reset_loop (fuel : ℕ) (f : Filling) (permutations : List Permutation) :
    (t.loop fuel f permutations).2.map (·.reset) = permutations.map (·.reset) := by
  induction fuel generalizing f permutations with
  | zero => rfl
  | succ fuel ih =>
    rw [loop]
    split_ifs
    · rw [ih, reset_round]
    · rfl

theorem reset_populateFrom (permutations : List Permutation) :
    (t.populateFrom permutations).permutations.map (·.reset) = permutations.map (·.reset) := by
  simp only [populateFrom]
  split_ifs
  · rw [fillMissingSlots]
    split
    · exact reset_loop ..
    · rw [List.map_map, ← reset_loop (t := t) (t.len + t.endpointNum)
        { slots := List.replicate t.len "" } permutations]
      refine List.map_congr_left fun p _ => ?_
      simp only [Function.comp_apply]
      split_ifs <;> rfl
  · exact reset_loop ..

@[simp] theorem buckets_populateFrom (permutations : List Permutation) :
    (t.populateFrom permutations).buckets = t.buckets := by
  simp only [populateFrom]
  split_ifs <;> rfl

@[simp] theorem endpointNum_populateFrom (permutations : List Permutation) :
    (t.populateFrom permutations).endpointNum = t.endpointNum := by
  simp only [populateFrom]
  split_ifs <;> rfl

@[simp] theorem size_populateFrom (permutations : List Permutation) :
    (t.populateFrom permutations).size = t.size := by
  simp only [populateFrom]
  split_ifs <;> rfl

@[simp] theorem modulus_populateFrom (permutations : List Permutation) :
    (t.populateFrom permutations).modulus = t.modulus := by
  simp only [modulus, len, size_populateFrom]

/-- The loop reads the size and the buckets only. -/
theorem loop_congr (hsize : t'.size = t.size) (hbuckets : t'.buckets = t.buckets)
    (hnum : t'.endpointNum = t.endpointNum) : t'.loop = t.loop := by
  obtain ⟨slots, permutations, buckets, endpointNum, size⟩ := t
  obtain ⟨slots', permutations', buckets', endpointNum', size'⟩ := t'
  subst hsize hbuckets hnum
  have hround : round ⟨slots', permutations', buckets', endpointNum', size'⟩ =
      round ⟨slots, permutations, buckets', endpointNum', size'⟩ := by
    funext f ps
    induction ps generalizing f with
    | nil => rfl
    | cons p ps ih =>
      rw [round, round, ih]
      rfl
  funext fuel f ps
  induction fuel generalizing f ps with
  | zero => rfl
  | succ fuel ih =>
    rw [loop, loop, hround, ih]
    rfl

theorem populateFrom_congr (hsize : t'.size = t.size) (hbuckets : t'.buckets = t.buckets)
    (hnum : t'.endpointNum = t.endpointNum) (permutations : List Permutation) :
    t'.populateFrom permutations = t.populateFrom permutations := by
  have hloop := loop_congr hsize hbuckets hnum
  obtain ⟨slots, ps, buckets, endpointNum, size⟩ := t
  obtain ⟨slots', ps', buckets', endpointNum', size'⟩ := t'
  subst hsize hbuckets hnum
  rw [populateFrom, populateFrom, hloop]
  rfl

/-! ## Filled tables -/

/-- The table is one that `populate` has filled. -/
structure Filled (t : LookUpTable) (hash1 hash2 : String → UInt32) : Prop where
  size : 0 ≤ t.size
  usable : t.buckets ≠ [] → t.Usable
  keys : (t.buckets.map Prod.fst).Nodup
  hosts : (t.buckets.map Prod.snd).Nodup
  length : t.buckets.length = t.endpointNum
  filled : ∃ order : List (ℕ × Host), order.Perm t.buckets ∧
    t = t.populateFrom (order.map fun e => t.permutationOf hash1 hash2 e.2 e.1)

/-- What users of a table rely on, for the hosts that have joined it and not left. -/
structure Current (t : LookUpTable) (hosts : List Host) : Prop where
  ended : ¬ ((t.loop (t.len + t.endpointNum) { slots := List.replicate t.len "" }
      t.resetPerms.permutations).1.miss < t.endpointNum ∧
    (t.loop (t.len + t.endpointNum) { slots := List.replicate t.len "" }
      t.resetPerms.permutations).1.full < t.len)
  slots : hosts ≠ [] → t.slots.length = t.len ∧ ∀ slot ∈ t.slots, ∃ host ∈ hosts, slot = host.val
  get : hosts ≠ [] → ∀ requestHash key, ∃ host ∈ hosts, t.get requestHash key = some (.ok host.val)
  getHash : hosts ≠ [] → ∀ key, ∃ host ∈ hosts, t.getHash key = some (.ok host.val)

theorem Usable.congr (h : t.Usable) (hsize : t'.size = t.size) : t'.Usable := by
  have hmodulus : t'.modulus = t.modulus := by simp only [LookUpTable.modulus, len, hsize]
  exact ⟨hsize ▸ h.size, hmodulus ▸ h.modulus, hmodulus ▸ h.modulus_sub_one⟩

/-- The permutations of a filled table, before their first turns. -/
theorem resetPerms_of_filled
    (h : t = t.populateFrom (order.map fun e => t.permutationOf hash1 hash2 e.2 e.1)) :
    t.resetPerms.permutations = order.map fun e => t.permutationOf hash1 hash2 e.2 e.1 := by
  have hreset :=
    reset_populateFrom (t := t) (order.map fun e => t.permutationOf hash1 hash2 e.2 e.1)
  rw [← h, List.map_map] at hreset
  exact hreset

variable (hash1 hash2) in
/-- Filling a table that is set up fills it. -/
theorem filled_populateFrom (hsize : 0 ≤ t.size) (husable : t.buckets ≠ [] → t.Usable)
    (hkeys : (t.buckets.map Prod.fst).Nodup) (hhosts : (t.buckets.map Prod.snd).Nodup)
    (hlength : t.buckets.length = t.endpointNum) (hperm : order.Perm t.buckets) :
    (t.populateFrom (order.map fun e => t.permutationOf hash1 hash2 e.2 e.1)).Filled hash1 hash2
      where
  size := by rwa [size_populateFrom]
  usable h := (husable (buckets_populateFrom (t := t) _ ▸ h)).congr (size_populateFrom _)
  keys := by rwa [buckets_populateFrom]
  hosts := by rwa [buckets_populateFrom]
  length := by rwa [buckets_populateFrom, endpointNum_populateFrom]
  filled := by
    refine ⟨order, by rwa [buckets_populateFrom], ?_⟩
    have hsame : ∀ e : ℕ × Host, LookUpTable.permutationOf
        (t.populateFrom (order.map fun e => t.permutationOf hash1 hash2 e.2 e.1)) hash1 hash2 e.2
          e.1 =
          t.permutationOf hash1 hash2 e.2 e.1 := by
      intro e
      simp only [permutationOf, modulus, len, size_populateFrom]
    simp only [hsame]
    exact (populateFrom_congr (size_populateFrom _) (buckets_populateFrom _)
      (endpointNum_populateFrom _) _).symm

namespace Filled

/-- The loop of `populate` came to its end. -/
theorem ended (h : t.Filled hash1 hash2) :
    ¬ ((t.loop (t.len + t.endpointNum) { slots := List.replicate t.len "" }
      t.resetPerms.permutations).1.miss <
        t.endpointNum ∧
      (t.loop (t.len + t.endpointNum) { slots := List.replicate t.len "" }
        t.resetPerms.permutations).1.full <
        t.len) := by
  obtain ⟨order, hperm, hfilled⟩ := h.filled
  rw [resetPerms_of_filled hfilled]
  by_cases hbuckets : t.buckets = []
  · have hnum : t.endpointNum = 0 := by rw [← h.length, hbuckets, List.length_nil]
    omega
  · have husable := h.usable hbuckets
    have hlen : t.len ≠ 0 := fun hzero => husable.modulus (by rw [modulus, hzero]; rfl)
    have hstart : Loops t hash1 hash2 order 0 { slots := List.replicate t.len "" }
        (order.map fun e => t.permutationOf hash1 hash2 e.2 e.1) := loops_start rfl hlen
    obtain ⟨-, -, hcond⟩ :=
      loop_spec husable.modulus (fun e he => bucket_of_mem h.keys (hperm.mem_iff.1 he))
      (hperm.nodup_iff.2 (List.Nodup.of_map Prod.fst h.keys))
        (hperm.length_eq.trans h.length) hstart le_rfl
    exact hcond

/-- Every slot holds one of the hosts. -/
theorem slots_mem (h : t.Filled hash1 hash2) (hbuckets : t.buckets ≠ []) :
    t.slots.length = t.len ∧ ∀ slot ∈ t.slots, ∃ b ∈ t.buckets, slot = b.2.val := by
  obtain ⟨order, hperm, hfilled⟩ := h.filled
  have horder : order ≠ [] := fun hnil => hbuckets (List.nil_perm.1 (hnil ▸ hperm))
  obtain ⟨k, hk⟩ := slots_populateFrom hash1 hash2 (h.usable hbuckets).modulus
    (fun e he => bucket_of_mem h.keys (hperm.mem_iff.1 he))
    (hperm.nodup_iff.2 (List.Nodup.of_map Prod.fst h.keys)) (hperm.length_eq.trans h.length) horder
  obtain ⟨-, least, hleast, hslots⟩ := hk k le_rfl
  rw [← hfilled] at hslots
  rw [hslots, renderWith]
  refine ⟨by rw [List.length_map, List.length_range], fun slot hslot => ?_⟩
  obtain ⟨x, -, rfl⟩ := List.mem_map.1 hslot
  cases howner : (rounds (t.wish hash1 hash2) Prod.snd order k).owner x with
  | none => exact ⟨least, hperm.mem_iff.1 hleast.mem, rfl⟩
  | some host =>
    obtain ⟨e, he, rfl⟩ :=
      of_owner_rounds (P := fun _ h => ∃ e ∈ order, e.2 = h) (fun e he _ _ => ⟨e, he, rfl⟩) howner
    exact ⟨e, hperm.mem_iff.1 he, rfl⟩

/-- So does every answer. -/
theorem lookUp_mem (h : t.Filled hash1 hash2) (hbuckets : t.buckets ≠ []) (hash : UInt32) :
    ∃ b ∈ t.buckets, t.lookUp hash = some (.ok b.2.val) := by
  obtain ⟨hlength, hmem⟩ := h.slots_mem hbuckets
  have husable := h.usable hbuckets
  have hlen : t.len ≠ 0 := fun hzero => husable.modulus (by rw [modulus, hzero]; rfl)
  have hnum : t.endpointNum ≠ 0 := by
    rw [← h.length]
    exact fun hzero => hbuckets (List.length_eq_zero_iff.1 hzero)
  have hsize : t.size ≠ 0 := fun hzero => hlen (by rw [len, hzero]; rfl)
  have hlt : (hash % t.modulus).toNat < t.slots.length :=
    hlength ▸ toNat_mod_modulus_lt husable.modulus hash
  obtain ⟨b, hb, hslot⟩ := hmem _ (List.getElem_mem hlt)
  refine ⟨b, hb, ?_⟩
  rw [lookUp, if_neg (hlength ▸ hlen), if_neg (not_or.2 ⟨hsize, hnum⟩), if_neg husable.modulus,
    List.getElem?_eq_getElem hlt, hslot]
  rfl

theorem current (h : t.Filled hash1 hash2) (hhosts : t.buckets.map Prod.snd = hosts) :
    t.Current hosts := by
  have hne : hosts ≠ [] → t.buckets ≠ [] := by
    rintro hne hnil
    rw [hnil] at hhosts
    exact hne hhosts.symm
  have hmem : ∀ b ∈ t.buckets, b.2 ∈ hosts := fun b hb => hhosts ▸ List.mem_map_of_mem hb
  have hanswer : hosts ≠ [] → ∀ hash, ∃ host ∈ hosts, t.lookUp hash = some (.ok host.val) := by
    intro hne' hash
    obtain ⟨b, hb, hanswer⟩ := h.lookUp_mem (hne hne') hash
    exact ⟨b.2, hmem b hb, hanswer⟩
  refine ⟨h.ended, fun hne' => ?_, fun hne' _ key => hanswer hne' _, fun hne' key => hanswer hne' _⟩
  obtain ⟨hlength, hslots⟩ := h.slots_mem (hne hne')
  refine ⟨hlength, fun slot hslot => ?_⟩
  obtain ⟨b, hb, heq⟩ := hslots slot hslot
  exact ⟨b.2, hmem b hb, heq⟩

end Filled

/-! ## The calls -/

/-- A call of `Add` or `Remove`. -/
inductive Op where
  | add (host : Host)
  | remove (host : String)

/-- The table after a call, unless it panics. -/
def Op.apply (hash1 hash2 : String → UInt32) (t : LookUpTable) : Op → Option LookUpTable
  | .add host => t.add hash1 hash2 host
  | .remove host => (t.remove host).map Prod.fst

/-- The table after calls, one after the other. -/
def run (hash1 hash2 : String → UInt32) : LookUpTable → List Op → Option LookUpTable :=
  List.foldlM (Op.apply hash1 hash2)

/-- The hosts that have joined and not left, after a call. -/
def members (hosts : List Host) : Op → List Host
  | .add host => if host ∈ hosts then hosts else hosts ++ [host]
  | .remove host => hosts.filter (·.val ≠ host)

/-- A table with the hosts that have joined it. -/
structure Holds (t : LookUpTable) (hash1 hash2 : String → UInt32) (hosts : List Host) : Prop where
  filled : t.Filled hash1 hash2
  hosts_eq : t.buckets.map Prod.snd = hosts

theorem le_foldl_max {l : List ℕ} {a k : ℕ} (hk : k ≤ a ∨ k ∈ l) : k ≤ l.foldl max a := by
  induction l generalizing a with
  | nil => exact hk.resolve_right List.not_mem_nil
  | cons b l ih =>
    rw [List.mem_cons] at hk
    rcases hk with hk | rfl | hk
    · exact ih (.inl (hk.trans (le_max_left a b)))
    · exact ih (.inl (le_max_right a k))
    · exact ih (.inr hk)

theorem nodup_snoc {α : Type*} {l : List α} {a : α} (hl : l.Nodup) (ha : a ∉ l) :
    (l ++ [a]).Nodup :=
  List.nodup_append.2
    ⟨hl, List.nodup_singleton _, fun _ hb _ hc heq => ha (List.mem_singleton.1 hc ▸ heq ▸ hb)⟩

/-- A table with one more bucket, under a key and for a host of its own. -/
theorem Filled.join (h : t.Filled hash1 hash2) (husable : t.Usable) {k : ℕ} {host : Host}
    (hk : k ∉ t.buckets.map Prod.fst) (hhost : host ∉ t.buckets.map Prod.snd) {t₁ : LookUpTable}
    (ht₁ : t₁ = LookUpTable.resetPerms
      { t with buckets := t.buckets ++ [(k, host)], endpointNum := t.endpointNum + 1 }) :
    (t₁.populateFrom (t₁.permutations ++ [t₁.permutationOf hash1 hash2 host k])).Filled hash1
      hash2 := by
  obtain ⟨order, hperm, hfilled⟩ := h.filled
  have hreset := resetPerms_of_filled hfilled
  have hperms : t₁.permutations ++ [t₁.permutationOf hash1 hash2 host k] =
      (order ++ [(k, host)]).map fun e => t₁.permutationOf hash1 hash2 e.2 e.1 := by
    rw [ht₁, List.map_append]
    exact congrArg (· ++ _) hreset
  rw [hperms]
  subst ht₁
  refine filled_populateFrom hash1 hash2 husable.size (fun _ => husable.congr rfl) ?_ ?_ ?_
    (hperm.append_right [(k, host)])
  · rw [resetPerms, List.map_append]
    exact nodup_snoc h.keys hk
  · rw [resetPerms, List.map_append]
    exact nodup_snoc h.hosts hhost
  · rw [resetPerms, List.length_append, h.length]
    rfl

/-- **A host joins.** -/
theorem Holds.add (h : t.Holds hash1 hash2 hosts) (husable : t.Usable) (host : Host) :
    ∃ t', t.add hash1 hash2 host = some t' ∧ t'.Usable ∧
      t'.Holds hash1 hash2 (members hosts (.add host)) := by
  rw [LookUpTable.add, members, h.hosts_eq]
  by_cases hmem : host ∈ hosts
  · rw [if_pos hmem, if_pos hmem]
    exact ⟨t, rfl, husable, h⟩
  · rw [if_neg hmem, if_neg hmem]
    have hkey : (t.buckets.map Prod.fst).foldl max 0 + 1 ∉ t.buckets.map Prod.fst := fun hk =>
      absurd (le_foldl_max (a := 0) (.inr hk)) (Nat.not_succ_le_self _)
    have hfilled := h.filled.join husable hkey (h.hosts_eq ▸ hmem) rfl
    refine ⟨_, ?_, husable.congr ?_, hfilled, ?_⟩
    · have hperm := generatePerm_of_usable hash1 hash2 (husable.congr rfl) host
        ((t.buckets.map Prod.fst).foldl max 0 + 1)
      exact (congrArg (Option.bind · _) hperm).trans (if_neg husable.size.not_gt)
    · exact size_populateFrom _
    · rw [buckets_populateFrom, resetPerms, List.map_append, h.hosts_eq]
      rfl

/-- The one entry with a key. -/
theorem eraseP_key {l : List (ℕ × Host)} (hkeys : (l.map Prod.fst).Nodup) (k : ℕ) :
    l.eraseP (·.1 = k) = l.filter (·.1 ≠ k) := by
  induction l with
  | nil => rfl
  | cons e l ih =>
    rw [List.map_cons, List.nodup_cons] at hkeys
    by_cases hk : e.1 = k
    · have hrest : l.filter (·.1 ≠ k) = l := by
        refine List.filter_eq_self.2 fun e' he' => decide_eq_true fun heq => hkeys.1 ?_
        exact List.mem_map.2 ⟨e', he', heq.trans hk.symm⟩
      rw [List.eraseP_cons_of_pos (by simpa using hk), List.filter_cons_of_neg (by simpa using hk),
        hrest]
    · rw [List.eraseP_cons_of_neg (by simpa using hk), List.filter_cons_of_pos (by simpa using hk),
        ih hkeys.2]

/-- The table without one of its buckets. -/
theorem Filled.leave (h : t.Filled hash1 hash2) {b : ℕ × Host} (hb : b ∈ t.buckets)
    {t₁ : LookUpTable}
    (ht₁ : t₁ = LookUpTable.resetPerms (LookUpTable.removePerm
      { t with buckets := t.buckets.filter (·.1 ≠ b.1), endpointNum := t.endpointNum - 1 } b.1)) :
    (t₁.populateFrom t₁.permutations).Filled hash1 hash2 := by
  obtain ⟨order, hperm, hfilled⟩ := h.filled
  have horder : (order.map Prod.fst).Nodup := (hperm.map Prod.fst).nodup_iff.2 h.keys
  have hperms : t₁.permutations =
      (order.filter (·.1 ≠ b.1)).map fun e => t₁.permutationOf hash1 hash2 e.2 e.1 := by
    have hreset := congrArg (List.eraseP (·.index = b.1)) (resetPerms_of_filled hfilled)
    rw [resetPerms, List.eraseP_map, List.eraseP_map] at hreset
    rw [← eraseP_key horder, ht₁]
    exact hreset
  have hne : t.buckets ≠ [] := List.ne_nil_of_mem hb
  rw [hperms]
  subst ht₁
  refine filled_populateFrom hash1 hash2 h.size (fun _ => (h.usable hne).congr rfl) ?_ ?_ ?_
    (hperm.filter _)
  · exact h.keys.sublist (List.filter_sublist.map Prod.fst)
  · exact h.hosts.sublist (List.filter_sublist.map Prod.snd)
  · show (t.buckets.filter (·.1 ≠ b.1)).length = t.endpointNum - 1
    rw [← eraseP_key h.keys, List.length_eraseP_of_mem hb (decide_eq_true rfl), h.length]

/-- **A host leaves.** -/
theorem Holds.remove (h : t.Holds hash1 hash2 hosts) (host : String) :
    ∃ t' removed, t.remove host = some (t', removed) ∧ t'.size = t.size ∧
      t'.Holds hash1 hash2 (members hosts (.remove host)) := by
  have hkept : (∀ b ∈ t.buckets, b.2.val ≠ host) → members hosts (.remove host) = hosts := by
    intro hno
    refine List.filter_eq_self.2 fun other hother => decide_eq_true ?_
    rw [← h.hosts_eq] at hother
    obtain ⟨b, hb, rfl⟩ := List.mem_map.1 hother
    exact hno b hb
  rw [LookUpTable.remove]
  split_ifs with hnum
  · have hnil : t.buckets = [] := List.length_eq_zero_iff.1 (h.filled.length.trans hnum)
    refine ⟨t, false, rfl, rfl, ?_⟩
    rwa [hkept (by simp [hnil])]
  · split
    next hfind =>
      refine ⟨t, false, rfl, rfl, ?_⟩
      rwa [hkept fun b hb heq => by simpa [heq] using List.find?_eq_none.1 hfind b hb]
    next b hfind =>
      have hb : b ∈ t.buckets := List.mem_of_find?_eq_some hfind
      have hhost : b.2.val = host := by
        have := List.find?_some hfind
        exact of_decide_eq_true this
      refine ⟨_, true, if_neg h.filled.size.not_gt, size_populateFrom _, h.filled.leave hb rfl, ?_⟩
      -- the key and the host of a bucket tell it from the others
      rw [buckets_populateFrom]
      show (t.buckets.filter (·.1 ≠ b.1)).map Prod.snd = _
      rw [members, ← h.hosts_eq, List.filter_map]
      refine congrArg (List.map Prod.snd) (List.filter_congr fun e he => ?_)
      have hkey : e.1 = b.1 ↔ e.2.val = host := by
        constructor
        · intro heq
          rw [List.inj_on_of_nodup_map h.filled.keys he hb heq, hhost]
        · intro heq
          rw [List.inj_on_of_nodup_map h.filled.hosts he hb (Subtype.ext (heq.trans hhost.symm))]
      simp only [ne_eq, hkey, Function.comp_apply]

/-! ## Whole runs -/

/-- `Add` of a host. -/
def Op.IsAdd : Op → Prop
  | .add _ => True
  | .remove _ => False

theorem Holds.apply (h : t.Holds hash1 hash2 hosts) (husable : t.Usable) (op : Op) :
    ∃ t', op.apply hash1 hash2 t = some t' ∧ t'.Usable ∧
      t'.Holds hash1 hash2 (members hosts op) := by
  cases op with
  | add host => exact h.add husable host
  | remove host =>
    obtain ⟨t', removed, hremove, hsize, h'⟩ := h.remove host
    exact ⟨t', by rw [Op.apply, hremove]; rfl, husable.congr hsize, h'⟩

theorem Holds.run (h : t.Holds hash1 hash2 hosts) (husable : t.Usable) (ops : List Op) :
    ∃ t', LookUpTable.run hash1 hash2 t ops = some t' ∧
      t'.Holds hash1 hash2 (ops.foldl members hosts) := by
  induction ops generalizing t hosts with
  | nil => exact ⟨t, rfl, h⟩
  | cons op ops ih =>
    obtain ⟨t₁, hop, husable₁, h₁⟩ := h.apply husable op
    obtain ⟨t', hrun, h'⟩ := ih h₁ husable₁
    refine ⟨t', ?_, h'⟩
    rw [LookUpTable.run, List.foldlM_cons, hop]
    exact hrun

/-- A table of an unusable size has no hosts. -/
theorem Holds.buckets_of_not_usable (h : t.Holds hash1 hash2 hosts) (husable : ¬ t.Usable) :
    t.buckets = [] :=
  not_not.1 fun hne => husable (h.filled.usable hne)

/-- It stays as it is until a host is added. -/
theorem remove_of_not_usable (h : t.Holds hash1 hash2 hosts) (husable : ¬ t.Usable)
    (host : String) :
    t.remove host = some (t, false) := by
  refine if_pos ?_
  rw [← h.filled.length, h.buckets_of_not_usable husable]
  rfl

/-- Then `Add` panics. -/
theorem add_of_not_usable (h : t.Holds hash1 hash2 hosts) (husable : ¬ t.Usable) (host : Host) :
    t.add hash1 hash2 host = none := by
  have hzero : t.modulus = 0 ∨ t.modulus - 1 = 0 := by
    by_contra hne
    rw [not_or] at hne
    exact husable ⟨h.filled.size, hne.1, hne.2⟩
  rw [LookUpTable.add, h.buckets_of_not_usable husable, List.map_nil, if_neg List.not_mem_nil]
  exact congrArg (Option.bind · _) (if_pos hzero)

theorem run_of_not_usable (h : t.Holds hash1 hash2 hosts) (husable : ¬ t.Usable) (ops : List Op) :
    ((∀ op ∈ ops, ¬ op.IsAdd) → LookUpTable.run hash1 hash2 t ops = some t) ∧
      ((∃ op ∈ ops, op.IsAdd) → LookUpTable.run hash1 hash2 t ops = none) := by
  induction ops with
  | nil => exact ⟨fun _ => rfl, by simp⟩
  | cons op ops ih =>
    rw [LookUpTable.run, List.foldlM_cons]
    cases op with
    | add host =>
      refine ⟨fun hno => absurd trivial (hno _ List.mem_cons_self), fun _ => ?_⟩
      rw [Op.apply, add_of_not_usable h husable]
      rfl
    | remove host =>
      rw [Op.apply, remove_of_not_usable h husable]
      refine ⟨fun hno => ih.1 fun op hop => hno op (List.mem_cons_of_mem _ hop), ?_⟩
      rintro ⟨op, hop, hadd⟩
      rcases List.mem_cons.1 hop with rfl | hop
      · exact hadd.elim
      · exact ih.2 ⟨op, hop, hadd⟩

/-- Without hosts, none comes from calls that add none. -/
theorem foldl_members_nil {ops : List Op} (hno : ∀ op ∈ ops, ¬ op.IsAdd) :
    ops.foldl members [] = [] := by
  induction ops with
  | nil => rfl
  | cons op ops ih =>
    cases op with
    | add host => exact absurd trivial (hno _ List.mem_cons_self)
    | remove host => exact ih fun op hop => hno op (List.mem_cons_of_mem _ hop)

/-- A populated new table holds its hosts. -/
theorem holds_populate {tableSize : ℤ} (hnew : newLookUpTable tableSize hosts = .ok t)
    (hnodup : hosts.Nodup)
    (hperm : order.Perm t.buckets) {t₀ : LookUpTable}
    (hpopulate : t.populate hash1 hash2 order = some t₀) :
    t₀.size = t.size ∧ t₀.Holds hash1 hash2 hosts := by
  have hfresh := fresh_newLookUpTable hnew
  have hkeys : (t.buckets.map Prod.fst).Nodup := keys_newLookUpTable hnew
  have hhosts : (t.buckets.map Prod.snd).Nodup := hfresh.hosts_eq ▸ hnodup
  have husable : t.buckets ≠ [] → t.Usable := by
    intro hne
    by_contra hnot
    have horder : order ≠ [] := fun hnil => hne (List.nil_perm.1 (hnil ▸ hperm))
    rw [populate_of_not_usable hnot horder] at hpopulate
    cases hpopulate
  obtain ⟨permutations, hgenerate, hsome⟩ := Option.bind_eq_some_iff.1 hpopulate
  have hsize : ¬ t.size < 0 := by
    intro hneg
    rw [if_pos hneg] at hsome
    cases hsome
  rw [if_neg hsize, Option.some_inj] at hsome
  have hperms : permutations = order.map fun e => t.permutationOf hash1 hash2 e.2 e.1 := by
    by_cases hne : t.buckets = []
    · rw [hne, List.perm_nil] at hperm
      subst hperm
      exact (Option.some_inj.1 hgenerate).symm
    · rw [generatePerms_of_usable (husable hne), Option.some_inj] at hgenerate
      exact hgenerate.symm
  subst hsome hperms
  refine ⟨size_populateFrom _, ?_, ?_⟩
  · exact filled_populateFrom hash1 hash2 (not_lt.1 hsize) husable hkeys hhosts hfresh.length hperm
  · rw [buckets_populateFrom, hfresh.hosts_eq]

end LookUpTable

open LookUpTable

/-- **A table stays current** through a sequence of `Add` and `Remove` exactly when its size is one
that hosts can be placed in, or no host is added. -/
theorem current_iff {tableSize : ℤ} {hosts : List Host} {t t₀ : LookUpTable}
    (hnew : newLookUpTable tableSize hosts = .ok t) (hnodup : hosts.Nodup)
    {hash1 hash2 : String → UInt32}
    {order : List (ℕ × Host)} (hperm : order.Perm t.buckets)
    (hpopulate : t.populate hash1 hash2 order = some t₀) (ops : List Op) :
    (∃ t', LookUpTable.run hash1 hash2 t₀ ops = some t' ∧ t'.Current (ops.foldl members hosts)) ↔
      t.Usable ∨ ∀ op ∈ ops, ¬ op.IsAdd := by
  obtain ⟨hsize, hholds⟩ := holds_populate hnew hnodup hperm hpopulate
  constructor
  · rintro ⟨t', hrun, -⟩
    by_contra hnot
    rw [not_or] at hnot
    push Not at hnot
    have hunusable : ¬ t₀.Usable := fun husable => hnot.1 (husable.congr hsize.symm)
    rw [(run_of_not_usable hholds hunusable ops).2 hnot.2] at hrun
    cases hrun
  · intro hcond
    by_cases husable : t₀.Usable
    · obtain ⟨t', hrun, h'⟩ := hholds.run husable ops
      exact ⟨t', hrun, h'.filled.current h'.hosts_eq⟩
    · have hno := hcond.resolve_left fun husable' => husable (husable'.congr hsize)
      have hhosts : hosts = [] := by
        rw [← hholds.hosts_eq, hholds.buckets_of_not_usable husable]
        rfl
      refine ⟨t₀, (run_of_not_usable hholds husable ops).1 hno, ?_⟩
      rw [hhosts, foldl_members_nil hno]
      exact hholds.filled.current (hholds.hosts_eq.trans hhosts)

/-- A second host joins a table of two slots, and the first one leaves. -/
theorem current_iff_twoSlots : ∃ t t₀ t', newLookUpTable 2 [⟨"a", by decide⟩] = .ok t ∧
    t.populate (fun _ => 0) (fun _ => 0) t.buckets = some t₀ ∧
    LookUpTable.run (fun _ => 0) (fun _ => 0) t₀ [.add ⟨"b", by decide⟩, .remove "a"] = some t' ∧
    t'.Current [⟨"b", by decide⟩] := by
  have hnew : newLookUpTable 2 [⟨"a", by decide⟩] =
      .ok { buckets := [(0, ⟨"a", by decide⟩)], endpointNum := 1, size := 2 } := by
    simp [newLookUpTable, Nat.prime_two]
  have hpopulate : LookUpTable.populate
      { buckets := [(0, ⟨"a", by decide⟩)], endpointNum := 1, size := 2 }
      (fun _ => 0) (fun _ => 0) [(0, ⟨"a", by decide⟩)] = some _ := rfl
  obtain ⟨t', hrun, hcurrent⟩ :=
    (current_iff hnew (List.nodup_singleton _) (List.Perm.refl _) hpopulate
      [.add ⟨"b", by decide⟩, .remove "a"]).2 (.inl ⟨by decide, by decide, by decide⟩)
  exact ⟨_, _, t', hnew, hpopulate, hrun, hcurrent⟩

/-- A table for one slot and no hosts is made and populated, and panics on the first host. -/
theorem not_current_oneSlot : ∃ t t₀, newLookUpTable 1 [] = .ok t ∧
    t.populate (fun _ => 0) (fun _ => 0) t.buckets = some t₀ ∧
      LookUpTable.run (fun _ => 0) (fun _ => 0) t₀ [.add ⟨"a", by decide⟩] = none := by
  refine ⟨{ buckets := [], endpointNum := 0, size := 1 }, _, ?_, rfl, rfl⟩
  simp [newLookUpTable]

end Pixiu.Maglev
