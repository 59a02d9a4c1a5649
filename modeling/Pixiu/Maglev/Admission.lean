import Pixiu.Maglev.Membership

/-!
# Which table sizes are admitted

The error of `NewLookUpTable` says that a table size should be a prime number of at least 100 times
the number of hosts.  The test rejects a size only if it is neither.  `admits_only_safe_iff` says
what the test is worth: the accepted sizes are as the error says, and safe for every operation,
exactly for those arguments that are rejected, or are as the error says and are not 1 in 32 bits.

A size that is not safe makes `Populate` panic, or for want of hosts the first `Add`
(`not_panics_iff_usable`).
-/

namespace Pixiu.Maglev

/-- The size that `NewLookUpTable` looks at: the given one, or for 0 the first default size that is
big enough. -/
def chosenSize (tableSize : ℤ) (hosts : List Host) : ℤ :=
  if tableSize = 0 then (defaultTableSize.find? ((hosts.length * 100 : ℤ) < ·)).getD 0 else
    tableSize

/-- The sizes that the test rejects. -/
def Rejected (size : ℤ) (hosts : List Host) : Prop :=
  size < hosts.length * 100 ∧ ¬ Nat.Prime (size % 2 ^ 64).toNat

instance (size : ℤ) (hosts : List Host) : Decidable (Rejected size hosts) :=
  inferInstanceAs (Decidable (_ ∧ _))

namespace LookUpTable

variable {t t' : LookUpTable} {hash1 hash2 : String → UInt32}

/-! ## Calls that panic -/

/-- A call of a method of a table; `Populate` comes with the order in which it gets the buckets. -/
inductive Call where
  | populate (order : List (ℕ × Host))
  | add (host : Host)
  | remove (host : String)
  | get (requestHash : String → UInt32) (key : String)
  | getHash (key : UInt32)

/-- The buckets come in some order. -/
def Call.Possible (t : LookUpTable) : Call → Prop
  | .populate order => order.Perm t.buckets
  | _ => True

/-- The table after a call, unless it panics. -/
def Call.apply (hash1 hash2 : String → UInt32) (t : LookUpTable) : Call → Option LookUpTable
  | .populate order => t.populate hash1 hash2 order
  | .add host => t.add hash1 hash2 host
  | .remove host => (t.remove host).map Prod.fst
  | .get requestHash key => (t.get requestHash key).map fun _ => t
  | .getHash key => (t.getHash key).map fun _ => t

/-- One of the calls panics. -/
def Panics (hash1 hash2 : String → UInt32) : LookUpTable → List Call → Prop
  | _, [] => False
  | t, call :: calls => call.Possible t ∧
      match call.apply hash1 hash2 t with
      | none => True
      | some t' => Panics hash1 hash2 t' calls

/-! ## Usable tables do not panic -/

/-- The slots are as many as the size says, once there are any. -/
def Slotted (t : LookUpTable) : Prop := t.slots.length = 0 ∨ t.slots.length = t.len

theorem length_slots_visit (f : Filling) (p : Permutation) :
    (t.visit f p).1.slots.length = f.slots.length := by
  simp only [visit]
  split_ifs
  · rfl
  · exact List.length_set
  · rfl

theorem length_slots_round (f : Filling) (permutations : List Permutation) :
    (t.round f permutations).1.slots.length = f.slots.length := by
  induction permutations generalizing f with
  | nil => rfl
  | cons p permutations ih => exact (ih _).trans (length_slots_visit f p)

theorem length_slots_loop (fuel : ℕ) (f : Filling) (permutations : List Permutation) :
    (t.loop fuel f permutations).1.slots.length = f.slots.length := by
  induction fuel generalizing f permutations with
  | zero => rfl
  | succ fuel ih =>
    rw [loop]
    split_ifs
    · exact (ih _ _).trans (length_slots_round f permutations)
    · rfl

theorem slotted_populateFrom (permutations : List Permutation) :
    (t.populateFrom permutations).Slotted := by
  have hloop :=
    length_slots_loop (t := t) (t.len + t.endpointNum) { slots := List.replicate t.len "" }
      permutations
  rw [List.length_replicate] at hloop
  refine .inr ?_
  rw [len, size_populateFrom]
  simp only [populateFrom]
  split_ifs
  · rw [fillMissingSlots]
    split
    · exact hloop
    · rw [List.length_map]
      exact hloop
  · exact hloop

/-- A look-up in a usable table does not panic. -/
theorem isSome_lookUp (h : t.Usable) (hslotted : t.Slotted) (hash : UInt32) :
    (t.lookUp hash).isSome := by
  rw [lookUp]
  split_ifs with hempty hnone
  · rfl
  · rfl
  · exact absurd ‹_› h.modulus
  · have hlt := toNat_mod_modulus_lt h.modulus hash
    rw [← hslotted.resolve_left hempty] at hlt
    rw [List.getElem?_eq_getElem hlt]
    rfl

variable (hash1 hash2) in
/-- **One call** on a usable table does not panic, and leaves a usable table. -/
theorem Call.apply_of_usable (h : t.Usable) (hslotted : t.Slotted) (call : Call) :
    ∃ t', call.apply hash1 hash2 t = some t' ∧ t'.Usable ∧ t'.Slotted := by
  cases call with
  | populate order =>
    exact ⟨_, populate_of_usable h order, h.congr (size_populateFrom _), slotted_populateFrom _⟩
  | add host =>
    rw [Call.apply, LookUpTable.add]
    split_ifs
    · exact ⟨t, rfl, h, hslotted⟩
    · have hperm := generatePerm_of_usable hash1 hash2 (h.congr rfl) host
        ((t.buckets.map Prod.fst).foldl max 0 + 1)
      refine ⟨_, (congrArg (Option.bind · _) hperm).trans (if_neg h.size.not_gt), ?_,
        slotted_populateFrom _⟩
      exact h.congr (size_populateFrom _)
  | remove host =>
    rw [Call.apply, LookUpTable.remove]
    split_ifs
    · exact ⟨t, rfl, h, hslotted⟩
    · split
      next => exact ⟨t, rfl, h, hslotted⟩
      next b _ =>
        refine ⟨_, congrArg (Option.map Prod.fst) (if_neg h.size.not_gt), ?_,
          slotted_populateFrom _⟩
        exact h.congr (size_populateFrom _)
  | get requestHash key =>
    obtain ⟨answer, hanswer⟩ :=
      Option.isSome_iff_exists.1 (isSome_lookUp h hslotted (requestHash key))
    exact ⟨t, congrArg (Option.map fun _ => t) hanswer, h, hslotted⟩
  | getHash key =>
    obtain ⟨answer, hanswer⟩ := Option.isSome_iff_exists.1 (isSome_lookUp h hslotted key)
    exact ⟨t, congrArg (Option.map fun _ => t) hanswer, h, hslotted⟩

theorem not_panics_of_usable (h : t.Usable) (hslotted : t.Slotted) (calls : List Call) :
    ¬ Panics hash1 hash2 t calls := by
  induction calls generalizing t with
  | nil => exact id
  | cons call calls ih =>
    rintro ⟨-, hpanics⟩
    obtain ⟨t', hcall, h', hslotted'⟩ := call.apply_of_usable hash1 hash2 h hslotted
    rw [hcall] at hpanics
    exact ih h' hslotted' hpanics

/-- **A new table never panics exactly when it is usable.** -/
theorem not_panics_iff_usable {tableSize : ℤ} {hosts : List Host}
    (hnew : newLookUpTable tableSize hosts = .ok t) :
    (∀ hash1 hash2 calls, ¬ Panics hash1 hash2 t calls) ↔ t.Usable := by
  have hfresh : t.slots = [] := by
    obtain ⟨size, rfl⟩ := newLookUpTable_eq hnew
    rfl
  constructor
  · intro hsafe
    by_contra hnot
    by_cases hpopulate : t.populate (fun _ => 0) (fun _ => 0) t.buckets = none
    · refine hsafe (fun _ => 0) (fun _ => 0) [.populate t.buckets] ⟨List.Perm.refl _, ?_⟩
      rw [Call.apply, hpopulate]
      trivial
    · -- nothing went wrong, as there are no hosts; the first one brings it out
      have hbuckets : t.buckets = [] := by
        by_contra hne
        exact hpopulate (populate_of_not_usable hnot hne)
      have hsize : 0 ≤ t.size := by
        by_contra hneg
        refine hpopulate ?_
        rw [hbuckets]
        exact if_pos (not_le.1 hneg)
      have hzero : t.modulus = 0 ∨ t.modulus - 1 = 0 := by
        by_contra hne
        rw [not_or] at hne
        exact hnot ⟨hsize, hne.1, hne.2⟩
      refine hsafe (fun _ => 0) (fun _ => 0) [.add ⟨"a", by decide⟩] ⟨trivial, ?_⟩
      have hadd : t.add (fun _ => 0) (fun _ => 0) ⟨"a", by decide⟩ = none := by
        rw [LookUpTable.add, hbuckets, List.map_nil, if_neg List.not_mem_nil]
        exact congrArg (Option.bind · _) (if_pos hzero)
      rw [Call.apply, hadd]
      trivial
  · intro husable hash1 hash2 calls
    exact not_panics_of_usable husable (.inl (by rw [hfresh]; rfl)) calls

end LookUpTable

open LookUpTable

/-! ## The sizes -/

/-- `NewLookUpTable` accepts what the test does not reject. -/
theorem newLookUpTable_eq_ok_iff {tableSize : ℤ} {hosts : List Host} {t : LookUpTable} :
    newLookUpTable tableSize hosts = .ok t ↔ ¬ Rejected (chosenSize tableSize hosts) hosts ∧
      t = { buckets := hosts.zipIdx.map Prod.swap, endpointNum := hosts.length,
            size := chosenSize tableSize hosts } := by
  have hnew : newLookUpTable tableSize hosts =
      if Rejected (chosenSize tableSize hosts) hosts then
        .error (tableSizeError (chosenSize tableSize hosts))
      else .ok { buckets := hosts.zipIdx.map Prod.swap, endpointNum := hosts.length,
                 size := chosenSize tableSize hosts } := rfl
  rw [hnew]
  by_cases hrejected : Rejected (chosenSize tableSize hosts) hosts
  · rw [if_pos hrejected]
    exact ⟨nofun, fun h => absurd hrejected h.1⟩
  · rw [if_neg hrejected, Except.ok.injEq]
    exact ⟨fun h => ⟨hrejected, h.symm⟩, fun h => h.2.symm⟩

/-- A prime size is usable unless it is 1 in 32 bits. -/
theorem usable_iff_of_prime {t : LookUpTable} (hprime : t.size.toNat.Prime) :
    t.Usable ↔ t.size % 2 ^ 32 ≠ 1 := by
  have hsize : t.size = t.len := by
    have htwo := hprime.two_le
    rw [LookUpTable.len]
    omega
  have hmodulus : t.modulus.toNat = t.len % 2 ^ 32 := by rw [modulus, UInt32.toNat_ofNat']
  have hne : t.modulus ≠ 0 := by
    intro hzero
    rw [hzero] at hmodulus
    have hmod : 0 = t.len % 2 ^ 32 := hmodulus
    have htwo : 2 = 1 ∨ 2 = t.len := (Nat.dvd_prime hprime).1 (Nat.dvd_of_mod_eq_zero (by omega))
    omega
  have hone : t.modulus - 1 = 0 ↔ t.modulus.toNat = 1 := by
    have hsub : t.modulus - 1 = 0 ↔ t.modulus = 1 := by
      constructor
      · intro h
        rw [← UInt32.sub_add_cancel t.modulus 1, h]
        rfl
      · intro h
        rw [h]
        rfl
    rw [hsub, ← UInt32.toNat_inj]
    rfl
  have hcast : t.size % 2 ^ 32 = 1 ↔ t.len % 2 ^ 32 = 1 := by
    rw [hsize]
    omega
  rw [ne_eq, hcast, ← hmodulus, ← hone]
  exact ⟨fun h => h.modulus_sub_one, fun h => ⟨by omega, hne, h⟩⟩

/-- **The test admits only sizes that are as its error says, and safe,** for those arguments that it
rejects or that are such sizes. -/
theorem admits_only_safe_iff (tableSize : ℤ) (hosts : List Host) :
    (∀ t, newLookUpTable tableSize hosts = .ok t →
      t.size.toNat.Prime ∧ hosts.length * 100 ≤ t.size ∧
      ∀ hash1 hash2 calls, ¬ Panics hash1 hash2 t calls) ↔
    Rejected (chosenSize tableSize hosts) hosts ∨
      (chosenSize tableSize hosts).toNat.Prime ∧ hosts.length * 100 ≤ chosenSize tableSize hosts ∧
        chosenSize tableSize hosts % 2 ^ 32 ≠ 1 := by
  by_cases hrejected : Rejected (chosenSize tableSize hosts) hosts
  · refine ⟨fun _ => .inl hrejected, fun _ t hnew => ?_⟩
    exact absurd hrejected (newLookUpTable_eq_ok_iff.1 hnew).1
  · have hnew := newLookUpTable_eq_ok_iff.2 ⟨hrejected, rfl⟩
    constructor
    · intro h
      obtain ⟨hprime, hle, hsafe⟩ := h _ hnew
      exact .inr ⟨hprime, hle, (usable_iff_of_prime hprime).1
        ((not_panics_iff_usable hnew).1 hsafe)⟩
    · intro h t ht
      obtain ⟨hprime, hle, hone⟩ := h.resolve_left hrejected
      obtain rfl := (newLookUpTable_eq_ok_iff.1 ht).2
      exact ⟨hprime, hle, (not_panics_iff_usable ht).2 ((usable_iff_of_prime hprime).2 hone)⟩

/-- A size that is neither prime nor safe is accepted for a table without hosts. -/
theorem not_admits_only_safe_one : ∃ t, newLookUpTable 1 [] = .ok t ∧ ¬ t.size.toNat.Prime ∧
    Panics (fun _ => 0) (fun _ => 0) t [.populate [], .add ⟨"a", by decide⟩] := by
  refine ⟨{ buckets := [], endpointNum := 0, size := 1 }, ?_, Nat.not_prime_one, List.Perm.nil,
    trivial, trivial⟩
  simp [newLookUpTable]

end Pixiu.Maglev
