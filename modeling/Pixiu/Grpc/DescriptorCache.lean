import Pixiu.Base.System
import Mathlib.Data.List.Perm.Subperm

/-!
# The descriptor cache

`DescriptorCache` of the gRPC proxy
(`pkg/filter/network/grpcproxy/filter/proxy/descriptor_cache.go`) keeps method descriptors in two
containers: a map, which all lookups read, and an LRU cache, which is there for the limit.  Whatever
is removed is removed from both; but what the LRU cache pushes out stays in the map.

The LRU cache is modelled by its entries, the most recently used first; only `Set` uses an entry.

* `step_cases`: what an operation can do to the two containers.
* `live_set_iff`, `live_setMaxSize_iff`: when the two operations that push entries out keep the
  containers together.
* `matched_iff`: when they are together in all states of a run.
-/

namespace Pixiu.Grpc

/-- `cacheEntry`. -/
structure CacheEntry (δ : Type) where
  descriptor : δ
  expireAt : ℤ
  versionHash : String

/-- `minCacheSize`. -/
def minCacheSize : ℕ := 100

/-- `DescriptorCache`, with the clock. -/
structure DescriptorCache (δ : Type) where
  lru : List (String × CacheEntry δ) := []
  capacity : ℕ
  entries : String → Option (CacheEntry δ) := fun _ => none
  clock : ℤ

namespace DescriptorCache

variable {δ : Type} {s s' : DescriptorCache δ}

/-- `NewDescriptorCacheWithSize`. -/
def new (maxSize : ℕ) (clock : ℤ) : DescriptorCache δ where
  capacity := max maxSize minCacheSize
  clock := clock

/-- Removes keys from both containers. -/
def remove (s : DescriptorCache δ) (p : String → Bool) : DescriptorCache δ :=
  { s with
    lru := s.lru.filter fun e => !p e.1
    entries := fun key => if p key then none else s.entries key }

/-- `Delete`. -/
def delete (s : DescriptorCache δ) (key : String) : DescriptorCache δ := s.remove (· = key)

/-- `Get`. -/
def get (s : DescriptorCache δ) (key : String) : Option δ × DescriptorCache δ :=
  match s.entries key with
  | none => (none, s)
  | some e => if s.clock < e.expireAt then (some e.descriptor, s) else (none, s.delete key)

/-- `GetWithVersion`. -/
def getWithVersion (s : DescriptorCache δ) (key versionHash : String) :
    Option δ × DescriptorCache δ :=
  match s.entries key with
  | none => (none, s)
  | some e =>
      if e.expireAt < s.clock then (none, s.delete key)
      else if e.versionHash ≠ "" ∧ versionHash ≠ "" ∧ e.versionHash ≠ versionHash then
        (none, s.delete key)
      else (some e.descriptor, s)

/-- `SetWithVersion`; the LRU cache pushes out what is beyond its capacity. -/
def setWithVersion (ttl : ℤ) (s : DescriptorCache δ) (key : String) (descriptor : δ)
    (versionHash : String) :
    DescriptorCache δ :=
  let newEntry : CacheEntry δ := ⟨descriptor, s.clock + ttl, versionHash⟩
  { s with
    lru := ((key, newEntry) :: s.lru.filter (·.1 ≠ key)).take s.capacity
    entries := Function.update s.entries key (some newEntry) }

/-- `InvalidateByVersion`. -/
def invalidateByVersion (s : DescriptorCache δ) (versionHash : String) : DescriptorCache δ :=
  s.remove fun key => (s.entries key).any (·.versionHash = versionHash)

/-- `Clear`. -/
def clear (s : DescriptorCache δ) : DescriptorCache δ := s.remove fun _ => true

/-- `SetMaxSize`. -/
def setMaxSize (s : DescriptorCache δ) (size : ℕ) : DescriptorCache δ :=
  { s with
    capacity := max size minCacheSize
    lru := s.lru.take (max size minCacheSize) }

/-- A round of `cleanupLoop`. -/
def sweep (s : DescriptorCache δ) : DescriptorCache δ :=
  s.remove fun key => (s.entries key).any (·.expireAt < s.clock)

/-- What can happen to a cache; `Set` is `SetWithVersion` without a version. -/
inductive Op (δ : Type) where
  | get (key : String)
  | getWithVersion (key versionHash : String)
  | setWithVersion (key : String) (descriptor : δ) (versionHash : String)
  | delete (key : String)
  | invalidateByVersion (versionHash : String)
  | clear
  | setMaxSize (size : ℕ)
  | sweep
  | pass (now : ℤ)

/-- One operation; the clock does not go back. -/
def step (ttl : ℤ) (s : DescriptorCache δ) : Op δ → Option (DescriptorCache δ)
  | .get key => some (s.get key).2
  | .getWithVersion key versionHash => some (s.getWithVersion key versionHash).2
  | .setWithVersion key descriptor versionHash =>
    some (s.setWithVersion ttl key descriptor versionHash)
  | .delete key => some (s.delete key)
  | .invalidateByVersion versionHash => some (s.invalidateByVersion versionHash)
  | .clear => some s.clear
  | .setMaxSize size => some (s.setMaxSize size)
  | .sweep => some s.sweep
  | .pass now => if s.clock ≤ now then some { s with clock := now } else none

/-- `Get` returns a descriptor for exactly the keys that the LRU cache holds and that have not
expired; so there are at most as many as its capacity. -/
structure Matched (s : DescriptorCache δ) : Prop where
  get_iff : ∀ key, (s.get key).1.isSome ↔ ∃ e, (key, e) ∈ s.lru ∧ s.clock < e.expireAt
  bounded : ∀ keys : List String, keys.Nodup → (∀ key ∈ keys, (s.get key).1.isSome) →
    keys.length ≤ s.capacity

/-- No operation pushes out an entry that has not expired. -/
def PushesOutExpired (s : DescriptorCache δ) : Op δ → Prop
  | .setWithVersion key _ _ =>
    ∀ e ∈ (s.lru.filter (·.1 ≠ key)).drop (s.capacity - 1), ¬ s.clock < e.2.expireAt
  | .setMaxSize size => ∀ e ∈ s.lru.drop (max size minCacheSize), ¬ s.clock < e.2.expireAt
  | _ => True

instance (s : DescriptorCache δ) : ∀ op, Decidable (PushesOutExpired s op)
  | .setWithVersion .. | .setMaxSize _ => inferInstanceAs (Decidable (∀ e ∈ _, ¬ _))
  | .get _ | .getWithVersion .. | .delete _ | .invalidateByVersion _ | .clear | .sweep | .pass _ =>
    inferInstanceAs (Decidable True)

/-! ## Invariants -/

/-- What every operation keeps: the LRU cache has one entry for a key, and the map has it too. -/
structure Kept (s : DescriptorCache δ) : Prop where
  stored : ∀ e ∈ s.lru, s.entries e.1 = some e.2
  nodup : (s.lru.map Prod.fst).Nodup
  length_le : s.lru.length ≤ s.capacity
  room : 0 < s.capacity

/-- Every entry of the map that has not expired is in the LRU cache. -/
def Live (s : DescriptorCache δ) : Prop :=
  ∀ key e, s.entries key = some e → s.clock < e.expireAt → (key, e) ∈ s.lru

theorem get_isSome_iff (key : String) :
    (s.get key).1.isSome ↔ ∃ e, s.entries key = some e ∧ s.clock < e.expireAt := by
  rw [get]
  cases s.entries key with
  | none => simp
  | some e =>
    by_cases he : s.clock < e.expireAt
    · simp [he]
    · simp [he]

theorem matched_iff_live (h : Kept s) : Matched s ↔ Live s := by
  constructor
  · intro hmatched key e he hclock
    obtain ⟨e', he', -⟩ := (hmatched.get_iff key).1 ((get_isSome_iff key).2 ⟨e, he, hclock⟩)
    have hstored := h.stored _ he'
    obtain rfl : e = e' := Option.some.inj (he.symm.trans hstored)
    exact he'
  · intro hlive
    refine ⟨fun key => ?_, fun keys hnodup hkeys => ?_⟩
    · rw [get_isSome_iff]
      exact ⟨fun ⟨e, he, hclock⟩ => ⟨e, hlive key e he hclock, hclock⟩,
        fun ⟨e, he, hclock⟩ => ⟨e, h.stored _ he, hclock⟩⟩
    · have hsub : keys ⊆ s.lru.map Prod.fst := by
        intro key hkey
        obtain ⟨e, he, hclock⟩ := (get_isSome_iff key).1 (hkeys key hkey)
        exact List.mem_map.2 ⟨_, hlive key e he hclock, rfl⟩
      have hle := (hnodup.subperm hsub).length_le
      rw [List.length_map] at hle
      exact hle.trans h.length_le

/-- An entry is not pushed out exactly if it is not among those beyond the limit. -/
theorem kept_iff {l : List (String × CacheEntry δ)} (hnodup : (l.map Prod.fst).Nodup) (n : ℕ)
    (p : String × CacheEntry δ → Prop) : (∀ e ∈ l, p e → e ∈ l.take n) ↔ ∀ e ∈ l.drop n, ¬ p e := by
  constructor
  · intro h e he hp
    have htake := h e (List.mem_of_mem_drop he) hp
    exact List.disjoint_take_drop hnodup.of_map (Nat.le_refl n) htake he
  · intro h e he hp
    rw [← List.take_append_drop n l, List.mem_append] at he
    rcases he with he | he
    · exact he
    · exact absurd hp (h e he)

/-! ## The operations -/

/-- An operation lets time pass, sets an entry or the limit, or removes keys. -/
theorem step_cases {ttl : ℤ} {op : Op δ} (h : step ttl s op = some s') :
    (∃ key descriptor versionHash, op = .setWithVersion key descriptor versionHash ∧
      s' = s.setWithVersion ttl key descriptor versionHash) ∨
    (∃ size, op = .setMaxSize size ∧ s' = s.setMaxSize size) ∨
    (PushesOutExpired s op ∧
      ((∃ now, s.clock ≤ now ∧ s' = { s with clock := now }) ∨ ∃ p, s' = s.remove p)) := by
  have hsame : s = s.remove fun _ => false := by simp [remove]
  cases op with
  | setWithVersion key descriptor versionHash => exact .inl ⟨_, _, _, rfl, (Option.some.inj h).symm⟩
  | setMaxSize size => exact .inr (.inl ⟨_, rfl, (Option.some.inj h).symm⟩)
  | pass now =>
    rw [step] at h
    split_ifs at h with hclock
    exact .inr (.inr ⟨trivial, .inl ⟨now, hclock, (Option.some.inj h).symm⟩⟩)
  | delete | invalidateByVersion | clear | sweep =>
    exact .inr (.inr ⟨trivial, .inr ⟨_, (Option.some.inj h).symm⟩⟩)
  | get key =>
    refine .inr (.inr ⟨trivial, .inr ?_⟩)
    obtain rfl := Option.some.inj h
    rw [get]
    cases s.entries key with
    | none => exact ⟨_, hsame⟩
    | some e =>
      dsimp only
      split_ifs
      · exact ⟨_, hsame⟩
      · exact ⟨(· = key), rfl⟩
  | getWithVersion key versionHash =>
    refine .inr (.inr ⟨trivial, .inr ?_⟩)
    obtain rfl := Option.some.inj h
    rw [getWithVersion]
    cases s.entries key with
    | none => exact ⟨_, hsame⟩
    | some e =>
      dsimp only
      split_ifs
      · exact ⟨(· = key), rfl⟩
      · exact ⟨(· = key), rfl⟩
      · exact ⟨_, hsame⟩

theorem take_setWithVersion (h : Kept s) {e : String × CacheEntry δ}
    {l : List (String × CacheEntry δ)} :
    (e :: l).take s.capacity = e :: l.take (s.capacity - 1) := by
  obtain ⟨n, hn⟩ := Nat.exists_eq_add_one_of_ne_zero h.room.ne'
  rw [hn, List.take_succ_cons, Nat.add_sub_cancel]

theorem Kept.setWithVersion (h : Kept s) (ttl : ℤ) (key : String) (descriptor : δ)
    (versionHash : String) :
    Kept (s.setWithVersion ttl key descriptor versionHash) := by
  refine ⟨fun e he => ?_, ?_, List.length_take_le _ _, h.room⟩
  · rcases List.mem_cons.1 (List.mem_of_mem_take he) with rfl | he
    · exact Function.update_self ..
    · obtain ⟨hmem, hne⟩ := List.mem_filter.1 he
      exact (Function.update_of_ne (by simpa using hne) ..).trans (h.stored e hmem)
  · refine List.Nodup.sublist ((List.take_sublist _ _).map _) ?_
    rw [List.map_cons, List.nodup_cons]
    refine ⟨fun hmem => ?_, h.nodup.sublist (List.filter_sublist.map _)⟩
    obtain ⟨e, he, hkey⟩ := List.mem_map.1 hmem
    have hne := (List.mem_filter.1 he).2
    simp [hkey] at hne

theorem Kept.step {ttl : ℤ} {op : Op δ} (h : Kept s) (hstep : step ttl s op = some s') :
    Kept s' := by
  rcases step_cases hstep with ⟨key, descriptor, versionHash, -, rfl⟩ | ⟨size, -, rfl⟩ |
    ⟨-, ⟨now, -, rfl⟩ | ⟨p, rfl⟩⟩
  · exact h.setWithVersion ..
  · exact ⟨fun e he => h.stored e (List.mem_of_mem_take he),
      h.nodup.sublist ((List.take_sublist _ _).map _),
      List.length_take_le _ _, lt_of_lt_of_le (by decide) (Nat.le_max_right size minCacheSize)⟩
  · exact ⟨h.stored, h.nodup, h.length_le, h.room⟩
  · refine ⟨fun e he => ?_, h.nodup.sublist (List.filter_sublist.map _),
      (List.length_filter_le _ _).trans h.length_le, h.room⟩
    obtain ⟨hmem, hp⟩ := List.mem_filter.1 he
    have hnot : p e.1 = false := by simpa using hp
    simp [remove, hnot, h.stored e hmem]

/-- `SetWithVersion` keeps the containers together exactly if it pushes out nothing that has not
expired. -/
theorem live_set_iff (hkept : Kept s) (hlive : Live s) (ttl : ℤ) (key : String) (descriptor : δ)
    (versionHash : String) : Live (s.setWithVersion ttl key descriptor versionHash) ↔
      PushesOutExpired s (.setWithVersion key descriptor versionHash) := by
  have hnodup : ((s.lru.filter (·.1 ≠ key)).map Prod.fst).Nodup :=
    hkept.nodup.sublist (List.filter_sublist.map _)
  rw [PushesOutExpired, ← kept_iff hnodup _ fun e => s.clock < e.2.expireAt]
  rw [Live, setWithVersion]
  simp only [take_setWithVersion hkept]
  constructor
  · intro h e he hclock
    obtain ⟨hmem, hne⟩ := List.mem_filter.1 he
    have hne : e.1 ≠ key := by simpa using hne
    rcases List.mem_cons.1
      (h e.1 e.2 (by rw [Function.update_of_ne hne, hkept.stored e hmem]) hclock) with heq | hin
    · exact absurd (congrArg Prod.fst heq) hne
    · exact hin
  · intro h key' e he hclock
    by_cases hkey : key' = key
    · subst hkey
      rw [Function.update_self] at he
      obtain rfl := Option.some.inj he
      exact List.mem_cons_self
    · rw [Function.update_of_ne hkey] at he
      have hmem := hlive key' e he hclock
      exact List.mem_cons_of_mem _ (h (key', e) (List.mem_filter.2 ⟨hmem, by simpa using hkey⟩)
        hclock)

/-- `SetMaxSize` keeps the containers together exactly if it pushes out nothing that has not
expired. -/
theorem live_setMaxSize_iff (hkept : Kept s) (hlive : Live s) (size : ℕ) :
    Live (s.setMaxSize size) ↔ PushesOutExpired s (.setMaxSize size : Op δ) := by
  rw [PushesOutExpired, ← kept_iff hkept.nodup _ fun e => s.clock < e.2.expireAt]
  constructor
  · intro h e he hclock
    exact h e.1 e.2 (hkept.stored e he) hclock
  · intro h key e he hclock
    exact h (key, e) (hlive key e he hclock) hclock

theorem live_step_iff {ttl : ℤ} {op : Op δ} (hkept : Kept s) (hlive : Live s)
    (h : step ttl s op = some s') :
    Live s' ↔ PushesOutExpired s op := by
  rcases step_cases h with ⟨key, descriptor, versionHash, rfl, rfl⟩ | ⟨size, rfl, rfl⟩ |
    ⟨hop, ⟨now, hclock, rfl⟩ | ⟨p, rfl⟩⟩
  · exact live_set_iff hkept hlive ..
  · exact live_setMaxSize_iff hkept hlive size
  · refine ⟨fun _ => hop, fun _ key e he hlater => ?_⟩
    exact hlive key e he (lt_of_le_of_lt hclock hlater)
  · refine ⟨fun _ => hop, fun _ key e he hclock => ?_⟩
    simp only [remove] at he
    split_ifs at he with hp
    exact List.mem_filter.2 ⟨hlive key e he hclock, by simpa using hp⟩

theorem kept_new (maxSize : ℕ) (clock : ℤ) : Kept (new maxSize clock : DescriptorCache δ) where
  stored e he := absurd he List.not_mem_nil
  nodup := List.nodup_nil
  length_le := Nat.zero_le _
  room := lt_of_lt_of_le (by decide) (Nat.le_max_right maxSize minCacheSize)

/-! ## Runs -/

/-- **The bound of the cache.**  In a run from a new cache the two containers match in every state
exactly if no step pushes out an entry that has not expired. -/
theorem matched_iff (ttl : ℤ) (maxSize : ℕ) (clock : ℤ) (ops : List (Op δ)) (s' : DescriptorCache δ)
    (hrun : ops.foldlM (step ttl) (new maxSize clock) = some s') :
    System.StatesAlong (step ttl) Matched (new maxSize clock) ops ↔
      System.StepsAlong (step ttl) PushesOutExpired (new maxSize clock) ops := by
  have hnew : Live (new maxSize clock : DescriptorCache δ) := fun key e he => nomatch he
  refine System.statesAlong_iff_stepsAlong_of_invariant
    (fun s op s' hkept hstep => hkept.step hstep)
    (fun s op s' hkept hmatched hstep => ?_) hrun (kept_new maxSize clock)
      ((matched_iff_live (kept_new _ _)).2 hnew)
  rw [matched_iff_live (hkept.step hstep)]
  exact live_step_iff hkept ((matched_iff_live hkept).1 hmatched) hstep

/-- The key of the `i`-th descriptor. -/
def keyOf (i : ℕ) : String := toString i

/-- A cache is filled, its entries expire, and one more is set. -/
def refill : List (Op Unit) :=
  ((List.range 100).map fun i => .setWithVersion (keyOf i) () "") ++
    [.pass 60, .setWithVersion (keyOf 100) () ""]

/-- The entry that is pushed out at last has expired. -/
theorem matched_iff_refill :
    System.StatesAlong (step 60) Matched (new 100 0 : DescriptorCache Unit) refill := by
  have hsome : (refill.foldlM (step 60) (new 100 0)).isSome = true := by decide +kernel
  obtain ⟨s, hrun⟩ := Option.isSome_iff_exists.1 hsome
  have hsteps : System.StepsAlong (step 60) PushesOutExpired (new 100 0) refill := by decide +kernel
  exact (matched_iff 60 100 0 refill s hrun).2 hsteps

/-- The operation sets the key, or removes it whatever its entry. -/
def Op.Overwrites (key : String) : Op δ → Prop
  | .setWithVersion key' _ _ => key' = key
  | .delete key' => key' = key
  | .clear => True
  | _ => False

/-- An entry has just been set, or it was there and the step leaves it alone. -/
theorem entries_step {ttl : ℤ} {op : Op δ} (h : step ttl s op = some s') {key : String}
    {e : CacheEntry δ}
    (he : s'.entries key = some e) :
    (∃ descriptor versionHash, op = .setWithVersion key descriptor versionHash ∧
      e = ⟨descriptor, s.clock + ttl, versionHash⟩) ∨
      (¬ op.Overwrites key ∧ s.entries key = some e) := by
  by_cases hop : op.Overwrites key
  · left
    cases op with
    | setWithVersion key' descriptor versionHash =>
      obtain rfl : key' = key := hop
      obtain rfl := Option.some.inj h
      simp only [setWithVersion, Function.update_self] at he
      exact ⟨descriptor, versionHash, rfl, (Option.some.inj he).symm⟩
    | delete key' =>
      obtain rfl : key' = key := hop
      obtain rfl := Option.some.inj h
      simp [delete, remove] at he
    | clear =>
      obtain rfl := Option.some.inj h
      simp [clear, remove] at he
    | _ => exact hop.elim
  · refine .inr ⟨hop, ?_⟩
    rcases step_cases h with ⟨key', descriptor, versionHash, rfl, rfl⟩ | ⟨size, -, rfl⟩ |
      ⟨-, ⟨now, -, rfl⟩ | ⟨p, rfl⟩⟩
    · simpa only [setWithVersion, Function.update_of_ne (Ne.symm hop)] using he
    · exact he
    · exact he
    · simp only [remove] at he
      split_ifs at he
      exact he

/-- An entry of the map is from the last operation that has overwritten its key. -/
theorem entries_run {ttl : ℤ} {maxSize : ℕ} {clock : ℤ} {ops : List (Op δ)} {key : String}
    {e : CacheEntry δ}
    (hrun : ops.foldlM (step ttl) (new maxSize clock) = some s) (he : s.entries key = some e) :
    ∃ before after t, ops = before ++ .setWithVersion key e.descriptor e.versionHash :: after ∧
      before.foldlM (step ttl) (new maxSize clock) = some t ∧ e.expireAt = t.clock + ttl ∧
        ∀ op ∈ after, ¬ op.Overwrites key := by
  induction ops using List.reverseRecOn generalizing s with
  | nil =>
    obtain rfl := Option.some.inj hrun
    cases he
  | append_singleton ops op ih =>
    rw [List.foldlM_append] at hrun
    obtain ⟨t, ht, hlast⟩ := Option.bind_eq_some_iff.1 hrun
    obtain ⟨t', hstep, hnil⟩ := Option.bind_eq_some_iff.1 hlast
    obtain rfl := Option.some.inj hnil
    rcases entries_step hstep he with ⟨descriptor, versionHash, rfl, rfl⟩ | ⟨hop, ht'⟩
    · exact ⟨ops, [], t, rfl, ht, rfl, by simp⟩
    · obtain ⟨before, after, t₀, rfl, hbefore, hexpire, hafter⟩ := ih ht ht'
      refine ⟨before, after ++ [op], t₀, by simp, hbefore, hexpire, ?_⟩
      intro op' hop'
      rcases List.mem_append.1 hop' with hop' | hop'
      · exact hafter op' hop'
      · rwa [List.mem_singleton.1 hop']

/-- **What `Get` returns** was set under the key less than the time to live ago, and nothing has
overwritten it. -/
theorem get_run {ttl : ℤ} {maxSize : ℕ} {clock : ℤ} {ops : List (Op δ)} {key : String}
    {descriptor : δ}
    (hrun : ops.foldlM (step ttl) (new maxSize clock) = some s)
    (hget : (s.get key).1 = some descriptor) :
    ∃ before versionHash after t, ops = before ++
      .setWithVersion key descriptor versionHash :: after ∧
      before.foldlM (step ttl) (new maxSize clock) = some t ∧ s.clock < t.clock + ttl ∧
        ∀ op ∈ after, ¬ op.Overwrites key := by
  rw [get] at hget
  cases he : s.entries key with
  | none => simp [he] at hget
  | some e =>
    obtain ⟨before, after, t, hops, hbefore, hexpire, hafter⟩ := entries_run hrun he
    simp only [he] at hget
    split_ifs at hget with hclock
    obtain rfl := Option.some.inj hget
    exact ⟨before, e.versionHash, after, t, hops, hbefore, hexpire ▸ hclock, hafter⟩

theorem get_run_oneKey : ∃ s : DescriptorCache Unit,
    [Op.setWithVersion "a" () "", .pass 59].foldlM (step 60) (new 100 0) = some s ∧
      (s.get "a").1 = some () ∧
      ∃ before versionHash after t, [Op.setWithVersion "a" () "", .pass 59] =
        before ++ .setWithVersion "a" () versionHash :: after ∧
          before.foldlM (step 60) (new 100 0) = some t ∧ s.clock < t.clock + 60 ∧
            ∀ op ∈ after, ¬ op.Overwrites "a" :=
  ⟨_, rfl, rfl, get_run rfl rfl⟩

/-- The keys before it are other keys. -/
theorem filter_keyOf (n : ℕ) (e : CacheEntry Unit) :
    ((List.range n).reverse.map fun i => (keyOf i, e)).filter (·.1 ≠ keyOf n) =
      (List.range n).reverse.map fun i => (keyOf i, e) := by
  rw [List.filter_eq_self]
  intro p hp
  obtain ⟨i, hi, rfl⟩ := List.mem_map.1 hp
  have hlt : i < n := List.mem_range.1 (List.mem_reverse.1 hi)
  exact decide_eq_true fun heq => hlt.ne (Nat.repr_injective heq)

/-- As many descriptors as the cache has room for. -/
theorem fill {n : ℕ} (hn : n ≤ 100) : ∃ s : DescriptorCache Unit,
    ((List.range n).map fun i => Op.setWithVersion (keyOf i) () "").foldlM (step 60) (new 100 0) =
      some s ∧
      Kept s ∧ Live s ∧ s.capacity = 100 ∧ s.clock = 0 ∧
        s.lru = (List.range n).reverse.map fun i => (keyOf i, ⟨(), 60, ""⟩) := by
  induction n with
  | zero => exact ⟨_, rfl, kept_new 100 0, fun key e he => (nomatch he), rfl, rfl, rfl⟩
  | succ n ih =>
    obtain ⟨s, hrun, hkept, hlive, hcapacity, hclock, hlru⟩ := ih (Nat.le_of_succ_le hn)
    have hfilter : s.lru.filter (·.1 ≠ keyOf n) = s.lru := by
      rw [hlru]
      exact filter_keyOf n _
    have hlength : s.lru.length = n :=
      by rw [hlru, List.length_map, List.length_reverse, List.length_range]
    have hpushes : PushesOutExpired s (.setWithVersion (keyOf n) () "") := by
      rw [PushesOutExpired, hfilter, List.drop_eq_nil_of_le (by omega)]
      exact fun e he => nomatch he
    refine ⟨s.setWithVersion 60 (keyOf n) () "", ?_, hkept.setWithVersion ..,
      (live_set_iff hkept hlive ..).2 hpushes,
      hcapacity, hclock, ?_⟩
    · rw [List.range_succ, List.map_append, List.foldlM_append, hrun]
      rfl
    · rw [setWithVersion, hfilter, List.take_of_length_le (by rw [List.length_cons]; omega), hlru,
        hclock,
        List.range_succ, List.reverse_append]
      rfl

/-- One descriptor more than the cache has room for: `Get` returns them all. -/
theorem not_matched_of_overfull : ∃ s : DescriptorCache Unit,
    ((List.range 101).map fun i => Op.setWithVersion (keyOf i) () "").foldlM (step 60) (new 100 0) =
      some s ∧
      ¬ Matched s := by
  obtain ⟨s, hrun, hkept, hlive, hcapacity, hclock, hlru⟩ := fill (Nat.le_refl 100)
  refine ⟨s.setWithVersion 60 (keyOf 100) () "", ?_, fun h => ?_⟩
  · rw [List.range_succ, List.map_append, List.foldlM_append, hrun]
    rfl
  · rw [matched_iff_live (hkept.setWithVersion ..), live_set_iff hkept hlive, PushesOutExpired,
      hcapacity, hclock,
      hlru, filter_keyOf, ← List.map_drop] at h
    exact h (keyOf 0, ⟨(), 60, ""⟩)
      (List.mem_map_of_mem (by decide : 0 ∈ (List.range 100).reverse.drop 99)) (by decide)

end DescriptorCache

end Pixiu.Grpc
