import Pixiu.Maglev.Owners

/-!
# Picking by Maglev hashing

`MaglevHash` of `pkg/cluster/loadbalancer/maglev/maglev_hash.go`.  The table is built from the hosts
of the endpoints, and what it answers is a host; the endpoint is the first one with that host.

`reachesOwner_iff`: every key reaches the endpoint whose bucket took the slot of the key, exactly
when the endpoints have different hosts.  A host is the address and the port, also for an endpoint
that is addressed by a domain; such endpoints often have neither, and then one host for all of them
(`not_reachesOwner_domains`).
-/

namespace Pixiu.LoadBalancer

open Cluster Maglev

/-- `NewMaglevHash`, before `Populate`; after an error the source falls back to a ring hash. -/
def newMaglevHash (config : ConsistentHash) (endpoints : List Endpoint) :
    Except String LookUpTable :=
  newLookUpTable config.maglevTableSize (endpoints.map getHost)

/-- `MaglevHash.HandlerWithSnapshot`: the endpoint or `nil`, or nothing where it panics.  The policy
is the key that it generates. -/
def MaglevHash.handlerWithSnapshot (requestHash : String → UInt32)
    (healthyEndpoints : List Endpoint)
    (hashView : Option LookUpTable) (policy : Option String) : Option (Option Endpoint) :=
  match healthyEndpoints, hashView, policy with
  | first :: _, some hashView, some key =>
      match hashView.get requestHash key with
      | none => none
      | some (.error _) => some none
      | some (.ok dst) =>
        some ((healthyEndpoints.find? fun endpoint => (getHost endpoint).val = dst).getD first)
  | _, _, _ => some none

/-- Every key reaches the endpoint whose bucket took the slot of the key, whatever the order of the
buckets and wherever the key hashes to.  Without endpoints there is no bucket that takes a slot. -/
def ReachesOwner (hash1 hash2 : String → UInt32) (endpoints : List Endpoint) (t : LookUpTable) :
    Prop :=
  endpoints ≠ [] → ∀ order permutations t', order.Perm t.buckets →
    t.generatePerms hash1 hash2 order = some permutations → t.populate hash1 hash2 order = some t' →
    ∀ requestHash key, ∃ k endpoint,
      (t.numbered.populateFrom permutations).slots[(requestHash key % t.modulus).toNat]? =
        some (numberOf k).val ∧
      endpoints[k]? = some endpoint ∧
      MaglevHash.handlerWithSnapshot requestHash endpoints (some t') (some key) =
        some (some endpoint)

variable {hash1 hash2 : String → UInt32} {config : ConsistentHash} {endpoints : List Endpoint}
  {t : LookUpTable}

/-! ## The answer of a table -/

theorem lookUp_eq {hash : UInt32} {slot : String} (hmodulus : t.modulus ≠ 0)
    (hnum : t.endpointNum ≠ 0)
    (hslot : t.slots[(hash % t.modulus).toNat]? = some slot) : t.lookUp hash = some (.ok slot) := by
  have hsize : t.size ≠ 0 :=
    fun hzero => hmodulus (by simp only [LookUpTable.modulus, LookUpTable.len, hzero]; rfl)
  have hslots : t.slots.length ≠ 0 := by
    have := (List.getElem?_eq_some_iff.1 hslot).1
    omega
  rw [LookUpTable.lookUp, if_neg hslots, if_neg (not_or.2 ⟨hsize, hnum⟩), if_neg hmodulus, hslot]
  rfl

/-- What is picked is the first endpoint with the host in the slot. -/
theorem handlerWithSnapshot_eq (requestHash : String → UInt32) (key : String) {slot : String}
    {e : Endpoint}
    (hmodulus : t.modulus ≠ 0) (hnum : t.endpointNum ≠ 0)
    (hslot : t.slots[(requestHash key % t.modulus).toNat]? = some slot)
    (hfind : endpoints.find? (fun endpoint => (getHost endpoint).val = slot) = some e) :
    MaglevHash.handlerWithSnapshot requestHash endpoints (some t) (some key) = some (some e) := by
  have hget : t.get requestHash key = some (.ok slot) := lookUp_eq hmodulus hnum hslot
  cases endpoints with
  | nil => cases hfind
  | cons first rest => simp only [MaglevHash.handlerWithSnapshot, hget, hfind, Option.getD_some]

/-! ## The buckets of the endpoints -/

/-- The bucket of an endpoint has its index for a key. -/
theorem mem_buckets_iff (hnew : newMaglevHash config endpoints = .ok t) {k : ℕ} {host : Host} :
    (k, host) ∈ t.buckets ↔ ∃ e, endpoints[k]? = some e ∧ getHost e = host := by
  obtain ⟨size, rfl⟩ := LookUpTable.newLookUpTable_eq hnew
  simp only [List.mem_map, Prod.exists, Prod.swap_prod_mk, Prod.mk.injEq]
  constructor
  · rintro ⟨host', k', hmem, rfl, rfl⟩
    have hget := List.mk_mem_zipIdx_iff_getElem?.1 hmem
    rw [List.getElem?_map] at hget
    obtain ⟨e, he, hhost⟩ := Option.map_eq_some_iff.1 hget
    exact ⟨e, he, hhost⟩
  · rintro ⟨e, he, rfl⟩
    refine ⟨getHost e, k, List.mk_mem_zipIdx_iff_getElem?.2 ?_, rfl, rfl⟩
    rw [List.getElem?_map, he]
    rfl

theorem bucket_eq (hnew : newMaglevHash config endpoints = .ok t) {k : ℕ} (hk : k ∈ t.keys) :
    ∃ e, endpoints[k]? = some e ∧ t.bucket k = (getHost e).val := by
  obtain ⟨⟨k', host⟩, hb, rfl⟩ := List.mem_map.1 hk
  obtain ⟨e, he, rfl⟩ := (mem_buckets_iff hnew).1 hb
  exact ⟨e, he, LookUpTable.bucket_of_mem (LookUpTable.keys_newLookUpTable hnew) hb⟩

theorem endpointNum_eq (hnew : newMaglevHash config endpoints = .ok t) :
    t.endpointNum = endpoints.length := by
  obtain ⟨size, rfl⟩ := LookUpTable.newLookUpTable_eq hnew
  exact List.length_map _

/-- With different hosts, the first endpoint with the host of an endpoint is that endpoint. -/
theorem find?_getHost (hnodup : (endpoints.map getHost).Nodup) {e : Endpoint} (he : e ∈ endpoints) :
    endpoints.find? (fun endpoint => (getHost endpoint).val = (getHost e).val) = some e := by
  have hexists : ∃ x ∈ endpoints, decide ((getHost x).val = (getHost e).val) = true :=
    ⟨e, he, decide_eq_true rfl⟩
  obtain ⟨e', he'⟩ := Option.isSome_iff_exists.1 (List.find?_isSome.2 hexists)
  have hfound := List.find?_some he'
  have hhost : (getHost e').val = (getHost e).val := of_decide_eq_true hfound
  rw [he', List.inj_on_of_nodup_map hnodup (List.mem_of_find?_eq_some he') he (Subtype.ext hhost)]

/-! ## Both directions -/

theorem buckets_ne_nil (hnew : newMaglevHash config endpoints = .ok t) (hne : endpoints ≠ []) :
    t.buckets ≠ [] := by
  obtain ⟨e, rest, rfl⟩ := List.exists_cons_of_ne_nil hne
  exact List.ne_nil_of_mem ((mem_buckets_iff hnew (k := 0)).2 ⟨e, rfl, rfl⟩)

/-- Different hosts are reached. -/
theorem reachesOwner_of_nodup (hnew : newMaglevHash config endpoints = .ok t)
    (hnodup : (endpoints.map getHost).Nodup) : ReachesOwner hash1 hash2 endpoints t := by
  intro hne order permutations t' hperm hperms hpopulate requestHash key
  obtain ⟨hsize, hholds⟩ := LookUpTable.holds_populate hnew hnodup hperm hpopulate
  have hbuckets : t'.buckets ≠ [] := by
    intro hnil
    have hhosts := hholds.hosts_eq
    rw [hnil, List.map_nil] at hhosts
    exact hne (List.map_eq_nil_iff.1 hhosts.symm)
  have husable : t.Usable := (hholds.filled.usable hbuckets).congr hsize.symm
  have hmodulus : t'.modulus = t.modulus :=
    by simp only [LookUpTable.modulus, LookUpTable.len, hsize]
  rw [LookUpTable.generatePerms_of_usable husable, Option.some_inj] at hperms
  rw [LookUpTable.populate_of_usable husable, Option.some_inj, hperms] at hpopulate
  have hkeys : ∀ p ∈ permutations, p.index ∈ t.keys := by
    intro p hp
    rw [← hperms] at hp
    obtain ⟨b, hb, rfl⟩ := List.mem_map.1 hp
    exact List.mem_map_of_mem (hperm.mem_iff.1 hb)
  have hmarks := LookUpTable.marks_populateFrom hkeys
  rw [hpopulate] at hmarks
  -- the slot of the key is not empty, so a bucket has taken it
  obtain ⟨hlength, hslots⟩ := hholds.filled.slots_mem hbuckets
  have hlt : (requestHash key % t.modulus).toNat < t'.slots.length := by
    rw [hlength, ← hmodulus]
    exact LookUpTable.toNat_mod_modulus_lt (hmodulus ▸ husable.modulus) _
  have hmark := hmarks.mark (requestHash key % t.modulus).toNat
  rw [List.getD_eq_getElem _ _ hlt, List.getD_eq_getElem _ _ (hmarks.length ▸ hlt)] at hmark
  rcases hmark with ⟨hempty, -⟩ | ⟨k, hk, hslot, howner⟩
  · obtain ⟨b, -, hb⟩ := hslots _ (List.getElem_mem hlt)
    exact absurd (hb.symm.trans hempty) b.2.2
  · obtain ⟨e, he, hbucket⟩ := bucket_eq hnew hk
    refine ⟨k, e, ?_, he, ?_⟩
    · rw [List.getElem?_eq_getElem (hmarks.length ▸ hlt), howner]
    · refine handlerWithSnapshot_eq requestHash key (hmodulus ▸ husable.modulus) ?_ ?_
        (find?_getHost hnodup (List.mem_of_getElem? he))
      · rw [← hholds.filled.length]
        exact fun hzero => hbuckets (List.length_eq_zero_iff.1 hzero)
      · rw [hmodulus, List.getElem?_eq_getElem hlt, hslot, hbucket]

/-- The first endpoint with a host does not come after another one with that host. -/
theorem find?_getHost_le {i : ℕ} {e : Endpoint} (he : endpoints[i]? = some e) :
    ∃ i₀ ≤ i, ∃ e₀, endpoints[i₀]? = some e₀ ∧
      endpoints.find? (fun endpoint => (getHost endpoint).val = (getHost e).val) = some e₀ := by
  have hexists : ∃ x ∈ endpoints, decide ((getHost x).val = (getHost e).val) = true :=
    ⟨e, List.mem_of_getElem? he, decide_eq_true rfl⟩
  obtain ⟨e₀, he₀⟩ := Option.isSome_iff_exists.1 (List.find?_isSome.2 hexists)
  obtain ⟨-, i₀, hlt, hget, hbefore⟩ := List.find?_eq_some_iff_getElem.1 he₀
  refine ⟨i₀, ?_, e₀, List.getElem?_eq_some_iff.2 ⟨hlt, hget⟩, he₀⟩
  by_contra hle
  have hi := hbefore i (not_le.1 hle)
  obtain ⟨_, hget'⟩ := List.getElem?_eq_some_iff.1 he
  rw [hget'] at hi
  simp at hi

/-- Of two endpoints with one host, the second is not reached if its bucket comes first. -/
theorem nodup_of_reachesOwner (hnew : newMaglevHash config endpoints = .ok t)
    (haddress : (endpoints.map (·.address.getAddress)).Nodup) (husable : t.Usable)
    (hreaches : ReachesOwner hash1 hash2 endpoints t) : (endpoints.map getHost).Nodup := by
  refine List.nodup_iff_getElem?_ne_getElem?.2 fun i j hij hj hsame => ?_
  rw [List.length_map] at hj
  obtain ⟨second, hsecond⟩ : ∃ e, endpoints[j]? = some e := ⟨_, List.getElem?_eq_getElem hj⟩
  obtain ⟨first, hfirst⟩ : ∃ e, endpoints[i]? = some e :=
    ⟨_, List.getElem?_eq_getElem (hij.trans hj)⟩
  have hhost : getHost first = getHost second := by
    rw [List.getElem?_map, List.getElem?_map, hfirst, hsecond] at hsame
    exact Option.some_inj.1 hsame
  -- the bucket of the second endpoint comes first, and takes the first slot of its permutation
  have hb : (j, getHost second) ∈ t.buckets := (mem_buckets_iff hnew).2 ⟨second, hsecond, rfl⟩
  have hj : j ∈ t.keys := List.mem_map_of_mem hb
  have hperm := (List.perm_cons_erase hb).symm
  have hnum : 0 < t.endpointNum := by
    rw [endpointNum_eq hnew]
    omega
  obtain ⟨p, hp⟩ : ∃ p, t.permutationOf hash1 hash2 (getHost second) j = p := ⟨_, rfl⟩
  have hindex : p.index = j := hp ▸ rfl
  have hnext : p.next = 0 := hp ▸ rfl
  obtain ⟨k, e, howner, he, hpick⟩ :=
    hreaches (List.ne_nil_of_mem (List.mem_of_getElem? hsecond)) _ _ _ hperm
    (LookUpTable.generatePerms_of_usable husable _) (LookUpTable.populate_of_usable husable _)
    (fun _ => p.position 0 t.modulus) ""
  have hmod : p.position 0 t.modulus % t.modulus = p.position 0 t.modulus := by
    rw [← UInt32.toNat_inj, Permutation.position, UInt32.toNat_mod, UInt32.toNat_mod, Nat.mod_mod]
  simp only [List.map_cons, hp] at howner hpick
  -- so it is the owner of that slot
  have hk : j = k := by
    have hslot := LookUpTable.slots_populateFrom_first (t := t.numbered) husable.modulus hnum hnext
      (by rwa [LookUpTable.keys_numbered, hindex])
        ((t.buckets.erase (j, getHost second)).map fun e =>
        t.permutationOf hash1 hash2 e.2 e.1)
    rw [hindex, LookUpTable.bucket_numbered hj] at hslot
    rw [hmod] at howner
    exact numberOf_injective (Option.some_inj.1 (hslot.symm.trans howner))
  subst hk
  obtain rfl := Option.some_inj.1 (he.symm.trans hsecond)
  -- but an endpoint that is not behind the first one is picked
  obtain ⟨i₀, hi₀, e₀, he₀, hfind⟩ := find?_getHost_le hfirst
  have hslot := LookUpTable.slots_populateFrom_first husable.modulus hnum hnext (by rwa [hindex])
    ((t.buckets.erase (j, getHost e)).map fun e => t.permutationOf hash1 hash2 e.2 e.1)
  have hbucket : t.bucket p.index = (getHost first).val := by
    rw [hindex, LookUpTable.bucket_of_mem (LookUpTable.keys_newLookUpTable hnew) hb, hhost]
  rw [hbucket] at hslot
  have hpick' :=
    handlerWithSnapshot_eq (t := t.populateFrom (p :: _)) (fun _ => p.position 0 t.modulus) ""
    (by rw [LookUpTable.modulus_populateFrom]; exact husable.modulus)
    (by rw [LookUpTable.endpointNum_populateFrom]; exact hnum.ne')
    (by rw [LookUpTable.modulus_populateFrom, hmod]; exact hslot) hfind
  obtain rfl : e₀ = e := Option.some_inj.1 (Option.some_inj.1 (hpick'.symm.trans hpick))
  refine List.nodup_iff_getElem?_ne_getElem?.1 haddress i₀ j (hi₀.trans_lt hij) ?_ ?_
  · rw [List.length_map]
    exact (List.getElem?_eq_some_iff.1 he).1
  · rw [List.getElem?_map, List.getElem?_map, he₀, he]

/-- **Every key reaches the endpoint whose bucket took its slot** exactly when the endpoints have
different hosts, unless the size is one with which no table is built. -/
theorem reachesOwner_iff (haddress : (endpoints.map (·.address.getAddress)).Nodup)
    (hnew : newMaglevHash config endpoints = .ok t) :
    ReachesOwner hash1 hash2 endpoints t ↔ (t.Usable → (endpoints.map getHost).Nodup) := by
  constructor
  · exact fun hreaches husable => nodup_of_reachesOwner hnew haddress husable hreaches
  · intro h
    by_cases husable : t.Usable
    · exact reachesOwner_of_nodup hnew (h husable)
    · intro hne order permutations t' hperm _ hpopulate
      have horder : order ≠ [] :=
        fun hnil => buckets_ne_nil hnew hne (List.nil_perm.1 (hnil ▸ hperm))
      rw [LookUpTable.populate_of_not_usable husable horder] at hpopulate
      cases hpopulate

/-- Two endpoints that are addressed by an IP and a port. -/
def twoAddresses : List Endpoint :=
  [{ id := "1", address := { address := "10.0.0.1", port := 80 } },
    { id := "2", address := { address := "10.0.0.2", port := 80 } }]

/-- Both are reached. -/
theorem reachesOwner_twoAddresses :
    ∃ t, newMaglevHash { maglevTableSize := 307 } twoAddresses = .ok t ∧
      ReachesOwner (fun _ => 0) (fun _ => 1) twoAddresses t := by
  have hnew : newMaglevHash { maglevTableSize := 307 } twoAddresses = .ok _ := rfl
  exact ⟨_, hnew, (reachesOwner_iff (by decide) hnew).2 fun _ => by decide⟩

/-- Two endpoints that are addressed by their domains. -/
def twoDomains : List Endpoint :=
  [{ id := "1", address := { domains := ["a.example"] } },
    { id := "2", address := { domains := ["b.example"] } }]

/-- Both have the host `:0`, so the second one is not reached. -/
theorem not_reachesOwner_domains :
    (twoDomains.map (·.address.getAddress)).Nodup ∧
      ∃ t, newMaglevHash { maglevTableSize := 307 } twoDomains = .ok t ∧
        ∀ hash1 hash2, ¬ ReachesOwner hash1 hash2 twoDomains t := by
  have haddress : (twoDomains.map (·.address.getAddress)).Nodup := by decide
  have hnew : newMaglevHash { maglevTableSize := 307 } twoDomains = .ok _ := rfl
  refine ⟨haddress, _, hnew, fun hash1 hash2 hreaches => ?_⟩
  have hnodup := nodup_of_reachesOwner hnew haddress ⟨by decide, by decide, by decide⟩ hreaches
  exact absurd hnodup (by decide)

end Pixiu.LoadBalancer
