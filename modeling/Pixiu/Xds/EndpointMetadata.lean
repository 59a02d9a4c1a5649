import Pixiu.Base.Terminated
import Pixiu.Xds.Resources

/-!
# Health, weight and locality of EDS endpoints

An endpoint's health, weight and locality travel through the metadata of the extension model, one
entry each, and the filter metadata of the endpoint are written into the same map afterwards, each
under `filter/key`.

`carries_iff`: the cluster config carries what EDS says about every endpoint, exactly when no filter
metadata stand under one of those five names with something else.
-/

namespace Pixiu.Xds

/-- The statuses that mark an endpoint unhealthy. -/
def LbEndpoint.unhealthy (endpoint : LbEndpoint) : Bool :=
  endpoint.healthStatus ∈ [.unhealthy, .draining, .timeout]

/-- A text that is only entered if there is one. -/
def nonEmpty (text : String) : Option String := if text ≠ "" then some text else none

/-- What EDS says about the weight and the locality of an endpoint, by the names of the entries. -/
def edsEntries (endpoint : LbEndpoint) (locality : Option Locality) :
    List (String × Option String) :=
  [("envoy.lb/weight", endpoint.weight.map toString),
    ("envoy.locality/region", locality.bind fun l => nonEmpty l.region),
    ("envoy.locality/zone", locality.bind fun l => nonEmpty l.zone),
    ("envoy.locality/sub_zone", locality.bind fun l => nonEmpty l.subZone)]

/-- The endpoints of an assignment with their localities. -/
def ClusterLoadAssignment.members (assignment : ClusterLoadAssignment) :
    List (LbEndpoint × Option Locality) :=
  assignment.endpoints.reduceOption.flatMap fun l => l.lbEndpoints.reduceOption.map fun e =>
    (e, l.locality)

/-- An endpoint of a cluster config carries what EDS says. -/
structure Carries (endpoint : LbEndpoint) (locality : Option Locality) (e : Cluster.Endpoint) :
    Prop where
  unHealthy : e.unHealthy = endpoint.unhealthy
  entries : ∀ entry ∈ edsEntries endpoint locality, e.metadata.lookup entry.1 = entry.2

/-- The name under which filter metadata are entered. -/
def metadataKey (entry : String × String × String) : String := entry.1 ++ "/" ++ entry.2.1

/-- Filter metadata under one of the names of EDS say the same as EDS. -/
structure Harmless (endpoint : LbEndpoint) (locality : Option Locality) : Prop where
  unHealthy : ∀ m ∈ endpoint.filterMetadata, metadataKey m = "pixiu.io/unhealthy" →
    parseBool m.2.2 = some endpoint.unhealthy
  entries : ∀ m ∈ endpoint.filterMetadata, ∀ entry ∈ edsEntries endpoint locality, metadataKey m =
    entry.1 →
    entry.2 = some m.2.2

/-- The filter metadata are a map of maps. -/
def LbEndpoint.IsMap (endpoint : LbEndpoint) : Prop :=
  (endpoint.filterMetadata.map fun m => (m.1, m.2.1)).Nodup

/-! ## Setting entries -/

theorem lookup_orderedInsert {key key' value : String} {metadata : List (String × String)}
    (h : ∀ entry ∈ metadata, entry.1 ≠ key) :
    (metadata.orderedInsert (fun a b => a.1 ≤ b.1) (key, value)).lookup key' =
      if key' = key then some value else metadata.lookup key' := by
  induction metadata with
  | nil =>
    by_cases hkey : key' = key
    · simp [hkey]
    · have hbeq : (key' == key) = false := by simpa using hkey
      simp [List.lookup, hkey, hbeq]
  | cons entry rest ih =>
    have hrest := ih fun e he => h e (List.mem_cons_of_mem _ he)
    have hentry := h entry List.mem_cons_self
    obtain ⟨k, v⟩ := entry
    rw [List.orderedInsert_cons]
    split
    · by_cases hkey : key' = key
      · simp [hkey]
      · have hbeq : (key' == key) = false := by simpa using hkey
        rw [List.lookup_cons, hbeq, if_neg hkey]
    · rw [List.lookup_cons, hrest, List.lookup_cons]
      by_cases hk : key' = k
      · subst hk
        rw [beq_self_eq_true]
        exact (if_neg hentry).symm
      · have hbeq : (key' == k) = false := by simpa using hk
        rw [hbeq]

theorem lookup_filter_ne {key key' : String} (h : key' ≠ key) (metadata : List (String × String)) :
    (metadata.filter (·.1 ≠ key)).lookup key' = metadata.lookup key' := by
  induction metadata with
  | nil => rfl
  | cons entry rest ih =>
    obtain ⟨k, v⟩ := entry
    rw [List.filter_cons]
    by_cases hk : key' = k
    · subst hk
      simp [h]
    · have hbeq : (key' == k) = false := by simpa using hk
      split
      · simp only [List.lookup_cons, hbeq, ih]
      · simp only [List.lookup_cons, hbeq, ih]

theorem lookup_setMetadata (key value key' : String) (metadata : List (String × String)) :
    (setMetadata key value metadata).lookup key' = if key' = key then
      some value else metadata.lookup key' := by
  have hnot : ∀ entry ∈ metadata.filter (·.1 ≠ key), entry.1 ≠ key := fun entry hentry => by
    simpa using (List.mem_filter.1 hentry).2
  rw [setMetadata, lookup_orderedInsert hnot]
  split
  · rfl
  · rename_i hne
    exact lookup_filter_ne hne metadata

theorem lookup_setMetadataUnlessEmpty (key value key' : String)
    (metadata : List (String × String)) :
    (setMetadataUnlessEmpty key value metadata).lookup key' =
      if key' = key then (nonEmpty value).or (metadata.lookup key') else metadata.lookup key' := by
  rw [setMetadataUnlessEmpty, nonEmpty]
  by_cases hvalue : value ≠ ""
  · rw [if_pos hvalue, if_pos hvalue, lookup_setMetadata, Option.some_or]
  · rw [if_neg hvalue, if_neg hvalue, Option.none_or, ite_self]

/-! ## One name, one entry -/

/-- A name with one slash is entered for one filter and one key only. -/
theorem metadataKey_inj {m m' : String × String × String}
    (hcount : (metadataKey m).toList.count '/' = 1)
    (h : metadataKey m' = metadataKey m) : (m'.1, m'.2.1) = (m.1, m.2.1) := by
  have hsplit : ∀ {n : String × String × String}, (metadataKey n).toList.count '/' = 1 →
      '/' ∉ n.1.toList ∧ (metadataKey n).toList = n.1.toList ++ '/' :: n.2.1.toList := by
    intro n hn
    have htext : (metadataKey n).toList = n.1.toList ++ '/' :: n.2.1.toList := by
      simp [metadataKey]
    rw [htext, List.count_append, List.count_cons_self] at hn
    exact ⟨List.count_eq_zero.1 (by omega), htext⟩
  obtain ⟨hm, htext⟩ := hsplit hcount
  obtain ⟨hm', htext'⟩ := hsplit (h ▸ hcount)
  have heq : m'.1.toList ++ '/' :: m'.2.1.toList = m.1.toList ++ '/' :: m.2.1.toList := by
    rw [← htext', ← htext, h]
  obtain ⟨hfilter, hkey⟩ := append_sep_inj hm' hm heq
  rw [String.toList_inj.1 hfilter, String.toList_inj.1 hkey]

/-- The names of EDS have one slash. -/
theorem count_slash_edsEntries {endpoint : LbEndpoint} {locality : Option Locality}
    {entry : String × Option String}
    (h : entry ∈ edsEntries endpoint locality) : entry.1.toList.count '/' = 1 := by
  simp only [edsEntries, List.mem_cons, List.not_mem_nil, or_false] at h
  rcases h with rfl | rfl | rfl | rfl
  all_goals
    dsimp only
    decide

/-- The entry under a name after the filter metadata: one of theirs, or what was there. -/
theorem lookup_foldl_setMetadata (key : String) (entries : List (String × String × String))
    (metadata : List (String × String)) :
    (∃ m ∈ entries, metadataKey m = key ∧
      (entries.foldl (fun metadata m => setMetadata (metadataKey m) m.2.2 metadata) metadata).lookup
        key =
        some m.2.2) ∨
    ((∀ m ∈ entries, metadataKey m ≠ key) ∧
      (entries.foldl (fun metadata m => setMetadata (metadataKey m) m.2.2 metadata) metadata).lookup
        key =
        metadata.lookup key) := by
  induction entries generalizing metadata with
  | nil => exact .inr ⟨fun m hm => absurd hm List.not_mem_nil, rfl⟩
  | cons m rest ih =>
    rw [List.foldl_cons]
    rcases ih (setMetadata (metadataKey m) m.2.2 metadata) with ⟨m', hm', hkey, hlookup⟩ |
      ⟨hnone, hlookup⟩
    · exact .inl ⟨m', List.mem_cons_of_mem _ hm', hkey, hlookup⟩
    · rw [hlookup, lookup_setMetadata]
      by_cases hkey : metadataKey m = key
      · exact .inl ⟨m, List.mem_cons_self, hkey, if_pos hkey.symm⟩
      · refine .inr ⟨?_, if_neg fun h => hkey h.symm⟩
        intro m' hm'
        rcases List.mem_cons.1 hm' with rfl | hm'
        · exact hkey
        · exact hnone m' hm'

/-! ## The metadata of an endpoint -/

/-- The metadata before the filter metadata. -/
def edsMetadata (endpoint : LbEndpoint) (locality : Option Locality) : List (String × String) :=
  endpointMetadata { endpoint with filterMetadata := [] } locality

theorem endpointMetadata_eq (endpoint : LbEndpoint) (locality : Option Locality) :
    endpointMetadata endpoint locality = endpoint.filterMetadata.foldl
      (fun metadata m => setMetadata (metadataKey m) m.2.2 metadata)
        (edsMetadata endpoint locality) := rfl

/-- The entries before the filter metadata: of the locality, of the health and of the weight. -/
theorem lookup_edsMetadata_eq (endpoint : LbEndpoint) (locality : Option Locality) (key : String) :
    (edsMetadata endpoint locality).lookup key =
      (locality.bind fun l =>
        (if key = "envoy.locality/sub_zone" then nonEmpty l.subZone else none).or
          ((if key = "envoy.locality/zone" then nonEmpty l.zone else none).or
            (if key = "envoy.locality/region" then nonEmpty l.region else none))).or
      ((if key = "pixiu.io/unhealthy" ∧ endpoint.unhealthy then some "true" else none).or
        (if key = "envoy.lb/weight" then endpoint.weight.map toString else none)) := by
  have hlook : ∀ (name value : String) (metadata : List (String × String)),
      (setMetadataUnlessEmpty name value metadata).lookup key =
        (if key = name then nonEmpty value else none).or (metadata.lookup key) := by
    intro name value metadata
    rw [lookup_setMetadataUnlessEmpty]
    split <;> simp
  have hhealth : ∀ metadata : List (String × String),
      (if endpoint.healthStatus ∈ [HealthStatus.unhealthy, .draining, .timeout]
        then setMetadata "pixiu.io/unhealthy" "true" metadata else metadata).lookup key =
      (if key = "pixiu.io/unhealthy" ∧ endpoint.unhealthy then some "true" else none).or
        (metadata.lookup key) := by
    intro metadata
    simp only [LbEndpoint.unhealthy, decide_eq_true_eq]
    by_cases hstatus : endpoint.healthStatus ∈ [HealthStatus.unhealthy, .draining, .timeout]
    · rw [if_pos hstatus, lookup_setMetadata]
      simp only [hstatus, and_true]
      split <;> simp
    · rw [if_neg hstatus, if_neg fun h => hstatus h.2, Option.none_or]
  have hlocated : (edsMetadata endpoint locality).lookup key = (locality.bind fun l =>
        (if key = "envoy.locality/sub_zone" then nonEmpty l.subZone else none).or
          ((if key = "envoy.locality/zone" then nonEmpty l.zone else none).or
            (if key = "envoy.locality/region" then nonEmpty l.region else none))).or
      ((edsMetadata endpoint none).lookup key) := by
    cases locality with
    | none => rfl
    | some l =>
      simp only [edsMetadata, endpointMetadata, List.foldl_nil, hlook, Option.bind_some,
        Option.or_assoc]
  rw [hlocated]
  simp only [edsMetadata, endpointMetadata, List.foldl_nil, hhealth]
  cases endpoint.weight with
  | none => simp
  | some weight => rw [lookup_setMetadata]; rfl

theorem lookup_edsMetadata {endpoint : LbEndpoint} {locality : Option Locality}
    {entry : String × Option String}
    (h : entry ∈ edsEntries endpoint locality) :
    (edsMetadata endpoint locality).lookup entry.1 = entry.2 := by
  rw [lookup_edsMetadata_eq]
  simp only [edsEntries, List.mem_cons, List.not_mem_nil, or_false] at h
  rcases h with rfl | rfl | rfl | rfl
  all_goals simp

theorem lookup_unhealthy_edsMetadata (endpoint : LbEndpoint) (locality : Option Locality) :
    (edsMetadata endpoint locality).lookup "pixiu.io/unhealthy" =
      if endpoint.unhealthy then some "true" else none := by
  rw [lookup_edsMetadata_eq]
  simp

variable {endpoint : LbEndpoint} {locality : Option Locality}

/-- Under a name with one slash there is at most one entry of the filter metadata. -/
theorem LbEndpoint.IsMap.eq_of_metadataKey_eq (hmap : endpoint.IsMap)
    {m m' : String × String × String}
    (hm : m ∈ endpoint.filterMetadata) (hm' : m' ∈ endpoint.filterMetadata)
    (hcount : (metadataKey m).toList.count '/' = 1) (h : metadataKey m' = metadataKey m) : m' = m :=
  List.inj_on_of_nodup_map hmap hm' hm (metadataKey_inj hcount h)

theorem lookup_endpointMetadata_iff (hmap : endpoint.IsMap) {entry : String × Option String}
    (hentry : entry ∈ edsEntries endpoint locality) :
    (endpointMetadata endpoint locality).lookup entry.1 = entry.2 ↔
      ∀ m ∈ endpoint.filterMetadata, metadataKey m = entry.1 → entry.2 = some m.2.2 := by
  rw [endpointMetadata_eq]
  rcases lookup_foldl_setMetadata entry.1 endpoint.filterMetadata (edsMetadata endpoint locality)
    with
    ⟨m, hm, hkey, hlookup⟩ | ⟨hnone, hlookup⟩
  · rw [hlookup]
    constructor
    · intro h m' hm' hkey'
      have hcount : (metadataKey m).toList.count '/' = 1 := hkey ▸ count_slash_edsEntries hentry
      rw [hmap.eq_of_metadataKey_eq hm hm' hcount (hkey'.trans hkey.symm), h]
    · exact fun h => (h m hm hkey).symm
  · rw [hlookup]
    exact iff_of_true (lookup_edsMetadata hentry) fun m hm hkey => absurd hkey (hnone m hm)

theorem unhealthyOf_endpointMetadata_iff (hmap : endpoint.IsMap) {unhealthy : Bool}
    (h : unhealthyOf (endpointMetadata endpoint locality) = some unhealthy) :
    unhealthy = endpoint.unhealthy ↔
      ∀ m ∈ endpoint.filterMetadata, metadataKey m = "pixiu.io/unhealthy" →
        parseBool m.2.2 = some endpoint.unhealthy := by
  rw [unhealthyOf, endpointMetadata_eq] at h
  rcases lookup_foldl_setMetadata "pixiu.io/unhealthy" endpoint.filterMetadata
    (edsMetadata endpoint locality) with
    ⟨m, hm, hkey, hlookup⟩ | ⟨hnone, hlookup⟩
  · rw [hlookup] at h
    have hparsed : parseBool m.2.2 = some unhealthy := h
    constructor
    · intro hsame m' hm' hkey'
      have hcount : (metadataKey m).toList.count '/' = 1 := hkey ▸ rfl
      rw [hmap.eq_of_metadataKey_eq hm hm' hcount (hkey'.trans hkey.symm), hparsed, hsame]
    · intro hharmless
      exact Option.some_inj.1 (hparsed.symm.trans (hharmless m hm hkey))
  · refine iff_of_true ?_ fun m hm hkey => absurd hkey (hnone m hm)
    rw [hlookup, lookup_unhealthy_edsMetadata] at h
    cases hunhealthy : endpoint.unhealthy with
    | true =>
      rw [hunhealthy] at h
      exact (Option.some_inj.1 h).symm
    | false =>
      rw [hunhealthy] at h
      exact (Option.some_inj.1 h).symm

/-! ## The endpoints of a cluster config -/

/-- What conversion makes of one endpoint. -/
def Converted (endpoint : LbEndpoint) (locality : Option Locality) (e : Cluster.Endpoint) : Prop :=
  e.metadata = endpointMetadata endpoint locality ∧
    unhealthyOf (endpointMetadata endpoint locality) = some e.unHealthy

theorem Converted.carries_member_iff {e : Cluster.Endpoint} (h : Converted endpoint locality e)
    (hmap : endpoint.IsMap) :
    Carries endpoint locality e ↔ Harmless endpoint locality := by
  obtain ⟨hmetadata, hunhealthy⟩ := h
  constructor
  · intro hcarries
    refine ⟨(unhealthyOf_endpointMetadata_iff hmap hunhealthy).1 hcarries.unHealthy, ?_⟩
    intro m hm entry hentry
    have hlookup := hcarries.entries entry hentry
    rw [hmetadata] at hlookup
    exact (lookup_endpointMetadata_iff hmap hentry).1 hlookup m hm
  · intro hharmless
    refine ⟨(unhealthyOf_endpointMetadata_iff hmap hunhealthy).2 hharmless.unHealthy, ?_⟩
    intro entry hentry
    rw [hmetadata]
    exact (lookup_endpointMetadata_iff hmap hentry).2 fun m hm =>
      hharmless.entries m hm entry hentry

theorem metadata_convertLocality {name : String} {l : LocalityLbEndpoints} {exts : List ExtEndpoint}
    (h : convertLocality name (some l) = .ok exts) :
    exts.map (·.metadata) = l.lbEndpoints.reduceOption.map fun e =>
      endpointMetadata e l.locality := by
  rw [convertLocality] at h
  cases hrun : l.lbEndpoints.mapM (convertLbEndpoint name l.locality) with
  | error err => rw [hrun] at h; cases h
  | ok converted =>
    rw [hrun] at h
    obtain rfl : converted.reduceOption = exts := Except.ok.inj h
    have hall := System.forall₂_of_mapM_ok hrun
    clear hrun h
    generalize l.lbEndpoints = lbEndpoints at hall ⊢
    induction hall with
    | nil => rfl
    | @cons endpoint ext _ _ hconvert _ ih =>
      cases endpoint with
      | none =>
        obtain rfl := Except.ok.inj hconvert
        exact ih
      | some endpoint =>
        rw [convertLbEndpoint] at hconvert
        split at hconvert
        · cases hconvert
        · split at hconvert
          · cases hconvert
          · obtain rfl := Except.ok.inj hconvert
            rw [List.reduceOption_cons_of_some, List.map_cons, ih, List.reduceOption_cons_of_some,
              List.map_cons]

/-- The metadata of the converted endpoints, in order. -/
theorem metadata_convertLoadBalancingEndpoints {assignment : ClusterLoadAssignment}
    {exts : List ExtEndpoint}
    (h : convertLoadBalancingEndpoints assignment = .ok exts) :
    exts.map (·.metadata) = assignment.members.map fun member =>
      endpointMetadata member.1 member.2 := by
  rw [convertLoadBalancingEndpoints] at h
  cases hrun : assignment.endpoints.mapM (convertLocality assignment.clusterName) with
  | error err => rw [hrun] at h; cases h
  | ok parts =>
    rw [hrun] at h
    obtain rfl : parts.flatten = exts := Except.ok.inj h
    have hall := System.forall₂_of_mapM_ok hrun
    rw [ClusterLoadAssignment.members]
    clear hrun h
    generalize assignment.endpoints = localities at hall ⊢
    induction hall with
    | nil => rfl
    | @cons l part _ _ hconvert _ ih =>
      cases l with
      | none =>
        obtain rfl := Except.ok.inj hconvert
        exact ih
      | some l =>
        rw [List.flatten_cons, List.map_append, ih, List.reduceOption_cons_of_some,
          List.flatMap_cons, List.map_append,
          metadata_convertLocality hconvert, List.map_map]
        rfl

theorem forall₂_makeEndpointsFrom {cluster : String} {exts : List ExtEndpoint} {index : ℕ}
    {ids addresses : List String} {es : List (Option Cluster.Endpoint)}
    (h : makeEndpointsFrom cluster exts index ids addresses = .ok es) :
    List.Forall₂ (fun ext e => ∃ e', e = some e' ∧ e'.metadata = ext.metadata ∧
      unhealthyOf ext.metadata = some e'.unHealthy) exts es := by
  induction exts generalizing index ids addresses es with
  | nil =>
    obtain rfl := Except.ok.inj h
    exact .nil
  | cons ext exts ih =>
    rw [makeEndpointsFrom] at h
    split_ifs at h
    dsimp only at h
    split_ifs at h
    split at h
    · cases h
    · rename_i unhealthy hunhealthy
      cases hrest : makeEndpointsFrom cluster exts (index + 1) (ext.id :: ids)
          ((ext.address ++ ":" ++ toString ext.port) :: addresses) with
      | error err => rw [hrest] at h; cases h
      | ok rest =>
        rw [hrest] at h
        obtain rfl := Except.ok.inj h
        exact .cons ⟨_, rfl, rfl, hunhealthy⟩ (ih hrest)

variable {assignment : ClusterLoadAssignment} {exts : List ExtEndpoint} {cluster : String}
  {es : List (Option Cluster.Endpoint)}

theorem forall₂_converted (hconvert : convertLoadBalancingEndpoints assignment = .ok exts)
    (hmake : makeEndpointsFrom cluster exts 0 [] [] = .ok es) :
    List.Forall₂ (fun member e => ∃ e', e = some e' ∧ Converted member.1 member.2 e')
      assignment.members es := by
  have hmade : List.Forall₂ (fun metadata e => ∃ e', e = some e' ∧ e'.metadata = metadata ∧
      unhealthyOf metadata = some e'.unHealthy) (exts.map (·.metadata)) es :=
    List.forall₂_map_left_iff.2 (forall₂_makeEndpointsFrom hmake)
  rw [metadata_convertLoadBalancingEndpoints hconvert] at hmade
  exact List.forall₂_map_left_iff.1 hmade

/-- **The cluster config carries health, weight and locality** of every endpoint of an accepted
assignment exactly when the filter metadata do not stand under their names with something else. -/
theorem carries_iff (hconvert : convertLoadBalancingEndpoints assignment = .ok exts)
    (hmake : makeEndpointsFrom cluster exts 0 [] [] = .ok es)
    (hmap : ∀ member ∈ assignment.members, member.1.IsMap) :
    List.Forall₂ (fun member e => ∃ e', e = some e' ∧ Carries member.1 member.2 e')
      assignment.members es ↔
      ∀ member ∈ assignment.members, Harmless member.1 member.2 := by
  have hconverted := forall₂_converted hconvert hmake
  generalize assignment.members = members at hmap hconverted ⊢
  clear hmake
  induction hconverted with
  | nil => exact iff_of_true .nil fun member hmember => absurd hmember List.not_mem_nil
  | @cons member e rest _ hfirst _ ih =>
    obtain ⟨e', rfl, hfirst⟩ := hfirst
    have hcarries := hfirst.carries_member_iff (hmap member List.mem_cons_self)
    have hrest := ih fun member hmember => hmap member (List.mem_cons_of_mem _ hmember)
    rw [List.forall₂_cons, List.forall_mem_cons, ← hcarries]
    constructor
    · rintro ⟨⟨e'', he'', h⟩, hall⟩
      obtain rfl := Option.some_inj.1 he''
      exact ⟨h, hrest.1 hall⟩
    · exact fun h => ⟨⟨e', rfl, h.1⟩, hrest.2 h.2⟩

/-- An assignment with one unhealthy endpoint and these filter metadata. -/
def oneUnhealthy (filterMetadata : List (String × String × String)) : ClusterLoadAssignment where
  clusterName := "orders"
  endpoints := [some { locality := none, lbEndpoints := [some {
    address := some ("10.0.0.1", 80), weight := some 3, healthStatus :=
      .unhealthy, filterMetadata }] }]

/-- What it is converted to, with its metadata. -/
def oneExt (metadata : List (String × String)) : List ExtEndpoint :=
  [{ id := "10.0.0.1:80", name := "10.0.0.1:80", address := "10.0.0.1", port := 80, metadata }]

/-- Filter metadata under another name. -/
theorem carries_other : ∃ es, makeEndpointsFrom "orders" (oneExt [("envoy.lb/canary", "true"),
      ("envoy.lb/weight", "3"), ("pixiu.io/unhealthy", "true")]) 0 [] [] = .ok es ∧
    List.Forall₂ (fun member e => ∃ e', e = some e' ∧ Carries member.1 member.2 e')
      (oneUnhealthy [("envoy.lb", "canary", "true")]).members es := by
  have hconvert : convertLoadBalancingEndpoints (oneUnhealthy [("envoy.lb", "canary", "true")]) =
      .ok
        (oneExt [("envoy.lb/canary", "true"), ("envoy.lb/weight", "3"),
          ("pixiu.io/unhealthy", "true")]) := by
    decide +kernel
  have hmake : makeEndpointsFrom "orders"
      (oneExt [("envoy.lb/canary", "true"), ("envoy.lb/weight", "3"),
      ("pixiu.io/unhealthy", "true")]) 0 [] [] = .ok _ := rfl
  refine ⟨_, hmake, (carries_iff hconvert hmake ?_).2 ?_⟩
  · intro member hmember
    obtain rfl := List.mem_singleton.1 hmember
    exact List.nodup_singleton _
  · intro member hmember
    obtain rfl := List.mem_singleton.1 hmember
    constructor
    · intro m hm hkey
      obtain rfl := List.mem_singleton.1 hm
      exact absurd hkey (by decide)
    · intro m hm entry hentry hkey
      obtain rfl := List.mem_singleton.1 hm
      fin_cases hentry <;> exact absurd hkey (by decide)

/-- Filter metadata that call the unhealthy endpoint healthy. -/
theorem not_carries_unhealthy :
    convertLoadBalancingEndpoints (oneUnhealthy [("pixiu.io", "unhealthy", "false")]) =
        .ok (oneExt [("envoy.lb/weight", "3"), ("pixiu.io/unhealthy", "false")]) ∧
      ∃ es,
      makeEndpointsFrom "orders"
        (oneExt [("envoy.lb/weight", "3"), ("pixiu.io/unhealthy", "false")]) 0 [] [] =
          .ok es ∧
        ¬ List.Forall₂ (fun member e => ∃ e', e = some e' ∧ Carries member.1 member.2 e')
          (oneUnhealthy [("pixiu.io", "unhealthy", "false")]).members es := by
  refine ⟨by decide +kernel, _, rfl, fun h => ?_⟩
  obtain ⟨⟨e', he', hcarries⟩, -⟩ := List.forall₂_cons.1 h
  obtain rfl := Option.some_inj.1 he'
  exact absurd hcarries.unHealthy (by decide)

end Pixiu.Xds
