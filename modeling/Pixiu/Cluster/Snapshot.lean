import Pixiu.Cluster.Endpoint

/-!
# Endpoint snapshots

`EndpointSnapshot` of `pkg/cluster/cluster.go`: the immutable view of a cluster that requests
pick from.  It keeps one list of endpoints and six indexes of it, filled by two different
constructors: `newEndpointSnapshot`, which walks the configuration and inherits health from
a previous snapshot, and `withEndpointHealthForIDs`, which copies a snapshot with the health of
some endpoints changed.

Go delivers the keys of a map in any order; a loop over a map takes that order as an
argument (`Enumerates`).

`WellFormed` says that every index is what the list determines, and
`wellFormed_of_reachable` that every snapshot the two constructors can make is well formed,
whatever the order of the loops.
-/

namespace Pixiu.Cluster

/-! ## The snapshot and its constructors -/

/-- `EndpointSnapshot`, without the consistent-hash table built on demand. -/
structure EndpointSnapshot where
  all : List Endpoint := []
  healthy : List Endpoint := []
  endpointByID : String → Option Endpoint := fun _ => none
  healthyEndpointByID : String → Option Endpoint := fun _ => none
  addressByID : String → Option String := fun _ => none
  healthyByID : String → Option Bool := fun _ => none
  healthyByAddress : String → Option Bool := fun _ => none
  lbPolicy : String := ""
  consistentHashConfig : ConsistentHash := {}

/-- `addAddressHealth` on the map of address health. -/
def addAddressHealth (byAddress : String → Option Bool) (address : String) (healthy : Bool) :
    String → Option Bool :=
  Function.update byAddress address <| some <| match byAddress address with
    | none => healthy
    | some addressHealthy => addressHealthy && healthy

namespace EndpointSnapshot

/-- `addEndpoint`. -/
def addEndpoint (s : EndpointSnapshot) (endpoint : Endpoint) (address : String) (healthy : Bool) :
    EndpointSnapshot :=
  let endpoint := { endpoint with unHealthy := !healthy }
  { s with
    all := s.all ++ [endpoint]
    endpointByID := Function.update s.endpointByID endpoint.id (some endpoint)
    addressByID := Function.update s.addressByID endpoint.id (some address)
    healthyByID := Function.update s.healthyByID endpoint.id (some healthy)
    healthyByAddress := addAddressHealth s.healthyByAddress address healthy
    healthy := if healthy then s.healthy ++ [endpoint] else s.healthy
    healthyEndpointByID := if healthy then
        Function.update s.healthyEndpointByID endpoint.id (some endpoint)
      else s.healthyEndpointByID }

/-- `endpointSnapshotHealth`. -/
def endpointSnapshotHealth (endpoint : Endpoint) (address : String)
    (previous : Option EndpointSnapshot) (inheritRuntimeHealth : Bool) : Bool :=
  match previous with
  | none => !endpoint.unHealthy
  | some previous =>
      if inheritRuntimeHealth then
        if previous.addressByID endpoint.id = some address then
          (previous.healthyByID endpoint.id).getD false
        else (previous.healthyByAddress address).getD (!endpoint.unHealthy)
      else !endpoint.unHealthy

section New

variable (sum : String → String)

/-- One endpoint of the loop of `newEndpointSnapshot`. -/
def addConfigEndpoint (clusterName : String) (previous : Option EndpointSnapshot)
    (inheritRuntimeHealth : Bool) (s : EndpointSnapshot) (endpoint : Endpoint) :
    EndpointSnapshot :=
  let endpointIDs := s.all.map (·.id)
  let endpoint :=
    { endpoint with id := stableUniqueEndpointID sum clusterName endpoint endpointIDs }
  let address := endpoint.address.getAddress
  s.addEndpoint endpoint address
    (endpointSnapshotHealth endpoint address previous inheritRuntimeHealth)

/-- `newEndpointSnapshot`; `nil` endpoints are skipped. -/
def newEndpointSnapshot (config : Option ClusterConfig) (previous : Option EndpointSnapshot)
    (inheritRuntimeHealth : Bool) : EndpointSnapshot :=
  match config with
  | none => {}
  | some config =>
      (config.endpoints.filterMap id).foldl
        (addConfigEndpoint sum config.name previous inheritRuntimeHealth)
        { lbPolicy := config.lbStr, consistentHashConfig := config.consistentHash }

end New

/-- The loop of `withEndpointHealthForIDs` over `healthyByID`, in a given order. -/
def nextHealth (s : EndpointSnapshot) (order endpointIDs : List String) (healthy : Bool) :
    (String → Option Bool) × (String → Option Bool) :=
  order.foldl (fun next id => match s.healthyByID id with
    | none => next
    | some wasHealthy =>
        let nextHealthy := if id ∈ endpointIDs then healthy else wasHealthy
        (Function.update next.1 id (some nextHealthy),
          addAddressHealth next.2 ((s.addressByID id).getD "") nextHealthy))
    (fun _ => none, fun _ => none)

/-- One endpoint of the last loop of `withEndpointHealthForIDs`. -/
def addNextEndpoint (endpointIDs : List String) (healthy : Bool) (next : EndpointSnapshot)
    (endpoint : Endpoint) : EndpointSnapshot :=
  let id := endpoint.id
  let nextEndpoint :=
    if id ∈ endpointIDs then { endpoint with unHealthy := !healthy } else endpoint
  let next := { next with
    all := next.all ++ [nextEndpoint]
    endpointByID := Function.update next.endpointByID id (some nextEndpoint) }
  if (next.healthyByID id).getD false then
    { next with
      healthy := next.healthy ++ [nextEndpoint]
      healthyEndpointByID := Function.update next.healthyEndpointByID id (some nextEndpoint) }
  else next

/-- `withEndpointHealthForIDs`: nothing without an endpoint to change; `some none` is the
snapshot itself, when no health changes. -/
def withEndpointHealthForIDs (s : EndpointSnapshot) (order endpointIDs : List String)
    (healthy : Bool) : Option (Option EndpointSnapshot) :=
  if endpointIDs = [] then none
  else if endpointIDs.all fun id => (s.healthyByID id).getD false == healthy then some none
  else
    let byHealth := s.nextHealth order endpointIDs healthy
    some <| some <| s.all.foldl (addNextEndpoint endpointIDs healthy)
      { addressByID := s.addressByID, healthyByID := byHealth.1, healthyByAddress := byHealth.2,
        lbPolicy := s.lbPolicy, consistentHashConfig := s.consistentHashConfig }

/-- `withEndpointHealth`. -/
def withEndpointHealth (s : EndpointSnapshot) (order : List String)
    (endpointID endpointAddress : String) (healthy : Bool) : Option (Option EndpointSnapshot) :=
  if s.addressByID endpointID = some endpointAddress then
    s.withEndpointHealthForIDs order [endpointID] healthy
  else none

/-- `withEndpointAddressHealth`; its first loop is over `addressByID`. -/
def withEndpointAddressHealth (s : EndpointSnapshot) (addressOrder order : List String)
    (endpointAddress : String) (healthy : Bool) : Option (Option EndpointSnapshot) :=
  s.withEndpointHealthForIDs order
    (addressOrder.filter fun id => s.addressByID id == some endpointAddress) healthy

end EndpointSnapshot

/-! ## What a snapshot should be -/

/-- A list is a possible order of a loop over the keys of a map. -/
structure Enumerates {β : Type} (order : List String) (m : String → Option β) : Prop where
  nodup : order.Nodup
  mem_iff : ∀ key, key ∈ order ↔ (m key).isSome

/-- Every index of a snapshot is the one that its list of endpoints determines. -/
structure WellFormed (s : EndpointSnapshot) : Prop where
  /-- The IDs are distinct. -/
  nodup : (s.all.map (·.id)).Nodup
  /-- The IDs lead to their endpoints. -/
  endpointByID_iff : ∀ id e, s.endpointByID id = some e ↔ e ∈ s.all ∧ e.id = id
  /-- The IDs lead to the addresses of their endpoints. -/
  addressByID_iff : ∀ id address, s.addressByID id = some address ↔
    ∃ e ∈ s.all, e.id = id ∧ e.address.getAddress = address
  /-- The IDs lead to the health of their endpoints, and the flags are its negation. -/
  healthyByID_iff : ∀ id healthy, s.healthyByID id = some healthy ↔
    ∃ e ∈ s.all, e.id = id ∧ e.unHealthy = !healthy
  /-- The healthy endpoints, in order. -/
  healthy_eq : s.healthy = s.all.filter (!·.unHealthy)
  /-- The IDs of the healthy endpoints lead to them. -/
  healthyEndpointByID_iff : ∀ id e, s.healthyEndpointByID id = some e ↔ e ∈ s.healthy ∧ e.id = id
  /-- An address is healthy if every endpoint there is. -/
  healthyByAddress_iff : ∀ address healthy, s.healthyByAddress address = some healthy ↔
    (∃ e ∈ s.all, e.address.getAddress = address) ∧
      (healthy = true ↔ ∀ e ∈ s.all, e.address.getAddress = address → e.unHealthy = false)

/-- The snapshots that the constructors can make. -/
inductive Reachable (sum : String → String) : EndpointSnapshot → Prop where
  | first (config : Option ClusterConfig) (inheritRuntimeHealth : Bool) :
      Reachable sum (.newEndpointSnapshot sum config none inheritRuntimeHealth)
  | again (config : Option ClusterConfig) {previous : EndpointSnapshot}
      (inheritRuntimeHealth : Bool) : Reachable sum previous →
      Reachable sum (.newEndpointSnapshot sum config (some previous) inheritRuntimeHealth)
  | health {s next : EndpointSnapshot} {order : List String} (endpointID endpointAddress : String)
      (healthy : Bool) : Reachable sum s → Enumerates order s.healthyByID →
      s.withEndpointHealth order endpointID endpointAddress healthy = some (some next) →
      Reachable sum next
  | addressHealth {s next : EndpointSnapshot} {addressOrder order : List String}
      (endpointAddress : String) (healthy : Bool) : Reachable sum s →
      Enumerates addressOrder s.addressByID → Enumerates order s.healthyByID →
      s.withEndpointAddressHealth addressOrder order endpointAddress healthy = some (some next) →
      Reachable sum next

/-! ## Address health, folded -/

/-- The health of an address after a sequence of reports. -/
theorem foldl_addAddressHealth (reports : List (String × Bool)) (address : String) :
    (reports.foldl (fun m r => addAddressHealth m r.1 r.2) (fun _ => none)) address =
      if reports.filter (·.1 = address) = [] then none
      else some ((reports.filter (·.1 = address)).all (·.2)) := by
  induction reports using List.reverseRecOn with
  | nil => rfl
  | append_singleton reports r ih =>
    rw [List.foldl_append, List.foldl_cons, List.foldl_nil, addAddressHealth, List.filter_append]
    by_cases hr : address = r.1
    · subst hr
      rw [Function.update_self, ih]
      by_cases hnil : reports.filter (·.1 = r.1) = []
      · simp [hnil]
      · simp [hnil, List.all_append]
    · have hlast : [r].filter (·.1 = address) = [] := by simpa using fun h => hr h.symm
      rw [Function.update_of_ne hr, ih, hlast, List.append_nil]

/-- An address is healthy if every report about it says so, whatever the order of the reports. -/
theorem foldl_addAddressHealth_iff (reports : List (String × Bool)) (address : String)
    (healthy : Bool) :
    (reports.foldl (fun m r => addAddressHealth m r.1 r.2) (fun _ => none)) address = some healthy ↔
      (∃ r ∈ reports, r.1 = address) ∧
        (healthy = true ↔ ∀ r ∈ reports, r.1 = address → r.2 = true) := by
  rw [foldl_addAddressHealth]
  have hnil : reports.filter (·.1 = address) = [] ↔ ¬ ∃ r ∈ reports, r.1 = address := by
    rw [List.filter_eq_nil_iff]
    simp only [decide_eq_true_eq, not_exists, not_and]
  have hall : (reports.filter (·.1 = address)).all (·.2) = true ↔
      ∀ r ∈ reports, r.1 = address → r.2 = true := by
    simp only [List.all_eq_true, List.mem_filter, decide_eq_true_eq, and_imp]
  rw [← hall]
  split_ifs with h
  · simp [hnil.1 h]
  · rw [Option.some_inj, Bool.eq_iff_iff, and_iff_right (not_not.1 (mt hnil.2 h))]
    exact iff_comm

/-! ## The invariant of the constructors

`Indexed` is `WellFormed` in the form in which one more endpoint is one more step: every
index is computed from the list. -/

/-- The address and the health of an endpoint. -/
def Endpoint.report (e : Endpoint) : String × Bool := (e.address.getAddress, !e.unHealthy)

/-- Every index of a snapshot, computed from its list. -/
structure Indexed (s : EndpointSnapshot) : Prop where
  nodup : (s.all.map (·.id)).Nodup
  endpointByID : ∀ id, s.endpointByID id = s.all.find? (·.id = id)
  addressByID : ∀ id, s.addressByID id = (s.all.find? (·.id = id)).map (·.address.getAddress)
  healthyByID : ∀ id, s.healthyByID id = (s.all.find? (·.id = id)).map (!·.unHealthy)
  healthy : s.healthy = s.all.filter (!·.unHealthy)
  healthyEndpointByID : ∀ id, s.healthyEndpointByID id = s.healthy.find? (·.id = id)
  /-- The reports may have come in any order. -/
  healthyByAddress : ∃ reports : List (String × Bool),
    s.healthyByAddress = reports.foldl (fun m r => addAddressHealth m r.1 r.2) (fun _ => none) ∧
      ∀ r, r ∈ reports ↔ ∃ e ∈ s.all, e.report = r

theorem indexed_empty (lbPolicy : String) (consistentHashConfig : ConsistentHash) :
    Indexed { lbPolicy, consistentHashConfig } where
  nodup := List.nodup_nil
  endpointByID _ := rfl
  addressByID _ := rfl
  healthyByID _ := rfl
  healthy := rfl
  healthyEndpointByID _ := rfl
  healthyByAddress := ⟨[], rfl, by simp⟩

/-- In a list without an ID, adding an endpoint with it adds the ID to the lookup. -/
theorem find?_append_singleton {l : List Endpoint} {e : Endpoint} (hid : e.id ∉ l.map (·.id))
    (id : String) : (l ++ [e]).find? (·.id = id) =
      if id = e.id then some e else l.find? (·.id = id) := by
  rw [List.find?_append]
  by_cases h : id = e.id
  · have hnone : l.find? (·.id = id) = none := by
      rw [List.find?_eq_none]
      intro e' he' heq
      refine hid (List.mem_map.2 ⟨e', he', ?_⟩)
      rw [of_decide_eq_true heq, h]
    simp [h ▸ hnone, h]
  · have hlast : [e].find? (·.id = id) = none := by simpa using fun heq => h heq.symm
    rw [hlast, Option.or_none, if_neg h]

/-- **One endpoint** with a new ID joins. -/
theorem Indexed.addEndpoint {s : EndpointSnapshot} (h : Indexed s) {e : Endpoint}
    (hid : e.id ∉ s.all.map (·.id)) (healthy : Bool) :
    Indexed (s.addEndpoint e e.address.getAddress healthy) := by
  have hhealthy : e.id ∉ s.healthy.map (·.id) := by
    rw [h.healthy]
    exact fun hmem => hid ((List.filter_sublist.map _).subset hmem)
  constructor
  case nodup =>
    simp only [EndpointSnapshot.addEndpoint, List.map_append, List.map_cons, List.map_nil]
    exact List.nodup_append.2 ⟨h.nodup, List.nodup_singleton _, by
      intro id hmem id' hmem' heq
      rw [List.mem_singleton.1 hmem'] at heq
      exact hid (heq ▸ hmem)⟩
  case endpointByID =>
    intro id
    simp only [EndpointSnapshot.addEndpoint]
    rw [find?_append_singleton (e := { e with unHealthy := !healthy }) hid, Function.update_apply,
      h.endpointByID]
  case addressByID =>
    intro id
    simp only [EndpointSnapshot.addEndpoint]
    rw [find?_append_singleton (e := { e with unHealthy := !healthy }) hid, Function.update_apply,
      h.addressByID]
    split_ifs <;> rfl
  case healthyByID =>
    intro id
    simp only [EndpointSnapshot.addEndpoint]
    rw [find?_append_singleton (e := { e with unHealthy := !healthy }) hid, Function.update_apply,
      h.healthyByID]
    split_ifs
    · simp
    · rfl
  case healthy =>
    simp only [EndpointSnapshot.addEndpoint, List.filter_append, h.healthy]
    cases healthy <;> simp
  case healthyEndpointByID =>
    intro id
    simp only [EndpointSnapshot.addEndpoint]
    cases healthy with
    | false => simpa using h.healthyEndpointByID id
    | true =>
      simp only [if_true]
      rw [find?_append_singleton (e := { e with unHealthy := !true }) hhealthy,
        Function.update_apply, h.healthyEndpointByID]
  case healthyByAddress =>
    obtain ⟨reports, hfold, hmem⟩ := h.healthyByAddress
    refine ⟨reports ++ [(e.address.getAddress, healthy)], ?_, fun r => ?_⟩
    · rw [List.foldl_append, ← hfold]
      rfl
    · simp only [EndpointSnapshot.addEndpoint, List.mem_append, hmem, List.mem_singleton,
        or_and_right,
        exists_or, exists_eq_left, Endpoint.report, Bool.not_not]
      exact or_congr Iff.rfl eq_comm

theorem find?_id_eq_some_iff {l : List Endpoint} (hnodup : (l.map (·.id)).Nodup) {id : String}
    {e : Endpoint} : l.find? (·.id = id) = some e ↔ e ∈ l ∧ e.id = id := by
  constructor
  · intro h
    have hid := List.find?_some h
    exact ⟨List.mem_of_find?_eq_some h, of_decide_eq_true hid⟩
  · rintro ⟨hmem, hid⟩
    cases hfind : l.find? (·.id = id) with
    | none =>
      have := List.find?_eq_none.1 hfind e hmem
      simp [hid] at this
    | some e' =>
      have hid' : e'.id = id := by simpa using List.find?_some hfind
      have heq := List.inj_on_of_nodup_map hnodup (List.mem_of_find?_eq_some hfind) hmem
        (hid'.trans hid.symm)
      rw [heq]

theorem Indexed.wellFormed {s : EndpointSnapshot} (h : Indexed s) : WellFormed s where
  nodup := h.nodup
  endpointByID_iff := by
    intro id e
    rw [h.endpointByID, find?_id_eq_some_iff h.nodup]
  addressByID_iff := by
    intro id address
    rw [h.addressByID, Option.map_eq_some_iff]
    simp only [find?_id_eq_some_iff h.nodup, and_assoc]
  healthyByID_iff := by
    intro id healthy
    rw [h.healthyByID, Option.map_eq_some_iff]
    simp only [find?_id_eq_some_iff h.nodup, and_assoc, Bool.not_eq_eq_eq_not]
  healthy_eq := h.healthy
  healthyEndpointByID_iff := by
    have hnodup : (s.healthy.map (·.id)).Nodup := by
      rw [h.healthy]
      exact h.nodup.sublist (List.filter_sublist.map _)
    intro id e
    rw [h.healthyEndpointByID, find?_id_eq_some_iff hnodup]
  healthyByAddress_iff := by
    intro address healthy
    obtain ⟨reports, hfold, hmem⟩ := h.healthyByAddress
    rw [hfold, foldl_addAddressHealth_iff]
    simp [hmem, Endpoint.report]

/-- The loops may take the IDs in any order. -/
theorem Indexed.enumerates {s : EndpointSnapshot} (h : Indexed s) {order : List String}
    (horder : order.Perm (s.all.map (·.id))) :
    Enumerates order s.addressByID ∧ Enumerates order s.healthyByID := by
  have hmem : ∀ key, key ∈ order ↔ (s.all.find? (·.id = key)).isSome := by
    intro key
    rw [horder.mem_iff, List.find?_isSome, List.mem_map]
    simp
  refine ⟨⟨horder.nodup_iff.2 h.nodup, fun key => ?_⟩, ⟨horder.nodup_iff.2 h.nodup, fun key => ?_⟩⟩
  · rw [hmem, h.addressByID, Option.isSome_map]
  · rw [hmem, h.healthyByID, Option.isSome_map]

/-! ## The two constructors -/

theorem indexed_newEndpointSnapshot (sum : String → String) (config : Option ClusterConfig)
    (previous : Option EndpointSnapshot) (inheritRuntimeHealth : Bool) :
    Indexed (.newEndpointSnapshot sum config previous inheritRuntimeHealth) := by
  cases config with
  | none => exact indexed_empty "" {}
  | some config =>
    rw [EndpointSnapshot.newEndpointSnapshot]
    have hbase := indexed_empty config.lbStr config.consistentHash
    generalize ({ lbPolicy := config.lbStr, consistentHashConfig := config.consistentHash } :
      EndpointSnapshot) = s at hbase ⊢
    induction config.endpoints.filterMap id generalizing s with
    | nil => exact hbase
    | cons e es ih =>
      refine ih _ ?_
      exact hbase.addEndpoint
        (stableUniqueEndpointID_notMem sum config.name e (s.all.map (·.id))) _

/-- The snapshot that adding the endpoints of a list one by one makes. -/
def indexOf (lbPolicy : String) (consistentHashConfig : ConsistentHash) (l : List Endpoint) :
    EndpointSnapshot :=
  l.foldl (fun s e => s.addEndpoint e e.address.getAddress (!e.unHealthy))
    { lbPolicy, consistentHashConfig }

theorem indexOf_append_singleton (lbPolicy : String) (consistentHashConfig : ConsistentHash)
    (l : List Endpoint) (e : Endpoint) :
    indexOf lbPolicy consistentHashConfig (l ++ [e]) =
      (indexOf lbPolicy consistentHashConfig l).addEndpoint e e.address.getAddress
        (!e.unHealthy) := by
  rw [indexOf, List.foldl_append]
  rfl

theorem indexed_indexOf (lbPolicy : String) (consistentHashConfig : ConsistentHash)
    {l : List Endpoint} (hnodup : (l.map (·.id)).Nodup) :
    Indexed (indexOf lbPolicy consistentHashConfig l) ∧
      (indexOf lbPolicy consistentHashConfig l).all = l := by
  induction l using List.reverseRecOn with
  | nil => exact ⟨indexed_empty .., rfl⟩
  | append_singleton l e ih =>
    rw [List.map_append, List.nodup_append] at hnodup
    obtain ⟨hl, -, hdisj⟩ := hnodup
    obtain ⟨hindex, hall⟩ := ih hl
    rw [indexOf_append_singleton]
    refine ⟨hindex.addEndpoint ?_ _, ?_⟩
    · rw [hall]
      intro hmem
      exact hdisj _ hmem _ (by simp) rfl
    · simp [EndpointSnapshot.addEndpoint, hall]

section WithHealth

variable {s : EndpointSnapshot} {order endpointIDs : List String} {healthy : Bool}

/-- An endpoint after its health was set, if it is one of those to change. -/
def setHealth (endpointIDs : List String) (healthy : Bool) (e : Endpoint) : Endpoint :=
  if e.id ∈ endpointIDs then { e with unHealthy := !healthy } else e

@[simp] theorem setHealth_id (e : Endpoint) : (setHealth endpointIDs healthy e).id = e.id := by
  rw [setHealth]
  split_ifs <;> rfl

@[simp] theorem setHealth_address (e : Endpoint) :
    (setHealth endpointIDs healthy e).address = e.address := by
  rw [setHealth]
  split_ifs <;> rfl

theorem not_unHealthy_setHealth (e : Endpoint) : (!(setHealth endpointIDs healthy e).unHealthy) =
    if e.id ∈ endpointIDs then healthy else !e.unHealthy := by
  rw [setHealth]
  split_ifs <;> simp

theorem find?_map_setHealth (l : List Endpoint) (id : String) :
    (l.map (setHealth endpointIDs healthy)).find? (·.id = id) =
      (l.find? (·.id = id)).map (setHealth endpointIDs healthy) := by
  rw [List.find?_map]
  refine congrArg (Option.map _) (congrArg (List.find? · l) (funext fun e => ?_))
  simp

/-- The loop over `healthyByID`, without its loop: the health of every key, and one report a key. -/
theorem nextHealth_eq (s : EndpointSnapshot) (order endpointIDs : List String) (healthy : Bool) :
    s.nextHealth order endpointIDs healthy =
      (fun id => if id ∈ order then
          (s.healthyByID id).map fun was => if id ∈ endpointIDs then healthy else was
        else none,
      (order.filterMap fun id => (s.healthyByID id).map fun was =>
        ((s.addressByID id).getD "", if id ∈ endpointIDs then healthy else was)).foldl
          (fun m r => addAddressHealth m r.1 r.2) (fun _ => none)) := by
  induction order using List.reverseRecOn with
  | nil => rfl
  | append_singleton order id ih =>
    rw [EndpointSnapshot.nextHealth, List.foldl_append, ← EndpointSnapshot.nextHealth, ih,
      List.foldl_cons, List.foldl_nil, List.filterMap_append]
    cases hid : s.healthyByID id with
    | none =>
      refine Prod.ext (funext fun key => ?_) ?_
      · by_cases hkey : key = id
        · simp [hkey, hid]
        · simp [hkey]
      · simp [hid]
    | some was =>
      refine Prod.ext (funext fun key => ?_) ?_
      · by_cases hkey : key = id
        · simp [hkey, hid]
        · simp [hkey]
      · simp [hid, List.foldl_append]

/-- One round of the last loop does to the list and its indexes what `addEndpoint` does. -/
theorem addNextEndpoint_eq {next : EndpointSnapshot} {e : Endpoint}
    (hhealth : (next.healthyByID e.id).getD false = !(setHealth endpointIDs healthy e).unHealthy) :
    next.addNextEndpoint endpointIDs healthy e =
      { next.addEndpoint (setHealth endpointIDs healthy e)
          (setHealth endpointIDs healthy e).address.getAddress
          (!(setHealth endpointIDs healthy e).unHealthy) with
        addressByID := next.addressByID
        healthyByID := next.healthyByID
        healthyByAddress := next.healthyByAddress } := by
  have hid : e.id = (setHealth endpointIDs healthy e).id := (setHealth_id e).symm
  have hdef : (if e.id ∈ endpointIDs then { e with unHealthy := !healthy } else e) =
      setHealth endpointIDs healthy e := rfl
  simp only [EndpointSnapshot.addNextEndpoint, hdef, hhealth]
  rw [hid]
  generalize setHealth endpointIDs healthy e = e'
  obtain ⟨id, name, address, metadata, unHealthy, llmMeta⟩ := e'
  cases unHealthy <;> rfl

/-- The last loop does to the list and its indexes what adding the changed endpoints does. -/
theorem foldl_addNextEndpoint {base : EndpointSnapshot} (hall : base.all = [])
    (hhealthy : base.healthy = []) (hbyID : base.endpointByID = fun _ => none)
    (hhealthyByID : base.healthyEndpointByID = fun _ => none) {l : List Endpoint}
    (hhealth : ∀ e ∈ l, (base.healthyByID e.id).getD false =
      !(setHealth endpointIDs healthy e).unHealthy) :
    l.foldl (EndpointSnapshot.addNextEndpoint endpointIDs healthy) base =
      { indexOf base.lbPolicy base.consistentHashConfig (l.map (setHealth endpointIDs healthy)) with
        addressByID := base.addressByID
        healthyByID := base.healthyByID
        healthyByAddress := base.healthyByAddress } := by
  induction l using List.reverseRecOn with
  | nil =>
    cases base
    simp_all [indexOf]
  | append_singleton l e ih =>
    have hlast := hhealth e (by simp)
    rw [List.foldl_append, List.foldl_cons, List.foldl_nil,
      ih fun e' he' => hhealth e' (List.mem_append_left _ he'), List.map_append, List.map_singleton,
      indexOf_append_singleton]
    generalize indexOf _ _ (l.map (setHealth endpointIDs healthy)) = built
    refine (addNextEndpoint_eq ?_).trans rfl
    exact hlast

/-- **A change of health** keeps every index in step, whatever the order of the loop. -/
theorem Indexed.withEndpointHealthForIDs (h : Indexed s) (horder : Enumerates order s.healthyByID)
    {next : EndpointSnapshot}
    (hnext : s.withEndpointHealthForIDs order endpointIDs healthy = some (some next)) :
    Indexed next := by
  rw [EndpointSnapshot.withEndpointHealthForIDs, nextHealth_eq] at hnext
  split_ifs at hnext
  · simp at hnext
  simp only [Option.some.injEq] at hnext
  -- the health of every ID, read off the changed list
  have hbyID : ∀ id, (if id ∈ order then (s.healthyByID id).map fun was =>
        if id ∈ endpointIDs then healthy else was else none) =
      ((s.all.map (setHealth endpointIDs healthy)).find? (·.id = id)).map (!·.unHealthy) := by
    intro id
    rw [find?_map_setHealth, Option.map_map]
    have hmem := horder.mem_iff id
    rw [h.healthyByID] at hmem ⊢
    cases hfind : s.all.find? (·.id = id) with
    | none => simp
    | some e =>
      have hid : e.id = id := by simpa using List.find?_some hfind
      rw [if_pos (hmem.2 (by rw [hfind]; rfl))]
      simp only [Option.map_some, Function.comp_apply, not_unHealthy_setHealth, hid]
  have hhealth : ∀ e ∈ s.all, ((if e.id ∈ order then (s.healthyByID e.id).map fun was =>
        if e.id ∈ endpointIDs then healthy else was else none)).getD false =
      !(setHealth endpointIDs healthy e).unHealthy := by
    intro e he
    rw [hbyID, find?_map_setHealth, (find?_id_eq_some_iff h.nodup).2 ⟨he, rfl⟩]
    rfl
  rw [foldl_addNextEndpoint rfl rfl rfl rfl hhealth] at hnext
  have hnodup : ((s.all.map (setHealth endpointIDs healthy)).map (·.id)).Nodup := by
    simpa [Function.comp_def] using h.nodup
  obtain ⟨hindex, hall⟩ := indexed_indexOf s.lbPolicy s.consistentHashConfig hnodup
  subst hnext
  constructor
  case nodup => exact hindex.nodup
  case endpointByID => exact hindex.endpointByID
  case healthy => exact hindex.healthy
  case healthyEndpointByID => exact hindex.healthyEndpointByID
  case healthyByID =>
    intro id
    dsimp only
    rw [hbyID, hall]
  case addressByID =>
    intro id
    dsimp only
    rw [h.addressByID, hall, find?_map_setHealth, Option.map_map]
    exact congrArg (Option.map · _) (funext fun e => by simp)
  case healthyByAddress =>
    refine ⟨_, rfl, fun r => ?_⟩
    dsimp only
    rw [hall, List.mem_filterMap]
    constructor
    · rintro ⟨id, -, hr⟩
      obtain ⟨was, hwas, rfl⟩ := Option.map_eq_some_iff.1 hr
      rw [h.healthyByID, Option.map_eq_some_iff] at hwas
      obtain ⟨e, he, rfl⟩ := hwas
      obtain ⟨hmem, rfl⟩ := (find?_id_eq_some_iff h.nodup).1 he
      refine ⟨setHealth endpointIDs healthy e, List.mem_map_of_mem hmem, ?_⟩
      rw [Endpoint.report, setHealth_address, not_unHealthy_setHealth, h.addressByID, he]
      rfl
    · rintro ⟨e', he', rfl⟩
      obtain ⟨e, he, rfl⟩ := List.mem_map.1 he'
      have hfind := (find?_id_eq_some_iff h.nodup).2 ⟨he, rfl⟩
      refine ⟨e.id, (horder.mem_iff _).2 (by rw [h.healthyByID, hfind]; rfl), ?_⟩
      rw [h.healthyByID, h.addressByID, hfind, Endpoint.report, setHealth_address,
        not_unHealthy_setHealth]
      rfl

end WithHealth

/-! ## Every snapshot -/

theorem indexed_of_reachable {sum : String → String} {s : EndpointSnapshot}
    (h : Reachable sum s) : Indexed s := by
  induction h with
  | first config inheritRuntimeHealth => exact indexed_newEndpointSnapshot ..
  | again config inheritRuntimeHealth _ _ => exact indexed_newEndpointSnapshot ..
  | health endpointID endpointAddress healthy _ horder hnext ih =>
    rw [EndpointSnapshot.withEndpointHealth] at hnext
    split_ifs at hnext
    exact ih.withEndpointHealthForIDs horder hnext
  | addressHealth endpointAddress healthy _ _ horder hnext ih =>
    exact ih.withEndpointHealthForIDs horder hnext

/-- **The representation invariant**: in every snapshot that can be made, all indexes agree
with the list of endpoints. -/
theorem wellFormed_of_reachable {sum : String → String} {s : EndpointSnapshot}
    (h : Reachable sum s) : WellFormed s := (indexed_of_reachable h).wellFormed

/-- A cluster of two endpoints that share an address. -/
def sharedAddress : ClusterConfig where
  name := "shared"
  endpoints := [some { id := "a", address := { domains := ["h"] } }, none,
    some { id := "b", address := { domains := ["h"] } }]

theorem wellFormed_sharedAddress_down : ∃ next,
    (EndpointSnapshot.newEndpointSnapshot id (some sharedAddress) none
      true).withEndpointAddressHealth
      ["a", "b"] ["b", "a"] "h" false = some (some next) ∧ WellFormed next := by
  have hnew := indexed_newEndpointSnapshot id (some sharedAddress) none true
  have hall : (EndpointSnapshot.newEndpointSnapshot id (some sharedAddress) none true).all.map
      (·.id) =
      ["a", "b"] := rfl
  exact ⟨_, rfl,
    wellFormed_of_reachable (.addressHealth "h" false (.first (some sharedAddress) true)
    (hnew.enumerates (List.Perm.of_eq hall.symm)).1
    (hnew.enumerates ((List.Perm.swap "a" "b" []).trans (List.Perm.of_eq hall.symm))).2 rfl)⟩

end Pixiu.Cluster
