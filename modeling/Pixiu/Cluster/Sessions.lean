import Pixiu.Cluster.Agreement
import Pixiu.Cluster.Idempotence

/-!
# Health check sessions and the endpoints of a cluster

The health checker of a runtime holds one session for an address, however many endpoints have that
address. `AddEndpoint` starts a session if there is none, `RemoveEndpoint` stops it unless another
endpoint has the address.

`watched_of_ownNames`: in every run of `SetEndpoint` and `DeleteEndpoint` from a bootstrap, the
sessions of a cluster are those for the addresses of its endpoints, as long as no two clusters come
to have one name. That can happen in the bootstrap, and when `SetEndpoint` is called for the empty
name: it makes up a name and does not look whether a cluster has it (`not_watched_madeUpName`).
-/

namespace Pixiu.Cluster

/-! ## The sessions of one checker -/

section Checkers

variable {l : List String} {addr : String}

theorem mem_startCheck {e : Endpoint} : addr ∈ startCheck l e ↔ addr ∈ l ∨
    e.address.getAddress = addr := by
  rw [startCheck]
  by_cases h : e.address.getAddress ∈ l
  · rw [if_pos h]
    exact ⟨.inl, fun haddr => haddr.elim id fun heq => heq ▸ h⟩
  · rw [if_neg h, List.mem_append, List.mem_singleton, eq_comm (a := addr)]

theorem mem_foldl_startCheck {es : List Endpoint} :
    addr ∈ es.foldl startCheck l ↔ addr ∈ l ∨ ∃ e ∈ es, e.address.getAddress = addr := by
  induction es generalizing l with
  | nil => simp
  | cons e es ih =>
    rw [List.foldl_cons, ih, mem_startCheck]
    simp only [List.mem_cons, exists_eq_or_imp, or_assoc]

end Checkers

/-- The configuration has an endpoint at an address. -/
def ClusterConfig.HasAddress (c : ClusterConfig) (addr : String) : Prop :=
  ∃ e ∈ c.nonNil, e.address.getAddress = addr

/-- The sessions of a runtime are those for the addresses of a configuration, whose endpoints it
has. -/
structure Watches (r : RuntimeCluster) (c : ClusterConfig) : Prop where
  lists : r.config.lists = c.lists
  sessions : ∃ checkers, r.checkers = some checkers ∧ ∀ addr, addr ∈ checkers ↔ c.HasAddress addr

/-! ## Addresses when one endpoint comes or goes -/

section Addresses

variable {c : ClusterConfig} {k : ℕ} {old e : Endpoint} {addr : String}

theorem mem_filterMap_set_iff {endpoints : List (Option Endpoint)} (hk : k < endpoints.length)
    {x : Endpoint} :
    x ∈ (endpoints.set k (some e)).filterMap id ↔ x ∈ (endpoints.eraseIdx k).filterMap id ∨
      x = e := by
  rw [List.set_eq_take_append_cons_drop, if_pos hk, List.eraseIdx_eq_take_drop_succ]
  simp only [List.filterMap_append, List.filterMap_cons, id_eq, List.mem_append, List.mem_cons]
  tauto

/-- An endpoint in the place of another. -/
theorem hasAddress_set (hk : k < c.endpoints.length) :
    ({ c with endpoints := c.endpoints.set k (some e) } : ClusterConfig).HasAddress addr ↔
      ({ c with endpoints := c.endpoints.eraseIdx k } : ClusterConfig).HasAddress addr ∨
        e.address.getAddress = addr := by
  simp only [ClusterConfig.HasAddress, ClusterConfig.nonNil, mem_filterMap_set_iff hk, or_and_right,
    exists_or, exists_eq_left]

theorem hasAddress_append :
    ({ c with endpoints := c.endpoints ++ [some e] } : ClusterConfig).HasAddress addr ↔
      c.HasAddress addr ∨ e.address.getAddress = addr := by
  simp only [ClusterConfig.HasAddress, ClusterConfig.nonNil, List.filterMap_append, List.mem_append,
    List.filterMap_cons, id_eq, List.filterMap_nil, List.mem_singleton, or_and_right, exists_or,
    exists_eq_left]

/-- The endpoints besides the one at an index. -/
theorem hasAddress_iff_eraseIdx (hold : c.endpoints[k]? = some (some old)) :
    c.HasAddress addr ↔
      ({ c with endpoints := c.endpoints.eraseIdx k } : ClusterConfig).HasAddress addr ∨
      old.address.getAddress = addr := by
  obtain ⟨hk, hget⟩ := List.getElem?_eq_some_iff.1 hold
  rw [← hasAddress_set hk, ← hget, List.set_getElem_self]

/-- The IDs tell the endpoint at an index from the others. -/
theorem mem_eraseIdx_iff (hprepared : Prepared c) (hold : c.endpoints[k]? = some (some old))
    {x : Endpoint} :
    x ∈ (c.endpoints.eraseIdx k).filterMap id ↔ x ∈ c.nonNil ∧ x.id ≠ old.id := by
  obtain ⟨hk, hget⟩ := List.getElem?_eq_some_iff.1 hold
  have hsplit : c.nonNil = (c.endpoints.take k).filterMap id ++
      old :: (c.endpoints.drop (k + 1)).filterMap id := by
    rw [ClusterConfig.nonNil]
    conv_lhs => rw [← List.take_append_drop k c.endpoints, List.drop_eq_getElem_cons hk, hget]
    simp
  have hnodup := hprepared.nodup
  rw [hsplit] at hnodup ⊢
  rw [List.map_append, List.map_cons, List.nodup_middle, List.nodup_cons, ← List.map_append]
    at hnodup
  rw [List.eraseIdx_eq_take_drop_succ, List.filterMap_append]
  constructor
  · intro hx
    have hne : x.id ≠ old.id := fun heq => hnodup.1 (heq ▸ List.mem_map_of_mem hx)
    refine ⟨?_, hne⟩
    simp only [List.mem_append, List.mem_cons] at hx ⊢
    tauto
  · rintro ⟨hx, hne⟩
    simp only [List.mem_append, List.mem_cons] at hx ⊢
    rcases hx with hx | rfl | hx
    · exact .inl hx
    · exact absurd rfl hne
    · exact .inr hx

/-- The runtime looks at its own copy of the endpoints. -/
theorem hasOtherEndpointWithAddress_iff {own : ClusterConfig} (hlists : own.lists = c.lists)
    (hprepared : Prepared c) (hold : c.endpoints[k]? = some (some old)) :
    hasOtherEndpointWithAddress own old addr = true ↔
      ({ c with endpoints := c.endpoints.eraseIdx k } : ClusterConfig).HasAddress addr := by
  have hmem : old ∈ c.nonNil := List.mem_filterMap.2 ⟨some old, List.mem_of_getElem? hold, rfl⟩
  have hid : old.id ≠ "" := fun h => hprepared.nonempty (h ▸ List.mem_map_of_mem hmem)
  have hany : ∀ c' : ClusterConfig, hasOtherEndpointWithAddress c' old addr = true ↔
      ∃ p ∈ c'.lists, p.1 ≠ old.id ∧ p.2 = addr := by
    intro c'
    simp [hasOtherEndpointWithAddress, ClusterConfig.lists, Endpoint.listing, hid]
  rw [hany, hlists]
  simp only [ClusterConfig.lists, List.mem_map, exists_exists_and_eq_and, Endpoint.listing,
    ClusterConfig.HasAddress,
    show ({ c with endpoints := c.endpoints.eraseIdx k } : ClusterConfig).nonNil =
      (c.endpoints.eraseIdx k).filterMap id from rfl, mem_eraseIdx_iff hprepared hold, and_assoc]

/-- **Stopping a session** leaves those for the addresses of the other endpoints. -/
theorem mem_stopCheck_iff {own : ClusterConfig} {l : List String} (hlists : own.lists = c.lists)
    (hl : ∀ addr, addr ∈ l ↔ c.HasAddress addr) (hprepared : Prepared c)
    (hold : c.endpoints[k]? = some (some old)) :
    addr ∈ stopCheck own l old ↔
      ({ c with endpoints := c.endpoints.eraseIdx k } : ClusterConfig).HasAddress addr := by
  rw [stopCheck]
  by_cases hother : hasOtherEndpointWithAddress own old old.address.getAddress = true
  · -- the address lives on with another endpoint
    rw [if_pos hother, hl, hasAddress_iff_eraseIdx hold]
    rw [hasOtherEndpointWithAddress_iff hlists hprepared hold] at hother
    exact ⟨fun h => h.elim id fun heq => heq ▸ hother, .inl⟩
  · rw [if_neg hother, List.mem_filter, hl, hasAddress_iff_eraseIdx hold, decide_eq_true_eq]
    rw [hasOtherEndpointWithAddress_iff hlists hprepared hold] at hother
    exact ⟨fun h => h.1.resolve_right (Ne.symm h.2), fun h => ⟨.inl h, fun heq => hother (heq ▸ h)⟩⟩

end Addresses

/-! ## The methods on one cluster -/

section Methods

variable {sum : String → String} {g : Globals} {s : ClusterStore} {name : String}
  {c : ClusterConfig}
  {r : RuntimeCluster} {e : Endpoint}

theorem watches_replacement (old : Option RuntimeCluster) (hchecks : c.healthChecks ≠ []) :
    Watches (replacement sum old c) c := by
  refine ⟨rfl, _, if_neg hchecks, fun addr => ?_⟩
  rw [mem_foldl_startCheck]
  simp [ClusterConfig.HasAddress]

theorem watches_runtimeFor (hchecks : c.healthChecks ≠ [])
    (hwatches : ∀ r, s.clustersMap name = some r → Watches r c) :
    Watches (s.runtimeFor sum name c) c := by
  rw [ClusterStore.runtimeFor]
  split
  next r hr =>
    split_ifs
    · exact hwatches r hr
    · exact watches_replacement _ hchecks
  next => exact watches_replacement _ hchecks

theorem prepareOwnedClusterConfig_hasAddress {addr : String} :
    (prepareOwnedClusterConfig sum g c).1.HasAddress addr ↔ c.HasAddress addr := by
  have haddr : ∀ c : ClusterConfig, c.HasAddress addr ↔
      ∃ a ∈ c.nonNil.map (·.address), a.getAddress = addr := by
    intro c
    simp [ClusterConfig.HasAddress]
  rw [haddr, haddr, prepareOwnedClusterConfig_addresses]

@[simp] theorem prepareOwnedClusterConfig_healthChecks :
    (prepareOwnedClusterConfig sum g c).1.healthChecks = c.healthChecks := by
  rw [prepareOwnedClusterConfig]
  split_ifs <;> rfl

/-- After new endpoints were published, the runtime watches them if it has the sessions for them. -/
theorem watches_republish {endpoints : List (Option Endpoint)} {checkers : List String}
    (hr : r.checkers = some checkers)
    (hsessions : ∀ addr, addr ∈ checkers ↔ ({ c with endpoints } : ClusterConfig).HasAddress addr) :
    Watches (republish sum g c r endpoints).2.1 (republish sum g c r endpoints).1 :=
  ⟨rfl, checkers, hr, fun addr => (hsessions addr).trans prepareOwnedClusterConfig_hasAddress.symm⟩

theorem Watches.append (h : Watches r c) :
    Watches ((republish sum g c r (c.endpoints ++ [some e])).2.1.addEndpoint e)
      (republish sum g c r (c.endpoints ++ [some e])).1 := by
  obtain ⟨checkers, hcheckers, hsessions⟩ := h.sessions
  refine ⟨rfl, startCheck checkers e, congrArg (Option.map (startCheck · e)) hcheckers,
    fun addr => ?_⟩
  rw [mem_startCheck, hsessions, ← hasAddress_append]
  exact prepareOwnedClusterConfig_hasAddress.symm

theorem Watches.erase (h : Watches r c) (hprepared : Prepared c) {k : ℕ} {old : Endpoint}
    (hold : c.endpoints[k]? = some (some old)) :
    Watches (republish sum g c (r.removeEndpoint old) (c.endpoints.eraseIdx k)).2.1
      (republish sum g c (r.removeEndpoint old) (c.endpoints.eraseIdx k)).1 := by
  obtain ⟨checkers, hcheckers, hsessions⟩ := h.sessions
  refine watches_republish (congrArg (Option.map (stopCheck r.config · old)) hcheckers) fun addr =>
    ?_
  exact mem_stopCheck_iff h.lists hsessions hprepared hold

theorem Watches.replace (h : Watches r c) (hprepared : Prepared c) {k : ℕ} {old : Endpoint}
    (hold : c.endpoints[k]? = some (some old)) :
    Watches (replaceEndpointAt sum g c r k e).2.1 (replaceEndpointAt sum g c r k e).1 := by
  obtain ⟨checkers, hcheckers, hsessions⟩ := h.sessions
  have hk : k < c.endpoints.length := (List.getElem?_eq_some_iff.1 hold).1
  simp only [replaceEndpointAt, hold, Option.join_some]
  split_ifs with hmoved
  -- the old session is stopped before the new endpoint is published, and the new one started after
  ·
    refine ⟨rfl, startCheck (stopCheck r.config checkers old) e, ?_, fun addr => ?_⟩
    · exact congrArg (fun l => (l.map (stopCheck r.config · old)).map (startCheck · e)) hcheckers
    · rw [mem_startCheck, mem_stopCheck_iff h.lists hsessions hprepared hold, ← hasAddress_set hk]
      exact prepareOwnedClusterConfig_hasAddress.symm
  · refine watches_republish hcheckers fun addr => ?_
    rw [hsessions, hasAddress_iff_eraseIdx hold, hasAddress_set hk, not_not.1 hmoved]

/-- What `SetEndpoint` and `DeleteEndpoint` do to the cluster that they find. -/
inductive Upkeep (s s' : ClusterStore) (name : String) (i : ℕ) (c : ClusterConfig) : Prop where
  | intro {c' : ClusterConfig} {r : RuntimeCluster} (hconfig : s'.config = s.config.set i (some c'))
      (hmap : s'.clustersMap = Function.update s.clustersMap name (some r))
      (hname : c'.name = c.name) (hchecks : c'.healthChecks = c.healthChecks)
      (hprepared : Prepared c → Prepared c')
      (hwatches : Prepared c → c.healthChecks ≠ [] →
        (∀ r₀, s.clustersMap name = some r₀ → Watches r₀ c) → Watches r c')

/-- Nothing changes, but the runtime may be another one. -/
theorem upkeep_setRuntime {i : ℕ} (hc : s.config[i]? = some (some c)) :
    Upkeep s (s.setRuntime name (s.runtimeFor sum name c)) name i c := by
  obtain ⟨hlt, heq⟩ := List.getElem?_eq_some_iff.1 hc
  have hsame : s.config = s.config.set i (some c) := (heq ▸ List.set_getElem_self hlt).symm
  exact .intro hsame rfl rfl rfl id fun _ hchecks hwatches => watches_runtimeFor hchecks hwatches

/-- Only an endpoint of the list is replaced. -/
theorem resolve_replace {k : ℕ}
    (h : (resolveSetEndpointSlot sum name e c.endpoints).action = .replace k) :
    ∃ old, c.endpoints[k]? = some (some old) := by
  rw [resolveSetEndpointSlot] at h
  split_ifs at h with hid
  · rcases resolveSetEndpointSlotByID_cases e 0 c.endpoints with ⟨-, h'⟩ | ⟨old, k', -, hget, h'⟩
    · rw [h'] at h
      cases h
    · rcases h' with ⟨-, h'⟩ | ⟨-, h'⟩
      · rw [h'] at h
        cases h
      · rw [h', Nat.zero_add] at h
        cases h
        exact ⟨old, hget⟩
  · rw [resolveSetEndpointSlotByHash] at h
    split at h
    · cases h
    · split_ifs at h

variable (sum) (g) in
theorem setEndpointAt_upkeep (name : String) {i : ℕ} (hc : s.config[i]? = some (some c))
    (e : Endpoint) :
    Upkeep s (s.setEndpointAt sum g name i c e).1 name i c := by
  simp only [ClusterStore.setEndpointAt]
  split
  next => exact upkeep_setRuntime hc
  next k haction =>
    obtain ⟨old, hold⟩ := resolve_replace haction
    obtain ⟨hname, hprepared, -⟩ := replaceEndpointAt_spec sum g c (s.runtimeFor sum name c) k
      { e with id := (resolveSetEndpointSlot sum name e c.endpoints).targetID }
    refine .intro rfl rfl hname ?_ (fun _ => hprepared) fun hc hchecks hwatches => ?_
    · rw [(replaceEndpointAt_fst ..).1, prepareOwnedClusterConfig_healthChecks]
    · exact (watches_runtimeFor hchecks hwatches).replace hc hold
  next =>
    obtain ⟨hname, hprepared, -⟩ := republish_spec sum g c (s.runtimeFor sum name c)
      (c.endpoints ++
        [some { e with id := (resolveSetEndpointSlot sum name e c.endpoints).targetID }])
    refine .intro rfl rfl hname ?_ (fun _ => hprepared) fun _ hchecks hwatches => ?_
    · exact prepareOwnedClusterConfig_healthChecks
    · exact (watches_runtimeFor hchecks hwatches).append

theorem findEndpoint_eq {endpointID : String} {i j : ℕ} {endpoints : List (Option Endpoint)}
    (h : findEndpoint endpointID i endpoints = some (some (j, e))) :
    ∃ k, j = i + k ∧ endpoints[k]? = some (some e) := by
  induction endpoints generalizing i with
  | nil => cases h
  | cons o endpoints ih =>
    cases o with
    | none => cases h
    | some o =>
      rw [findEndpoint] at h
      split_ifs at h with hid
      · cases h
        exact ⟨0, rfl, rfl⟩
      · obtain ⟨k, rfl, hget⟩ := ih h
        exact ⟨k + 1, by omega, hget⟩

theorem deleteEndpoint_upkeep {i : ℕ} (hfound : FoundAt s name i c) {endpointID : String}
    {done : ClusterStore × Globals} (h : s.deleteEndpoint sum g name endpointID = some done) :
    Upkeep s done.1 name i c := by
  simp only [ClusterStore.deleteEndpoint, hfound.index, hfound.config] at h
  split at h
  next => cases h
  next =>
    cases h
    exact upkeep_setRuntime hfound.getElem
  next k old hfind =>
    cases h
    obtain ⟨k', rfl, hold⟩ := findEndpoint_eq hfind
    rw [Nat.zero_add]
    obtain ⟨hname, hprepared, -⟩ :=
      republish_spec sum g c ((s.runtimeFor sum name c).removeEndpoint old)
      (c.endpoints.eraseIdx k')
    refine .intro rfl rfl hname ?_ (fun _ => hprepared) fun hc hchecks hwatches => ?_
    · exact prepareOwnedClusterConfig_healthChecks
    · exact (watches_runtimeFor hchecks hwatches).erase hc hold

end Methods

/-! ## Runs -/

/-- The sessions of the cluster of a name, if it has a health checker, are those for the addresses
of its endpoints. -/
def Watched (s : ClusterStore) (name : String) : Prop :=
  ∀ c, s.findClusterConfig name = some c → c.healthChecks ≠ [] →
    ∃ r checkers, s.clustersMap name = some r ∧ r.checkers = some checkers ∧
      ∀ addr, addr ∈ checkers ↔ c.HasAddress addr

/-- A call of one of the two methods, and the counters that it finds. -/
inductive EndpointCall where
  | setEndpoint (g : Globals) (clusterName : String) (endpoint : Option Endpoint)
  | deleteEndpoint (g : Globals) (clusterName endpointID : String)

section Runs

variable (sum : String → String)

/-- The store after a call. -/
def EndpointCall.apply (s : ClusterStore) : EndpointCall → Option ClusterStore
  | .setEndpoint g clusterName endpoint => some (s.setEndpoint sum g clusterName endpoint).1
  | .deleteEndpoint g clusterName endpointID =>
    (s.deleteEndpoint sum g clusterName endpointID).map (·.1)

/-- The store after calls, one after the other. -/
def runEndpointCalls : ClusterStore → List EndpointCall → Option ClusterStore :=
  List.foldlM (EndpointCall.apply sum)

/-- A cluster that the call creates gets a name of its own. -/
def EndpointCall.OwnName (s : ClusterStore) : EndpointCall → Prop
  | .setEndpoint g clusterName (some _) =>
      clusterName ∈ s.names ∨ admittedName g (ClusterStore.firstUse clusterName) ∉ s.names
  | _ => True

/-- So it is for every call of a run. -/
def OwnNames (s : ClusterStore) : List EndpointCall → Prop
  | [] => True
  | call :: calls => call.OwnName s ∧ ∀ s', call.apply sum s = some s' → OwnNames s' calls

end Runs

/-- What holds between the calls. -/
structure Tended (s : ClusterStore) : Prop where
  nodup : s.names.Nodup
  prepared : AllPrepared s
  watches : ∀ c, some c ∈ s.config → c.healthChecks ≠ [] → ∃ r, s.clustersMap c.name = some r ∧
    Watches r c

section Tended

variable {sum : String → String} {g : Globals} {s s' : ClusterStore} {name : String}
  {c : ClusterConfig}

theorem Tended.watched (h : Tended s) (name : String) : Watched s name := by
  intro c hfind hchecks
  rcases find_cases s name with ⟨-, hnone, -⟩ | ⟨i, c', hfound⟩
  · rw [hnone] at hfind
    cases hfind
  · obtain rfl := Option.some_inj.1 (hfind.symm.trans hfound.config)
    obtain ⟨r, hr, hwatches⟩ := h.watches c (List.mem_of_getElem? hfound.getElem) hchecks
    obtain ⟨checkers, hcheckers, hsessions⟩ := hwatches.sessions
    exact ⟨r, checkers, hfound.name_eq ▸ hr, hcheckers, hsessions⟩

theorem Tended.upkeep (h : Tended s) {i : ℕ} (hfound : FoundAt s name i c)
    (hup : Upkeep s s' name i c) :
    Tended s' := by
  obtain @⟨c', r, hconfig, hmap, hname, hchecks, hprepared, hwatches⟩ := hup
  have hc : some c ∈ s.config := List.mem_of_getElem? hfound.getElem
  have hc' : some c' ∈ s'.config := by
    rw [hconfig]
    exact List.mem_set (List.getElem?_eq_some_iff.1 hfound.getElem).1 _
  have hname' : c'.name = name := hname.trans hfound.name_eq
  have hnodup : s'.names.Nodup := by
    rw [ClusterStore.names, hconfig, namesOf_set hfound.getElem hname]
    exact h.nodup
  refine ⟨hnodup, h.prepared.set (hprepared (h.prepared c hc)) hconfig, fun c₀ hc₀ hchecks₀ => ?_⟩
  by_cases hn : c₀.name = name
  · -- the one configuration of the name is the edited one
    obtain rfl := unique_of_nodup hnodup hc₀ hc' (hn.trans hname'.symm)
    rw [hchecks] at hchecks₀
    rw [hn, hmap, Function.update_self]
    refine ⟨r, rfl, hwatches (h.prepared c hc) hchecks₀ fun r₀ hr₀ => ?_⟩
    obtain ⟨r₁, hr₁, hwatch⟩ := h.watches c hc hchecks₀
    rw [hfound.name_eq, hr₀] at hr₁
    exact Option.some_inj.1 hr₁ ▸ hwatch
  · rw [hconfig] at hc₀
    rw [hmap, Function.update_of_ne hn]
    refine h.watches c₀ ((List.mem_or_eq_of_mem_set hc₀).resolve_right fun heq => ?_) hchecks₀
    exact hn (Option.some_inj.1 heq ▸ hname')

/-- A cluster with a name of its own joins the store. -/
theorem Tended.join (h : Tended s) (hconfig : s'.config = s.config ++ [some c])
    (hown : c.name ∉ s.names)
    (hprepared : Prepared c) (hmap : ∀ n ∈ s.names, s'.clustersMap n = s.clustersMap n)
    (hwatches : c.healthChecks ≠ [] → ∃ r, s'.clustersMap c.name = some r ∧ Watches r c) :
    Tended s' := by
  refine ⟨?_, h.prepared.append hprepared hconfig, fun c₀ hc₀ hchecks₀ => ?_⟩
  · rw [ClusterStore.names, hconfig, namesOf_append, namesOf_some_cons, namesOf_nil]
    refine List.nodup_append.2 ⟨h.nodup, List.nodup_singleton _, fun a ha b hb heq => hown ?_⟩
    rwa [← List.mem_singleton.1 hb, ← heq]
  · rw [hconfig, List.mem_append, List.mem_singleton, Option.some_inj] at hc₀
    rcases hc₀ with hc₀ | rfl
    · rw [hmap c₀.name (mem_namesOf_iff.2 ⟨c₀, hc₀, rfl⟩)]
      exact h.watches c₀ hc₀ hchecks₀
    · exact hwatches hchecks₀

theorem Tended.addCluster (h : Tended s) (hown : admittedName g c ∉ s.names) :
    Tended (s.addCluster sum g c).1 := by
  rw [← admitCluster_name sum] at hown
  refine h.join rfl hown (prepared_admitCluster c) (fun n hn => ?_) fun hchecks => ?_
  · have hne : n ≠ (admitCluster sum g c).1.name := fun heq => hown (heq ▸ hn)
    exact Function.update_of_ne hne _ _
  · exact ⟨_, Function.update_self .., watches_replacement _ hchecks⟩

/-- A cluster that is created on first use has no health checker. -/
theorem Tended.firstUse (h : Tended s) (habsent : name ∉ s.names)
    (hown : admittedName g (ClusterStore.firstUse name) ∉ s.names) (e : Endpoint) :
    Tended (s.setEndpoint sum g name (some e)).1 := by
  rw [setEndpoint_absent habsent]
  have hlast :
      (s.append sum (admitCluster sum g (ClusterStore.firstUse name)).1).config[s.config.length]? =
      some (some (admitCluster sum g (ClusterStore.firstUse name)).1) := by
    simp [ClusterStore.append, ClusterStore.setRuntime]
  have hchecks₀ : (admitCluster sum g (ClusterStore.firstUse name)).1.healthChecks = [] := by
    rw [admitCluster]
    split_ifs <;> exact prepareOwnedClusterConfig_healthChecks
  obtain @⟨c', r, hconfig, hmap, hname, hchecks, hprepared, -⟩ := setEndpointAt_upkeep sum
    (admitCluster sum g (ClusterStore.firstUse name)).2 name hlast e
  rw [admitCluster_name] at hname
  refine h.join ?_ (hname ▸ hown) (hprepared (prepared_admitCluster _))
    (fun n hn => ?_) fun hsome => ?_
  · rw [hconfig]
    simp [ClusterStore.append, ClusterStore.setRuntime]
  · have hne : n ≠ name := fun heq => habsent (heq ▸ hn)
    have hne' : n ≠ (admitCluster sum g (ClusterStore.firstUse name)).1.name := by
      rw [admitCluster_name]
      exact fun heq => hown (heq ▸ hn)
    rw [hmap, Function.update_of_ne hne]
    exact Function.update_of_ne hne' _ _
  · exact absurd (hchecks.trans hchecks₀) hsome

/-- **One call** keeps the sessions of every cluster in step. -/
theorem tended_apply {call : EndpointCall} (h : Tended s) (hown : call.OwnName s)
    (hcall : call.apply sum s = some s') : Tended s' := by
  cases call with
  | setEndpoint g clusterName endpoint =>
    obtain rfl := Option.some_inj.1 hcall
    cases endpoint with
    | none => exact h
    | some e =>
      rcases find_cases s clusterName with ⟨-, -, habsent⟩ | ⟨i, c, hfound⟩
      · exact h.firstUse habsent (hown.resolve_left habsent) e
      · simp only [ClusterStore.setEndpoint, hfound.index, hfound.config]
        exact h.upkeep hfound (setEndpointAt_upkeep sum g clusterName hfound.getElem e)
  | deleteEndpoint g clusterName endpointID =>
    obtain ⟨done, hdone, rfl⟩ := Option.map_eq_some_iff.1 hcall
    rcases find_cases s clusterName with ⟨hindex, -, -⟩ | ⟨i, c, hfound⟩
    · simp only [ClusterStore.deleteEndpoint, hindex, Option.some.injEq] at hdone
      exact hdone ▸ h
    · exact h.upkeep hfound (deleteEndpoint_upkeep hfound hdone)

theorem tended_run {calls : List EndpointCall} (h : Tended s) (hown : OwnNames sum s calls)
    (hrun : runEndpointCalls sum s calls = some s') : Tended s' := by
  induction calls generalizing s with
  | nil => exact Option.some_inj.1 hrun ▸ h
  | cons call calls ih =>
    rw [runEndpointCalls, List.foldlM_cons, Option.bind_eq_bind, Option.bind_eq_some_iff] at hrun
    obtain ⟨s₁, hs₁, hrest⟩ := hrun
    exact ih (tended_apply h hown.1 hs₁) (hown.2 s₁ hs₁) hrest

theorem tended_foldl_addCluster {clusters : List ClusterConfig} {state : ClusterStore × Globals}
    (h : Tended state.1) (hcareful : CarefulClusters sum state clusters) :
    Tended (clusters.foldl (fun r c => ClusterStore.addCluster sum r.2 r.1 c) state).1 := by
  induction clusters generalizing state with
  | nil => exact h
  | cons c clusters ih => exact ih (h.addCluster hcareful.1) hcareful.2

theorem tended_empty : Tended {} := by
  refine ⟨List.nodup_nil, fun c hc => ?_, fun c hc => ?_⟩
  · cases hc
  · cases hc

/-- **The sessions are those for the addresses of the endpoints**, for every cluster and after every
call, in the runs in which every cluster has a name of its own. -/
theorem watched_of_ownNames {clusters : List ClusterConfig}
    (hclusters : CarefulClusters sum ({}, g) clusters)
    {calls : List EndpointCall} (hcalls : OwnNames sum (newClusterStore sum g clusters).1 calls)
    (hrun : runEndpointCalls sum (newClusterStore sum g clusters).1 calls = some s')
    (name : String) :
    Watched s' name :=
  (tended_run (tended_foldl_addCluster tended_empty hclusters) hcalls hrun).watched name

/-- A cluster with a health checker and one endpoint. -/
def checkedCluster (name : String) : ClusterConfig where
  name := name
  healthChecks := [{}]
  endpoints := [some { id := "1", address := { address := "h", port := 1 } }]

/-- A second endpoint at the same address, and the first one goes. -/
theorem watched_sharedAddress :
    ∃ s', runEndpointCalls id (newClusterStore id {} [checkedCluster "a"]).1
      [.setEndpoint {} "a" (some { id := "2", address := { address := "h", port := 1 } }),
        .deleteEndpoint {} "a" "1"] = some s' ∧ Watched s' "a" := by
  have hclusters : CarefulClusters id ({}, {}) [checkedCluster "a"] := ⟨List.not_mem_nil, trivial⟩
  have hcalls : OwnNames id (newClusterStore id {} [checkedCluster "a"]).1
      [.setEndpoint {} "a" (some { id := "2", address := { address := "h", port := 1 } }),
        .deleteEndpoint {} "a" "1"] :=
    ⟨.inl (List.mem_singleton.2 rfl), fun _ _ => ⟨trivial, fun _ _ => trivial⟩⟩
  exact ⟨_, rfl, watched_of_ownNames hclusters hcalls rfl "a"⟩

/-- The name that `SetEndpoint` makes up may be taken: its runtime takes the place of the other
one. -/
theorem not_watched_madeUpName :
    ∃ s', runEndpointCalls id (newClusterStore id {} [checkedCluster "cluster-1"]).1
      [.setEndpoint {} "" (some {})] = some s' ∧ ¬ Watched s' "cluster-1" := by
  refine ⟨_, rfl, fun h => ?_⟩
  obtain ⟨r, checkers, hr, hcheckers, -⟩ := h _ rfl (List.cons_ne_nil _ _)
  cases hr
  cases hcheckers

end Tended

end Pixiu.Cluster
