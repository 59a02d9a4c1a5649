import Pixiu.Base.System
import Pixiu.Cluster.Agreement
import Pixiu.Cluster.Versioning
import Pixiu.SpringCloud.Discovery

/-!
# The Spring Cloud adapter

`CloudAdapter` keeps three things in step: the clusters at the cluster manager, the routes at the
router manager and the set of services it has seen.  Instances come from a first fetch, from a
periodic synchronisation that swaps the whole store, and from the watch.

The routes are those of a dynamic router.  A route remembers whether the adapter added it.  Whether
the swap of the store succeeds is part of a step; so are the global counters that the cluster
manager draws from.

* `Cloud.Orderly` — the steps that keep the three in step.
* `services_and_routes_agree` — after such steps every service with an announced instance has its
  route, and every route of the adapter its cluster.
* `service_returns_without_route` — a service that a synchronisation dropped gets no route when the
  watch brings it back.
-/

namespace Pixiu.SpringCloud

open Pixiu.Cluster

/-! ## The adapter -/

/-- A route to a cluster; `byAdapter` remembers who added it. -/
structure Router where
  id : String
  matchPrefix : String
  cluster : String
  byAdapter : Bool
  deriving DecidableEq, Repr

/-- The route that the adapter adds for a service. -/
def routeOf (name : String) : Router where
  id := name
  matchPrefix := "/" ++ name ++ "/"
  cluster := name
  byAdapter := true

/-- `ToEndpoint`. -/
def ServiceInstance.toEndpoint (i : ServiceInstance) : Endpoint where
  id := i.id
  name := i.serviceName
  address := { address := i.host, port := i.port }
  metadata := i.metadata

/-- The counters that the calls of a step find, and the order of maps. -/
structure Env where
  globals : ℕ → Globals := fun _ => {}
  order : MapOrder := .byOccurrence

/-- The adapter with the managers it works on, and the instances the registry has announced. -/
structure Cloud where
  cm : ClusterManager
  currentService : Finset String
  routes : List Router
  announced : Finset (String × String)

/-- What the adapter does or is told. -/
inductive CloudOp where
  /-- `none` is an error of the registry. -/
  | firstFetch (fetched : Option (List ServiceInstance)) (env : Env)
  | onAddServiceInstance (i : ServiceInstance) (env : Env)
  | onDeleteServiceInstance (i : ServiceInstance) (env : Env)
  | onUpdateServiceInstance (i : ServiceInstance) (env : Env)
  | fetchCompareAndSet (fetched : Option (List ServiceInstance)) (swapped : Bool) (env : Env)

section Model

variable (sum : String → String)

/-- The store that a synchronisation builds from the instances it has fetched. -/
def fetchedStore (version : BitVec 32) (g : Globals) (instances : List ServiceInstance) :
    ClusterStore × Globals :=
  instances.foldl
    (fun r i => ClusterStore.setEndpoint sum r.2 r.1 i.serviceName (some i.toEndpoint))
    (newStore version, g)

/-- `SetEndpoint` for one instance after the other. -/
def setEndpoints (env : Env) : ℕ → List ServiceInstance → ClusterManager → ClusterManager
  | _, [], cm => cm
  | k, i :: instances, cm =>
    setEndpoints env (k + 1) instances
      (cm.setEndpoint sum (env.globals k) env.order i.serviceName (some i.toEndpoint)).cm

namespace Cloud

/-- `SetEndpoint`. -/
def setEndpoint (s : Cloud) (i : ServiceInstance) (env : Env) : Cloud :=
  { s with cm := (s.cm.setEndpoint sum (env.globals 0) env.order i.serviceName
    (some i.toEndpoint)).cm
           announced := insert i.announced s.announced }

/-- `firstFetch`. -/
def firstFetch (s : Cloud) (instances : List ServiceInstance) (env : Env) : Cloud where
  cm := setEndpoints sum env 0 instances s.cm
  currentService := (instances.map ServiceInstance.serviceName).toFinset
  routes := s.routes ++ instances.map (routeOf ·.serviceName)
  announced := s.announced ∪ (instances.map ServiceInstance.announced).toFinset

/-- `OnAddServiceInstance`. -/
def onAddServiceInstance (s : Cloud) (i : ServiceInstance) (env : Env) : Cloud :=
  let s₁ := s.setEndpoint sum i env
  if i.serviceName ∈ s.currentService then s₁
  else { s₁ with currentService := insert i.serviceName s.currentService
                 routes := s.routes ++ [routeOf i.serviceName] }

/-- `OnDeleteServiceInstance`. -/
def onDeleteServiceInstance (s : Cloud) (i : ServiceInstance) (env : Env) : Option Cloud :=
  (s.cm.deleteEndpoint sum (env.globals 0) env.order i.serviceName i.id).map fun reply =>
    { s with cm := reply.cm }

/-- `fetchCompareAndSet`, once the instances are there.  A `nil` configuration in the store would
panic. -/
def fetchCompareAndSet (s : Cloud) (instances : List ServiceInstance) (swapped : Bool) (env : Env) :
    Option Cloud :=
  if none ∈ s.cm.store.config then none
  else
    let built := fetchedStore sum s.cm.store.version (env.globals 0) instances
    let removed := s.cm.store.names.filter (· ∉ built.1.names)
    let added := built.1.names.filter (· ∉ s.cm.store.names)
    let routes := s.routes.filter (·.id ∉ removed)
    let announced := s.announced ∪ (instances.map ServiceInstance.announced).toFinset
    if swapped then
      some { s with cm := (s.cm.compareAndSetStore sum built.2 env.order (some built.1)).cm
                    routes := routes ++ added.map routeOf
                    announced := announced }
    else some { s with routes := routes, announced := announced }

/-- One operation, if it does not panic. -/
def step (s : Cloud) : CloudOp → Option Cloud
  | .firstFetch none _ => some s
  | .firstFetch (some instances) env => some (s.firstFetch sum instances env)
  | .onAddServiceInstance i env => some (s.onAddServiceInstance sum i env)
  | .onDeleteServiceInstance i env => s.onDeleteServiceInstance sum i env
  | .onUpdateServiceInstance i env => some (s.setEndpoint sum i env)
  | .fetchCompareAndSet none _ _ => some s
  | .fetchCompareAndSet (some instances) swapped env =>
    s.fetchCompareAndSet sum instances swapped env

/-- The state after some operations. -/
def run (s : Cloud) (ops : List CloudOp) : Option Cloud := ops.foldlM (step sum) s

end Cloud

end Model

/-! ## The names of the clusters -/

section Names

variable {sum : String → String}

theorem mem_names_setEndpoint {g : Globals} {s : ClusterStore} {name n : String} (hname : name ≠ "")
    (e : Endpoint) :
    n ∈ (s.setEndpoint sum g name (some e)).1.names ↔ n ∈ s.names ∨ n = name := by
  rcases find_cases s name with ⟨hindex, hfind, -⟩ | ⟨i, c, hfound⟩
  · simp only [ClusterStore.setEndpoint, hindex]
    have hlast :
        (s.append sum
          (admitCluster sum g (ClusterStore.firstUse name)).1).config[s.config.length]? =
        some (some (admitCluster sum g (ClusterStore.firstUse name)).1) := by
      simp [ClusterStore.append, ClusterStore.setRuntime]
    obtain ⟨c', r, hconfig, -, hname', -⟩ := setEndpointAt_spec sum
      (admitCluster sum g (ClusterStore.firstUse name)).2 name s.config.length hlast e
    have hadmitted : admittedName g (ClusterStore.firstUse name) = name := if_neg hname
    rw [ClusterStore.names, hconfig, namesOf_set hlast hname']
    simp [ClusterStore.append, ClusterStore.setRuntime, admitCluster_name, hadmitted,
      ClusterStore.names]
  · simp only [ClusterStore.setEndpoint, hfound.index, hfound.config]
    obtain ⟨c', r, hconfig, -, hname', -⟩ := setEndpointAt_spec sum g name i hfound.getElem e
    rw [ClusterStore.names, hconfig, namesOf_set hfound.getElem hname', ← ClusterStore.names]
    exact ⟨.inl, fun h => h.elim id fun heq => heq ▸ hfound.mem_names⟩

theorem names_deleteEndpoint {g : Globals} {s : ClusterStore} {name endpointID : String}
    {done : ClusterStore × Globals} (h : s.deleteEndpoint sum g name endpointID = some done) :
    done.1.names = s.names := by
  rcases find_cases s name with ⟨hindex, hfind, -⟩ | ⟨i, c, hfound⟩
  · simp only [ClusterStore.deleteEndpoint, hindex, Option.some.injEq] at h
    rw [← h]
  · simp only [ClusterStore.deleteEndpoint, hfound.index, hfound.config] at h
    split at h
    · cases h
    · obtain rfl := Option.some.inj h
      rfl
    · obtain rfl := Option.some.inj h
      exact namesOf_set hfound.getElem (republish_spec sum g c _ _).1

theorem namesOf_ensureLoop
    {runtime : (String → Option RuntimeCluster) → ClusterConfig → RuntimeCluster} (g : Globals)
    (config : List (Option ClusterConfig)) (clustersMap : String → Option RuntimeCluster) :
    namesOf (ensureLoop sum runtime g config clustersMap).1 = namesOf config := by
  induction config generalizing g clustersMap with
  | nil => rfl
  | cons c config ih =>
    cases c with
    | none => exact ih g clustersMap
    | some c =>
      simp only [ensureLoop, namesOf_some_cons, ih]
      rw [show (prepareClusterConfig sum g c).1.name = c.name from prepareOwnedClusterConfig_name g
        c]

/-- A swap puts the clusters of the offer in place. -/
theorem names_compareAndSetStore {cm : ClusterManager} {g : Globals} {order : MapOrder}
    {store : ClusterStore}
    (hversion : store.version = cm.store.version) :
    (cm.compareAndSetStore sum g order (some store)).cm.store.names = store.names := by
  simp only [ClusterManager.compareAndSetStore, Option.getD_some, hversion, ne_eq,
    not_true_eq_false, if_false]
  exact namesOf_ensureLoop ..

theorem version_setEndpoint (g : Globals) (s : ClusterStore) (name : String) (e : Option Endpoint) :
    (s.setEndpoint sum g name e).1.version = s.version := by
  cases e with
  | none => rfl
  | some e =>
    simp only [ClusterStore.setEndpoint]
    split
    · rw [setEndpointAt_version]
    · rw [setEndpointAt_version]
      rfl

theorem version_fetchedStore (version : BitVec 32) (g : Globals)
    (instances : List ServiceInstance) :
    (fetchedStore sum version g instances).1.version = version := by
  induction instances using List.reverseRecOn with
  | nil => rfl
  | append_singleton instances i ih =>
    rw [fetchedStore, List.foldl_append, List.foldl_cons, List.foldl_nil, version_setEndpoint]
    exact ih

/-- The store of a synchronisation has the clusters of the services it has fetched. -/
theorem mem_names_fetchedStore {version : BitVec 32} {g : Globals}
    {instances : List ServiceInstance} {n : String}
    (hnames : ∀ i ∈ instances, i.serviceName ≠ "") :
    n ∈ (fetchedStore sum version g instances).1.names ↔ ∃ i ∈ instances, i.serviceName = n := by
  induction instances using List.reverseRecOn with
  | nil => simp [fetchedStore, newStore, ClusterStore.names]
  | append_singleton instances i ih =>
    have hlast : i.serviceName ≠ "" := hnames i (by simp)
    rw [fetchedStore, List.foldl_append, List.foldl_cons, List.foldl_nil,
      mem_names_setEndpoint hlast,
      ← fetchedStore, ih fun j hj => hnames j (List.mem_append_left _ hj)]
    simp only [List.mem_append, List.mem_singleton, or_and_right, exists_or, exists_eq_left]
    exact or_congr Iff.rfl eq_comm

theorem mem_names_cm_setEndpoint {cm : ClusterManager} {g : Globals} (order : MapOrder)
    {name n : String}
    (hname : name ≠ "") (e : Endpoint) :
    n ∈ (cm.setEndpoint sum g order name (some e)).cm.store.names ↔ n ∈ cm.store.names ∨
      n = name := by
  simp only [ClusterManager.setEndpoint, mem_names_setEndpoint hname, enter_store]
  rfl

theorem mem_names_setEndpoints {env : Env} {instances : List ServiceInstance}
    (hnames : ∀ i ∈ instances, i.serviceName ≠ "") {k : ℕ} {cm : ClusterManager} {n : String} :
    n ∈ (setEndpoints sum env k instances cm).store.names ↔
      n ∈ cm.store.names ∨ ∃ i ∈ instances, i.serviceName = n := by
  induction instances generalizing k cm with
  | nil => simp [setEndpoints]
  | cons i instances ih =>
    rw [setEndpoints, ih fun j hj => hnames j (List.mem_cons_of_mem _ hj),
      mem_names_cm_setEndpoint env.order (hnames i (List.mem_cons_self ..))]
    simp only [List.mem_cons, exists_eq_or_imp]
    rw [or_assoc, eq_comm]

end Names

/-! ## Agreement -/

namespace Cloud

variable {sum : String → String} {s s' : Cloud}

/-- A service that has a cluster with an announced instance has a route to it, and a route of the
adapter has its cluster. -/
structure Agree (s : Cloud) : Prop where
  routed : ∀ name id c, (name, id) ∈ s.announced → s.cm.store.findClusterConfig name = some c →
    (∃ e, some e ∈ c.endpoints ∧ e.id = id) → ∃ r ∈ s.routes, r.cluster = name
  backed : ∀ r ∈ s.routes, r.byAdapter → r.cluster ∈ s.cm.store.names

/-- The route of a service is there. -/
def RoutedTo (s : Cloud) (name : String) : Prop := ∃ r ∈ s.routes, r.id = name ∧ r.cluster = name

/-- The steps that keep services and routes in step: a service that comes back still has its route,
an update is about a service that has one, a synchronisation finds a route for every service that
has a cluster already, and if its swap fails it drops no service. -/
def Orderly (s : Cloud) : CloudOp → Prop
  | .firstFetch fetched _ => ∀ i ∈ fetched.getD [], i.serviceName ≠ ""
  | .onAddServiceInstance i _ =>
    i.serviceName ≠ "" ∧ (i.serviceName ∈ s.currentService → s.RoutedTo i.serviceName)
  | .onUpdateServiceInstance i _ => i.serviceName ≠ "" ∧ s.RoutedTo i.serviceName
  | .onDeleteServiceInstance _ _ => True
  | .fetchCompareAndSet none _ _ => True
  | .fetchCompareAndSet (some instances) swapped _ =>
    (∀ i ∈ instances, i.serviceName ≠ "" ∧
      (i.serviceName ∈ s.cm.store.names → s.RoutedTo i.serviceName)) ∧
      (swapped = false → ∀ p ∈ s.announced, p.1 ∈ s.cm.store.names →
        ∃ i ∈ instances, i.serviceName = p.1)

/-- All steps of a run are orderly. -/
def OrderlyRun (sum : String → String) (s : Cloud) (ops : List CloudOp) : Prop :=
  System.StepsAlong (step sum) Orderly s ops

/-- The adapter before its first step: whatever clusters and routes there are, none are its own. -/
structure Start (s : Cloud) : Prop where
  announced : s.announced = ∅
  routes : ∀ r ∈ s.routes, r.byAdapter = false

/-- What orderly steps keep. -/
structure InStep (s : Cloud) : Prop where
  routed : ∀ p ∈ s.announced, p.1 ∈ s.cm.store.names → s.RoutedTo p.1
  backed : ∀ r ∈ s.routes, r.byAdapter → r.id = r.cluster ∧ r.cluster ∈ s.cm.store.names

theorem Start.inStep (h : Start s) : InStep s where
  routed p hp := by
    rw [h.announced] at hp
    cases hp
  backed r hr hby := by
    rw [h.routes r hr] at hby
    cases hby

theorem InStep.agree (h : InStep s) : Agree s where
  routed name id c hannounced hfind _ := by
    have hmem : name ∈ s.cm.store.names := by
      rcases find_cases s.cm.store name with ⟨-, hnone, -⟩ | ⟨i, c', hfound⟩
      · rw [hnone] at hfind
        cases hfind
      · exact hfound.mem_names
    obtain ⟨r, hr, -, hcluster⟩ := h.routed (name, id) hannounced hmem
    exact ⟨r, hr, hcluster⟩
  backed r hr hby := (h.backed r hr hby).2

theorem RoutedTo.mono {name : String} (h : s.RoutedTo name)
    (hroutes : ∀ r ∈ s.routes, r.id = name → r ∈ s'.routes) : s'.RoutedTo name := by
  obtain ⟨r, hr, hid, hcluster⟩ := h
  exact ⟨r, hroutes r hr hid, hid, hcluster⟩

/-- The step that sets an endpoint of a service that has, or gets, a route. -/
theorem InStep.setEndpoint (h : InStep s) (sum : String → String) {i : ServiceInstance} (env : Env)
    (hname : i.serviceName ≠ "")
    (hcm : s'.cm = (s.setEndpoint sum i env).cm)
    (hannounced : s'.announced = insert i.announced s.announced)
    (hkept : ∀ r ∈ s.routes, r ∈ s'.routes)
    (hnew : ∀ r ∈ s'.routes, r ∈ s.routes ∨ r = routeOf i.serviceName)
    (hrouted : s'.RoutedTo i.serviceName) :
    InStep s' := by
  have hnames : ∀ n, n ∈ s'.cm.store.names ↔ n ∈ s.cm.store.names ∨ n = i.serviceName := fun n => by
    rw [hcm]
    exact mem_names_cm_setEndpoint env.order hname _
  constructor
  · intro p hp hmem
    rw [hannounced, Finset.mem_insert] at hp
    rcases eq_or_ne p.1 i.serviceName with heq | hne
    · rw [heq]
      exact hrouted
    · rcases hp with rfl | hp
      · exact absurd rfl hne
      · exact (h.routed p hp (((hnames p.1).1 hmem).resolve_right hne)).mono fun r hr _ =>
          hkept r hr
  · intro r hr hby
    rcases hnew r hr with hold | rfl
    · exact ⟨(h.backed r hold hby).1, (hnames _).2 (.inl (h.backed r hold hby).2)⟩
    · exact ⟨rfl, (hnames _).2 (.inr rfl)⟩

theorem InStep.firstFetch (h : InStep s) {instances : List ServiceInstance} {env : Env}
    (hnames : ∀ i ∈ instances, i.serviceName ≠ "") : InStep (s.firstFetch sum instances env) := by
  have hmem : ∀ n, n ∈ (s.firstFetch sum instances env).cm.store.names ↔
      n ∈ s.cm.store.names ∨ ∃ i ∈ instances, i.serviceName = n :=
        fun n => mem_names_setEndpoints hnames
  have hfetched : ∀ i ∈ instances, (s.firstFetch sum instances env).RoutedTo i.serviceName :=
    fun i hi =>
    ⟨routeOf i.serviceName, List.mem_append_right _ (List.mem_map.2 ⟨i, hi, rfl⟩), rfl, rfl⟩
  constructor
  · intro p hp hin
    rcases (hmem p.1).1 hin with hold | ⟨i, hi, heq⟩
    · rcases Finset.mem_union.1 hp with hp | hp
      · exact (h.routed p hp hold).mono fun r hr _ => List.mem_append_left _ hr
      · obtain ⟨i, hi, rfl⟩ := List.mem_map.1 (List.mem_toFinset.1 hp)
        exact hfetched i hi
    · rw [← heq]
      exact hfetched i hi
  · intro r hr hby
    rcases List.mem_append.1 hr with hold | hnew
    · exact ⟨(h.backed r hold hby).1, (hmem _).2 (.inl (h.backed r hold hby).2)⟩
    · obtain ⟨i, hi, rfl⟩ := List.mem_map.1 hnew
      exact ⟨rfl, (hmem _).2 (.inr ⟨i, hi, rfl⟩)⟩

theorem InStep.onDelete (h : InStep s) {i : ServiceInstance} {env : Env}
    (hstep : s.onDeleteServiceInstance sum i env = some s') : InStep s' := by
  obtain ⟨reply, hreply, rfl⟩ := Option.map_eq_some_iff.1 hstep
  obtain ⟨done, hdone, rfl⟩ := Option.map_eq_some_iff.1 hreply
  have hnames : done.1.names = s.cm.store.names := by
    rw [names_deleteEndpoint hdone, enter_store]
    rfl
  exact ⟨fun p hp hmem => h.routed p hp (hnames ▸ hmem), fun r hr hby =>
    ⟨(h.backed r hr hby).1, hnames.symm ▸ (h.backed r hr hby).2⟩⟩

theorem InStep.fetchCompareAndSet (h : InStep s) {instances : List ServiceInstance} {swapped : Bool}
    {env : Env}
    (hnames : ∀ i ∈ instances, i.serviceName ≠ "" ∧
      (i.serviceName ∈ s.cm.store.names → s.RoutedTo i.serviceName))
    (hdropped : swapped = false → ∀ p ∈ s.announced, p.1 ∈ s.cm.store.names →
      ∃ i ∈ instances, i.serviceName = p.1)
    (hstep : s.fetchCompareAndSet sum instances swapped env = some s') : InStep s' := by
  have hbuilt : ∀ n, n ∈ (fetchedStore sum s.cm.store.version (env.globals 0) instances).1.names ↔
      ∃ i ∈ instances, i.serviceName = n :=
        fun n => mem_names_fetchedStore fun i hi => (hnames i hi).1
  have hfetched : ∀ n ∈ s.cm.store.names, (∃ i ∈ instances, i.serviceName = n) → s.RoutedTo n := by
    rintro n hn ⟨i, hi, rfl⟩
    exact (hnames i hi).2 hn
  -- the route of a service that was fetched is not among those that are deleted
  have hkept : ∀ n, (∃ i ∈ instances, i.serviceName = n) → ∀ r ∈ s.routes, r.id = n →
      r ∈ s.routes.filter
      (·.id ∉ s.cm.store.names.filter
        (· ∉ (fetchedStore sum s.cm.store.version (env.globals 0) instances).1.names)) := by
    intro n hn r hr hid
    refine List.mem_filter.2 ⟨hr, ?_⟩
    simp [hid, hbuilt, hn]
  rw [Cloud.fetchCompareAndSet] at hstep
  split_ifs at hstep with hnil hswapped
  · -- the new store is in place
    obtain rfl := Option.some.inj hstep
    have hstore : ∀ n, n ∈ ((s.cm.compareAndSetStore sum
        (fetchedStore sum s.cm.store.version (env.globals 0) instances).2 env.order
        (some (fetchedStore sum s.cm.store.version (env.globals 0) instances).1)).cm.store.names) ↔
          ∃ i ∈ instances, i.serviceName = n := fun n => by
      rw [names_compareAndSetStore (version_fetchedStore ..), hbuilt]
    constructor
    · intro p _ hmem
      obtain ⟨i, hi, heq⟩ := (hstore p.1).1 hmem
      by_cases hold : p.1 ∈ s.cm.store.names
      · refine (hfetched p.1 hold ⟨i, hi, heq⟩).mono fun r hr hid => List.mem_append_left _ ?_
        exact hkept p.1 ⟨i, hi, heq⟩ r hr hid
      · refine ⟨routeOf p.1, List.mem_append_right _ (List.mem_map.2 ⟨p.1, ?_, rfl⟩), rfl, rfl⟩
        simpa [hbuilt, hold] using ⟨i, hi, heq⟩
    · intro r hr hby
      rcases List.mem_append.1 hr with hold | hnew
      · obtain ⟨hr, hkept⟩ := List.mem_filter.1 hold
        obtain ⟨hid, hcluster⟩ := h.backed r hr hby
        refine ⟨hid, (hstore _).2 ?_⟩
        rw [hid] at hkept
        simpa [hcluster, hbuilt] using hkept
      · obtain ⟨n, hn, rfl⟩ := List.mem_map.1 hnew
        exact ⟨rfl, (hstore n).2 ((hbuilt n).1 (List.mem_filter.1 hn).1)⟩
  · -- the old store stays, without the routes that were deleted first
    obtain rfl := Option.some.inj hstep
    constructor
    · intro p hp hmem
      have hlisted : ∃ i ∈ instances, i.serviceName = p.1 := by
        rcases Finset.mem_union.1 hp with hp | hp
        · exact hdropped (by simpa using hswapped) p hp hmem
        · obtain ⟨i, hi, rfl⟩ := List.mem_map.1 (List.mem_toFinset.1 hp)
          exact ⟨i, hi, rfl⟩
      exact (hfetched p.1 hmem hlisted).mono (hkept p.1 hlisted)
    · intro r hr hby
      exact h.backed r (List.mem_filter.1 hr).1 hby

theorem InStep.step (h : InStep s) {op : CloudOp} (horderly : s.Orderly op)
    (hstep : s.step sum op = some s') :
    InStep s' := by
  cases op with
  | firstFetch fetched env =>
    cases fetched with
    | none =>
      obtain rfl := Option.some.inj hstep
      exact h
    | some instances =>
      obtain rfl := Option.some.inj hstep
      exact h.firstFetch horderly
  | onAddServiceInstance i env =>
    obtain rfl := Option.some.inj hstep
    rw [Cloud.onAddServiceInstance]
    by_cases hseen : i.serviceName ∈ s.currentService
    · rw [if_pos hseen]
      exact h.setEndpoint sum env horderly.1 rfl rfl (fun r hr => hr) (fun r hr => .inl hr)
        ((horderly.2 hseen).mono fun r hr _ => hr)
    · rw [if_neg hseen]
      refine h.setEndpoint sum env horderly.1 rfl rfl (fun r hr => List.mem_append_left _ hr)
        (fun r hr => ?_) ⟨routeOf i.serviceName, List.mem_append_right _ (List.mem_singleton.2 rfl),
          rfl, rfl⟩
      exact (List.mem_append.1 hr).imp id List.mem_singleton.1
  | onDeleteServiceInstance i env => exact h.onDelete hstep
  | onUpdateServiceInstance i env =>
    obtain rfl := Option.some.inj hstep
    exact h.setEndpoint sum env horderly.1 rfl rfl (fun r hr => hr) (fun r hr => .inl hr)
      (horderly.2.mono fun r hr _ => hr)
  | fetchCompareAndSet fetched swapped env =>
    cases fetched with
    | none =>
      obtain rfl := Option.some.inj hstep
      exact h
    | some instances => exact h.fetchCompareAndSet horderly.1 horderly.2 hstep

end Cloud

/-- Whatever clusters and routes there were before the adapter, after every run of orderly steps a
service that has a cluster with an announced instance has a route to it, and the routes of the
adapter have their clusters. -/
theorem services_and_routes_agree {sum : String → String} {start s : Cloud} {ops : List CloudOp}
    (hstart : start.Start) (horderly : Cloud.OrderlyRun sum start ops)
    (hrun : Cloud.run sum start ops = some s) :
    s.Agree :=
  (System.invariant_stepsAlong (fun _ _ _ h horderly hstep => h.step horderly hstep) hrun
    hstart.inStep
    horderly).agree

namespace Sample

/-- Nothing but the adapter. -/
def start : Cloud := ⟨⟨{}, ∅, 0⟩, ∅, [], ∅⟩

/-- An instance at port 80. -/
def instanceAt (service host : String) : ServiceInstance :=
  { id := host ++ ":80", serviceName := service, host := host, port := 80, healthy := true,
    clusterName := "DEFAULT",
    enable := true, metadata := [] }

theorem start_start : start.Start := ⟨rfl, fun _ hr => nomatch hr⟩

end Sample

theorem services_and_routes_agree_two_instances : ∃ s,
    Cloud.run id Sample.start [.firstFetch (some [Sample.instanceAt "users" "10.0.0.1"]) {},
      .onAddServiceInstance (Sample.instanceAt "users" "10.0.0.2") {}] = some s ∧ s.Agree := by
  have hrun : Cloud.run id Sample.start [.firstFetch (some [Sample.instanceAt "users" "10.0.0.1"])
      {},
      .onAddServiceInstance (Sample.instanceAt "users" "10.0.0.2") {}] = some _ := rfl
  refine ⟨_, hrun, services_and_routes_agree Sample.start_start ?_ hrun⟩
  have hnamed : ∀ i ∈ [Sample.instanceAt "users" "10.0.0.1"], i.serviceName ≠ "" := by decide
  refine ⟨hnamed, fun s' hs' => ⟨⟨by decide, fun _ => ?_⟩, fun _ _ => trivial⟩⟩
  obtain rfl := Option.some.inj hs'
  exact ⟨routeOf "users", List.mem_singleton.2 rfl, rfl, rfl⟩

/-- A synchronisation drops a service with its route; when the watch announces it again, it gets a
cluster and no route. -/
theorem service_returns_without_route : ∃ s,
    Cloud.run id Sample.start [.onAddServiceInstance (Sample.instanceAt "users" "10.0.0.1") {},
      .fetchCompareAndSet (some []) true {},
      .onAddServiceInstance (Sample.instanceAt "users" "10.0.0.1") {}] = some s ∧
    ¬s.Agree := by
  have hrun :
      (Cloud.run id Sample.start [.onAddServiceInstance (Sample.instanceAt "users" "10.0.0.1") {},
      .fetchCompareAndSet (some []) true {},
        .onAddServiceInstance (Sample.instanceAt "users" "10.0.0.1") {}]).map
        (fun s =>
          (s.announced, s.routes, (s.cm.store.findClusterConfig "users").map ClusterConfig.lists)) =
      some ({("users", "10.0.0.1:80")}, [], some [("10.0.0.1:80", "10.0.0.1:80")]) := by
    decide +kernel
  obtain ⟨s, hrun, heq⟩ := Option.map_eq_some_iff.1 hrun
  simp only [Prod.mk.injEq] at heq
  obtain ⟨hannounced, hroutes, hlists⟩ := heq
  obtain ⟨c, hc, hlists⟩ := Option.map_eq_some_iff.1 hlists
  refine ⟨s, hrun, fun hagree => ?_⟩
  have hmem : ("10.0.0.1:80", "10.0.0.1:80") ∈ c.lists := by
    rw [hlists]
    exact List.mem_singleton.2 rfl
  obtain ⟨e, he, hlisting⟩ := List.mem_map.1 hmem
  have hid : e.id = "10.0.0.1:80" := congrArg Prod.fst hlisting
  have he : some e ∈ c.endpoints := by
    simpa [ClusterConfig.nonNil] using he
  obtain ⟨r, hr, -⟩ := hagree.routed "users" "10.0.0.1:80" c (by simp [hannounced]) hc ⟨e, he, hid⟩
  rw [hroutes] at hr
  cases hr

end Pixiu.SpringCloud
