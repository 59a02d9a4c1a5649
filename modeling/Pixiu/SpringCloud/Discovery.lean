import Pixiu.Base.FinMap
import Pixiu.Base.Notices

/-!
# The nacos service discovery of Spring Cloud

`nacosServiceDiscovery` keeps one cache of instances for the subscriptions of all services.  A
callback replaces it by the instances it carries and announces the difference.

What the listener is told is a list of notices about pairs of a service and an address.  Go ranges
over the cache in any order; the order is a parameter.

* `callback_confined_iff` — when a callback touches its own service only.
* `other_service_deleted` — two services that take turns delete each other.
-/

namespace Pixiu.SpringCloud

open Pixiu

/-! ## Instances -/

/-- An instance of a registry; the metadata are listed by key. -/
structure ServiceInstance where
  id : String
  serviceName : String
  host : String
  port : ℕ
  healthy : Bool
  clusterName : String
  enable : Bool
  metadata : List (String × String)
  deriving DecidableEq, Repr

namespace ServiceInstance

/-- `GetUniqKey`. -/
def getUniqKey (i : ServiceInstance) : String := i.serviceName ++ i.host ++ toString i.port

/-- The service and the address that an endpoint is announced under. -/
def announced (i : ServiceInstance) : String × String := (i.serviceName, i.id)

end ServiceInstance

/-- An instance as nacos sends it to a subscriber. -/
structure SubscribeService where
  ip : String
  port : ℕ
  serviceName : String
  enable : Bool
  clusterName : String
  metadata : List (String × String)
  deriving DecidableEq, Repr

/-- An instance as nacos answers a query. -/
structure Instance where
  ip : String
  port : ℕ
  healthy : Bool
  enable : Bool
  clusterName : String
  metadata : List (String × String)
  deriving DecidableEq, Repr

/-- `strings.Split` at `@@`. -/
def splitAts : List Char → List (List Char)
  | '@' :: '@' :: rest => [] :: splitAts rest
  | [] => [[]]
  | c :: rest =>
    match splitAts rest with
    | part :: parts => (c :: part) :: parts
    | [] => [[c]]

/-- The name of the service without its group, as in `DEFAULT_GROUP@@user-service`. -/
def SubscribeService.plainName (i : SubscribeService) : String :=
  match splitAts i.serviceName.toList with
  | [_, name] => String.ofList name
  | _ => i.serviceName

/-- `fromInstanceToServiceInstance`. -/
def fromInstanceToServiceInstance (serviceName : String) (i : Instance) : ServiceInstance where
  id := i.ip ++ ":" ++ toString i.port
  serviceName := serviceName
  host := i.ip
  port := i.port
  healthy := i.healthy
  enable := i.enable
  clusterName := i.clusterName
  metadata := i.metadata

/-- `fromSubscribeServiceToServiceInstance`. -/
def fromSubscribeServiceToServiceInstance (i : SubscribeService) : ServiceInstance where
  id := i.ip ++ ":" ++ toString i.port
  serviceName := i.plainName
  host := i.ip
  port := i.port
  healthy := true
  enable := i.enable
  clusterName := i.clusterName
  metadata := i.metadata

/-! ## Callbacks and queries -/

/-- The cache, by the key of an instance. -/
abbrev InstanceMap := FinMap String ServiceInstance

/-- Instances put into the cache one after the other. -/
def InstanceMap.insertAll (m : InstanceMap) (instances : List ServiceInstance) : InstanceMap :=
  instances.foldl (fun m i => m.insert i.getUniqKey i) m

/-- A callback of the subscription of one service. -/
structure Callback where
  service : String
  services : List SubscribeService
  err : Bool
  plainName_eq : ∀ i ∈ services, i.plainName = service

/-- The instances of a callback that are available. -/
def Callback.instances (c : Callback) : List ServiceInstance :=
  (c.services.filter SubscribeService.enable).map fromSubscribeServiceToServiceInstance

/-- What the loops of `Callback` collect. -/
structure Difference where
  addInstances : List ServiceInstance
  delInstances : List ServiceInstance
  updateInstances : List ServiceInstance
  newInstanceMap : InstanceMap

/-- `Callback` up to the announcements; `order` is how the cache is ranged over. -/
def difference (instanceMap : InstanceMap) (c : Callback) (order : List String) : Difference :=
  let newInstanceMap := InstanceMap.insertAll .empty c.instances
  { addInstances := c.instances.filter fun i => instanceMap.lookup i.getUniqKey = none
    delInstances := order.filterMap fun key =>
      if (newInstanceMap.lookup key).isSome then none else instanceMap.lookup key
    updateInstances := c.instances.filter fun i =>
      (instanceMap.lookup i.getUniqKey).any fun old => decide (old ≠ i)
    newInstanceMap := newInstanceMap }

/-- What the listener is told, in order; an update sets the endpoint as an addition does. -/
def Difference.notices (d : Difference) : List (Notice (String × String)) :=
  d.addInstances.map (.add ·.announced) ++ d.delInstances.map (.remove ·.announced) ++
    d.updateInstances.map (.add ·.announced)

/-- The discovery, and what was announced and not deleted since. -/
structure Discovery where
  instanceMap : InstanceMap
  announced : Finset (String × String)

/-- A callback or a query. -/
inductive Op where
  | callback (c : Callback) (order : List String)
  /-- The answer for each service that is asked for; `none` is an error. -/
  | queryServicesByName (answers : List (String × Option (List Instance)))

/-- What `QueryServicesByName` returns. -/
def queryResult (answers : List (String × Option (List Instance))) : List ServiceInstance :=
  answers.flatMap fun answer => (answer.2.getD []).map (fromInstanceToServiceInstance answer.1)

namespace Discovery

/-- Nothing is known. -/
def init : Discovery := ⟨.empty, ∅⟩

/-- `Callback`. -/
def callback (n : Discovery) (c : Callback) (order : List String) : Discovery :=
  let d := difference n.instanceMap c order
  ⟨d.newInstanceMap, Notice.live n.announced d.notices⟩

/-- One operation; the order is one of the cache. -/
def step (n : Discovery) : Op → Option Discovery
  | .callback c order => if n.instanceMap.Ranges order then some (n.callback c order) else none
  | .queryServicesByName answers =>
    some { n with instanceMap := n.instanceMap.insertAll (queryResult answers) }

/-- The state after some operations. -/
def run (ops : List Op) : Option Discovery := ops.foldlM step init

end Discovery

/-! ## When a callback is confined to its service -/

/-- A callback deletes instances of its service only, an error announces nothing, and what is
announced of the other services stays. -/
structure Confined (n : Discovery) (c : Callback) (order : List String) : Prop where
  deleted : ∀ i ∈ (difference n.instanceMap c order).delInstances, i.serviceName = c.service
  error : c.err → (difference n.instanceMap c order).notices = []
  others : ∀ service ≠ c.service, ∀ address,
    (service, address) ∈ (n.callback c order).announced ↔ (service, address) ∈ n.announced

/-- The instances of other services in the cache have keys of the callback, and on an error the
callback carries exactly what is in the cache. -/
structure Shares (n : Discovery) (c : Callback) : Prop where
  others : ∀ key i, n.instanceMap.lookup key = some i → i.serviceName ≠ c.service →
    key ∈ c.instances.map ServiceInstance.getUniqKey
  error : c.err → (∀ i ∈ c.instances, n.instanceMap.lookup i.getUniqKey = some i) ∧
    ∀ key i, n.instanceMap.lookup key = some i → key ∈ c.instances.map ServiceInstance.getUniqKey

section Confined

variable {n : Discovery} {c : Callback} {order : List String}

theorem isSome_lookup_insertAll {m : InstanceMap} {instances : List ServiceInstance}
    {key : String} :
    ((m.insertAll instances).lookup key).isSome ↔
      (m.lookup key).isSome ∨ key ∈ instances.map ServiceInstance.getUniqKey := by
  induction instances generalizing m with
  | nil => simp [InstanceMap.insertAll]
  | cons i instances ih =>
    rw [InstanceMap.insertAll, List.foldl_cons, ← InstanceMap.insertAll, ih, FinMap.lookup_insert]
    by_cases hkey : key = i.getUniqKey <;> simp [hkey]

/-- The instances of a callback are of its service. -/
theorem Callback.serviceName_of_mem {i : ServiceInstance} (hi : i ∈ c.instances) :
    i.serviceName = c.service := by
  obtain ⟨s, hs, rfl⟩ := List.mem_map.1 hi
  exact c.plainName_eq s (List.mem_filter.1 hs).1

theorem mem_delInstances (hrange : n.instanceMap.Ranges order) {i : ServiceInstance} :
    i ∈ (difference n.instanceMap c order).delInstances ↔
      ∃ key, n.instanceMap.lookup key = some i ∧
      key ∉ c.instances.map ServiceInstance.getUniqKey := by
  have hnew : ∀ key, ((InstanceMap.insertAll .empty c.instances).lookup key).isSome ↔
      key ∈ c.instances.map ServiceInstance.getUniqKey := fun key => by
    rw [isSome_lookup_insertAll]
    simp
  simp only [difference, List.mem_filterMap, Option.ite_none_left_eq_some, hnew]
  constructor
  · rintro ⟨key, -, hout, hlookup⟩
    exact ⟨key, hlookup, hout⟩
  · rintro ⟨key, hlookup, hout⟩
    exact ⟨key, hrange.mem_iff.2 ⟨i, hlookup⟩, hout, hlookup⟩

/-- Nothing is announced exactly if the callback carries what is in the cache. -/
theorem notices_eq_nil_iff (hrange : n.instanceMap.Ranges order) :
    (difference n.instanceMap c order).notices = [] ↔
      (∀ i ∈ c.instances, n.instanceMap.lookup i.getUniqKey = some i) ∧
        ∀ key i, n.instanceMap.lookup key = some i →
        key ∈ c.instances.map ServiceInstance.getUniqKey := by
  have hdel : (difference n.instanceMap c order).delInstances = [] ↔ ∀ key i,
      n.instanceMap.lookup key = some i → key ∈ c.instances.map ServiceInstance.getUniqKey := by
    rw [List.eq_nil_iff_forall_not_mem]
    simp only [mem_delInstances hrange]
    grind
  have hkept : (difference n.instanceMap c order).addInstances = [] ∧
      (difference n.instanceMap c order).updateInstances = [] ↔
        ∀ i ∈ c.instances, n.instanceMap.lookup i.getUniqKey = some i := by
    simp only [difference, List.filter_eq_nil_iff, decide_eq_true_eq]
    constructor
    · rintro ⟨hadd, hupdate⟩ i hi
      cases hlookup : n.instanceMap.lookup i.getUniqKey with
      | none => exact absurd hlookup (hadd i hi)
      | some old => simpa [hlookup] using hupdate i hi
    · intro h
      exact ⟨fun i hi => by simp [h i hi], fun i hi => by simp [h i hi]⟩
  simp only [Difference.notices, List.append_eq_nil_iff, List.map_eq_nil_iff]
  rw [← hkept, ← hdel]
  tauto

/-- If only instances of its service are deleted, a callback announces nothing about the others. -/
theorem subject_of_mem_notices (hdeleted : ∀ i ∈ (difference n.instanceMap c order).delInstances,
    i.serviceName = c.service) {notice : Notice (String × String)}
    (h : notice ∈ (difference n.instanceMap c order).notices) : notice.subject.1 = c.service := by
  simp only [Difference.notices, List.mem_append, List.mem_map] at h
  rcases h with (⟨i, hi, rfl⟩ | ⟨i, hi, rfl⟩) | ⟨i, hi, rfl⟩
  · exact c.serviceName_of_mem (List.mem_filter.1 hi).1
  · exact hdeleted i hi
  · exact c.serviceName_of_mem (List.mem_filter.1 hi).1

/-- In every state a callback deletes instances of its own service only, announces nothing on an
error and leaves what is announced of other services, exactly if the instances of other services in
the cache have keys that the callback carries too, and on an error it carries exactly the cache. -/
theorem callback_confined_iff (hrange : n.instanceMap.Ranges order) :
    Confined n c order ↔ Shares n c := by
  constructor
  · intro h
    refine ⟨fun key i hlookup hother => ?_, fun herr => (notices_eq_nil_iff hrange).1
      (h.error herr)⟩
    by_contra hout
    exact hother (h.deleted i ((mem_delInstances hrange).2 ⟨key, hlookup, hout⟩))
  · intro h
    have hdeleted : ∀ i ∈ (difference n.instanceMap c order).delInstances, i.serviceName =
        c.service := by
      intro i hi
      obtain ⟨key, hlookup, hout⟩ := (mem_delInstances hrange).1 hi
      by_contra hother
      exact hout (h.others key i hlookup hother)
    refine ⟨hdeleted, fun herr => (notices_eq_nil_iff hrange).2 (h.error herr),
      fun service hother address => ?_⟩
    refine Notice.mem_live_of_forall_ne fun notice hnotice heq => hother ?_
    rw [← subject_of_mem_notices hdeleted hnotice, heq]

end Confined

namespace Sample

/-- An instance of a service, at port 80. -/
def instanceOf (service ip : String) : SubscribeService where
  ip := ip
  port := 80
  serviceName := "DEFAULT_GROUP@@" ++ service
  enable := true
  clusterName := "DEFAULT"
  metadata := []

/-- A callback with the one instance of a service. -/
def orders : Callback := ⟨"orders", [instanceOf "orders" "10.0.0.1"], false, by decide +kernel⟩

/-- A callback of another service. -/
def users : Callback := ⟨"users", [instanceOf "users" "10.0.0.1"], false, by decide +kernel⟩

/-- An instance whose key is the one of the next. -/
def farOrders : Callback :=
  ⟨"orders", [instanceOf "orders" "110.0.0.1"], false, by decide +kernel⟩

/-- A service whose name ends where the other's address starts. -/
def orders1 : Callback := ⟨"orders1", [instanceOf "orders1" "10.0.0.1"], false, by decide +kernel⟩

end Sample

/-- The callback of a service leaves the instance of another that has its key. -/
theorem callback_confined_iff_sharedKey :
    ∃ n, Discovery.run [.callback Sample.farOrders []] = some n ∧
      ("orders", "110.0.0.1:80") ∈ n.announced ∧
      Confined n Sample.orders1 ["orders110.0.0.180"] := by
  have hrun : (Discovery.run [.callback Sample.farOrders []]).map (fun n =>
      (n.instanceMap.keys, n.announced)) =
      some ({"orders110.0.0.180"}, {("orders", "110.0.0.1:80")}) := by decide +kernel
  obtain ⟨n, hrun, heq⟩ := Option.map_eq_some_iff.1 hrun
  obtain ⟨hkeys, hannounced⟩ := Prod.mk.inj heq
  refine ⟨n, hrun, by rw [hannounced]; decide, ?_⟩
  have hshares : Shares n Sample.orders1 := by
    refine ⟨fun key i hlookup _ => ?_, fun herr => absurd herr (by decide)⟩
    have hkey : key ∈ n.instanceMap.keys := (n.instanceMap.mem_keys key).2 (by rw [hlookup]; rfl)
    rw [hkeys, Finset.mem_singleton] at hkey
    rw [hkey]
    decide +kernel
  have hrange : n.instanceMap.Ranges ["orders110.0.0.180"] := ⟨by decide, hkeys.symm⟩
  exact (callback_confined_iff hrange).2 hshares

/-- The callback of one service deletes the instance of another. -/
theorem other_service_deleted : ∃ n order, Discovery.run [.callback Sample.orders []] = some n ∧
    n.instanceMap.Ranges order ∧ ("orders", "10.0.0.1:80") ∈ n.announced ∧
    ("orders", "10.0.0.1:80") ∉ (n.callback Sample.users order).announced ∧
      ¬Confined n Sample.users order := by
  have hrun : (Discovery.run [.callback Sample.orders []]).map (fun n =>
      (n.instanceMap.keys, n.announced, (n.callback Sample.users ["orders10.0.0.180"]).announced)) =
      some ({"orders10.0.0.180"}, {("orders", "10.0.0.1:80")}, {("users", "10.0.0.1:80")}) :=
        by decide +kernel
  obtain ⟨n, hrun, heq⟩ := Option.map_eq_some_iff.1 hrun
  simp only [Prod.mk.injEq] at heq
  obtain ⟨hkeys, hbefore, hafter⟩ := heq
  have hgone : ("orders", "10.0.0.1:80") ∉
      (n.callback Sample.users ["orders10.0.0.180"]).announced := by
    rw [hafter]
    decide
  have hthere : ("orders", "10.0.0.1:80") ∈ n.announced := by
    rw [hbefore]
    decide
  refine ⟨n, ["orders10.0.0.180"], hrun, ⟨by decide, hkeys.symm⟩, hthere, hgone, fun hconfined =>
    ?_⟩
  exact hgone ((hconfined.others "orders" (by decide) "10.0.0.1:80").2 hthere)

end Pixiu.SpringCloud
