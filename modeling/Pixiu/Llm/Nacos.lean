import Pixiu.Base.FinMap
import Pixiu.Base.Notices
import Pixiu.Base.System
import Pixiu.Base.Text
import Pixiu.Cluster.Endpoint

/-!
# LLM endpoints in nacos

The listener of `pkg/adapter/llmregistry` polls the list of services and subscribes to each.  A
callback carries the instances of a service; the listener compares them with its cache and announces
endpoints, each with the cluster that its metadata name.

`latest`, `listed` and `live` are not part of the source: the healthy, enabled instances of the
latest callback of each service, the services of the latest poll, and the pairs of a cluster and an
endpoint that were announced and not removed since.

* `Listener.mirrors_step` — the steps that keep `live` in step with the instances.
* `endpoints_follow_instances` — what is there after a run of such steps.
-/

namespace Pixiu.Llm.Nacos

open Cluster

/-- What comes from libraries: the hash for generated identities, and the parser for the settings of
a retry policy. -/
structure Lib where
  sum : String → String
  unmarshal : String → Option String

/-! ## Instances and endpoints -/

/-- An instance; a subscriber gets it with the same fields.  The metadata may be missing and are
listed by key. -/
structure Instance where
  instanceId : String
  ip : String
  port : UInt64
  serviceName : String
  valid : Bool
  enable : Bool
  healthy : Bool
  weight : String
  metadata : Option (List (String × String))
  clusterName : String
  deriving DecidableEq, Repr

/-- `RetryTypeValue`. -/
def retryTypeValue (name : String) : String :=
  if name = "NoRetry" ∨ name = "ExponentialBackoff" ∨ name = "CountBased" then name else ""

/-- `nacosEndpointID`. -/
def nacosEndpointID (lib : Lib) (i : Instance) (metadata : List (String × String))
    (endpoint : Endpoint) : String :=
  let id := Text.trimSpace ((metadata.lookup "id").getD "")
  let instanceID := Text.trimSpace i.instanceId
  if id ≠ "" then id
  else if instanceID ≠ "" then instanceID
  else generateEndpointID lib.sum (Text.trimSpace ((metadata.lookup "cluster").getD ""))
    (some endpoint)

-- The defaults of an endpoint are the name of the retry policy and the interval of the health
-- checks; those of the address are overwritten.
/-- `generateEndpoint`. -/
def generateEndpoint (lib : Lib) (i : Instance) : Option Endpoint :=
  match i.metadata with
  | none => none
  | some metadata =>
    let port := (metadata.lookup "port").bind Text.atoi
    let retry := metadata.lookup "llm-meta.retry_policy.name"
    let config := (metadata.lookup "llm-meta.retry_policy.config").bind lib.unmarshal
    let endpoint : Endpoint :=
      { name := (metadata.lookup "name").getD ""
        address :=
          { address := (metadata.lookup "ip").getD i.ip
            port := port.getD i.port.toInt64.toInt
            domains := ((metadata.lookup "address").map (Text.split ',')).getD [] }
        metadata := metadata
        llmMeta := some
          { apiKey := (metadata.lookup "llm-meta.api_key").getD ""
            retryPolicy :=
              { name := (retry.map retryTypeValue).getD "NoRetry", config := config.getD "" }
            fallback := (metadata.lookup "llm-meta.fallback").any fun fallback =>
              (Text.trimSpace fallback).toList.map Char.toLower = "true".toList
            healthCheckInterval := 5000 } }
    some { endpoint with id := nacosEndpointID lib i metadata endpoint }

/-- The cluster that an endpoint is announced for, with its identity. -/
def pair (endpoint : Endpoint) : Option (String × String) :=
  match endpoint.metadata.lookup "cluster" with
  | none => none
  | some cluster => if cluster = "" then none else some (cluster, endpoint.id)

namespace Instance

variable (lib : Lib)

/-- The instance can be used. -/
def usable (i : Instance) : Bool := i.enable && i.healthy

/-- What an instance is announced as. -/
def pairs (i : Instance) : List (String × String) := ((generateEndpoint lib i).bind pair).toList

/-- The ID of the endpoint of an instance. -/
def endpointID (i : Instance) : String := ((generateEndpoint lib i).map (·.id)).getD ""

end Instance

/-! ## The listener -/

/-- `listener`: the instances of each service by their key, and the services that are subscribed
to. -/
structure Listener where
  instanceCache : FinMap String (FinMap String Instance)
  subscribedServices : Finset String
  latest : String → List Instance
  listed : List String
  live : Finset (String × String)

/-- A callback names the service it is for; `order` and `oldOrder` are how the new and the old
instances are ranged over. A poll has the outcome of each call to the registry. -/
inductive Op where
  | serviceCallback (service : String) (services : List Instance) (err : Bool)
      (order oldOrder : List String)
  | discoverAndSubscribe (doms : List String) (err : Bool) (subscribes unsubscribes : String → Bool)

/-- The key of an instance in the cache. -/
def cacheKey (lib : Lib) (serviceName : String) (i : Instance) : String :=
  serviceName ++ "@" ++ i.endpointID lib

/-- The instances that have endpoints. -/
def withEndpoint (lib : Lib) (instances : List Instance) : List Instance :=
  instances.filter fun i => (generateEndpoint lib i).isSome

/-- The instances of a callback that are not skipped. -/
def admitted (lib : Lib) (services : List Instance) : List Instance :=
  withEndpoint lib (services.filter Instance.usable)

/-- `newInstanceMap`; `newEndpoints` has the endpoints of the same instances. -/
def newInstanceMap (lib : Lib) (serviceName : String) (services : List Instance) :
    FinMap String Instance :=
  (admitted lib services).foldl (fun m i => m.insert (cacheKey lib serviceName i) i) .empty

/-- What the adapter is told of new and changed instances. -/
def announced (lib : Lib) (old new : FinMap String Instance) (order : List String) :
    List (String × String) :=
  order.flatMap fun key =>
    match new.lookup key with
    | none => []
    | some i => if old.lookup key = some i then [] else i.pairs lib

/-- What the adapter is told of instances that are gone. -/
def withdrawn (lib : Lib) (old new : FinMap String Instance) (oldOrder : List String) :
    List (String × String) :=
  oldOrder.flatMap fun key =>
    match old.lookup key with
    | none => []
    | some i => if (new.lookup key).isSome then [] else i.pairs lib

namespace Listener

/-- A new listener. -/
def init : Listener := ⟨.empty, ∅, fun _ => [], [], ∅⟩

/-- The instances of a service in the cache. -/
def cached (s : Listener) (serviceName : String) : FinMap String Instance :=
  (s.instanceCache.lookup serviceName).getD .empty

/-- The callback of a service, for a list that is not empty. -/
def update (lib : Lib) (s : Listener) (serviceName : String) (services : List Instance)
    (order oldOrder : List String) : Listener :=
  let old := s.cached serviceName
  let new := newInstanceMap lib serviceName services
  { s with
    instanceCache := s.instanceCache.insert serviceName new
    live := Notice.live s.live
      ((announced lib old new order).map .add ++ (withdrawn lib old new oldOrder).map .remove) }

/-- The record of the latest callback of a service. -/
def noteLatest (s : Listener) (service : String) (services : List Instance) : Listener :=
  { s with latest := Function.update s.latest service (services.filter Instance.usable) }

/-- `serviceCallback`; the service is named by its first instance. -/
def serviceCallback (lib : Lib) (s : Listener) (services : List Instance)
    (order oldOrder : List String) :
    Option Listener :=
  match services with
  | [] => some s
  | first :: _ =>
    if (newInstanceMap lib first.serviceName services).Ranges order ∧
      (s.cached first.serviceName).Ranges oldOrder then
      some (s.update lib first.serviceName services order oldOrder)
    else none

/-- `discoverAndSubscribe`. -/
def discoverAndSubscribe (s : Listener) (doms : List String)
    (subscribes unsubscribes : String → Bool) : Listener :=
  let subscribed := s.subscribedServices ∪ doms.toFinset.filter (subscribes ·)
  let gone :=
    fun service => decide (service ∈ subscribed) && decide (service ∉ doms) && unsubscribes service
  { s with
    subscribedServices := subscribed.filter (!gone ·)
    instanceCache := s.instanceCache.filter (!gone ·)
    listed := doms }

/-- One operation. -/
def step (lib : Lib) (s : Listener) : Op → Option Listener
  | .serviceCallback service services err order oldOrder =>
    if err then some s
    else (s.serviceCallback lib services order oldOrder).map (·.noteLatest service services)
  | .discoverAndSubscribe doms err subscribes unsubscribes =>
    if err then some s else some (s.discoverAndSubscribe doms subscribes unsubscribes)

/-- The state after some operations, if they can happen. -/
def run (lib : Lib) (ops : List Op) : Option Listener := ops.foldlM (step lib) init

/-! ## Following the instances -/

/-- The pairs that are announced are those of the latest callbacks of the listed services. -/
def Follows (lib : Lib) (s : Listener) : Prop :=
  ∀ t, t ∈ s.live ↔ Notice.Offered (·.pairs lib) (· ∈ s.listed) s.latest t

/-- The pairs that the listed services other than one have. -/
def Others (lib : Lib) (s : Listener) (service : String) : String × String → Prop :=
  Notice.Offered (·.pairs lib) (fun k => k ∈ s.listed.toFinset ∧ k ≠ service) s.latest

/-- The steps that keep the endpoints in step with the instances.  A callback with instances is for
a listed service and names it, the endpoints have different identities, an endpoint that stays
keeps its cluster (or another service has the old pair), and one that is gone shares its pair with
no other service; an empty list is for a service without instances.  A poll drops no service with a
pair of its own, and brings in services without instances. -/
def Careful (lib : Lib) (s : Listener) : Op → Prop
  | .serviceCallback _ _ true _ _ => True
  | .serviceCallback service [] false _ _ => s.latest service = []
  | .serviceCallback service (first :: rest) false _ _ =>
    service ∈ s.listed ∧ first.serviceName = service ∧
      Notice.Replaces (·.pairs lib) (cacheKey lib service) (s.Others lib service)
        (withEndpoint lib (s.latest service)) (admitted lib (first :: rest))
  | .discoverAndSubscribe _ true _ _ => True
  | .discoverAndSubscribe doms false _ _ =>
    (∀ k ∈ doms, k ∉ s.listed → s.latest k = []) ∧
      ∀ k ∈ s.listed, k ∉ doms → ∀ i ∈ s.latest k, ∀ t ∈ i.pairs lib,
        Notice.Offered (·.pairs lib) (fun k' => k' ∈ s.listed.toFinset ∧ k' ∈ doms) s.latest t

instance (lib : Lib) (s : Listener) (service : String) : DecidablePred (s.Others lib service) :=
  fun t => inferInstanceAs (Decidable (Notice.Offered (·.pairs lib)
    (fun k => k ∈ s.listed.toFinset ∧ k ≠ service) s.latest t))

instance (lib : Lib) (s : Listener) : ∀ op, Decidable (s.Careful lib op)
  | .serviceCallback _ _ true _ _ => isTrue trivial
  | .serviceCallback _ [] false _ _ => by unfold Careful; infer_instance
  | .serviceCallback _ (_ :: _) false _ _ => by unfold Careful; infer_instance
  | .discoverAndSubscribe _ true _ _ => isTrue trivial
  | .discoverAndSubscribe _ false _ _ => by unfold Careful; infer_instance

/-- The cache of a service has its instances, by their keys. -/
def Holds (lib : Lib) (service : String) (cache : FinMap String Instance) (l : List Instance) :
    Prop :=
  ∀ key i, cache.lookup key = some i ↔ i ∈ l ∧ cacheKey lib service i = key

/-- What steps of this kind keep. -/
structure Mirrors (lib : Lib) (s : Listener) : Prop where
  follows : s.Follows lib
  holds : ∀ service, service ∈ s.listed ∨ s.latest service = [] →
    Holds lib service (s.cached service) (withEndpoint lib (s.latest service))

variable {lib : Lib} {s s' : Listener} {service : String}

/-- Only instances with an endpoint have a pair. -/
theorem exists_mem_withEndpoint_iff {l : List Instance} {t : String × String} :
    (∃ i ∈ withEndpoint lib l, t ∈ i.pairs lib) ↔ ∃ i ∈ l, t ∈ i.pairs lib := by
  constructor
  · rintro ⟨i, hi, ht⟩
    exact ⟨i, List.mem_of_mem_filter hi, ht⟩
  · rintro ⟨i, hi, ht⟩
    refine ⟨i, List.mem_filter.2 ⟨hi, ?_⟩, ht⟩
    rw [Instance.pairs] at ht
    cases he : generateEndpoint lib i with
    | none => simp [he] at ht
    | some e => rfl

theorem holds_newInstanceMap {services : List Instance}
    (hdistinct : ((admitted lib services).map (cacheKey lib service)).Nodup) :
    Holds lib service (newInstanceMap lib service services) (admitted lib services) :=
  fun _ i => FinMap.lookup_foldl_insert_of_nodup (cacheKey lib service) hdistinct i

section Callback

variable {old new : FinMap String Instance} {l l' : List Instance} {order : List String}

theorem mem_announced (hold : Holds lib service old l) (hnew : Holds lib service new l')
    (horder : new.Ranges order) (t : String × String) :
    t ∈ announced lib old new order ↔ Notice.Fresh (·.pairs lib) l l' t := by
  rw [announced, List.mem_flatMap]
  constructor
  · rintro ⟨key, -, ht⟩
    cases hkey : new.lookup key with
    | none =>
      rw [hkey] at ht
      cases ht
    | some i =>
      rw [hkey] at ht
      dsimp only at ht
      split_ifs at ht with hcached
      · cases ht
      · obtain ⟨hi, rfl⟩ := (hnew key i).1 hkey
        exact ⟨i, hi, fun hl => hcached ((hold _ i).2 ⟨hl, rfl⟩), ht⟩
  · rintro ⟨i, hi, hl, ht⟩
    have hkey := (hnew _ i).2 ⟨hi, rfl⟩
    refine ⟨_, horder.mem_iff.2 ⟨i, hkey⟩, ?_⟩
    rw [hkey]
    dsimp only
    rwa [if_neg fun hcached => hl ((hold _ i).1 hcached).1]

theorem mem_withdrawn (hold : Holds lib service old l) (hnew : Holds lib service new l')
    (horder : old.Ranges order) (t : String × String) :
    t ∈ withdrawn lib old new order ↔
      Notice.Gone (·.pairs lib) (cacheKey lib service) l l' t := by
  have hsome : ∀ key, (new.lookup key).isSome ↔ ∃ i ∈ l', cacheKey lib service i = key := by
    intro key
    simp only [Option.isSome_iff_exists, hnew key]
  rw [withdrawn, List.mem_flatMap]
  constructor
  · rintro ⟨key, -, ht⟩
    cases hkey : old.lookup key with
    | none =>
      rw [hkey] at ht
      cases ht
    | some i =>
      rw [hkey] at ht
      dsimp only at ht
      split_ifs at ht with hlisted
      · cases ht
      · obtain ⟨hi, rfl⟩ := (hold key i).1 hkey
        exact ⟨i, hi, fun j hj heq => hlisted ((hsome _).2 ⟨j, hj, heq⟩), ht⟩
  · rintro ⟨i, hi, hgone, ht⟩
    have hkey := (hold _ i).2 ⟨hi, rfl⟩
    refine ⟨_, horder.mem_iff.2 ⟨i, hkey⟩, ?_⟩
    rw [hkey]
    dsimp only
    rw [if_neg fun hlisted => ?_]
    · exact ht
    · obtain ⟨j, hj, heq⟩ := (hsome _).1 hlisted
      exact hgone j hj heq

end Callback

/-- A callback puts the new instances of a listed service in the place of the old ones. -/
theorem mirrors_update (h : s.Mirrors lib) {services : List Instance} {order oldOrder : List String}
    (hlisted : service ∈ s.listed)
    (hreplaces : Notice.Replaces (·.pairs lib) (cacheKey lib service) (s.Others lib service)
      (withEndpoint lib (s.latest service)) (admitted lib services))
    (horder : (newInstanceMap lib service services).Ranges order)
    (holdOrder : (s.cached service).Ranges oldOrder) :
    ((s.update lib service services order oldOrder).noteLatest service services).Mirrors lib := by
  have hnew := holds_newInstanceMap hreplaces.distinct
  have hold := h.holds service (.inl hlisted)
  have hothers : ∀ t, s.Others lib service t ↔
      Notice.Offered (·.pairs lib) (fun k => k ∈ s.listed ∧ k ≠ service) s.latest t := by
    intro t
    simp only [Others, List.mem_toFinset]
  constructor
  · intro t
    have hbefore : ∀ t, t ∈ s.live ↔ s.Others lib service t ∨
        ∃ i ∈ withEndpoint lib (s.latest service), t ∈ i.pairs lib := by
      intro t
      rw [h.follows t, Notice.offered_iff hlisted, hothers, exists_mem_withEndpoint_iff]
    have hafter : ∀ t, t ∈ (s.update lib service services order oldOrder).live ↔ False ∨
        (t ∈ s.live ∨ Notice.Fresh (·.pairs lib) (withEndpoint lib (s.latest service))
            (admitted lib services) t) ∧
          ¬Notice.Gone (·.pairs lib) (cacheKey lib service) (withEndpoint lib (s.latest service))
            (admitted lib services) t := by
      intro t
      rw [update, Notice.live_append, Notice.mem_live_removes, Notice.mem_live_adds,
        mem_announced hold hnew horder, mem_withdrawn hold hnew holdOrder, false_or]
    refine (hreplaces.mem_iff hbefore hafter (fun t => (or_false _).symm ▸ Iff.rfl) t).trans ?_
    rw [hothers, admitted, exists_mem_withEndpoint_iff]
    exact (Notice.offered_update_iff hlisted _ t).symm
  · intro k hk
    by_cases heq : k = service
    · subst heq
      simpa [noteLatest, update, cached, admitted] using hnew
    · simp only [noteLatest, Function.update_of_ne heq] at hk ⊢
      simpa [update, cached, FinMap.lookup_insert_of_ne heq] using h.holds k hk

theorem mirrors_discoverAndSubscribe (h : s.Mirrors lib) {doms : List String}
    {subscribes unsubscribes : String → Bool}
    (hcareful : s.Careful lib (.discoverAndSubscribe doms false subscribes unsubscribes)) :
    (s.discoverAndSubscribe doms subscribes unsubscribes).Mirrors lib := by
  obtain ⟨hnew, hdropped⟩ := hcareful
  simp only [List.mem_toFinset] at hdropped
  constructor
  · intro t
    exact (h.follows t).trans (Notice.offered_relist hnew hdropped t)
  · intro k hk
    have hempty : k ∈ s.listed ∨ s.latest k = [] := by
      by_cases hlisted : k ∈ s.listed
      · exact .inl hlisted
      · exact .inr (hk.elim (fun hdoms => hnew k hdoms hlisted) id)
    have hholds := h.holds k hempty
    -- the cache of a service that is dropped is deleted, which changes nothing if it is empty
    simp only [cached, discoverAndSubscribe, FinMap.lookup_filter] at hholds ⊢
    split_ifs with hkept
    · exact hholds
    · have hnil : s.latest k = [] := by
        refine hk.resolve_left fun hdoms => ?_
        replace hdoms : k ∈ doms := hdoms
        simp [hdoms] at hkept
      intro key i
      simp [hnil, withEndpoint]

/-- A step of this kind keeps the endpoints in step with the instances. -/
theorem mirrors_step {op : Op} (h : s.Mirrors lib) (hcareful : s.Careful lib op)
    (hstep : s.step lib op = some s') : s'.Mirrors lib := by
  cases op with
  | serviceCallback service services err order oldOrder =>
    cases err with
    | true =>
      obtain rfl := Option.some.inj hstep
      exact h
    | false =>
      obtain ⟨s₁, hcallback, rfl⟩ := Option.map_eq_some_iff.1 hstep
      cases services with
      | nil =>
        obtain rfl := Option.some.inj hcallback
        have hsame : s.noteLatest service [] = s := by
          rw [noteLatest, List.filter_nil, ← hcareful, Function.update_eq_self]
        rwa [hsame]
      | cons first rest =>
        obtain ⟨hlisted, rfl, hreplaces⟩ := hcareful
        rw [serviceCallback] at hcallback
        split_ifs at hcallback with horder
        obtain rfl := Option.some.inj hcallback
        exact mirrors_update h hlisted hreplaces horder.1 horder.2
  | discoverAndSubscribe doms err subscribes unsubscribes =>
    cases err with
    | true =>
      obtain rfl := Option.some.inj hstep
      exact h
    | false =>
      obtain rfl := Option.some.inj hstep
      exact mirrors_discoverAndSubscribe h hcareful

theorem follows_init : init.Follows lib := by
  intro t
  refine ⟨fun h => (Finset.notMem_empty t h).elim, ?_⟩
  rintro ⟨service, hlisted, -⟩
  cases hlisted

theorem mirrors_init : init.Mirrors lib := by
  refine ⟨follows_init, fun service _ key i => ?_⟩
  simp [init, cached, withEndpoint]

end Listener

/-- **Endpoints follow instances.**  After a run of steps of this kind, the pairs that were
announced and not withdrawn since are those of the latest callbacks of the listed services. -/
theorem endpoints_follow_instances {lib : Lib} {ops : List Op} {s : Listener}
    (hrun : Listener.run lib ops = some s)
    (hcareful : System.StepsAlong (Listener.step lib) (Listener.Careful lib) Listener.init ops) :
    s.Follows lib :=
  (System.invariant_stepsAlong (fun _ _ _ h hstep => Listener.mirrors_step h hstep) hrun
    Listener.mirrors_init hcareful).follows

namespace Sample

/-- IDs are texts as they are. -/
def lib : Lib := ⟨id, fun _ => none⟩

/-- An instance of the service `chat`. -/
def chat (id cluster weight : String) : Instance :=
  { instanceId := id, ip := "10.0.0.1", port := 80, serviceName := "chat", valid := true,
    enable := true, healthy := true, weight := weight, metadata := some [("cluster", cluster)],
    clusterName := "DEFAULT" }

/-- An instance moves to another cluster. -/
def moved : List Op :=
  [.discoverAndSubscribe ["chat"] false (fun _ => true) (fun _ => true),
   .serviceCallback "chat" [chat "a" "blue" "1"] false ["chat@a"] [],
   .serviceCallback "chat" [chat "a" "green" "1"] false ["chat@a"] ["chat@a"]]

/-- Of two instances one changes its weight and the other is gone, next to another service. -/
def reweighted : List Op :=
  [.discoverAndSubscribe ["chat", "code"] false (fun _ => true) (fun _ => true),
   .serviceCallback "chat" [chat "a" "blue" "1", chat "b" "blue" "1"] false ["chat@a", "chat@b"] [],
   .serviceCallback "code" [{ chat "c" "blue" "1" with serviceName := "code" }] false ["code@c"] [],
   .serviceCallback "chat" [chat "a" "blue" "2"] false ["chat@a"] ["chat@a", "chat@b"]]

end Sample

theorem endpoints_follow_instances_reweighted :
    ∃ s, Listener.run Sample.lib Sample.reweighted = some s ∧ s.Follows Sample.lib ∧
      s.live = {("blue", "a"), ("blue", "c")} := by
  have hrun : Listener.run Sample.lib Sample.reweighted = some _ := rfl
  exact ⟨_, hrun, endpoints_follow_instances hrun (by decide +kernel), by decide +kernel⟩

/-- An endpoint stays in the cluster that its instance has left. -/
theorem moved_endpoint_stays : ∃ s, Listener.run Sample.lib Sample.moved = some s ∧
    ("blue", "a") ∈ s.live ∧
    ¬Notice.Offered (·.pairs Sample.lib) (· ∈ s.listed) s.latest ("blue", "a") := by
  have hrun : Listener.run Sample.lib Sample.moved = some _ := rfl
  refine ⟨_, hrun, by decide +kernel, ?_⟩
  rintro ⟨service, -, i, hi, ht⟩
  replace hi : i ∈ Function.update (Function.update (fun _ => []) "chat"
    [Sample.chat "a" "blue" "1"]) "chat" [Sample.chat "a" "green" "1"] service := hi
  by_cases hservice : service = "chat"
  · rw [hservice, Function.update_self, List.mem_singleton] at hi
    subst hi
    revert ht
    decide +kernel
  · rw [Function.update_of_ne hservice, Function.update_of_ne hservice] at hi
    cases hi

end Pixiu.Llm.Nacos
