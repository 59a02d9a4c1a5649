import Pixiu.Base.FinMap
import Pixiu.Base.Notices
import Pixiu.Base.System
import Pixiu.Dubbo.Provider

/-!
# Dubbo services in nacos

`nacosIntfListener` polls the list of services and keeps one `serviceListener` for each.  A callback
of a service carries the whole list of its instances; the listener compares it with the one before
and adds and removes APIs.

A listener that is dropped is closed but stays subscribed, so its callbacks still come.  `latest`
and `live` are not part of the source: the instances of the latest callback of each service, and the
APIs that were added and not removed since.

* `Registry.mirrors_step` — the steps that keep `live` in step with the instances.
* `apis_follow_registrations` — what is there after a run of such steps.
-/

namespace Pixiu.Dubbo.Nacos

/-! ## Instances -/

/-- An instance; a subscriber gets it with the same fields.  The metadata may be missing and are
listed by key. -/
structure Instance where
  instanceId : String
  ip : String
  port : UInt64
  serviceName : String
  valid : Bool
  enable : Bool
  weight : String
  metadata : Option (List (String × String))
  clusterName : String
  deriving DecidableEq, Repr

namespace Instance

/-- The address of an instance; the port is converted to a signed number first. -/
def host (i : Instance) : String := i.ip ++ ":" ++ toString i.port.toInt64.toInt

/-- `generateURL`. -/
def generateURL (i : Instance) : Option Url :=
  match i.metadata with
  | none => none
  | some metadata =>
    let path := (metadata.lookup "path").getD ""
    let myInterface := (metadata.lookup "interface").getD ""
    let protocol := (metadata.lookup "protocol").getD ""
    if path = "" ∧ myInterface = "" then none
    else if protocol = "" then none
    else some { protocol := protocol
                location := i.host
                path := if path = "" then "/" ++ myInterface else path
                params := metadata }

/-- The APIs that an instance describes. -/
def apis (lib : UrlLib) (i : Instance) : List API :=
  match i.generateURL with
  | none => []
  | some u => apisOf lib (lib.text u)

/-- What an instance describes. -/
def triples (lib : UrlLib) (i : Instance) : List Triple := (i.apis lib).map API.triple

end Instance

/-- What a list of instances describes. -/
def described (lib : UrlLib) (instances : List Instance) : List Triple :=
  instances.flatMap (·.triples lib)

/-! ## Callbacks -/

/-- What the loops of `Callback` collect from the enabled instances. -/
structure Difference where
  addInstances : List Instance
  delInstances : List Instance
  updateInstances : List Instance
  newInstanceMap : FinMap String Instance

/-- `order` is how the cache is ranged over. -/
def difference (instanceMap : FinMap String Instance) (instances : List Instance)
    (order : List String) :
    Difference :=
  let newInstanceMap := instances.foldl (fun m i => m.insert i.host i) .empty
  { addInstances := instances.filter fun i => instanceMap.lookup i.host = none
    delInstances := order.filterMap fun host =>
      if (newInstanceMap.lookup host).isSome then none else instanceMap.lookup host
    updateInstances :=
      instances.filter fun i => (instanceMap.lookup i.host).any fun old => decide (old ≠ i)
    newInstanceMap := newInstanceMap }

/-- What the adapter is told, in order. -/
def Difference.notices (lib : UrlLib) (d : Difference) : List (Notice Triple) :=
  (described lib d.addInstances).map .add ++ (described lib d.delInstances).map .remove ++
    (described lib d.updateInstances).map .add

section Difference

variable {lib : UrlLib} {instanceMap : FinMap String Instance} {old instances : List Instance}
  {order : List String}

/-- With the instances of the last callback in the cache, what is announced is what is new or
changed. -/
theorem fresh_iff (hcache : ∀ host i, instanceMap.lookup host = some i ↔ i ∈ old ∧ i.host = host)
    (order : List String) (t : Triple) :
    Notice.Fresh (·.triples lib) old instances t ↔
      t ∈ described lib (difference instanceMap instances order).addInstances ∨
        t ∈ described lib (difference instanceMap instances order).updateInstances := by
  simp only [described, difference, List.mem_flatMap, List.mem_filter, decide_eq_true_eq,
    Option.any_eq_true]
  constructor
  · rintro ⟨i, hi, hold, ht⟩
    cases hcached : instanceMap.lookup i.host with
    | none => exact .inl ⟨i, ⟨hi, hcached⟩, ht⟩
    | some o =>
      refine .inr ⟨i, ⟨hi, o, hcached, ?_⟩, ht⟩
      rintro rfl
      exact hold ((hcache _ _).1 hcached).1
  · rintro (⟨i, ⟨hi, hcached⟩, ht⟩ | ⟨i, ⟨hi, o, hcached, hne⟩, ht⟩)
    · refine ⟨i, hi, fun hold => ?_, ht⟩
      rw [(hcache i.host i).2 ⟨hold, rfl⟩] at hcached
      cases hcached
    · refine ⟨i, hi, fun hold => hne ?_, ht⟩
      rw [(hcache i.host i).2 ⟨hold, rfl⟩] at hcached
      exact (Option.some.inj hcached).symm

theorem gone_iff (hcache : ∀ host i, instanceMap.lookup host = some i ↔ i ∈ old ∧ i.host = host)
    (horder : instanceMap.Ranges order) (t : Triple) :
    Notice.Gone (·.triples lib) Instance.host old instances t ↔
      t ∈ described lib (difference instanceMap instances order).delInstances := by
  have hlisted : ∀ host, ((instances.foldl (fun m i => m.insert i.host i)
      (FinMap.empty : FinMap String Instance)).lookup host).isSome = true ↔
        ∃ i ∈ instances, i.host = host := by
    intro host
    rw [FinMap.isSome_lookup_foldl_insert Instance.host]
    simp
  simp only [described, difference, List.mem_flatMap, List.mem_filterMap]
  constructor
  · rintro ⟨o, ho, hnone, ht⟩
    have hcached := (hcache _ _).2 ⟨ho, rfl⟩
    refine ⟨o, ⟨o.host, horder.mem_iff.2 ⟨o, hcached⟩, ?_⟩, ht⟩
    rw [if_neg fun hsome => ?_, hcached]
    obtain ⟨i, hi, hhost⟩ := (hlisted o.host).1 hsome
    exact hnone i hi hhost
  · rintro ⟨o, ⟨host, -, hcached⟩, ht⟩
    split_ifs at hcached with hsome
    obtain ⟨ho, rfl⟩ := (hcache _ _).1 hcached
    exact ⟨o, ho, fun i hi hhost => hsome ((hlisted _).2 ⟨i, hi, hhost⟩), ht⟩

/-- Instances at different addresses are all in the cache. -/
theorem lookup_newInstanceMap (hdistinct : (instances.map Instance.host).Nodup)
    (order : List String) (host : String) (i : Instance) :
    (difference instanceMap instances order).newInstanceMap.lookup host = some i ↔
      i ∈ instances ∧ i.host = host :=
  FinMap.lookup_foldl_insert_of_nodup Instance.host hdistinct i

end Difference

/-! ## The registry -/

/-- `serviceListener`, with the service it is for. -/
structure Listener where
  key : String
  instanceMap : FinMap String Instance

/-- `serviceInfoMap` names the listener of a service by its place among all listeners ever made. -/
structure Registry where
  serviceInfoMap : FinMap String ℕ
  listeners : List Listener
  latest : String → List Instance
  live : Finset Triple

/-- A callback, or a list of the services. -/
inductive Op where
  | callback (listener : ℕ) (services : List Instance) (err : Bool) (order : List String)
  | updateServiceList (serviceList : List String)

/-- `fromServiceFullKey`: the interface, the version and the group, as they are joined again. -/
def fromServiceFullKey (fullKey : String) : Option String :=
  match Text.split ':' fullKey with
  | [_, interfaceName, version, group] => some (interfaceName ++ ":" ++ version ++ ":" ++ group)
  | _ => none

namespace Registry

/-- A new registry. -/
def init : Registry := ⟨.empty, [], fun _ => [], ∅⟩

/-- A listener is changed. -/
def setListener (s : Registry) (id : ℕ) (l : Listener) : Registry :=
  { s with listeners := s.listeners.set id l }

/-- `Callback`, unless it carries an error. -/
def callback (lib : UrlLib) (s : Registry) (id : ℕ) (l : Listener) (services : List Instance)
    (order : List String) :
    Registry :=
  let instances := services.filter Instance.enable
  let d := difference l.instanceMap instances order
  { s.setListener id { l with instanceMap := d.newInstanceMap } with
    latest := Function.update s.latest l.key instances
    live := Notice.live s.live (d.notices lib) }

/-- The loop of `updateServiceList` that adds listeners. -/
def addListener (s : Registry) (key : String) : Registry :=
  if (s.serviceInfoMap.lookup key).isSome then s
  else { s with serviceInfoMap := s.serviceInfoMap.insert key s.listeners.length
                listeners := s.listeners ++ [⟨key, .empty⟩] }

/-- `updateServiceList`. -/
def updateServiceList (s : Registry) (serviceList : List String) : Registry :=
  let keys := serviceList.filterMap fromServiceFullKey
  let added := keys.foldl addListener s
  { added with serviceInfoMap := added.serviceInfoMap.filter (· ∈ keys) }

/-- One operation. -/
def step (lib : UrlLib) (s : Registry) : Op → Option Registry
  | .callback id services err order =>
    match s.listeners[id]? with
    | none => none
    | some l =>
      if err then some s
      else if l.instanceMap.Ranges order then some (s.callback lib id l services order)
      else none
  | .updateServiceList serviceList => some (s.updateServiceList serviceList)

/-- The state after some operations, if they can happen. -/
def run (lib : UrlLib) (ops : List Op) : Option Registry := ops.foldlM (step lib) init

/-! ## Following the registrations -/

/-- A service of the latest list. -/
abbrev Listed (s : Registry) (key : String) : Prop := key ∈ s.serviceInfoMap.keys

/-- The APIs are those described by the latest callbacks of the listed services. -/
def Follows (lib : UrlLib) (s : Registry) : Prop :=
  ∀ t, t ∈ s.live ↔ Notice.Offered (·.triples lib) s.Listed s.latest t

/-- The APIs that the listed services other than one describe. -/
def Others (lib : UrlLib) (s : Registry) (key : String) : Triple → Prop :=
  Notice.Offered (·.triples lib) (fun key' => s.Listed key' ∧ key' ≠ key) s.latest

/-- The steps that keep the APIs in step with the registrations.  A callback comes from the
listener of a listed service, its instances are at different addresses, an instance that changes
its metadata drops no API, and one that is gone shares no API with an instance that stays.  A list
drops no service with an API of its own, and brings in services without instances. -/
def Careful (lib : UrlLib) (s : Registry) : Op → Prop
  | .callback _ _ true _ => True
  | .callback id services false _ => ∀ l ∈ s.listeners[id]?,
    s.serviceInfoMap.lookup l.key = some id ∧
      Notice.Replaces (·.triples lib) Instance.host (s.Others lib l.key) (s.latest l.key)
        (services.filter Instance.enable)
  | .updateServiceList serviceList =>
    let keys := serviceList.filterMap fromServiceFullKey
    (∀ key ∈ keys, ¬s.Listed key → s.latest key = []) ∧
      ∀ key ∈ s.serviceInfoMap.keys, key ∉ keys → ∀ i ∈ s.latest key, ∀ t ∈ i.triples lib,
        Notice.Offered (·.triples lib) (fun key' => s.Listed key' ∧ key' ∈ keys) s.latest t

instance (lib : UrlLib) (s : Registry) (key : String) : DecidablePred (s.Others lib key) := fun t =>
  inferInstanceAs
    (Decidable
      (Notice.Offered (·.triples lib) (fun key' => key' ∈ s.serviceInfoMap.keys ∧ key' ≠ key)
    s.latest t))

instance (lib : UrlLib) (s : Registry) : ∀ op, Decidable (s.Careful lib op)
  | .callback _ _ true _ => isTrue trivial
  | .callback id services false _ => by
    unfold Careful
    infer_instance
  | .updateServiceList serviceList => by
    unfold Careful
    infer_instance

/-- The listener of each listed service has the instances of its latest callback. -/
def Current (s : Registry) : Prop :=
  ∀ key id, s.serviceInfoMap.lookup key = some id → ∃ l, s.listeners[id]? = some l ∧
    l.key = key ∧ ∀ host i, l.instanceMap.lookup host = some i ↔ i ∈ s.latest key ∧ i.host = host

/-- What steps of this kind keep. -/
structure Mirrors (lib : UrlLib) (s : Registry) : Prop where
  follows : s.Follows lib
  current : s.Current

variable {lib : UrlLib} {s s' : Registry}

theorem isSome_lookup_addListener (s : Registry) (key key' : String) :
    ((s.addListener key).serviceInfoMap.lookup key').isSome ↔
      (s.serviceInfoMap.lookup key').isSome ∨ key' = key := by
  rw [addListener]
  split_ifs with hlisted
  · exact ⟨.inl, fun h => h.elim id fun heq => heq ▸ hlisted⟩
  · rw [FinMap.lookup_insert]
    split_ifs with heq
    · simp [heq]
    · simp [heq]

theorem isSome_lookup_foldl_addListener (keys : List String) (s : Registry) (key : String) :
    ((keys.foldl addListener s).serviceInfoMap.lookup key).isSome ↔
      (s.serviceInfoMap.lookup key).isSome ∨ key ∈ keys := by
  induction keys generalizing s with
  | nil => simp
  | cons key' keys ih =>
    rw [List.foldl_cons, ih, isSome_lookup_addListener, List.mem_cons]
    tauto

/-- After an update the listed services are those of the list. -/
theorem listed_updateServiceList (s : Registry) (serviceList : List String) (key : String) :
    (s.updateServiceList serviceList).Listed key ↔
      key ∈ serviceList.filterMap fromServiceFullKey := by
  simp only [Listed, FinMap.mem_keys, updateServiceList, FinMap.lookup_filter]
  split_ifs with hmem
  · rw [isSome_lookup_foldl_addListener]
    exact ⟨fun _ => of_decide_eq_true hmem, .inr⟩
  · exact ⟨nofun, fun h => absurd (decide_eq_true h) hmem⟩

theorem addListener_kept (s : Registry) (key : String) :
    (s.addListener key).latest = s.latest ∧ (s.addListener key).live = s.live := by
  rw [addListener]
  split_ifs <;> exact ⟨rfl, rfl⟩

theorem foldl_addListener_kept (keys : List String) (s : Registry) :
    (keys.foldl addListener s).latest = s.latest ∧ (keys.foldl addListener s).live = s.live := by
  induction keys generalizing s with
  | nil => exact ⟨rfl, rfl⟩
  | cons key keys ih =>
    obtain ⟨hlatest, hlive⟩ := addListener_kept s key
    rw [List.foldl_cons, (ih _).1, (ih _).2, hlatest, hlive]
    exact ⟨rfl, rfl⟩

theorem current_addListener (h : s.Current) {key : String}
    (hnew : ¬s.Listed key → s.latest key = []) :
    (s.addListener key).Current := by
  rw [addListener]
  split_ifs with hlisted
  · exact h
  intro key' id hid
  rw [FinMap.lookup_insert] at hid
  split_ifs at hid with hkey
  · obtain rfl := Option.some.inj hid
    refine ⟨⟨key, .empty⟩, List.getElem?_concat_length .., hkey.symm, fun host i => ?_⟩
    simp [hkey, hnew (mt (FinMap.mem_keys _ _).1 hlisted)]
  · obtain ⟨l, hl, hrest⟩ := h key' id hid
    refine ⟨l, ?_, hrest⟩
    rw [List.getElem?_append_left (List.getElem?_eq_some_iff.1 hl).1]
    exact hl

theorem current_foldl_addListener (keys : List String) (h : s.Current)
    (hnew : ∀ key ∈ keys, ¬s.Listed key → s.latest key = []) :
    (keys.foldl addListener s).Current := by
  induction keys generalizing s with
  | nil => exact h
  | cons key keys ih =>
    rw [List.foldl_cons]
    refine ih (current_addListener h (hnew key (List.mem_cons_self ..))) fun key' hkey' hlisted =>
      ?_
    rw [(addListener_kept s key).1]
    refine hnew key' (List.mem_cons_of_mem _ hkey') fun hold => hlisted ?_
    rw [Listed, FinMap.mem_keys] at hold ⊢
    exact (isSome_lookup_addListener s key key').2 (.inl hold)

theorem mirrors_updateServiceList (h : s.Mirrors lib) {serviceList : List String}
    (hcareful : s.Careful lib (.updateServiceList serviceList)) :
    (s.updateServiceList serviceList).Mirrors lib := by
  obtain ⟨hnew, hdropped⟩ := hcareful
  obtain ⟨hlatest, hlive⟩ := foldl_addListener_kept (serviceList.filterMap fromServiceFullKey) s
  constructor
  · intro t
    have hsame : (s.updateServiceList serviceList).live = s.live := hlive
    rw [hsame, h.follows t, Notice.offered_relist hnew hdropped]
    simp only [Notice.Offered, listed_updateServiceList]
    rw [updateServiceList, hlatest]
  · intro key id hid
    have hadded := current_foldl_addListener _ h.current hnew
    simp only [updateServiceList, FinMap.lookup_filter] at hid
    split_ifs at hid with hmem
    exact hadded key id hid

/-- A callback of a listed service puts its new instances in the place of the old ones. -/
theorem mirrors_callback (h : s.Mirrors lib) {id : ℕ} {l : Listener} {services : List Instance}
    {order : List String} (hl : s.listeners[id]? = some l) (horder : l.instanceMap.Ranges order)
    (hid : s.serviceInfoMap.lookup l.key = some id)
    (hreplaces : Notice.Replaces (·.triples lib) Instance.host (s.Others lib l.key) (s.latest l.key)
      (services.filter Instance.enable)) :
    (s.callback lib id l services order).Mirrors lib := by
  have hlisted : s.Listed l.key := by rw [Listed, FinMap.mem_keys, hid]; rfl
  obtain ⟨l', hl', -, hcache⟩ := h.current l.key id hid
  obtain rfl := Option.some.inj (hl.symm.trans hl')
  constructor
  · intro t
    refine (hreplaces.mem_iff (fun t => (h.follows t).trans (Notice.offered_iff hlisted t)) ?_
      (fresh_iff hcache order) t).trans (Notice.offered_update_iff hlisted _ t).symm
    intro t
    rw [gone_iff hcache horder, callback, Difference.notices, Notice.live_append,
      Notice.live_append,
      Notice.mem_live_adds, Notice.mem_live_removes, Notice.mem_live_adds]
    exact or_comm
  · intro key' id' hid'
    obtain ⟨l₁, hl₁, hkey', hcache'⟩ := h.current key' id' hid'
    by_cases heq : id' = id
    · subst heq
      obtain rfl := Option.some.inj (hl.symm.trans hl₁)
      refine ⟨_, List.getElem?_set_self (List.getElem?_eq_some_iff.1 hl).1, hkey', fun host i => ?_⟩
      rw [lookup_newInstanceMap hreplaces.distinct, ← hkey']
      simp only [callback, Function.update_self]
    · have hne : key' ≠ l.key := by
        rintro rfl
        exact heq (Option.some.inj (hid'.symm.trans hid))
      refine ⟨l₁, (List.getElem?_set_ne (Ne.symm heq)).trans hl₁, hkey', fun host i => ?_⟩
      rw [hcache']
      simp only [callback, Function.update_of_ne hne]

/-- A step of this kind keeps the APIs in step with the registrations. -/
theorem mirrors_step {op : Op} (h : s.Mirrors lib) (hcareful : s.Careful lib op)
    (hstep : s.step lib op = some s') : s'.Mirrors lib := by
  cases op with
  | callback id services err order =>
    simp only [step] at hstep
    cases hl : s.listeners[id]? with
    | none => rw [hl] at hstep; cases hstep
    | some l =>
      rw [hl] at hstep
      cases err with
      | true =>
        obtain rfl := Option.some.inj hstep
        exact h
      | false =>
        simp only [Bool.false_eq_true, if_false] at hstep
        split_ifs at hstep with horder
        obtain rfl := Option.some.inj hstep
        obtain ⟨hid, hreplaces⟩ := hcareful l hl
        exact mirrors_callback h hl horder hid hreplaces
  | updateServiceList serviceList =>
    obtain rfl := Option.some.inj hstep
    exact mirrors_updateServiceList h hcareful

theorem follows_init : init.Follows lib := by
  intro t
  refine ⟨fun h => (Finset.notMem_empty t h).elim, ?_⟩
  rintro ⟨key, hlisted, -⟩
  cases hlisted

theorem mirrors_init : init.Mirrors lib := by
  refine ⟨follows_init, fun key id hid => ?_⟩
  cases hid

end Registry

/-- **APIs follow registrations.**  After a run of steps of this kind, the APIs that were added and
not removed since are those described by the latest callbacks of the listed services. -/
theorem apis_follow_registrations {lib : UrlLib} {ops : List Op} {s : Registry}
    (hrun : Registry.run lib ops = some s)
    (hcareful : System.StepsAlong (Registry.step lib) (Registry.Careful lib) Registry.init ops) :
    s.Follows lib :=
  (System.invariant_stepsAlong (fun _ _ _ h hstep => Registry.mirrors_step h hstep) hrun
    Registry.mirrors_init hcareful).follows

namespace Sample

/-- An instance with an interface and its methods. -/
def provider (ip interface methods : String) : Instance :=
  { instanceId := "", ip := ip, port := 80, serviceName := interface, valid := true, enable := true,
    weight := "1",
    metadata := some [("interface", interface), ("methods", methods), ("protocol", "dubbo")],
    clusterName := "DEFAULT" }

/-- A provider of two methods drops one of them. -/
def droppedMethod : List Op :=
  [.updateServiceList ["providers:Users::"],
   .callback 0 [provider "10.0.0.1" "Users" "get,put"] false [],
   .callback 0 [provider "10.0.0.1" "Users" "get"] false ["10.0.0.1:80"]]

/-- Of the two providers of a service, one offers a method more and the other is gone. -/
def grownMethod : List Op :=
  [.updateServiceList ["providers:Users::", "providers:Orders::"],
   .callback 0 [provider "10.0.0.1" "Users" "get", provider "10.0.0.2" "Users" "get"] false [],
   .callback 1 [provider "10.0.0.1" "Orders" "list"] false [],
   .callback 0 [provider "10.0.0.1" "Users" "get,put"] false ["10.0.0.1:80", "10.0.0.2:80"]]

end Sample

/-- One provider takes a method more, another one leaves, and a service at the address of the first
stays as it is. -/
theorem apis_follow_registrations_grownMethod :
    ∃ s, Registry.run Sample.lib Sample.grownMethod = some s ∧ s.Follows Sample.lib ∧
      s.live = {("/app/Users", "get", "10.0.0.1:80"), ("/app/Users", "put", "10.0.0.1:80"),
        ("/app/Users", "list", "10.0.0.1:80")} := by
  have hrun : Registry.run Sample.lib Sample.grownMethod = some _ := rfl
  exact ⟨_, hrun, apis_follow_registrations hrun (by decide +kernel), by decide +kernel⟩

/-- A method that a provider does not offer any more stays. -/
theorem dropped_method_stays : ∃ s, Registry.run Sample.lib Sample.droppedMethod = some s ∧
    ("/app/Users", "put", "10.0.0.1:80") ∈ s.live ∧
    ¬Notice.Offered (·.triples Sample.lib) s.Listed s.latest
      ("/app/Users", "put", "10.0.0.1:80") := by
  have hrun : Registry.run Sample.lib Sample.droppedMethod = some _ := rfl
  refine ⟨_, hrun, by decide +kernel, ?_⟩
  rintro ⟨key, -, i, hi, ht⟩
  replace hi : i ∈ Function.update (Function.update (fun _ => []) "Users::"
    [Sample.provider "10.0.0.1" "Users" "get,put"]) "Users::"
    [Sample.provider "10.0.0.1" "Users" "get"] key := hi
  by_cases hkey : key = "Users::"
  · rw [hkey, Function.update_self, List.mem_singleton] at hi
    subst hi
    revert ht
    decide +kernel
  · rw [Function.update_of_ne hkey, Function.update_of_ne hkey] at hi
    cases hi

end Pixiu.Dubbo.Nacos
