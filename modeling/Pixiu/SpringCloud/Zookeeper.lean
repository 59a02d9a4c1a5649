import Pixiu.Base.System
import Pixiu.SpringCloud.Discovery

/-!
# The zookeeper service discovery of Spring Cloud

`applicationServiceListener.handleEvent` reads the children of the node of a service and the content
of each, adds or updates the instances that are read and deletes the others.  Whether an instance is
new is asked by the name of its node, while the cache is keyed by the ID inside the content; and a
list that could not be read is taken to be empty.

The cache is the list of its instances, in any order.  The listener is told of each addition, update
and deletion, so the cached instances are the announced ones.

* `mem_foldl_handleChild_iff` — which of the instances that were read the cache has.
* `reads_right_iff` — for which caches and answers of the registry the cache is right afterwards.
-/

namespace Pixiu.SpringCloud.Zookeeper

/-- The part of `SpringCloudZKInstance` that is used. -/
structure SpringCloudZKInstance where
  name : String
  id : String
  address : String
  port : ℕ
  instanceStatus : String
  deriving DecidableEq

/-- The answer to `GetContent` of a child and `json.Unmarshal`. -/
abbrev Content := Option SpringCloudZKInstance

/-- `queryForInstance`. -/
def queryForInstance (content : Content) : Option ServiceInstance := content.map fun sczk =>
  { id := sczk.id, serviceName := sczk.name, host := sczk.address, port := sczk.port,
    clusterName := sczk.name
    healthy := sczk.instanceStatus = "UP", enable := false, metadata := [] }

/-- The children of a node, each with its content. -/
structure Children where
  nodes : List (String × Content)
  nodup : (nodes.map (·.1)).Nodup

/-- `instanceMap`, which has one instance for an ID. -/
abbrev InstanceMap := List ServiceInstance

section

variable (m : InstanceMap)

/-- The map has the ID. -/
def known (id : String) : Bool := m.any (·.id = id)

/-- `addServiceInstance`. -/
def addServiceInstance (i : ServiceInstance) : InstanceMap := if known m i.id then m else m ++ [i]

/-- `updateServiceInstance`. -/
def updateServiceInstance (i : ServiceInstance) : InstanceMap :=
  if known m i.id then m.map fun old => if old.id = i.id then i else old else m

/-- `delServiceInstance`. -/
def delServiceInstance (id : String) : InstanceMap := m.filter (·.id ≠ id)

/-- A round of the loop over the children. -/
def handleChild (node : String × Content) : InstanceMap :=
  match queryForInstance node.2 with
  | none => m
  | some i => if known m node.1 then updateServiceInstance m i else addServiceInstance m i

/-- `Diff`. -/
def diff (a b : List String) : List String := a.filter (· ∉ b)

/-- `handleEvent`; `none` is a list that could not be read, and a service without children has an
empty one. -/
def handleEvent (service : String) (children : Option Children) : InstanceMap :=
  let fetchChildren := (children.map Children.nodes).getD []
  let oldInsId := (m.filter (·.serviceName = service)).map (·.id)
  (diff oldInsId (fetchChildren.map (·.1))).foldl delServiceInstance
    (fetchChildren.foldl handleChild m)

/-- After a failed read the announced instances of the service are unchanged, and after a good one
they are those read. -/
def Right (service : String) : Option Children → Prop
  | none =>
    ∀ i : ServiceInstance, i.serviceName = service → (i ∈ handleEvent m service none ↔ i ∈ m)
  | some children => (∀ node ∈ children.nodes, node.2.isSome) →
    ∀ i, i ∈ handleEvent m service (some children) ∧ i.serviceName = service ↔
      ∃ node ∈ children.nodes, queryForInstance node.2 = some i

/-- The IDs that are known after some children, from those known before: a content enters its ID if
the name of its node is not known. -/
def knownIds (ids : Finset String) (nodes : List (String × Content)) : Finset String :=
  nodes.foldl (fun ids node => match queryForInstance node.2 with
    | none => ids
    | some i => if node.1 ∈ ids then ids else insert i.id ids) ids

/-- The IDs of the cache. -/
def ids : Finset String := (m.map (·.id)).toFinset

/-- What the cache and the children need to agree on. -/
structure Agrees (service : String) (nodes : List (String × Content)) : Prop where
  /-- Contents are of the service. -/
  own : ∀ node ∈ nodes, ∀ i, queryForInstance node.2 = some i → i.serviceName = service
  /-- An ID has one content. -/
  single : ∀ node ∈ nodes, ∀ i, queryForInstance node.2 = some i →
    ∀ node' ∈ nodes, ∀ j, queryForInstance node'.2 = some j → i.id = j.id → i = j
  /-- The ID of a cached instance of the service is the name of a node if a content has it, and only
  then. -/
  named : ∀ i ∈ m, i.serviceName = service →
    ((∃ node ∈ nodes, node.1 = i.id) ↔
      ∃ node ∈ nodes, ∃ j, queryForInstance node.2 = some j ∧ j.id = i.id)
  /-- An instance is cached as it is, or one of its nodes comes when both its name and the ID are
  known or neither is. -/
  entered : ∀ node ∈ nodes, ∀ i, queryForInstance node.2 = some i → i ∈ m ∨
    ∃ before node' after, nodes = before ++ node' :: after ∧ queryForInstance node'.2 = some i ∧
      (node'.1 ∈ knownIds (ids m) before ↔ i.id ∈ knownIds (ids m) before)

end

/-! ## The loops -/

variable {m : InstanceMap} {i x : ServiceInstance} {node : String × Content}
  {nodes : List (String × Content)}

theorem known_iff {id : String} : known m id = true ↔ ∃ j ∈ m, j.id = id := by simp [known]

theorem mem_foldl_delServiceInstance {ids : List String} :
    i ∈ ids.foldl delServiceInstance m ↔ i ∈ m ∧ i.id ∉ ids := by
  induction ids generalizing m with
  | nil => simp
  | cons id ids ih => simp [ih, delServiceInstance, and_assoc]

theorem mem_handleEvent_iff {service : String} {children : Children} :
    i ∈ handleEvent m service (some children) ↔
    i ∈ children.nodes.foldl handleChild m ∧
      ((∃ j ∈ m, j.serviceName = service ∧ j.id = i.id) → i.id ∈ children.nodes.map (·.1)) := by
  simp only [handleEvent, Option.map_some, Option.getD_some, mem_foldl_delServiceInstance, diff,
    List.mem_filter,
    List.mem_map, decide_eq_true_eq, not_and, not_not, and_assoc]

/-- An instance is cached that was before, or that was read. -/
theorem mem_or_read_of_handleChild (h : i ∈ handleChild m node) :
    i ∈ m ∨ queryForInstance node.2 = some i := by
  unfold handleChild updateServiceInstance addServiceInstance at h
  cases hread : queryForInstance node.2 with
  | none => exact Or.inl (by simpa [hread] using h)
  | some j =>
    simp only [hread] at h
    split_ifs at h
    · obtain ⟨old, hold, heq⟩ := List.mem_map.1 h
      split_ifs at heq
      · exact Or.inr (congrArg some heq)
      · exact Or.inl (heq ▸ hold)
    · exact Or.inl h
    · exact Or.inl h
    · simpa [eq_comm] using h

theorem mem_or_read (h : i ∈ nodes.foldl handleChild m) :
    i ∈ m ∨ ∃ node ∈ nodes, queryForInstance node.2 = some i := by
  induction nodes generalizing m with
  | nil => exact Or.inl h
  | cons node nodes ih =>
    rcases ih h with h | ⟨node', hnode', hread⟩
    · exact (mem_or_read_of_handleChild h).imp_right fun hread => ⟨node, List.mem_cons_self, hread⟩
    · exact Or.inr ⟨node', List.mem_cons_of_mem _ hnode', hread⟩

/-- An instance stays cached if no content has its ID. -/
theorem mem_of_not_read (h : i ∈ m)
    (hother : ∀ node ∈ nodes, ∀ j, queryForInstance node.2 = some j → j.id ≠ i.id) :
    i ∈ nodes.foldl handleChild m := by
  induction nodes generalizing m with
  | nil => exact h
  | cons node nodes ih =>
    refine ih ?_ fun node' hnode' => hother node' (List.mem_cons_of_mem _ hnode')
    unfold handleChild updateServiceInstance addServiceInstance
    cases hread : queryForInstance node.2 with
    | none => exact h
    | some j =>
      have hne := hother node List.mem_cons_self j hread
      show i ∈ if _ then _ else _
      split_ifs
      · exact List.mem_map.2 ⟨i, h, if_neg hne.symm⟩
      · exact h
      · exact h
      · exact List.mem_append_left _ h

/-- A child replaces the instance of its ID if name and ID are known, and adds it if neither is. -/
theorem handleChild_of_read (hread : queryForInstance node.2 = some x) :
    handleChild m node =
      if known m node.1 = known m x.id then
        if known m x.id then m.map fun old => if old.id = x.id then x else old else m ++ [x]
      else m := by
  simp only [handleChild, hread, updateServiceInstance, addServiceInstance]
  cases known m node.1 <;> cases known m x.id <;> rfl

theorem mem_handleChild_self (hread : queryForInstance node.2 = some x) :
    x ∈ handleChild m node ↔ x ∈ m ∨ (known m node.1 = true ↔ known m x.id = true) := by
  rw [handleChild_of_read hread]
  by_cases hboth : known m node.1 = known m x.id
  · rw [if_pos hboth, hboth]
    refine iff_of_true ?_ (Or.inr Iff.rfl)
    by_cases hknown : known m x.id = true
    · rw [if_pos hknown]
      obtain ⟨j, hj, hid⟩ := known_iff.1 hknown
      exact List.mem_map.2 ⟨j, hj, if_pos hid⟩
    · rw [if_neg hknown]
      exact List.mem_append_right _ (List.mem_singleton_self x)
  · rw [if_neg hboth]
    exact (or_iff_left fun h => hboth (Bool.eq_iff_iff.2 h)).symm

theorem mem_handleChild_of_ne (hread : queryForInstance node.2 = some x) (hne : i.id ≠ x.id) :
    i ∈ handleChild m node ↔ i ∈ m := by
  refine ⟨fun h => (mem_or_read_of_handleChild h).resolve_right fun h' => ?_, fun h => ?_⟩
  · exact hne (congrArg ServiceInstance.id (Option.some.inj (h'.symm.trans hread)))
  · have hkept : i ∈ [node].foldl handleChild m := by
      refine mem_of_not_read h fun node' hnode' j hj => ?_
      rw [List.mem_singleton.1 hnode', hread] at hj
      exact Option.some.inj hj ▸ hne.symm
    exact hkept

theorem known_handleChild {id : String} (hread : queryForInstance node.2 = some x) :
    known (handleChild m node) id = true ↔
      known m id = true ∨ known m node.1 = false ∧ id = x.id := by
  have hmap : known (m.map fun old => if old.id = x.id then x else old) id = known m id := by
    rw [known, known, List.any_map]
    congr 1
    funext old
    by_cases hid : old.id = x.id
    · simp [hid]
    · simp [hid]
  rw [handleChild_of_read hread]
  cases hname : known m node.1 with
  | true =>
    cases hid : known m x.id with
    | true => simp only [if_true, hmap, Bool.true_eq_false, false_and, or_false]
    | false => simp
  | false =>
    cases hid : known m x.id with
    | true =>
      simp only [Bool.false_eq_true, if_false, true_and]
      exact (or_iff_left_of_imp fun h => h ▸ hid).symm
    | false => simp [known, eq_comm (a := x.id)]

/-- The IDs of the cache after some children are the known ones. -/
theorem known_foldl_handleChild {ids : Finset String} (hids : ∀ id, known m id = true ↔ id ∈ ids)
    (id : String) : known (nodes.foldl handleChild m) id = true ↔ id ∈ knownIds ids nodes := by
  induction nodes generalizing m ids with
  | nil => exact hids id
  | cons node nodes ih =>
    rw [List.foldl_cons, knownIds, List.foldl_cons]
    refine ih fun id => ?_
    cases hread : queryForInstance node.2 with
    | none => simpa [handleChild, hread] using hids id
    | some x =>
      rw [known_handleChild hread, hids id, ← Bool.not_eq_true, hids node.1]
      by_cases hname : node.1 ∈ ids
      · simp [hname]
      · simp [hname, or_comm]

theorem known_iff_mem_ids (id : String) : known m id = true ↔ id ∈ ids m := by
  simp [known, ids]

/-- If an ID has one content, the cache has an instance that was read if it had it, or if one of its
nodes came when both its name and the ID were known or neither was. -/
theorem mem_foldl_handleChild_iff (hsingle : ∀ node ∈ nodes, ∀ j,
      queryForInstance node.2 = some j → i.id = j.id → i = j) :
    i ∈ nodes.foldl handleChild m ↔ i ∈ m ∨
      ∃ before node after, nodes = before ++ node :: after ∧ queryForInstance node.2 = some i ∧
        (node.1 ∈ knownIds (ids m) before ↔ i.id ∈ knownIds (ids m) before) := by
  induction nodes using List.reverseRecOn with
  | nil => simp
  | append_singleton nodes node ih =>
    have hknown := @known_foldl_handleChild m nodes (ids m) known_iff_mem_ids
    have ih := ih fun node' hnode' => hsingle node' (List.mem_append_left _ hnode')
    have hlast : (∃ before node' after, nodes ++ [node] = before ++ node' :: after ∧
          queryForInstance node'.2 = some i ∧
            (node'.1 ∈ knownIds (ids m) before ↔ i.id ∈ knownIds (ids m) before)) ↔
        (∃ before node' after, nodes = before ++ node' :: after ∧
          queryForInstance node'.2 = some i ∧
            (node'.1 ∈ knownIds (ids m) before ↔ i.id ∈ knownIds (ids m) before)) ∨
        queryForInstance node.2 = some i ∧
          (node.1 ∈ knownIds (ids m) nodes ↔ i.id ∈ knownIds (ids m) nodes) := by
      constructor
      · rintro ⟨before, node', after, hsplit, hread, hboth⟩
        rcases System.concat_eq_append_cons.1 hsplit with ⟨-, rfl, rfl⟩ | ⟨after, -, rfl⟩
        · exact Or.inr ⟨hread, hboth⟩
        · exact Or.inl ⟨before, node', after, rfl, hread, hboth⟩
      · rintro (⟨before, node', after, rfl, hread, hboth⟩ | ⟨hread, hboth⟩)
        · exact ⟨before, node', after ++ [node], by simp, hread, hboth⟩
        · exact ⟨nodes, node, [], rfl, hread, hboth⟩
    rw [hlast, ← or_assoc, ← ih, List.foldl_append, List.foldl_cons, List.foldl_nil]
    cases hread : queryForInstance node.2 with
    | none => simp [handleChild, hread]
    | some x =>
      by_cases hid : i.id = x.id
      · obtain rfl := hsingle node (List.mem_append_right _ (List.mem_singleton_self _)) x hread hid
        rw [mem_handleChild_self hread, hknown, hknown]
        simp
      · rw [mem_handleChild_of_ne hread hid]
        refine (or_iff_left fun h => hid ?_).symm
        exact congrArg ServiceInstance.id (Option.some.inj h.1).symm

theorem nodup_foldl_handleChild (hm : (m.map (·.id)).Nodup) :
    ((nodes.foldl handleChild m).map (·.id)).Nodup := by
  induction nodes generalizing m with
  | nil => exact hm
  | cons node nodes ih =>
    refine ih ?_
    cases hread : queryForInstance node.2 with
    | none => simpa [handleChild, hread] using hm
    | some x =>
      rw [handleChild_of_read hread]
      split_ifs with hboth hknown
      · have hids : (m.map fun old => if old.id = x.id then x else old).map (·.id) =
            m.map (·.id) := by
          rw [List.map_map]
          refine List.map_congr_left fun old _ => ?_
          by_cases hid : old.id = x.id
          · simp [hid]
          · simp [hid]
        rwa [hids]
      · rw [List.map_append, List.map_singleton, List.nodup_append_comm, List.singleton_append,
          List.nodup_cons]
        refine ⟨fun hmem => hknown ?_, hm⟩
        obtain ⟨j, hj, hid⟩ := List.mem_map.1 hmem
        exact known_iff.2 ⟨j, hj, hid⟩
      · exact hm

/-! ## When the cache is right -/

section Right

variable {service : String} {children : Children}

theorem right_none_iff : Right m service none ↔ ∀ i ∈ m, i.serviceName ≠ service := by
  have hmem : ∀ i, i ∈ handleEvent m service none ↔
      i ∈ m ∧ ∀ j ∈ m, j.serviceName = service → j.id ≠ i.id := by
    intro i
    simp [handleEvent, mem_foldl_delServiceInstance, diff]
  constructor
  · intro h i hi hservice
    exact ((hmem i).1 ((h i hservice).2 hi)).2 i hi hservice rfl
  · intro h i _
    rw [hmem]
    exact and_iff_left fun j hj hservice => absurd hservice (h j hj)

theorem eq_of_mem_of_id (hm : (m.map (·.id)).Nodup) (hi : i ∈ children.nodes.foldl handleChild m)
    (hx : x ∈ children.nodes.foldl handleChild m) (hid : i.id = x.id) : i = x :=
  List.inj_on_of_nodup_map (nodup_foldl_handleChild hm) hi hx hid

theorem right_of_agrees (hm : (m.map (·.id)).Nodup) (h : Agrees m service children.nodes) :
    Right m service (some children) := by
  have hcached : ∀ node ∈ children.nodes, ∀ j, queryForInstance node.2 = some j →
      j ∈ children.nodes.foldl handleChild m := fun node hnode j hread =>
    (mem_foldl_handleChild_iff (h.single node hnode j hread)).2 (h.entered node hnode j hread)
  intro _ i
  rw [mem_handleEvent_iff]
  constructor
  · rintro ⟨⟨hi, hkept⟩, hservice⟩
    rcases mem_or_read hi with hold | hread
    · -- an old instance of the service stays only if its ID is a name, and then it was read
      obtain ⟨node, hnode, j, hread, hid⟩ :=
        (h.named i hold hservice).1 (List.mem_map.1 (hkept ⟨i, hold, hservice, rfl⟩))
      obtain rfl := eq_of_mem_of_id hm (hcached node hnode j hread) hi hid
      exact ⟨node, hnode, hread⟩
    · exact hread
  · rintro ⟨node, hnode, hread⟩
    refine ⟨⟨hcached node hnode i hread, ?_⟩, h.own node hnode i hread⟩
    rintro ⟨j, hj, hservice, hid⟩
    rw [← hid]
    exact List.mem_map.2 ((h.named j hj hservice).2 ⟨node, hnode, i, hread, hid.symm⟩)

theorem agrees_of_right (hm : (m.map (·.id)).Nodup)
    (hall : ∀ node ∈ children.nodes, node.2.isSome) (h : Right m service (some children)) :
    Agrees m service children.nodes := by
  have hannounced : ∀ node ∈ children.nodes, ∀ i, queryForInstance node.2 = some i →
      (i ∈ children.nodes.foldl handleChild m ∧
        ((∃ j ∈ m, j.serviceName = service ∧ j.id = i.id) → i.id ∈ children.nodes.map (·.1))) ∧
          i.serviceName = service := by
    intro node hnode i hread
    rw [← mem_handleEvent_iff]
    exact (h hall i).2 ⟨node, hnode, hread⟩
  have hsingle : ∀ node ∈ children.nodes, ∀ i, queryForInstance node.2 = some i →
      ∀ node' ∈ children.nodes, ∀ j, queryForInstance node'.2 = some j → i.id = j.id → i = j :=
    fun node hnode i hi node' hnode' j hj =>
      eq_of_mem_of_id hm (hannounced node hnode i hi).1.1 (hannounced node' hnode' j hj).1.1
  refine ⟨fun node hnode i hread => (hannounced node hnode i hread).2, hsingle,
    fun i hi hservice => ⟨fun hname => ?_, ?_⟩, fun node hnode i hread => ?_⟩
  · -- an old instance that no content has stays under the name of a node
    by_contra hnone
    push Not at hnone
    have hstays : i ∈ handleEvent m service (some children) :=
      mem_handleEvent_iff.2 ⟨mem_of_not_read hi hnone, fun _ => List.mem_map.2 hname⟩
    obtain ⟨node, hnode, hread⟩ := (h hall i).1 ⟨hstays, hservice⟩
    exact hnone node hnode i hread rfl
  · rintro ⟨node, hnode, j, hread, hid⟩
    rw [← hid]
    exact List.mem_map.1 ((hannounced node hnode j hread).1.2 ⟨i, hi, hservice, hid.symm⟩)
  · exact (mem_foldl_handleChild_iff (hsingle node hnode i hread)).1
      (hannounced node hnode i hread).1.1

end Right

/-- **After a failed list the cache is right exactly if it had no instance of the service, and after
a list whose contents were all read exactly if the cache and the children agree.** -/
theorem reads_right_iff (service : String) (m : InstanceMap) (hm : (m.map (·.id)).Nodup)
    (answer : Option Children) :
    Right m service answer ↔
      (answer = none ∧ ∀ i ∈ m, i.serviceName ≠ service) ∨
      ∃ children, answer = some children ∧
        ((∀ node ∈ children.nodes, node.2.isSome) → Agrees m service children.nodes) := by
  cases answer with
  | none => simp [right_none_iff]
  | some children =>
    simp only [reduceCtorEq, false_and, Option.some.injEq, exists_eq_left', false_or]
    constructor
    · exact fun h hall => agrees_of_right hm hall h
    · exact fun h hall => right_of_agrees hm (h hall) hall

/-- An instance of the service `user`. -/
def Sample.content (id : String) (port : ℕ) : SpringCloudZKInstance :=
  ⟨"user", id, "10.0.0.1", port, "UP"⟩

/-- What `queryForInstance` makes of it. -/
def Sample.cached (id : String) (port : ℕ) : ServiceInstance :=
  ⟨id, "user", "10.0.0.1", port, true, "user", false, []⟩

/-- Nodes of `a`, with another port than before, and of the new instance `c`. -/
def Sample.children : Children :=
  ⟨[("a", some (content "a" 81)), ("c", some (content "c" 80))], by decide⟩

/-- The cache had `a` and `b`: the first is updated, the second withdrawn, and `c` added. -/
theorem reads_right_iff_updated :
    Right [Sample.cached "a" 80, Sample.cached "b" 80] "user" (some Sample.children) :=
  (reads_right_iff "user" _ (by decide) _).2 (Or.inr ⟨_, rfl, fun _ =>
    { own := by simp [Sample.children, queryForInstance, Sample.content]
      single := by simp [Sample.children, queryForInstance, Sample.content]
      named := by simp [Sample.children, queryForInstance, Sample.content, Sample.cached]
      entered := by
        intro node hnode i hread
        simp only [Sample.children, List.mem_cons, List.not_mem_nil, or_false] at hnode
        rcases hnode with rfl | rfl
        · exact Or.inr ⟨[], _, _, rfl, hread, by cases hread; decide +kernel⟩
        · exact Or.inr ⟨[("a", _)], _, _, rfl, hread, by cases hread; decide +kernel⟩ }⟩)

/-- The instance is added by a read, and withdrawn both by a failed read and by a good one of a node
with another name. -/
theorem read_withdraws : ∃ i, queryForInstance (some (Sample.content "a" 80)) = some i ∧
    handleEvent [] "user" (some ⟨[("node-1", some (Sample.content "a" 80))], by decide⟩) = [i] ∧
    handleEvent [i] "user" none = [] ∧
    handleEvent [i] "user" (some ⟨[("node-1", some (Sample.content "a" 80))], by decide⟩) = [] :=
  ⟨_, rfl, by decide +kernel, by decide +kernel, by decide +kernel⟩

end Pixiu.SpringCloud.Zookeeper
