import Mathlib

/-!
# The traffic filter

`FilterFactory.Apply` lays the entries of a router side by side on the range of the draws,
`PrepareFilterChain` picks the rules of a request by the prefix of its URI, and `Decode` picks a
cluster, by the canary header first and then by a draw from 1 to 100.  An entry of the configuration
that is `nil`, on which `Apply` panics, is left out.

* `partitions_iff` — the intervals of a router are a partition unless an entry without a weight
  stands between entries with one, after which the range starts anew; and clusters receive their
  shares unless an entry that declares no header takes the request.
* `declaredOnly_iff` — an entry that declares no header takes the requests that carry none.
* `picksLongest_iff` — which of two nested prefixes is picked is up to the order of a Go map.
-/

namespace Pixiu.Traffic

/-- `Cluster`. -/
structure Cluster where
  name : String
  router : String
  canaryByHeader : String := ""
  canaryWeight : ℤ := 0
  deriving DecidableEq, Repr

/-- `ClusterWrapper`. -/
structure ClusterWrapper where
  weightCeil : ℤ := -1
  weightFloor : ℤ := -1
  header : String := ""
  cluster : Cluster
  deriving DecidableEq, Repr

/-- `rulesMap` is read as in Go: a router that is not there has no rules. -/
structure FilterFactory where
  record : List String := []
  rulesMap : String → List ClusterWrapper := fun _ => []

/-- The errors of `Apply`. -/
inductive ApplyError where
  | duplicateHeader
  | weightSum (router : String)
  deriving DecidableEq, Repr

/-! ## Apply -/

/-- The entry gets a part of the range. -/
def Cluster.Weighted (cluster : Cluster) : Prop :=
  0 < cluster.canaryWeight ∧ cluster.canaryWeight ≤ 100

instance : DecidablePred Cluster.Weighted := fun cluster =>
  inferInstanceAs (Decidable (0 < cluster.canaryWeight ∧ cluster.canaryWeight ≤ 100))

/-- The upper bound that the next entry starts from. -/
def upOf (rules : List ClusterWrapper) : ℤ :=
  match rules.getLast? with
  | none => 0
  | some wp => if wp.weightCeil ≠ -1 then wp.weightCeil else 0

/-- A rule is appended to those of its router. -/
def FilterFactory.add (factory : FilterFactory) (wp : ClusterWrapper) (record : List String) :
    FilterFactory where
  record := record
  rulesMap := fun router =>
    if router = wp.cluster.router then factory.rulesMap router ++ [wp] else factory.rulesMap router

/-- One round of the loop of `Apply`. -/
def FilterFactory.applyCluster (factory : FilterFactory) (cluster : Cluster) :
    Except ApplyError FilterFactory :=
  let up := upOf (factory.rulesMap cluster.router)
  if cluster.canaryByHeader ≠ "" ∧ cluster.canaryByHeader ∈ factory.record then
    .error .duplicateHeader
  else
    let record :=
      if cluster.canaryByHeader ≠ "" then cluster.canaryByHeader :: factory.record else
        factory.record
    if cluster.Weighted then
      if 100 < up + cluster.canaryWeight then .error (.weightSum cluster.router)
      else .ok (factory.add { cluster, header := cluster.canaryByHeader, weightFloor := up,
                              weightCeil := up + cluster.canaryWeight } record)
    else .ok (factory.add { cluster, header := cluster.canaryByHeader } record)

/-- `Apply`. -/
def FilterFactory.apply (traffics : List Cluster) : Except ApplyError FilterFactory :=
  traffics.foldlM FilterFactory.applyCluster {}

/-! ## Decode -/

/-- `spiltHeader`. -/
def spiltHeader (header : Option String) (value : String) : Bool := header.getD "" = value

/-- `spiltWeight`. -/
def spiltWeight (weight floor ceil : ℤ) : Bool := floor < weight ∧ weight ≤ ceil

/-- The rule that the header pass stops at; `header` is the canary header of the request, if it has
one. -/
def headerRule? (rules : List ClusterWrapper) (header : Option String) : Option ClusterWrapper :=
  rules.find? fun wp => spiltHeader header wp.header

/-- The rule that the weight pass stops at. -/
def weightRule? (rules : List ClusterWrapper) (draw : ℤ) : Option ClusterWrapper :=
  rules.find? fun wp => spiltWeight draw wp.weightFloor wp.weightCeil

/-- `Filter.Decode`: the cluster that the route is set to, if it is set. -/
def decode (rules : Option (List ClusterWrapper)) (header : Option String) (draw : ℤ) :
    Option String :=
  match rules with
  | none => none
  | some rules =>
    let cluster := ((headerRule? rules header).map (·.cluster.name)).getD ""
    if cluster ≠ "" then some cluster else (weightRule? rules draw).map (·.cluster.name)

/-- The rules for a URI, with the routers in the order in which the map is ranged over. -/
def FilterFactory.rulesMatch (factory : FilterFactory) (order : List String) (path : String) :
    Option (List ClusterWrapper) :=
  (order.find? fun key => key.toList.isPrefixOf path.toList).map factory.rulesMap

/-! ## What `Apply` has laid out -/

/-- Where an entry stands after entries that reach up to `up`. -/
def Placed (up : ℤ) (wp : ClusterWrapper) : Prop :=
  if wp.cluster.Weighted then
    wp.weightFloor = up ∧ wp.weightCeil = up + wp.cluster.canaryWeight ∧ wp.weightCeil ≤ 100
  else wp.weightFloor = -1 ∧ wp.weightCeil = -1

/-- Every rule stands where the rules before it end. -/
def Laid (rules : List ClusterWrapper) : Prop :=
  ∀ before wp, before ++ [wp] <+: rules → Placed (upOf before) wp

/-- The rules of a factory are those of the entries, in order. -/
structure Applied (factory : FilterFactory) (traffics : List Cluster) : Prop where
  clusters : ∀ router, (factory.rulesMap router).map (·.cluster) =
    traffics.filter (·.router = router)
  header : ∀ router, ∀ wp ∈ factory.rulesMap router, wp.header = wp.cluster.canaryByHeader
  laid : ∀ router, Laid (factory.rulesMap router)

section Apply

variable {factory factory' : FilterFactory} {traffics : List Cluster}
  {rules before : List ClusterWrapper}
  {wp : ClusterWrapper} {cluster : Cluster}

theorem Laid.concat (h : Laid before) (hwp : Placed (upOf before) wp) : Laid (before ++ [wp]) := by
  intro pre x hpre
  rcases List.prefix_concat_iff.1 hpre with heq | hold
  · obtain ⟨rfl, hx⟩ := List.append_inj' heq rfl
    rw [List.singleton_inj.1 hx]
    exact hwp
  · exact h pre x hold

theorem Applied.add (h : Applied factory traffics) {record : List String}
    (hwp : Placed (upOf (factory.rulesMap wp.cluster.router)) wp)
    (hheader : wp.header = wp.cluster.canaryByHeader) :
    Applied (factory.add wp record) (traffics ++ [wp.cluster]) where
  clusters router := by
    unfold FilterFactory.add
    by_cases hrouter : router = wp.cluster.router
    · simp [hrouter, h.clusters]
    · simp [hrouter, h.clusters, Ne.symm hrouter]
  header router x hx := by
    simp only [FilterFactory.add] at hx
    split_ifs at hx with hrouter
    · rcases List.mem_append.1 hx with hx | hx
      · exact h.header router x hx
      · rw [List.mem_singleton.1 hx]
        exact hheader
    · exact h.header router x hx
  laid router := by
    simp only [FilterFactory.add]
    split_ifs with hrouter
    · exact (h.laid router).concat (hrouter ▸ hwp)
    · exact h.laid router

theorem Applied.applyCluster (h : Applied factory traffics)
    (hok : factory.applyCluster cluster = .ok factory') :
    Applied factory' (traffics ++ [cluster]) := by
  unfold FilterFactory.applyCluster at hok
  dsimp only at hok
  rw [ite_eq_iff] at hok
  obtain ⟨-, herr⟩ | ⟨-, hok⟩ := hok
  · cases herr
  by_cases hweighted : cluster.Weighted
  · rw [if_pos hweighted, ite_eq_iff] at hok
    obtain ⟨-, herr⟩ | ⟨hsum, hok⟩ := hok
    · cases herr
    obtain rfl := Except.ok.inj hok
    refine h.add ?_ rfl
    simp only [Placed, if_pos hweighted]
    exact ⟨trivial, trivial, not_lt.1 hsum⟩
  · rw [if_neg hweighted] at hok
    obtain rfl := Except.ok.inj hok
    refine h.add ?_ rfl
    simp only [Placed, if_neg hweighted]
    exact ⟨trivial, trivial⟩

theorem applied_of_apply (hok : FilterFactory.apply traffics = .ok factory) :
    Applied factory traffics := by
  induction traffics using List.reverseRecOn generalizing factory with
  | nil =>
    obtain rfl := Except.ok.inj hok
    exact ⟨fun _ => rfl, nofun, fun _ pre x hpre => absurd (List.prefix_nil.1 hpre) (by simp)⟩
  | append_singleton traffics cluster ih =>
    rw [FilterFactory.apply, List.foldlM_append] at hok
    cases hrun : traffics.foldlM FilterFactory.applyCluster {} with
    | error err => rw [hrun] at hok; cases hok
    | ok old =>
      rw [hrun] at hok
      simp only [List.foldlM_cons, List.foldlM_nil] at hok
      cases hlast : old.applyCluster cluster with
      | error err => simp [hlast, bind, Except.bind] at hok
      | ok new =>
        simp only [hlast, bind, Except.bind, pure, Except.pure] at hok
        obtain rfl := Except.ok.inj hok
        exact (ih hrun).applyCluster hlast

end Apply

/-! ## The intervals -/

/-- The draw falls into the interval of the rule. -/
def ClusterWrapper.Has (wp : ClusterWrapper) (draw : ℤ) : Prop :=
  wp.weightFloor < draw ∧ draw ≤ wp.weightCeil

/-- No two rules have a draw in common. -/
def Disjoint (rules : List ClusterWrapper) : Prop :=
  rules.Pairwise fun a b => ∀ draw, a.Has draw → ¬ b.Has draw

/-- The weights of the entries for a cluster. -/
def share (clusters : List Cluster) (name : String) : ℤ :=
  ((clusters.filter fun c => c.Weighted ∧ c.name = name).map (·.canaryWeight)).sum

/-- The request carries the canary header with the value that the rule declares. -/
def Declares (wp : ClusterWrapper) (header : Option String) : Prop :=
  wp.cluster.canaryByHeader ≠ "" ∧ header = some wp.cluster.canaryByHeader

/-- The intervals of the entries with a weight are disjoint parts of the range, as long as their
weights, and of the requests with a header that no rule declares every cluster receives its
share. -/
structure Partitions (rules : List ClusterWrapper) (header : Option String) : Prop where
  disjoint : Disjoint rules
  within : ∀ wp ∈ rules, wp.cluster.Weighted → 0 ≤ wp.weightFloor ∧ wp.weightCeil ≤ 100
  length : ∀ wp ∈ rules, wp.cluster.Weighted →
    wp.weightCeil - wp.weightFloor = wp.cluster.canaryWeight
  shares : (∀ wp ∈ rules, ¬Declares wp header) → ∀ name,
    (((Finset.Icc (1 : ℤ) 100).filter fun draw =>
      decode (some rules) header draw = some name).card : ℤ) = share (rules.map (·.cluster)) name

/-- The request has a header that is not empty, or the first entry that declares none has no name,
or all the traffic is its cluster's anyway. -/
def Unswayed (clusters : List Cluster) (header : Option String) : Prop :=
  header.getD "" ≠ "" ∨ ∀ first, clusters.find? (·.canaryByHeader = "") = some first →
    first.name = "" ∨
      share clusters first.name = 100 ∧ ∀ c ∈ clusters, c.Weighted → c.name = first.name

/-- No entry without a weight stands between entries with one. -/
def Contiguous (clusters : List Cluster) : Prop :=
  ∀ a b c, [a, b, c].Sublist clusters → a.Weighted → c.Weighted → b.Weighted

section Intervals

variable {rules before : List ClusterWrapper} {wp a : ClusterWrapper}

theorem Laid.of_concat (h : Laid (before ++ [wp])) : Laid before ∧ Placed (upOf before) wp :=
  ⟨fun pre x hpre => h pre x (hpre.trans (List.prefix_append _ _)), h before wp List.prefix_rfl⟩

theorem Placed.of_weighted {up : ℤ} (h : Placed up wp) (hwp : wp.cluster.Weighted) :
    wp.weightFloor = up ∧ wp.weightCeil = up + wp.cluster.canaryWeight ∧ wp.weightCeil ≤ 100 := by
  rwa [Placed, if_pos hwp] at h

/-- After an entry without a weight the range starts anew. -/
theorem upOf_concat {up : ℤ} (h : Placed up wp) (hup : 0 ≤ up) :
    upOf (before ++ [wp]) = if wp.cluster.Weighted then wp.weightCeil else 0 := by
  simp only [upOf, List.getLast?_concat]
  by_cases hwp : wp.cluster.Weighted
  · obtain ⟨-, hceil, -⟩ := h.of_weighted hwp
    have := hwp.1
    rw [if_pos hwp, if_pos (by omega)]
  · rw [Placed, if_neg hwp] at h
    simp [h.2, hwp]

theorem Laid.upOf_nonneg (h : Laid rules) : 0 ≤ upOf rules := by
  induction rules using List.reverseRecOn with
  | nil => exact le_refl _
  | append_singleton before wp ih =>
    obtain ⟨hbefore, hwp⟩ := h.of_concat
    rw [upOf_concat hwp (ih hbefore)]
    split_ifs with hweighted
    · obtain ⟨-, hceil, -⟩ := hwp.of_weighted hweighted
      have := ih hbefore
      have := hweighted.1
      omega
    · exact le_refl _

theorem Laid.placed (h : Laid rules) (hmem : wp ∈ rules) : ∃ up, 0 ≤ up ∧ Placed up wp := by
  obtain ⟨before, after, rfl⟩ := List.append_of_mem hmem
  have hpre : before ++ [wp] <+: before ++ wp :: after := ⟨after, by simp⟩
  have hlaid : Laid (before ++ [wp]) := fun pre x hx => h pre x (hx.trans hpre)
  exact ⟨_, hlaid.of_concat.1.upOf_nonneg, hlaid.of_concat.2⟩

theorem Laid.upOf_eq_zero (h : Laid rules) (hnone : ∀ x ∈ rules, ¬ x.cluster.Weighted) :
    upOf rules = 0 := by
  induction rules using List.reverseRecOn with
  | nil => rfl
  | append_singleton before wp ih =>
    obtain ⟨hbefore, hwp⟩ := h.of_concat
    rw [upOf_concat hwp hbefore.upOf_nonneg, if_neg (hnone wp (by simp))]

/-- The first entry with a weight starts at zero. -/
theorem Laid.exists_floor_eq_zero (h : Laid rules) (hsome : ∃ x ∈ rules, x.cluster.Weighted) :
    ∃ x ∈ rules, x.cluster.Weighted ∧ x.weightFloor = 0 := by
  induction rules using List.reverseRecOn with
  | nil => simp at hsome
  | append_singleton before wp ih =>
    obtain ⟨hbefore, hwp⟩ := h.of_concat
    by_cases hold : ∃ x ∈ before, x.cluster.Weighted
    · obtain ⟨x, hx, hrest⟩ := ih hbefore hold
      exact ⟨x, List.mem_append_left _ hx, hrest⟩
    · push Not at hold
      obtain ⟨x, hx, hweighted⟩ := hsome
      rcases List.mem_append.1 hx with hx | hx
      · exact absurd hweighted (hold x hx)
      · obtain rfl := List.mem_singleton.1 hx
        exact ⟨x, by simp, hweighted, (hwp.of_weighted hweighted).1.trans
          (hbefore.upOf_eq_zero hold)⟩

theorem contiguous_of_concat {clusters : List Cluster} {cluster : Cluster}
    (h : Contiguous (clusters ++ [cluster])) :
    Contiguous clusters :=
  fun a b c habc => h a b c (habc.trans (List.sublist_append_left _ _))

/-- While there is no gap, the rules so far end where the next one starts. -/
theorem Laid.ceil_le_upOf (h : Laid before) {next : Cluster}
    (hgap : Contiguous (before.map (·.cluster) ++ [next]))
    (hnext : next.Weighted) (ha : a ∈ before) (hweighted : a.cluster.Weighted) :
    a.weightCeil ≤ upOf before := by
  induction before using List.reverseRecOn generalizing next with
  | nil => cases ha
  | append_singleton before last ih =>
    obtain ⟨hbefore, hplaced⟩ := h.of_concat
    rw [upOf_concat hplaced hbefore.upOf_nonneg]
    rw [List.map_append, List.map_singleton] at hgap
    by_cases hlast : last.cluster.Weighted
    · rw [if_pos hlast]
      rcases List.mem_append.1 ha with ha | ha
      · have hle := ih hbefore (contiguous_of_concat hgap) hlast ha
        obtain ⟨-, hceil, -⟩ := hplaced.of_weighted hlast
        have := hlast.1
        omega
      · rw [List.mem_singleton.1 ha]
    · rcases List.mem_append.1 ha with ha | ha
      · have hpair : [a.cluster, last.cluster].Sublist (before.map (·.cluster) ++ [last.cluster]) :=
          (List.singleton_sublist.2 (List.mem_map_of_mem ha)).append
            (List.Sublist.refl [last.cluster])
        exact absurd (hgap _ _ _ (hpair.append (List.Sublist.refl [next])) hweighted hnext) hlast
      · rw [List.mem_singleton.1 ha] at hweighted
        exact absurd hweighted hlast

theorem not_has_of_not_weighted {up : ℤ} (h : Placed up wp) (hwp : ¬ wp.cluster.Weighted)
    (draw : ℤ) : ¬ wp.Has draw := by
  rw [Placed, if_neg hwp] at h
  unfold ClusterWrapper.Has
  omega

theorem sublist_concat_cases {α : Type} {l l' : List α} {x : α} (h : l.Sublist (l' ++ [x])) :
    l.Sublist l' ∨ ∃ init, l = init ++ [x] ∧ init.Sublist l' := by
  obtain ⟨l₁, l₂, rfl, h₁, h₂⟩ := List.sublist_append_iff.1 h
  rcases List.sublist_singleton.1 h₂ with rfl | rfl
  · exact .inl (by simpa using h₁)
  · exact .inr ⟨l₁, rfl, h₁⟩

/-- An entry that comes after a gap starts where the first one started. -/
theorem Laid.weighted_of_disjoint (h : Laid before) (hgap : Contiguous (before.map (·.cluster)))
    (hplaced : Placed (upOf before) wp)
    (hdisjoint : ∀ x ∈ before, ∀ draw, x.Has draw → ¬ wp.Has draw)
    {a b : Cluster} (hab : [a, b].Sublist (before.map (·.cluster))) (ha : a.Weighted)
    (hwp : wp.cluster.Weighted) :
    b.Weighted := by
  obtain ⟨x₀, hx₀, rfl⟩ := List.mem_map.1 (hab.subset (List.mem_cons_self ..))
  obtain ⟨x, hx, hxw, hfloor⟩ := h.exists_floor_eq_zero ⟨x₀, hx₀, ha⟩
  obtain ⟨up, -, hxp⟩ := h.placed hx
  have hone := hdisjoint x hx 1
  obtain ⟨hxfloor, hxceil, -⟩ := hxp.of_weighted hxw
  obtain ⟨hwfloor, hwceil, -⟩ := hplaced.of_weighted hwp
  have := hxw.1
  have := hwp.1
  induction before using List.reverseRecOn with
  | nil => cases hx
  | append_singleton init last _ =>
    obtain ⟨hinit, hlast⟩ := h.of_concat
    rw [upOf_concat hlast hinit.upOf_nonneg] at hwfloor hwceil
    rw [List.map_append, List.map_singleton] at hab hgap
    by_cases hlastw : last.cluster.Weighted
    · rcases sublist_concat_cases hab with hold | ⟨init', heq, -⟩
      · exact hgap _ _ _ (hold.append (List.Sublist.refl [last.cluster])) ha hlastw
      · obtain ⟨-, hb⟩ := List.append_inj' (show [x₀.cluster] ++ _ = _ from heq) rfl
        rw [List.singleton_inj.1 hb]
        exact hlastw
    · -- both entries have the draw 1
      rw [if_neg hlastw] at hwfloor hwceil
      unfold ClusterWrapper.Has at hone
      omega

theorem Laid.disjoint_iff (h : Laid rules) :
    Disjoint rules ↔ Contiguous (rules.map (·.cluster)) := by
  induction rules using List.reverseRecOn with
  | nil => exact ⟨fun _ a b c habc => absurd habc.length_le (by simp), fun _ => List.Pairwise.nil⟩
  | append_singleton before wp ih =>
    obtain ⟨hbefore, hplaced⟩ := h.of_concat
    rw [List.map_append, List.map_singleton, Disjoint, List.pairwise_append]
    constructor
    · rintro ⟨hdisjoint, -, hlast⟩ a b c habc ha hc
      have hgap := (ih hbefore).1 hdisjoint
      rcases sublist_concat_cases habc with hold | ⟨init, heq, hinit⟩
      · exact hgap a b c hold ha hc
      · obtain ⟨rfl, hc'⟩ := List.append_inj' (show [a, b] ++ _ = _ from heq) rfl
        rw [List.singleton_inj.1 hc'] at hc
        exact hbefore.weighted_of_disjoint hgap hplaced (fun x hx => hlast x hx wp (by simp)) hinit
          ha hc
    · intro hgap
      refine ⟨(ih hbefore).2 (contiguous_of_concat hgap), List.pairwise_singleton _ _,
        fun a ha x hx draw hhas hhas' => ?_⟩
      obtain rfl := List.mem_singleton.1 hx
      obtain ⟨up, -, hup⟩ := hbefore.placed ha
      by_cases haw : a.cluster.Weighted
      · by_cases hxw : x.cluster.Weighted
        · have hle := hbefore.ceil_le_upOf hgap hxw ha haw
          have hfloor := (hplaced.of_weighted hxw).1
          unfold ClusterWrapper.Has at hhas hhas'
          omega
        · exact not_has_of_not_weighted hplaced hxw draw hhas'
      · exact not_has_of_not_weighted hup haw draw hhas

/-- The draws that a rule has are as many as its weight. -/
theorem Placed.card_has {up : ℤ} (h : Placed up wp) (hup : 0 ≤ up) :
    (((Finset.Icc (1 : ℤ) 100).filter fun draw =>
      spiltWeight draw wp.weightFloor wp.weightCeil).card : ℤ) =
      if wp.cluster.Weighted then wp.cluster.canaryWeight else 0 := by
  by_cases hwp : wp.cluster.Weighted
  · obtain ⟨hfloor, hceil, hle⟩ := h.of_weighted hwp
    have hset :
        ((Finset.Icc (1 : ℤ) 100).filter fun draw => spiltWeight draw wp.weightFloor
          wp.weightCeil) =
        Finset.Ioc wp.weightFloor wp.weightCeil := by
      ext draw
      simp only [spiltWeight, Finset.mem_filter, Finset.mem_Icc, decide_eq_true_eq, Finset.mem_Ioc]
      omega
    have := hwp.1
    rw [hset, Int.card_Ioc, if_pos hwp]
    omega
  · rw [if_neg hwp, Finset.filter_false_of_mem, Finset.card_empty, Nat.cast_zero]
    intro draw _
    simpa [spiltWeight, ClusterWrapper.Has] using not_has_of_not_weighted h hwp draw

theorem share_cons {c : Cluster} {clusters : List Cluster} (name : String) :
    share (c :: clusters) name =
      (if c.name = name then (if c.Weighted then c.canaryWeight else 0) else 0) +
        share clusters name := by
  by_cases hname : c.name = name <;> by_cases hweighted : c.Weighted <;>
    simp [share, hname, hweighted]

/-- A cluster has no share exactly if no entry gives it a weight. -/
theorem share_eq_zero_iff {clusters : List Cluster} {name : String} :
    share clusters name = 0 ↔ ∀ c ∈ clusters, c.Weighted → c.name ≠ name := by
  have hnonneg : ∀ clusters, 0 ≤ share clusters name := by
    intro clusters
    refine List.sum_nonneg fun weight hweight => ?_
    obtain ⟨c, hc, rfl⟩ := List.mem_map.1 hweight
    exact (of_decide_eq_true (List.mem_filter.1 hc).2).1.1.le
  induction clusters with
  | nil => simp [share]
  | cons c clusters ih =>
    have := hnonneg clusters
    rw [share_cons, List.forall_mem_cons]
    refine Iff.trans ?_ (and_congr_right fun _ => ih)
    by_cases hname : c.name = name
    · by_cases hweighted : c.Weighted
      · have := hweighted.1
        simp only [hname, hweighted, if_true, ne_eq, not_true_eq_false, imp_false, false_and,
          iff_false]
        omega
      · simp [hname, hweighted]
    · simp [hname]

theorem weightRule?_cons (draw : ℤ) : weightRule? (wp :: rules) draw =
    if spiltWeight draw wp.weightFloor wp.weightCeil then some wp else weightRule? rules draw := by
  unfold weightRule?
  rw [List.find?_cons]
  cases spiltWeight draw wp.weightFloor wp.weightCeil <;> rfl

/-- In disjoint intervals every cluster gets its share of the draws. -/
theorem card_weightRule (hplaced : ∀ wp ∈ rules, ∃ up, 0 ≤ up ∧ Placed up wp)
    (hdisjoint : Disjoint rules)
    (name : String) :
    (((Finset.Icc (1 : ℤ) 100).filter fun draw =>
      (weightRule? rules draw).map (·.cluster.name) = some name).card : ℤ) =
        share (rules.map (·.cluster)) name := by
  induction rules with
  | nil => simp [weightRule?, share]
  | cons wp rules ih =>
    rw [List.map_cons, share_cons, ← ih (fun x hx => hplaced x (List.mem_cons_of_mem _ hx))
      hdisjoint.of_cons]
    obtain ⟨up, hup, hwp⟩ := hplaced wp (List.mem_cons_self ..)
    rw [← hwp.card_has hup]
    -- the draws of the first rule are in no other one
    have hnone : ∀ draw, spiltWeight draw wp.weightFloor wp.weightCeil = true →
        weightRule? rules draw = none := by
      intro draw hhas
      refine List.find?_eq_none.2 fun x hx => ?_
      simpa [spiltWeight, ClusterWrapper.Has] using
        (List.pairwise_cons.1 hdisjoint).1 x hx draw
          (by simpa [spiltWeight, ClusterWrapper.Has] using hhas)
    by_cases hname : wp.cluster.name = name
    · rw [if_pos hname, ← Nat.cast_add, ← Finset.card_union_of_disjoint, ← Finset.filter_or]
      · refine congrArg (fun s => (Finset.card s : ℤ)) (Finset.filter_congr fun draw _ => ?_)
        rw [weightRule?_cons]
        by_cases hhas : spiltWeight draw wp.weightFloor wp.weightCeil <;> simp [hhas, hname]
      · refine Finset.disjoint_filter.2 fun draw _ hhas hrest => ?_
        rw [hnone draw hhas] at hrest
        cases hrest
    · rw [if_neg hname, zero_add]
      refine congrArg (fun s => (Finset.card s : ℤ)) (Finset.filter_congr fun draw _ => ?_)
      rw [weightRule?_cons]
      by_cases hhas : spiltWeight draw wp.weightFloor wp.weightCeil
      · simp [hhas, hname, hnone draw hhas]
      · simp [hhas]

/-- The first entry that declares no header takes every request without one. -/
theorem headerRule?_of_empty {header : Option String} (hvalue : header.getD "" = "")
    (hheaders : ∀ wp ∈ rules, wp.header = wp.cluster.canaryByHeader) :
    (rules.map (·.cluster)).find? (·.canaryByHeader = "") =
      (headerRule? rules header).map (·.cluster) := by
  rw [List.find?_map, headerRule?]
  refine congrArg (Option.map _) (List.find?_congr fun wp hwp => ?_)
  simp only [Function.comp_apply, spiltHeader, hvalue, hheaders wp hwp]
  exact decide_eq_decide.2 eq_comm

theorem declares_of_headerRule? {header : Option String} (hvalue : header.getD "" ≠ "")
    (hheaders : ∀ wp ∈ rules, wp.header = wp.cluster.canaryByHeader)
    (hwp : headerRule? rules header = some wp) : Declares wp header := by
  have hspilt : header.getD "" = wp.header := by simpa [spiltHeader] using List.find?_some hwp
  rw [hheaders wp (List.mem_of_find?_eq_some hwp)] at hspilt
  cases header with
  | none => exact absurd rfl hvalue
  | some value => exact ⟨hspilt ▸ hvalue, congrArg some hspilt⟩

/-- Where a rule takes all draws, the shares are right exactly if all the traffic is its
cluster's. -/
theorem shares_of_headerRule {header : Option String} (hwp : headerRule? rules header = some wp)
    (hname : wp.cluster.name ≠ "") :
    (∀ name, (((Finset.Icc (1 : ℤ) 100).filter fun draw =>
        decode (some rules) header draw = some name).card : ℤ) =
          share (rules.map (·.cluster)) name) ↔
      share (rules.map (·.cluster)) wp.cluster.name = 100 ∧
        ∀ c ∈ rules.map (·.cluster), c.Weighted → c.name = wp.cluster.name := by
  have hcard : ∀ name, (((Finset.Icc (1 : ℤ) 100).filter fun draw =>
      decode (some rules) header draw = some name).card : ℤ) =
        if wp.cluster.name = name then 100 else 0 := by
    intro name
    have hdecode : ∀ draw, decode (some rules) header draw = some wp.cluster.name := by
      intro draw
      simp [decode, hwp, hname]
    by_cases heq : wp.cluster.name = name
    · simp [hdecode, heq]
    · simp [hdecode, heq]
  simp only [hcard]
  constructor
  · intro h
    refine ⟨by simpa using (h wp.cluster.name).symm, fun c hc hweighted => ?_⟩
    by_contra hne
    have hzero : share (rules.map (·.cluster)) c.name = 0 := by
      rw [← h c.name, if_neg (Ne.symm hne)]
    exact share_eq_zero_iff.1 hzero c hc hweighted rfl
  · rintro ⟨hall, honly⟩ name
    by_cases heq : wp.cluster.name = name
    · rw [if_pos heq, ← heq, hall]
    · rw [if_neg heq, eq_comm, share_eq_zero_iff]
      exact fun c hc hweighted hc' => heq (honly c hc hweighted ▸ hc')

/-- In disjoint intervals the shares of a request are right exactly if no entry without a header
takes it from the others. -/
theorem shares_iff_unswayed {header : Option String}
    (hplaced : ∀ wp ∈ rules, ∃ up, 0 ≤ up ∧ Placed up wp) (hdisjoint : Disjoint rules)
    (hheaders : ∀ wp ∈ rules, wp.header = wp.cluster.canaryByHeader) :
    ((∀ wp ∈ rules, ¬Declares wp header) → ∀ name,
      (((Finset.Icc (1 : ℤ) 100).filter fun draw =>
        decode (some rules) header draw = some name).card : ℤ) =
          share (rules.map (·.cluster)) name) ↔
      Unswayed (rules.map (·.cluster)) header := by
  have hweights : ((headerRule? rules header).map (·.cluster.name)).getD "" = "" → ∀ name,
      (((Finset.Icc (1 : ℤ) 100).filter fun draw =>
        decode (some rules) header draw = some name).card : ℤ) =
          share (rules.map (·.cluster)) name := by
    intro hnone name
    simp only [decode, hnone, ne_eq, not_true_eq_false, if_false]
    exact card_weightRule hplaced hdisjoint name
  by_cases hvalue : header.getD "" = ""
  · have hundeclared : ∀ wp ∈ rules, ¬Declares wp header := by
      rintro wp - ⟨hne, rfl⟩
      exact hne hvalue
    rw [forall_prop_of_true hundeclared, Unswayed, or_iff_right (not_not.2 hvalue),
      headerRule?_of_empty hvalue hheaders]
    cases hrule : headerRule? rules header with
    | none => exact iff_of_true (hweights (by simp [hrule])) (by simp)
    | some wp =>
      simp only [Option.map_some, Option.some.injEq, forall_eq']
      by_cases hname : wp.cluster.name = ""
      · exact iff_of_true (hweights (by simp [hrule, hname])) (Or.inl hname)
      · rw [or_iff_right hname]
        exact shares_of_headerRule hrule hname
  · refine iff_of_true (fun hundeclared => hweights ?_) (Or.inl hvalue)
    cases hrule : headerRule? rules header with
    | none => rfl
    | some wp =>
      exact absurd (declares_of_headerRule? hvalue hheaders hrule)
        (hundeclared wp (List.mem_of_find?_eq_some hrule))

end Intervals

/-- **The intervals of a router.**  They are a partition, and every cluster receives its share of
the requests with a header that no entry declares, exactly if no entry of the router without a
weight comes between two entries with one, and no entry without a header takes the requests from the
others. -/
theorem partitions_iff {traffics : List Cluster} {factory : FilterFactory}
    (hok : FilterFactory.apply traffics = .ok factory) (router : String) (header : Option String) :
    Partitions (factory.rulesMap router) header ↔
      Contiguous (traffics.filter (·.router = router)) ∧
        Unswayed (traffics.filter (·.router = router)) header := by
  have h := applied_of_apply hok
  have hlaid := h.laid router
  have hshares := fun hdisjoint => @shares_iff_unswayed _ header (fun wp hwp => hlaid.placed hwp)
    hdisjoint (h.header router)
  rw [← h.clusters, ← hlaid.disjoint_iff]
  constructor
  · intro hpart
    exact ⟨hpart.disjoint, (hshares hpart.disjoint).1 hpart.shares⟩
  · rintro ⟨hdisjoint, hunswayed⟩
    refine ⟨hdisjoint, ?_, ?_, (hshares hdisjoint).2 hunswayed⟩
    · intro wp hwp hweighted
      obtain ⟨up, hup, hplaced⟩ := hlaid.placed hwp
      obtain ⟨hfloor, -, hle⟩ := hplaced.of_weighted hweighted
      exact ⟨hfloor ▸ hup, hle⟩
    · intro wp hwp hweighted
      obtain ⟨up, -, hplaced⟩ := hlaid.placed hwp
      obtain ⟨hfloor, hceil, -⟩ := hplaced.of_weighted hweighted
      omega

namespace Sample

/-- An entry of the orders service. -/
def orders (name : String) (canaryWeight : ℤ) (canaryByHeader : String := "") : Cluster :=
  { name, router := "/orders", canaryByHeader, canaryWeight }

/-- A canary by header between two versions that share the traffic. -/
def headerBetween : List Cluster := [orders "v1" 60, orders "canary" 0 "beta", orders "v2" 40]

/-- Two versions and no gap. -/
def twoVersions : List Cluster := [orders "v1" 60, orders "v2" 40]

end Sample

/-- Two versions, each of which declares a header. -/
def Sample.declared : List Cluster := [orders "v1" 60 "stable", orders "v2" 40 "beta"]

/-- Requests without a header, or with another one, are shared out by the weights. -/
theorem partitions_iff_declared : ∃ factory, FilterFactory.apply Sample.declared = .ok factory ∧
    Partitions (factory.rulesMap "/orders") none ∧
      Partitions (factory.rulesMap "/orders") (some "gamma") := by
  have hok : FilterFactory.apply Sample.declared = .ok _ := rfl
  have hcontiguous : Contiguous (Sample.declared.filter (·.router = "/orders")) := by
    intro a b c habc
    exact absurd habc.length_le (by simp [Sample.declared, Sample.orders])
  exact ⟨_, hok, (partitions_iff hok "/orders" none).2
    ⟨hcontiguous, Or.inr (by simp [Sample.declared, Sample.orders])⟩,
    (partitions_iff hok "/orders" (some "gamma")).2 ⟨hcontiguous, Or.inl (by decide)⟩⟩

/-- The second version starts at zero again: a draw of 1 is in both intervals.  And without a gap
all requests without a header go to the first version. -/
theorem not_partitions_headerBetween :
    (∃ factory, FilterFactory.apply Sample.headerBetween = .ok factory ∧
      ∀ header, ¬Partitions (factory.rulesMap "/orders") header) ∧
    ∃ factory, FilterFactory.apply Sample.twoVersions = .ok factory ∧
      ¬Partitions (factory.rulesMap "/orders") none := by
  constructor
  · refine ⟨_, rfl, fun header hpart => ?_⟩
    have hpair := (List.pairwise_cons.1 hpart.disjoint).1
    exact hpair ⟨40, 0, "", Sample.orders "v2" 40⟩ (by decide) 1 ⟨by decide, by decide⟩
      ⟨by decide, by decide⟩
  · refine ⟨_, rfl, fun hpart => ?_⟩
    have hshare := hpart.shares (by rintro wp - ⟨-, hheader⟩; cases hheader) "v2"
    revert hshare
    decide +kernel

/-! ## Canary headers -/

/-- A cluster is chosen by header only where its rule declares the value, and a request whose value
nobody declares is assigned by the intervals alone. -/
def DeclaredOnly (rules : List ClusterWrapper) (header : Option String) : Prop :=
  (∀ wp, headerRule? rules header = some wp → wp.cluster.name ≠ "" → Declares wp header) ∧
    ((∀ wp ∈ rules, ¬ Declares wp header) → ∀ draw,
      decode (some rules) header draw = (weightRule? rules draw).map (·.cluster.name))

/-- **Canary headers.**  They apply only where they are declared, exactly if the request carries a
header that is not empty, or the first entry that declares none, if there is one, has no name. -/
theorem declaredOnly_iff {traffics : List Cluster} {factory : FilterFactory}
    (hok : FilterFactory.apply traffics = .ok factory) (router : String) (header : Option String) :
    DeclaredOnly (factory.rulesMap router) header ↔
      (header.getD "" ≠ "" ∨
        ∀ cluster, (traffics.filter (·.router = router)).find? (·.canaryByHeader = "") =
          some cluster →
          cluster.name = "") := by
  have h := applied_of_apply hok
  rw [← h.clusters]
  have hheaders := h.header router
  generalize factory.rulesMap router = rules at hheaders ⊢
  by_cases hvalue : header.getD "" = ""
  · -- the header pass stops at the first entry that declares no header
    rw [headerRule?_of_empty hvalue hheaders, or_iff_right (not_not.2 hvalue)]
    constructor
    · intro hdeclared cluster hcluster
      by_contra hname
      obtain ⟨wp, hwp, rfl⟩ := Option.map_eq_some_iff.1 hcluster
      obtain ⟨hne, hheader⟩ := hdeclared.1 wp hwp hname
      rw [hheader, Option.getD_some] at hvalue
      exact hne hvalue
    · intro hnameless
      refine ⟨fun wp hwp hname => absurd (hnameless wp.cluster (by rw [hwp, Option.map_some]))
        hname, fun _ draw => ?_⟩
      cases hrule : headerRule? rules header with
      | none => simp [decode, hrule]
      | some wp => simp [decode, hrule, hnameless wp.cluster (by rw [hrule, Option.map_some])]
  · rw [iff_true_right (.inl hvalue)]
    refine ⟨fun wp hwp _ => declares_of_headerRule? hvalue hheaders hwp, fun hnone draw => ?_⟩
    cases hrule : headerRule? rules header with
    | none => simp [decode, hrule]
    | some wp =>
      exact absurd (declares_of_headerRule? hvalue hheaders hrule)
        (hnone wp (List.mem_of_find?_eq_some hrule))

theorem declaredOnly_iff_beta : ∃ factory, FilterFactory.apply Sample.headerBetween = .ok factory ∧
    DeclaredOnly (factory.rulesMap "/orders") (some "beta") := by
  have hok : FilterFactory.apply Sample.headerBetween = .ok _ := rfl
  exact ⟨_, hok, (declaredOnly_iff hok "/orders" (some "beta")).2 (.inl (by decide))⟩

/-- Without the header every request goes to the first version, whatever the weights are. -/
theorem not_declaredOnly_twoVersions :
    ∃ factory, FilterFactory.apply Sample.twoVersions = .ok factory ∧
    ¬ DeclaredOnly (factory.rulesMap "/orders") none ∧
      ∀ draw, decode (some (factory.rulesMap "/orders")) none draw = some "v1" := by
  refine ⟨_, rfl, fun hdeclared => ?_, fun draw => rfl⟩
  have hnone := (hdeclared.1 ⟨60, 0, "", Sample.orders "v1" 60⟩ (by decide) (by decide)).2
  cases hnone

/-! ## Prefixes -/

/-- An order in which the routers may be ranged over. -/
def FilterFactory.Ranges (factory : FilterFactory) (order : List String) : Prop :=
  order.Nodup ∧ ∀ key, key ∈ order ↔ factory.rulesMap key ≠ []

/-- The rules of the longest router that is a prefix of the path. -/
def FilterFactory.Longest (factory : FilterFactory) (path : String)
    (rules : Option (List ClusterWrapper)) : Prop :=
  (rules = none ∧ ∀ key, factory.rulesMap key ≠ [] → ¬ key.toList <+: path.toList) ∨
    ∃ key, factory.rulesMap key ≠ [] ∧ key.toList <+: path.toList ∧
      rules = some (factory.rulesMap key) ∧
      ∀ key', factory.rulesMap key' ≠ [] → key'.toList <+: path.toList → key'.length ≤ key.length

/-- Every order picks the rules of the longest prefix. -/
def FilterFactory.PicksLongest (factory : FilterFactory) (path : String) : Prop :=
  ∃ rules, factory.Longest path rules ∧ ∀ order, factory.Ranges order →
    factory.rulesMatch order path = rules

section Prefixes

variable {factory : FilterFactory} {traffics : List Cluster} {path : String}

theorem Applied.mem_routers (h : Applied factory traffics) {key : String} :
    factory.rulesMap key ≠ [] ↔ ∃ cluster ∈ traffics, cluster.router = key := by
  rw [← List.isEmpty_eq_false_iff, ← List.isEmpty_map (f := fun wp : ClusterWrapper => wp.cluster),
    h.clusters,
    List.isEmpty_eq_false_iff_exists_mem]
  simp

/-- Any router may be ranged over first. -/
theorem Applied.exists_ranges (h : Applied factory traffics) {key : String}
    (hkey : factory.rulesMap key ≠ []) :
    ∃ order, factory.Ranges (key :: order) := by
  refine ⟨(traffics.map (·.router)).dedup.erase key, ?_, fun key' => ?_⟩
  · exact List.nodup_cons.2 ⟨(List.nodup_dedup _).not_mem_erase, (List.nodup_dedup _).erase _⟩
  · rw [List.mem_cons, (List.nodup_dedup _).mem_erase_iff, List.mem_dedup, h.mem_routers,
      List.mem_map]
    by_cases heq : key' = key
    · simpa [heq] using h.mem_routers.1 hkey
    · simp [heq]

theorem rulesMatch_cons {key : String} {order : List String} (hpre : key.toList <+: path.toList) :
    factory.rulesMatch (key :: order) path = some (factory.rulesMap key) := by
  simp [FilterFactory.rulesMatch, List.isPrefixOf_iff_prefix.2 hpre]

/-- Where two routers are prefixes, an order with the one and an order with the other first
differ. -/
theorem Applied.router_unique (h : Applied factory traffics) (hpicks : factory.PicksLongest path)
    {a b : Cluster}
    (ha : a ∈ traffics) (hb : b ∈ traffics) (hapre : a.router.toList <+: path.toList)
    (hbpre : b.router.toList <+: path.toList) : a.router = b.router := by
  obtain ⟨rules, -, hpicks⟩ := hpicks
  have hmatch : ∀ c ∈ traffics, c.router.toList <+: path.toList →
      some (factory.rulesMap c.router) = rules := by
    intro c hc hpre
    obtain ⟨order, horder⟩ := h.exists_ranges (h.mem_routers.2 ⟨c, hc, rfl⟩)
    rw [← hpicks _ horder, rulesMatch_cons hpre]
  have heq := Option.some.inj ((hmatch a ha hapre).trans (hmatch b hb hbpre).symm)
  -- the rules of a router carry its name
  have hclusters := congrArg (List.map (·.cluster)) heq
  rw [h.clusters, h.clusters] at hclusters
  have hmem : a ∈ traffics.filter (·.router = b.router) :=
    hclusters ▸ List.mem_filter.2 ⟨ha, by simp⟩
  simpa using (List.mem_filter.1 hmem).2

end Prefixes

/-- **The rules of a URI.**  They are those of the longest prefix in every order, exactly if no two
different routers are prefixes of it. -/
theorem picksLongest_iff {traffics : List Cluster} {factory : FilterFactory}
    (hok : FilterFactory.apply traffics = .ok factory) (path : String) :
    factory.PicksLongest path ↔
      ∀ a ∈ traffics, ∀ b ∈ traffics, a.router.toList <+: path.toList →
      b.router.toList <+: path.toList →
        a.router = b.router := by
  have h := applied_of_apply hok
  constructor
  · intro hpicks a ha b hb hapre hbpre
    exact h.router_unique hpicks ha hb hapre hbpre
  · intro hunique
    by_cases hsome : ∃ a ∈ traffics, a.router.toList <+: path.toList
    · obtain ⟨a, ha, hapre⟩ := hsome
      refine ⟨some (factory.rulesMap a.router),
        .inr ⟨a.router, h.mem_routers.2 ⟨a, ha, rfl⟩, hapre, rfl, ?_⟩, ?_⟩
      · intro key hkey hpre
        obtain ⟨b, hb, rfl⟩ := h.mem_routers.1 hkey
        rw [hunique b hb a ha hpre hapre]
      · intro order horder
        have hmem : a.router ∈ order := (horder.2 _).2 (h.mem_routers.2 ⟨a, ha, rfl⟩)
        cases hfind : order.find? fun key => key.toList.isPrefixOf path.toList with
        | none =>
          exact absurd (List.isPrefixOf_iff_prefix.2 hapre) (List.find?_eq_none.1 hfind _ hmem)
        | some key =>
          have hfound := List.find?_some hfind
          have hpre := List.isPrefixOf_iff_prefix.1 hfound
          obtain ⟨b, hb, rfl⟩ := h.mem_routers.1 ((horder.2 _).1 (List.mem_of_find?_eq_some hfind))
          rw [FilterFactory.rulesMatch, hfind, hunique b hb a ha hpre hapre, Option.map_some]
    · push Not at hsome
      have hnone : ∀ key, factory.rulesMap key ≠ [] → ¬ key.toList <+: path.toList := by
        intro key hkey
        obtain ⟨a, ha, rfl⟩ := h.mem_routers.1 hkey
        exact hsome a ha
      refine ⟨none, .inl ⟨rfl, hnone⟩, fun order horder => ?_⟩
      rw [FilterFactory.rulesMatch, List.find?_eq_none.2, Option.map_none]
      intro key hkey hpre
      exact hnone key ((horder.2 key).1 hkey) (List.isPrefixOf_iff_prefix.1 hpre)

namespace Sample

/-- An entry of a longer path. -/
def archive : Cluster := { orders "old" 100 with router := "/orders/archive" }

/-- The orders service and its archive. -/
def nested : List Cluster := [orders "v1" 100, archive]

end Sample

theorem picksLongest_iff_nested : ∃ factory, FilterFactory.apply Sample.nested = .ok factory ∧
    factory.PicksLongest "/orders/7" := by
  have hok : FilterFactory.apply Sample.nested = .ok _ := rfl
  exact ⟨_, hok, (picksLongest_iff hok "/orders/7").2 (by decide)⟩

/-- Which cluster gets a request for the archive is up to the order of the map. -/
theorem not_picksLongest_nested : ∃ factory, FilterFactory.apply Sample.nested = .ok factory ∧
    ¬ factory.PicksLongest "/orders/archive/7" := by
  have hok : FilterFactory.apply Sample.nested = .ok _ := rfl
  refine ⟨_, hok, fun hpicks => ?_⟩
  have hsame :=
    (applied_of_apply hok).router_unique (a := Sample.orders "v1" 100) (b := Sample.archive) hpicks
    (by decide) (by decide) (by decide) (by decide)
  exact absurd hsame (by decide)

end Pixiu.Traffic
