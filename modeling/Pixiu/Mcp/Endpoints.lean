import Pixiu.Base.System
import Pixiu.Base.Writes
import Pixiu.Mcp.Catalog

/-!
# Endpoints of dynamic tools

`endpointReconciler` keeps, for each source, the endpoints it has published for the tools of its
last config.  A new config is compared with them, and the difference is written to the cluster
manager: endpoints that are gone are deleted, then the new and the changed ones are set.

The cluster manager is a map from cluster and endpoint ID to an address.  The orders in which Go
ranges over its maps and the parser of backend URLs are parameters.

`endpoints_follow_tools`: in a run whose configs never give two live tools the same cluster and
endpoint ID, the map holds exactly the endpoints of the tools of the latest configs.  Endpoint IDs
replace every character that is not plain by an underscore, so that the two tools of
`endpoint_of_colliding_tools` share one.
-/

namespace Pixiu.Mcp

/-- The two fields of a socket address that a backend URL sets. -/
structure HostPort where
  host : String
  port : ℤ
  deriving DecidableEq, Repr

/-- `publishedEndpoint`. -/
structure PublishedEndpoint where
  clusterName : String
  endpointID : String
  address : HostPort
  deriving DecidableEq, Repr

/-- Where the cluster manager keeps an endpoint: its cluster, and its ID in it. -/
abbrev SinkKey := String × String

/-- Where an endpoint is kept. -/
def PublishedEndpoint.key (endpoint : PublishedEndpoint) : SinkKey :=
  (endpoint.clusterName, endpoint.endpointID)

/-- Why endpoints are refused. -/
inductive EndpointError where
  | emptyName (index : ℕ)
  | duplicateTool (name : String)
  | parseBackendURL (url name err : String)
  deriving DecidableEq, Repr

/-- The text of an error, where `q` quotes a string. -/
def EndpointError.text (q : String → String) : EndpointError → String
  | .emptyName index => s!"mcp endpoint reconcile tool at index {index} has empty name"
  | .duplicateTool name => s!"mcp endpoint reconcile duplicate tool {q name}"
  | .parseBackendURL url name err => s!"parse BackendURL {q url} for tool {q name}: {err}"

/-- `sanitizeEndpointIDPart`. -/
def sanitizeEndpointIDPart (value : String) : String :=
  if value = "" then "_"
  else String.ofList (value.toList.map fun c => if ServerSource.plainChar c then c else '_')

/-- `stableEndpointID`. -/
def stableEndpointID (source : ServerSource) (toolName : String) : String :=
  "mcp/" ++ source.normalize.key ++ "/" ++ sanitizeEndpointIDPart toolName

section

variable (parseHostPortFromURL : String → Except String HostPort)

/-- The endpoint of a tool whose URL has been parsed. -/
def endpointOf (source : ServerSource) (tool : ToolConfig) (address : HostPort) :
    PublishedEndpoint where
  clusterName := tool.cluster
  endpointID := stableEndpointID source (Text.trimSpace tool.name)
  address := address

/-- The loop over the tools from index `i` on, with the endpoints found before. -/
def desiredFrom (source : ServerSource) :
    List ToolConfig → ℕ → FinMap String PublishedEndpoint →
      Except EndpointError (FinMap String PublishedEndpoint)
  | [], _, desired => .ok desired
  | tool :: tools, i, desired =>
    if tool.backendURL = "" then desiredFrom source tools (i + 1) desired
    else
      let name := Text.trimSpace tool.name
      if name = "" then .error (.emptyName i)
      else if (desired.lookup name).isSome then .error (.duplicateTool name)
      else match parseHostPortFromURL tool.backendURL with
        | .error err => .error (.parseBackendURL tool.backendURL tool.name err)
        | .ok address =>
          desiredFrom source tools (i + 1) (desired.insert name (endpointOf source tool address))

/-- `buildDesiredEndpoints`. -/
def buildDesiredEndpoints (source : ServerSource) :
    Option McpServerConfig → Except EndpointError (FinMap String PublishedEndpoint)
  | none => .ok .empty
  | some cfg => desiredFrom parseHostPortFromURL source.normalize cfg.tools 0 .empty

end

/-! ## The reconciler -/

/-- What the reconciler has published, and the map of the cluster manager. -/
structure EndpointReconciler where
  published : FinMap ServerSource (FinMap String PublishedEndpoint)
  sink : SinkKey → Option HostPort

namespace EndpointReconciler

/-- `newEndpointReconciler`. -/
def newEndpointReconciler : EndpointReconciler := ⟨.empty, fun _ => none⟩

/-- The first loop of `ApplyPlan`: the endpoints of tools that are gone or have moved. -/
def deletions (previous desired : FinMap String PublishedEndpoint) (order : List String) :
    List (Write SinkKey HostPort) :=
  order.filterMap fun toolName => (previous.lookup toolName).bind fun old =>
    if (desired.lookup toolName).any (·.key = old.key) then none else some (.del old.key)

/-- The second loop of `ApplyPlan`: the endpoints that are not published as they are desired. -/
def settings (previous desired : FinMap String PublishedEndpoint) (order : List String) :
    List (Write SinkKey HostPort) :=
  order.filterMap fun toolName => (desired.lookup toolName).bind fun next =>
    if previous.lookup toolName = some next then none else some (.put next.key next.address)

/-- A plan: its source, and the endpoints desired for the tools of it. -/
structure EndpointReconcilePlan where
  source : ServerSource
  desired : FinMap String PublishedEndpoint

/-- The endpoints that a source has now. -/
def publishedBy (r : EndpointReconciler) (source : ServerSource) :
    FinMap String PublishedEndpoint :=
  (r.published.lookup source).getD .empty

variable (parseHostPortFromURL : String → Except String HostPort) (r : EndpointReconciler)

/-- `PrepareServerConfig`. -/
def prepareServerConfig (source : ServerSource) (cfg : Option McpServerConfig) :
    Except EndpointError EndpointReconcilePlan :=
  (buildDesiredEndpoints parseHostPortFromURL source.normalize cfg).map fun desired =>
    ⟨source.normalize, desired⟩

/-- The maps are ranged over in the orders given, `none` where these are not orders of them. -/
def applyPlan (plan : EndpointReconcilePlan) (previousOrder desiredOrder : List String) :
    Option EndpointReconciler :=
  let source := plan.source.normalize
  let previous := r.publishedBy source
  if previous.Ranges previousOrder ∧ plan.desired.Ranges desiredOrder then
    some {
      published :=
        if plan.desired.size = 0 then
          r.published.erase source else r.published.insert source plan.desired
      sink := Write.applyAll r.sink
        (deletions previous plan.desired previousOrder ++
          settings previous plan.desired desiredOrder) }
  else none

/-- `ApplyServerConfig`. -/
def applyServerConfig (source : ServerSource) (cfg : Option McpServerConfig)
    (previousOrder desiredOrder : List String) : Option EndpointReconciler :=
  match prepareServerConfig parseHostPortFromURL source cfg with
  | .error _ => some r
  | .ok plan => r.applyPlan plan previousOrder desiredOrder

/-- `RemoveSource`. -/
def removeSource (source : ServerSource) (previousOrder : List String) :
    Option EndpointReconciler :=
  r.applyServerConfig parseHostPortFromURL source none previousOrder []

/-- The sources are visited in the order given, and the tools of each in the order given with it. -/
def removeAll (order : List (ServerSource × List String)) : Option EndpointReconciler :=
  if r.published.Ranges (order.map Prod.fst) ∧
    ∀ visited ∈ order, (r.publishedBy visited.1).Ranges visited.2 then
    some {
      published := .empty
      sink :=
        Write.applyAll r.sink
          (order.flatMap fun visited => deletions (r.publishedBy visited.1) .empty visited.2) }
  else none

/-- The calls.  A plan is applied right after it was prepared, and not at all when that fails. -/
inductive Operation where
  | applyServerConfig (source : ServerSource) (cfg : McpServerConfig)
      (previousOrder desiredOrder : List String)
  | removeSource (source : ServerSource) (previousOrder : List String)
  | removeAll (order : List (ServerSource × List String))

/-- One call. -/
def step : Operation → Option EndpointReconciler
  | .applyServerConfig source cfg previousOrder desiredOrder =>
    r.applyServerConfig parseHostPortFromURL source (some cfg) previousOrder desiredOrder
  | .removeSource source previousOrder => r.removeSource parseHostPortFromURL source previousOrder
  | .removeAll order => r.removeAll order

/-- The state after some calls, if they can be made. -/
def run (operations : List Operation) : Option EndpointReconciler :=
  operations.foldlM (step parseHostPortFromURL) r

/-! ## What the endpoints should be -/

/-- The latest config of each live source, after one more was applied; a config that cannot be
prepared is not. -/
def latestAfter (configs : ServerSource → Option McpServerConfig) (source : ServerSource)
    (cfg : Option McpServerConfig) : ServerSource → Option McpServerConfig :=
  match buildDesiredEndpoints parseHostPortFromURL source cfg with
  | .error _ => configs
  | .ok _ => Function.update configs source.normalize cfg

/-- The latest configs after one more call. -/
def Operation.latest (configs : ServerSource → Option McpServerConfig) :
    Operation → ServerSource → Option McpServerConfig
  | .applyServerConfig source cfg _ _ => latestAfter parseHostPortFromURL configs source (some cfg)
  | .removeSource source _ => latestAfter parseHostPortFromURL configs source none
  | .removeAll _ => fun _ => none

/-- The latest configs after a sequence of calls. -/
def latestConfigs (operations : List Operation) : ServerSource → Option McpServerConfig :=
  operations.foldl (Operation.latest parseHostPortFromURL) fun _ => none

/-- A tool of a config that has a backend. -/
def Routed (cfg : Option McpServerConfig) (tool : ToolConfig) : Prop :=
  ∃ c, cfg = some c ∧ tool ∈ c.tools ∧ tool.backendURL ≠ ""

/-- Where the endpoint of a tool belongs. -/
def keyOf (source : ServerSource) (tool : ToolConfig) : SinkKey :=
  (tool.cluster, stableEndpointID source (Text.trimSpace tool.name))

/-- A config gives different tools different clusters or endpoint IDs, and none that a tool of
another live source has. -/
def Distinct (configs : ServerSource → Option McpServerConfig) (source : ServerSource)
    (cfg : Option McpServerConfig) : Prop :=
  ∀ tool, Routed cfg tool →
    (∀ tool', Routed cfg tool' → keyOf source tool' = keyOf source tool → tool' = tool) ∧
    ∀ source', source' ≠ source.normalize → ∀ tool', Routed (configs source') tool' →
      keyOf source' tool' ≠ keyOf source tool

/-- The call applies a distinct config, or it applies none. -/
def Operation.Distinct (configs : ServerSource → Option McpServerConfig) : Operation → Prop
  | .applyServerConfig source cfg _ _ => EndpointReconciler.Distinct configs source (some cfg)
  | _ => True

variable {parseHostPortFromURL r}

@[simp] theorem not_routed_none (tool : ToolConfig) : ¬ Routed none tool := nofun

@[simp] theorem routed_some {cfg : McpServerConfig} {tool : ToolConfig} :
    Routed (some cfg) tool ↔ tool ∈ cfg.tools ∧ tool.backendURL ≠ "" := by
  simp [Routed]

/-! ## The desired endpoints of a config -/

theorem keyOf_normalize (source : ServerSource) (tool : ToolConfig) :
    keyOf source.normalize tool = keyOf source tool := by
  simp [keyOf, stableEndpointID]

theorem key_endpointOf (source : ServerSource) (tool : ToolConfig) (address : HostPort) :
    (endpointOf source tool address).key = keyOf source tool := rfl

/-- The loop adds the endpoints of the tools that have a backend. -/
theorem lookup_desiredFrom {source : ServerSource} {tools : List ToolConfig} {i : ℕ}
    {found desired : FinMap String PublishedEndpoint}
    (h : desiredFrom parseHostPortFromURL source tools i found = .ok desired) (name : String)
    (endpoint : PublishedEndpoint) :
    desired.lookup name = some endpoint ↔ found.lookup name = some endpoint ∨
      ∃ tool ∈ tools, tool.backendURL ≠ "" ∧ Text.trimSpace tool.name = name ∧
        ∃ address, parseHostPortFromURL tool.backendURL = .ok address ∧
          endpointOf source tool address = endpoint := by
  induction tools generalizing i found with
  | nil =>
    obtain rfl : found = desired := by simpa [desiredFrom] using h
    simp
  | cons tool tools ih =>
    simp only [desiredFrom] at h
    split_ifs at h with hurl hname htaken
    · rw [ih h, List.exists_mem_cons_iff]
      simp [hurl]
    · split at h
      · cases h
      · next address hparse =>
        rw [ih h, List.exists_mem_cons_iff, FinMap.lookup_insert]
        have hfree : found.lookup (Text.trimSpace tool.name) = none := by simpa using htaken
        rcases eq_or_ne name (Text.trimSpace tool.name) with rfl | hne
        · simp [hurl, hfree, hparse]
        · simp [hne, hne.symm]

/-- The endpoints desired for a config are those of its tools that have a backend. -/
theorem lookup_buildDesiredEndpoints {source : ServerSource} {cfg : Option McpServerConfig}
    {desired : FinMap String PublishedEndpoint}
    (h : buildDesiredEndpoints parseHostPortFromURL source cfg = .ok desired) (name : String)
    (endpoint : PublishedEndpoint) :
    desired.lookup name = some endpoint ↔ ∃ tool, Routed cfg tool ∧
      Text.trimSpace tool.name = name ∧
      ∃ address, parseHostPortFromURL tool.backendURL = .ok address ∧
        endpointOf source.normalize tool address = endpoint := by
  cases cfg with
  | none =>
    obtain rfl : FinMap.empty = desired := by simpa [buildDesiredEndpoints] using h
    simp
  | some cfg =>
    rw [lookup_desiredFrom h]
    simp only [FinMap.lookup_empty, reduceCtorEq, false_or, routed_some, and_assoc]

/-! ## The writes of a plan -/

theorem mem_deletions {previous desired : FinMap String PublishedEndpoint} {order : List String}
    (horder : previous.Ranges order) {write : Write SinkKey HostPort} :
    write ∈ deletions previous desired order ↔ ∃ toolName old, previous.lookup toolName = some old ∧
      (∀ next, desired.lookup toolName = some next → next.key ≠ old.key) ∧
      write = .del old.key := by
  simp only [deletions, List.mem_filterMap, Option.bind_eq_some_iff]
  constructor
  · rintro ⟨toolName, -, old, hold, hwrite⟩
    split_ifs at hwrite with hkept
    refine ⟨toolName, old, hold, fun next hnext hkey => hkept ?_, (Option.some.inj hwrite).symm⟩
    simp [hnext, hkey]
  · rintro ⟨toolName, old, hold, hmoved, rfl⟩
    refine ⟨toolName, horder.mem_iff.2 ⟨old, hold⟩, old, hold, if_neg fun hkept => ?_⟩
    obtain ⟨next, hnext, hkey⟩ : ∃ next, desired.lookup toolName = some next ∧
        next.key = old.key := by
      simpa [Option.any_eq_true] using hkept
    exact hmoved next hnext hkey

theorem mem_settings {previous desired : FinMap String PublishedEndpoint} {order : List String}
    (horder : desired.Ranges order) {write : Write SinkKey HostPort} :
    write ∈ settings previous desired order ↔ ∃ toolName next, desired.lookup toolName = some next ∧
      previous.lookup toolName ≠ some next ∧ write = .put next.key next.address := by
  simp only [settings, List.mem_filterMap, Option.bind_eq_some_iff]
  constructor
  · rintro ⟨toolName, -, next, hnext, hwrite⟩
    split_ifs at hwrite with hsame
    exact ⟨toolName, next, hnext, hsame, (Option.some.inj hwrite).symm⟩
  · rintro ⟨toolName, next, hnext, hsame, rfl⟩
    exact ⟨toolName, horder.mem_iff.2 ⟨next, hnext⟩, next, hnext, if_neg hsame⟩

/-- No two tools have an endpoint with the same key. -/
def KeysDiffer (endpoints : FinMap String PublishedEndpoint) : Prop :=
  ∀ toolName endpoint toolName' endpoint', endpoints.lookup toolName = some endpoint →
    endpoints.lookup toolName' = some endpoint' → endpoint.key = endpoint'.key →
      toolName = toolName'

section Plan

variable {previous desired : FinMap String PublishedEndpoint}
  {previousOrder desiredOrder : List String}
  {sink : SinkKey → Option HostPort} {k : SinkKey} {toolName : String}

/-- A desired endpoint is there afterwards. -/
theorem sink_of_desired (hprevious : previous.Ranges previousOrder)
    (hdesired : desired.Ranges desiredOrder)
    (hdiffer : KeysDiffer desired) (hdiffer' : KeysDiffer previous) {next : PublishedEndpoint}
    (hsink : previous.lookup toolName = some next → sink next.key = some next.address)
    (hnext : desired.lookup toolName = some next) :
    Write.applyAll sink
      (deletions previous desired previousOrder ++ settings previous desired desiredOrder)
      next.key = some next.address := by
  rw [Write.applyAll_append]
  by_cases hsame : previous.lookup toolName = some next
  -- an endpoint that is published already is neither set nor deleted
  · rw [Write.applyAll_of_forall_ne, Write.applyAll_of_forall_ne, hsink hsame]
    · intro write hwrite hkey
      obtain ⟨toolName', old, hold, hmoved, rfl⟩ := (mem_deletions hprevious).1 hwrite
      obtain rfl : toolName' = toolName := hdiffer' _ _ _ _ hold hsame hkey
      rw [hsame] at hold
      exact hmoved next hnext (congrArg _ (Option.some.inj hold))
    · intro write hwrite hkey
      obtain ⟨toolName', next', hnext', hchanged, rfl⟩ := (mem_settings hdesired).1 hwrite
      obtain rfl : toolName' = toolName := hdiffer _ _ _ _ hnext' hnext hkey
      rw [hnext] at hnext'
      exact hchanged (hsame.trans hnext')
  · refine Write.applyAll_of_forall_eq ?_
      ⟨_, (mem_settings hdesired).2 ⟨toolName, next, hnext, hsame, rfl⟩, rfl⟩
    intro write hwrite hkey
    obtain ⟨toolName', next', hnext', -, rfl⟩ := (mem_settings hdesired).1 hwrite
    obtain rfl : toolName' = toolName := hdiffer _ _ _ _ hnext' hnext hkey
    rw [hnext] at hnext'
    rw [← Option.some.inj hnext']
    rfl

theorem settings_target_ne (hdesired : desired.Ranges desiredOrder)
    (hnone : ∀ toolName next, desired.lookup toolName = some next → next.key ≠ k) :
    ∀ write ∈ settings previous desired desiredOrder, write.target ≠ k := by
  intro write hwrite
  obtain ⟨toolName, next, hnext, -, rfl⟩ := (mem_settings hdesired).1 hwrite
  exact hnone toolName next hnext

/-- An endpoint that is not desired any more is gone afterwards. -/
theorem sink_of_previous (hprevious : previous.Ranges previousOrder)
    (hdesired : desired.Ranges desiredOrder)
    {old : PublishedEndpoint} (hold : previous.lookup toolName = some old)
    (hnone : ∀ toolName next, desired.lookup toolName = some next → next.key ≠ old.key) :
    Write.applyAll sink
      (deletions previous desired previousOrder ++ settings previous desired desiredOrder)
      old.key = none := by
  rw [Write.applyAll_append, Write.applyAll_of_forall_ne (settings_target_ne hdesired hnone)]
  refine Write.applyAll_of_forall_eq ?_
    ⟨_, (mem_deletions hprevious).2 ⟨toolName, old, hold, hnone _, rfl⟩, rfl⟩
  intro write hwrite _
  obtain ⟨-, -, -, -, rfl⟩ := (mem_deletions hprevious).1 hwrite
  rfl

/-- Other endpoints stay as they are. -/
theorem sink_of_other (hprevious : previous.Ranges previousOrder)
    (hdesired : desired.Ranges desiredOrder)
    (hnone : ∀ toolName next, desired.lookup toolName = some next → next.key ≠ k)
    (hnone' : ∀ toolName old, previous.lookup toolName = some old → old.key ≠ k) :
    Write.applyAll sink
      (deletions previous desired previousOrder ++ settings previous desired desiredOrder) k =
      sink k := by
  rw [Write.applyAll_append, Write.applyAll_of_forall_ne (settings_target_ne hdesired hnone),
    Write.applyAll_of_forall_ne]
  intro write hwrite
  obtain ⟨toolName, old, hold, -, rfl⟩ := (mem_deletions hprevious).1 hwrite
  exact hnone' toolName old hold

end Plan

/-! ## The reconciler and its sink -/

/-- The sink holds exactly the published endpoints, and no two of them share a key. -/
structure Mirrored (r : EndpointReconciler) : Prop where
  owner : ∀ source toolName endpoint source' toolName' endpoint',
    (r.publishedBy source).lookup toolName = some endpoint →
    (r.publishedBy source').lookup toolName' = some endpoint' → endpoint.key = endpoint'.key →
    source = source' ∧ toolName = toolName'
  sink : ∀ k address, r.sink k = some address ↔ ∃ source toolName endpoint,
    (r.publishedBy source).lookup toolName = some endpoint ∧ endpoint.key = k ∧
      endpoint.address = address

theorem Mirrored.keysDiffer (h : r.Mirrored) (source : ServerSource) :
    KeysDiffer (r.publishedBy source) :=
  fun _ _ _ _ hlookup hlookup' hkey => (h.owner _ _ _ _ _ _ hlookup hlookup' hkey).2

theorem mirrored_newEndpointReconciler : newEndpointReconciler.Mirrored where
  owner := by
    intro _ _ _ _ _ _ hlookup
    cases hlookup
  sink := by
    intro k address
    simp [newEndpointReconciler, publishedBy]

section ApplyPlan

variable {r' : EndpointReconciler} {plan : EndpointReconcilePlan}
  {previousOrder desiredOrder : List String}

theorem publishedBy_applyPlan (happly : r.applyPlan plan previousOrder desiredOrder = some r')
    (source : ServerSource) :
    r'.publishedBy source = if source = plan.source.normalize then
      plan.desired else r.publishedBy source := by
  obtain ⟨-, heq⟩ := Option.ite_none_right_eq_some.1 happly
  rw [← Option.some.inj heq]
  simp only [publishedBy]
  split_ifs with hsize hsource hsource
  · rw [hsource, FinMap.lookup_erase_self, Option.getD_none, FinMap.eq_empty_of_size hsize]
  · rw [FinMap.lookup_erase_of_ne hsource]
  · rw [hsource, FinMap.lookup_insert_self, Option.getD_some]
  · rw [FinMap.lookup_insert_of_ne hsource]

/-- A plan that clashes neither with itself nor with another source keeps the sink in step. -/
theorem Mirrored.applyPlan (h : r.Mirrored)
    (happly : r.applyPlan plan previousOrder desiredOrder = some r')
    (hdiffer : KeysDiffer plan.desired)
    (hother : ∀ source, source ≠ plan.source.normalize → ∀ toolName endpoint toolName' next,
      (r.publishedBy source).lookup toolName = some endpoint →
      plan.desired.lookup toolName' = some next →
      endpoint.key ≠ next.key) :
    r'.Mirrored := by
  have hpublished := publishedBy_applyPlan happly
  have hself : r'.publishedBy plan.source.normalize = plan.desired := by rw [hpublished, if_pos rfl]
  obtain ⟨⟨hprevious, hdesired⟩, hr'⟩ := Option.ite_none_right_eq_some.1 happly
  have hsink : r'.sink = Write.applyAll r.sink
      (deletions (r.publishedBy plan.source.normalize) plan.desired previousOrder ++
        settings (r.publishedBy plan.source.normalize) plan.desired desiredOrder) :=
    congrArg EndpointReconciler.sink (Option.some.inj hr'.symm)
  constructor
  case owner =>
    intro source toolName endpoint source' toolName' endpoint' hlookup hlookup' hkey
    rw [hpublished] at hlookup hlookup'
    split_ifs at hlookup hlookup' with heq heq' heq'
    · exact ⟨heq.trans heq'.symm, hdiffer _ _ _ _ hlookup hlookup' hkey⟩
    · exact absurd hkey.symm (hother _ heq' _ _ _ _ hlookup' hlookup)
    · exact absurd hkey (hother _ heq _ _ _ _ hlookup hlookup')
    · exact h.owner _ _ _ _ _ _ hlookup hlookup' hkey
  case sink =>
    intro k address
    rw [hsink]
    by_cases hwanted : ∃ toolName next, plan.desired.lookup toolName = some next ∧ next.key = k
    · obtain ⟨toolName, next, hnext, rfl⟩ := hwanted
      have hpublishedNow : (r.publishedBy plan.source.normalize).lookup toolName = some next →
          r.sink next.key = some next.address :=
        fun hsame => (h.sink _ _).2 ⟨_, _, _, hsame, rfl, rfl⟩
      rw [sink_of_desired hprevious hdesired hdiffer (h.keysDiffer _) hpublishedNow hnext,
        Option.some.injEq]
      constructor
      · rintro rfl
        exact ⟨plan.source.normalize, toolName, next, by rwa [hself], rfl, rfl⟩
      · rintro ⟨source, toolName', endpoint, hlookup, hkey, rfl⟩
        rw [hpublished] at hlookup
        split_ifs at hlookup with heq
        · obtain rfl := hdiffer _ _ _ _ hlookup hnext hkey
          rw [hnext] at hlookup
          exact congrArg _ (Option.some.inj hlookup)
        · exact absurd hkey (hother _ heq _ _ _ _ hlookup hnext)
    -- the endpoints of other sources are those that were there before
    · have hnone : ∀ toolName next, plan.desired.lookup toolName = some next → next.key ≠ k :=
        fun toolName next hnext hkey => hwanted ⟨toolName, next, hnext, hkey⟩
      have hrest : (∃ source toolName endpoint, (r'.publishedBy source).lookup toolName =
          some endpoint ∧
          endpoint.key = k ∧ endpoint.address = address) ↔
          ∃ source toolName endpoint, source ≠ plan.source.normalize ∧
            (r.publishedBy source).lookup toolName = some endpoint ∧ endpoint.key = k ∧
            endpoint.address = address := by
        constructor
        · rintro ⟨source, toolName, endpoint, hlookup, hkey, haddress⟩
          rw [hpublished] at hlookup
          split_ifs at hlookup with heq
          · exact absurd hkey (hnone _ _ hlookup)
          · exact ⟨source, toolName, endpoint, heq, hlookup, hkey, haddress⟩
        · rintro ⟨source, toolName, endpoint, heq, hlookup, hkey, haddress⟩
          exact ⟨source, toolName, endpoint, by rwa [hpublished, if_neg heq], hkey, haddress⟩
      rw [hrest]
      by_cases hgone : ∃ toolName old, (r.publishedBy plan.source.normalize).lookup toolName =
        some old ∧ old.key = k
      · obtain ⟨toolName, old, hold, rfl⟩ := hgone
        rw [sink_of_previous hprevious hdesired hold hnone]
        simp only [reduceCtorEq, false_iff]
        rintro ⟨source, toolName', endpoint, heq, hlookup, hkey, -⟩
        exact heq (h.owner _ _ _ _ _ _ hlookup hold hkey).1
      · have hnone' : ∀ toolName old, (r.publishedBy plan.source.normalize).lookup toolName =
            some old →
            old.key ≠ k :=
          fun toolName old hold hkey => hgone ⟨toolName, old, hold, hkey⟩
        rw [sink_of_other hprevious hdesired hnone hnone', h.sink]
        constructor
        · rintro ⟨source, toolName, endpoint, hlookup, hkey, haddress⟩
          refine ⟨source, toolName, endpoint, ?_, hlookup, hkey, haddress⟩
          rintro rfl
          exact hnone' _ _ hlookup hkey
        · rintro ⟨source, toolName, endpoint, -, hlookup, hkey, haddress⟩
          exact ⟨source, toolName, endpoint, hlookup, hkey, haddress⟩

end ApplyPlan

theorem Mirrored.removeAll (h : r.Mirrored) {r' : EndpointReconciler}
    {order : List (ServerSource × List String)}
    (hremove : r.removeAll order = some r') :
    r'.Mirrored ∧ ∀ source, r'.publishedBy source = .empty := by
  simp only [EndpointReconciler.removeAll] at hremove
  split_ifs at hremove with horders
  obtain ⟨hsources, htools⟩ := horders
  obtain rfl := Option.some.inj hremove
  refine ⟨⟨nofun, fun k address => ?_⟩, fun _ => rfl⟩
  have hempty : Write.applyAll r.sink
      (order.flatMap fun visited => deletions (r.publishedBy visited.1) .empty visited.2) k =
        none := by
    -- every write is a deletion, and each published endpoint is deleted
    have hdeletion : ∀ write ∈ order.flatMap fun visited =>
        deletions (r.publishedBy visited.1) .empty visited.2,
        write.leaves = none := by
      intro write hwrite
      obtain ⟨visited, hvisited, hwrite⟩ := List.mem_flatMap.1 hwrite
      obtain ⟨-, -, -, -, rfl⟩ := (mem_deletions (htools visited hvisited)).1 hwrite
      rfl
    by_cases hwritten : ∃ write ∈ order.flatMap fun visited =>
        deletions (r.publishedBy visited.1) .empty visited.2, write.target = k
    · exact Write.applyAll_of_forall_eq (fun write hwrite _ => hdeletion write hwrite) hwritten
    · rw [Write.applyAll_of_forall_ne fun write hwrite hkey => hwritten ⟨write, hwrite, hkey⟩]
      cases hsink : r.sink k with
      | none => rfl
      | some address =>
        obtain ⟨source, toolName, endpoint, hlookup, hkey, -⟩ := (h.sink k address).1 hsink
        obtain ⟨visited, hvisited, rfl⟩ : ∃ visited ∈ order, visited.1 = source := by
          have hmem : source ∈ order.map Prod.fst := by
            refine hsources.mem_iff.2 ?_
            cases hpublished : r.published.lookup source with
            | none => simp [publishedBy, hpublished] at hlookup
            | some endpoints => exact ⟨_, rfl⟩
          simpa using hmem
        refine absurd ⟨.del endpoint.key, List.mem_flatMap.2 ⟨visited, hvisited, ?_⟩, hkey⟩ hwritten
        exact (mem_deletions (htools visited hvisited)).2 ⟨toolName, endpoint, hlookup, by simp,
          rfl⟩
  change Write.applyAll r.sink _ k = some address ↔ _
  rw [hempty]
  simp [publishedBy]

/-! ## Whole runs -/

/-- The sink mirrors what is published, and that is what the latest configs desire. -/
structure Follows (parseHostPortFromURL : String → Except String HostPort) (r : EndpointReconciler)
    (configs : ServerSource → Option McpServerConfig) : Prop where
  mirrored : r.Mirrored
  desired : ∀ source, buildDesiredEndpoints parseHostPortFromURL source (configs source) =
    .ok (r.publishedBy source)

section Runs

variable {configs : ServerSource → Option McpServerConfig} {r' : EndpointReconciler}

theorem buildDesiredEndpoints_normalize (source : ServerSource) (cfg : Option McpServerConfig) :
    buildDesiredEndpoints parseHostPortFromURL source.normalize cfg =
      buildDesiredEndpoints parseHostPortFromURL source cfg := by
  cases cfg with
  | none => rw [buildDesiredEndpoints, buildDesiredEndpoints]
  | some cfg => rw [buildDesiredEndpoints, buildDesiredEndpoints, ServerSource.normalize_normalize]

/-- A config that can be prepared gives its source the endpoints it desires, and no other source new
ones. -/
theorem publishedBy_applyServerConfig {source : ServerSource} {cfg : Option McpServerConfig}
    {desired : FinMap String PublishedEndpoint} {previousOrder desiredOrder : List String}
    (hbuild : buildDesiredEndpoints parseHostPortFromURL source cfg = .ok desired)
    (happly : r.applyServerConfig parseHostPortFromURL source cfg previousOrder desiredOrder =
      some r')
    (source' : ServerSource) :
    r'.publishedBy source' = if source' = source.normalize then
      desired else r.publishedBy source' := by
  simp only [EndpointReconciler.applyServerConfig, prepareServerConfig,
    buildDesiredEndpoints_normalize, hbuild]
    at happly
  have hpublished := publishedBy_applyPlan happly source'
  simpa only [ServerSource.normalize_normalize] using hpublished

/-- The endpoint of a source stems from a tool of its latest config. -/
theorem Follows.exists_tool (h : Follows parseHostPortFromURL r configs) {source : ServerSource}
    {toolName : String}
    {endpoint : PublishedEndpoint}
    (hlookup : (r.publishedBy source).lookup toolName = some endpoint) :
    ∃ tool, Routed (configs source) tool ∧ endpoint.key = keyOf source tool := by
  obtain ⟨tool, hrouted, -, address, -, rfl⟩ :=
    (lookup_buildDesiredEndpoints (h.desired source) _ _).1 hlookup
  exact ⟨tool, hrouted, by rw [key_endpointOf, keyOf_normalize]⟩

theorem Follows.applyServerConfig (h : Follows parseHostPortFromURL r configs)
    {source : ServerSource}
    {cfg : Option McpServerConfig} {previousOrder desiredOrder : List String}
    (hdistinct : Distinct configs source cfg)
    (happly : r.applyServerConfig parseHostPortFromURL source cfg previousOrder desiredOrder =
      some r') :
    Follows parseHostPortFromURL r' (latestAfter parseHostPortFromURL configs source cfg) := by
  rw [latestAfter]
  cases hbuild : buildDesiredEndpoints parseHostPortFromURL source cfg with
  | error err =>
    simp only [EndpointReconciler.applyServerConfig, prepareServerConfig,
      buildDesiredEndpoints_normalize, hbuild]
      at happly
    obtain rfl := Option.some.inj happly
    exact h
  | ok desired =>
    have hpublished := publishedBy_applyServerConfig hbuild happly
    simp only [EndpointReconciler.applyServerConfig, prepareServerConfig,
      buildDesiredEndpoints_normalize, hbuild]
      at happly
    refine ⟨h.mirrored.applyPlan happly ?_ ?_, fun source' => ?_⟩
    · intro toolName endpoint toolName' endpoint' hlookup hlookup' hkey
      obtain ⟨tool, hrouted, rfl, address, -, rfl⟩ :=
        (lookup_buildDesiredEndpoints hbuild _ _).1 hlookup
      obtain ⟨tool', hrouted', rfl, address', -, rfl⟩ :=
        (lookup_buildDesiredEndpoints hbuild _ _).1 hlookup'
      rw [key_endpointOf, key_endpointOf, keyOf_normalize, keyOf_normalize] at hkey
      rw [(hdistinct tool' hrouted').1 tool hrouted hkey]
    · intro source' hne toolName endpoint toolName' next hlookup hlookup'
      obtain ⟨tool, hrouted, rfl, address, -, rfl⟩ :=
        (lookup_buildDesiredEndpoints hbuild _ _).1 hlookup'
      obtain ⟨tool', hrouted', hkey⟩ := h.exists_tool hlookup
      rw [hkey, key_endpointOf, keyOf_normalize]
      rw [ServerSource.normalize_normalize] at hne
      exact (hdistinct tool hrouted).2 source' hne tool' hrouted'
    · simp only [hpublished, Function.update_apply]
      split_ifs with hsource
      · rw [hsource, buildDesiredEndpoints_normalize, hbuild]
      · exact h.desired source'

theorem Follows.step (h : Follows parseHostPortFromURL r configs) {operation : Operation}
    (hdistinct : operation.Distinct configs)
    (hstep : r.step parseHostPortFromURL operation = some r') :
    Follows parseHostPortFromURL r' (operation.latest parseHostPortFromURL configs) := by
  cases operation with
  | applyServerConfig source cfg previousOrder desiredOrder =>
    simp only [EndpointReconciler.step] at hstep
    rw [Operation.latest]
    exact h.applyServerConfig hdistinct hstep
  | removeSource source previousOrder =>
    simp only [EndpointReconciler.step, removeSource] at hstep
    rw [Operation.latest]
    have hnone : Distinct configs source none :=
      fun tool hrouted => absurd hrouted (not_routed_none tool)
    exact h.applyServerConfig hnone hstep
  | removeAll order =>
    simp only [EndpointReconciler.step] at hstep
    obtain ⟨hmirrored, hempty⟩ := h.mirrored.removeAll hstep
    refine ⟨hmirrored, fun source => ?_⟩
    rw [hempty, Operation.latest, buildDesiredEndpoints]

theorem follows_run {operations : List Operation}
    (hrun : newEndpointReconciler.run parseHostPortFromURL operations = some r)
    (hdistinct : ∀ before operation after, operations = before ++ operation :: after →
      operation.Distinct (latestConfigs parseHostPortFromURL before)) :
    Follows parseHostPortFromURL r (latestConfigs parseHostPortFromURL operations) := by
  induction operations using List.reverseRecOn generalizing r with
  | nil =>
    obtain rfl := Option.some.inj hrun
    exact ⟨mirrored_newEndpointReconciler, fun _ => rfl⟩
  | append_singleton operations operation ih =>
    rw [run, List.foldlM_append] at hrun
    obtain ⟨r₁, hbefore, hlast⟩ := Option.bind_eq_some_iff.1 hrun
    have hstep : r₁.step parseHostPortFromURL operation = some r := by simpa using hlast
    have hfollows := ih hbefore fun before operation' after hsplit =>
      hdistinct before operation' (after ++ [operation]) (by rw [hsplit]; simp)
    rw [latestConfigs, List.foldl_append]
    exact hfollows.step (hdistinct operations operation [] rfl) hstep

end Runs

/-- In a run whose configs are distinct, the sink holds exactly the endpoints of the tools of the
latest configs: each at the address of its backend, under its cluster and endpoint ID. -/
theorem endpoints_follow_tools (operations : List Operation)
    (hrun : newEndpointReconciler.run parseHostPortFromURL operations = some r)
    (hdistinct : ∀ before operation after, operations = before ++ operation :: after →
      operation.Distinct (latestConfigs parseHostPortFromURL before))
    (clusterName endpointID : String) (address : HostPort) :
    r.sink (clusterName, endpointID) = some address ↔
      ∃ source tool, Routed (latestConfigs parseHostPortFromURL operations source) tool ∧
        parseHostPortFromURL tool.backendURL = .ok address ∧ tool.cluster = clusterName ∧
        stableEndpointID source (Text.trimSpace tool.name) = endpointID := by
  have hfollows := follows_run hrun hdistinct
  have hkeyOf (source : ServerSource) (tool : ToolConfig) : keyOf source tool =
      (clusterName, endpointID) ↔
      tool.cluster = clusterName ∧ stableEndpointID source (Text.trimSpace tool.name) =
        endpointID := Prod.ext_iff
  rw [hfollows.mirrored.sink]
  constructor
  · rintro ⟨source, toolName, endpoint, hlookup, hkey, rfl⟩
    obtain ⟨tool, hrouted, -, address, hparse, rfl⟩ :=
      (lookup_buildDesiredEndpoints (hfollows.desired source) _ _).1 hlookup
    rw [key_endpointOf, keyOf_normalize, hkeyOf] at hkey
    exact ⟨source, tool, hrouted, hparse, hkey⟩
  · rintro ⟨source, tool, hrouted, hparse, hkey⟩
    refine ⟨source, Text.trimSpace tool.name, endpointOf source.normalize tool address, ?_, ?_, rfl⟩
    · rw [lookup_buildDesiredEndpoints (hfollows.desired source)]
      exact ⟨tool, hrouted, rfl, address, hparse, rfl⟩
    · rw [key_endpointOf, keyOf_normalize, hkeyOf]
      exact hkey

end EndpointReconciler

namespace Sample

/-- A tool with its backend. -/
def toolAt (name url : String) : ToolConfig := { toolNamed name with backendURL := url }

/-- A parser for hosts without a port. -/
def parseHost (url : String) : Except String HostPort := .ok ⟨url, 8080⟩

end Sample

namespace EndpointReconciler

open Sample

/-- The tools `a b` and `a_b` of one config get the same endpoint ID: only the one that is set last
can be reached. -/
theorem endpoint_of_colliding_tools :
    ∃ r, newEndpointReconciler.run parseHost
        [.applyServerConfig source ⟨[toolAt "a b" "one", toolAt "a_b" "two"], false⟩ []
          ["a b", "a_b"]] = some r ∧
      stableEndpointID source "a b" = stableEndpointID source "a_b" ∧
      r.sink ("backend", stableEndpointID source "a b") = some ⟨"two", 8080⟩ := by
  refine ⟨_, rfl, by decide, by decide +kernel⟩

/-- A config can be compared with the live ones if these are listed. -/
theorem distinct_of_live {configs : ServerSource → Option McpServerConfig} {source' : ServerSource}
    {cfg : McpServerConfig} (live : List (ServerSource × McpServerConfig))
    (hlive : ∀ other c, configs other = some c → (other, c) ∈ live)
    (hcheck : ∀ tool ∈ cfg.tools,
      (∀ tool' ∈ cfg.tools, keyOf source' tool' = keyOf source' tool → tool' = tool) ∧
        ∀ p ∈ live, p.1 ≠ source'.normalize →
          ∀ tool' ∈ p.2.tools, keyOf p.1 tool' ≠ keyOf source' tool) :
    Distinct configs source' (some cfg) := by
  intro tool hrouted
  obtain ⟨hsame, hothers⟩ := hcheck tool (routed_some.1 hrouted).1
  refine ⟨fun tool' hrouted' => hsame tool' (routed_some.1 hrouted').1, ?_⟩
  rintro other hne tool' ⟨c, hc, htool', -⟩
  exact hothers (other, c) (hlive other c hc) hne tool' htool'

theorem live_update {configs : ServerSource → Option McpServerConfig} {source' : ServerSource}
    {cfg : Option McpServerConfig} {live : List (ServerSource × McpServerConfig)}
    (hlive : ∀ other c, configs other = some c → (other, c) ∈ live) (other : ServerSource)
    (c : McpServerConfig) (hc : Function.update configs source' cfg other = some c) :
    (other, c) ∈ cfg.toList.map (source', ·) ++ live.filter (·.1 ≠ source') := by
  by_cases heq : other = source'
  · subst heq
    rw [Function.update_self] at hc
    simp [hc]
  · rw [Function.update_of_ne heq] at hc
    simp [heq, hlive other c hc]

/-- Another server of the same registry. -/
def sibling : ServerSource := ⟨"nacos", "sibling"⟩

/-- Two servers with tools of the same name.  The first one drops a tool and moves another one, then
the second one is removed. -/
def twoServers : List Operation :=
  [.applyServerConfig source ⟨[toolAt "a" "one", toolAt "b" "two"], false⟩ [] ["a", "b"],
    .applyServerConfig sibling ⟨[toolAt "a" "three"], false⟩ [] ["a"],
    .applyServerConfig source ⟨[toolAt "b" "four"], false⟩ ["a", "b"] ["b"],
    .removeSource sibling ["a"]]

theorem endpoints_follow_tools_twoServers :
    ∃ r, newEndpointReconciler.run parseHost twoServers = some r ∧
      r.sink ("backend", stableEndpointID source "b") = some ⟨"four", 8080⟩ ∧
      ∀ address, r.sink ("backend", stableEndpointID sibling "a") ≠ some address := by
  have hrun : newEndpointReconciler.run parseHost twoServers = some _ := rfl
  -- the live configs before each of the calls and at the end
  have hlive₀ : ∀ other c, latestConfigs parseHost [] other = some c → (other, c) ∈ [] := by
    intro other c hc
    cases hc
  have hlive₁ : ∀ other c, latestConfigs parseHost (twoServers.take 1) other = some c → _ :=
    live_update hlive₀
  have hlive₂ : ∀ other c, latestConfigs parseHost (twoServers.take 2) other = some c → _ :=
    live_update hlive₁
  have hlive₄ : ∀ other c, latestConfigs parseHost twoServers other = some c → _ :=
    live_update (live_update hlive₂)
  have hdistinct : ∀ before operation after, twoServers = before ++ operation :: after →
      operation.Distinct (latestConfigs parseHost before) := by
    rw [System.forall_split_iff]
    intro k hk
    replace hk : k < 4 := hk
    interval_cases k
    · exact distinct_of_live _ hlive₀ (by decide +kernel)
    · exact distinct_of_live _ hlive₁ (by decide +kernel)
    · exact distinct_of_live _ hlive₂ (by decide +kernel)
    · trivial
  refine ⟨_, hrun, ?_, fun address hsink => ?_⟩
  · rw [endpoints_follow_tools twoServers hrun hdistinct]
    exact ⟨source, toolAt "b" "four", ⟨_, rfl, List.mem_singleton.2 rfl, by decide⟩, rfl, rfl, rfl⟩
  · obtain ⟨other, tool, ⟨c, hc, htool, -⟩, -, -, hID⟩ :=
      (endpoints_follow_tools twoServers hrun hdistinct _ _ _).1 hsink
    have hnone : ∀ p ∈ [(source, (⟨[toolAt "b" "four"], false⟩ : McpServerConfig))],
        ∀ tool ∈ p.2.tools,
        stableEndpointID p.1 (Text.trimSpace tool.name) ≠ stableEndpointID sibling "a" := by
      decide +kernel
    exact hnone (other, c) (hlive₄ other c hc) tool htool hID

end EndpointReconciler

end Pixiu.Mcp
