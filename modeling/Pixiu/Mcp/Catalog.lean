import Pixiu.Base.FinMap
import Pixiu.Base.Text

/-!
# Dynamic tool catalogs

`DynamicConsumer` merges the tools of many servers into one registry.  It remembers the last config
of each source and, on every change, publishes the tools of all of them as a new catalog.

Go ranges over a map in any order and sorts by `Key`, which two sources may share; the order that
comes out is a parameter of the operations and has to be sorted.  The digest and the text that a
tool is digested from are parameters too.

`dynamic_catalog_follows`: an operation that publishes leaves the registry with exactly the tools of
the remembered configs, one that fails or is skipped leaves everything as it was.
-/

namespace Pixiu.Mcp

/-! ## Tools -/

/-- The request a tool is turned into; the headers are listed by name. -/
structure RequestConfig where
  method : String
  path : String
  headers : List (String × String)
  timeout : String
  deriving DecidableEq, Repr

/-- A parameter of a tool; the default is the text of its value. -/
structure ArgConfig where
  name : String
  type : String
  location : String
  description : String
  required : Bool
  default : Option String
  enum : List String
  deriving DecidableEq, Repr

/-- `ToolMeta`. -/
structure ToolMeta where
  tags : List String
  risk : String
  discoveryVisibility : Option Bool
  deriving DecidableEq, Repr

/-- `ToolConfig`. -/
structure ToolConfig where
  name : String
  description : String
  cluster : String
  backendURL : String
  request : RequestConfig
  args : List ArgConfig
  toolMeta : Option ToolMeta
  deriving DecidableEq, Repr

/-- Why tools are refused. -/
inductive ToolError where
  | nameRequired (index : ℕ)
  | duplicateName (name : String) (index : ℕ)
  | unsupportedRisk (name risk : String)
  deriving DecidableEq, Repr

/-- The text of an error, where `q` quotes a string. -/
def ToolError.text (q : String → String) : ToolError → String
  | .nameRequired index => s!"tool name is required at index {index}"
  | .duplicateName name index => s!"duplicate tool name {q name} at index {index}"
  | .unsupportedRisk name risk =>
    s!"tool {q name} meta.risk: unsupported risk {q risk} (allowed: low, medium, high)"

/-- The names of a catalog are not empty and pairwise different. -/
def WellNamed (tools : List ToolConfig) : Prop :=
  (∀ tool ∈ tools, tool.name ≠ "") ∧ (tools.map ToolConfig.name).Nodup

instance (tools : List ToolConfig) : Decidable (WellNamed tools) :=
  inferInstanceAs (Decidable (_ ∧ _))

/-- The loop over the tools from index `i` on, with the names seen before. -/
def checkNames : List ToolConfig → List String → ℕ → Except ToolError Unit
  | [], _, _ => .ok ()
  | tool :: tools, seen, i =>
    if tool.name = "" then .error (.nameRequired i)
    else if tool.name ∈ seen then .error (.duplicateName tool.name i)
    else checkNames tools (tool.name :: seen) (i + 1)

/-- `ValidateUniqueNames`. -/
def validateUniqueNames (tools : List ToolConfig) : Except ToolError Unit := checkNames tools [] 0

/-- The risks that are known. -/
def validRisk (risk : String) : Bool := risk ∈ ["", "low", "medium", "high"]

/-- `ValidateTools`. -/
def validateTools (tools : List ToolConfig) : Except ToolError Unit := do
  validateUniqueNames tools
  for tool in tools do
    if let some toolMeta := tool.toolMeta then
      unless validRisk toolMeta.risk do
        throw (.unsupportedRisk tool.name toolMeta.risk)

theorem checkNames_eq_ok {tools : List ToolConfig} {seen : List String} {i : ℕ} :
    checkNames tools seen i = .ok () ↔ WellNamed tools ∧ ∀ tool ∈ tools, tool.name ∉ seen := by
  induction tools generalizing seen i with
  | nil => simp [checkNames, WellNamed]
  | cons tool tools ih =>
    rw [checkNames]
    split_ifs with hempty hseen
    · simp [WellNamed, hempty]
    · simp [hseen]
    · rw [ih]
      simp only [WellNamed, List.map_cons, List.nodup_cons, List.mem_map, List.mem_cons,
        not_or]
      grind

theorem validateUniqueNames_eq_ok {tools : List ToolConfig} :
    validateUniqueNames tools = .ok () ↔ WellNamed tools := by
  simp [validateUniqueNames, checkNames_eq_ok]

/-! ## Fingerprints -/

/-- What a catalog is fingerprinted with: the stable digest of a tool, and the hexadecimal digest of
a list of texts. -/
structure Fingerprinter where
  jsonStableOrFallback : ToolConfig → String
  stringsOrdered : List String → String
  eight_le_length : ∀ items, 8 ≤ (stringsOrdered items).length

/-- `EmptyFingerprint`. -/
def emptyFingerprint : String := "00000000"

namespace Fingerprinter

variable (fp : Fingerprinter)

/-- `StringsSorted`. -/
def stringsSorted (items : List String) : String :=
  if items = [] then "" else fp.stringsOrdered (items.mergeSort (· ≤ ·))

/-- `toolCatalogFingerprint`. -/
def toolCatalogFingerprint (tools : List ToolConfig) : String :=
  if tools = [] then emptyFingerprint
  else String.ofList ((fp.stringsSorted (tools.map fp.jsonStableOrFallback)).toList.take 8)

theorem toolCatalogFingerprint_ne_empty (tools : List ToolConfig) :
    fp.toolCatalogFingerprint tools ≠ "" := by
  intro hempty
  have hlength := congrArg String.length hempty
  rw [toolCatalogFingerprint] at hlength
  split_ifs at hlength with hnil
  · exact absurd hlength (by decide)
  · have := fp.eight_le_length ((tools.map fp.jsonStableOrFallback).mergeSort (· ≤ ·))
    rw [String.length_ofList, List.length_take, String.length_toList, stringsSorted,
      if_neg (by simpa using hnil), String.length_empty] at hlength
    omega

end Fingerprinter

/-! ## The registry -/

/-- A published catalog. -/
structure ToolCatalogSnapshot where
  version : String
  generation : ℕ
  fingerprint : String
  ordered : List ToolConfig
  wellNamed : WellNamed ordered

/-- `NewToolRegistry`. -/
def newToolRegistry : ToolCatalogSnapshot where
  version := "0:" ++ emptyFingerprint
  generation := 0
  fingerprint := emptyFingerprint
  ordered := []
  wellNamed := by decide

/-- `firstNonEmptyFingerprint`. -/
def firstNonEmptyFingerprint (fingerprint : String) : String :=
  if fingerprint = "" then emptyFingerprint else fingerprint

section

variable (fp : Fingerprinter)

/-- `buildToolCatalogSnapshot`. -/
def buildToolCatalogSnapshot (tools : List ToolConfig) (generation : ℕ) (fingerprint : String) :
    Except ToolError ToolCatalogSnapshot :=
  let fingerprint := if fingerprint = "" then fp.toolCatalogFingerprint tools else fingerprint
  match h : validateUniqueNames tools with
  | .error err => .error err
  | .ok () => .ok {
      version := s!"{generation}:{firstNonEmptyFingerprint fingerprint}"
      generation := generation
      fingerprint := firstNonEmptyFingerprint fingerprint
      ordered := tools
      wellNamed := validateUniqueNames_eq_ok.1 h }

/-- `replaceAllToolsWithFingerprint`. -/
def replaceAllToolsWithFingerprint (registry : ToolCatalogSnapshot) (tools : List ToolConfig)
    (fingerprint : String) : Except ToolError ToolCatalogSnapshot :=
  buildToolCatalogSnapshot fp tools (registry.generation + 1) fingerprint

variable {fp}

/-- A catalog that is accepted is published as it is, under the fingerprint given with it. -/
theorem replaceAllToolsWithFingerprint_eq_ok {registry registry' : ToolCatalogSnapshot}
    {tools : List ToolConfig}
    {fingerprint : String} (hfp : fingerprint ≠ "")
    (h : replaceAllToolsWithFingerprint fp registry tools fingerprint = .ok registry') :
    registry'.ordered = tools ∧ registry'.fingerprint = fingerprint ∧
      registry'.generation = registry.generation + 1 := by
  simp only [replaceAllToolsWithFingerprint, buildToolCatalogSnapshot] at h
  split at h
  · cases h
  · cases h
    simp [firstNonEmptyFingerprint, hfp]

end

/-! ## Sources -/

/-- `ServerSource`. -/
structure ServerSource where
  registry : String
  serverID : String
  deriving DecidableEq, Repr

namespace ServerSource

/-- `DefaultRegistryName`. -/
def defaultRegistryName : String := "default"

/-- `DefaultServerID`. -/
def defaultServerID : String := "default"

/-- The characters that stand for themselves in keys and endpoint IDs. -/
def plainChar (c : Char) : Bool :=
  ('a' ≤ c && c ≤ 'z') || ('A' ≤ c && c ≤ 'Z') || ('0' ≤ c && c ≤ '9') || c == '-' || c == '_' ||
    c == '.'

/-- A part of a source after normalisation. -/
def normalizePart (name part : String) : String :=
  if Text.trimSpace part = "" then name else Text.trimSpace part

theorem normalizePart_normalizePart {name : String} (hname : Text.trimSpace name = name)
    (part : String) :
    normalizePart name (normalizePart name part) = normalizePart name part := by
  unfold normalizePart
  by_cases hempty : Text.trimSpace part = ""
  · simp [hempty, hname]
  · simp [hempty]

/-- `Normalize`. -/
def normalize (source : ServerSource) : ServerSource where
  registry := normalizePart defaultRegistryName source.registry
  serverID := normalizePart defaultServerID source.serverID

@[simp] theorem normalize_normalize (source : ServerSource) :
    source.normalize.normalize = source.normalize := by
  have hregistry : Text.trimSpace defaultRegistryName = defaultRegistryName := by decide
  have hserverID : Text.trimSpace defaultServerID = defaultServerID := by decide
  simp only [normalize, normalizePart_normalizePart hregistry,
    normalizePart_normalizePart hserverID]

/-- `sanitizeSourcePart`. -/
def sanitizeSourcePart (value : String) : String :=
  if value = "" then "_"
  else String.ofList (value.toList.flatMap fun c =>
    if plainChar c then [c] else '%' :: Nat.toDigits 16 c.toNat)

/-- `Key`. -/
def key (source : ServerSource) : String :=
  sanitizeSourcePart source.normalize.registry ++ "/" ++
    sanitizeSourcePart source.normalize.serverID

end ServerSource

/-! ## The consumer -/

/-- `ServerToolConfig`. -/
structure ServerToolConfig where
  tools : List ToolConfig
  fingerprint : String

/-- A config that a registry centre delivers: its tools, and whether it has a router section. -/
structure McpServerConfig where
  tools : List ToolConfig
  hasRouter : Bool

/-- Why an update is refused. -/
inductive DynamicError where
  | routerUpdateUnsupported
  | invalidMetadata (err : ToolError)
  | registry (err : ToolError)
  deriving DecidableEq, Repr

/-- The text of an error, where `q` quotes a string. -/
def DynamicError.text (q : String → String) : DynamicError → String
  | .routerUpdateUnsupported =>
    "dynamic MCP updates support tool catalog changes only; router changes require filter rebuild"
  | .invalidMetadata err => "invalid mcp tool router metadata: " ++ err.text q
  | .registry err => err.text q

/-- How an operation that succeeds ends: with a new catalog, or without a change. -/
inductive ApplyOutcome where
  | applied
  | unchanged
  deriving DecidableEq, Repr

/-- `DynamicConsumer`. -/
structure DynamicConsumer where
  registry : ToolCatalogSnapshot
  governance : Bool
  serverConfigs : FinMap ServerSource ServerToolConfig

namespace DynamicConsumer

/-- `NewDynamicConsumer`. -/
def newDynamicConsumer (registry : ToolCatalogSnapshot) (governance : Bool) : DynamicConsumer :=
  ⟨registry, governance, .empty⟩

/-- A result of sorting the sources by key. -/
def SortedSources (configs : FinMap ServerSource ServerToolConfig) (order : List ServerSource) :
    Prop :=
  order.Nodup ∧ order.toFinset = configs.keys ∧ order.Pairwise fun a b => a.key ≤ b.key

instance (configs : FinMap ServerSource ServerToolConfig) (order : List ServerSource) :
    Decidable (SortedSources configs order) :=
  inferInstanceAs (Decidable (_ ∧ _ ∧ _))

/-- The tools of the sources, one source after another. -/
def calculateCurrentMergedTools (configs : FinMap ServerSource ServerToolConfig)
    (order : List ServerSource) :
    List ToolConfig :=
  order.flatMap fun source => ((configs.lookup source).map ServerToolConfig.tools).getD []

variable (fp : Fingerprinter) (d : DynamicConsumer)

/-- `validateDynamicConfig`. -/
def validateDynamicConfig (cfg : McpServerConfig) : Except DynamicError Unit :=
  if cfg.hasRouter then .error .routerUpdateUnsupported
  else if d.governance then (validateTools cfg.tools).mapError .invalidMetadata
  else .ok ()

/-- `applyMergedConfig`. -/
def applyMergedConfig (tools : List ToolConfig) (fingerprint : String) :
    Except DynamicError DynamicConsumer :=
  ((replaceAllToolsWithFingerprint fp d.registry tools fingerprint).mapError .registry).map
    fun registry =>
    { d with registry }

/-- `restoreServerConfig`. -/
def restoreServerConfig (source : ServerSource) : Option ServerToolConfig → DynamicConsumer
  | some oldConfig => { d with serverConfigs := d.serverConfigs.insert source oldConfig }
  | none => { d with serverConfigs := d.serverConfigs.erase source }

/-- The merged tools of the configs that are remembered now are published; when the registry refuses
them, the entry of the source goes back to what it was. -/
def applyCurrentConfigs (order : List ServerSource) (source : ServerSource)
    (oldConfig : Option ServerToolConfig) :
    Option (DynamicConsumer × Except DynamicError ApplyOutcome) :=
  if SortedSources d.serverConfigs order then
    let mergedTools := calculateCurrentMergedTools d.serverConfigs order
    match d.applyMergedConfig fp mergedTools (fp.toolCatalogFingerprint mergedTools) with
    | .error err => some (d.restoreServerConfig source oldConfig, .error err)
    | .ok d' => some (d', .ok .applied)
  else none

/-- `applyServerTools`. -/
def applyServerTools (order : List ServerSource) (source : ServerSource) (tools : List ToolConfig) :
    Option (DynamicConsumer × Except DynamicError ApplyOutcome) :=
  let fingerprint := fp.toolCatalogFingerprint tools
  let oldConfig := d.serverConfigs.lookup source
  if oldConfig.any (·.fingerprint = fingerprint) then some (d, .ok .unchanged)
  else
    { d with serverConfigs := d.serverConfigs.insert source ⟨tools,
      fingerprint⟩ }.applyCurrentConfigs fp order
      source oldConfig

/-- `removeServerConfig`. -/
def removeServerConfig (order : List ServerSource) (source : ServerSource) :
    Option (DynamicConsumer × Except DynamicError ApplyOutcome) :=
  match d.serverConfigs.lookup source with
  | none => some (d, .ok .unchanged)
  | some oldConfig =>
    { d with serverConfigs := d.serverConfigs.erase source }.applyCurrentConfigs fp order source
      (some oldConfig)

/-- `ApplyMcpServerConfigBySource`. -/
def applyMcpServerConfigBySource (order : List ServerSource) (source : ServerSource) :
    Option McpServerConfig → Option (DynamicConsumer × Except DynamicError ApplyOutcome)
  | none => d.removeServerConfig fp order source.normalize
  | some cfg =>
    match d.validateDynamicConfig cfg with
    | .error err => some (d, .error err)
    | .ok () => d.applyServerTools fp order source.normalize cfg.tools

/-- `RemoveAllMcpServerConfigs`. -/
def removeAllMcpServerConfigs : DynamicConsumer × Except DynamicError ApplyOutcome :=
  if d.serverConfigs.size = 0 then (d, .ok .unchanged)
  else
    match { d with serverConfigs := .empty }.applyMergedConfig fp [] emptyFingerprint with
    | .error err => (d, .error err)
    | .ok d' => (d', .ok .applied)

/-- The operations.  Removing a source is applying no config for it. -/
inductive Operation where
  | applyMcpServerConfigBySource (source : ServerSource) (cfg : Option McpServerConfig)
      (order : List ServerSource)
  | removeAllMcpServerConfigs

/-- One operation; `none` where its order is not a result of sorting. -/
def step : Operation → Option (DynamicConsumer × Except DynamicError ApplyOutcome)
  | .applyMcpServerConfigBySource source cfg order =>
    d.applyMcpServerConfigBySource fp order source cfg
  | .removeAllMcpServerConfigs => some (d.removeAllMcpServerConfigs fp)

/-- The consumer after a sequence of operations. -/
def run (operations : List Operation) : Option DynamicConsumer :=
  operations.foldlM (fun d operation => (d.step fp operation).map Prod.fst) d

/-- The registry holds the tools of the remembered configs, in an order of their sources sorted by
key, under the fingerprint of this catalog. -/
def Follows : Prop :=
  (∃ order, SortedSources d.serverConfigs order ∧
    d.registry.ordered = calculateCurrentMergedTools d.serverConfigs order) ∧
  d.registry.fingerprint = fp.toolCatalogFingerprint d.registry.ordered

variable {fp d} {d' : DynamicConsumer} {order : List ServerSource} {source : ServerSource}
  {result : Except DynamicError ApplyOutcome}

/-! ## What an operation does -/

/-- The two ways an operation ends: it publishes the catalog of the configs remembered then, or it
changes nothing. -/
inductive Ends (fp : Fingerprinter) (d : DynamicConsumer) :
    DynamicConsumer → Except DynamicError ApplyOutcome → Prop
  | applied {d' : DynamicConsumer} (follows : Follows fp d') : Ends fp d d' (.ok .applied)
  | same {result : Except DynamicError ApplyOutcome} (skipped : result ≠ .ok .applied) :
      Ends fp d d result

theorem applyMergedConfig_eq_ok {tools : List ToolConfig} {fingerprint : String}
    (hfp : fingerprint ≠ "")
    (h : d.applyMergedConfig fp tools fingerprint = .ok d') :
    d'.serverConfigs = d.serverConfigs ∧ d'.registry.ordered = tools ∧
      d'.registry.fingerprint = fingerprint := by
  rw [applyMergedConfig] at h
  cases hregistry : replaceAllToolsWithFingerprint fp d.registry tools fingerprint with
  | error err => rw [hregistry] at h; cases h
  | ok registry =>
    rw [hregistry] at h
    cases h
    obtain ⟨hordered, hfingerprint, -⟩ := replaceAllToolsWithFingerprint_eq_ok hfp hregistry
    exact ⟨rfl, hordered, hfingerprint⟩

/-- A restored entry undoes any change of the entry. -/
theorem restoreServerConfig_of_eq {changed : FinMap ServerSource ServerToolConfig}
    (hchanged : ∀ source', source' ≠ source →
      changed.lookup source' = d.serverConfigs.lookup source') :
    { d with serverConfigs := changed }.restoreServerConfig source (d.serverConfigs.lookup source) =
      d := by
  have hext {restored : FinMap ServerSource ServerToolConfig}
      (hself : restored.lookup source = d.serverConfigs.lookup source)
      (hother : ∀ source', source' ≠ source → restored.lookup source' = changed.lookup source') :
      { d with serverConfigs := restored } = d := by
    obtain rfl : restored = d.serverConfigs := by
      ext1 source'
      rcases eq_or_ne source' source with rfl | hne
      · exact hself
      · rw [hother source' hne, hchanged source' hne]
    rfl
  cases hold : d.serverConfigs.lookup source with
  | none => exact hext (by simp [hold]) fun _ hne => FinMap.lookup_erase_of_ne hne
  | some oldConfig => exact hext (by simp [hold]) fun _ hne => FinMap.lookup_insert_of_ne hne

theorem applyCurrentConfigs_ends {changed : FinMap ServerSource ServerToolConfig}
    (hchanged : ∀ source', source' ≠ source →
      changed.lookup source' = d.serverConfigs.lookup source')
    (h :
    { d with serverConfigs := changed }.applyCurrentConfigs fp order source
      (d.serverConfigs.lookup source) =
      some (d', result)) :
    Ends fp d d' result := by
  simp only [applyCurrentConfigs] at h
  split_ifs at h with hsorted
  split at h
  · obtain ⟨rfl, rfl⟩ : _ = d' ∧ _ = result := by simpa using h
    rw [restoreServerConfig_of_eq hchanged]
    exact .same nofun
  · next hmerged =>
    obtain ⟨rfl, rfl⟩ : _ = d' ∧ _ = result := by simpa using h
    obtain ⟨hconfigs, hordered, hfingerprint⟩ :=
      applyMergedConfig_eq_ok (fp.toolCatalogFingerprint_ne_empty _) hmerged
    exact .applied ⟨⟨order, by rwa [hconfigs], by rw [hordered, hconfigs]⟩,
      by rw [hfingerprint, hordered]⟩

theorem removeAllMcpServerConfigs_ends :
    Ends fp d (d.removeAllMcpServerConfigs fp).1 (d.removeAllMcpServerConfigs fp).2 := by
  rw [removeAllMcpServerConfigs]
  split_ifs with hsize
  · exact .same nofun
  · split
    · exact .same nofun
    · next hmerged =>
      obtain ⟨hconfigs, hordered, hfingerprint⟩ := applyMergedConfig_eq_ok (by decide) hmerged
      refine .applied ⟨⟨[], ?_, ?_⟩, ?_⟩
      · rw [hconfigs]
        exact ⟨List.nodup_nil, rfl, List.Pairwise.nil⟩
      · rw [hordered]; rfl
      · rw [hfingerprint, hordered]; rfl

theorem step_ends {operation : Operation} (h : d.step fp operation = some (d', result)) :
    Ends fp d d' result := by
  cases operation with
  | removeAllMcpServerConfigs =>
    have heq : d.removeAllMcpServerConfigs fp = (d', result) := Option.some.inj h
    have hends : Ends fp d _ _ := removeAllMcpServerConfigs_ends
    rwa [heq] at hends
  | applyMcpServerConfigBySource source cfg order =>
    cases cfg with
    | none =>
      change d.removeServerConfig fp order source.normalize = some (d', result) at h
      rw [removeServerConfig] at h
      split at h
      · cases h
        exact .same nofun
      · next oldConfig hold =>
        rw [← hold] at h
        exact applyCurrentConfigs_ends (fun _ hne => FinMap.lookup_erase_of_ne hne) h
    | some cfg =>
      simp only [step, applyMcpServerConfigBySource] at h
      split at h
      · cases h
        exact .same nofun
      · simp only [applyServerTools] at h
        split_ifs at h with hskip
        · cases h
          exact .same nofun
        · exact applyCurrentConfigs_ends (fun _ hne => FinMap.lookup_insert_of_ne hne) h

/-- What is remembered for a source whose config was applied. -/
def entryOf (fp : Fingerprinter) (cfg : Option McpServerConfig) : Option ServerToolConfig :=
  cfg.map fun cfg => ⟨cfg.tools, fp.toolCatalogFingerprint cfg.tools⟩

theorem applyCurrentConfigs_eq_ok {oldConfig : Option ServerToolConfig} {outcome : ApplyOutcome}
    (h : d.applyCurrentConfigs fp order source oldConfig = some (d', .ok outcome)) :
    d'.serverConfigs = d.serverConfigs := by
  simp only [applyCurrentConfigs] at h
  split_ifs at h with hsorted
  split at h
  · simp at h
  · next hmerged =>
    obtain ⟨rfl, -⟩ : _ = d' ∧ _ = ApplyOutcome.applied := by simpa [eq_comm] using h
    exact (applyMergedConfig_eq_ok (fp.toolCatalogFingerprint_ne_empty _) hmerged).1

/-- A config that is applied becomes the entry of its source, unless the entry has its fingerprint
already; no other entry changes. -/
theorem entry_of_ok {cfg : Option McpServerConfig} {outcome : ApplyOutcome}
    (h : d.applyMcpServerConfigBySource fp order source cfg = some (d', .ok outcome)) :
    (∀ source', source' ≠ source.normalize →
      d'.serverConfigs.lookup source' = d.serverConfigs.lookup source') ∧
    (d'.serverConfigs.lookup source.normalize = entryOf fp cfg ∨
      d' = d ∧ (d.serverConfigs.lookup source.normalize).map ServerToolConfig.fingerprint =
        (entryOf fp cfg).map ServerToolConfig.fingerprint) := by
  cases cfg with
  | none =>
    simp only [applyMcpServerConfigBySource, removeServerConfig] at h
    split at h
    · next habsent =>
      obtain ⟨rfl, -⟩ : d = d' ∧ _ := by simpa using h
      exact ⟨fun _ _ => rfl, .inl habsent⟩
    · rw [applyCurrentConfigs_eq_ok h]
      exact ⟨fun _ hne => FinMap.lookup_erase_of_ne hne, .inl FinMap.lookup_erase_self⟩
  | some cfg =>
    simp only [applyMcpServerConfigBySource] at h
    split at h
    · simp at h
    · simp only [applyServerTools] at h
      split_ifs at h with hskip
      · obtain ⟨rfl, -⟩ : d = d' ∧ _ := by simpa using h
        obtain ⟨existing, hexisting, hfingerprint⟩ : ∃ existing,
            d.serverConfigs.lookup source.normalize = some existing ∧
              existing.fingerprint = fp.toolCatalogFingerprint cfg.tools := by
          simpa [Option.any_eq_true] using hskip
        exact ⟨fun _ _ => rfl, .inr ⟨rfl, by rw [hexisting, Option.map_some, hfingerprint]; rfl⟩⟩
      · rw [applyCurrentConfigs_eq_ok h]
        exact ⟨fun _ hne => FinMap.lookup_insert_of_ne hne, .inl FinMap.lookup_insert_self⟩

/-! ## Whole runs -/

/-- A run either has published, and then the registry follows the configs, or it has changed
nothing. -/
theorem run_ends {d₀ : DynamicConsumer} {operations : List Operation}
    (hrun : d₀.run fp operations = some d) :
    d = d₀ ∨ Follows fp d := by
  induction operations using List.reverseRecOn generalizing d with
  | nil => exact .inl (Option.some.inj hrun).symm
  | append_singleton operations operation ih =>
    rw [run, List.foldlM_append] at hrun
    obtain ⟨d₁, hbefore, hlast⟩ := Option.bind_eq_some_iff.1 hrun
    obtain ⟨⟨d₂, result⟩, hstep, hd⟩ : ∃ p, d₁.step fp operation = some p ∧ p.1 = d := by
      simpa using hlast
    obtain rfl : d₂ = d := hd
    cases step_ends hstep with
    | applied hfollows => exact .inr hfollows
    | same => exact ih hbefore

theorem follows_newToolRegistry (governance : Bool) :
    Follows fp (newDynamicConsumer newToolRegistry governance) :=
  ⟨⟨[], ⟨List.nodup_nil, rfl, List.Pairwise.nil⟩, rfl⟩, rfl⟩

/-- After any sequence of operations, the next one either publishes exactly the tools of the
remembered configs, or it changes neither them nor the registry; the latter whenever it fails.  From
the first publication on, and from the start if the registry starts empty, the catalog is that of
the remembered configs; until then it is the one the registry was set up with.  The names of its
tools are never empty and never clash. -/
theorem dynamic_catalog_follows (registry : ToolCatalogSnapshot) (governance : Bool)
    (operations : List Operation)
    (hrun : (newDynamicConsumer registry governance).run fp operations = some d) :
    (d = newDynamicConsumer registry governance ∨ Follows fp d) ∧
    (registry = newToolRegistry → Follows fp d) ∧
    WellNamed d.registry.ordered ∧
    ∀ operation d' result, d.step fp operation = some (d', result) →
      (result = .ok .applied → Follows fp d') ∧ (result ≠ .ok .applied → d' = d) := by
  refine ⟨run_ends hrun, fun hregistry => ?_, d.registry.wellNamed, fun operation d' result hstep =>
    ?_⟩
  · rcases run_ends hrun with rfl | hfollows
    · rw [hregistry]
      exact follows_newToolRegistry governance
    · exact hfollows
  · cases step_ends hstep with
    | applied hfollows => exact ⟨fun _ => hfollows, fun hne => absurd rfl hne⟩
    | same hskipped => exact ⟨fun hresult => absurd hresult hskipped, fun _ => rfl⟩

end DynamicConsumer

/-! ## A catalog of one tool -/

namespace Sample

/-- A tool with nothing but its name. -/
def toolNamed (name : String) : ToolConfig where
  name := name
  description := ""
  cluster := "backend"
  backendURL := ""
  request := ⟨"GET", "/", [], ""⟩
  args := []
  toolMeta := none

/-- A digest that shows what it was made from. -/
def fingerprinter : Fingerprinter where
  jsonStableOrFallback tool := tool.name ++ tool.backendURL
  stringsOrdered items := String.join items ++ "--------"
  eight_le_length items := by rw [String.length_append]; exact Nat.le_add_left 8 _

/-- A registry that a filter config has set up with one tool. -/
def configured : ToolCatalogSnapshot where
  version := "1:configured"
  generation := 1
  fingerprint := "configured"
  ordered := [toolNamed "configured"]
  wellNamed := by decide

/-- A source. -/
def source : ServerSource := ⟨"nacos", "server"⟩

end Sample

namespace DynamicConsumer

open Sample

/-- Removing a source that was never applied succeeds and leaves the configured tool in the
registry, although no config is remembered. -/
theorem configured_tools_without_config :
    ∃ d, (newDynamicConsumer configured false).step fingerprinter
      (.applyMcpServerConfigBySource source none []) =
        some (d, .ok .unchanged) ∧
      d.serverConfigs = .empty ∧ d.registry.ordered = [toolNamed "configured"] ∧
      ¬ Follows fingerprinter d := by
  refine ⟨_, rfl, rfl, rfl, ?_⟩
  rintro ⟨⟨order, ⟨-, hkeys, -⟩, hordered⟩, -⟩
  obtain rfl : order = [] := by simpa [newDynamicConsumer, FinMap.empty] using hkeys
  simp [newDynamicConsumer, configured, calculateCurrentMergedTools] at hordered

theorem dynamic_catalog_follows_two_sources :
    ∃ d, (newDynamicConsumer newToolRegistry false).run fingerprinter
        [.applyMcpServerConfigBySource source (some ⟨[toolNamed "b"], false⟩) [source],
         .applyMcpServerConfigBySource ⟨"nacos", "a"⟩ (some ⟨[toolNamed "a"], false⟩)
           [⟨"nacos", "a"⟩, source]] =
          some d ∧
      d.registry.ordered = [toolNamed "a", toolNamed "b"] ∧ Follows fingerprinter d := by
  have hrun : (newDynamicConsumer newToolRegistry false).run fingerprinter
      [.applyMcpServerConfigBySource source (some ⟨[toolNamed "b"], false⟩) [source],
       .applyMcpServerConfigBySource ⟨"nacos", "a"⟩ (some ⟨[toolNamed "a"], false⟩)
         [⟨"nacos", "a"⟩, source]] =
        some _ := rfl
  exact ⟨_, hrun, rfl, (dynamic_catalog_follows _ _ _ hrun).2.1 rfl⟩

end DynamicConsumer

end Pixiu.Mcp
