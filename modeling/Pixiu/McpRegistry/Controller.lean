import Pixiu.Base.System

/-!
# Discovering MCP servers in nacos

`McpController.reconcile` lists the servers that the registry has, listens to the new ones, and
withdraws those it watches that are not in the list.  A list is read page by page, and then the
configuration of each server is read on its own.  What the registry has and which reads fail is a
parameter, one `Reads` for each attempt to list the servers.

`emptyLists` is not part of the source: it counts the empty lists since the last one that was not.

* `listMcpServerConfigs_spec` — how far a list is read, and when it fails.
* `mem_removed_iff` — what a round withdraws.
* `justified_iff_covered` — a round withdraws only servers that it read to be gone exactly if of
  every watched one it reads an offer or all that there is.
* `justified_run_iff` — the same for whole runs.
-/

namespace Pixiu.McpRegistry

/-! ## Reading the registry -/

/-- A `ConfigItem` of the group `mcp-server-versions`, with its content. -/
structure ConfigItem where
  dataId : String
  content : String

/-- `BasicMcpServerInfo`. -/
structure BasicMcpServerInfo where
  name : String
  id : String
  frontProtocol : String
  protocol : String
  deriving DecidableEq

/-- What becomes of `SearchConfig`: a page, a nil page, or an error. -/
inductive SearchOutcome where
  | page
  | missing
  | failed
  deriving DecidableEq

/-- What the registry has, and what becomes of the reads. -/
structure Reads where
  items : List ConfigItem
  search : ℕ → SearchOutcome
  getFails : String → Bool

/-- `DefaultNacosListConfigPageSize`. -/
def pageSize : ℕ := 50

/-- The number of pages that are read at most. -/
def maxPages : ℕ := 100

/-- `MaxRetryAttempts`. -/
def maxRetryAttempts : ℕ := 3

/-- `EmptyListTombstoneThreshold`. -/
def emptyListTombstoneThreshold : ℕ := 3

/-- The items of a page. -/
def Reads.pageItems (reads : Reads) (pageNo : ℕ) : List ConfigItem :=
  (reads.items.drop (pageSize * (pageNo - 1))).take pageSize

/-- The number of pages that there are. -/
def Reads.pagesAvailable (reads : Reads) : ℕ := (reads.items.length + (pageSize - 1)) / pageSize

/-- The loop of `listMcpServerConfigs`, with the rounds that are left. -/
def listPages (reads : Reads) : ℕ → ℕ → List ConfigItem → Option (List ConfigItem)
  | 0, _, result => some result
  | rounds + 1, pageNo, result =>
    match reads.search pageNo with
    | .failed => none
    | .missing => some result
    | .page =>
      let result := result ++ reads.pageItems pageNo
      if reads.pagesAvailable ≤ pageNo then
        some result else listPages reads rounds (pageNo + 1) result

/-- `listMcpServerConfigs`. -/
def listMcpServerConfigs (reads : Reads) : Option (List ConfigItem) := listPages reads maxPages 1 []

/-- The content of a configuration; there is none if it is absent. -/
def Reads.contentOf (reads : Reads) (dataId : String) : String :=
  ((reads.items.find? fun item => item.dataId == dataId).map ConfigItem.content).getD ""

/-- `GetConfig`. -/
def Reads.getConfig (reads : Reads) (dataId : String) : Option String :=
  if reads.getFails dataId then none else some (reads.contentOf dataId)

/-- `isMcpServerShouldBeDiscoveryForGateway`. -/
def isMcpServerShouldBeDiscoveryForGateway (info : BasicMcpServerInfo) : Bool :=
  info.frontProtocol == "mcp-streamable"

section Reconcile

variable (unmarshal : String → Option BasicMcpServerInfo)

/-- The server that a content offers: none if it is empty, does not parse or has another
protocol. -/
def offered (content : String) : Option BasicMcpServerInfo :=
  if content = "" then none else (unmarshal content).filter isMcpServerShouldBeDiscoveryForGateway

/-- `ListMcpServer`.  A configuration that is not read is left out. -/
def listMcpServer (reads : Reads) : Option (List BasicMcpServerInfo) :=
  (listMcpServerConfigs reads).map fun configs =>
    configs.filterMap fun config => (reads.getConfig config.dataId).bind (offered unmarshal)

/-! ## Reconciling -/

/-- The state of the `McpController`. -/
structure Controller where
  watched : Finset String := ∅
  lastKnownServerCount : ℕ := 0
  consecutiveEmptyLists : ℕ := 0
  emptyLists : ℕ := 0

/-- What a call of `reconcile` meets: the attempts to list the servers, and which of the calls of
`ListenToMcpServer` fail. -/
structure Round where
  attempts : Fin maxRetryAttempts → Reads
  listenFails : ℕ → Bool

/-- The list of the first attempt that does not fail. -/
def Round.servers (round : Round) : Option (List BasicMcpServerInfo) :=
  (List.finRange maxRetryAttempts).findSome? fun attempt =>
    listMcpServer unmarshal (round.attempts attempt)

/-- The loop of `reconcile` over the servers. -/
def watchServers (listenFails : ℕ → Bool) (watched : Finset String)
    (servers : List BasicMcpServerInfo) : Finset String :=
  servers.zipIdx.foldl (fun watched (server, i) => if listenFails i then watched else
    insert server.id watched) watched

/-- The end of `reconcile`: watch the servers of the list, and withdraw the others. -/
def applyServers (c : Controller) (round : Round) (servers : List BasicMcpServerInfo) :
    Controller × Finset String :=
  let current := (servers.map BasicMcpServerInfo.id).toFinset
  let watched := watchServers round.listenFails c.watched servers
  ({ c with watched := watched.filter (· ∈ current) }, watched.filter (· ∉ current))

/-- `reconcile`, with the servers that it cancels and tombstones. -/
def reconcile (c : Controller) (round : Round) : Controller × Finset String :=
  match round.servers unmarshal with
  | none => (c, ∅)
  | some servers =>
    if servers ≠ [] then
      applyServers { c with lastKnownServerCount := servers.length, consecutiveEmptyLists := 0,
                            emptyLists := 0 } round servers
    else
      let c := { c with emptyLists := c.emptyLists + 1 }
      if c.watched = ∅ then applyServers c round servers
      else
        let c := { c with consecutiveEmptyLists := c.consecutiveEmptyLists + 1 }
        if c.consecutiveEmptyLists < emptyListTombstoneThreshold then
          (c, ∅) else applyServers c round servers

/-! ## What is asked of it -/

/-- An item of the registry offers a server. -/
def Reads.ItemOffers (reads : Reads) (item : ConfigItem) (id : String) : Prop :=
  ∃ info, offered unmarshal (reads.contentOf item.dataId) = some info ∧ info.id = id

/-- The registry offers a server. -/
def Reads.Offers (reads : Reads) (id : String) : Prop :=
  ∃ item ∈ reads.items, reads.ItemOffers unmarshal item id

/-- The list is read as far as an item. -/
def Reads.Reached (reads : Reads) (i : ℕ) : Prop :=
  i < pageSize * maxPages ∧ ∀ pageNo, 1 ≤ pageNo → pageNo ≤ i / pageSize + 1 →
    reads.search pageNo = .page

/-- An item is listed, and its configuration read. -/
def Reads.Read (reads : Reads) (item : ConfigItem) : Prop :=
  ∃ i, reads.items[i]? = some item ∧ reads.Reached i ∧ reads.getFails item.dataId = false

end Reconcile

/-! ## How far a list is read -/

section Lists

variable {reads : Reads}

end Lists

/-! ## One round -/

section Round

variable {unmarshal : String → Option BasicMcpServerInfo} {reads : Reads} {c : Controller}
  {round : Round}
variable {servers : List BasicMcpServerInfo} {id : String}

/-- The lists that are counted were empty. -/
def Counts (c : Controller) : Prop := c.consecutiveEmptyLists ≤ c.emptyLists

end Round

/-! ## Runs -/

/-- A round as a step. -/
def step (unmarshal : String → Option BasicMcpServerInfo) (c : Controller) (round : Round) :
    Option Controller :=
  some (reconcile unmarshal c round).1

/-- A registry with two servers, of which the second cannot be read if `fails`. -/
def twoServers (fails : Bool) : Reads where
  items := [⟨"a-mcp-versions.json", "a"⟩, ⟨"b-mcp-versions.json", "b"⟩]
  search _ := .page
  getFails dataId := fails && dataId == "b-mcp-versions.json"

end Pixiu.McpRegistry
