import Pixiu.Base.FinMap

/-!
# The session plan store

The store of selection plans that one MCP filter owns: an entry for each router instance and
session, with the plan in force, the progress of the session and the receipts that are still open,
and the session generations that may own plans.  Every method of `SessionPlanStore` takes the lock
for its whole body, so one method is one step and a run is a list of calls (`SessionPlanStore.run`),
in the order in which they get the lock.

A plan that is stored is a copy of its own, so plans are values here.  The address of a
`receiptState` is a number that `issueReceipt` takes from a counter, and the flags behind the
addresses are part of the state; generations, counts and receipt IDs do not overflow.
-/

namespace Pixiu.Mcp

/-! ## Plans and contexts -/

/-- Selection mode labels. -/
inductive Mode where
  | selected
  | fallbackBundle
  | failClosed
  deriving DecidableEq, Repr

/-- Why the final selected set has its shape. -/
inductive SelectionOutcome where
  | selected
  | noMatch
  | explicitDeny
  | emptyByConfiguration
  | internalError
  deriving DecidableEq, Repr

/-- Decision stage labels. -/
inductive Stage where
  | internal
  | policy
  | workflow
  | progressive
  deriving DecidableEq, Repr

/-- The number of tools before and after a stage. -/
structure StageCount where
  input : ℕ
  output : ℕ
  deriving DecidableEq, Repr

/-- Why a single candidate was dropped at a stage. -/
structure DecisionTrace where
  tool : String := ""
  stage : Stage
  rule : String := ""
  detail : String := ""
  deriving DecidableEq, Repr

/-- The claims of a token: a map, written in the order of its keys. -/
structure Claims (V : Type) where
  entries : List (String × V)
  sorted : entries.Pairwise fun a b => a.1 < b.1

/-- The input to a selection decision; `V` is the type of the claims' values. -/
structure SelectionContext (V : Type) where
  sessionID : String
  sessionGeneration : ℕ
  method : String
  userID : String
  tenant : String
  claims : Claims V
  requested : String
  catalogVersion : String

/-- The result of one selection, bound to a session.  `visibleToolNames = none` is a nil slice. -/
structure SelectionPlan where
  sessionID : String
  toolNames : List String
  visibleToolNames : Option (List String)
  visibleFingerprint : String
  mode : Mode
  outcome : SelectionOutcome
  stageCounts : List (Stage × StageCount)
  reasons : List DecisionTrace
  version : String
  identityHash : String
  progressiveHash : String
  configHash : String
  catalogVersion : String
  generation : ℕ
  expanded : Bool
  deriving DecidableEq, Repr

/-- Whether the plan authorizes the named tool. -/
def SelectionPlan.contains (p : SelectionPlan) (tool : String) : Bool := p.toolNames.contains tool

/-- `clonePlan`. -/
def clonePlan (plan : SelectionPlan) (includeReasons : Bool) : SelectionPlan :=
  if includeReasons then plan else { plan with reasons := [] }

/-- A router instance and a session. -/
structure PlanKey where
  routerID : String
  sessionID : String
  deriving DecidableEq, Repr

/-- `NewPlanKey`. -/
def newPlanKey (routerID sessionID : String) : PlanKey := ⟨routerID, sessionID⟩

/-- `valid`. -/
def PlanKey.valid (k : PlanKey) : Bool := k.routerID != "" && k.sessionID != ""

/-- The errors of the store. -/
inductive PlanError where
  | toolNotAuthorized
  | invalidPlanKey
  | invalidSelectionPlan
  | sessionPlanNotActive
  | sessionPlanStale
  | planStoreFull
  deriving DecidableEq, Repr

/-- The text of an error. -/
def PlanError.text : PlanError → String
  | .toolNotAuthorized => "tool not authorized for this session"
  | .invalidPlanKey => "invalid mcp router session plan key"
  | .invalidSelectionPlan => "invalid mcp router selection plan"
  | .sessionPlanNotActive => "mcp router session plan is not active"
  | .sessionPlanStale => "mcp router session plan is stale"
  | .planStoreFull => "mcp router session capacity reached"

/-! ## Receipts -/

/-- What binds one `tools/call` authorization to the plan it was given by.  `state` is the address
of the receipt's `receiptState`, `none` for a nil pointer. -/
structure AuthorizationReceipt where
  routerInstanceID : String
  sessionID : String
  toolName : String
  planGeneration : ℕ
  identityHash : String
  configHash : String
  catalogVersion : String
  progressiveHash : String
  receiptID : ℕ
  state : Option ℕ
  deriving DecidableEq, Repr

/-- `ReceiptOutcome`. -/
inductive ReceiptOutcome where
  | succeeded
  | aborted
  deriving DecidableEq, Repr

/-- The effect of one successful call on progressive disclosure. -/
structure CallSuccessResult where
  count : ℕ := 0
  transitioned : Bool := false
  deriving DecidableEq, Repr

/-- The live inputs that a stored plan must match before a receipt is issued from it. -/
structure ReceiptVersionRequest where
  key : PlanKey
  requested : String
  expectedVersion : String
  identityHash : String
  configHash : String
  catalogVersion : String
  progressiveHash : String
  routerID : String
  deriving DecidableEq, Repr

/-! ## Entries -/

variable {V : Type}

/-- The plan of a session and the state that is kept as long as the session.  An entry in the store
always has a plan; an empty `activeReceipts` is the nil map. -/
structure SessionEntry (V : Type) where
  plan : SelectionPlan
  context : SelectionContext V
  callCount : ℕ
  expanded : Bool
  identityHash : String
  progressiveHash : String
  configHash : String
  catalogVersion : String
  generation : ℕ
  nextReceiptID : ℕ
  activeReceipts : ℕ → Option ℕ

namespace SessionEntry

/-- The second half of `setLocked`: the entry that holds `stored`, with the counters it had
before. -/
def write (callCount : ℕ) (expanded : Bool) (generation nextReceiptID : ℕ) (key : PlanKey)
    (stored : SelectionPlan) (sc : SelectionContext V) : SessionEntry V where
  plan := { stored with
    expanded := expanded || stored.expanded
    generation := generation + 1
    reasons := []
    sessionID := key.sessionID }
  context := sc
  callCount := callCount
  expanded := expanded
  identityHash := stored.identityHash
  progressiveHash := stored.progressiveHash
  configHash := stored.configHash
  catalogVersion := stored.catalogVersion
  generation := generation + 1
  nextReceiptID := nextReceiptID
  activeReceipts := fun _ => none

/-- The entry of a key that had none. -/
def create (key : PlanKey) (stored : SelectionPlan) (sc : SelectionContext V) : SessionEntry V :=
  write 0 false 0 0 key stored sc

/-- Whether `setLocked` starts the call count again. -/
def resetBy (e : SessionEntry V) (stored : SelectionPlan) : Bool :=
  e.identityHash != stored.identityHash || e.progressiveHash != stored.progressiveHash

/-- The entry of a key that had one. -/
def replace (e : SessionEntry V) (key : PlanKey) (stored : SelectionPlan)
    (sc : SelectionContext V) :
    SessionEntry V :=
  if e.resetBy stored then write 0 false e.generation e.nextReceiptID key stored sc
  else write e.callCount e.expanded e.generation e.nextReceiptID key stored sc

/-- `issueReceipt`, where `state` is the address of the new `receiptState`. -/
def issueReceipt (e : SessionEntry V) (key : PlanKey) (requested routerID : String) (state : ℕ) :
    SessionEntry V × AuthorizationReceipt :=
  ({ e with
      nextReceiptID := e.nextReceiptID + 1
      activeReceipts := Function.update e.activeReceipts (e.nextReceiptID + 1) (some state) },
    { routerInstanceID := routerID
      sessionID := key.sessionID
      toolName := requested
      planGeneration := e.plan.generation
      identityHash := e.identityHash
      configHash := e.configHash
      catalogVersion := e.catalogVersion
      progressiveHash := e.progressiveHash
      receiptID := e.nextReceiptID + 1
      state := some state })

/-- Whether a receipt carries what the entry holds now. -/
def current (e : SessionEntry V) (receipt : AuthorizationReceipt) : Bool :=
  e.generation == receipt.planGeneration && e.identityHash == receipt.identityHash &&
    e.configHash == receipt.configHash && e.catalogVersion == receipt.catalogVersion &&
    e.progressiveHash == receipt.progressiveHash && e.plan.contains receipt.toolName

/-- The receipt is no longer open. -/
def release (e : SessionEntry V) (receiptID : ℕ) : SessionEntry V :=
  { e with activeReceipts := Function.update e.activeReceipts receiptID none }

/-- The call is counted, and the entry expands at the threshold. -/
def countCall (e : SessionEntry V) (expandAfter : ℤ) : SessionEntry V × CallSuccessResult :=
  let count := e.callCount + 1
  if e.expanded = false ∧ expandAfter ≤ count then
    ({ e with
        callCount := count
        expanded := true
        generation := e.generation + 1
        plan := { e.plan with expanded := true, generation := e.generation + 1 }
        activeReceipts := fun _ => none },
      { count, transitioned := true })
  else ({ e with callCount := count }, { count })

end SessionEntry

/-! ## The store -/

/-- The store: entries, the generation that each active session has, the capacity, and the memory of
the receipts: how many `receiptState`s there are and which are consumed. -/
structure SessionPlanStore (V : Type) where
  entries : FinMap PlanKey (SessionEntry V)
  activeSessions : String → Option ℕ
  max : ℕ
  receiptStates : ℕ
  consumed : ℕ → Bool

/-- A cloned plan and what it was built from. -/
structure SessionPlanContext (V : Type) where
  key : PlanKey
  plan : SelectionPlan
  context : SelectionContext V
  planGeneration : ℕ
  sessionGeneration : ℕ

namespace SessionPlanStore

/-- `DefaultPlanMaxEntries`. -/
def defaultPlanMaxEntries : ℕ := 10000

/-- A non-positive capacity is the default. -/
def capacity (maxEntries : ℤ) : ℕ :=
  if maxEntries ≤ 0 then defaultPlanMaxEntries else maxEntries.toNat

/-- `NewSessionPlanStoreWithMaxEntries`. -/
def newSessionPlanStoreWithMaxEntries (maxEntries : ℤ) : SessionPlanStore V where
  entries := .empty
  activeSessions := fun _ => none
  max := capacity maxEntries
  receiptStates := 0
  consumed := fun _ => false

variable (s : SessionPlanStore V)

/-- `ActivateSession`. -/
def activateSession (sessionID : String) (generation : ℕ) :
    SessionPlanStore V × Except PlanError Unit :=
  if sessionID = "" ∨ generation = 0 then (s, .error .sessionPlanNotActive)
  else ({ s with activeSessions := Function.update s.activeSessions sessionID (some generation) },
    .ok ())

/-- `Get`. -/
def get (key : PlanKey) : Option SelectionPlan :=
  if key.valid then (s.entries.lookup key).map fun e => clonePlan e.plan true else none

/-- `validatePlanWrite`. -/
def validatePlanWrite (key : PlanKey) (plan : Option SelectionPlan) (sc : SelectionContext V) :
    Except PlanError SelectionPlan :=
  if key.valid = false then .error .invalidPlanKey
  else match plan with
    | none => .error .invalidSelectionPlan
    | some plan =>
      if plan.sessionID ≠ "" ∧ plan.sessionID ≠ key.sessionID then .error .invalidSelectionPlan
      else if sc.sessionID ≠ "" ∧ sc.sessionID ≠ key.sessionID then .error .invalidSelectionPlan
      else .ok plan

/-- `sessionActiveLocked`. -/
def sessionActiveLocked (sc : SelectionContext V) : Bool :=
  sc.sessionGeneration == 0 || s.activeSessions sc.sessionID == some sc.sessionGeneration

/-- `setLocked`. -/
def setLocked (key : PlanKey) (stored : SelectionPlan) (sc : SelectionContext V)
    (allowCreate : Bool) :
    SessionPlanStore V × Except PlanError SelectionPlan :=
  match s.entries.lookup key with
  | none =>
    if allowCreate = false then (s, .error .sessionPlanStale)
    else if s.max ≤ s.entries.size then (s, .error .planStoreFull)
    else
      let e := SessionEntry.create key stored sc
      ({ s with entries := s.entries.insert key e }, .ok (clonePlan e.plan true))
  | some e =>
    let e := e.replace key stored sc
    ({ s with entries := s.entries.insert key e }, .ok (clonePlan e.plan true))

/-- `Commit`. -/
def commit (key : PlanKey) (plan : Option SelectionPlan) (sc : SelectionContext V) :
    SessionPlanStore V × Except PlanError SelectionPlan :=
  match validatePlanWrite key (plan.map (clonePlan · false)) sc with
  | .error err => (s, .error err)
  | .ok stored =>
    if s.sessionActiveLocked sc = false then (s, .error .sessionPlanNotActive)
    else s.setLocked key stored sc true

/-- The result is `none` where the source returns false without an error. -/
def setIfCurrent (base : SessionPlanContext V) (plan : Option SelectionPlan) :
    SessionPlanStore V × Except PlanError (Option SelectionPlan) :=
  match validatePlanWrite base.key (plan.map (clonePlan · false)) base.context with
  | .error err => (s, .error err)
  | .ok stored =>
    if base.planGeneration = 0 then (s, .error .sessionPlanStale)
    else if s.sessionActiveLocked base.context = false then (s, .ok none)
    else match s.entries.lookup base.key with
      | none => (s, .ok none)
      | some e =>
        if e.generation ≠ base.planGeneration ∨
            e.context.sessionGeneration ≠ base.context.sessionGeneration then (s, .ok none)
        else
          let r := s.setLocked base.key stored base.context false
          (r.1, r.2.map some)

/-- The context that `SessionPlanContexts` returns for a key. -/
def sessionPlanContext (key : PlanKey) : Option (SessionPlanContext V) :=
  (s.entries.lookup key).map fun e =>
    { key
      plan := clonePlan e.plan false
      context := e.context
      planGeneration := e.generation
      sessionGeneration := e.context.sessionGeneration }

/-- `Delete`. -/
def delete (key : PlanKey) : SessionPlanStore V :=
  if key.valid = false then s else { s with entries := s.entries.erase key }

/-- `DeleteSession`. -/
def deleteSession (sessionID : String) : SessionPlanStore V :=
  if sessionID = "" then s
  else { s with
    entries := s.entries.filter fun key => key.sessionID != sessionID
    activeSessions := Function.update s.activeSessions sessionID none }

/-- The entry issues a receipt: a new `receiptState` and a new entry in its place. -/
def issueFrom (key : PlanKey) (e : SessionEntry V) (requested routerID : String) :
    SessionPlanStore V × AuthorizationReceipt :=
  let r := e.issueReceipt key requested routerID s.receiptStates
  ({ s with entries := s.entries.insert key r.1, receiptStates := s.receiptStates + 1 }, r.2)

/-- `IssueReceipt`. -/
def issueReceipt (key : PlanKey) (requested : String) (plan : Option SelectionPlan)
    (routerID : String) :
    SessionPlanStore V × Except PlanError AuthorizationReceipt :=
  match plan, s.entries.lookup key with
  | some plan, some e =>
    if key.valid = false ∨ requested = "" then (s, .error .toolNotAuthorized)
    else if e.plan.version ≠ plan.version ∨ e.identityHash ≠ plan.identityHash ∨
        e.configHash ≠ plan.configHash ∨ e.catalogVersion ≠ plan.catalogVersion ∨
        e.progressiveHash ≠ plan.progressiveHash ∨ e.plan.contains requested = false then
      (s, .error .toolNotAuthorized)
    else
      let r := s.issueFrom key e requested routerID
      (r.1, .ok r.2)
  | _, _ => (s, .error .toolNotAuthorized)

/-- The result is `none` where the source returns `stale`. -/
def issueReceiptForVersion (req : ReceiptVersionRequest) :
    SessionPlanStore V × Except PlanError (Option AuthorizationReceipt) :=
  if req.key.valid = false ∨ req.requested = "" ∨
    req.expectedVersion = "" then (s, .error .toolNotAuthorized)
  else match s.entries.lookup req.key with
    | none => (s, .error .toolNotAuthorized)
    | some e =>
      if e.plan.version ≠ req.expectedVersion ∨ e.identityHash ≠ req.identityHash ∨
          e.configHash ≠ req.configHash ∨ e.catalogVersion ≠ req.catalogVersion ∨
          e.progressiveHash ≠ req.progressiveHash then (s, .ok none)
      else if e.plan.contains req.requested = false then (s, .error .toolNotAuthorized)
      else
        let r := s.issueFrom req.key e req.requested req.routerID
        (r.1, .ok (some r.2))

/-- `CommitAndIssueReceipt`. -/
def commitAndIssueReceipt (key : PlanKey) (plan : Option SelectionPlan) (sc : SelectionContext V)
    (requested routerID : String) :
    SessionPlanStore V × Except PlanError (SelectionPlan × AuthorizationReceipt) :=
  match validatePlanWrite key (plan.map (clonePlan · false)) sc with
  | .error err => (s, .error err)
  | .ok stored =>
    if requested = "" then (s, .error .toolNotAuthorized)
    else if s.sessionActiveLocked sc = false then (s, .error .sessionPlanNotActive)
    else match s.setLocked key stored sc true with
      | (s, .error err) => (s, .error err)
      | (s, .ok committed) =>
        match s.entries.lookup key with
        | none => (s, .error .toolNotAuthorized)
        | some e =>
          if e.plan.contains requested = false then (s, .error .toolNotAuthorized)
          else
            let r := s.issueFrom key e requested routerID
            (r.1, .ok (committed, r.2))

/-- `finalizeReceiptLocked`. -/
def finalizeReceiptLocked (key : PlanKey) (receipt : AuthorizationReceipt)
    (outcome : ReceiptOutcome)
    (expandAfter : ℤ) : SessionPlanStore V × CallSuccessResult :=
  match s.entries.lookup key, receipt.state with
  | some e, some state =>
    if e.current receipt = false then (s, {})
    else if e.activeReceipts receipt.receiptID ≠ some state ∨ s.consumed state = true then (s, {})
    else
      let consumed := Function.update s.consumed state true
      let e := e.release receipt.receiptID
      if outcome ≠ .succeeded ∨ expandAfter ≤ 0 then
        ({ s with entries := s.entries.insert key e, consumed }, {})
      else
        let r := e.countCall expandAfter
        ({ s with entries := s.entries.insert key r.1, consumed }, r.2)
  | _, _ => (s, {})

/-- `FinalizeReceipt`. -/
def finalizeReceipt (receipt : AuthorizationReceipt) (outcome : ReceiptOutcome) (expandAfter : ℤ) :
    SessionPlanStore V × CallSuccessResult :=
  let key := newPlanKey receipt.routerInstanceID receipt.sessionID
  if key.valid = false ∨ receipt.toolName = "" ∨ receipt.receiptID = 0 ∨
    receipt.state = none then (s, {})
  else s.finalizeReceiptLocked key receipt outcome expandAfter

/-- `RecordCallSuccess`. -/
def recordCallSuccess (receipt : AuthorizationReceipt) (expandAfter : ℤ) :
    SessionPlanStore V × CallSuccessResult :=
  if expandAfter ≤ 0 then (s, {}) else s.finalizeReceipt receipt .succeeded expandAfter

/-- `CallCount`. -/
def callCount (key : PlanKey) : ℕ :=
  match s.entries.lookup key with
  | none => 0
  | some e => e.callCount

/-- `SetMaxEntries`. -/
def setMaxEntries (maxEntries : ℤ) : SessionPlanStore V := { s with max := capacity maxEntries }

/-- `Stop`. -/
def stop : SessionPlanStore V := { s with entries := .empty, activeSessions := fun _ => none }

end SessionPlanStore

/-! ## Runs -/

/-- A call of a method that writes. -/
inductive Call (V : Type) where
  | activateSession (sessionID : String) (generation : ℕ)
  | commit (key : PlanKey) (plan : Option SelectionPlan) (sc : SelectionContext V)
  | setIfCurrent (base : SessionPlanContext V) (plan : Option SelectionPlan)
  | delete (key : PlanKey)
  | deleteSession (sessionID : String)
  | issueReceipt (key : PlanKey) (requested : String) (plan : Option SelectionPlan)
      (routerID : String)
  | issueReceiptForVersion (req : ReceiptVersionRequest)
  | commitAndIssueReceipt (key : PlanKey) (plan : Option SelectionPlan) (sc : SelectionContext V)
      (requested routerID : String)
  | finalizeReceipt (receipt : AuthorizationReceipt) (outcome : ReceiptOutcome) (expandAfter : ℤ)
  | recordCallSuccess (receipt : AuthorizationReceipt) (expandAfter : ℤ)
  | setMaxEntries (maxEntries : ℤ)
  | stop

/-- What a call returns. -/
inductive Reply where
  | done
  | failed (err : PlanError)
  | plan (plan : SelectionPlan)
  | notCommitted
  | receipt (receipt : AuthorizationReceipt)
  | stale
  | committed (plan : SelectionPlan) (receipt : AuthorizationReceipt)
  | result (result : CallSuccessResult)
  deriving DecidableEq, Repr

/-- The reply for a result that may be an error. -/
def Reply.ofExcept {α : Type} (f : α → Reply) : Except PlanError α → Reply
  | .error err => .failed err
  | .ok a => f a

namespace SessionPlanStore

/-- One call. -/
def step (s : SessionPlanStore V) : Call V → SessionPlanStore V × Reply
  | .activateSession sessionID generation =>
    (s.activateSession sessionID generation).map id (.ofExcept fun _ => .done)
  | .commit key plan sc => (s.commit key plan sc).map id (.ofExcept .plan)
  | .setIfCurrent base plan =>
    (s.setIfCurrent base plan).map id (.ofExcept fun r => r.elim .notCommitted .plan)
  | .delete key => (s.delete key, .done)
  | .deleteSession sessionID => (s.deleteSession sessionID, .done)
  | .issueReceipt key requested plan routerID =>
    (s.issueReceipt key requested plan routerID).map id (.ofExcept .receipt)
  | .issueReceiptForVersion req =>
    (s.issueReceiptForVersion req).map id (.ofExcept fun r => r.elim .stale .receipt)
  | .commitAndIssueReceipt key plan sc requested routerID =>
    (s.commitAndIssueReceipt key plan sc requested routerID).map id
      (.ofExcept fun r => .committed r.1 r.2)
  | .finalizeReceipt receipt outcome expandAfter =>
    (s.finalizeReceipt receipt outcome expandAfter).map id .result
  | .recordCallSuccess receipt expandAfter =>
    (s.recordCallSuccess receipt expandAfter).map id .result
  | .setMaxEntries maxEntries => (s.setMaxEntries maxEntries, .done)
  | .stop => (s.stop, .done)

/-- The store after a call. -/
def next (s : SessionPlanStore V) (c : Call V) : SessionPlanStore V := (s.step c).1

/-- What a call returns. -/
def reply (s : SessionPlanStore V) (c : Call V) : Reply := (s.step c).2

/-- The store after a list of calls. -/
def run (s : SessionPlanStore V) (calls : List (Call V)) : SessionPlanStore V := calls.foldl next s

end SessionPlanStore

/-! ## A session with one tool -/

namespace Sample

/-- The key of a session. -/
def key : PlanKey := ⟨"router-1", "s"⟩

/-- A request of the session, made in one of its generations. -/
def context (sessionGeneration : ℕ) : SelectionContext Unit where
  sessionID := "s"
  sessionGeneration := sessionGeneration
  method := "tools/call"
  userID := "u"
  tenant := ""
  claims := ⟨[], List.Pairwise.nil⟩
  requested := "t"
  catalogVersion := "1:c"

/-- A plan with the single tool of the session. -/
def plan (version : String) : SelectionPlan where
  sessionID := "s"
  toolNames := ["t"]
  visibleToolNames := some ["t"]
  visibleFingerprint := "f"
  mode := .selected
  outcome := .selected
  stageCounts := []
  reasons := []
  version := version
  identityHash := "i"
  progressiveHash := "p"
  configHash := "c"
  catalogVersion := "1:c"
  generation := 0
  expanded := false

/-- The first receipt that is issued from the first plan of the session. -/
def receipt : AuthorizationReceipt where
  routerInstanceID := "router-1"
  sessionID := "s"
  toolName := "t"
  planGeneration := 1
  identityHash := "i"
  configHash := "c"
  catalogVersion := "1:c"
  progressiveHash := "p"
  receiptID := 1
  state := some 0

end Sample

end Pixiu.Mcp
