import Pixiu.Server.Listener

/-!
# Replacing the listeners of xDS

`ReplaceXDSListeners` makes the requested listeners the ones owned by xDS.  It prepares the filter
chains of those that are there and creates services for the others, starts the new services, hands
sockets over between HTTP and HTTP2, and only then changes the table.  On a failure before that
point the hand-overs are undone and what was prepared or created is closed.

How the services behave, and the orders in which Go ranges over its maps, are parameters.
-/

namespace Pixiu.Server

/-- How the services behave in one call, by the key of the listener.  The steps of a hand-over are
named by the key of the old listener. -/
structure Behaviour where
  prepare : String → Bool
  create : String → Option Capabilities
  start : String → Outcome
  stopOld : String → Outcome
  startNew : String → Outcome
  stopNew : String → Outcome
  restore : String → Outcome

/-- An order in which a map is ranged over, for each set of its keys. -/
structure KeyOrder where
  list : Finset String → List String
  nodup : ∀ keys, (list keys).Nodup
  mem_list : ∀ keys key, key ∈ list keys ↔ key ∈ keys

/-- The orders of the loops of one call. -/
structure Orders where
  staged : KeyOrder
  managed : String → KeyOrder
  start : KeyOrder
  stopNew : KeyOrder
  restore : KeyOrder

/-- What goes wrong during a hand-over. -/
inductive HandoffError where
  | close (key : String)
  | start (key : String)
  deriving DecidableEq, Repr

/-- The errors of `ReplaceXDSListeners`.  One that occurs during the hand-over also names the new
listeners that could not be stopped and the old ones that could not be restored. -/
inductive ReplaceError where
  | nilConfig
  | duplicate (key : String)
  | conflict (key : String)
  | prepare (key : String)
  | create (key : String)
  | noHandoff (key : String)
  | multiple (key : String)
  | start (key : String)
  | handoff (cause : HandoffError) (notStopped notRestored : List String)
  deriving DecidableEq, Repr

/-- The old listeners that could not be restored. -/
def ReplaceError.notRestored : ReplaceError → List String
  | .handoff _ _ notRestored => notRestored
  | _ => []

/-- The step has failed. -/
def Outcome.isFailed : Outcome → Bool
  | .done => false
  | .failed _ => true

/-- A listener that is there already, with the filter chain that is prepared for it. -/
structure RefreshTarget where
  key : String
  next : Listener
  prepared : FilterChain
  deriving DecidableEq, Repr

/-- What is prepared before the hand-over. -/
structure Staging where
  newManaged : Finset String
  staged : FinMap String WrapListenerService
  refreshes : List RefreshTarget

/-- The table and the new services while sockets are handed over, and the old listeners that were
closed for it. -/
structure Handing where
  active : FinMap String WrapListenerService
  staged : FinMap String WrapListenerService
  closed : List String

/-- What a call leaves behind: the manager, the services and filter chains that were made in the
call, and those that left the table. -/
structure Replacement where
  manager : ListenerManager
  result : Except ReplaceError Unit
  created : FinMap String WrapListenerService
  prepared : List RefreshTarget
  removed : FinMap String WrapListenerService
  retired : List (String × FilterChain)

/-- `isHTTPProtocolHandoff`. -/
def isHTTPProtocolHandoff (old next : Listener) : Bool :=
  old.protocol != next.protocol && (old.protocol == .http || old.protocol == .http2) &&
    (next.protocol == .http || next.protocol == .http2) &&
    (0 < old.port && old.address == next.address && old.port == next.port)

namespace ListenerManager

variable (lm : ListenerManager) (orders : Orders) (b : Behaviour)

/-- One round of the loop over the requested listeners. -/
def stageListener (st : Staging) : Option Listener → Staging × Option ReplaceError
  | none => (st, some .nilConfig)
  | some config =>
    let key := resolveListenerName config
    if key ∈ st.newManaged then (st, some (.duplicate key))
    else
      let st := { st with newManaged := insert key st.newManaged }
      match lm.activeListenerService.lookup key with
      | some active =>
        if key ∉ lm.xdsManaged then (st, some (.conflict key))
        else if active.service.capabilities.transactional && b.prepare key then
          ({ st with refreshes := st.refreshes ++ [⟨key, config, ⟨config, 0⟩⟩] }, none)
        else (st, some (.prepare key))
      | none =>
        match b.create key with
        | none => (st, some (.create key))
        | some capabilities =>
          let service := (Service.create .xds capabilities config).setListenerActive false
          ({ st with staged := st.staged.insert key ⟨config, service⟩ }, none)

/-- The first loop of `ReplaceXDSListeners`. -/
def stageListeners : Staging → List (Option Listener) → Staging × Option ReplaceError
  | st, [] => (st, none)
  | st, listener :: listeners =>
    match lm.stageListener b st listener with
    | (st, some err) => (st, some err)
    | (st, none) => stageListeners st listeners

/-- One round of the loops that look for hand-overs. -/
def addHandoff (st : Staging) (newKey : String) (handoffs : FinMap String String)
    (oldKey : String) :
    Except ReplaceError (FinMap String String) :=
  if oldKey ∈ st.newManaged then .ok handoffs
  else match lm.activeListenerService.lookup oldKey, st.staged.lookup newKey with
    | some old, some next =>
      if !isHTTPProtocolHandoff old.config next.config then .ok handoffs
      else if !old.service.capabilities.stopAccepting then .error (.noHandoff oldKey)
      else if !next.service.capabilities.stopAccepting then .error (.noHandoff newKey)
      else if (handoffs.lookup oldKey).isSome then .error (.multiple oldKey)
      else .ok (handoffs.insert oldKey newKey)
    | _, _ => .ok handoffs

/-- The old and the new keys of the hand-overs. -/
def findHandoffs (st : Staging) : Except ReplaceError (FinMap String String) :=
  (orders.staged.list st.staged.keys).foldlM (fun handoffs newKey =>
    ((orders.managed newKey).list lm.xdsManaged).foldlM (lm.addHandoff st newKey) handoffs) .empty

end ListenerManager

/-- The listener takes over a socket. -/
def isHandoffNew (handoffs : FinMap String String) (newKey : String) : Bool :=
  decide (∃ oldKey ∈ handoffs.keys, handoffs.lookup oldKey = some newKey)

section

variable (b : Behaviour) (handoffs : FinMap String String)

/-- The loop that starts the new services whose socket is free. -/
def startStaged : FinMap String WrapListenerService → List String →
    FinMap String WrapListenerService × Option ReplaceError
  | staged, [] => (staged, none)
  | staged, key :: keys =>
    if isHandoffNew handoffs key then startStaged staged keys
    else
      let staged := staged.modify key (·.onService (·.start (b.start key)))
      if (b.start key).isFailed then (staged, some (.start key)) else startStaged staged keys

/-- One hand-over: the old listener is stopped, then the new one is started. -/
def handOver (h : Handing) (oldKey newKey : String) : Handing × Option HandoffError :=
  let h := { h with
    active := h.active.modify oldKey
      (·.onService fun s => (s.setListenerActive false).stopAccepting (b.stopOld oldKey))
    closed := h.closed ++ [oldKey] }
  if (b.stopOld oldKey).isFailed then (h, some (.close oldKey))
  else
    let h := { h with staged := h.staged.modify newKey (·.onService (·.start (b.startNew oldKey))) }
    (h, if (b.startNew oldKey).isFailed then some (.start newKey) else none)

/-- The hand-overs, up to the first error. -/
def handOverAll : Handing → List String → Handing × Option HandoffError
  | h, [] => (h, none)
  | h, oldKey :: keys =>
    match handOver b h oldKey ((handoffs.lookup oldKey).getD "") with
    | (h, some err) => (h, some err)
    | (h, none) => handOverAll h keys

/-- Stop the new listener of a hand-over. -/
def stopNewListener (staged : FinMap String WrapListenerService) (oldKey : String) :
    FinMap String WrapListenerService :=
  staged.modify ((handoffs.lookup oldKey).getD "")
    (·.onService (·.stopAccepting (b.stopNew oldKey)))

/-- Start an old listener again; it becomes active only when that succeeds. -/
def restoreListener (active : FinMap String WrapListenerService) (oldKey : String) :
    FinMap String WrapListenerService :=
  active.modify oldKey (·.onService fun s =>
    if (b.restore oldKey).isFailed then s.start (b.restore oldKey)
    else (s.start (b.restore oldKey)).setListenerActive true)

/-- What is done after an error. -/
def rollbackHandoffs (orders : Orders) (h : Handing) (cause : HandoffError) :
    Handing × ReplaceError :=
  let stopOrder := orders.stopNew.list h.closed.toFinset
  let restoreOrder := orders.restore.list h.closed.toFinset
  ({ h with
      staged := stopOrder.foldl (stopNewListener b handoffs) h.staged
      active := restoreOrder.foldl (restoreListener b) h.active },
    .handoff cause
      ((stopOrder.filter fun oldKey => (b.stopNew oldKey).isFailed).map fun oldKey =>
        (handoffs.lookup oldKey).getD "")
      (restoreOrder.filter fun oldKey => (b.restore oldKey).isFailed))

end

namespace ListenerManager

variable (lm : ListenerManager) (orders : Orders) (b : Behaviour)

/-- A call that fails: what was prepared or created in it is closed, the table keeps its entries. -/
def reject (st : Staging) (active staged : FinMap String WrapListenerService) (err : ReplaceError) :
    Replacement where
  manager := { lm with activeListenerService := active }
  result := .error err
  created := staged.map (·.onService Service.close)
  prepared := st.refreshes.map fun target => { target with prepared := target.prepared.close }
  removed := .empty
  retired := []

/-- A call that succeeds. -/
def commit (st : Staging) (active staged : FinMap String WrapListenerService) : Replacement where
  manager := {
    activeListenerService := (staged.map (·.onService (·.setListenerActive true))).overlay
      (st.refreshes.foldl
        (fun active target => active.modify target.key fun w =>
          ⟨target.next, w.service.commitRefresh target.prepared⟩)
        (active.filter fun key => key ∉ lm.xdsManaged || key ∈ st.newManaged))
    xdsManaged := st.newManaged }
  result := .ok ()
  created := staged
  prepared := st.refreshes
  removed := (active.filter fun key => key ∈ lm.xdsManaged && key ∉ st.newManaged).map
    (·.onService fun s => (s.setListenerActive false).close)
  retired := st.refreshes.filterMap fun target =>
    (active.lookup target.key).map fun w => (target.key, w.service.chain.close)

/-- The part of the call under the gate: new services are started, sockets handed over. -/
def publish (st : Staging) (handoffs : FinMap String String) : Replacement :=
  match startStaged b handoffs st.staged (orders.start.list st.staged.keys) with
  | (staged, some err) => lm.reject st lm.activeListenerService staged err
  | (staged, none) =>
    match handOverAll b handoffs ⟨lm.activeListenerService, staged, []⟩
      (handoffs.keys.sort (· ≤ ·)) with
    | (h, none) => lm.commit st h.active h.staged
    | (h, some cause) =>
      let (h, err) := rollbackHandoffs b handoffs orders h cause
      lm.reject st h.active h.staged err

/-- `ReplaceXDSListeners`. -/
def replaceXDSListeners (listeners : List (Option Listener)) : Replacement :=
  match lm.stageListeners b ⟨∅, .empty, []⟩ listeners with
  | (st, some err) => lm.reject st lm.activeListenerService st.staged err
  | (st, none) =>
    match lm.findHandoffs orders st with
    | .error err => lm.reject st lm.activeListenerService st.staged err
    | .ok handoffs => lm.publish orders b st handoffs

end ListenerManager

/-- Maps ranged over in ascending order. -/
def Sample.sorted : KeyOrder where
  list keys := keys.sort (· ≤ ·)
  nodup _ := Finset.sort_nodup ..
  mem_list _ _ := Finset.mem_sort _

end Pixiu.Server
