import Pixiu.Base.FinMap

/-!
# The table of MCP sessions

`SessionManager` keeps the sessions that are alive.  A session leaves the table by being removed, by
expiring on lookup, in a sweep that makes room or cleans up, and when the manager stops; each time
it is closed and the removal handlers are called with its ID, after the lock is released.

Sessions are pointers: the table holds addresses, and a session that has left the table is still
there for those who hold it.  The order in which the table is ranged over and the IDs that are drawn
at random are parameters of the calls.  Times are numbers of nanoseconds.

`session_table_run`: whatever is called, the table never has more than `maxSessions` entries,
generations count the sessions, a session is closed exactly when it has left the table, each handler
is called exactly once for each of these, and only sessions that are open, current and known are
returned.
-/

namespace Pixiu.Mcp

/-- A session, as far as its life is concerned. -/
structure MCPSession where
  id : String
  generation : ℕ
  createdAt : ℤ
  lastActivity : ℤ
  closed : Bool
  deriving DecidableEq, Repr

namespace MCPSession

/-- `close`. -/
def close (session : MCPSession) : MCPSession := { session with closed := true }

/-- `touch`. -/
def touch (session : MCPSession) (now : ℤ) : MCPSession := { session with lastActivity := now }

end MCPSession

/-- Why there is no session. -/
inductive SessionError where
  | managerStopped
  | capacityReached
  | idGenerationFailed
  deriving DecidableEq, Repr

/-- The text of an error. -/
def SessionError.text : SessionError → String
  | .managerStopped => "mcp session manager stopped"
  | .capacityReached => "mcp session capacity reached"
  | .idGenerationFailed => "mcp session id generation failed"

/-- The table, the sessions that were ever created, and the calls of the removal handlers so far:
which handler, and with which ID. -/
structure SessionManager where
  sessions : FinMap String ℕ
  objects : List MCPSession
  removedHandlers : ℕ
  handlerCalls : List (ℕ × String)
  maxSessions : ℕ
  nextGeneration : ℕ
  stopped : Bool

namespace SessionManager

/-- `SessionTimeout`. -/
def sessionTimeout : ℤ := 30 * 60 * 1000000000

/-- `DefaultMaxSessions`. -/
def defaultMaxSessions : ℕ := 10000

/-- `NewSessionManagerWithMaxEntries`. -/
def newSessionManagerWithMaxEntries (maxEntries : ℤ) (removedHandlers : ℕ) : SessionManager where
  sessions := .empty
  objects := []
  removedHandlers := removedHandlers
  handlerCalls := []
  maxSessions := if maxEntries ≤ 0 then defaultMaxSessions else maxEntries.toNat
  nextGeneration := 0
  stopped := false

variable (sm : SessionManager)

/-- An order in which the table can be ranged over. -/
def Ranges (order : List String) : Prop := order.Nodup ∧ order.toFinset = sm.sessions.keys

instance (order : List String) : Decidable (sm.Ranges order) := inferInstanceAs (Decidable (_ ∧ _))

/-- `sessionExpiredLocked`. -/
def sessionExpiredLocked (session : MCPSession) (now : ℤ) : Bool :=
  sessionTimeout < now - session.lastActivity

/-- The session that the table holds under an ID. -/
def lookup (sessionID : String) : Option MCPSession :=
  (sm.sessions.lookup sessionID).bind (sm.objects[·]?)

/-- `removeSessionLocked`. -/
def removeSessionLocked (sessionID : String) : SessionManager :=
  match sm.sessions.lookup sessionID with
  | none => sm
  | some address => { sm with
    objects := sm.objects.modify address MCPSession.close
    sessions := sm.sessions.erase sessionID }

/-- The sessions with these IDs are closed and leave the table, one after another. -/
def removeSessionsLocked (sessionIDs : List String) : SessionManager :=
  sessionIDs.foldl removeSessionLocked sm

/-- `removeExpiredLocked`. -/
def removeExpiredLocked (order : List String) (now : ℤ) : SessionManager × List String :=
  let toRemove :=
    order.filter fun sessionID => (sm.lookup sessionID).any (sessionExpiredLocked · now)
  (sm.removeSessionsLocked toRemove, toRemove)

/-- `callRemovedHandlers`. -/
def callRemovedHandlers (sessionIDs : List String) : SessionManager :=
  { sm with
    handlerCalls := sm.handlerCalls ++
      sessionIDs.flatMap fun id => (List.range sm.removedHandlers).map fun handler =>
        (handler, id) }

/-- The loop that draws IDs until one is new.  A draw is `none` where the random source fails; the
result is `none` as long as the loop goes on. -/
def generateUniqueSessionIDLocked : List (Option String) → Option (Except SessionError String)
  | [] => none
  | none :: _ => some (.error .idGenerationFailed)
  | some id :: draws =>
    if (sm.sessions.lookup id).isSome then generateUniqueSessionIDLocked draws else some (.ok id)

/-- The end of `CreateSession`: there is room for the session. -/
def addSession (now : ℤ) (draws : List (Option String)) :
    Option (SessionManager × Except SessionError ℕ) :=
  (sm.generateUniqueSessionIDLocked draws).map fun
    | .error err => (sm, .error err)
    | .ok id =>
      ({ sm with
          nextGeneration := sm.nextGeneration + 1
          objects := sm.objects ++
            [{ id, generation := sm.nextGeneration + 1, createdAt := now, lastActivity := now,
               closed := false }]
          sessions := sm.sessions.insert id sm.objects.length },
        .ok sm.objects.length)

/-- `CreateSession`; the result is the address of the session. -/
def createSession (now : ℤ) (order : List String) (draws : List (Option String)) :
    Option (SessionManager × Except SessionError ℕ) :=
  if sm.stopped then some (sm, .error .managerStopped)
  else if sm.maxSessions ≤ sm.sessions.size then
    let removed := sm.removeExpiredLocked order now
    let unlocked := removed.1.callRemovedHandlers removed.2
    if removed.1.maxSessions ≤ removed.1.sessions.size then some (unlocked, .error .capacityReached)
    -- the lock is taken again, so the checks are made again
    else if unlocked.stopped then some (unlocked, .error .managerStopped)
    else if unlocked.maxSessions ≤ unlocked.sessions.size then
      some (unlocked, .error .capacityReached)
    else unlocked.addSession now draws
  else sm.addSession now draws

/-- `touch`. -/
def touch (address : ℕ) (now : ℤ) : SessionManager :=
  { sm with objects := sm.objects.modify address (MCPSession.touch · now) }

/-- `GetSession` and, without `touched`, `PeekSession`. -/
def getSession (now : ℤ) (sessionID : String) (touched : Bool) : SessionManager × Option ℕ :=
  if sessionID = "" ∨ sm.stopped then (sm, none)
  else match sm.sessions.lookup sessionID with
    | none => (sm, none)
    | some address =>
      if (sm.lookup sessionID).any (sessionExpiredLocked · now) then
        ((sm.removeSessionLocked sessionID).callRemovedHandlers [sessionID], none)
      else (if touched then sm.touch address now else sm, some address)

/-- `RemoveSession`. -/
def removeSession (sessionID : String) : SessionManager :=
  if sessionID = "" ∨ (sm.sessions.lookup sessionID).isNone then sm
  else (sm.removeSessionLocked sessionID).callRemovedHandlers [sessionID]

/-- `cleanupExpiredSessions`. -/
def cleanupExpiredSessions (now : ℤ) (order : List String) : SessionManager :=
  let removed := sm.removeExpiredLocked order now
  removed.1.callRemovedHandlers removed.2

/-- `Stop`, whose body runs once. -/
def stop (order : List String) : SessionManager :=
  if sm.stopped then sm
  else ({ sm with stopped := true }.removeSessionsLocked order).callRemovedHandlers order

/-! ## Runs -/

end SessionManager

/-- A call of the manager, with the time, the order of the table and the IDs it draws. -/
inductive ManagerCall where
  | createSession (now : ℤ) (order : List String) (draws : List (Option String))
  | getSession (now : ℤ) (sessionID : String) (touched : Bool)
  | removeSession (sessionID : String)
  | cleanupExpiredSessions (now : ℤ) (order : List String)
  | stop (order : List String)
  deriving DecidableEq, Repr

/-- The time that a call reads from the clock. -/
def ManagerCall.now : ManagerCall → Option ℤ
  | .createSession now _ _ => some now
  | .getSession now _ _ => some now
  | .cleanupExpiredSessions now _ => some now
  | _ => none

namespace SessionManager

/-- One call, and the address of the session it returns.  It is `none` for an order the table cannot
be ranged over in, and for a `CreateSession` that is still drawing. -/
def step (sm : SessionManager) : ManagerCall → Option (SessionManager × Option ℕ)
  | .createSession now order draws =>
    if sm.Ranges order then (sm.createSession now order draws).map fun r => (r.1, r.2.toOption) else
      none
  | .getSession now sessionID touched => some (sm.getSession now sessionID touched)
  | .removeSession sessionID => some (sm.removeSession sessionID, none)
  | .cleanupExpiredSessions now order =>
    if sm.Ranges order then some (sm.cleanupExpiredSessions now order, none) else none
  | .stop order => if sm.Ranges order then some (sm.stop order, none) else none

/-- The state after some calls, if they can be made. -/
def run (sm : SessionManager) : List ManagerCall → Option SessionManager
  | [] => some sm
  | c :: calls => (sm.step c).bind fun r => r.1.run calls

/-! ## The invariant -/

/-- What holds between the steps of a call: `pending` are the IDs of the sessions that have left the
table and for which the handlers are still to be called. -/
structure Inv (sm : SessionManager) (pending : List String) : Prop where
  size : sm.sessions.size ≤ sm.maxSessions
  generations : sm.objects.map (·.generation) = (List.range sm.nextGeneration).map (· + 1)
  listed : ∀ id address, sm.sessions.lookup id = some address →
    ∃ session, sm.objects[address]? = some session ∧ session.id = id ∧ session.closed = false
  unlisted : ∀ address session, sm.objects[address]? = some session → session.closed = false →
    sm.sessions.lookup session.id = some address
  handled : ∀ handler < sm.removedHandlers,
    ((sm.handlerCalls.filter (·.1 = handler)).map (·.2) ++ pending).Perm
      ((sm.objects.filter (·.closed)).map (·.id))

variable {sm : SessionManager} {pending : List String}

/-- Closing one open session adds it to the closed ones. -/
theorem closed_modify_perm {objects : List MCPSession} {address : ℕ} {session : MCPSession}
    (h : objects[address]? = some session) (hopen : session.closed = false) :
    (((objects.modify address MCPSession.close).filter (·.closed)).map (·.id)).Perm
      ((objects.filter (·.closed)).map (·.id) ++ [session.id]) := by
  induction objects generalizing address with
  | nil => cases h
  | cons first objects ih =>
    cases address with
    | zero =>
      obtain rfl := Option.some.inj h
      simp only [List.modify_zero_cons, List.filter_cons, hopen]
      exact (List.perm_append_singleton _ _).symm
    | succ address =>
      have hrest := ih h
      simp only [List.modify_succ_cons, List.filter_cons]
      split
      · exact hrest.cons _
      · exact hrest

/-- Changing sessions in a way that keeps a field keeps the list of that field. -/
theorem map_modify_eq {α : Type} {objects : List MCPSession} {address : ℕ}
    {f : MCPSession → MCPSession}
    {g : MCPSession → α} (hf : ∀ session, g (f session) = g session) :
    (objects.modify address f).map g = objects.map g := by
  induction objects generalizing address with
  | nil => simp
  | cons first objects ih =>
    cases address with
    | zero => simp [hf]
    | succ address => simp [ih]

/-- A session is taken out of the table: it is closed, and the handlers are to be called for it. -/
theorem inv_removeSessionLocked (h : sm.Inv pending) {id : String}
    (hid : (sm.sessions.lookup id).isSome) :
    (sm.removeSessionLocked id).Inv (pending ++ [id]) := by
  obtain ⟨address, haddress⟩ := Option.isSome_iff_exists.1 hid
  obtain ⟨session, hsession, rfl, hopen⟩ := h.listed id address haddress
  have hremove : sm.removeSessionLocked session.id = { sm with
      objects := sm.objects.modify address MCPSession.close, sessions :=
        sm.sessions.erase session.id } := by
    rw [removeSessionLocked, haddress]
  -- another ID has another address
  have hother : ∀ s, sm.sessions.lookup s.id = some address → sm.objects[address]? = some s →
      s.id = session.id := by
    intro s _ hs
    rw [hsession] at hs
    exact congrArg MCPSession.id (Option.some.inj hs).symm
  have hgenerations : (sm.objects.modify address MCPSession.close).map (·.generation) =
      sm.objects.map (·.generation) := map_modify_eq fun _ => rfl
  rw [hremove]
  refine ⟨FinMap.size_erase_le.trans h.size, hgenerations.trans h.generations, fun id' a ha => ?_,
    fun a s hs hclosed => ?_, fun handler hlt => ?_⟩
  · dsimp only at ha ⊢
    rw [FinMap.lookup_erase] at ha
    split_ifs at ha with hne
    obtain ⟨s, hs, rfl, hsopen⟩ := h.listed id' a ha
    have ha' : address ≠ a := by
      rintro rfl
      exact hne (hother s ha hs)
    exact ⟨s, by rw [List.getElem?_modify_ne _ _ ha']; exact hs, rfl, hsopen⟩
  · dsimp only at hs ⊢
    rcases eq_or_ne address a with rfl | ha'
    · rw [List.getElem?_modify_eq, hsession] at hs
      obtain rfl := Option.some.inj hs
      cases hclosed
    · rw [List.getElem?_modify_ne _ _ ha'] at hs
      have hlookup := h.unlisted a s hs hclosed
      rw [FinMap.lookup_erase, if_neg]
      · exact hlookup
      · intro hsame
        rw [hsame, haddress] at hlookup
        exact ha' (Option.some.inj hlookup)
  · have hperm := (h.handled handler hlt).append_right [session.id]
    rw [List.append_assoc] at hperm
    exact hperm.trans (closed_modify_perm hsession hopen).symm

theorem lookup_removeSessionLocked_of_ne {id id' : String} (hne : id' ≠ id) :
    (sm.removeSessionLocked id).sessions.lookup id' = sm.sessions.lookup id' := by
  rw [removeSessionLocked]
  split
  · rfl
  · exact FinMap.lookup_erase_of_ne hne

/-- Several sessions are taken out of the table. -/
theorem inv_removeSessionsLocked {ids : List String} (h : sm.Inv pending) (hnodup : ids.Nodup)
    (hids : ∀ id ∈ ids, (sm.sessions.lookup id).isSome) :
    (sm.removeSessionsLocked ids).Inv (pending ++ ids) := by
  induction ids generalizing sm pending with
  | nil =>
    rw [List.append_nil]
    exact h
  | cons id ids ih =>
    rw [List.nodup_cons] at hnodup
    have hfirst := inv_removeSessionLocked h (hids id List.mem_cons_self)
    have hrest := ih hfirst hnodup.2 fun id' hid' => by
      rw [lookup_removeSessionLocked_of_ne (ne_of_mem_of_not_mem hid' hnodup.1)]
      exact hids id' (List.mem_cons_of_mem _ hid')
    rw [List.append_assoc] at hrest
    exact hrest

/-- One handler is called once for each ID. -/
theorem calls_of_handler {n handler : ℕ} (hlt : handler < n) (ids : List String) :
    ((ids.flatMap fun id => (List.range n).map fun handler' => (handler', id)).filter
      (·.1 = handler)).map (·.2) = ids := by
  induction ids with
  | nil => rfl
  | cons id ids ih =>
    have hone : ((List.range n).map fun handler' => (handler', id)).filter (·.1 = handler) =
        [(handler, id)] := by
      have hcount : (List.range n).count handler = 1 :=
        List.count_eq_one_of_mem List.nodup_range (List.mem_range.2 hlt)
      rw [List.filter_map]
      simp only [Function.comp_def, List.filter_eq, hcount]
      rfl
    rw [List.flatMap_cons, List.filter_append, List.map_append, hone, ih]
    rfl

/-- The handlers are called for every session that has left the table. -/
theorem inv_callRemovedHandlers (h : sm.Inv pending) : (sm.callRemovedHandlers pending).Inv [] := by
  refine ⟨h.size, h.generations, h.listed, h.unlisted, fun handler hlt => ?_⟩
  have hcalls := calls_of_handler (n := sm.removedHandlers) hlt pending
  rw [callRemovedHandlers, List.append_nil, List.filter_append, List.map_append, hcalls]
  exact h.handled handler hlt

/-- A sweep closes sessions of the table and calls the handlers for them. -/
theorem inv_removeSessions {ids : List String} (h : sm.Inv []) (hnodup : ids.Nodup)
    (hids : ∀ id ∈ ids, (sm.sessions.lookup id).isSome) :
    ((sm.removeSessionsLocked ids).callRemovedHandlers ids).Inv [] :=
  inv_callRemovedHandlers (inv_removeSessionsLocked h hnodup hids)

theorem Ranges.isSome {order : List String} (h : sm.Ranges order) {id : String} (hid : id ∈ order) :
    (sm.sessions.lookup id).isSome := by
  rw [← sm.sessions.mem_keys, ← h.2]
  exact List.mem_toFinset.2 hid

theorem inv_removeExpired {order : List String} (h : sm.Inv []) (horder : sm.Ranges order)
    (now : ℤ) :
    ((sm.removeExpiredLocked order now).1.callRemovedHandlers
      (sm.removeExpiredLocked order now).2).Inv [] :=
  inv_removeSessions h (horder.1.filter _) fun _ hid => horder.isSome (List.mem_of_mem_filter hid)

theorem lookup_of_generateUniqueSessionIDLocked {draws : List (Option String)} {id : String}
    (h : sm.generateUniqueSessionIDLocked draws = some (.ok id)) :
    sm.sessions.lookup id = none := by
  induction draws with
  | nil => cases h
  | cons draw draws ih =>
    cases draw with
    | none => cases h
    | some id' =>
      rw [generateUniqueSessionIDLocked] at h
      split_ifs at h with hknown
      · exact ih h
      · obtain rfl : id' = id := by
          cases h
          rfl
        exact Option.not_isSome_iff_eq_none.1 hknown

/-- What a call that returns a session guarantees: the session is open and in the table, and it was
not expired when it was asked for. -/
structure Returned (sm sm' : SessionManager) (now : ℤ) (address : ℕ) : Prop where
  running : sm'.stopped = false
  listed : ∃ session, sm'.objects[address]? = some session ∧ session.closed = false ∧
    sm'.sessions.lookup session.id = some address ∧ sessionExpiredLocked session now = false
  current : ∀ session, sm.objects[address]? = some session →
    sessionExpiredLocked session now = false

theorem sessionExpiredLocked_of_touched {session : MCPSession} {now : ℤ}
    (h : session.lastActivity = now) :
    sessionExpiredLocked session now = false := by
  simp [sessionExpiredLocked, h, sessionTimeout]

/-- Adding a session where there is room. -/
theorem inv_addSession (h : sm.Inv []) (hroom : sm.sessions.size < sm.maxSessions)
    (hrunning : sm.stopped = false)
    {now : ℤ} {draws : List (Option String)} {sm' : SessionManager} {result : Except SessionError ℕ}
    (hadd : sm.addSession now draws = some (sm', result)) :
    sm'.Inv [] ∧ ∀ address, result = .ok address → address = sm.objects.length ∧
      sm.Returned sm' now address := by
  rw [addSession, Option.map_eq_some_iff] at hadd
  obtain ⟨drawn, hdrawn, hadd⟩ := hadd
  cases drawn with
  | error err =>
    cases hadd
    exact ⟨h, nofun⟩
  | ok id =>
    have hnew := lookup_of_generateUniqueSessionIDLocked hdrawn
    have hlength : sm.objects.length = sm.nextGeneration := by
      have hgenerations := congrArg List.length h.generations
      simpa using hgenerations
    cases hadd
    refine ⟨⟨?_, ?_, fun id' a ha => ?_, fun a s hs hopen => ?_, fun handler hlt => ?_⟩, ?_⟩
    · exact (FinMap.size_insert_of_none hnew).trans_le hroom
    · simp only [List.map_append, h.generations, List.map_cons, List.map_nil, List.range_succ]
    · dsimp only at ha ⊢
      rw [FinMap.lookup_insert] at ha
      split_ifs at ha with hsame
      · obtain rfl := Option.some.inj ha
        exact ⟨_, List.getElem?_concat_length, hsame.symm, rfl⟩
      · obtain ⟨s, hs, hid, hopen⟩ := h.listed id' a ha
        have hlt := (List.getElem?_eq_some_iff.1 hs).1
        exact ⟨s, by rw [List.getElem?_append_left hlt]; exact hs, hid, hopen⟩
    · dsimp only at hs ⊢
      rcases lt_or_ge a sm.objects.length with hlt | hge
      · rw [List.getElem?_append_left hlt] at hs
        have hlookup := h.unlisted a s hs hopen
        rw [FinMap.lookup_insert_of_ne]
        · exact hlookup
        · rintro rfl
          rw [hnew] at hlookup
          cases hlookup
      · rw [List.getElem?_append_right hge] at hs
        obtain ⟨hzero, rfl⟩ : a - sm.objects.length = 0 ∧ _ = s := by
          rcases hsub : a - sm.objects.length with _ | n
          · rw [hsub] at hs
            exact ⟨rfl, Option.some.inj hs⟩
          · rw [hsub] at hs
            cases hs
        rw [FinMap.lookup_insert_self]
        exact congrArg some (by omega)
    · have hhandled := h.handled handler hlt
      rw [List.append_nil] at hhandled ⊢
      simpa using hhandled
    · rintro address ⟨⟩
      refine ⟨rfl, hrunning, ⟨_, List.getElem?_concat_length, rfl, FinMap.lookup_insert_self, ?_⟩,
        fun s hs => ?_⟩
      · exact sessionExpiredLocked_of_touched rfl
      · exact absurd (List.getElem?_eq_some_iff.1 hs).1 (lt_irrefl _)

theorem objects_length_removeSessionsLocked (ids : List String) :
    (sm.removeSessionsLocked ids).objects.length = sm.objects.length := by
  induction ids generalizing sm with
  | nil => rfl
  | cons id ids ih =>
    refine ih.trans ?_
    rw [removeSessionLocked]
    split
    · rfl
    · exact List.length_modify ..

/-- `CreateSession` keeps the invariant, and what it returns is a new session. -/
theorem inv_createSession (h : sm.Inv []) {now : ℤ} {order : List String} (horder : sm.Ranges order)
    {draws : List (Option String)} {sm' : SessionManager} {result : Except SessionError ℕ}
    (hcreate : sm.createSession now order draws = some (sm', result)) :
    sm'.Inv [] ∧ ∀ address, result = .ok address → sm.Returned sm' now address := by
  have hswept := inv_removeExpired h horder now
  simp only [createSession] at hcreate
  split_ifs at hcreate with hstopped hfull hstill hstopped' hstill'
  · cases hcreate
    exact ⟨h, nofun⟩
  · cases hcreate
    exact ⟨hswept, nofun⟩
  · cases hcreate
    exact ⟨hswept, nofun⟩
  · cases hcreate
    exact ⟨hswept, nofun⟩
  · obtain ⟨hinv, hreturned⟩ :=
      inv_addSession hswept (not_le.1 hstill') (Bool.eq_false_of_not_eq_true hstopped') hcreate
    refine ⟨hinv, fun address haddress => ?_⟩
    obtain ⟨rfl, hnew⟩ := hreturned address haddress
    refine ⟨hnew.running, hnew.listed, fun session hsession => ?_⟩
    -- the address of the new session is past all the old ones, also before the sweep
    have hlt := (List.getElem?_eq_some_iff.1 hsession).1
    have hlength : (sm.removeExpiredLocked order now).1.objects.length = sm.objects.length :=
      objects_length_removeSessionsLocked _
    exact absurd hlt hlength.ge.not_gt
  · obtain ⟨hinv, hreturned⟩ :=
      inv_addSession h (not_le.1 hfull) (Bool.eq_false_of_not_eq_true hstopped) hcreate
    exact ⟨hinv, fun address haddress => (hreturned address haddress).2⟩

theorem getElem?_touch (address : ℕ) (now : ℤ) (a : ℕ) :
    (sm.touch address now).objects[a]? = (sm.objects[a]?).map fun s => if address = a then
      s.touch now else s := by
  rw [touch, List.getElem?_modify]
  rfl

theorem inv_touch (h : sm.Inv []) (address : ℕ) (now : ℤ) : (sm.touch address now).Inv [] := by
  have hgenerations : (sm.touch address now).objects.map (·.generation) =
      sm.objects.map (·.generation) :=
    map_modify_eq fun _ => rfl
  refine ⟨h.size, hgenerations.trans h.generations, fun id a ha => ?_, fun a s hs hopen => ?_,
    fun handler hlt => ?_⟩
  · obtain ⟨s, hs, hid, hopen⟩ := h.listed id a ha
    rw [getElem?_touch, hs]
    refine ⟨_, rfl, ?_, ?_⟩ <;> split_ifs <;> assumption
  · rw [getElem?_touch, Option.map_eq_some_iff] at hs
    obtain ⟨s₀, hs₀, rfl⟩ := hs
    have hopen₀ : s₀.closed = false := by split_ifs at hopen <;> exact hopen
    have hid : (if address = a then s₀.touch now else s₀).id = s₀.id := by split_ifs <;> rfl
    rw [hid]
    exact h.unlisted a s₀ hs₀ hopen₀
  · have hclosed : ((sm.touch address now).objects.filter (·.closed)).map (·.id) =
        (sm.objects.filter (·.closed)).map (·.id) := by
      have hpairs : (sm.touch address now).objects.map (fun s => (s.closed, s.id)) =
          sm.objects.map (fun s => (s.closed, s.id)) := map_modify_eq fun _ => rfl
      have hfilter : ∀ l : List MCPSession, (l.filter (·.closed)).map (·.id) =
          ((l.map fun s => (s.closed, s.id)).filter (·.1)).map (·.2) := by
        intro l
        rw [List.filter_map, List.map_map]
        rfl
      rw [hfilter, hpairs, ← hfilter]
    rw [hclosed]
    exact h.handled handler hlt

/-- `GetSession` keeps the invariant, and what it returns is open and not expired. -/
theorem inv_getSession (h : sm.Inv []) (now : ℤ) (sessionID : String) (touched : Bool) :
    (sm.getSession now sessionID touched).1.Inv [] ∧
      ∀ address, (sm.getSession now sessionID touched).2 = some address →
        sm.Returned (sm.getSession now sessionID touched).1 now address := by
  by_cases hstopped : sessionID = "" ∨ sm.stopped = true
  · rw [getSession, if_pos hstopped]
    exact ⟨h, nofun⟩
  rw [getSession, if_neg hstopped]
  rw [not_or, Bool.not_eq_true] at hstopped
  cases haddress : sm.sessions.lookup sessionID with
  | none => exact ⟨h, nofun⟩
  | some address =>
    obtain ⟨session, hsession, rfl, hopen⟩ := h.listed sessionID address haddress
    have hlookup : sm.lookup session.id = some session := by rw [lookup, haddress]; exact hsession
    dsimp only
    rw [hlookup, Option.any_some]
    by_cases hexpired : sessionExpiredLocked session now = true
    · rw [if_pos hexpired]
      exact ⟨inv_removeSessions h (List.nodup_singleton session.id) (by simp [haddress]), nofun⟩
    · rw [if_neg hexpired]
      rw [Bool.not_eq_true] at hexpired
      have hcurrent : ∀ s, sm.objects[address]? = some s → sessionExpiredLocked s now = false := by
        intro s hs
        exact Option.some.inj (hsession.symm.trans hs) ▸ hexpired
      cases touched with
      | false =>
        refine ⟨h, ?_⟩
        rintro _ ⟨⟩
        exact ⟨hstopped.2, ⟨session, hsession, hopen, haddress, hexpired⟩, hcurrent⟩
      | true =>
        refine ⟨inv_touch h address now, ?_⟩
        rintro _ ⟨⟩
        refine ⟨hstopped.2,
          ⟨session.touch now, ?_, hopen, haddress, sessionExpiredLocked_of_touched rfl⟩, hcurrent⟩
        rw [if_pos rfl, getElem?_touch, hsession, Option.map_some, if_pos rfl]

theorem inv_removeSession (h : sm.Inv []) (sessionID : String) :
    (sm.removeSession sessionID).Inv [] := by
  rw [removeSession]
  split_ifs with hnone
  · exact h
  · rw [not_or, Bool.not_eq_true, Option.isNone_eq_false_iff] at hnone
    exact inv_removeSessions h (List.nodup_singleton sessionID) (by simpa using hnone.2)

theorem inv_stop (h : sm.Inv []) {order : List String} (horder : sm.Ranges order) :
    (sm.stop order).Inv [] := by
  rw [stop]
  split_ifs
  · exact h
  · have hstopped : ({ sm with stopped := true } : SessionManager).Inv [] :=
      ⟨h.size, h.generations, h.listed, h.unlisted, h.handled⟩
    exact inv_removeSessions hstopped horder.1 fun id hid => horder.isSome hid

/-- One call keeps the invariant, and a session it returns is open, listed and not expired. -/
theorem inv_step (h : sm.Inv []) {c : ManagerCall} {sm' : SessionManager} {returned : Option ℕ}
    (hstep : sm.step c = some (sm', returned)) :
    sm'.Inv [] ∧ ∀ address, returned = some address → ∃ now, c.now = some now ∧
      sm.Returned sm' now address := by
  cases c with
  | createSession now order draws =>
    rw [step] at hstep
    split_ifs at hstep with horder
    obtain ⟨⟨sm₁, result⟩, hcreate, heq⟩ := Option.map_eq_some_iff.1 hstep
    cases heq
    obtain ⟨hinv, hreturned⟩ := inv_createSession h horder hcreate
    refine ⟨hinv, fun address haddress => ⟨now, rfl, hreturned address ?_⟩⟩
    cases result with
    | error err => cases haddress
    | ok a => exact congrArg Except.ok (Option.some.inj haddress)
  | getSession now sessionID touched =>
    have hget : sm.getSession now sessionID touched = (sm', returned) := Option.some.inj hstep
    obtain ⟨hinv, hreturned⟩ := inv_getSession h now sessionID touched
    rw [hget] at hinv hreturned
    exact ⟨hinv, fun address haddress => ⟨now, rfl, hreturned address haddress⟩⟩
  | removeSession sessionID =>
    cases hstep
    exact ⟨inv_removeSession h sessionID, nofun⟩
  | cleanupExpiredSessions now order =>
    rw [step] at hstep
    split_ifs at hstep with horder
    cases hstep
    exact ⟨inv_removeExpired h horder now, nofun⟩
  | stop order =>
    rw [step] at hstep
    split_ifs at hstep with horder
    cases hstep
    exact ⟨inv_stop h horder, nofun⟩

theorem inv_new (maxEntries : ℤ) (removedHandlers : ℕ) :
    (newSessionManagerWithMaxEntries maxEntries removedHandlers).Inv [] :=
  ⟨Nat.zero_le _, rfl, nofun, nofun, fun _ _ => .nil⟩

theorem inv_run {calls : List ManagerCall} {sm' : SessionManager} (h : sm.Inv [])
    (hrun : sm.run calls = some sm') :
    sm'.Inv [] := by
  induction calls generalizing sm with
  | nil =>
    cases hrun
    exact h
  | cons c calls ih =>
    obtain ⟨⟨sm₁, returned⟩, hstep, hrest⟩ := Option.bind_eq_some_iff.1 hrun
    exact ih (inv_step h hstep).1 hrest

/-! ## The whole run -/

/-- After every sequence of calls: there are at most `maxSessions` sessions; generations are
distinct and go up in the order of creation; a session is closed exactly when it is not in the
table; every handler was called exactly once for each session that has left the table; and the next
call returns only sessions that are open, in the table of a running manager and not expired. -/
theorem session_table_run (maxEntries : ℤ) (removedHandlers : ℕ) (calls : List ManagerCall)
    (sm : SessionManager)
    (hrun : (newSessionManagerWithMaxEntries maxEntries removedHandlers).run calls = some sm) :
    sm.sessions.size ≤ sm.maxSessions ∧
    (sm.objects.map (·.generation)).Pairwise (· < ·) ∧
    (∀ address session, sm.objects[address]? = some session →
      (session.closed = true ↔ ∀ id, sm.sessions.lookup id ≠ some address)) ∧
    (∀ handler < sm.removedHandlers, ((sm.handlerCalls.filter (·.1 = handler)).map (·.2)).Perm
      ((sm.objects.filter (·.closed)).map (·.id))) ∧
    ∀ c sm' address, sm.step c = some (sm', some address) → ∃ now, c.now = some now ∧
      sm.Returned sm' now address := by
  have hinv := inv_run (inv_new maxEntries removedHandlers) hrun
  refine ⟨hinv.size, ?_, fun address session hsession => ?_, fun handler hlt => ?_,
    fun c sm' address hstep => ?_⟩
  · rw [hinv.generations, List.pairwise_map]
    exact List.pairwise_lt_range.imp fun hlt => Nat.succ_lt_succ hlt
  · constructor
    · intro hclosed id hid
      obtain ⟨s, hs, -, hopen⟩ := hinv.listed id address hid
      rw [hsession] at hs
      rw [← Option.some.inj hs, hclosed] at hopen
      cases hopen
    · intro hunlisted
      by_contra hopen
      exact hunlisted session.id
        (hinv.unlisted address session hsession (Bool.eq_false_of_not_eq_true hopen))
  · have hhandled := hinv.handled handler hlt
    rw [List.append_nil] at hhandled
    exact hhandled
  · exact (inv_step hinv hstep).2 address rfl

/-- A session that is created, removed, and its ID used again. -/
theorem session_table_run_reused :
    ∃ sm, (newSessionManagerWithMaxEntries 1 1).run
      [.createSession 0 [] [some "a"], .removeSession "a",
        .createSession 1 [] [some "a"]] = some sm ∧
      sm.handlerCalls = [(0, "a")] ∧ (sm.objects.map (·.generation)).Pairwise (· < ·) := by
  have hrun : (newSessionManagerWithMaxEntries 1 1).run
      [.createSession 0 [] [some "a"], .removeSession "a",
      .createSession 1 [] [some "a"]] = some _ := rfl
  exact ⟨_, hrun, by decide +kernel, (session_table_run 1 1 _ _ hrun).2.1⟩

end SessionManager

end Pixiu.Mcp
