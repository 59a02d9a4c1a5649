import Pixiu.Mcp.SessionPlan

/-!
# What one call can do to the session plan store

`SessionPlanStore.Step` lists everything that a call can do: which entry it writes, which receipt it
issues or spends, and what it answers.  `step_spec` is the only place where the methods are
unfolded; the results about runs go through it.
-/

namespace Pixiu.Mcp

variable {V : Type}

/-- The receipt that a call spends, how and with which threshold. -/
def Call.spends : Call V → Option (AuthorizationReceipt × ReceiptOutcome × ℤ)
  | .finalizeReceipt receipt outcome expandAfter => some (receipt, outcome, expandAfter)
  | .recordCallSuccess receipt expandAfter =>
    if expandAfter ≤ 0 then none else some (receipt, .succeeded, expandAfter)
  | _ => none

/-- The key whose plan a call asks a receipt of. -/
def Call.asks : Call V → Option PlanKey
  | .issueReceipt key _ _ _ => some key
  | .issueReceiptForVersion req => some req.key
  | _ => none

/-- The key that a call asks a receipt of, of its plan or of the one that it commits. -/
def Call.receiptKey : Call V → Option PlanKey
  | .commitAndIssueReceipt key _ _ _ _ => some key
  | c => c.asks

theorem Call.receiptKey_of_asks {c : Call V} {key : PlanKey} (h : c.asks = some key) :
    c.receiptKey = some key := by
  cases c <;> first | exact h | cases h

namespace SessionPlanStore

variable (s : SessionPlanStore V)

/-! ## Writing one entry -/

/-- The store with the entry of one key replaced. -/
def put (key : PlanKey) (e : SessionEntry V) : SessionPlanStore V :=
  { s with entries := s.entries.insert key e }

/-- The entry that `setLocked` leaves under a key. -/
def written (key : PlanKey) (stored : SelectionPlan) (sc : SelectionContext V) : SessionEntry V :=
  match s.entries.lookup key with
  | none => .create key stored sc
  | some e => e.replace key stored sc

/-- A write that passed the checks that every writer makes. -/
structure Admits (key : PlanKey) (sc : SelectionContext V) : Prop where
  valid : key.valid = true
  session : sc.sessionID = "" ∨ sc.sessionID = key.sessionID
  active : s.sessionActiveLocked sc = true
  room : s.entries.lookup key = none → s.entries.size < s.max

/-- The calls that write a plan under a key, and what they write. -/
inductive Writes : Call V → PlanKey → SelectionPlan → SelectionContext V → Prop where
  | commit (key : PlanKey) (plan : SelectionPlan) (sc : SelectionContext V) (h : s.Admits key sc) :
      Writes (.commit key (some plan) sc) key (clonePlan plan false) sc
  | commitAndIssueReceipt (key : PlanKey) (plan : SelectionPlan) (sc : SelectionContext V)
      (requested routerID : String) (h : s.Admits key sc) :
      Writes (.commitAndIssueReceipt key (some plan) sc requested routerID) key
        (clonePlan plan false) sc
  | setIfCurrent (base : SessionPlanContext V) (plan : SelectionPlan) (e : SessionEntry V)
      (h : s.Admits base.key base.context) (he : s.entries.lookup base.key = some e)
      (hgeneration : e.generation = base.planGeneration)
      (hsession : e.context.sessionGeneration = base.context.sessionGeneration) :
      Writes (.setIfCurrent base (some plan)) base.key (clonePlan plan false) base.context

/-- A call that spends a receipt which the entry holds open. -/
structure Spends (c : Call V) (receipt : AuthorizationReceipt) (outcome : ReceiptOutcome)
    (expandAfter : ℤ)
    (e : SessionEntry V) (state : ℕ) : Prop where
  call : c.spends = some (receipt, outcome, expandAfter)
  entry : s.entries.lookup (newPlanKey receipt.routerInstanceID receipt.sessionID) = some e
  current : e.current receipt = true
  held : e.activeReceipts receipt.receiptID = some state
  state_eq : receipt.state = some state
  unconsumed : s.consumed state = false

/-- The store after a receipt was spent: `e` is the entry it was spent from, as it is afterwards. -/
def spend (receipt : AuthorizationReceipt) (state : ℕ) (e : SessionEntry V) : SessionPlanStore V :=
  { s with
    entries := s.entries.insert (newPlanKey receipt.routerInstanceID receipt.sessionID) e
    consumed := Function.update s.consumed state true }

/-- What a call can do, and what it answers. -/
inductive Step : Call V → SessionPlanStore V → Reply → Prop where
  | fail (c : Call V) (err : PlanError) : Step c s (.failed err)
  | idle (c : Call V) (r : Reply)
      (h : r = .notCommitted ∨ r = .stale ∨ r = .done ∨ r = .result {}) : Step c s r
  | activate (sessionID : String) (generation : ℕ) (hid : sessionID ≠ "")
      (hgeneration : generation ≠ 0) :
      Step (.activateSession sessionID generation)
        { s with activeSessions := Function.update s.activeSessions sessionID (some generation) }
          .done
  | write {c : Call V} {key : PlanKey} {stored : SelectionPlan} {sc : SelectionContext V}
      (r : Reply)
      (h : s.Writes c key stored sc)
      (hr : r = .plan (s.written key stored sc).plan ∨ r = .failed .toolNotAuthorized) :
      Step c (s.put key (s.written key stored sc)) r
  | issue (c : Call V) {key : PlanKey} {e : SessionEntry V} (requested routerID : String)
      (hc : c.asks = some key) (he : s.entries.lookup key = some e)
      (hcontains : e.plan.contains requested = true) :
      Step c (s.issueFrom key e requested routerID).1
        (.receipt (s.issueFrom key e requested routerID).2)
  | writeIssue {c : Call V} {key : PlanKey} {stored : SelectionPlan} {sc : SelectionContext V}
      (requested routerID : String) (hc : c.receiptKey = some key) (h : s.Writes c key stored sc)
      (hcontains : (s.written key stored sc).plan.contains requested = true) :
      Step c
        ((s.put key (s.written key stored sc)).issueFrom key (s.written key stored sc) requested
          routerID).1
        (.committed (s.written key stored sc).plan
          ((s.put key (s.written key stored sc)).issueFrom key (s.written key stored sc) requested
            routerID).2)
  | release {c : Call V} {receipt : AuthorizationReceipt} {outcome : ReceiptOutcome}
      {expandAfter : ℤ}
      {e : SessionEntry V} {state : ℕ} (h : s.Spends c receipt outcome expandAfter e state)
      (hnot : ¬ (outcome = .succeeded ∧ 0 < expandAfter)) :
      Step c (s.spend receipt state (e.release receipt.receiptID)) (.result {})
  | count {c : Call V} {receipt : AuthorizationReceipt} {expandAfter : ℤ} {e : SessionEntry V}
      {state : ℕ}
      (h : s.Spends c receipt .succeeded expandAfter e state) (hpos : 0 < expandAfter) :
      Step c (s.spend receipt state ((e.release receipt.receiptID).countCall expandAfter).1)
        (.result ((e.release receipt.receiptID).countCall expandAfter).2)
  | delete (key : PlanKey) (hvalid : key.valid = true) :
      Step (.delete key) { s with entries := s.entries.erase key } .done
  | deleteSession (sessionID : String) (hid : sessionID ≠ "") :
      Step (.deleteSession sessionID) (s.deleteSession sessionID) .done
  | setMaxEntries (maxEntries : ℤ) : Step (.setMaxEntries maxEntries)
      (s.setMaxEntries maxEntries) .done
  | stop : Step .stop s.stop .done

variable {s} {c : Call V} {key : PlanKey} {stored : SelectionPlan} {sc : SelectionContext V}

theorem Writes.admits (h : s.Writes c key stored sc) : s.Admits key sc := by
  cases h <;> assumption

/-! ## The methods -/

/-- `setLocked` fails or writes. -/
theorem setLocked_cases (key : PlanKey) (stored : SelectionPlan) (sc : SelectionContext V)
    (allowCreate : Bool) :
    (∃ err, s.setLocked key stored sc allowCreate = (s, .error err)) ∨
      ((s.entries.lookup key = none → s.entries.size < s.max) ∧
        s.setLocked key stored sc allowCreate =
          (s.put key (s.written key stored sc), .ok (s.written key stored sc).plan)) := by
  cases he : s.entries.lookup key with
  | none =>
    cases allowCreate with
    | false => exact .inl ⟨.sessionPlanStale, by simp [setLocked, he]⟩
    | true =>
      by_cases hfull : s.max ≤ s.entries.size
      · exact .inl ⟨.planStoreFull, by simp [setLocked, he, hfull]⟩
      · refine .inr ⟨fun _ => not_le.1 hfull, ?_⟩
        simp [setLocked, he, hfull, put, written, clonePlan]
  | some e =>
    refine .inr ⟨nofun, ?_⟩
    simp [setLocked, he, put, written, clonePlan]

theorem validatePlanWrite_ok {plan : Option SelectionPlan}
    (h : validatePlanWrite key plan sc = .ok stored) :
    plan = some stored ∧ key.valid = true ∧ (sc.sessionID = "" ∨ sc.sessionID = key.sessionID) := by
  unfold validatePlanWrite at h
  split at h
  · cases h
  · rename_i hvalid
    cases plan with
    | none => cases h
    | some plan =>
      dsimp only at h
      split_ifs at h with hplan hsession
      cases h
      refine ⟨rfl, by simpa using hvalid, ?_⟩
      by_cases hempty : sc.sessionID = ""
      · exact .inl hempty
      · exact .inr (by_contra fun hne => hsession ⟨hempty, hne⟩)

theorem exists_plan_of_validatePlanWrite {plan : Option SelectionPlan}
    (h : validatePlanWrite key (plan.map (clonePlan · false)) sc = .ok stored) :
    ∃ p, plan = some p ∧ stored = clonePlan p false := by
  obtain ⟨hplan, -⟩ := validatePlanWrite_ok h
  obtain ⟨p, hp, hstored⟩ := Option.map_eq_some_iff.1 hplan
  exact ⟨p, hp, hstored.symm⟩

theorem step_commit (key : PlanKey) (plan : Option SelectionPlan) (sc : SelectionContext V) :
    s.Step (.commit key plan sc) (s.next (.commit key plan sc))
      (s.reply (.commit key plan sc)) := by
  simp only [next, reply, step, commit]
  cases hvalidate : validatePlanWrite key (plan.map (clonePlan · false)) sc with
  | error err => exact .fail _ err
  | ok stored =>
    obtain ⟨-, hvalid, hsession⟩ := validatePlanWrite_ok hvalidate
    obtain ⟨p, rfl, rfl⟩ := exists_plan_of_validatePlanWrite hvalidate
    by_cases hactive : s.sessionActiveLocked sc = true
    · rcases setLocked_cases (s := s) key (clonePlan p false) sc true with ⟨err, hset⟩ |
        ⟨hroom, hset⟩
      · simp only [hactive, hset]
        exact .fail _ err
      · simp only [hactive, hset]
        exact .write _ (.commit key p sc ⟨hvalid, hsession, hactive, hroom⟩) (.inl rfl)
    · simp only [hactive]
      exact .fail _ _

theorem step_setIfCurrent (base : SessionPlanContext V) (plan : Option SelectionPlan) :
    s.Step (.setIfCurrent base plan) (s.next (.setIfCurrent base plan))
      (s.reply (.setIfCurrent base plan)) := by
  simp only [next, reply, step, setIfCurrent]
  cases hvalidate : validatePlanWrite base.key (plan.map (clonePlan · false)) base.context with
  | error err => exact .fail _ err
  | ok stored =>
    obtain ⟨-, hvalid, hsession⟩ := validatePlanWrite_ok hvalidate
    obtain ⟨p, rfl, rfl⟩ := exists_plan_of_validatePlanWrite hvalidate
    dsimp only
    split_ifs with hzero hactive
    · exact .fail _ _
    · exact .idle _ _ (.inl rfl)
    · cases he : s.entries.lookup base.key with
      | none => exact .idle _ _ (.inl rfl)
      | some e =>
        dsimp only
        split_ifs with hstale
        · exact .idle _ _ (.inl rfl)
        · rw [not_or, not_not, not_not] at hstale
          rcases setLocked_cases (s := s) base.key (clonePlan p false) base.context false with
            ⟨err, hset⟩ | ⟨hroom, hset⟩
          · rw [hset]
            exact .fail _ err
          · rw [hset]
            have hadmits : s.Admits base.key base.context :=
              ⟨hvalid, hsession, by simpa using hactive, hroom⟩
            exact .write _ (.setIfCurrent base p e hadmits he hstale.1 hstale.2) (.inl rfl)

theorem step_issueReceipt (key : PlanKey) (requested : String) (plan : Option SelectionPlan)
    (routerID : String) :
    s.Step (.issueReceipt key requested plan routerID)
    (s.next (.issueReceipt key requested plan routerID))
      (s.reply (.issueReceipt key requested plan routerID)) := by
  simp only [next, reply, step, issueReceipt]
  cases plan with
  | none => exact .fail _ _
  | some plan =>
    cases he : s.entries.lookup key with
    | none => exact .fail _ _
    | some e =>
      dsimp only
      split_ifs with hinvalid hmismatch
      · exact .fail _ _
      · exact .fail _ _
      · simp only [not_or, Bool.not_eq_false] at hmismatch
        exact .issue _ requested routerID rfl he hmismatch.2.2.2.2.2

theorem step_issueReceiptForVersion (req : ReceiptVersionRequest) :
    s.Step (.issueReceiptForVersion req) (s.next (.issueReceiptForVersion req))
      (s.reply (.issueReceiptForVersion req)) := by
  simp only [next, reply, step, issueReceiptForVersion]
  split_ifs with hinvalid
  · exact .fail _ _
  · cases he : s.entries.lookup req.key with
    | none => exact .fail _ _
    | some e =>
      dsimp only
      split_ifs with hmismatch hcontains
      · exact .idle _ _ (.inr (.inl rfl))
      · exact .fail _ _
      · exact .issue _ req.requested req.routerID rfl he (by simpa using hcontains)

theorem step_commitAndIssueReceipt (key : PlanKey) (plan : Option SelectionPlan)
    (sc : SelectionContext V)
    (requested routerID : String) :
    s.Step (.commitAndIssueReceipt key plan sc requested routerID)
      (s.next (.commitAndIssueReceipt key plan sc requested routerID))
      (s.reply (.commitAndIssueReceipt key plan sc requested routerID)) := by
  simp only [next, reply, step, commitAndIssueReceipt]
  cases hvalidate : validatePlanWrite key (plan.map (clonePlan · false)) sc with
  | error err => exact .fail _ err
  | ok stored =>
    obtain ⟨-, hvalid, hsession⟩ := validatePlanWrite_ok hvalidate
    obtain ⟨p, rfl, rfl⟩ := exists_plan_of_validatePlanWrite hvalidate
    dsimp only
    split_ifs with hrequested hactive
    · exact .fail _ _
    · exact .fail _ _
    · rcases setLocked_cases (s := s) key (clonePlan p false) sc true with ⟨err, hset⟩ |
        ⟨hroom, hset⟩
      · rw [hset]
        exact .fail _ err
      · have hwrites : s.Writes (.commitAndIssueReceipt key (some p) sc requested routerID) key
            (clonePlan p false) sc :=
          .commitAndIssueReceipt key p sc requested routerID
            ⟨hvalid, hsession, by simpa using hactive, hroom⟩
        have hlookup : (s.put key (s.written key (clonePlan p false) sc)).entries.lookup key =
            some (s.written key (clonePlan p false) sc) := FinMap.lookup_insert_self
        rw [hset]
        dsimp only
        rw [hlookup]
        dsimp only
        split_ifs with hcontains
        · exact .write _ hwrites (.inr rfl)
        · exact .writeIssue requested routerID rfl hwrites (by simpa using hcontains)

/-- Spending a receipt, with a call that is known to do so. -/
theorem step_finalize (c : Call V) (receipt : AuthorizationReceipt) (outcome : ReceiptOutcome)
    (expandAfter : ℤ)
    (hc : c.spends = some (receipt, outcome, expandAfter)) :
    s.Step c (s.finalizeReceipt receipt outcome expandAfter).1
      (.result (s.finalizeReceipt receipt outcome expandAfter).2) := by
  simp only [finalizeReceipt]
  split_ifs with hinvalid
  · exact .idle _ _ (.inr (.inr (.inr rfl)))
  · simp only [finalizeReceiptLocked]
    cases he : s.entries.lookup (newPlanKey receipt.routerInstanceID receipt.sessionID) with
    | none => exact .idle _ _ (.inr (.inr (.inr rfl)))
    | some e =>
      cases hstate : receipt.state with
      | none => exact .idle _ _ (.inr (.inr (.inr rfl)))
      | some state =>
        dsimp only
        split_ifs with hcurrent hclosed hnot
        · exact .idle _ _ (.inr (.inr (.inr rfl)))
        · exact .idle _ _ (.inr (.inr (.inr rfl)))
        all_goals
          rw [not_or, not_not, Bool.not_eq_true] at hclosed
          have hspends : s.Spends c receipt outcome expandAfter e state :=
            ⟨hc, he, by simpa using hcurrent, hclosed.1, hstate, hclosed.2⟩
        · refine .release hspends fun h => ?_
          rcases hnot with hnot | hnot
          · exact hnot h.1
          · exact absurd h.2 (not_lt.2 hnot)
        · rw [not_or, not_not, not_le] at hnot
          obtain ⟨rfl, hpos⟩ := hnot
          exact .count hspends hpos

/-- Every call does one of the things that are listed in `Step`. -/
theorem step_spec (s : SessionPlanStore V) (c : Call V) : s.Step c (s.next c) (s.reply c) := by
  cases c with
  | activateSession sessionID generation =>
    simp only [next, reply, step, activateSession]
    split_ifs with h
    · exact .fail _ _
    · rw [not_or] at h
      exact .activate sessionID generation h.1 h.2
  | commit key plan sc => exact step_commit key plan sc
  | setIfCurrent base plan => exact step_setIfCurrent base plan
  | delete key =>
    simp only [next, reply, step, delete]
    split_ifs with h
    · exact .idle _ _ (.inr (.inr (.inl rfl)))
    · exact .delete key (by simpa using h)
  | deleteSession sessionID =>
    simp only [next, reply, step]
    by_cases h : sessionID = ""
    · have hsame : s.deleteSession sessionID = s := by simp [deleteSession, h]
      rw [hsame]
      exact .idle _ _ (.inr (.inr (.inl rfl)))
    · exact .deleteSession sessionID h
  | issueReceipt key requested plan routerID => exact step_issueReceipt key requested plan routerID
  | issueReceiptForVersion req => exact step_issueReceiptForVersion req
  | commitAndIssueReceipt key plan sc requested routerID =>
    exact step_commitAndIssueReceipt key plan sc requested routerID
  | finalizeReceipt receipt outcome expandAfter =>
    exact step_finalize _ receipt outcome expandAfter rfl
  | recordCallSuccess receipt expandAfter =>
    simp only [next, reply, step, recordCallSuccess]
    split_ifs with h
    · exact .idle _ _ (.inr (.inr (.inr rfl)))
    · exact step_finalize _ receipt .succeeded expandAfter (by simp [Call.spends, h])
  | setMaxEntries maxEntries => exact .setMaxEntries maxEntries
  | stop => exact .stop

/-! ## One entry -/

/-- A call that answers with a receipt. -/
def Issues (s : SessionPlanStore V) (c : Call V) (r : AuthorizationReceipt) : Prop :=
  s.reply c = .receipt r ∨ ∃ plan, s.reply c = .committed plan r

/-- The entry of a key once a call has written, if it writes. -/
inductive Held (s : SessionPlanStore V) (c : Call V) (k : PlanKey) : SessionEntry V → Prop where
  | kept {e : SessionEntry V} (he : s.entries.lookup k = some e) : Held s c k e
  | written {stored : SelectionPlan} {sc : SelectionContext V} (h : s.Writes c k stored sc) :
      Held s c k (s.written k stored sc)

/-- How a call finalises a receipt of a key: its outcome and threshold, if it consumes one. -/
def finalised (s : SessionPlanStore V) (c : Call V) (k : PlanKey) : Option (ReceiptOutcome × ℤ) :=
  match c.spends with
  | none => none
  | some (receipt, outcome, expandAfter) =>
    if k = newPlanKey receipt.routerInstanceID receipt.sessionID ∧
        (receipt.state.any fun state => !s.consumed state && (s.next c).consumed state) = true
    then some (outcome, expandAfter) else none

theorem finalised_of_consumed_eq {k : PlanKey} (h : (s.next c).consumed = s.consumed) :
    s.finalised c k = none := by
  have hsame : ∀ state, (!s.consumed state && s.consumed state) = false :=
    fun state => Bool.not_and_self _
  cases hc : c.spends with
  | none => simp only [finalised, hc]
  | some spent =>
    simp only [finalised, hc, h, hsame, Option.any_false, Bool.false_eq_true, and_false, if_false]

theorem finalised_of_ne {k : PlanKey} {receipt : AuthorizationReceipt} {outcome : ReceiptOutcome}
    {expandAfter : ℤ}
    (hc : c.spends = some (receipt, outcome, expandAfter))
    (hne : k ≠ newPlanKey receipt.routerInstanceID receipt.sessionID) : s.finalised c k = none := by
  simp only [finalised, hc, hne, false_and, if_false]

theorem Spends.finalised_eq {receipt : AuthorizationReceipt} {outcome : ReceiptOutcome}
    {expandAfter : ℤ}
    {e : SessionEntry V} {state : ℕ} (h : s.Spends c receipt outcome expandAfter e state)
    (hnext : (s.next c).consumed = Function.update s.consumed state true) :
    s.finalised c (newPlanKey receipt.routerInstanceID receipt.sessionID) =
      some (outcome, expandAfter) := by
  simp [finalised, h.call, h.state_eq, h.unconsumed, hnext]

/-- What becomes of the entry of one key, and how a receipt of the key is finalised. -/
inductive Effect (s : SessionPlanStore V) (c : Call V) (k : PlanKey) :
    Option (SessionEntry V) → Option (ReceiptOutcome × ℤ) → Prop where
  | gone : Effect s c k none none
  | held {e : SessionEntry V} (h : s.Held c k e) : Effect s c k (some e) none
  | issued {e : SessionEntry V} (requested routerID : String) (hc : c.receiptKey = some k)
      (h : s.Held c k e)
      (hissues : s.Issues c (e.issueReceipt k requested routerID s.receiptStates).2) :
      Effect s c k (some (e.issueReceipt k requested routerID s.receiptStates).1) none
  | released {receipt : AuthorizationReceipt} {outcome : ReceiptOutcome} {expandAfter : ℤ}
      {e : SessionEntry V}
      {state : ℕ} (h : s.Spends c receipt outcome expandAfter e state)
      (hk : k = newPlanKey receipt.routerInstanceID receipt.sessionID)
      (hnot : ¬ (outcome = .succeeded ∧ 0 < expandAfter)) :
      Effect s c k (some (e.release receipt.receiptID)) (some (outcome, expandAfter))
  | counted {receipt : AuthorizationReceipt} {expandAfter : ℤ} {e : SessionEntry V} {state : ℕ}
      (h : s.Spends c receipt .succeeded expandAfter e state)
      (hk : k = newPlanKey receipt.routerInstanceID receipt.sessionID) (hpos : 0 < expandAfter)
      (hreply : s.reply c = .result ((e.release receipt.receiptID).countCall expandAfter).2) :
      Effect s c k (some ((e.release receipt.receiptID).countCall expandAfter).1)
        (some (.succeeded, expandAfter))

/-- An entry that a call does not touch. -/
theorem Effect.of_lookup (s : SessionPlanStore V) (c : Call V) (k : PlanKey) :
    s.Effect c k (s.entries.lookup k) none := by
  cases he : s.entries.lookup k with
  | none => exact .gone
  | some e => exact .held (.kept he)

theorem Effect.of_insert {e : SessionEntry V} {f : Option (ReceiptOutcome × ℤ)} (k : PlanKey)
    (h : s.Effect c key (some e) f) (hkey : s.finalised c key = f)
    (hne : k ≠ key → s.finalised c k = none) :
    s.Effect c k ((s.entries.insert key e).lookup k) (s.finalised c k) := by
  rcases eq_or_ne k key with rfl | hk
  · rw [FinMap.lookup_insert_self, hkey]
    exact h
  · rw [FinMap.lookup_insert_of_ne hk, hne hk]
    exact .of_lookup s c k

/-- Every call has one of the effects that are listed in `Effect` on each entry. -/
theorem effect (s : SessionPlanStore V) (c : Call V) (k : PlanKey) :
    s.Effect c k ((s.next c).entries.lookup k) (s.finalised c k) := by
  have hstep := s.step_spec c
  generalize hnext : s.next c = s' at hstep
  generalize hreply : s.reply c = r at hstep
  -- most calls leave the memory of the receipts as it is
  have hquiet : s'.consumed = s.consumed → ∀ k, s.finalised c k = none :=
    fun h k => finalised_of_consumed_eq (hnext ▸ h)
  cases hstep with
  | fail | idle | activate | setMaxEntries => exact hquiet rfl k ▸ .of_lookup s _ k
  | write _ h _ => exact .of_insert k (.held (.written h)) (hquiet rfl _) fun _ => hquiet rfl k
  | issue _ requested routerID hc he _ =>
    have hissued :=
      Effect.issued requested routerID (c.receiptKey_of_asks hc) (.kept he) (.inl hreply)
    exact .of_insert k hissued (hquiet rfl _) fun _ => hquiet rfl k
  | @writeIssue _ key stored sc requested routerID hc h _ =>
    rw [hquiet rfl k]
    have hissued := Effect.issued requested routerID hc (Held.written h) (.inr ⟨_, hreply⟩)
    rcases eq_or_ne k key with rfl | hne
    · have hlookup := FinMap.lookup_insert_self
        (m := (s.put k (s.written k stored sc)).entries) (k := k)
        (v := ((s.written k stored sc).issueReceipt k requested routerID s.receiptStates).1)
      exact hlookup ▸ hissued
    · have hlookup :
          ((s.put key (s.written key stored sc)).issueFrom key (s.written key stored sc) requested
          routerID).1.entries.lookup k = s.entries.lookup k :=
        (FinMap.lookup_insert_of_ne hne).trans (FinMap.lookup_insert_of_ne hne)
      exact hlookup ▸ .of_lookup s _ k
  | release h hnot =>
    exact .of_insert k (.released h rfl hnot) (h.finalised_eq (congrArg consumed hnext))
      (finalised_of_ne h.call)
  | count h hpos =>
    exact .of_insert k (.counted h rfl hpos hreply) (h.finalised_eq (congrArg consumed hnext))
      (finalised_of_ne h.call)
  | delete key _ =>
    rw [hquiet rfl k, FinMap.lookup_erase]
    split_ifs
    · exact .gone
    · exact .of_lookup s _ k
  | deleteSession sessionID hid =>
    have hconsumed : (s.deleteSession sessionID).consumed = s.consumed :=
      by rw [deleteSession, if_neg hid]
    rw [hquiet hconsumed k, deleteSession, if_neg hid, FinMap.lookup_filter]
    split_ifs
    · exact .of_lookup s _ k
    · exact .gone
  | stop => exact hquiet rfl k ▸ .gone

/-! ## The entry before and after -/

theorem written_of_none (h : s.entries.lookup key = none) :
    s.written key stored sc = .create key stored sc := by
  rw [written, h]

theorem written_of_some {e : SessionEntry V} (h : s.entries.lookup key = some e) :
    s.written key stored sc = e.replace key stored sc := by
  rw [written, h]

/-- A write is one of `SessionEntry.write`, whatever was there before. -/
theorem exists_written_eq_write (key : PlanKey) (stored : SelectionPlan) (sc : SelectionContext V) :
    ∃ callCount expanded generation nextReceiptID,
      s.written key stored sc = .write callCount expanded generation nextReceiptID key stored
        sc := by
  cases he : s.entries.lookup key with
  | none => exact ⟨0, false, 0, 0, written_of_none he⟩
  | some e =>
    rw [written_of_some he, SessionEntry.replace]
    split_ifs
    · exact ⟨_, _, _, _, rfl⟩
    · exact ⟨_, _, _, _, rfl⟩

theorem context_written (key : PlanKey) (stored : SelectionPlan) (sc : SelectionContext V) :
    (s.written key stored sc).context = sc := by
  obtain ⟨_, _, _, _, h⟩ := exists_written_eq_write (s := s) key stored sc
  rw [h]
  rfl

theorem generation_written {e : SessionEntry V} (he : s.entries.lookup key = some e) :
    (s.written key stored sc).generation = e.generation + 1 := by
  rw [written_of_some he, SessionEntry.replace]
  split_ifs <;> rfl

/-- Counting a call expands the entry or only raises the count. -/
theorem countCall_cases (e : SessionEntry V) (expandAfter : ℤ) :
    (e.countCall expandAfter =
      ({ e with callCount := e.callCount + 1 }, { count := e.callCount + 1 })) ∨
      (e.expanded = false ∧ e.countCall expandAfter =
        ({ e with
            callCount := e.callCount + 1
            expanded := true
            generation := e.generation + 1
            plan := { e.plan with expanded := true, generation := e.generation + 1 }
            activeReceipts := fun _ => none },
          { count := e.callCount + 1, transitioned := true })) := by
  simp only [SessionEntry.countCall]
  split
  · rename_i h
    exact .inr ⟨h.1, rfl⟩
  · exact .inl rfl

/-- The context of an entry is the one it had, or the one that the call has written. -/
theorem context_next {k : PlanKey} {e' : SessionEntry V}
    (he' : (s.next c).entries.lookup k = some e') :
    (∃ e, s.entries.lookup k = some e ∧ e'.context = e.context) ∨
      ∃ stored, s.Writes c k stored e'.context := by
  have hheld : ∀ e₁, s.Held c k e₁ → (∃ e, s.entries.lookup k = some e ∧ e₁.context = e.context) ∨
      ∃ stored, s.Writes c k stored e₁.context := by
    intro e₁ h
    cases h with
    | kept he => exact .inl ⟨e₁, he, rfl⟩
    | @written stored sc h => exact .inr ⟨stored, (context_written k stored sc).symm ▸ h⟩
  have heffect := s.effect c k
  rw [he'] at heffect
  generalize s.finalised c k = f at heffect
  cases heffect with
  | held h => exact hheld _ h
  | @issued e _ _ _ h _ => exact hheld e h
  | @released _ _ _ e _ h hk _ => exact .inl ⟨e, hk ▸ h.entry, rfl⟩
  | @counted receipt expandAfter e _ h hk _ _ =>
    refine .inl ⟨e, hk ▸ h.entry, ?_⟩
    rcases countCall_cases (e.release receipt.receiptID) expandAfter with hcount | ⟨-, hcount⟩ <;>
      rw [hcount] <;> rfl

/-- As long as an entry is there, its generation does not go down, and it holds the same plan as
long as the generation is the same. -/
theorem generation_next {k : PlanKey} {e e' : SessionEntry V} (he : s.entries.lookup k = some e)
    (he' : (s.next c).entries.lookup k = some e') :
    (e'.generation = e.generation ∧ e'.plan = e.plan) ∨ e.generation < e'.generation := by
  have hheld : ∀ e₁, s.Held c k e₁ → (e₁.generation = e.generation ∧ e₁.plan = e.plan) ∨
      e.generation < e₁.generation := by
    intro e₁ h
    cases h with
    | kept he₁ =>
      obtain rfl := Option.some.inj (he.symm.trans he₁)
      exact .inl ⟨rfl, rfl⟩
    | written h =>
      rw [generation_written he]
      exact .inr (Nat.lt_succ_self _)
  have heffect := s.effect c k
  rw [he'] at heffect
  generalize s.finalised c k = f at heffect
  cases heffect with
  | held h => exact hheld _ h
  | @issued e₁ _ _ _ h _ => exact hheld e₁ h
  | released h hk _ =>
    obtain rfl := Option.some.inj (he.symm.trans (hk ▸ h.entry))
    exact .inl ⟨rfl, rfl⟩
  | @counted receipt expandAfter _ _ h hk _ _ =>
    obtain rfl := Option.some.inj (he.symm.trans (hk ▸ h.entry))
    rcases countCall_cases (e.release receipt.receiptID) expandAfter with hcount | ⟨-, hcount⟩
    · rw [hcount]
      exact .inl ⟨rfl, rfl⟩
    · rw [hcount]
      exact .inr (Nat.lt_succ_self _)

/-! ## Lists of calls -/

theorem run_nil : s.run [] = s := rfl

theorem run_append (calls calls' : List (Call V)) :
    s.run (calls ++ calls') = (s.run calls).run calls' :=
  List.foldl_append

theorem run_snoc (calls : List (Call V)) (c : Call V) :
    s.run (calls ++ [c]) = (s.run calls).next c :=
  run_append calls [c]

end SessionPlanStore

end Pixiu.Mcp
