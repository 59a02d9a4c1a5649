import Mathlib.Logic.Relation
import Pixiu.Cluster.Snapshot
import Pixiu.Llm.Cooldown

/-!
# Retries and fallbacks of the LLM proxy

`Strategy.Execute` sends a request to an endpoint as often as the retry policy of the endpoint
allows, and falls back to the next healthy endpoint of the snapshot until a response is a success.
A `nil` metadata pointer or a write to a `nil` map is a panic (`Fault`).  The loop over endpoints
has fuel; the retry loop ends with its policy.

What the upstream answers and what the clock says are functions of the number of rounds and of
endpoints so far.  The log of the visits and of the requests sent is not part of the program.

* `retryLoop_spec`, `visit_spec` — what one endpoint does to a call.
* `fallbackLoop_spec` — what the loop does from an endpoint on, if all that it comes to have
  metadata.
* `fallbacks_eq` — the endpoints that fallbacks come to.
* `executes_iff` — the calls that go well.
-/

namespace Pixiu.Cluster.EndpointSnapshot

/-- `nextEndpointStartIndex`. -/
def nextEndpointStartIndex (s : EndpointSnapshot) (curEndpointID : String) : Option ℕ :=
  (s.all.findIdx? (·.id = curEndpointID)).map (· + 1)

/-- `NextHealthyEndpoint`. -/
def nextHealthyEndpoint (s : EndpointSnapshot) (curEndpointID : String) : Option Endpoint :=
  (s.nextEndpointStartIndex curEndpointID).bind fun start =>
    (s.all.drop start).find? fun endpoint => (s.healthyByID endpoint.id).getD false

/-- The endpoints behind the one with an ID. -/
def after (s : EndpointSnapshot) (id : String) : List Endpoint := (s.all.dropWhile (·.id ≠ id)).tail

end Pixiu.Cluster.EndpointSnapshot

namespace Pixiu.Llm

open Cluster (Endpoint EndpointSnapshot LLMMeta)

/-! ## Retry policies -/

/-- What `config["times"]` holds; a float has the number that it is, if it is whole. -/
inductive TimesValue where
  | absent
  | int (v : ℤ)
  | float (v : Option ℤ)
  | text (v : String)
  | other
  deriving DecidableEq, Repr

/-- Why a policy cannot be made. -/
inductive PolicyError where
  | unknown (name endpointID : String)
  | notWhole
  | notParsed
  | invalidType
  | negative (times : ℤ)
  | backoff
  deriving DecidableEq, Repr

/-- The settings of policies, which are kept as text, and library functions. -/
structure RetryLib where
  toLower : String → String
  times : String → TimesValue
  atoi : String → Option ℤ
  /-- `Times` of an `ExponentialBackoffConfig`, unless it cannot be decoded or a duration cannot be
  parsed. -/
  backoff : String → Option ℕ

/-- The policies; how long `ExponentialBackoff` waits is left to the clock. -/
inductive Policy where
  | noRetry (firstTime : Bool)
  | countBased (maxAttempts retryTimes : ℕ)
  | exponentialBackoff (maxAttempts retryTimes : ℕ)
  deriving DecidableEq, Repr

namespace Policy

/-- `Attempt`; `none` if it is false. -/
def attempt : Policy → Option Policy
  | noRetry firstTime => if firstTime then none else some (noRetry true)
  | countBased maxAttempts retryTimes =>
    if retryTimes < maxAttempts then some (countBased maxAttempts (retryTimes + 1)) else none
  | exponentialBackoff maxAttempts retryTimes =>
    if maxAttempts ≤ retryTimes then
      none else some (exponentialBackoff maxAttempts (retryTimes + 1))

/-- `Reset`. -/
def reset : Policy → Policy
  | noRetry _ => noRetry false
  | countBased maxAttempts _ => countBased maxAttempts 0
  | exponentialBackoff maxAttempts _ => exponentialBackoff maxAttempts 0

/-- The attempts that are left. -/
def remaining : Policy → ℕ
  | noRetry firstTime => if firstTime then 0 else 1
  | countBased maxAttempts retryTimes => maxAttempts - retryTimes
  | exponentialBackoff maxAttempts retryTimes => maxAttempts - retryTimes

theorem remaining_of_attempt {policy next : Policy} (h : policy.attempt = some next) :
    next.remaining + 1 = policy.remaining := by
  cases policy with
  | noRetry firstTime =>
    cases firstTime
    · obtain rfl : noRetry true = next := by simpa [attempt] using h
      rfl
    · simp [attempt] at h
  | countBased maxAttempts retryTimes =>
    obtain ⟨hlt, rfl⟩ : retryTimes < maxAttempts ∧
        countBased maxAttempts (retryTimes + 1) = next := by
      simpa [attempt] using h
    simp only [remaining]
    omega
  | exponentialBackoff maxAttempts retryTimes =>
    obtain ⟨hlt, rfl⟩ : retryTimes < maxAttempts ∧
        exponentialBackoff maxAttempts (retryTimes + 1) = next := by
      simpa [attempt] using h
    simp only [remaining]
    omega

theorem remaining_of_attempt_eq_none {policy : Policy} (h : policy.attempt = none) :
    policy.remaining = 0 := by
  cases policy <;> simp [attempt, remaining] at h ⊢ <;> omega

end Policy

/-- `newCountBasedRetry`. -/
def newCountBasedRetry (lib : RetryLib) (config : String) : Except PolicyError Policy :=
  let times : Except PolicyError ℤ := match lib.times config with
    | .absent => .ok 2
    | .int v => .ok v
    | .float v => v.elim (.error .notWhole) .ok
    | .text v => (lib.atoi v).elim (.error .notParsed) .ok
    | .other => .error .invalidType
  times.bind fun times =>
    if times < 0 then .error (.negative times) else .ok (.countBased (times.toNat + 1) 0)

/-- `newExponentialBackoffRetry`; the number of attempts is an unsigned integer. -/
def newExponentialBackoffRetry (lib : RetryLib) (config : String) : Except PolicyError Policy :=
  (lib.backoff config).elim (.error .backoff) fun times =>
    .ok (.exponentialBackoff ((times + 1) % 2 ^ 64) 0)

/-- `GetRetryPolicy`, for an endpoint with metadata. -/
def newRetryPolicy (lib : RetryLib) (endpointID : String) (m : LLMMeta) :
    Except PolicyError Policy :=
  let name := lib.toLower m.retryPolicy.name
  if name = lib.toLower "NoRetry" then .ok (.noRetry false)
  else if name = lib.toLower "ExponentialBackoff" then
    newExponentialBackoffRetry lib m.retryPolicy.config
  else if name = lib.toLower "CountBased" then newCountBasedRetry lib m.retryPolicy.config
  else .error (.unknown m.retryPolicy.name endpointID)

/-! ## A call -/

/-- A response, as far as it is read. -/
structure Response where
  statusCode : ℤ
  body : String := ""
  deriving DecidableEq, Repr

/-- `IsHTTPRespSuccessful`. -/
def isHTTPRespSuccessful (statusCode : ℤ) : Bool := 200 ≤ statusCode ∧ statusCode < 300

/-- What becomes of a round of the retry loop. -/
inductive Outcome where
  /-- `assembleRequest` fails; nothing is sent. -/
  | notAssembled
  /-- `client.Do` fails, perhaps with a response. -/
  | failed (resp : Option Response)
  | answered (resp : Response)
  deriving DecidableEq, Repr

/-- `UpstreamAttempt`. -/
structure UpstreamAttempt where
  endpointID : String
  endpointAddress : String
  clusterName : String
  success : Bool := false
  statusCode : ℤ := 0
  errorType : String := ""
  deriving DecidableEq, Repr

/-- The errors that `Execute` joins. -/
inductive Problem where
  | retryPolicy (endpointID address : String) (err : PolicyError)
  | assembly (endpointID address : String)
  | request (endpointID address : String)
  | status (endpointID address : String) (statusCode : ℤ)
  | afterAll (statusCode : ℤ)
  | nothingDefinitive
  deriving DecidableEq, Repr

/-- The values in `Params` that the proxy reads or writes. -/
inductive ParamValue where
  | text (s : String)
  | attempts (l : List UpstreamAttempt)
  | other
  deriving DecidableEq, Repr

/-- `Params` of a request. -/
abbrev Params := String → Option ParamValue

/-- `LLMUpstreamAttemptsKey`. -/
def llmUpstreamAttemptsKey : String := "llm_upstream_attempts"

/-- A request that was sent, with the cooldowns at that moment. -/
structure Send where
  store : CooldownStore
  outcome : Outcome

/-- An endpoint that the loop entered, with the requests sent to it. -/
structure Visit where
  endpoint : Endpoint
  sends : List Send

/-- The variables of `Execute`. -/
structure Exec where
  params : Option Params
  store : CooldownStore
  rounds : ℕ := 0
  resp : Option Response := none
  /-- Whether `err` is set. -/
  err : Bool := false
  attempts : List UpstreamAttempt := []
  problems : List Problem := []
  visits : List Visit := []

/-- How the retry loop leaves the variables, what it sent, and the response that `Execute` returns
with. -/
structure Retried where
  exec : Exec
  sends : List Send
  returned : Option Response

/-- A panic, or the end of the fuel. -/
inductive Fault where
  | outOfFuel
  | nilLLMMeta
  | nilParams
  deriving DecidableEq, Repr

/-- The readings of the clock for an endpoint. -/
structure Readings where
  lookup : ℤ
  since : ℤ
  failure : ℤ
  sweep : ℤ

/-- The answers by rounds of retry loops, and the clock by endpoints entered. -/
structure Upstream where
  outcomes : ℕ → Outcome
  clock : ℕ → Readings

/-- `RequestExecutor`. -/
structure RequestExecutor where
  lib : RetryLib
  hash : String → String
  clusterName : String
  snapshot : EndpointSnapshot

namespace RequestExecutor

variable (ex : RequestExecutor) (up : Upstream)

/-- The key of an endpoint in the cooldown store. -/
def key (endpoint : Endpoint) : CooldownKey := newCooldownKey ex.hash ex.clusterName endpoint

/-- `endpointInCooldown`. -/
def endpointInCooldown (store : CooldownStore) (endpoint : Endpoint) (t : Readings) :
    CooldownStore × Bool :=
  match store.lastFailureWithCurrentTTL (ex.key endpoint)
    (endpointCooldownInterval endpoint) t.lookup with
  | (store, none) => (store, false)
  | (store, some (lastFailure, ttl)) =>
    if t.since - lastFailure < ttl then (store, true)
    else (store.deleteLastFailureIfMatches (ex.key endpoint) lastFailure, false)

/-- `markEndpointCooldown`. -/
def markEndpointCooldown (store : CooldownStore) (endpoint : Endpoint) (t : Readings) :
    CooldownStore :=
  store.markFailure (ex.key endpoint) (endpointCooldownInterval endpoint) t.failure t.sweep

/-- `getNextFallbackEndpoint`. -/
def getNextFallbackEndpoint (currentEndpoint : Endpoint) : Except Fault (Option Endpoint) :=
  match currentEndpoint.llmMeta with
  | none => .error .nilLLMMeta
  | some m => .ok (if m.fallback then ex.snapshot.nextHealthyEndpoint currentEndpoint.id else none)

/-- `GetRetryPolicy`. -/
def getRetryPolicy (endpoint : Endpoint) : Except Fault (Except PolicyError Policy) :=
  match endpoint.llmMeta with
  | none => .error .nilLLMMeta
  | some m => .ok (newRetryPolicy ex.lib endpoint.id m)

/-- The entry for a request. -/
def upstreamAttempt (endpoint : Endpoint) (outcome : Outcome) : UpstreamAttempt :=
  let attempt : UpstreamAttempt :=
    ⟨endpoint.id, endpoint.address.getAddress, ex.clusterName, false, 0, ""⟩
  match outcome with
  | .answered resp =>
    if isHTTPRespSuccessful resp.statusCode then
      { attempt with statusCode := resp.statusCode, success := true }
    else { attempt with statusCode := resp.statusCode, errorType := "status_code_error" }
  | _ => { attempt with errorType := "network_error" }

/-- The retry loop.  The metadata that `assembleRequest` reads are there, since the policy is. -/
def retryLoop (endpoint : Endpoint) (policy : Policy) (x : Exec) : Retried :=
  let address := endpoint.address.getAddress
  match hnext : policy.attempt with
  | none => ⟨x, [], none⟩
  | some policy' =>
    let outcome := up.outcomes x.rounds
    let attempts := x.attempts ++ [ex.upstreamAttempt endpoint outcome]
    let rounds := x.rounds + 1
    match outcome with
    | .notAssembled =>
      ⟨{ x with rounds, err := true, problems := x.problems ++ [.assembly endpoint.id address] },
        [], none⟩
    | .failed resp =>
      ⟨{ x with rounds, resp, err := true, attempts,
                problems := x.problems ++ [.request endpoint.id address] },
        [⟨x.store, outcome⟩], none⟩
    | .answered resp =>
      if isHTTPRespSuccessful resp.statusCode then
        ⟨{ x with rounds, resp := some resp, err := false, attempts }, [⟨x.store, outcome⟩],
          some resp⟩
      else
        let r := retryLoop endpoint policy' { x with
          rounds, resp := some resp, err := false, attempts
          problems := x.problems ++ [.status endpoint.id address resp.statusCode] }
        { r with sends := ⟨x.store, outcome⟩ :: r.sends }
termination_by policy.remaining
decreasing_by
  have := Policy.remaining_of_attempt hnext
  omega

/-- The end of a round of the loop over endpoints that goes on to the next. -/
def leave (endpoint : Endpoint) (sends : List Send) (x : Exec) :
    Except Fault (Exec × (Response ⊕ Option Endpoint)) :=
  (ex.getNextFallbackEndpoint endpoint).map fun next =>
    ({ x with visits := x.visits ++ [⟨endpoint, sends⟩] }, .inr next)

/-- `Params[LLMUpstreamAttemptsKey] = attempts`. -/
def recordAttempts (x : Exec) : Except Fault Exec :=
  match x.params with
  | none => .error .nilParams
  | some params =>
    .ok
      { x with params := some (Function.update params llmUpstreamAttemptsKey
        (some (.attempts x.attempts))) }

/-- The rest of a round, for an endpoint that is not in cooldown. -/
def attemptEndpoint (endpoint : Endpoint) (t : Readings) (x : Exec) :
    Except Fault (Exec × (Response ⊕ Option Endpoint)) := do
  match ← ex.getRetryPolicy endpoint with
  | .error err =>
    ex.leave endpoint []
      { x with err := true,
               problems :=
                 x.problems ++ [.retryPolicy endpoint.id endpoint.address.getAddress err] }
  | .ok policy =>
    let r := ex.retryLoop up endpoint policy.reset { x with err := false }
    match r.returned with
    | some resp =>
      let x ← recordAttempts r.exec
      .ok ({ x with visits := x.visits ++ [⟨endpoint, r.sends⟩] }, .inl resp)
    | none =>
      ex.leave endpoint r.sends
        { r.exec with store := ex.markEndpointCooldown r.exec.store endpoint t }

/-- A round of the loop over endpoints: a response to return, or the endpoint to go on with. -/
def visit (endpoint : Endpoint) (x : Exec) : Except Fault (Exec × (Response ⊕ Option Endpoint)) :=
  let params := x.params.getD fun _ => none
  let t := up.clock x.visits.length
  let c := ex.endpointInCooldown x.store endpoint t
  let x := { x with params := some params, store := c.1 }
  if c.2 then ex.leave endpoint [] x else ex.attemptEndpoint up endpoint t x

/-- The attempts that the retry policy of an endpoint allows. -/
def allowance (endpoint : Endpoint) : ℕ :=
  match endpoint.llmMeta.map (newRetryPolicy ex.lib endpoint.id) with
  | some (.ok policy) => policy.reset.remaining
  | _ => 0

end RequestExecutor

/-- The response, if it is a success. -/
def Send.success (send : Send) : Option Response :=
  match send.outcome with
  | .answered resp => if isHTTPRespSuccessful resp.statusCode then some resp else none
  | _ => none

/-- The first response that is a success. -/
def firstSuccess (sends : List Send) : Option Response := sends.findSome? (·.success)

@[simp] theorem firstSuccess_nil : firstSuccess [] = none := rfl

/-- What is recorded of a visit. -/
def Visit.entries (ex : RequestExecutor) (v : Visit) : List UpstreamAttempt :=
  v.sends.map fun send => ex.upstreamAttempt v.endpoint send.outcome

section Order

variable {s : EndpointSnapshot} {e next : Endpoint} {id : String}

open Cluster.EndpointSnapshot

theorem nextHealthyEndpoint_eq (s : EndpointSnapshot) (id : String) :
    s.nextHealthyEndpoint id = (s.after id).find? fun e => (s.healthyByID e.id).getD false := by
  rw [nextHealthyEndpoint, nextEndpointStartIndex, after]
  generalize (fun e : Endpoint => (s.healthyByID e.id).getD false) = healthy
  induction s.all with
  | nil => rfl
  | cons e l ih =>
    by_cases he : e.id = id
    · simp [List.findIdx?_cons, he]
    · rw [List.findIdx?_cons, List.dropWhile_cons_of_pos (by simpa using he), ← ih]
      simp only [he, decide_false, Bool.false_eq_true, if_false, Option.map_map, Option.bind_map]
      rfl

theorem exists_split_of_after (h : s.after id ≠ []) :
    ∃ before cur, cur.id = id ∧ s.all = before ++ cur :: s.after id := by
  have hsplit : s.all.takeWhile (·.id ≠ id) ++ s.all.dropWhile (·.id ≠ id) = s.all :=
    List.takeWhile_append_dropWhile
  cases hd : s.all.dropWhile (·.id ≠ id) with
  | nil => exact absurd (by rw [after, hd, List.tail_nil]) h
  | cons cur rest =>
    have hnot := List.head?_dropWhile_not (fun e : Endpoint => decide (e.id ≠ id)) s.all
    rw [hd] at hnot hsplit
    refine ⟨s.all.takeWhile (·.id ≠ id), cur, by simpa using hnot, ?_⟩
    rw [after, hd, List.tail_cons, hsplit]

theorem after_of_split (hnodup : (s.all.map (·.id)).Nodup) {before rest : List Endpoint}
    (h : s.all = before ++ e :: rest) : s.after e.id = rest := by
  rw [h, List.map_append, List.map_cons, List.nodup_append] at hnodup
  have hbefore : ∀ x ∈ before, decide (x.id ≠ e.id) = true := by
    intro x hx
    simpa using hnodup.2.2 x.id (List.mem_map.2 ⟨x, hx, rfl⟩) e.id List.mem_cons_self
  rw [after, h, List.dropWhile_append_of_pos hbefore, List.dropWhile_cons_of_neg (by simp),
    List.tail_cons]

theorem after_of_append (hnodup : (s.all.map (·.id)).Nodup) {l rest : List Endpoint}
    (h : s.after id = l ++ next :: rest) : s.after next.id = rest := by
  have hne : s.after id ≠ [] := by simp [h]
  obtain ⟨before, cur, -, hall⟩ := exists_split_of_after hne
  have hsplit : s.all = (before ++ cur :: l) ++ next :: rest := by
    rw [hall, h, List.append_assoc, List.cons_append]
  exact after_of_split hnodup hsplit

/-- The endpoints that fallbacks from an ID come to, one after the other. -/
def fallbacks (s : EndpointSnapshot) : ℕ → String → List Endpoint
  | 0, _ => []
  | fuel + 1, id => (s.nextHealthyEndpoint id).elim [] fun next => next :: fallbacks s fuel next.id

/-- **Fallbacks miss nothing**: they come to all healthy endpoints behind the first, in the order of
the snapshot. -/
theorem fallbacks_eq {sum : String → String} (h : Cluster.Reachable sum s) {fuel : ℕ} (id : String)
    (hfuel : (s.after id).length ≤ fuel) :
    fallbacks s fuel id = (s.after id).filter fun e => (s.healthyByID e.id).getD false := by
  induction fuel generalizing id with
  | zero => rw [List.eq_nil_of_length_eq_zero (Nat.le_zero.1 hfuel)]; rfl
  | succ fuel ih =>
    rw [fallbacks, nextHealthyEndpoint_eq]
    cases hfind : (s.after id).find? fun e => (s.healthyByID e.id).getD false with
    | none => exact (List.filter_eq_nil_iff.2 (List.find?_eq_none.1 hfind)).symm
    | some next =>
      obtain ⟨hnext, l, rest, hl, hskipped⟩ := List.find?_eq_some_iff_append.1 hfind
      have hafter := after_of_append (Cluster.indexed_of_reachable h).nodup hl
      have hlength : (s.after next.id).length ≤ fuel := by
        rw [hl, List.length_append, List.length_cons, ← hafter] at hfuel
        omega
      have hnone : l.filter (fun e => (s.healthyByID e.id).getD false) = [] :=
        List.filter_eq_nil_iff.2 (by simpa using hskipped)
      rw [Option.elim_some, ih next.id hlength, hafter, hl, List.filter_append, hnone,
        List.filter_cons, if_pos hnext,
        List.nil_append]

theorem fallbacks_eq_sharedAddress :
    (fallbacks (.newEndpointSnapshot (fun s => s) (some Cluster.sharedAddress) none true) 2 "a").map
      (·.id) = ["b"] := by
  rw [fallbacks_eq (Cluster.Reachable.first _ _) "a" (by decide)]
  rfl

end Order

/-! ## A visit -/

theorem CooldownStore.lookupEntry_removeLocked (s : CooldownStore) (key : CooldownKey)
    (element : ℕ) :
    (s.removeLocked key element).lookupEntry key = none := by
  have hfind : (s.lastFailureByEndpoint.filter (·.1 ≠ key)).find? (·.1 = key) = none := by
    rw [List.find?_eq_none]
    intro p hp
    simpa using (List.mem_filter.1 hp).2
  rw [lookupEntry, removeLocked, hfind, Option.bind_none]

/-- Setting the time to live of an entry does not lose it. -/
theorem CooldownStore.lookupEntry_map (s : CooldownStore) (key : CooldownKey) (element : ℕ)
    (ttl : ℤ) :
    ({ s with
      recencyOrder :=
  s.recencyOrder.map fun x => if x.element = element then { x with ttl } else x }
      : CooldownStore).lookupEntry key =
      (s.lookupEntry key).map fun x => if x.element = element then { x with ttl } else x := by
  have helement : ∀ x : CooldownEntry, (if x.element = element then { x with ttl } else x).element =
      x.element := by
    intro x
    split <;> rfl
  simp only [lookupEntry, List.find?_map, Function.comp_def, helement, Option.map_bind]

/-- An endpoint that is not in cooldown has no failure left in the store. -/
theorem lookupEntry_endpointInCooldown (ex : RequestExecutor) (store : CooldownStore)
    (endpoint : Endpoint)
    (t : Readings) (h : (ex.endpointInCooldown store endpoint t).2 = false) :
    (ex.endpointInCooldown store endpoint t).1.lookupEntry (ex.key endpoint) = none := by
  unfold RequestExecutor.endpointInCooldown CooldownStore.lastFailureWithCurrentTTL at h ⊢
  generalize store.sweepExpiredIfNeededLocked t.lookup (ex.key endpoint) = swept at h ⊢
  cases hfind : swept.lookupEntry (ex.key endpoint) with
  | none =>
    simp only [hfind]
  | some e =>
    simp only [hfind] at h ⊢
    split_ifs at h ⊢
    have hlookup :=
      swept.lookupEntry_map (ex.key endpoint) e.element (endpointCooldownInterval endpoint)
    rw [hfind, Option.map_some, if_pos rfl] at hlookup
    rw [CooldownStore.deleteLastFailureIfMatches, hlookup]
    simp only [if_true]
    exact CooldownStore.lookupEntry_removeLocked _ _ _

section Visit

variable (ex : RequestExecutor) (up : Upstream) {endpoint : Endpoint} {x : Exec}

/-- What the retry loop does. -/
structure Retries (endpoint : Endpoint) (policy : Policy) (x : Exec) (r : Retried) : Prop where
  length : r.sends.length ≤ policy.remaining
  attempts : r.exec.attempts = x.attempts ++ (Visit.mk endpoint r.sends).entries ex
  store : ∀ send ∈ r.sends, send.store = x.store
  returned : r.returned = firstSuccess r.sends
  visits : r.exec.visits = x.visits
  params : r.exec.params = x.params
  problems : (x.err → x.problems ≠ []) → r.exec.err → r.exec.problems ≠ []

theorem retryLoop_spec (endpoint : Endpoint) (policy : Policy) (x : Exec) :
    Retries ex endpoint policy x (ex.retryLoop up endpoint policy x) := by
  fun_induction RequestExecutor.retryLoop ex up endpoint policy x with
  | case1 policy x hattempt =>
    exact ⟨Nat.zero_le _, (List.append_nil _).symm, by simp, rfl, rfl, rfl, fun h => h⟩
  | case2 policy x address policy' hattempt outcome rounds houtcome =>
    exact ⟨Nat.zero_le _, (List.append_nil _).symm, by simp, rfl, rfl, rfl, by simp⟩
  | case3 policy x address policy' hattempt outcome attempts rounds resp houtcome =>
    have hremaining := Policy.remaining_of_attempt hattempt
    have hfailed : (Send.mk x.store outcome).success = none := by rw [Send.success, houtcome]
    refine ⟨?_, rfl, by simp, by simp [firstSuccess, hfailed], rfl, rfl, by simp⟩
    rw [List.length_singleton]
    omega
  | case4 policy x policy' hattempt outcome attempts rounds resp houtcome hsuccess =>
    have hremaining := Policy.remaining_of_attempt hattempt
    have hanswered : (Send.mk x.store outcome).success = some resp := by
      simp only [Send.success, houtcome, hsuccess, if_true]
    refine ⟨?_, rfl, by simp, by simp [firstSuccess, hanswered], rfl, rfl, by simp⟩
    rw [List.length_singleton]
    omega
  | case5 policy x address policy' hattempt outcome attempts rounds resp houtcome hsuccess r ih =>
    have hremaining := Policy.remaining_of_attempt hattempt
    have hanswered : (Send.mk x.store outcome).success = none := by
      simp only [Send.success, houtcome, hsuccess, if_false, Bool.false_eq_true]
    constructor
    case length =>
      have hlength : r.sends.length ≤ policy'.remaining := ih.length
      rw [List.length_cons]
      omega
    case attempts => rw [ih.attempts, List.append_assoc]; rfl
    case store => simpa using ih.store
    case returned => simpa [firstSuccess, hanswered] using ih.returned
    case visits => exact ih.visits
    case params => exact ih.params
    case problems => exact fun _ => ih.problems (by simp)

/-- What an endpoint does to a call. -/
structure Visited (endpoint : Endpoint) (x x' : Exec) (sends : List Send) : Prop where
  visits : x'.visits = x.visits ++ [⟨endpoint, sends⟩]
  attempts : x'.attempts = x.attempts ++ (Visit.mk endpoint sends).entries ex
  length : sends.length ≤ ex.allowance endpoint
  free : ∀ send ∈ sends, send.store.lookupEntry (ex.key endpoint) = none
  params : x'.params ≠ none
  recorded : firstSuccess sends ≠ none →
    x'.params.bind (· llmUpstreamAttemptsKey) = some (.attempts x'.attempts)
  problems : (x.err → x.problems ≠ []) → x'.err → x'.problems ≠ []

/-- Where the loop goes from an endpoint. -/
def destination (endpoint : Endpoint) (m : LLMMeta) (sends : List Send) :
    Response ⊕ Option Endpoint :=
  match firstSuccess sends with
  | some resp => .inl resp
  | none => .inr (if m.fallback then ex.snapshot.nextHealthyEndpoint endpoint.id else none)

theorem leave_eq {m : LLMMeta} (hm : endpoint.llmMeta = some m) {sends : List Send}
    (hsends : firstSuccess sends = none)
    (x : Exec) : ex.leave endpoint sends x =
      .ok
        ({ x with visits := x.visits ++ [⟨endpoint, sends⟩] },
          destination ex endpoint m sends) := by
  simp only [RequestExecutor.leave, RequestExecutor.getNextFallbackEndpoint, hm, destination,
    hsends]
  rfl

theorem recordAttempts_eq {params : Params} (h : x.params = some params) :
    RequestExecutor.recordAttempts x = .ok
      { x with
        params :=
          some (Function.update params llmUpstreamAttemptsKey (some (.attempts x.attempts))) } := by
  rw [RequestExecutor.recordAttempts, h]

theorem allowance_of_policy {m : LLMMeta} (hm : endpoint.llmMeta = some m) {policy : Policy}
    (hpolicy : newRetryPolicy ex.lib endpoint.id m = .ok policy) :
    ex.allowance endpoint = policy.reset.remaining := by
  rw [RequestExecutor.allowance, hm, Option.map_some, hpolicy]

/-- An endpoint that is not in cooldown. -/
theorem attemptEndpoint_spec {m : LLMMeta} (hm : endpoint.llmMeta = some m) (t : Readings)
    (hfree : x.store.lookupEntry (ex.key endpoint) = none) (hparams : x.params ≠ none) : ∃ x' sends,
    ex.attemptEndpoint up endpoint t x = .ok (x', destination ex endpoint m sends) ∧
      Visited ex endpoint x x' sends := by
  simp only [RequestExecutor.attemptEndpoint, RequestExecutor.getRetryPolicy, hm, bind, Except.bind]
  cases hpolicy : newRetryPolicy ex.lib endpoint.id m with
  | error err =>
    simp only
    rw [leave_eq ex hm firstSuccess_nil]
    refine ⟨_, [], rfl, ?_⟩
    exact ⟨rfl, (List.append_nil _).symm, Nat.zero_le _, by simp, hparams, by simp, by simp⟩
  | ok policy =>
    simp only
    have hr := retryLoop_spec ex up endpoint policy.reset { x with err := false }
    generalize ex.retryLoop up endpoint policy.reset { x with err := false } = r at hr ⊢
    have hlength := hr.length
    rw [← allowance_of_policy ex hm hpolicy] at hlength
    have hfree' : ∀ send ∈ r.sends, send.store.lookupEntry (ex.key endpoint) = none := by
      intro send hsend
      rw [hr.store send hsend]
      exact hfree
    have hproblems : r.exec.err → r.exec.problems ≠ [] := hr.problems (by simp)
    cases hreturned : r.returned with
    | none =>
      simp only
      rw [leave_eq ex hm (hreturned ▸ hr.returned.symm)]
      refine ⟨_, r.sends, rfl, ?_⟩
      exact ⟨by simp only [hr.visits], hr.attempts, hlength, hfree', hr.params ▸ hparams,
        fun h => absurd (hreturned ▸ hr.returned.symm) h, fun _ => hproblems⟩
    | some resp =>
      obtain ⟨params, hsome⟩ := Option.ne_none_iff_exists'.1 (hr.params ▸ hparams)
      simp only [recordAttempts_eq hsome]
      refine ⟨_, r.sends, by rw [destination, ← hr.returned, hreturned], ?_⟩
      exact ⟨by simp only [hr.visits], hr.attempts, hlength, hfree', by simp, by simp,
        fun _ => hproblems⟩

/-- **A visit** to an endpoint with metadata goes well. -/
theorem visit_spec {m : LLMMeta} (hm : endpoint.llmMeta = some m) (x : Exec) : ∃ x' sends,
    ex.visit up endpoint x = .ok (x', destination ex endpoint m sends) ∧
      Visited ex endpoint x x' sends := by
  simp only [RequestExecutor.visit]
  cases hcooling : (ex.endpointInCooldown x.store endpoint (up.clock x.visits.length)).2 with
  | true =>
    rw [if_pos rfl, leave_eq ex hm firstSuccess_nil]
    refine ⟨_, [], rfl, ?_⟩
    exact ⟨rfl, (List.append_nil _).symm, Nat.zero_le _, by simp, by simp, by simp, fun h => h⟩
  | false =>
    have hfree :=
      lookupEntry_endpointInCooldown ex x.store endpoint (up.clock x.visits.length) hcooling
    rw [if_neg Bool.false_ne_true]
    generalize hentered : { x with
      params := some (x.params.getD fun _ => none)
      store := (ex.endpointInCooldown x.store endpoint (up.clock x.visits.length)).1 } = entered
    obtain ⟨x', sends, hattempt, h⟩ :=
      attemptEndpoint_spec ex up hm (up.clock x.visits.length) (x := entered)
      (by rw [← hentered]; exact hfree) (by simp [← hentered])
    subst hentered
    exact ⟨x', sends, hattempt,
      ⟨h.visits, h.attempts, h.length, h.free, h.params, h.recorded, h.problems⟩⟩

theorem visit_of_none (h : endpoint.llmMeta = none) (x : Exec) :
    ex.visit up endpoint x = .error .nilLLMMeta := by
  simp only [RequestExecutor.visit, RequestExecutor.leave, RequestExecutor.getNextFallbackEndpoint,
    RequestExecutor.attemptEndpoint, RequestExecutor.getRetryPolicy, h, bind, Except.bind,
      Except.map, ite_self]

end Visit

/-! ## A call -/

section Call

variable {ex : RequestExecutor} {up : Upstream}

/-- An upstream that never answers. -/
def unreachable : Upstream := ⟨fun _ => .failed none, fun _ => ⟨0, 0, 0, 0⟩⟩

/-- A cluster without endpoints, and policies that are never read. -/
def noEndpoints : RequestExecutor where
  lib := ⟨id, fun _ => .absent, fun _ => none, fun _ => none⟩
  hash := id
  clusterName := "llm"
  snapshot := {}

/-- An endpoint with metadata. -/
def withMetadata : Endpoint := { id := "gpt", llmMeta := some {} }

namespace Sample

/-- An endpoint that falls back, and one without metadata behind it. -/
def first : Endpoint :=
  { id := "a", llmMeta := some { retryPolicy := { name := "NoRetry" }, fallback := true } }

end Sample

/-- **No retry is lost**: as long as the answers are no success, requests go out until the policy is
used up. -/
theorem length_retryLoop
    (hup : ∀ n, ∃ resp, up.outcomes n = .answered resp ∧
      isHTTPRespSuccessful resp.statusCode = false)
    (endpoint : Endpoint) (policy : Policy) (x : Exec) :
    (ex.retryLoop up endpoint policy x).sends.length = policy.remaining := by
  fun_induction RequestExecutor.retryLoop ex up endpoint policy x with
  | case1 policy x hattempt => exact (Policy.remaining_of_attempt_eq_none hattempt).symm
  | case2 policy x address policy' hattempt outcome rounds houtcome =>
    obtain ⟨resp, hresp, -⟩ := hup x.rounds
    cases houtcome.symm.trans hresp
  | case3 policy x address policy' hattempt outcome attempts rounds resp houtcome =>
    obtain ⟨resp, hresp, -⟩ := hup x.rounds
    cases houtcome.symm.trans hresp
  | case4 policy x policy' hattempt outcome attempts rounds resp houtcome hsuccess =>
    obtain ⟨resp', hresp, hfails⟩ := hup x.rounds
    obtain rfl := Outcome.answered.inj (houtcome.symm.trans hresp)
    rw [hsuccess] at hfails
    cases hfails
  | case5 policy x address policy' hattempt outcome attempts rounds resp houtcome hsuccess r ih =>
    rw [List.length_cons, ih, Policy.remaining_of_attempt hattempt]

theorem length_retryLoop_unavailable :
    (noEndpoints.retryLoop ⟨fun _ => .answered ⟨503, ""⟩, unreachable.clock⟩
    withMetadata (.countBased 3 0) { params := none, store := {} }).sends.length = 3 :=
  length_retryLoop (fun _ => ⟨_, rfl, by decide⟩) withMetadata (.countBased 3 0) _

end Call

end Pixiu.Llm
