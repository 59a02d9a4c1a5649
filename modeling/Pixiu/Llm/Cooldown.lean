import Pixiu.Cluster.Endpoint

/-!
# Cooldown of failed endpoints

`cooldownStore` of the LLM proxy remembers when endpoints failed: a map from keys to the elements of
a list that is kept in the order of the failures.  `endpointInCooldown` looks an endpoint up,
compares the time, and in a second critical section deletes the failure that it saw, if it is still
there.

Times are readings of a clock in nanoseconds that is never set back.  Elements of the list are
numbered, so that the map can point to them; `hash` stands for SHA-256.
-/

namespace Pixiu.Llm

open Cluster (Endpoint)

/-- `cooldownKey`. -/
structure CooldownKey where
  clusterName : String
  endpointID : String
  endpointAddress : String
  credentialHash : Option String
  deriving DecidableEq, Repr

/-- `newCooldownKey`. -/
def newCooldownKey (hash : String → String) (clusterName : String) (endpoint : Endpoint) :
    CooldownKey where
  clusterName := clusterName
  endpointID := endpoint.id
  endpointAddress := endpoint.address.getAddress
  credentialHash :=
    endpoint.llmMeta.bind fun m => if m.apiKey = "" then none else some (hash m.apiKey)

/-- `endpointCooldownInterval`: milliseconds as an `int64` of nanoseconds. -/
def endpointCooldownInterval (endpoint : Endpoint) : ℤ :=
  (endpoint.llmMeta.map fun m => (1000000 * m.healthCheckInterval).bmod (2 ^ 64)).getD 0

/-- `maxCooldownStoreEntries`. -/
def maxCooldownStoreEntries : ℕ := 1024

/-- `cooldownStoreSweepAfter`, in nanoseconds. -/
def cooldownStoreSweepAfter : ℤ := 1000000000

/-- `cooldownStoreSweepAt`. -/
def cooldownStoreSweepAt : ℕ := maxCooldownStoreEntries * 90 / 100

/-- `cooldownEntry`, with the list element that holds it. -/
structure CooldownEntry where
  element : ℕ
  key : CooldownKey
  lastFailure : ℤ
  ttl : ℤ
  deriving DecidableEq, Repr

/-- The time to live of an entry has passed. -/
def CooldownEntry.Expired (e : CooldownEntry) (now : ℤ) : Prop := e.ttl ≤ now - e.lastFailure

instance (e : CooldownEntry) (now : ℤ) : Decidable (e.Expired now) :=
  inferInstanceAs (Decidable (_ ≤ _))

/-- `cooldownStore`; the map has the number of the element, and `next` is the next such number. -/
structure CooldownStore where
  lastFailureByEndpoint : List (CooldownKey × ℕ) := []
  recencyOrder : List CooldownEntry := []
  next : ℕ := 0
  lastSweep : Option ℤ := none

namespace CooldownStore

variable (s : CooldownStore)

/-- The entry that the map leads to. -/
def lookupEntry (key : CooldownKey) : Option CooldownEntry :=
  (s.lastFailureByEndpoint.find? (·.1 = key)).bind fun p => s.recencyOrder.find? (·.element = p.2)

/-- `removeLocked`. -/
def removeLocked (key : CooldownKey) (element : ℕ) : CooldownStore :=
  { s with
    lastFailureByEndpoint := s.lastFailureByEndpoint.filter (·.1 ≠ key)
    recencyOrder := s.recencyOrder.filter (·.element ≠ element) }

/-- A round of the loop of `sweepExpiredExceptLocked`. -/
def sweepOne (now : ℤ) (current : CooldownKey) (s : CooldownStore) (key : CooldownKey) :
    CooldownStore :=
  match s.lookupEntry key with
  | some e => if key ≠ current ∧ e.Expired now then s.removeLocked key e.element else s
  | none => s

/-- `sweepExpiredExceptLocked`. -/
def sweepExpiredExceptLocked (now : ℤ) (current : CooldownKey) : CooldownStore :=
  (s.lastFailureByEndpoint.map (·.1)).foldl (sweepOne now current) s

/-- `sweepExpiredIfNeededLocked`. -/
def sweepExpiredIfNeededLocked (now : ℤ) (current : CooldownKey) : CooldownStore :=
  if s.lastFailureByEndpoint.length < cooldownStoreSweepAt ∧
    s.lastSweep.any (now - · < cooldownStoreSweepAfter) then s
  else sweepExpiredExceptLocked { s with lastSweep := some now } now current

/-- `evictOldestIfFullLocked`. -/
def evictOldestIfFullLocked : CooldownStore :=
  if s.lastFailureByEndpoint.length < maxCooldownStoreEntries then s
  else match s.recencyOrder with
    | [] => s
    | oldest :: _ => s.removeLocked oldest.key oldest.element

/-- `lastFailureWithCurrentTTL`. -/
def lastFailureWithCurrentTTL (key : CooldownKey) (ttl now : ℤ) : CooldownStore × Option (ℤ × ℤ) :=
  let s := s.sweepExpiredIfNeededLocked now key
  match s.lookupEntry key with
  | none => (s, none)
  | some e =>
    ({ s with
        recencyOrder := s.recencyOrder.map fun x =>
          if x.element = e.element then { x with ttl } else x },
      some (e.lastFailure, ttl))

/-- `markFailure`, after the sweep. -/
def recordFailure (key : CooldownKey) (ttl lastFailure : ℤ) : CooldownStore :=
  match s.lookupEntry key with
  | some e =>
    { s with recencyOrder := s.recencyOrder.filter (·.element ≠
      e.element) ++ [{ e with lastFailure, ttl }] }
  | none =>
    let s := s.evictOldestIfFullLocked
    { s with
      lastFailureByEndpoint := (key, s.next) :: s.lastFailureByEndpoint
      recencyOrder := s.recencyOrder ++ [⟨s.next, key, lastFailure, ttl⟩]
      next := s.next + 1 }

/-- `markFailure`. -/
def markFailure (key : CooldownKey) (ttl lastFailure now : ℤ) : CooldownStore :=
  (s.sweepExpiredIfNeededLocked now key).recordFailure key ttl lastFailure

/-- `deleteLastFailureIfMatches`. -/
def deleteLastFailureIfMatches (key : CooldownKey) (expected : ℤ) : CooldownStore :=
  match s.lookupEntry key with
  | some e => if e.lastFailure = expected then s.removeLocked key e.element else s
  | none => s

end CooldownStore

end Pixiu.Llm
