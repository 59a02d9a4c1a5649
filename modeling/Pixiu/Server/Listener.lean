import Pixiu.Base.FinMap

/-!
# Listeners and their services

A listener config, the service that runs it, and what the listener manager can do to a service.  A
step that can fail is given its outcome: a failed step may leave the service accepting connections
or not.

A service is owned by the entry of the listener table that refers to it, so it is modelled as a
value in this entry.  `origin` is not a field of the source: it records which kind of operation
created the service.
-/

namespace Pixiu.Server

/-- `ProtocolType`. -/
inductive ProtocolType where
  | http
  | tcp
  | udp
  | https
  | grpc
  | http2
  | triple
  deriving DecidableEq, Repr

/-- A listener config; the filter chain and the settings of the protocol are one text. -/
structure Listener where
  name : String
  address : String
  port : ℤ
  protocolStr : String
  protocol : ProtocolType
  body : String
  deriving DecidableEq, Repr

/-- `resolveListenerName`. -/
def resolveListenerName (c : Listener) : String :=
  c.address ++ "-" ++ toString c.port ++ "-" ++ c.protocolStr

/-- A filter chain: what it was built from, and how often it was closed. -/
structure FilterChain where
  config : Listener
  closes : ℕ
  deriving DecidableEq, Repr

/-- A filter chain is closed once more. -/
def FilterChain.close (chain : FilterChain) : FilterChain :=
  { chain with closes := chain.closes + 1 }

/-- Who created a service. -/
inductive Origin where
  | static
  | xds
  deriving DecidableEq, Repr

/-- The interfaces that a service implements beyond `ListenerService`. -/
structure Capabilities where
  transactional : Bool
  stopAccepting : Bool
  setActive : Bool
  deriving DecidableEq, Repr

/-- A listener service. -/
structure Service where
  origin : Origin
  capabilities : Capabilities
  accepting : Bool
  active : Bool
  closes : ℕ
  chain : FilterChain
  deriving DecidableEq, Repr

/-- How a step of a service ends. -/
inductive Outcome where
  | done
  | failed (accepting : Bool)
  deriving DecidableEq, Repr

namespace Service

/-- A service as it is created. -/
def create (origin : Origin) (capabilities : Capabilities) (config : Listener) : Service where
  origin := origin
  capabilities := capabilities
  accepting := false
  active := true
  closes := 0
  chain := ⟨config, 0⟩

variable (s : Service)

/-- `Start`. -/
def start : Outcome → Service
  | .done => { s with accepting := true }
  | .failed accepting => { s with accepting }

/-- `StopAccepting`. -/
def stopAccepting : Outcome → Service
  | .done => { s with accepting := false }
  | .failed accepting => { s with accepting }

/-- `setListenerActive`. -/
def setListenerActive (active : Bool) : Service :=
  if s.capabilities.setActive then { s with active } else s

/-- `Close`. -/
def close : Service := { s with accepting := false, closes := s.closes + 1 }

/-- `CommitRefresh`. -/
def commitRefresh (prepared : FilterChain) : Service := { s with chain := prepared }

/-- Requests reach the filter chain: the socket accepts them, and the service is active where this
can be set. -/
def serving : Bool := s.accepting && (s.active || !s.capabilities.setActive)

/-- Two states of a service that differ in whether it serves at most. -/
structure Same (s s' : Service) : Prop where
  origin : s'.origin = s.origin
  capabilities : s'.capabilities = s.capabilities
  closes : s'.closes = s.closes
  chain : s'.chain = s.chain

variable {s} {s' s'' : Service}

theorem Same.refl : Same s s := ⟨rfl, rfl, rfl, rfl⟩

theorem Same.trans (h : Same s s') (h' : Same s' s'') : Same s s'' :=
  ⟨h'.origin.trans h.origin, h'.capabilities.trans h.capabilities, h'.closes.trans h.closes,
    h'.chain.trans h.chain⟩

theorem same_start (outcome : Outcome) : Same s (s.start outcome) := by
  cases outcome <;> exact ⟨rfl, rfl, rfl, rfl⟩

theorem same_stopAccepting (outcome : Outcome) : Same s (s.stopAccepting outcome) := by
  cases outcome <;> exact ⟨rfl, rfl, rfl, rfl⟩

theorem same_setListenerActive (active : Bool) : Same s (s.setListenerActive active) := by
  rw [setListenerActive]
  split_ifs <;> exact ⟨rfl, rfl, rfl, rfl⟩

/-- A service that accepts and is made active serves. -/
theorem serving_setListenerActive : (s.setListenerActive true).serving = s.accepting := by
  by_cases h : s.capabilities.setActive <;> simp [setListenerActive, serving, h]

end Service

/-- An entry of the listener table. -/
structure WrapListenerService where
  config : Listener
  service : Service
  deriving DecidableEq, Repr

/-- A change of the service of an entry. -/
def WrapListenerService.onService (w : WrapListenerService) (f : Service → Service) :
    WrapListenerService :=
  { w with service := f w.service }

/-- `ListenerManager`. -/
structure ListenerManager where
  activeListenerService : FinMap String WrapListenerService
  xdsManaged : Finset String

end Pixiu.Server
