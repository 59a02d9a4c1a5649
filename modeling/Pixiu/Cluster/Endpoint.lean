import Pixiu.Base.Loops

/-!
# Endpoints, cluster configurations and endpoint identities

`model.Endpoint` and `model.ClusterConfig` of `pkg/model`, and `StableUniqueEndpointID`,
the one place that gives an endpoint its identity inside a cluster.

A `nil` pointer in a list of pointers is `none`.  `sum` stands for the first eight bytes of
SHA-256 in hexadecimal digits.

`stableUniqueEndpointID_notMem`: the identity is never one that is taken already, so the
search for a free suffix ends.
-/

namespace Pixiu.Cluster

open Pixiu

/-- `model.SocketAddress`. -/
structure SocketAddress where
  address : String := ""
  port : Int := 0
  resolverName : String := ""
  domains : List String := []
  certsDir : String := ""
  deriving DecidableEq, Repr

/-- `SocketAddress.GetAddress`. -/
def SocketAddress.getAddress (a : SocketAddress) : String :=
  match a.domains with
  | domain :: _ => domain
  | [] => a.address ++ ":" ++ toString a.port

/-- `model.RetryPolicy`; its free-form settings are modelled by their text. -/
structure RetryPolicy where
  name : String := ""
  config : String := ""
  deriving DecidableEq, Repr

/-- `model.LLMMeta`. -/
structure LLMMeta where
  provider : String := ""
  apiKey : String := ""
  retryPolicy : RetryPolicy := {}
  fallback : Bool := false
  healthCheckInterval : Int := 0
  deriving DecidableEq, Repr

/-- `model.Endpoint`; the metadata are the entries of a map, in the order of their keys. -/
structure Endpoint where
  id : String := ""
  name : String := ""
  address : SocketAddress := {}
  metadata : List (String × String) := []
  unHealthy : Bool := false
  llmMeta : Option LLMMeta := none
  deriving DecidableEq, Repr

/-- `model.ConsistentHash`, without the table that is built from it. -/
structure ConsistentHash where
  replicaNum : Int := 0
  maxVnodeNum : Int := 0
  maglevTableSize : Int := 0
  deriving DecidableEq, Repr

/-- `model.HealthCheckConfig`. -/
structure HealthCheckConfig where
  protocol : String := ""
  timeoutConfig : String := ""
  intervalConfig : String := ""
  initialDelaySeconds : String := ""
  healthyThreshold : UInt32 := 0
  unhealthyThreshold : UInt32 := 0
  deriving DecidableEq, Repr

/-- `model.ClusterConfig`; the settings for the discovery of endpoints are modelled by their
text. -/
structure ClusterConfig where
  name : String := ""
  typeStr : String := ""
  edsClusterConfig : String := ""
  lbStr : String := ""
  consistentHash : ConsistentHash := {}
  healthChecks : List HealthCheckConfig := []
  endpoints : List (Option Endpoint) := []
  configID : UInt64 := 0
  deriving DecidableEq, Repr

section Identity

variable (sum : String → String)

/-- `endpointIDMaterialField`. -/
def endpointIDMaterialField (name value : String) : String :=
  name ++ ":" ++ toString value.utf8ByteSize ++ ":" ++ value ++ "\n"

/-- `endpointIDMaterial`. -/
def endpointIDMaterial (clusterName : String) (endpoint : Option Endpoint) : String :=
  let address := (endpoint.map (·.address.getAddress)).getD ""
  let meta? := endpoint.bind (·.llmMeta)
  endpointIDMaterialField "cluster" clusterName ++
    endpointIDMaterialField "address" address ++
    endpointIDMaterialField "llm_provider" ((meta?.map (·.provider)).getD "") ++
    endpointIDMaterialField "llm_api_key" ((meta?.map (·.apiKey)).getD "")

/-- `GenerateEndpointID`. -/
def generateEndpointID (clusterName : String) (endpoint : Option Endpoint) : String :=
  "pixiu-generated-endpoint-" ++ sum (endpointIDMaterial clusterName endpoint)

/-- The identity `StableUniqueEndpointID` starts from. -/
def baseID (clusterName : String) (endpoint : Endpoint) : String :=
  if endpoint.id = "" then generateEndpointID sum clusterName (some endpoint) else endpoint.id

/-- `baseID` with a suffix. -/
def suffixed (base : String) (suffix : ℕ) : String := base ++ "-" ++ suffix.repr

/-- `StableUniqueEndpointID`, for an endpoint that is not `nil`. -/
def stableUniqueEndpointID (clusterName : String) (endpoint : Endpoint) (taken : List String) :
    String :=
  let base := baseID sum clusterName endpoint
  if base ∉ taken then base else (Fresh.firstFree (suffixed base) taken 2).getD base

theorem suffixed_injective (base : String) : Function.Injective (suffixed base) := by
  intro i j h
  have h' := congrArg String.toList h
  simp only [suffixed, String.toList_append, List.append_cancel_left_eq] at h'
  exact Nat.repr_injective (String.toList_inj.1 h')

/-- An identity is never one that is taken. -/
theorem stableUniqueEndpointID_notMem (clusterName : String) (endpoint : Endpoint)
    (taken : List String) : stableUniqueEndpointID sum clusterName endpoint taken ∉ taken := by
  rw [stableUniqueEndpointID]
  split_ifs with hbase
  · obtain ⟨id, hid⟩ := Option.isSome_iff_exists.1
      (Fresh.firstFree_isSome (suffixed_injective (baseID sum clusterName endpoint)) taken 2)
    rw [hid, Option.getD_some]
    exact Fresh.firstFree_notMem hid
  · exact hbase

end Identity

end Pixiu.Cluster
