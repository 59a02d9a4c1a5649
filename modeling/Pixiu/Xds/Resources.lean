import Pixiu.Base.FinMap
import Pixiu.Base.System
import Pixiu.Cluster.Endpoint

/-!
# EDS resources

What the aggregated discovery client makes of the endpoints of an EDS response: the endpoints of the
extension model, and the endpoints of the cluster configs that are handed to the cluster manager.

The filter metadata of an endpoint are listed in the order they are ranged over, with their values
already encoded.
-/

namespace Pixiu.Xds

open Pixiu.Cluster (ClusterConfig)

/-! ## Messages -/

/-- `HealthStatus`. -/
inductive HealthStatus where
  | unknown
  | healthy
  | unhealthy
  | draining
  | timeout
  | degraded
  deriving DecidableEq, Repr

/-- An endpoint of an assignment; `address` is `none` if it has no socket address. -/
structure LbEndpoint where
  address : Option (String × ℕ)
  weight : Option ℕ
  healthStatus : HealthStatus
  filterMetadata : List (String × String × String)
  deriving DecidableEq, Repr

/-- `Locality`. -/
structure Locality where
  region : String
  zone : String
  subZone : String
  deriving DecidableEq, Repr

/-- `LocalityLbEndpoints`. -/
structure LocalityLbEndpoints where
  locality : Option Locality
  lbEndpoints : List (Option LbEndpoint)
  deriving DecidableEq, Repr

/-- `ClusterLoadAssignment`. -/
structure ClusterLoadAssignment where
  clusterName : String
  endpoints : List (Option LocalityLbEndpoints)
  deriving DecidableEq, Repr

/-- An endpoint of the extension model. -/
structure ExtEndpoint where
  id : String
  name : String
  address : String
  port : ℕ
  metadata : List (String × String)
  deriving DecidableEq, Repr

/-- Why an endpoint is refused: by the conversion, or by `makeEndpoints`. -/
inductive ApplyError where
  | notSocketAddress (assignment : String)
  | invalidSocketAddress (assignment address : String) (port : ℕ)
  | emptyID (cluster : String) (index : ℕ)
  | duplicateID (cluster id : String)
  | socketAddress (cluster id : String)
  | duplicateAddress (cluster address : String)
  | unhealthyMetadata (cluster id : String)
  deriving DecidableEq, Repr

/-! ## Conversion -/

/-- An entry of a metadata map set; the entries are listed by key. -/
def setMetadata (key value : String) (metadata : List (String × String)) : List (String × String) :=
  (metadata.filter (·.1 ≠ key)).orderedInsert (fun a b => a.1 ≤ b.1) (key, value)

/-- The same for a value that is not empty. -/
def setMetadataUnlessEmpty (key value : String) (metadata : List (String × String)) :
    List (String × String) :=
  if value ≠ "" then setMetadata key value metadata else metadata

/-- `endpointMetadata`. -/
def endpointMetadata (endpoint : LbEndpoint) (locality : Option Locality) :
    List (String × String) :=
  let weighted := match endpoint.weight with
    | some weight => setMetadata "envoy.lb/weight" (toString weight) []
    | none => []
  let checked := if endpoint.healthStatus ∈ [.unhealthy, .draining, .timeout]
    then setMetadata "pixiu.io/unhealthy" "true" weighted else weighted
  let located := match locality with
    | some locality =>
      setMetadataUnlessEmpty "envoy.locality/sub_zone" locality.subZone
        (setMetadataUnlessEmpty "envoy.locality/zone" locality.zone
          (setMetadataUnlessEmpty "envoy.locality/region" locality.region checked))
    | none => checked
  endpoint.filterMetadata.foldl (fun metadata entry =>
    setMetadata (entry.1 ++ "/" ++ entry.2.1) entry.2.2 metadata) located

/-- One endpoint of a locality; `none` stands for a `nil` endpoint, which is skipped. -/
def convertLbEndpoint (assignment : String) (locality : Option Locality) :
    Option LbEndpoint → Except ApplyError (Option ExtEndpoint)
  | none => .ok none
  | some endpoint =>
    match endpoint.address with
    | none => .error (.notSocketAddress assignment)
    | some (address, port) =>
      if address = "" ∨ port = 0 ∨
        65535 < port then .error (.invalidSocketAddress assignment address port)
      else
        let id := address ++ ":" ++ toString port
        .ok (some { id := id, name := id, address := address, port := port,
                    metadata := endpointMetadata endpoint locality })

/-- The endpoints of a locality. -/
def convertLocality (assignment : String) : Option LocalityLbEndpoints →
    Except ApplyError (List ExtEndpoint)
  | none => .ok []
  | some locality =>
    (locality.lbEndpoints.mapM (convertLbEndpoint assignment locality.locality)).map
      List.reduceOption

/-- `convertLoadBalancingEndpoints`. -/
def convertLoadBalancingEndpoints (assignment : ClusterLoadAssignment) :
    Except ApplyError (List ExtEndpoint) :=
  (assignment.endpoints.mapM (convertLocality assignment.clusterName)).map List.flatten

/-! ## Cluster configs -/

/-- `strconv.ParseBool`. -/
def parseBool (text : String) : Option Bool :=
  if text ∈ ["1", "t", "T", "TRUE", "true", "True"] then some true
  else if text ∈ ["0", "f", "F", "FALSE", "false", "False"] then some false
  else none

/-- The mark of an unhealthy endpoint, if it can be read. -/
def unhealthyOf (metadata : List (String × String)) : Option Bool :=
  match metadata.lookup "pixiu.io/unhealthy" with
  | some value => parseBool value
  | none => some false

/-- The loop of `makeEndpoints` from an index on, with the identities and the addresses so far. -/
def makeEndpointsFrom (cluster : String) : List ExtEndpoint → ℕ → List String → List String →
    Except ApplyError (List (Option Cluster.Endpoint))
  | [], _, _, _ => .ok []
  | endpoint :: endpoints, index, ids, addresses =>
    if endpoint.id = "" then .error (.emptyID cluster index)
    else if endpoint.id ∈ ids then .error (.duplicateID cluster endpoint.id)
    else if endpoint.address = "" ∨ endpoint.port = 0 ∨ 65535 < endpoint.port then
      .error (.socketAddress cluster endpoint.id)
    else
      let addressKey := endpoint.address ++ ":" ++ toString endpoint.port
      if addressKey ∈ addresses then .error (.duplicateAddress cluster addressKey)
      else match unhealthyOf endpoint.metadata with
        | none => .error (.unhealthyMetadata cluster endpoint.id)
        | some unhealthy =>
          (makeEndpointsFrom cluster endpoints (index + 1) (endpoint.id :: ids)
            (addressKey :: addresses)).map
            fun rest =>
              some { id := endpoint.id, name := endpoint.name,
                     address := { address := endpoint.address, port := endpoint.port },
                     metadata := endpoint.metadata, unHealthy := unhealthy } :: rest

end Pixiu.Xds
