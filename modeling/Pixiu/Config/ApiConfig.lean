import Pixiu.Base.Loops
import Pixiu.Base.Text

/-!
# The API configuration in etcd

`pkg/config/api_config.go`: resources and methods under keys of etcd.  `initAPIConfigFromKVList`
builds the configuration from all keys at once; `handlePutEvent` and `handleDeleteEvent` change it
as keys change.

The values are YAML; what the parser makes of a text is a parameter.  So are the types of the fields
that nothing here looks at (`rest`).  The calls of the listener are left out.
-/

namespace Pixiu.Config

/-- `Method`. -/
structure Method (μ : Type) where
  id : ℤ
  resourcePath : String
  httpVerb : String
  rest : μ
  deriving DecidableEq, Repr

/-- `Resource`. -/
structure Resource (ρ μ : Type) where
  id : ℤ
  path : String
  methods : List (Method μ)
  rest : ρ
  deriving DecidableEq, Repr

/-- `APIConfig`. -/
structure APIConfig (ρ μ : Type) where
  name : String := ""
  description : String := ""
  resources : List (Resource ρ μ) := []
  deriving DecidableEq, Repr

/-- What the parser makes of a text, and the other fields of an empty resource. -/
structure Yaml (ρ μ : Type) where
  properties : String → Option (List (String × String))
  resource : String → Option (Resource ρ μ)
  method : String → Option (Method μ)
  zero : ρ

/-! ## Keys -/

/-- The parts of a key, without a slash at its end. -/
def segments (key : String) : List String := Text.split '/' (Text.trimSuffix '/' key)

/-- `.+` before a slash: the parts from there on are preceded by a character other than a
newline. -/
def preceded (parts : List String) : Bool := (Text.join '/' parts).toList.getLast?.any (· ≠ '\n')

/-- The key of the base information. -/
def checkBaseInfo (key : String) : Bool :=
  match (Text.split '/' key).reverse with
  | "base" :: parts => preceded parts.reverse
  | _ => false

/-- The key of a resource. -/
def checkResource (key : String) : Bool :=
  match (segments key).reverse with
  | resource :: "resources" :: parts => decide (resource ≠ "") && preceded parts.reverse
  | _ => false

/-- The key of a method. -/
def extractMethod (key : String) : Bool :=
  match (segments key).reverse with
  | method :: "method" :: resource :: "resources" :: parts =>
    decide (method ≠ "") && decide (resource ≠ "") && preceded parts.reverse
  | _ => false

/-- `resourceIDFromConfigKey`. -/
def resourceIDFromConfigKey (key : String) : Option ℤ := (segments key).getLast?.bind Text.atoi

/-- `methodIDsFromConfigKey`. -/
def methodIDsFromConfigKey (key : String) : Option (ℤ × ℤ) :=
  match (segments key).reverse with
  | method :: _ :: resource :: _ => do
    let resourceID ← Text.atoi resource
    let methodID ← Text.atoi method
    some (resourceID, methodID)
  | _ => none

section

variable {ρ μ : Type} (yaml : Yaml ρ μ)

/-- Put a method where the first that is the same is, or at the end. -/
def Resource.putMethod (same : Method μ → Bool) (r : Resource ρ μ) (method : Method μ) :
    Resource ρ μ :=
  { r with methods := (updateFirst same (fun _ => method) r.methods).getD (r.methods ++ [method]) }

/-! ## Loading -/

/-- `initBaseInfoFromString`. -/
def initBaseInfoFromString (conf : APIConfig ρ μ) (str : String) : Option (APIConfig ρ μ) := do
  let properties ← yaml.properties str
  some { conf with
    name := (properties.lookup "name").getD conf.name
    description := (properties.lookup "description").getD conf.description }

/-- The loop body of `initAPIConfigServiceFromKvList`. -/
def initService (resources : List (Resource ρ μ)) (kv : String × String) :
    Option (List (Resource ρ μ)) := do
  let resourceID ← resourceIDFromConfigKey kv.1
  let resource ← yaml.resource kv.2
  let resource := { resource with id := resourceID }
  if resources.any (·.id = resource.id) then
    some (resources.map fun old => if old.id = resource.id then
      { resource with methods := old.methods } else old)
  else some (resources ++ [resource])

/-- `initAPIConfigServiceFromKvList`. -/
def initAPIConfigServiceFromKvList (resources : List (Resource ρ μ))
    (kvs : List (String × String)) :
    Option (List (Resource ρ μ)) :=
  kvs.foldlM (initService yaml) resources

/-- The loop body of `initAPIConfigMethodFromKvList`; a method with the same verb is the same
here. -/
def initMethod (resources : List (Resource ρ μ)) (kv : String × String) :
    Option (List (Resource ρ μ)) := do
  let (resourceID, methodID) ← methodIDsFromConfigKey kv.1
  let method ← yaml.method kv.2
  let method := { method with id := methodID }
  some ((updateFirst (·.id = resourceID)
    (·.putMethod (fun old => old.id = method.id || old.httpVerb = method.httpVerb) method)
      resources).getD
      (resources ++
        [{ id := resourceID, path := method.resourcePath, methods := [method],
           rest := yaml.zero }]))

/-- `initAPIConfigMethodFromKvList`. -/
def initAPIConfigMethodFromKvList (resources : List (Resource ρ μ)) (kvs : List (String × String)) :
    Option (List (Resource ρ μ)) :=
  kvs.foldlM (initMethod yaml) resources

/-- The keys are sorted by what they are for; an unknown one is skipped. -/
def initAPIConfigFromKVList (kvs : List (String × String)) : Option (APIConfig ρ μ) := do
  let baseInfo := ((kvs.filter (checkBaseInfo ·.1)).getLast?.map (·.2)).getD ""
  let others := kvs.filter (!checkBaseInfo ·.1)
  let conf ← initBaseInfoFromString yaml {} baseInfo
  let resources ← initAPIConfigServiceFromKvList yaml conf.resources
      (others.filter (checkResource ·.1))
  let resources ← initAPIConfigMethodFromKvList yaml resources
    (others.filter fun kv => !checkResource kv.1 && extractMethod kv.1)
  some { conf with resources }

/-! ## Events -/

/-- An event of etcd. -/
inductive Event where
  | put (key value : String)
  | delete (key : String)
  deriving DecidableEq, Repr

/-- The entries of etcd. -/
abbrev Store := List (String × String)

/-- What an event does to the entries. -/
def Event.apply (store : Store) : Event → Store
  | .put key value => (key, value) :: store.filter (·.1 ≠ key)
  | .delete key => store.filter (·.1 ≠ key)

/-- `deleteApiConfigResource`. -/
def deleteApiConfigResource (resources : List (Resource ρ μ)) (resourceID : ℤ) :
    List (Resource ρ μ) :=
  resources.eraseP (·.id = resourceID)

/-- `mergeApiConfigResource`. -/
def mergeApiConfigResource (resources : List (Resource ρ μ)) (val : Resource ρ μ) :
    List (Resource ρ μ) :=
  (updateFirst (·.id = val.id) (fun resource => { val with methods := resource.methods })
    resources).getD
    (resources ++ [val])

/-- `deleteApiConfigMethod`. -/
def deleteApiConfigMethod (resources : List (Resource ρ μ)) (resourceID methodID : ℤ) :
    List (Resource ρ μ) :=
  (updateFirst (fun resource => resource.id = resourceID && resource.methods.any (·.id = methodID))
    (fun resource => { resource with methods := resource.methods.eraseP (·.id = methodID) })
      resources).getD resources

/-- A method of an unknown resource is dropped. -/
def mergeApiConfigMethod (resources : List (Resource ρ μ)) (resourceID : ℤ) (val : Method μ) :
    List (Resource ρ μ) :=
  (updateFirst (·.id = resourceID) (·.putMethod (·.id = val.id) val) resources).getD resources

/-- `handleDeleteEvent`. -/
def handleDeleteEvent (conf : APIConfig ρ μ) (key : String) : APIConfig ρ μ :=
  if checkResource key then
    match resourceIDFromConfigKey key with
    | none => conf
    | some resourceID =>
      { conf with resources := deleteApiConfigResource conf.resources resourceID }
  else if extractMethod key then
    -- The key has lost a slash before it is parsed.
    match methodIDsFromConfigKey (Text.trimSuffix '/' key) with
    | none => conf
    | some (resourceID, methodID) =>
      { conf with resources := deleteApiConfigMethod conf.resources resourceID methodID }
  else conf

/-- `handlePutEvent`. -/
def handlePutEvent (conf : APIConfig ρ μ) (key val : String) : APIConfig ρ μ :=
  if checkResource key then
    match resourceIDFromConfigKey key, yaml.resource val with
    | some resourceID, some res =>
      { conf with resources := mergeApiConfigResource conf.resources { res with id := resourceID } }
    | _, _ => conf
  else if extractMethod key then
    match methodIDsFromConfigKey key, yaml.method val with
    | some (resourceID, methodID), some res =>
      { conf with resources := mergeApiConfigMethod conf.resources resourceID { res with
        id := methodID } }
    | _, _ => conf
  else if checkBaseInfo key then (initBaseInfoFromString yaml conf val).getD conf
  else conf

/-- An event is handled. -/
def handle (conf : APIConfig ρ μ) : Event → APIConfig ρ μ
  | .put key value => handlePutEvent yaml conf key value
  | .delete key => handleDeleteEvent conf key

end

end Pixiu.Config
