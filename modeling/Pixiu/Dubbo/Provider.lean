import Pixiu.Base.Text

/-!
# Providers of Dubbo services

What `pkg/adapter/dubboregistry/registry` makes of the URL of a provider: the backend it describes,
its methods and its address, and for each method an API.

URLs are made, printed and parsed by a library; what it does is a parameter (`UrlLib`).  An API is
known by its pattern, its method and the address of its backend.
-/

namespace Pixiu.Dubbo

/-- A URL of a provider; the parameters are listed by key. -/
structure Url where
  protocol : String
  location : String
  path : String
  params : List (String × String)
  deriving DecidableEq, Repr

/-- `GetParam` with the empty string as default. -/
def Url.getParam (u : Url) (key : String) : String := (u.params.lookup key).getD ""

/-- The library for URLs: what a text is parsed to, and whether that failed; and the text of a
URL. -/
structure UrlLib where
  newURL : String → Url × Bool
  text : Url → String

/-- `DubboBackendConfig`. -/
structure DubboBackendConfig where
  clusterName : String := ""
  applicationName : String := ""
  version : String := ""
  protocol : String := ""
  group : String := ""
  interface : String := ""
  retries : String := ""
  serialization : String := ""
  method : String := ""
  deriving DecidableEq, Repr

/-- The backend that a URL describes. -/
def Url.backendConfig (u : Url) : DubboBackendConfig where
  clusterName := u.getParam "cluster"
  applicationName := u.getParam "application"
  version := u.getParam "version"
  protocol := u.protocol
  group := u.getParam "group"
  interface := u.getParam "interface"
  retries := u.getParam "retries"
  serialization := u.getParam "serialization"

/-- The backend, the methods and the address in the text of a URL. -/
def parseDubboString (lib : UrlLib) (urlString : String) :
    Option (DubboBackendConfig × List String × String) :=
  match lib.newURL urlString with
  | (_, true) => none
  | (u, false) => some (u.backendConfig, Text.split ',' (u.getParam "methods"), u.location)

/-- `GetAPIPattern`. -/
def getAPIPattern (bkConfig : DubboBackendConfig) : String :=
  "/" ++ bkConfig.applicationName ++ "/" ++ bkConfig.interface

/-- `RequestType`. -/
inductive RequestType where
  | dubbo
  | triple
  deriving DecidableEq, Repr

/-- An API; its verb is `POST`. -/
structure API where
  apiPattern : String
  urlPattern : String
  requestType : RequestType
  backend : DubboBackendConfig
  url : String
  deriving DecidableEq, Repr

/-- `CreateAPIConfig`. -/
def createAPIConfig (apiPattern location : String) (dboBackendConfig : DubboBackendConfig)
    (methodString : String) :
    API where
  apiPattern := apiPattern
  urlPattern := apiPattern ++ "/" ++ methodString
  requestType := if dboBackendConfig.protocol = "tri" then .triple else .dubbo
  backend := { dboBackendConfig with
    method := methodString
    serialization := if Text.trimSpace dboBackendConfig.serialization = "" then "hessian2"
      else dboBackendConfig.serialization }
  url := location

/-- A pattern, a method and an address. -/
abbrev Triple := String × String × String

/-- What an API is known by. -/
def API.triple (api : API) : Triple := (api.apiPattern, api.backend.method, api.url)

/-- The APIs in the text of a URL; none if it cannot be parsed. -/
def apisOf (lib : UrlLib) (urlString : String) : List API :=
  match parseDubboString lib urlString with
  | none => []
  | some (bkConfig, methods, location) =>
    methods.map (createAPIConfig (getAPIPattern bkConfig) location bkConfig)

/-- `OnAddAPI` of the adapter: whether the API is added.  Without a colon in the address it
panics. -/
def onAddAPI (api : API) : Option Bool :=
  match Text.split ':' api.url with
  | _ :: port :: _ => some (Text.atoi port).isSome
  | _ => none

namespace Sample

/-- A library for the URLs of the samples: the text of a URL is its methods and its address. -/
def lib : UrlLib where
  newURL text :=
    match Text.split '@' text with
    | [methods, location] =>
      (⟨"dubbo", location, "", [("application", "app"), ("interface", "Users"),
        ("methods", methods)]⟩, false)
    | _ => (⟨"", "", "", []⟩, true)
  text u := u.getParam "methods" ++ "@" ++ u.location

end Sample

end Pixiu.Dubbo
