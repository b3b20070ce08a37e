import Promfetcher.Foundation.Text
import Mathlib.Data.List.AList

/-!
# Routes and route keys

The records of `models/route.go` and the keys of `models/uris.go`. Two field
lists matter: `Route.equal` compares the six fields that identify an endpoint,
and `Route.needUpdate` compares the six names and ids of its app. Neither looks
at `tls`, `ttl` or the other tags.

The field `URL`, which the lookups write and nothing reads, is left out.
-/

namespace Promfetcher

open Foundation

/-- The process type of the routes that are scraped. -/
def processWeb : GoString := text "web"

/-- The key of the route table, and the spelling of a route in a message. -/
structure Uri where
  value : GoString
  deriving DecidableEq, Repr

namespace Uri

/-- `Uri.String`: a trailing slash is dropped. -/
def string (uri : Uri) : GoString :=
  trimSuffix uri.value [slash]

/-- `Uri.ToLower`. -/
def toLower [GoRuntime] (uri : Uri) : Uri :=
  ⟨GoRuntime.toLower uri.string⟩

/-- `Uri.RouteKey`: lower case, without the query. -/
def routeKey [GoRuntime] (uri : Uri) : Uri :=
  let key := uri.toLower
  match indexByte key.value questionMark with
  | some index => ⟨key.value.take index⟩
  | none => key

end Uri

/-- `Tags`: what tells the app and the instance of a route. -/
structure Tags where
  processType : GoString := []
  processInstanceID : GoString := []
  component : GoString := []
  instanceID : GoString := []
  spaceName : GoString := []
  organizationID : GoString := []
  processID : GoString := []
  organizationName : GoString := []
  sourceID : GoString := []
  appID : GoString := []
  appName : GoString := []
  spaceID : GoString := []
  deriving DecidableEq, Repr

/-- An endpoint of an app, or an external exporter. -/
structure Route where
  privateInstanceID : GoString := []
  tags : Tags := {}
  serverCertDomainSan : GoString := []
  address : GoString := []
  tls : Bool := false
  ttl : Int := 0
  urlParams : AList (fun _ : GoString => List GoString) := ∅
  metricsPath : GoString := []
  host : GoString := []
  deriving DecidableEq

/-- The fields that tell two endpoints apart. -/
structure Identity where
  privateInstanceID : GoString
  serverCertDomainSan : GoString
  address : GoString
  host : GoString
  instanceID : GoString
  processInstanceID : GoString
  deriving DecidableEq, Repr

namespace Route

/-- `Route.Equal`. -/
def equal (route : Route) : Option Route → Bool
  | none => false
  | some other =>
      route.privateInstanceID == other.privateInstanceID &&
      route.serverCertDomainSan == other.serverCertDomainSan &&
      route.address == other.address &&
      route.host == other.host &&
      route.tags.instanceID == other.tags.instanceID &&
      route.tags.processInstanceID == other.tags.processInstanceID

/-- `Route.NeedUpdate`. -/
def needUpdate (route : Route) : Option Route → Bool
  | none => false
  | some other =>
      route.tags.appID != other.tags.appID ||
      route.tags.appName != other.tags.appName ||
      route.tags.organizationID != other.tags.organizationID ||
      route.tags.organizationName != other.tags.organizationName ||
      route.tags.spaceID != other.tags.spaceID ||
      route.tags.spaceName != other.tags.spaceName

/-- What `Equal` compares. -/
def identity (route : Route) : Identity where
  privateInstanceID := route.privateInstanceID
  serverCertDomainSan := route.serverCertDomainSan
  address := route.address
  host := route.host
  instanceID := route.tags.instanceID
  processInstanceID := route.tags.processInstanceID

@[simp]
theorem equal_none (route : Route) : route.equal none = false :=
  rfl

@[simp]
theorem equal_some (route other : Route) :
    route.equal (some other) = true ↔ route.identity = other.identity := by
  simp [equal, identity, and_assoc]

end Route

end Promfetcher
