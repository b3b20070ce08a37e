import Promfetcher.Foundation.Json
import Promfetcher.Models.Route

/-!
# Messages of the bus

The payload of `router.register` and `router.unregister`, as `mbus/message.go`
decodes and validates it. Every field is decoded, since a field of the wrong kind
refuses the whole message; only some of them reach the route.
-/

namespace Promfetcher

open Foundation

/-- One member of the object of tags is decoded into its field. -/
def Tags.store (tags : Tags) (name : GoString) (value : Json) : Option Tags :=
  if Json.selects name "process_type" then do
    return { tags with processType := ← value.storeString tags.processType }
  else if Json.selects name "process_instance_id" then do
    return { tags with processInstanceID := ← value.storeString tags.processInstanceID }
  else if Json.selects name "component" then do
    return { tags with component := ← value.storeString tags.component }
  else if Json.selects name "instance_id" then do
    return { tags with instanceID := ← value.storeString tags.instanceID }
  else if Json.selects name "space_name" then do
    return { tags with spaceName := ← value.storeString tags.spaceName }
  else if Json.selects name "organization_id" then do
    return { tags with organizationID := ← value.storeString tags.organizationID }
  else if Json.selects name "process_id" then do
    return { tags with processID := ← value.storeString tags.processID }
  else if Json.selects name "organization_name" then do
    return { tags with organizationName := ← value.storeString tags.organizationName }
  else if Json.selects name "source_id" then do
    return { tags with sourceID := ← value.storeString tags.sourceID }
  else if Json.selects name "app_id" then do
    return { tags with appID := ← value.storeString tags.appID }
  else if Json.selects name "app_name" then do
    return { tags with appName := ← value.storeString tags.appName }
  else if Json.selects name "space_id" then do
    return { tags with spaceID := ← value.storeString tags.spaceID }
  else some tags

/-- `RegistryMessage`, with the strings that its array of URIs holds behind its length. -/
structure Message where
  app : GoString := []
  availabilityZone : GoString := []
  endpointUpdatedAtNs : Int := 0
  host : GoString := []
  isolationSegment : GoString := []
  port : Nat := 0
  privateInstanceID : GoString := []
  privateInstanceIndex : GoString := []
  protocol : GoString := []
  routeServiceURL : GoString := []
  serverCertDomainSAN : GoString := []
  staleThresholdInSeconds : Int := 0
  tlsPort : Nat := 0
  tags : Tags := {}
  uris : List Uri := []
  /-- What the array of `uris` holds behind their length. A member that comes once more is decoded
  into the same array. -/
  urisBehind : List GoString := []
  deriving DecidableEq

namespace Message

/-- One member of the object is decoded into its field. -/
def store (msg : Message) (name : GoString) (value : Json) : Option Message :=
  if Json.selects name "app" then do
    return { msg with app := ← value.storeString msg.app }
  else if Json.selects name "availability_zone" then do
    return { msg with availabilityZone := ← value.storeString msg.availabilityZone }
  else if Json.selects name "endpoint_updated_at_ns" then do
    return { msg with endpointUpdatedAtNs := ← value.storeInt 64 msg.endpointUpdatedAtNs }
  else if Json.selects name "host" then do
    return { msg with host := ← value.storeString msg.host }
  else if Json.selects name "isolation_segment" then do
    return { msg with isolationSegment := ← value.storeString msg.isolationSegment }
  else if Json.selects name "port" then do
    return { msg with port := ← value.storeUint 16 msg.port }
  else if Json.selects name "private_instance_id" then do
    return { msg with privateInstanceID := ← value.storeString msg.privateInstanceID }
  else if Json.selects name "private_instance_index" then do
    return { msg with privateInstanceIndex := ← value.storeString msg.privateInstanceIndex }
  else if Json.selects name "protocol" then do
    return { msg with protocol := ← value.storeString msg.protocol }
  else if Json.selects name "route_service_url" then do
    return { msg with routeServiceURL := ← value.storeString msg.routeServiceURL }
  else if Json.selects name "server_cert_domain_san" then do
    return { msg with serverCertDomainSAN := ← value.storeString msg.serverCertDomainSAN }
  else if Json.selects name "stale_threshold_in_seconds" then do
    return { msg with staleThresholdInSeconds := ← value.storeInt 64 msg.staleThresholdInSeconds }
  else if Json.selects name "tls_port" then do
    return { msg with tlsPort := ← value.storeUint 16 msg.tlsPort }
  else if Json.selects name "tags" then do
    return { msg with tags := ← value.storeStruct Tags.store msg.tags }
  else if Json.selects name "uris" then do
    let (uris, behind) ← value.storeStrings (msg.uris.map Uri.value ++ msg.urisBehind)
    return { msg with uris := uris.map Uri.mk, urisBehind := behind }
  else some msg

/-- `Message.port`: the TLS port is preferred. -/
def portOf (msg : Message) : Nat × Bool :=
  if msg.tlsPort ≠ 0 then (msg.tlsPort, true) else (msg.port, false)

/-- `Message.MakeRoute`; no branch of it returns an error. -/
def makeRoute (msg : Message) : Route :=
  let (port, useTLS) := msg.portOf
  { privateInstanceID := msg.privateInstanceID
    tags := msg.tags
    serverCertDomainSan := msg.serverCertDomainSAN
    address := msg.host ++ text ":" ++ decimal port
    tls := useTLS
    ttl := msg.staleThresholdInSeconds
    host := msg.host }

/-- `Message.ValidateMessage`. -/
def validateMessage (msg : Message) : Bool :=
  msg.routeServiceURL == [] || hasPrefix msg.routeServiceURL (text "https")

end Message

/-- The errors of `CreateMessage`. -/
inductive MessageError where
  /-- `json.Unmarshal` refused the payload. -/
  | json
  /-- "unable to validate message. route_service_url must be https" -/
  | routeServiceURL
  deriving DecidableEq, Repr

/-- `mbus.CreateMessage`. -/
def createMessage (data : GoString) : Except MessageError Message :=
  match (Json.parse data).bind (Json.storeStruct Message.store {}) with
  | none => .error .json
  | some msg => if msg.validateMessage then .ok msg else .error .routeServiceURL

/-- A null in a repeated member brings back what its cell held, also behind the length. -/
example : createMessage
    (text "\x7b\"uris\":[\"a\",\"b\"],\"uris\":[\"c\"],\"uris\":[null,null]\x7d") =
      .ok { uris := [⟨text "c"⟩, ⟨text "b"⟩] } := by
  rfl

end Promfetcher
