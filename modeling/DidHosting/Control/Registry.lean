import Mathlib.Data.List.Sort
import DidHosting.Common.Domain
import DidHosting.Common.Json
import DidHosting.Support.Cycles
import DidHosting.Support.Text

/-!
# The service registry

One row per server instance.  Registration, domain acknowledgements, health pongs, the
replication marks and the refresh of the advertised services all read the row of an
instance and store it whole.  The access list, the domain records, the URL check, the DID
resolver and the clock are other parts of the service; an operation is given their answers.
-/

namespace DidHosting

namespace Registry

open Text

/-! ## Rows -/

inductive ServiceType where
  | server
  | witness
  | watcher
deriving DecidableEq, Repr

inductive ServiceStatus where
  | active
  | degraded
  | unreachable
deriving DecidableEq, Repr

inductive ObservedTransport where
  | tsp
  | didcomm
  | https
deriving DecidableEq, Repr

structure ServiceInstance where
  instanceId : String
  serviceType : ServiceType
  label : Option String
  url : String
  status : ServiceStatus
  lastHealthCheck : Option ℕ
  registeredAt : ℕ
  metadata : Json
  enabledMethods : List String
  servedDomains : List String
  protocolVersion : String
  advertisedServices : Option (List String)
  servicesCheckedAt : Option ℕ
  trustTaskCapable : Bool
  syncBatchCapable : Bool
  lastInboundTransport : Option ObservedTransport
  lastInboundAt : Option ℕ
  lastOutboundTransport : Option ObservedTransport
  lastOutboundAt : Option ℕ
  lastAckAt : Option ℕ
  lastReconcileAt : Option ℕ
deriving Repr

def ServiceInstance.did (instance_ : ServiceInstance) : Option String :=
  (instance_.metadata.get "did").bind Json.asStr

/-- The instance with the services its document was found to advertise. -/
def ServiceInstance.advertising (instance_ : ServiceInstance) (services : List String)
    (now : ℕ) : ServiceInstance :=
  { instance_ with advertisedServices := some services, servicesCheckedAt := some now }

/-- The id an instance is registered under. -/
def instanceId (did : String) : String :=
  replaceChar ':' "_" did

def instanceKey (id : String) : String :=
  s!"instance:{id}"

/-! ## Updates of one row -/

/-- The DID resolver, where one is configured: the types of the services a document
advertises. -/
abbrev Resolver := Option (String → Option (List String))

/-- `update_instance`: a row that is not there is left alone. -/
def updateInstance (change : ServiceInstance → ServiceInstance) : Cycle ServiceInstance :=
  fun row => row.map change

def recordAck (now : ℕ) : Cycle ServiceInstance :=
  updateInstance fun i => { i with lastAckAt := some now }

def recordReconcile (now : ℕ) : Cycle ServiceInstance :=
  updateInstance fun i => { i with lastReconcileAt := some now }

def updateInstanceStatus (status : ServiceStatus) (timestamp : ℕ) : Cycle ServiceInstance :=
  fun row => row.map fun i => { i with status := status, lastHealthCheck := some timestamp }

/-- `refresh_advertised_services`: only a document that resolves is recorded. -/
def refreshAdvertisedServices (resolver : Resolver) (now : ℕ) : Cycle ServiceInstance :=
  fun row => do
    let resolve ← resolver
    let instance_ ← row
    let did ← instance_.did
    let services ← resolve did
    return instance_.advertising services now

/-! ## Messages of a server -/

/-- `do_health_pong`, of a signer with the role that `check_acl` found. -/
def doHealthPong (role : Option Role) (now : ℕ) : List (Cycle ServiceInstance) :=
  if role = some .service then [updateInstanceStatus .active now] else []

def msgReplicaDomainAssignAck : String :=
  "https://trusttasks.org/spec/did-management/replica/domain/assign/0.1#response"

/-- The served domains after an acknowledgement, if they are others than before. -/
def mirrorDomain (add : Bool) (domain : String) (served : List String) :
    Option (List String) :=
  if add then
    if served.any (· == domain) then none
    else some ((served ++ [domain]).insertionSort (· ≤ ·))
  else
    let kept := served.filter (· != domain)
    if kept.length = served.length then none else some kept

/-- `do_domain_ack`, on the row of the server.  An acknowledged unassignment and an
acknowledged purge are mirrored alike. -/
def doDomainAck (role : Option Role) (typeUri : String) (body : Json) :
    List (Cycle ServiceInstance) :=
  let status := ((body.get "status").bind Json.asStr).getD "unknown"
  match (body.get "domain").bind Json.asStr with
  | none => []
  | some domain =>
      if role = some .service then
        let add := typeUri == msgReplicaDomainAssignAck && status == "applied"
        [fun row => do
          let instance_ ← row
          let served ← mirrorDomain add domain instance_.servedDomains
          return { instance_ with servedDomains := served }]
      else []

structure InfraRejection where
  code : String
  comment : String
deriving DecidableEq, Repr

/-- What a registration is told by the rest of the service. -/
structure Registrar where
  role : Option Role
  validateUrl : String → Except String Unit
  isDomain : String → Bool
  resolver : Resolver
  registeredAt : ℕ
  refreshedAt : ℕ

/-- A list of texts in a body; what is not a text is left out. -/
def textsOf (key : String) (body : Json) : Option (List String) :=
  ((body.get key).bind Json.asArray).map (List.filterMap Json.asStr)

/-- The row a registration stores over the one it found. -/
def registered (R : Registrar) (signer : String) (body : Json)
    (previous : Option ServiceInstance) : ServiceInstance where
  instanceId := instanceId signer
  serviceType := .server
  label := (body.get "label").bind Json.asStr
  url := ((body.get "public_url").bind Json.asStr).getD ""
  status := .active
  lastHealthCheck := none
  registeredAt := R.registeredAt
  metadata := .obj [("did", .str signer)]
  enabledMethods := (textsOf "enabled_methods" body).getD ["webvh"]
  servedDomains := ((textsOf "served_domains" body).getD []).filter R.isDomain
  protocolVersion := ((body.get "protocol_version").bind Json.asStr).getD "1.0"
  advertisedServices := previous.bind (·.advertisedServices)
  servicesCheckedAt := previous.bind (·.servicesCheckedAt)
  trustTaskCapable := ((body.get "trust_task_capable").bind Json.asBool).getD false
  syncBatchCapable := ((body.get "sync_batch").bind Json.asBool).getD false
  lastInboundTransport := previous.bind (·.lastInboundTransport)
  lastInboundAt := previous.bind (·.lastInboundAt)
  lastOutboundTransport := previous.bind (·.lastOutboundTransport)
  lastOutboundAt := previous.bind (·.lastOutboundAt)
  lastAckAt := previous.bind (·.lastAckAt)
  lastReconcileAt := previous.bind (·.lastReconcileAt)

/-- The role check of a registration. -/
def registrationAllowed : Option Role → Except InfraRejection Unit
  | some .service => .ok ()
  | some _ =>
      .error ⟨"e.p.registration.unauthorized",
        "service role required to register as a server"⟩
  | none =>
      .error ⟨"e.p.registration.unauthorized",
        "server DID must be pre-approved in the ACL before registering"⟩

/-- `do_server_register`: its cycles on the row, and what it answers. -/
def doServerRegister (R : Registrar) (signer : String) (body : Json) :
    Except InfraRejection (List (Cycle ServiceInstance) × Json) := do
  registrationAllowed R.role
  (R.validateUrl (((body.get "public_url").bind Json.asStr).getD "")).mapError fun message =>
    ⟨"e.p.registration.unauthorized", message⟩
  return ([fun previous => some (registered R signer body previous),
      refreshAdvertisedServices R.resolver R.refreshedAt],
    .obj [("instance_id", .str (instanceId signer)), ("status", .str "registered")])

/-! ## Operations on the row of a server -/

/-- An operation on the row of one server, with what it is told. -/
inductive RegistryTask where
  | serverRegister (R : Registrar) (body : Json)
  | domainAck (role : Option Role) (typeUri : String) (body : Json)
  | healthPong (role : Option Role) (now : ℕ)
  | recordAck (now : ℕ)
  | recordReconcile (now : ℕ)
  | refresh (resolver : Resolver) (now : ℕ)

/-- What the operation does to the row of the server. -/
def RegistryTask.cycles (did : String) : RegistryTask → List (Cycle ServiceInstance)
  | serverRegister R body =>
      match doServerRegister R did body with
      | .ok (cycles, _) => cycles
      | .error _ => []
  | domainAck role typeUri body => doDomainAck role typeUri body
  | healthPong role now => doHealthPong role now
  | recordAck now => [Registry.recordAck now]
  | recordReconcile now => [Registry.recordReconcile now]
  | refresh resolver now => [refreshAdvertisedServices resolver now]

end Registry

end DidHosting
