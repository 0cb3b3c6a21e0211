import DidHosting.Common.Json

/-!
# Third-party code

What the services call but do not contain, as one structure of functions.  A
definition that needs it takes it as a parameter, so every result holds for
whatever these functions compute; a result that relies on their documented
behaviour states it as a hypothesis.
-/

namespace DidHosting

/-- The three hosting methods. -/
inductive Method where
  | webvh
  | web
  | webs
deriving DecidableEq, Repr

/-- The method's name as it appears in `did:{name}:…`. -/
def Method.name : Method → String
  | .webvh => "webvh"
  | .web => "web"
  | .webs => "webs"

/-- `didwebvh_rs::url::WebVHURL`, the fields the services compare. -/
structure WebVHURL where
  domain : String
  port : Option ℕ
  path : String
deriving DecidableEq, Repr

/-- `agent_names::AgentName`. -/
structure AgentName where
  authority : String
  localName : String
  withoutScheme : String
deriving DecidableEq, Repr

/-- `affinidi_did_webs::DidWebs`. -/
structure DidWebs where
  path : List String
  aid : String
deriving DecidableEq, Repr

/-- The key state of a `did:webs` event log. -/
structure KeyState where
  pre : String
  sn : ℕ
deriving DecidableEq, Repr

inductive UrlHost where
  | domain (name : String)
  | ipv4
  | ipv6
deriving DecidableEq, Repr

/-- `url::Url`, the parts the services read: the authority and the whole
serialised text. -/
structure Url where
  hostStr : Option String
  port : Option ℕ
  text : String
deriving DecidableEq, Repr

/-- The libraries the services are linked with. -/
structure Libs where
  /-- Whether the `method-webs` feature is compiled in. -/
  methodWebs : Bool
  /-- `serde_json::from_str::<Value>`. -/
  fromStr : String → Except String Json
  /-- `serde_json::to_string` of a value. -/
  toJsonString : Json → String
  /-- `didwebvh_rs::log_entry::LogEntry`. -/
  LogEntry : Type
  /-- The version of the did:webvh specification an entry declares. -/
  Version : Type
  /-- `didwebvh_rs::parameters::Parameters`, as validated for an entry. -/
  Parameters : Type
  /-- `didwebvh_rs::witness::proofs::WitnessProofCollection`. -/
  WitnessProofs : Type
  /-- `LogEntry::deserialize_string`. -/
  deserializeString : String → Option Version → Except String LogEntry
  /-- `LogEntry::get_webvh_version`. -/
  webvhVersion : LogEntry → Version
  /-- `LogEntry::get_version_id_fields().0`. -/
  versionNumber : LogEntry → Except String ℕ
  /-- `LogEntry::get_version_id`. -/
  versionId : LogEntry → String
  /-- `LogEntryState::verify_log_entry`: verify an entry after the one before
  it, and return the parameters in force for it. -/
  verifyLogEntry :
    LogEntry → Option (LogEntry × Parameters) → Except String Parameters
  /-- `parameters.active_witness.witnesses()`, as `did:key`s. -/
  activeWitnesses : Parameters → Option (List String)
  /-- The `threshold` of `parameters.witness`. -/
  witnessThreshold : Parameters → Option ℕ
  /-- `DIDWebVHState::parse_witness_proofs`. -/
  parseWitnessProofs : String → Except String WitnessProofs
  /-- `WitnessProofCollection::default`. -/
  noProofs : WitnessProofs
  /-- `WitnessProofCollection::generate_proof_state`. -/
  generateProofState : WitnessProofs → ℕ → Except String WitnessProofs
  /-- `WitnessProofCollection::validate_log_entry`. -/
  validateLogEntry :
    WitnessProofs → LogEntry → Parameters → ℕ → Except String Unit
  /-- `DIDWebVHState::validate` on parsed entries and witness proofs: the
  report, with the parameters established for each entry. -/
  validate :
    List LogEntry → Option WitnessProofs →
      Except String (List Parameters × Except String Unit)
  /-- `serde_json::from_value::<DataIntegrityProof>`, reduced to the proof's
  `verificationMethod`. -/
  proofVerificationMethod : Json → Except String String
  /-- `LogEntry::validate_witness_proof`. -/
  validateWitnessProof : LogEntry → Json → Except String Unit
  /-- `WebVHURL::parse_did_url`. -/
  parseDidUrl : String → Except String WebVHURL
  /-- `url::Url::parse`. -/
  urlParse : String → Except String Url
  /-- `WebVHURL::parse_url`. -/
  parseUrl : Url → Except String WebVHURL
  /-- `url::Host::parse`. -/
  hostParse : String → Except String UrlHost
  /-- `AgentName::parse`. -/
  agentNameParse : String → Except String AgentName
  /-- `AgentName::looks_like_agent_name`. -/
  looksLikeAgentName : String → Bool
  /-- `DidWebs::parse`. -/
  didWebsParse : String → Except String DidWebs
  /-- `Kels::parse`, and whether an inception event is among the messages. -/
  kelsParse : String → Except String Bool
  /-- `Kels::key_state` for an AID of a parsed stream. -/
  kelsKeyState : String → String → Except String KeyState
  /-- `resolve_from_artifacts` without a supplied document, serialised. -/
  resolveFromArtifacts : DidWebs → String → Except String String

end DidHosting
