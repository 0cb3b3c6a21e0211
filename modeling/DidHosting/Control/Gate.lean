import DidHosting.Common.Domain
import DidHosting.Common.TrustTask

/-!
# The gate of the control plane

Every transport hands its documents to one router.  The router looks up what the task
requires of its proof, verifies the proof, refuses what it has seen before, and only then
hands the document to one of four dispatchers.

What happens behind the gate, and what a transport does with a document before the
router sees it beyond the binding of a bearer session, is not modelled here: admission
by size and rate is an input.
-/

namespace DidHosting

open Text

/-! ## The table of tasks -/

/-- The rows of `control_tasks!`: the module of the task's payload, and its rule. -/
def taskRows : List (String × ProofRule) :=
  [ ("did_management::did::check_name::v0_1", .authentication),
    ("did_management::did::register::v0_1", .authentication),
    ("did_management::did::info::v0_1", .authentication),
    ("did_management::did::list::v0_1", .authentication),
    ("did_management::did::delete::v0_1", .authentication),
    ("did_management::did::change_owner::v0_1", .authentication),
    ("did_management::did::set_state::v0_1", .authentication),
    ("did_management::did::rollback::v0_1", .authentication),
    ("did_management::did::log::v0_1", .authentication),
    ("webvh::witness::publish::v0_1", .authentication),
    ("did_management::agent_name::update::v0_1", .authentication),
    ("did_management::agent_name::remove::v0_1", .authentication),
    ("did_management::agent_name::list::v0_1", .authentication),
    ("did_management::agent_name::check::v0_1", .authentication),
    ("did_management::agent_name::resolve::v0_1", .authentication),
    ("did_management::me::domains::v0_1", .authentication),
    ("did_management::domain::list::v0_1", .authentication),
    ("did_management::domain::create::v0_1", .authentication),
    ("did_management::domain::update::v0_1", .authentication),
    ("did_management::domain::set_state::v0_1", .authentication),
    ("did_management::domain::set_default::v0_1", .authentication),
    ("did_management::domain::purge::v0_1", .authentication),
    ("did_management::domain::assign::v0_1", .authentication),
    ("did_management::domain::unassign::v0_1", .authentication),
    ("did_management::registry::list::v0_1", .authentication),
    ("did_management::registry::get::v0_1", .authentication),
    ("did_management::registry::check::v0_1", .authentication),
    ("did_management::registry::admin_register::v0_1", .authentication),
    ("did_management::registry::deregister::v0_1", .authentication),
    ("did_management::registry::purge_domain::v0_1", .authentication),
    ("did_management::server::info::v0_1", .optional),
    ("did_management::server::config::v0_1", .authentication),
    ("did_management::server::metrics::v0_1", .authentication),
    ("did_management::stats::get::v0_1", .authentication),
    ("did_management::stats::timeseries::v0_1", .authentication),
    ("did_management::identity::list::v0_1", .authentication),
    ("did_management::identity::retire::v0_1", .authentication),
    ("auth::step_up::start::v0_1", .authentication),
    ("auth::step_up::approve_response::v0_5", .assertionMethod),
    ("auth::revoke_session::v0_2", .authentication),
    ("auth::passkey::login::start::v0_2", .optional),
    ("auth::passkey::login::finish::v0_2", .sessionKey),
    ("auth::passkey::enroll::invite::v0_2", .authentication),
    ("auth::passkey::enroll::redeem::start::v0_1", .optional),
    ("auth::passkey::enroll::redeem::finish::v0_1", .optional),
    ("auth::passkey::enroll::start::v0_2", .authentication),
    ("auth::passkey::enroll::finish::v0_2", .authentication),
    ("auth::passkey::enroll::invite::list::v0_1", .authentication),
    ("auth::passkey::enroll::invite::update::v0_1", .authentication),
    ("auth::passkey::enroll::invite::revoke::v0_1", .authentication),
    ("auth::passkey::list::v0_1", .authentication),
    ("auth::passkey::admin_list::v0_1", .authentication),
    ("auth::passkey::revoke::start::v0_2", .authentication),
    ("auth::passkey::revoke::finish::v0_2", .authentication),
    ("auth::oob::request::v0_1", .boundKey keyPurposes),
    ("auth::oob::claim::v0_1", .boundKey keyPurposes),
    ("auth::oob::prove::v0_1", .boundKey keyPurposes),
    ("auth::oob::respond::v0_1", .boundKey keyPurposes),
    ("auth::oob::redeem::v0_1", .boundKey keyPurposes),
    ("auth::oob::cancel::v0_1", .boundKey keyPurposes) ]
where
  /-- `KEY_PURPOSES`. -/
  keyPurposes : List String := ["authentication", "assertionMethod"]

/-- The payloads `build_auth_dispatcher` registers. -/
def authRows : List String :=
  ["auth::challenge", "auth::authenticate_v2", "auth::authenticate", "auth::refresh_v1",
    "auth::refresh"]

/-- `trust_tasks_auth::owns`. -/
def authOwns (L : TaskLibs) (typeUri : String) : Bool :=
  (authRows.map L.typeUri).contains typeUri

def msgSyncUpdateAck : String :=
  "https://trusttasks.org/spec/webvh/sync/update/0.2#response"

def msgSyncDeleteAck : String :=
  "https://trusttasks.org/spec/webvh/sync/delete/0.2#response"

def msgSyncBatchAck : String :=
  "https://trusttasks.org/spec/webvh/sync/batch/0.1#response"

/-- The acknowledgements of syncs, all that is taken from a watcher. -/
def isSyncAck (typeUri : String) : Bool :=
  [msgSyncUpdateAck, msgSyncDeleteAck, msgSyncBatchAck].contains typeUri

/-- `trust_tasks_infra::owns`. -/
def infraOwns (typeUri : String) : Bool :=
  [ "https://trusttasks.org/spec/did-management/server/register/0.1",
    "https://trusttasks.org/spec/did-management/server/health/0.1#response",
    "https://trusttasks.org/spec/did-management/server/stats-sync/0.1",
    msgSyncUpdateAck, msgSyncBatchAck, msgSyncDeleteAck,
    "https://trusttasks.org/spec/did-management/replica/domain/assign/0.1#response",
    "https://trusttasks.org/spec/did-management/replica/domain/unassign/0.1#response",
    "https://trusttasks.org/spec/did-management/replica/domain/purge/0.1#response",
    "https://trusttasks.org/spec/did-management/replica/domain/upsert/0.1#response"
  ].contains typeUri

/-- `control_tasks::proof_rule`: the rule of the table's row. -/
def tableRule (L : TaskLibs) (typeUri : String) : Option ProofRule :=
  (taskRows.find? fun row => L.typeUri row.1 = typeUri).map Prod.snd

def proofRule (L : TaskLibs) (typeUri : String) : ProofRule :=
  match tableRule L typeUri with
  | some rule => rule
  | none =>
      if typeUri = L.typeUri "trust_task_discovery::v0_1" || authOwns L typeUri then .optional
      else .authentication

def sessionKeyMaySign (L : TaskLibs) (typeUri : String) : Bool :=
  proofRule L typeUri = .authentication && !authOwns L typeUri

/-! ## The router -/

/-- The configuration the router reads. -/
structure GateConfig where
  serverDid : Option String
  watchers : List String
deriving DecidableEq, Repr

def GateConfig.isConfiguredWatcher (cfg : GateConfig) (did : String) : Bool :=
  cfg.watchers.contains did

/-- The four dispatchers behind the gate. -/
inductive Dispatcher where
  | auth
  | infra
  | control
  | framework
deriving DecidableEq, Repr

/-- What the router does with a document. -/
inductive Routed where
  /-- An error of a peer: nothing is answered.  A signed, final refusal settles
  the outbox entry it answers for its signer. -/
  | terminal (settles : Option String)
  | refused (reason : RejectReason)
  /-- A refusal in the shape of a bound-key row's family; `none` when the row did
  not let the document in. -/
  | sealed (e : Option BoundKeyError)
  | handed (dispatcher : Dispatcher) (principal : String)
deriving DecidableEq, Repr

/-- What the router is called with, besides the document. -/
structure RouteCall where
  sender : String
  /-- The admission of a bound-key row, where the document came over HTTPS. -/
  admitBound : Option Bool
  verifier : Verifier
  /-- The access control list when it is read. -/
  acl : Table String AclEntry
  /-- The clock when the proof is verified. -/
  verifiedAt : ℕ
  /-- The clock when the replay cache is asked. -/
  checkedAt : ℕ

section

variable (L : TaskLibs) (cfg : GateConfig) (call : RouteCall) (doc : TrustTask)

/-- The document is somebody's account of a failure. -/
def isError : Bool :=
  startsWith L.errorPrefix doc.typeUri

/-- The settlement of an inbound error: the signer whose outbox entry it ends. -/
def settledBy (myVid : String) : Option String :=
  let retry := ((doc.payload.get "retryable").bind Json.asBool).getD false
  let known := cfg.isConfiguredWatcher call.sender || (call.acl.lookup call.sender).isSome
  if doc.proof.isSome && !retry && known then
    (verifySenderBound L doc none (some call.sender) myVid call.verifier
      call.verifiedAt).toOption
  else
    none

/-- A bound-key row is served over HTTPS, to what its family admits. -/
def checkBoundAdmission (rule : ProofRule) : Except Routed Unit :=
  match rule, call.admitBound with
  | .boundKey _, none =>
      .error (.refused (.permissionDenied "this task is served over HTTPS only"))
  | .boundKey _, some false => .error (.sealed none)
  | _, _ => .ok ()

/-- A session ceremony is signed by a did:key. -/
def checkSessionKey (rule : ProofRule) : Except Routed Unit :=
  if rule = .sessionKey &&
      doc.proof.any fun p => !startsWith "did:key:" p.verificationMethod then
    .error (.refused (.permissionDenied
      "this ceremony must be signed by the did:key its session will be bound to"))
  else
    .ok ()

def watcherAck : Bool :=
  isSyncAck doc.typeUri && cfg.isConfiguredWatcher call.sender

/-- The rules that ask for an entry of the sender in the access control list. -/
def needsAcl (rule : ProofRule) : Bool :=
  rule = .authentication || rule = .assertionMethod

/-- The pre-filter on the access control list. -/
def checkAclEntry (rule : ProofRule) : Except Routed Unit :=
  if needsAcl rule && !watcherAck cfg call doc && (call.acl.lookup call.sender).isNone then
    .error (.refused (.permissionDenied "caller is not present in the maintainer's ACL"))
  else
    .ok ()

/-- The document's proof is required, or there is one. -/
def isSigned (rule : ProofRule) : Bool :=
  rule ≠ .optional || doc.proof.isSome

/-- The identity everything behind the gate authorises on: the proven signer, or
the reported sender of a document that needs no proof and has none. -/
def principalOf (myVid : String) (rule : ProofRule) : Except Routed String :=
  if isSigned doc rule then
    match rule with
    | .assertionMethod =>
        (verifySenderBoundApproval L doc (some call.sender) myVid call.verifier
          call.verifiedAt).mapError fun e => .refused (e.rejectReason L)
    | .boundKey purposes =>
        (verifyBoundKey L doc purposes).mapError fun e => .sealed (some e)
    | _ =>
        (verifySenderBound L doc none (some call.sender) myVid call.verifier
          call.verifiedAt).mapError fun e => .refused (e.rejectReason L)
  else
    .ok call.sender

/-- The checks before the replay cache is asked. -/
def admitDocument (myVid : String) (rule : ProofRule) : Except Routed String := do
  checkBoundAdmission call rule
  checkSessionKey doc rule
  checkAclEntry cfg call doc rule
  principalOf L call doc myVid rule

/-- Where an admitted document goes. -/
def dispatcherOf : Dispatcher :=
  if authOwns L doc.typeUri then .auth
  else if infraOwns doc.typeUri then .infra
  else if (tableRule L doc.typeUri).isSome then .control
  else .framework

/-- The answer to what the replay cache refuses. -/
def replayReason : ReplayError → RejectReason
  | .duplicate => .idConflict
  | .full => .unavailable

/-- The end of `route_trust_task_doc`: a document the gate has a proof of is handed
on unless it is a replay. -/
def handOn (rule : ProofRule) (principal : String) (cache : ReplayCache) :
    Option (Except String Routed × ReplayCache) :=
  if isSigned doc rule && rule.usesSharedReplayCache then
    (cache.checkAt principal doc.id (nowEpoch call.checkedAt)).map fun
      | (.error e, cache) => (.ok (.refused (replayReason e)), cache)
      | (.ok (), cache) => (.ok (.handed (dispatcherOf L doc) principal), cache)
  else
    some (.ok (.handed (dispatcherOf L doc) principal), cache)

/-- `route_trust_task_doc`.  There is no result where the replay cache has none;
without a configured DID the call fails. -/
def routeTrustTaskDoc (cache : ReplayCache) : Option (Except String Routed × ReplayCache) :=
  match cfg.serverDid with
  | none => some (.error "server_did not configured", cache)
  | some myVid =>
      if isError L doc then some (.ok (.terminal (settledBy L cfg call doc myVid)), cache)
      else
        match admitDocument L cfg call doc myVid (proofRule L doc.typeUri) with
        | .error routed => some (.ok routed, cache)
        | .ok principal => handOn L call doc (proofRule L doc.typeUri) principal cache

end

/-! ## The transports -/

/-- The bearer session of an HTTPS request: its subject and the key bound to it. -/
structure BearerSession where
  did : String
  sessionPubkeyB58btc : Option String
deriving DecidableEq, Repr

/-- The binding a document came in on, with the sender a messaging layer reports
or the session of the request. -/
inductive Binding where
  | didcomm (senderDid : String)
  | tsp (senderVid : String)
  | https (session : Option BearerSession) (admitBound : Bool)
deriving DecidableEq, Repr

/-- A document that came in. -/
structure Arrival where
  binding : Binding
  doc : TrustTask
  keys : Resolution
  acl : Table String AclEntry
  verifiedAt : ℕ
  checkedAt : ℕ
  /-- The answer of the size and rate checks the transport makes. -/
  sizeAllowed : Bool
  /-- Whether `control_signing_secret` has a key. -/
  canSign : Bool

/-- What becomes of an arrival. -/
inductive Answer where
  /-- Refused before the router saw the document. -/
  | refused (reason : RejectReason)
  | routed (r : Routed)
  | failed (msg : String)
deriving DecidableEq, Repr

section

variable (L : TaskLibs) (cfg : GateConfig)

/-- The session an arrival takes part in: none where the task admits no bearer. -/
def Arrival.session (d : Arrival) : Option BearerSession :=
  match d.binding with
  | .https session _ =>
      session.filter fun _ => (proofRule L d.doc.typeUri).admitsBearer
  | _ => none

/-- The verification method of the session's key, for a task it may sign. -/
def sessionKeyVm (session : Option BearerSession) (typeUri : String) : Option String :=
  ((session.bind BearerSession.sessionPubkeyB58btc).filter fun _ =>
    sessionKeyMaySign L typeUri).map fun pk => s!"did:key:{pk}#{pk}"

/-- The delegate of the verifier of an HTTPS request. -/
def sessionDelegate (session : Option BearerSession) (typeUri : String) :
    Option SessionDelegate :=
  match session, sessionKeyVm L session typeUri with
  | some auth, some vm => some ⟨auth.did, vm⟩
  | _, _ => none

/-- The proof of a request with a session is made with a key of the session's
subject or with the session's key. -/
def boundToSession (session : Option BearerSession) (doc : TrustTask) : Bool :=
  match session, doc.proof with
  | some auth, some proof =>
      controllerDid proof.verificationMethod = auth.did ||
        sessionKeyVm L session doc.typeUri = some proof.verificationMethod
  | _, _ => true

/-- The sender a transport reports: the peer of the messaging layer, the subject
of the session, or the issuer the document names. -/
def Arrival.sender (d : Arrival) : String :=
  match d.binding with
  | .didcomm senderDid => before '#' senderDid
  | .tsp senderVid => senderVid
  | .https _ _ =>
      match d.session L with
      | some auth => auth.did
      | none => d.doc.issuer.getD ""

/-- The call of the router a transport makes. -/
def Arrival.call (d : Arrival) : RouteCall where
  sender := d.sender L
  admitBound :=
    match d.binding with
    | .https _ admitted => some admitted
    | _ => none
  verifier := ⟨d.keys, sessionDelegate L (d.session L) d.doc.typeUri⟩
  acl := d.acl
  verifiedAt := d.verifiedAt
  checkedAt := d.checkedAt

/-- What the transports and `dispatch_trust_task_doc` check before they route. -/
def Arrival.precheck (d : Arrival) : Except RejectReason Unit :=
  if !d.sizeAllowed then .error (.malformedRequest "document too large")
  else if !boundToSession L (d.session L) d.doc then
    .error (.proofInvalid "proof verificationMethod is not bound to this session")
  else if !d.canSign then .error (.internalError "this service cannot sign its replies")
  else .ok ()

/-- An arrival, from the transport to the dispatcher. -/
def Arrival.arrive (d : Arrival) (cache : ReplayCache) : Option (Answer × ReplayCache) :=
  match d.precheck L with
  | .error reason => some (.refused reason, cache)
  | .ok () =>
      (routeTrustTaskDoc L cfg (d.call L) d.doc cache).map fun
        | (.ok r, cache) => (.routed r, cache)
        | (.error msg, cache) => (.failed msg, cache)

end

/-- The replay cache and what became of each arrival, oldest first. -/
structure GateRun where
  cache : ReplayCache
  log : List (Arrival × Answer)

namespace GateRun

/-- A service that has just started. -/
def initial : GateRun := ⟨.new, []⟩

def step (L : TaskLibs) (cfg : GateConfig) (g : GateRun) (d : Arrival) : Option GateRun :=
  (d.arrive L cfg g.cache).map fun r => ⟨r.2, g.log ++ [(d, r.1)]⟩

/-- Arrivals one after another. -/
def exec (L : TaskLibs) (cfg : GateConfig) (g : GateRun) : List Arrival → Option GateRun
  | [] => some g
  | d :: arrivals => (g.step L cfg d).bind (exec L cfg · arrivals)

theorem exec_arrivals {L : TaskLibs} {cfg : GateConfig} {arrivals : List Arrival}
    {g g' : GateRun} (h : g.exec L cfg arrivals = some g') :
    g'.log.map Prod.fst = g.log.map Prod.fst ++ arrivals := by
  induction arrivals generalizing g with
  | nil =>
      cases h
      exact (List.append_nil _).symm
  | cons d arrivals ih =>
      obtain ⟨g₁, hstep, hexec⟩ := Option.bind_eq_some_iff.mp h
      obtain ⟨r, -, rfl⟩ := Option.map_eq_some_iff.mp hstep
      rw [ih hexec, List.map_append, List.append_assoc]
      rfl

end GateRun

/-! ## What was proven before a document is handed on -/

section

variable {L : TaskLibs} {cfg : GateConfig}

/-- The rule of an arrival's task. -/
def Arrival.rule (L : TaskLibs) (d : Arrival) : ProofRule :=
  proofRule L d.doc.typeUri

/-- The rules of tasks that need a proof of a party the service knows. -/
def ProofRule.privileged (rule : ProofRule) : Prop :=
  rule = .authentication ∨ rule = .assertionMethod ∨ rule = .sessionKey

/-- The key of a proof is bound to the bearer session of the issuer. -/
def Arrival.BySessionKey (L : TaskLibs) (d : Arrival) (issuer : String) (proof : TaskProof) :
    Prop :=
  ∃ session pk, d.session L = some session ∧ session.did = issuer ∧
    session.sessionPubkeyB58btc = some pk ∧ proof.verificationMethod = s!"did:key:{pk}#{pk}"

/-- What a privileged document has shown when it is handed on. -/
structure Authorised (L : TaskLibs) (cfg : GateConfig) (d : Arrival) (issuer : String) :
    Prop where
  issued : d.doc.issuer = some issuer
  sender : controllerDid (d.sender L) = issuer
  addressed : ∃ vid, cfg.serverDid = some vid ∧ d.doc.recipient = some vid
  fresh : ∃ issuedAt, d.doc.issuedAt = some issuedAt ∧ freshDocument d.verifiedAt issuedAt
  unexpired : ∀ e, d.doc.expiresAt = some e → (d.verifiedAt : ℤ) < e
  proven : ∃ proof, d.doc.proof = some proof ∧
    proof.proofPurpose = (d.rule L).purpose.name ∧
    d.keys.Verifies d.doc (d.rule L).purpose ∧
    (controllerDid proof.verificationMethod = issuer ∨
      d.rule L ≠ .assertionMethod ∧ d.BySessionKey L issuer proof)
  known : d.rule L = .sessionKey ∨ (d.acl.lookup (d.sender L)).isSome = true ∨
    isSyncAck d.doc.typeUri = true ∧ cfg.isConfiguredWatcher (d.sender L) = true

theorem sessionDelegate_spec {d : Arrival} {proof : TaskProof} {issuer : String}
    (h : delegates (sessionDelegate L (d.session L) d.doc.typeUri) proof.verificationMethod
      issuer = true) : d.BySessionKey L issuer proof := by
  unfold delegates sessionDelegate sessionKeyVm at h
  cases hsession : d.session L with
  | none =>
      rw [hsession] at h
      cases h
  | some session =>
      rw [hsession] at h
      cases hkey : session.sessionPubkeyB58btc with
      | none =>
          rw [Option.bind_some, hkey] at h
          cases h
      | some pk =>
          rw [Option.bind_some, hkey] at h
          by_cases hmay : sessionKeyMaySign L d.doc.typeUri = true
          · rw [Option.filter_some, if_pos hmay] at h
            simp only [Option.map_some, Option.any_some, Bool.and_eq_true,
              decide_eq_true_eq] at h
            exact ⟨session, pk, hsession, h.2, hkey, h.1.symm⟩
          · rw [Option.filter_some, if_neg hmay] at h
            cases h

/-- What a sender-bound arrival has shown, in the terms of its session. -/
theorem SenderBound.authorised {d : Arrival} {vid issuer : String}
    (hserver : cfg.serverDid = some vid)
    (h : SenderBound (d.call L).verifier d.doc (d.rule L).purpose (some (d.sender L)) vid
      d.verifiedAt issuer)
    (hknown : d.rule L = .sessionKey ∨ (d.acl.lookup (d.sender L)).isSome = true ∨
      isSyncAck d.doc.typeUri = true ∧ cfg.isConfiguredWatcher (d.sender L) = true) :
    Authorised L cfg d issuer := by
  obtain ⟨proof, hproven⟩ := h.proven
  refine
    { issued := hproven.issued
      sender := h.sender _ rfl
      addressed := ⟨vid, hserver, h.addressed⟩
      fresh := h.fresh
      unexpired := h.unexpired
      proven := ⟨proof, hproven.carried, hproven.declared, hproven.verified, ?_⟩
      known := hknown }
  rcases hproven.key with hkey | ⟨hpurpose, hdelegate⟩
  · exact Or.inl hkey
  · refine Or.inr ⟨?_, sessionDelegate_spec hdelegate⟩
    intro hrule
    rw [hrule] at hpurpose
    cases hpurpose

/-- The pre-filter lets a sender through that has an entry, or a watcher's
acknowledgement. -/
theorem checkAclEntry_spec {call : RouteCall} {doc : TrustTask} {rule : ProofRule}
    (h : checkAclEntry cfg call doc rule = .ok ()) (hneeds : needsAcl rule = true) :
    (call.acl.lookup call.sender).isSome = true ∨
      isSyncAck doc.typeUri = true ∧ cfg.isConfiguredWatcher call.sender = true := by
  unfold checkAclEntry at h
  split at h
  · cases h
  · rename_i hpass
    by_cases hwatcher : watcherAck cfg call doc = true
    · right
      unfold watcherAck at hwatcher
      simpa using hwatcher
    · left
      simp only [Bool.and_eq_true, Bool.not_eq_true', not_and, hneeds] at hpass
      have hfalse : watcherAck cfg call doc = false := by simpa using hwatcher
      have hsome := hpass ⟨trivial, hfalse⟩
      simpa [Option.isNone_iff_eq_none, Option.isSome_iff_ne_none] using hsome

/-- A signed document outside the bound-key rows is admitted for a sender-bound
principal. -/
theorem principalOf_spec {call : RouteCall} {doc : TrustTask} {vid principal : String}
    {rule : ProofRule} (h : principalOf L call doc vid rule = .ok principal)
    (hsigned : isSigned doc rule = true) (hshared : rule.usesSharedReplayCache = true) :
    SenderBound call.verifier doc rule.purpose (some call.sender) vid call.verifiedAt
      principal := by
  unfold principalOf at h
  rw [if_pos hsigned] at h
  cases rule with
  | boundKey purposes => cases hshared
  | optional => exact verifyBound_spec (mapError_eq_ok h)
  | authentication => exact verifyBound_spec (mapError_eq_ok h)
  | assertionMethod => exact verifyBound_spec (mapError_eq_ok h)
  | sessionKey => exact verifyBound_spec (mapError_eq_ok h)

theorem admit_spec {call : RouteCall} {doc : TrustTask} {vid principal : String}
    {rule : ProofRule} (h : admitDocument L cfg call doc vid rule = .ok principal) :
    checkAclEntry cfg call doc rule = .ok () ∧
      principalOf L call doc vid rule = .ok principal := by
  unfold admitDocument at h
  obtain ⟨⟨⟩, -, h₁⟩ := bind_eq_ok h
  obtain ⟨⟨⟩, -, h₂⟩ := bind_eq_ok h₁
  obtain ⟨⟨⟩, hacl, h₃⟩ := bind_eq_ok h₂
  exact ⟨hacl, h₃⟩

/-- A document that is not admitted is refused. -/
structure Refuses (r : Routed) : Prop where
  not_handed : ∀ dispatcher principal, r ≠ .handed dispatcher principal
  not_terminal : ∀ settles, r ≠ .terminal settles

theorem refuses_refused (reason : RejectReason) : Refuses (.refused reason) :=
  ⟨nofun, nofun⟩

theorem refuses_sealed (e : Option BoundKeyError) : Refuses (.sealed e) :=
  ⟨nofun, nofun⟩

theorem principalOf_refuses {call : RouteCall} {doc : TrustTask} {vid : String}
    {rule : ProofRule} {r : Routed} (h : principalOf L call doc vid rule = .error r) :
    Refuses r := by
  have hmapped : ∀ {ε : Type} {f : ε → Routed} {x : Except ε String},
      (∀ e, Refuses (f e)) → x.mapError f = .error r → Refuses r := by
    intro ε f x hf hx
    cases x with
    | error e =>
        cases hx
        exact hf e
    | ok a => cases hx
  unfold principalOf at h
  split at h
  · split at h
    · exact hmapped (fun e => refuses_refused _) h
    · exact hmapped (fun e => refuses_sealed _) h
    · exact hmapped (fun e => refuses_refused _) h
  · cases h

theorem admit_refuses {call : RouteCall} {doc : TrustTask} {vid : String}
    {rule : ProofRule} {r : Routed} (h : admitDocument L cfg call doc vid rule = .error r) :
    Refuses r := by
  unfold admitDocument at h
  rcases bind_eq_error h with hadmission | ⟨-, -, h₁⟩
  · unfold checkBoundAdmission at hadmission
    split at hadmission <;> cases hadmission
    · exact refuses_refused _
    · exact refuses_sealed _
  · rcases bind_eq_error h₁ with hkey | ⟨-, -, h₂⟩
    · unfold checkSessionKey at hkey
      split at hkey <;> cases hkey
      exact refuses_refused _
    · rcases bind_eq_error h₂ with hacl | ⟨-, -, hprincipal⟩
      · unfold checkAclEntry at hacl
        split at hacl <;> cases hacl
        exact refuses_refused _
      · exact principalOf_refuses hprincipal

theorem admit_authorised {d : Arrival} {vid principal : String}
    (hserver : cfg.serverDid = some vid)
    (h : admitDocument L cfg (d.call L) d.doc vid (d.rule L) = .ok principal)
    (hprivileged : (d.rule L).privileged) : Authorised L cfg d principal := by
  obtain ⟨hacl, hprincipal⟩ := admit_spec h
  have hsigned : isSigned d.doc (d.rule L) = true := by
    rcases hprivileged with hrule | hrule | hrule <;> rw [hrule] <;> rfl
  have hshared : (d.rule L).usesSharedReplayCache = true := by
    rcases hprivileged with hrule | hrule | hrule <;> rw [hrule] <;> rfl
  refine SenderBound.authorised hserver (principalOf_spec hprincipal hsigned hshared) ?_
  rcases hprivileged with hrule | hrule | hrule
  · exact Or.inr (checkAclEntry_spec hacl (by rw [hrule]; rfl))
  · exact Or.inr (checkAclEntry_spec hacl (by rw [hrule]; rfl))
  · exact Or.inl hrule

end

/-! ## Runs -/

section

variable {L : TaskLibs} {cfg : GateConfig}

/-- The gate has a proof of the document and asks the replay cache. -/
def Arrival.replayChecked (L : TaskLibs) (d : Arrival) : Bool :=
  isSigned d.doc (d.rule L) && (d.rule L).usesSharedReplayCache

/-- The entry of the log is a document handed to a dispatcher. -/
def HandedTo (entry : Arrival × Answer) (principal : String) : Prop :=
  ∃ dispatcher, entry.2 = .routed (.handed dispatcher principal)

/-- The check of the replay cache an entry of the log stands for. -/
def replayCheckOf (L : TaskLibs) : Arrival × Answer → Option ReplayCheck
  | (d, .routed (.handed _ principal)) =>
      if d.replayChecked L then some ⟨d.checkedAt, principal, d.doc.id⟩ else none
  | _ => none

theorem replayCheckOf_handed {entry : Arrival × Answer} {principal : String}
    (h : HandedTo entry principal) (hchecked : entry.1.replayChecked L = true) :
    replayCheckOf L entry = some ⟨entry.1.checkedAt, principal, entry.1.doc.id⟩ := by
  obtain ⟨d, answer⟩ := entry
  obtain ⟨dispatcher, rfl⟩ := h
  exact if_pos hchecked

/-- What holds of one entry of the log. -/
structure EntryInv (L : TaskLibs) (cfg : GateConfig) (entry : Arrival × Answer) : Prop where
  authorised : ∀ principal, HandedTo entry principal → (entry.1.rule L).privileged →
    Authorised L cfg entry.1 principal
  issued : ∀ principal, HandedTo entry principal → entry.1.replayChecked L = true →
    entry.1.doc.issuer = some principal
  terminal : ∀ r, entry.2 = .routed r → isError L entry.1.doc = true →
    ∃ settles, r = .terminal settles

theorem entryInv_unhanded {d : Arrival} {answer : Answer}
    (hnot : ∀ dispatcher principal, answer ≠ .routed (.handed dispatcher principal))
    (hterminal : ∀ r, answer = .routed r → isError L d.doc = true →
      ∃ settles, r = .terminal settles) : EntryInv L cfg (d, answer) where
  authorised := fun _ ⟨dispatcher, h⟩ => absurd h (hnot dispatcher _)
  issued := fun _ ⟨dispatcher, h⟩ => absurd h (hnot dispatcher _)
  terminal := hterminal

/-- An entry that asks nothing of the replay cache. -/
theorem replayCheckOf_unhanded {d : Arrival} {answer : Answer}
    (hnot : ∀ dispatcher principal, answer ≠ .routed (.handed dispatcher principal)) :
    replayCheckOf L (d, answer) = none := by
  unfold replayCheckOf
  split
  · rename_i heq
    cases heq
    exact absurd rfl (hnot _ _)
  · rfl

/-- The cache after an arrival, as a run of replay checks that accepts one more
if the entry stands for one. -/
structure ReplayedBy (L : TaskLibs) (now : ℕ) (cache' : ReplayCache)
    (accepted : List ReplayCheck) (entry : Arrival × Answer) : Prop where
  replayed : ∃ clock ≤ now, ReplayRun.Inv clock
    ⟨cache', accepted ++ (replayCheckOf L entry).toList⟩

theorem route_of_admitted {call : RouteCall} {doc : TrustTask} {cache : ReplayCache}
    {vid principal : String} (hserver : cfg.serverDid = some vid)
    (herror : isError L doc = false)
    (hadmitted : admitDocument L cfg call doc vid (proofRule L doc.typeUri) = .ok principal) :
    routeTrustTaskDoc L cfg call doc cache =
      handOn L call doc (proofRule L doc.typeUri) principal cache := by
  have hnot : ¬ isError L doc = true := by
    rw [herror]
    exact Bool.false_ne_true
  unfold routeTrustTaskDoc
  rw [hserver]
  simp only
  rw [if_neg hnot, hadmitted]

theorem route_of_refusal {call : RouteCall} {doc : TrustTask} {cache : ReplayCache}
    {vid : String} {r : Routed} (hserver : cfg.serverDid = some vid)
    (herror : isError L doc = false)
    (hadmitted : admitDocument L cfg call doc vid (proofRule L doc.typeUri) = .error r) :
    routeTrustTaskDoc L cfg call doc cache = some (.ok r, cache) := by
  have hnot : ¬ isError L doc = true := by
    rw [herror]
    exact Bool.false_ne_true
  unfold routeTrustTaskDoc
  rw [hserver]
  simp only
  rw [if_neg hnot, hadmitted]

/-- A document the gate has a proof of, as a step of the replay cache. -/
theorem handOn_step {cache : ReplayCache} {accepted : List ReplayCheck} {clock : ℕ}
    {d : Arrival} {principal : String} (hchecked : d.replayChecked L = true)
    (hinv : ReplayRun.Inv clock ⟨cache, accepted⟩) (hclock : clock ≤ d.checkedAt) :
    ∃ cache', (∃ reason, handOn L (d.call L) d.doc (d.rule L) principal cache =
          some (.ok (.refused reason), cache') ∧
        ReplayRun.Inv d.checkedAt ⟨cache', accepted⟩) ∨
      handOn L (d.call L) d.doc (d.rule L) principal cache =
          some (.ok (.handed (dispatcherOf L d.doc) principal), cache') ∧
        ReplayRun.Inv d.checkedAt
          ⟨cache', accepted ++ [⟨d.checkedAt, principal, d.doc.id⟩]⟩ := by
  obtain ⟨r', hstep, hinv'⟩ :=
    ReplayRun.step_inv hinv (k := ⟨d.checkedAt, principal, d.doc.id⟩) hclock
  obtain ⟨⟨result, cache'⟩, hcheck, hresult⟩ := Option.map_eq_some_iff.mp hstep
  have hask : handOn L (d.call L) d.doc (d.rule L) principal cache =
      (some (result, cache')).map fun
        | (.error e, cache) => (.ok (.refused (replayReason e)), cache)
        | (.ok (), cache) => (.ok (.handed (dispatcherOf L d.doc) principal), cache) := by
    unfold handOn
    rw [← hcheck]
    exact if_pos hchecked
  refine ⟨cache', ?_⟩
  rw [hask]
  cases result with
  | error e =>
      cases hresult
      exact Or.inl ⟨_, rfl, hinv'⟩
  | ok u =>
      cases hresult
      exact Or.inr ⟨rfl, hinv'⟩

/-- An admitted document is handed on, unless the replay cache refuses it. -/
theorem route_admitted {cache : ReplayCache} {accepted : List ReplayCheck} {clock : ℕ}
    {d : Arrival} {vid principal : String} (hserver : cfg.serverDid = some vid)
    (herror : isError L d.doc = false)
    (hadmitted : admitDocument L cfg (d.call L) d.doc vid (d.rule L) = .ok principal)
    (hinv : ReplayRun.Inv clock ⟨cache, accepted⟩) (hclock : clock ≤ d.checkedAt) :
    ∃ r cache', routeTrustTaskDoc L cfg (d.call L) d.doc cache = some (.ok r, cache') ∧
      EntryInv L cfg (d, .routed r) ∧
      ReplayedBy L d.checkedAt cache' accepted (d, .routed r) := by
  have hnoterror : ∀ r, isError L d.doc = true → ∃ settles, r = Routed.terminal settles := by
    intro r hiserror
    rw [herror] at hiserror
    cases hiserror
  have hentry : EntryInv L cfg (d, .routed (.handed (dispatcherOf L d.doc) principal)) := by
    refine ⟨?_, ?_, fun r _ => hnoterror r⟩
    · rintro principal' ⟨dispatcher, ⟨⟩⟩ hprivileged
      exact admit_authorised hserver hadmitted hprivileged
    · rintro principal' ⟨dispatcher, ⟨⟩⟩ hchecked
      obtain ⟨hsigned, hshared⟩ := Bool.and_eq_true_iff.mp hchecked
      obtain ⟨proof, hproven⟩ :=
        (principalOf_spec (admit_spec hadmitted).2 hsigned hshared).proven
      exact hproven.issued
  rw [route_of_admitted hserver herror hadmitted]
  by_cases hchecked : d.replayChecked L = true
  · have hstep := @handOn_step L cache accepted clock d principal hchecked hinv hclock
    obtain ⟨cache', hasked⟩ := hstep
    rcases hasked with ⟨reason, hhand, hinv'⟩ | ⟨hhand, hinv'⟩
    · have hnone : replayCheckOf L (d, .routed (.refused reason)) = none := rfl
      refine ⟨_, cache', hhand, entryInv_unhanded nofun fun r _ => hnoterror r,
        _, Nat.le_refl _, ?_⟩
      rw [hnone, Option.toList_none, List.append_nil]
      exact hinv'
    · have hsome : replayCheckOf L (d, .routed (.handed (dispatcherOf L d.doc) principal)) =
          some ⟨d.checkedAt, principal, d.doc.id⟩ := if_pos hchecked
      refine ⟨_, cache', hhand, hentry, _, Nat.le_refl _, ?_⟩
      rw [hsome]
      exact hinv'
  · have hhand : handOn L (d.call L) d.doc (d.rule L) principal cache =
        some (.ok (.handed (dispatcherOf L d.doc) principal), cache) :=
      if_neg hchecked
    refine ⟨_, cache, hhand, hentry, clock, hclock, ?_⟩
    have hnone : replayCheckOf L (d, .routed (.handed (dispatcherOf L d.doc) principal)) =
        none := if_neg hchecked
    rw [hnone, Option.toList_none, List.append_nil]
    exact hinv

theorem arrive_spec {cache : ReplayCache} {accepted : List ReplayCheck} {clock : ℕ}
    (d : Arrival) (hinv : ReplayRun.Inv clock ⟨cache, accepted⟩)
    (hclock : clock ≤ d.checkedAt) :
    ∃ answer cache', d.arrive L cfg cache = some (answer, cache') ∧
      EntryInv L cfg (d, answer) ∧ ReplayedBy L d.checkedAt cache' accepted (d, answer) := by
  -- an arrival that goes no further than its checks leaves the cache as it is
  have hidle : ∀ answer : Answer,
      (∀ dispatcher principal, answer ≠ .routed (.handed dispatcher principal)) →
        ReplayedBy L d.checkedAt cache accepted (d, answer) := by
    intro answer hnot
    refine ⟨clock, hclock, ?_⟩
    rw [replayCheckOf_unhanded hnot, Option.toList_none, List.append_nil]
    exact hinv
  unfold Arrival.arrive
  cases hpre : d.precheck L with
  | error reason =>
      exact ⟨_, _, rfl, entryInv_unhanded (by simp) (by simp), hidle _ (by simp)⟩
  | ok u =>
      simp only
      cases hserver : cfg.serverDid with
      | none =>
          have hroute : routeTrustTaskDoc L cfg (d.call L) d.doc cache =
              some (.error "server_did not configured", cache) := by
            unfold routeTrustTaskDoc
            rw [hserver]
          rw [hroute]
          exact ⟨_, _, rfl, entryInv_unhanded (by simp) (by simp), hidle _ (by simp)⟩
      | some vid =>
          by_cases herror : isError L d.doc = true
          · have hroute : routeTrustTaskDoc L cfg (d.call L) d.doc cache =
                some (.ok (.terminal (settledBy L cfg (d.call L) d.doc vid)), cache) := by
              unfold routeTrustTaskDoc
              rw [hserver]
              exact if_pos herror
            rw [hroute]
            refine ⟨_, _, rfl, entryInv_unhanded (by simp) ?_, hidle _ (by simp)⟩
            rintro r ⟨⟩ -
            exact ⟨_, rfl⟩
          · have hnot : isError L d.doc = false := by simpa using herror
            cases hadmitted : admitDocument L cfg (d.call L) d.doc vid (d.rule L) with
            | ok principal =>
                obtain ⟨r, cache', hroute, hentry, hreplayed⟩ :=
                  route_admitted hserver hnot hadmitted hinv hclock
                rw [hroute]
                exact ⟨_, _, rfl, hentry, hreplayed⟩
            | error routed =>
                have hrefuses := admit_refuses hadmitted
                rw [route_of_refusal hserver hnot hadmitted]
                have hnothanded : ∀ dispatcher principal,
                    Answer.routed routed ≠ .routed (.handed dispatcher principal) := by
                  intro dispatcher principal heq
                  exact hrefuses.not_handed dispatcher principal (Answer.routed.inj heq)
                refine ⟨_, _, rfl, entryInv_unhanded hnothanded ?_, hidle _ hnothanded⟩
                intro r _ hiserror
                exact absurd hiserror herror

/-- What holds of the log after arrivals up to the reading `clock`. -/
structure GateInv (L : TaskLibs) (cfg : GateConfig) (clock : ℕ) (g : GateRun) : Prop where
  replayed : ReplayRun.Inv clock ⟨g.cache, g.log.filterMap (replayCheckOf L)⟩
  entries : ∀ entry ∈ g.log, EntryInv L cfg entry

theorem gateInv_initial (clock : ℕ) : GateInv L cfg clock GateRun.initial where
  replayed := ReplayRun.inv_initial clock
  entries := fun _ h => absurd h List.not_mem_nil

theorem gateInv_step {clock : ℕ} {g : GateRun} (h : GateInv L cfg clock g) (d : Arrival)
    (hclock : clock ≤ d.checkedAt) :
    ∃ g', g.step L cfg d = some g' ∧ ∃ clock' ≤ d.checkedAt, GateInv L cfg clock' g' := by
  obtain ⟨answer, cache', harrive, hentry, clock', hle, hreplayed⟩ :=
    arrive_spec d h.replayed hclock
  refine ⟨⟨cache', g.log ++ [(d, answer)]⟩, ?_, clock', hle, ?_, ?_⟩
  · unfold GateRun.step
    rw [harrive, Option.map_some]
  · have hlog : (g.log ++ [(d, answer)]).filterMap (replayCheckOf L) =
        g.log.filterMap (replayCheckOf L) ++ (replayCheckOf L (d, answer)).toList := by
      rw [List.filterMap_append]
      congr 1
    rw [hlog]
    exact hreplayed
  · intro entry hmem
    rcases List.mem_append.mp hmem with hold | hnew
    · exact h.entries entry hold
    · rw [List.mem_singleton.mp hnew]
      exact hentry

theorem gateInv_exec {arrivals : List Arrival} {clock : ℕ} {g : GateRun}
    (h : GateInv L cfg clock g) (hfrom : ∀ d ∈ arrivals, clock ≤ d.checkedAt)
    (hclock : arrivals.Pairwise fun a b => a.checkedAt ≤ b.checkedAt) :
    ∃ g' clock', g.exec L cfg arrivals = some g' ∧ GateInv L cfg clock' g' := by
  induction arrivals generalizing clock g with
  | nil => exact ⟨g, clock, rfl, h⟩
  | cons d arrivals ih =>
      obtain ⟨hnext, hrest⟩ := List.pairwise_cons.mp hclock
      obtain ⟨g', hstep, clock', hle, hinv⟩ :=
        gateInv_step h d (hfrom d List.mem_cons_self)
      have hlater : ∀ b ∈ arrivals, clock' ≤ b.checkedAt :=
        fun b hb => Nat.le_trans hle (hnext b hb)
      obtain ⟨g'', clock'', hexec, hinv'⟩ := ih hinv hlater hrest
      refine ⟨g'', clock'', ?_, hinv'⟩
      unfold GateRun.exec
      rw [hstep, Option.bind_some]
      exact hexec

/-- Two handed documents of one signer with one id are further apart than a copy
can be fresh. -/
def ReplayApart (L : TaskLibs) (a b : Arrival × Answer) : Prop :=
  ∀ issuer, HandedTo a issuer → HandedTo b issuer → a.1.replayChecked L = true →
    b.1.replayChecked L = true → a.1.doc.id = b.1.doc.id →
      replayWindowSecs < nowEpoch b.1.checkedAt - nowEpoch a.1.checkedAt

theorem GateInv.apart {clock : ℕ} {g : GateRun} (h : GateInv L cfg clock g) :
    g.log.Pairwise (ReplayApart L) := by
  have hpairs := List.pairwise_filterMap.mp h.replayed.apart
  refine hpairs.imp ?_
  intro a b hab issuer hhanded hhanded' hchecked hchecked' hid
  have ha := replayCheckOf_handed hhanded hchecked
  have hb := replayCheckOf_handed hhanded' hchecked'
  exact hab _ ha _ hb (Prod.ext rfl hid)

end

/-- For every sequence of documents that come in over any transport, under a clock
that does not go back: a privileged document is handed on only if it has shown what its
rule asks for; two documents with one proven issuer and one id are handed on only
further apart than the freshness window; and the router answers no error. -/
theorem nothing_privileged_unproven (L : TaskLibs) (cfg : GateConfig)
    (arrivals : List Arrival)
    (hclock : arrivals.Pairwise fun a b => a.checkedAt ≤ b.checkedAt) :
    ∃ g, GateRun.initial.exec L cfg arrivals = some g ∧
      (∀ entry ∈ g.log, ∀ principal, HandedTo entry principal →
        (entry.1.rule L).privileged → Authorised L cfg entry.1 principal) ∧
      (∀ entry ∈ g.log, ∀ principal, HandedTo entry principal →
        entry.1.replayChecked L = true → entry.1.doc.issuer = some principal) ∧
      g.log.Pairwise (ReplayApart L) ∧
      ∀ entry ∈ g.log, ∀ r, entry.2 = .routed r → isError L entry.1.doc = true →
        ∃ settles, r = .terminal settles := by
  obtain ⟨g, clock, hexec, hinv⟩ := gateInv_exec (gateInv_initial 0)
    (fun _ _ => Nat.zero_le _) hclock
  exact ⟨g, hexec, fun entry hmem => (hinv.entries entry hmem).authorised,
    fun entry hmem => (hinv.entries entry hmem).issued, hinv.apart,
    fun entry hmem => (hinv.entries entry hmem).terminal⟩

/-! ## A sample service -/

namespace Sample

/-- Libraries that know two tasks by name and find every proof parsed. -/
def taskLibs : TaskLibs where
  typeUri path :=
    if path = "did_management::server::info::v0_1" then
      "https://trusttasks.org/spec/did-management/server/info/0.1"
    else if path = "did_management::domain::list::v0_1" then
      "https://trusttasks.org/spec/did-management/domain/list/0.1"
    else
      "https://trusttasks.org/spec/" ++ path
  errorPrefix := "https://trusttasks.org/spec/trust-task-error/"
  multibaseDecode _ := none
  parseDataIntegrityProof _ := .ok ()
  verifyDidKey _ := .ok ()
  integrityText _ := "integrity"
  verificationText _ := "verification"
  instantText _ := "an instant"

def gateConfig : GateConfig := ⟨some "did:web:control", []⟩

/-- A resolver to which every proof is good. -/
def trusting : Resolution := ⟨fun _ _ _ => .ok (), fun _ => false⟩

def acl : Table String AclEntry :=
  AList.insert "did:web:al" ⟨"did:web:al", .owner, none, none, .all⟩ ∅

/-- A document of `did:web:al` with the id `m`. -/
def document (typeUri : String) (proof : Option TaskProof) : TrustTask where
  id := "m"
  threadId := none
  typeUri := typeUri
  issuer := some "did:web:al"
  recipient := some "did:web:control"
  issuedAt := some (1000 * nanosPerSec : ℕ)
  expiresAt := none
  payload := .null
  proof := proof

/-- The document comes in over DIDComm at second `at`. -/
def arrival (doc : TrustTask) (second : ℕ) : Arrival where
  binding := .didcomm "did:web:al#key-1"
  doc := doc
  keys := trusting
  acl := acl
  verifiedAt := second * nanosPerSec
  checkedAt := second * nanosPerSec
  sizeAllowed := true
  canSign := true

/-- A read that needs no proof, and has none. -/
def unsigned : Arrival :=
  arrival (document "https://trusttasks.org/spec/did-management/server/info/0.1" none) 1000

def signed : Arrival :=
  arrival (document "https://trusttasks.org/spec/did-management/domain/list/0.1"
    (some ⟨"did:web:al#key-1", "authentication", "z1"⟩)) 1001

/-- An error whose proof is not by a key of the session it is posted in. -/
def foreignError : Arrival :=
  { arrival (document "https://trusttasks.org/spec/trust-task-error/0.1"
      (some ⟨"did:web:bo#key-1", "authentication", "z1"⟩)) 1002 with
    binding := .https (some ⟨"did:web:al", none⟩) true }

end Sample

theorem GateRun.log_of_answers {L : TaskLibs} {cfg : GateConfig} {arrivals : List Arrival}
    {answers : List Answer} (h : (initial.exec L cfg arrivals).map
      (fun g => g.log.map Prod.snd) = some answers) :
    ∃ g, initial.exec L cfg arrivals = some g ∧ g.log = arrivals.zip answers := by
  obtain ⟨g, hexec, hanswers⟩ := Option.map_eq_some_iff.mp h
  exact ⟨g, hexec, List.zip_of_prod (exec_arrivals hexec) hanswers⟩

namespace Sample

/-- What the service makes of the documents, evaluated. -/
theorem evaluated :
    ((GateRun.initial.exec taskLibs gateConfig [signed]).map (fun g => g.log.map Prod.snd) =
        some [.routed (.handed .control "did:web:al")] ∧
      (GateRun.initial.exec taskLibs gateConfig [unsigned, signed]).map
        (fun g => g.log.map Prod.snd) = some [.routed (.handed .control "did:web:al"),
          .routed (.handed .control "did:web:al")]) ∧
    signed.rule taskLibs = .authentication ∧ isError taskLibs foreignError.doc = true ∧
      foreignError.precheck taskLibs = .error
        (.proofInvalid "proof verificationMethod is not bound to this session") := by
  decide +kernel

end Sample

/-- A signed request that is handed on is authorised. -/
theorem nothing_privileged_unproven_signed :
    ∃ g answer, GateRun.initial.exec Sample.taskLibs Sample.gateConfig [Sample.signed] = some g ∧
      (Sample.signed, answer) ∈ g.log ∧ HandedTo (Sample.signed, answer) "did:web:al" ∧
      Authorised Sample.taskLibs Sample.gateConfig Sample.signed "did:web:al" := by
  obtain ⟨g, hexec, hauthorised, -⟩ :=
    nothing_privileged_unproven Sample.taskLibs Sample.gateConfig [Sample.signed]
      (List.pairwise_singleton _ _)
  obtain ⟨g', hexec', hlog⟩ := GateRun.log_of_answers Sample.evaluated.1.1
  obtain rfl : g = g' := Option.some.inj (hexec.symm.trans hexec')
  have hmem : (Sample.signed, Answer.routed (.handed .control "did:web:al")) ∈ g.log := by
    rw [hlog]
    exact List.mem_singleton_self _
  exact ⟨g, _, hexec, hmem, ⟨_, rfl⟩,
    hauthorised _ hmem _ ⟨_, rfl⟩ (Or.inl Sample.evaluated.2.1)⟩

/-- The replay cache only knows proven documents: an unsigned read and, a second
later, a signed request of one issuer with one id are both handed on.  And an error
that is posted in a session it is not signed for is refused by the transport. -/
theorem handed_id_repeats :
    (∃ (arrivals : List Arrival) (g : GateRun) (a b : Arrival × Answer) (issuer : String),
      GateRun.initial.exec Sample.taskLibs Sample.gateConfig arrivals = some g ∧
      g.log = [a, b] ∧ a.1.checkedAt ≤ b.1.checkedAt ∧ HandedTo a issuer ∧
      HandedTo b issuer ∧ (b.1.rule Sample.taskLibs).privileged ∧
      a.1.doc.issuer = some issuer ∧ b.1.doc.issuer = some issuer ∧
      a.1.doc.id = b.1.doc.id ∧
      nowEpoch b.1.checkedAt - nowEpoch a.1.checkedAt ≤ replayWindowSecs) ∧
    ∃ (d : Arrival) (reason : RejectReason), isError Sample.taskLibs d.doc = true ∧
      d.arrive Sample.taskLibs Sample.gateConfig .new = some (.refused reason, .new) := by
  obtain ⟨⟨-, hanswers⟩, hrule, herror, hpre⟩ := Sample.evaluated
  constructor
  · obtain ⟨g, hexec, hlog⟩ := GateRun.log_of_answers hanswers
    have hclock : Sample.unsigned.checkedAt ≤ Sample.signed.checkedAt :=
      Nat.mul_le_mul_right _ (by decide)
    refine ⟨_, g, _, _, "did:web:al", hexec, hlog, hclock, ⟨_, rfl⟩, ⟨_, rfl⟩, Or.inl hrule,
      rfl, rfl, rfl, ?_⟩
    decide +kernel
  · have hrefused : ∀ {d : Arrival} {reason}, d.precheck Sample.taskLibs = .error reason →
        d.arrive Sample.taskLibs Sample.gateConfig .new = some (.refused reason, .new) := by
      intro d reason h
      rw [Arrival.arrive, h]
    exact ⟨Sample.foreignError, _, herror, hrefused hpre⟩

end DidHosting
