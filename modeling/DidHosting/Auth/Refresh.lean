import DidHosting.Auth.Tasks

/-!
# Refresh

Every refresh goes through the canonical handlers of another library, which work on the
sessions alone.  The arms around them check the key a session is bound to and its absolute
lifetime.
-/

namespace DidHosting

namespace Auth

/-! ## The canonical handlers -/

structure RefreshInput where
  refreshToken : String
  signerDid : Option String
deriving DecidableEq, Repr

/-- The canonical handler, given the access-control list.  It answers with the id of the
session. -/
structure CanonicalHandlers where
  handleRefresh : Table String AclEntry → RefreshInput → SessionM String

section

variable {α : Type}

/-- A session handler whose failure is told as `denied`. -/
def deniedSessions (p : SessionM α) : AuthM α :=
  sessionPart.lift AuthEnv.toSessionEnv Empty.elim
    (fun _ => TaskError.standard "PermissionDenied" "authentication refused") p

def denied : AuthM α := standard "PermissionDenied" "authentication refused"

end

/-! ## Refresh -/

/-- The proof of a document, and whether it verifies. -/
structure DocProof where
  verificationMethod : String
  verifies : Bool
deriving DecidableEq, Repr

/-- A refresh document: its verified issuer, its proof and the token. -/
structure RefreshDoc where
  issuer : Option String
  proof : Option DocProof
  refreshToken : String
deriving DecidableEq, Repr

/-- `verify_session_bound_proof`. -/
def RefreshDoc.provenBy (doc : RefreshDoc) (sessionPubkeyB58btc : Option String) : Bool :=
  sessionPubkeyB58btc.all fun pk =>
    doc.proof.any fun proof => proof.verificationMethod = sessionKeyVm pk && proof.verifies

/-- The session was quiet for longer than `idleTtl`. -/
def Session.isIdle (session : Session) (now idleTtl : ℕ) : Bool :=
  let lastActivity := if session.lastSeen = 0 then session.createdAt else session.lastSeen
  idleTtl < now - lastActivity

/-- The session has reached its absolute lifetime. -/
def Session.lifetimeOver (session : Session) (m : AuthProxyMeta) : Bool :=
  session.refreshExpiresAt.any fun expires => m.absoluteExpiresAt ≤ expires

section

variable (canon : CanonicalHandlers) (cfg : AuthConfig)

/-- `handle_refresh`, on the backend of the service. -/
def backendRefresh (input : RefreshInput) : AuthM String := do
  match cfg.jwtKeys with
  | none => denied
  | some _ =>
      let acl ← .call .get fun s => s.acl
      deniedSessions (canon.handleRefresh acl input)

def refreshV1 (doc : RefreshDoc) : AuthM String := do
  match doc.issuer with
  | none =>
      standard "PermissionDenied"
        ("inbound document has no in-band or transport-derived issuer, so there is " ++
          "no verified identity to authenticate")
  | some signerDid => backendRefresh canon cfg ⟨doc.refreshToken, some signerDid⟩

/-- `refresh_v2_arm`: the checks on the session a token leads to, and whether it has a
bound key. -/
def refreshChecks (doc : RefreshDoc) (sessionId : String) (session : Session) :
    AuthM Bool := do
  let now ← nowEpoch
  if session.isIdle now cfg.adminIdleTimeout then denied
  else if !doc.provenBy session.sessionPubkeyB58btc then
    declared "SESSION_KEY_PROOF_REQUIRED"
      "a session that bound a key must refresh with that key's proof"
  else
    match ← .call .get fun s => s.proxyMeta.lookup sessionId with
    | none => return session.sessionPubkeyB58btc.isSome
    | some m =>
        if session.lifetimeOver m then
          declared "SESSION_LIFETIME_EXCEEDED"
            ("the session has reached its absolute lifetime; re-authenticate via " ++
              "auth/authenticate")
        else return session.sessionPubkeyB58btc.isSome

/-- `refresh_v2_arm`: what is checked before the token is spent. -/
def refreshPeek (doc : RefreshDoc) : AuthM Bool := do
  match ← onSessions (getSessionByRefresh doc.refreshToken) with
  | none => return false
  | some sessionId =>
      match ← onSessions (getSession sessionId) with
      | none => return false
      | some session => refreshChecks cfg doc sessionId session

/-- The session with its refresh deadline at the ceiling. -/
def Session.clamped (session : Session) (m : AuthProxyMeta) : Session :=
  { session with refreshExpiresAt := some m.absoluteExpiresAt }

/-- `refresh_v2_arm`: the deadline of the refreshed session is cut to its lifetime. -/
def refreshClamp (sessionId : String) : AuthM Unit := do
  match ← .call .get fun s => s.proxyMeta.lookup sessionId with
  | none => return
  | some m =>
      match ← onSessions (getSession sessionId) with
      | none => return
      | some session =>
          if session.refreshExpiresAt.any (m.absoluteExpiresAt < ·) then
            onSessions (storeSession (some session) (session.clamped m) .clamped)
          else return

def refreshV2 (doc : RefreshDoc) : AuthM String := do
  let boundKeyVerified ← refreshPeek cfg doc
  let sessionId ← backendRefresh canon cfg
    ⟨doc.refreshToken, if boundKeyVerified then none else doc.issuer⟩
  refreshClamp sessionId
  return sessionId

/-! ## Out-of-band sessions -/

/-- `ApprovedSession`, as far as its session is concerned. -/
structure ApprovedSession where
  subject : String
  sessionKey : String
  notAfter : ℕ
deriving DecidableEq, Repr

def oobAmr : List String := ["did", "oob", "uv"]

/-- `create_session` of the out-of-band sign-in. -/
def oobCreateSession (approved : ApprovedSession) : AuthM TokenResponse := do
  let role ← checkAcl approved.subject
  match cfg.jwtKeys, Text.stripPrefix "did:key:" approved.sessionKey with
  | none, _ => refuseWith (.internal "JWT keys not configured")
  | some _, none => refuseWith (.internal "session key is not a did:key")
  | some jwt, some multikey =>
      let now ← nowEpoch
      let ttl := max (approved.notAfter - now) 1
      let tokens ← onSessions (createAuthenticatedSession jwt approved.subject role
        (min cfg.accessTokenExpiry ttl) (min cfg.refreshTokenExpiry ttl) (some multikey)
        (some (oobAmr, "aal1")))
      let absolute := min approved.notAfter (now + cfg.absoluteSessionLifetime)
      .call (.putMeta tokens.sessionId ⟨none, absolute⟩) fun _ => ()
      return tokens

end

end Auth

end DidHosting
