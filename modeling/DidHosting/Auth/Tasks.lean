import DidHosting.Auth.Store

/-!
# Requests, step-up and passkey login

Every authenticated request reads its session, and may write it back to record that it was
seen.  A step-up raises the assurance level of a session; a passkey login opens one.
-/

namespace DidHosting

namespace Auth

/-! ## Libraries and configuration -/

/-- The content of an approve-request. -/
structure ApproveRequest where
  issuer : String
  recipient : String
  sessionId : String
  challenge : String
  acceptableEvidence : List String
  webauthn : Option Json
  expiresAt : ℕ
deriving Repr

/-- The WebAuthn library, and the signature of the service. -/
structure AuthLibs where
  /-- A public-key credential, as JSON. -/
  readCredential : Json → Except String Json
  /-- `start_passkey_authentication`, with its randomness: the challenge, the options and
  the state. -/
  startAuthentication : String → List Passkey → Except String (String × Json × PasskeyAuthentication)
  /-- `finish_passkey_authentication`. -/
  finishAuthentication : Json → PasskeyAuthentication → Except String AuthenticationResult
  /-- A registration credential, as JSON. -/
  readRegistration : Json → Except String Json
  /-- `start_passkey_registration`: for a user, under a name, without the credentials that
  are excluded. -/
  startRegistration : String → String → String → Option (List String) →
    Except String (Json × PasskeyRegistration)
  /-- `finish_passkey_registration`. -/
  finishRegistration : Json → PasskeyRegistration → Except String Passkey
  /-- `update_credential`: what is kept of a credential after an assertion. -/
  updatedRecord : Passkey → AuthenticationResult → Json
  /-- The signed document of an approve-request. -/
  signRequest : ApproveRequest → Except String Json

structure AuthConfig where
  jwtKeys : Option JwtKeys
  hasWebauthn : Bool
  serverDid : Option String
  accessTokenExpiry : ℕ
  refreshTokenExpiry : ℕ
  absoluteSessionLifetime : ℕ
  adminIdleTimeout : ℕ

/-- `AuthClaims` of a bearer session. -/
structure AuthClaims extends DidHosting.AuthClaims where
  sessionId : String
  sessionPubkeyB58btc : Option String
  amr : List String
  acr : String
deriving DecidableEq, Repr

/-- `Cx`: who signed a request, with which key, and the session it came with. -/
structure Cx where
  caller : Option String
  proofVm : Option String
  bearer : Option AuthClaims
deriving DecidableEq, Repr

def stepUpAcr : String := "aal2"

def ceremonyTtlSecs : ℕ := 300

/-- The verification method of a session key. -/
def sessionKeyVm (pk : String) : String :=
  s!"did:key:{pk}#{pk}"

inductive AuthAnswer where
  | authenticated (claims : AuthClaims)
  | revokedCount (count : ℕ)
  | stepUpStarted (request : Json)
  | recorded
  | elevated (session : Session)
  | loginStarted (authId : String) (options : Json)
  | loggedIn (tokens : TokenResponse)
  | refreshed (sessionId : String)
  | enrolmentStarted (enrollmentId : String)
  | enrolled (purpose : Purpose) (credId subject : String)
  | revocationStarted (revocationId : String)
  | revoked (purpose : Purpose) (credId subject : String) (remaining : ℕ)
  | invite (answer : InviteAnswer)
  | done

section

variable {α : Type}

def nowEpoch : AuthM ℕ := .draw (·.now)

def declared (code msg : String) : AuthM α := .fail (.declared code msg)

def standard (code msg : String) : AuthM α := .fail (.standard code msg)

def refuseWith (e : AuthError) : AuthM α := .fail (.app e)

end

def checkAcl (did : String) : AuthM Role := do
  if 512 < did.utf8ByteSize then refuseWith (.validation "DID exceeds maximum length")
  else
    match ← .call .get fun s => s.acl.lookup did with
    | some entry => return entry.role
    | none => refuseWith (.forbidden s!"DID not in ACL: {did}")

def parseRole (text : String) : Except TaskError Role :=
  if text = "admin" then .ok .admin
  else if text = "owner" then .ok .owner
  else if text = "service" then .ok .service
  else .error (.app (.validation s!"unknown role: {text}"))

def Cx.callerOf (cx : Cx) : AuthM String :=
  match cx.caller with
  | some did => return did
  | none => standard "PermissionDenied" "the request carries no verified issuer"

def Cx.auth (cx : Cx) : AuthM AuthClaims := do
  let did ← cx.callerOf
  match ← (checkAcl did).attempt with
  | .error (_ : TaskError) =>
      standard "PermissionDenied" "caller is not present in the maintainer's ACL"
  | .ok role =>
      match cx.bearer with
      | some bearer =>
          if bearer.did = did then return { bearer with role := role }
          else return ⟨⟨did, role⟩, "", none, ["did"], "aal1"⟩
      | none => return ⟨⟨did, role⟩, "", none, ["did"], "aal1"⟩

/-- The request was signed with a session key. -/
def Cx.signedWith (cx : Cx) (pk : Option String) : Bool :=
  pk.any fun pk => cx.proofVm = some (sessionKeyVm pk)

/-- The credentials of a user after an assertion. -/
def PasskeyUser.updated (L : AuthLibs) (user : PasskeyUser) (result : AuthenticationResult) :
    PasskeyUser :=
  { user with
    credentials := user.credentials.map fun c =>
      if c.credId = result.credId then { c with record := L.updatedRecord c result } else c }

/-- The subject holds a credential of the purpose. -/
def holdsCredential (purpose : Purpose) (did : String) : AuthM Bool := do
  let user ← onCredentials purpose (getPasskeyUserByDid did)
  return user.any fun u => !u.credentials.isEmpty

section

variable (L : AuthLibs) (cfg : AuthConfig)

/-! ## Authenticated requests -/

/-- The token of the claims was replaced. -/
def tokenRevoked (session : Session) (claims : Claims) : Bool :=
  session.tokenId.any fun tokenId => claims.jti = "" || claims.jti ≠ tokenId

/-- The session row is at `aal2`. -/
def Session.isElevated (session : Session) (now : ℕ) : Bool :=
  session.acr = "aal2" && session.acrExpiresAt.all (now < ·)

/-- The assurance level of a request. -/
def effectiveAcr (session : Session) (claims : Claims) (now : ℕ) : AuthM String := do
  if claims.acr = "aal2" && session.isElevated now then
    if session.amr.contains "passkey" then return "aal2"
    else
      let holds ← holdsCredential .stepUp session.did
      return if holds then "aal1" else "aal2"
  else return "aal1"

/-- `AuthClaims::from_request_parts`, with the bearer token of the request. -/
def fromRequestParts (token : Option String) : AuthM AuthClaims := do
  match token, cfg.jwtKeys with
  | none, _ => refuseWith (.unauthorized "missing or invalid Authorization header")
  | some _, none => refuseWith (.unauthorized "auth not configured")
  | some token, some jwt =>
      let claims ← .check ((jwt.decode token).mapError .app)
      match ← onSessions (getSession claims.sessionId) with
      | none => refuseWith (.unauthorized "session not found")
      | some session =>
          if session.state ≠ .authenticated then
            refuseWith (.unauthorized "session not authenticated")
          else if tokenRevoked session claims then
            refuseWith (.unauthorized "token has been revoked")
          else
            let role ← .check (parseRole claims.role)
            let now ← nowEpoch
            let acr ← effectiveAcr session claims now
            let _ ← onSessions (touchLastSeen session now)
            return ⟨⟨claims.sub, role⟩, claims.sessionId, session.sessionPubkeyB58btc,
              session.amr, acr⟩

/-! ## The end of a session -/

structure RevokeSession where
  all : Option Bool
  subject : Option String
  sessionId : Option String
deriving DecidableEq, Repr

/-- The request was signed by the key of a bearer session, about another session. -/
def Cx.byKeyOfOther (cx : Cx) (sessionId : String) : Bool :=
  cx.bearer.any fun b => b.sessionId ≠ sessionId && cx.signedWith b.sessionPubkeyB58btc

def revokeSession (cx : Cx) (p : RevokeSession) : AuthM ℕ := do
  let caller ← cx.callerOf
  if p.all.isSome || p.subject.isSome then
    refuseWith (.validation "this relying party revokes one session, named by sessionId")
  else
    match p.sessionId with
    | none => refuseWith (.validation "sessionId is required")
    | some sessionId =>
        if cx.byKeyOfOther sessionId then return 0
        else
          match ← onSessions (getSession sessionId) with
          | none => return 0
          | some session =>
              if session.did ≠ caller then return 0
              else
                onSessions (deleteSession sessionId)
                .call (.removeMeta sessionId) fun _ => ()
                return 1

/-! ## Step-up -/

structure StepUpStart where
  sessionId : String
  targetAcr : Option String
deriving DecidableEq, Repr

def stepUpStart (cx : Cx) (p : StepUpStart) : AuthM Json := do
  let caller ← cx.callerOf
  match ← onSessions (getSession p.sessionId) with
  | none => declared "SESSION_UNKNOWN" "no live session of yours has that id"
  | some session =>
      if session.state ≠ .authenticated ||
          (session.did ≠ caller && !cx.signedWith session.sessionPubkeyB58btc) then
        declared "SESSION_UNKNOWN" "no live session of yours has that id"
      else
        let target := p.targetAcr.getD stepUpAcr
        if target ≠ stepUpAcr && target ≠ "aal1" then
          refuseWith (.validation s!"this relying party offers step-up to {stepUpAcr} only")
        else if session.acr = stepUpAcr || target = "aal1" then
          declared "NOT_NEEDED" "the session is already at the requested assurance level"
        else
          let now ← nowEpoch
          let expiresAt := now + ceremonyTtlSecs
          let user ← onCredentials .stepUp (getPasskeyUserByDid session.did)
          let creds := (user.map (·.credentials)).getD []
          let nonce ← .draw (·.nonce)
          let gate ← .check
            (if cfg.hasWebauthn && !creds.isEmpty then
              ((L.startAuthentication nonce creds).map some).mapError fun e =>
                .app (.internal s!"webauthn step-up start failed: {e}")
            else .ok none)
          let challenge :=
            match gate with
            | some (challenge, _, _) => challenge
            | none => nonce
          match cfg.serverDid with
          | none => refuseWith (.config "server_did not configured")
          | some myVid =>
              let request : ApproveRequest := {
                issuer := myVid
                recipient := session.did
                sessionId := p.sessionId
                challenge
                acceptableEvidence := if gate.isSome then ["webauthn"] else ["didSigned"]
                webauthn := gate.map (·.2.1)
                expiresAt }
              let signed ← .check ((L.signRequest request).mapError fun e => .app (.internal e))
              .call (.putPending p.sessionId
                ⟨challenge, session.did, expiresAt, gate.map (·.2.2)⟩) fun _ => ()
              return signed

/-- The evidence of an approve-response. -/
inductive ApproveEvidence where
  | webauthn (assertion : Json)
  | didSigned
deriving Repr

inductive Decision where
  | approved
  | denied
  | other
deriving DecidableEq, Repr

structure ApproveResponse where
  sessionId : Option String
  challenge : String
  subject : String
  decision : Decision
  evidence : Option ApproveEvidence
  grantedAcr : Option String
deriving Repr

/-- The evidence is an assertion. -/
def ApproveResponse.isWebauthn (p : ApproveResponse) : Bool :=
  match p.evidence with
  | some (.webauthn _) => true
  | _ => false

/-- `approve_response`: the pending step-up that a response answers, claimed. -/
def claimStepUp (p : ApproveResponse) (sessionId : String) : AuthM PendingStepUp := do
  match ← .call .get fun s => s.pendingStepUps.lookup sessionId with
  | none => declared "CHALLENGE_UNKNOWN" "no pending step-up has that challenge"
  | some peeked =>
      if peeked.challenge ≠ p.challenge then
        declared "CHALLENGE_UNKNOWN" "no pending step-up has that challenge"
      else
        match ← .call (.takePending sessionId) fun s => s.pendingStepUps.lookup sessionId with
        | none => declared "CHALLENGE_UNKNOWN" "no pending step-up has that challenge"
        | some pending =>
            if pending.challenge ≠ p.challenge then
              declared "CHALLENGE_UNKNOWN" "no pending step-up has that challenge"
            else return pending

/-- The assertion a ceremony is answered with. -/
def finishAssertion (assertion : Json) (state : PasskeyAuthentication) (code : String) :
    AuthM AuthenticationResult := do
  let credential ← .check ((L.readCredential assertion).mapError fun e =>
    .declared code s!"unreadable assertion: {e}")
  .check ((L.finishAuthentication credential state).mapError fun _ =>
    .declared code "the assertion did not verify")

/-- `approve_response`: the use of a step-up credential is recorded. -/
def recordStepUpUse (subject : String) (result : AuthenticationResult) : AuthM Unit := do
  let user ← onCredentials .stepUp (getPasskeyUserByCred result.credId)
  match user.filter fun u => u.did = subject with
  | none =>
      declared "ASSERTION_INVALID" "the assertion is not from the subject's step-up passkey"
  | some user => onCredentials .stepUp (storePasskeyUser user (user.updated L result) .used)

/-- `approve_response`: the assertion, in a process. -/
def verifyStepUp (process : ℕ) (pending : PendingStepUp) (assertion : Json) : AuthM Unit := do
  match pending.webauthn with
  | none => declared "NO_GATE" "this step-up was not offered a passkey gate"
  | some state =>
      if !cfg.hasWebauthn then declared "NO_GATE" "passkeys are not configured on this service"
      else
        let result ← finishAssertion L assertion state "ASSERTION_INVALID"
        if !result.userVerified then
          declared "ASSERTION_INVALID" "step-up requires a user-verified passkey assertion"
        else
          .locked (.credentials process .stepUp pending.subject)
            (recordStepUpUse L pending.subject result)

/-- The session after a step-up by `factor`. -/
def Session.steppedUp (session : Session) (factor : String) : Session :=
  { session with
    amr := if session.amr.contains factor then session.amr else session.amr ++ [factor]
    acr := stepUpAcr
    acrExpiresAt := none }

/-- `approve_response`: what follows an approval. -/
def elevate (p : ApproveResponse) (pending : PendingStepUp) (sessionId : String) :
    AuthM Session := do
  if !p.isWebauthn && (← holdsCredential .stepUp pending.subject) then
    declared "NO_GATE" ("the subject has a step-up passkey; only a webauthn assertion " ++
      "from it may grant step-up")
  else
    match p.grantedAcr.filter (· ≠ stepUpAcr) with
    | some granted =>
        declared "ACR_UNSATISFIED"
          s!"the approver granted {granted}; the step-up requires {stepUpAcr}"
    | none =>
        let found ← onSessions (getSession sessionId)
        match found.filter fun s => s.state = .authenticated && s.did = pending.subject with
        | none => declared "CHALLENGE_UNKNOWN" "the session has ended"
        | some session =>
            let _ ← checkAcl session.did
            let (factor, evidence) :=
              if p.isWebauthn then ("passkey", Evidence.stepUpPasskey)
              else ("did", Evidence.didSigned)
            onSessions (storeSession (some session) (session.steppedUp factor)
              (.steppedUp evidence))
            return session.steppedUp factor

/-- `approve_response`, in a process. -/
def approveResponse (process : ℕ) (cx : Cx) (p : ApproveResponse) : AuthM AuthAnswer := do
  let approver ← cx.callerOf
  match p.sessionId with
  | none => declared "CHALLENGE_UNKNOWN" "this relying party binds every step-up to a session"
  | some sessionId =>
      let pending ← claimStepUp p sessionId
      let now ← nowEpoch
      if pending.expiresAt < now then
        declared "CHALLENGE_EXPIRED" "the step-up challenge has expired"
      else if p.subject ≠ pending.subject then
        declared "SUBJECT_MISMATCH" "the response names a different subject"
      else if approver ≠ pending.subject then
        declared "APPROVER_UNAUTHORIZED" "only the session's subject may approve its step-up"
      else
        match p.evidence with
        | some (.webauthn assertion) => verifyStepUp L cfg process pending assertion
        | _ => pure ()
        match p.decision with
        | .denied => return .recorded
        | .other => refuseWith (.validation "unsupported decision")
        | .approved => return .elevated (← elevate p pending sessionId)

/-! ## Passkey login -/

def requireWebauthn : AuthM Unit :=
  if cfg.hasWebauthn then return
  else standard "Unavailable" "passkeys are not configured on this service"

structure LoginStart where
  stepUp : Bool
  subject : Option String
deriving DecidableEq, Repr

/-- `login_start`: the credentials that may answer. -/
def loginCredentials (subject : Option String) : AuthM (List Passkey) := do
  match subject with
  | some did =>
      match ← onCredentials .session (getPasskeyUserByDid did) with
      | none => declared "SUBJECT_NOT_RECOGNIZED" "unknown subject"
      | some user =>
          if user.credentials.isEmpty then
            declared "NO_CREDENTIALS" "the subject has no passkey"
          else return user.credentials
  | none =>
      let all ← .call .get fun s => s.login.allPasskeys
      if all.isEmpty then declared "NO_CREDENTIALS" "no passkeys are registered here"
      else return all

def loginStart (p : LoginStart) : AuthM AuthAnswer := do
  requireWebauthn cfg
  let passkeys ← loginCredentials p.subject
  let nonce ← .draw (·.nonce)
  let (_, options, state) ← .check ((L.startAuthentication nonce passkeys).mapError fun e =>
    .app (.internal s!"webauthn start failed: {e}"))
  let authId ← .draw (·.uuid)
  .call (.putAuthState authId state) fun _ => ()
  let now ← nowEpoch
  .call (.putLoginMeta authId ⟨p.stepUp, p.subject, now + ceremonyTtlSecs⟩) fun _ => ()
  return .loginStarted authId options

structure LoginFinish where
  authId : String
  credential : Json
deriving Repr

/-- `login_finish`: the ceremony, claimed. -/
def claimLogin (authId : String) : AuthM (CeremonyMeta × PasskeyAuthentication) := do
  match ← .call (.takeLoginMeta authId) fun s => s.loginMeta.lookup authId with
  | none => declared "AUTH_NOT_FOUND" "no open ceremony has that id"
  | some m =>
      match ← .call (.takeAuthState authId) fun s => s.authStates.lookup authId with
      | none => declared "AUTH_NOT_FOUND" "no open ceremony has that id"
      | some state => return (m, state)

/-- `login_finish`: the user of the credential, whose use is recorded without a lock. -/
def recordLoginUse (subject : Option String) (result : AuthenticationResult) :
    AuthM PasskeyUser := do
  match ← onCredentials .session (getPasskeyUserByCred result.credId) with
  | none => declared "CREDENTIAL_UNKNOWN" "unknown credential"
  | some user =>
      if subject.any (· ≠ user.did) then
        declared "ASSERTION_INVALID" "the credential belongs to another subject"
      else
        onCredentials .session (storePasskeyUser user (user.updated L result) .used)
        return user.updated L result

/-- `login_finish`: the bearer session is elevated. -/
def loginStepUp (cx : Cx) (user : PasskeyUser) : AuthM Session := do
  let caller ← cx.callerOf
  match cx.bearer.filter fun b => b.did = caller && b.did = user.did with
  | none => declared "STEP_UP_SESSION_NOT_FOUND" "a step-up needs the subject's own session"
  | some bearer =>
      let found ← onSessions (getSession bearer.sessionId)
      match found.filter fun s => s.state = .authenticated with
      | none => declared "STEP_UP_SESSION_NOT_FOUND" "no live session"
      | some session =>
          onSessions (storeSession (some session) (session.steppedUp "passkey")
            (.steppedUp .loginPasskey))
          return session.steppedUp "passkey"

/-- The Ed25519 key of a `did:key`. -/
def ed25519Key (did : String) : Option String :=
  (Text.stripPrefix "did:key:" did).filter (Text.startsWith "z6Mk")

/-- `login_finish`: a session is opened for the user. -/
def openLogin (cx : Cx) (user : PasskeyUser) (role : Role) : AuthM TokenResponse := do
  let caller ← cx.callerOf
  match ed25519Key caller with
  | none =>
      standard "PermissionDenied"
        "a login is signed by the Ed25519 did:key its session will be bound to"
  | some key =>
      match cfg.jwtKeys with
      | none => refuseWith (.config "auth not configured")
      | some jwt =>
          onSessions (createAuthenticatedSession jwt user.did role cfg.accessTokenExpiry
            cfg.refreshTokenExpiry (some key) (some (["passkey"], stepUpAcr)))

def loginFinish (cx : Cx) (p : LoginFinish) : AuthM AuthAnswer := do
  requireWebauthn cfg
  let (m, state) ← claimLogin p.authId
  let now ← nowEpoch
  if m.expiresAt < now then declared "AUTH_EXPIRED" "the ceremony has expired"
  else
    let result ← finishAssertion L p.credential state "ASSERTION_INVALID"
    let user ← recordLoginUse L m.subject result
    let role ← checkAcl user.did
    if m.stepUp then return .elevated (← loginStepUp cx user)
    else return .loggedIn (← openLogin cfg cx user role)

end

end Auth

end DidHosting
