import DidHosting.Auth.Credential
import DidHosting.Auth.Session

/-!
# The authentication store of the control plane

The control plane keeps sessions, the open ceremonies, two stores of credentials and the
invites in one place.  The handlers of the parts are handlers here.
-/

namespace DidHosting

namespace Auth

/-! ## Rows -/

structure AuthProxyMeta where
  actor : Option String
  absoluteExpiresAt : ℕ
deriving DecidableEq, Repr

/-- The state the library keeps of an open assertion ceremony. -/
structure PasskeyAuthentication where
  state : Json
deriving Repr

/-- The state the library keeps of an open registration. -/
structure PasskeyRegistration where
  state : Json
deriving Repr

/-- What an assertion that verified says. -/
structure AuthenticationResult where
  credId : String
  userVerified : Bool
  counter : ℕ
deriving DecidableEq, Repr

structure PendingStepUp where
  challenge : String
  subject : String
  expiresAt : ℕ
  webauthn : Option PasskeyAuthentication
deriving Repr

structure CeremonyMeta where
  stepUp : Bool
  subject : Option String
  expiresAt : ℕ
deriving DecidableEq, Repr

inductive CeremonyOrigin where
  | invite (tokenHash inviteId : String) (role : Option String) (issuedBy : String)
  | subject (sessionId : Option String)
deriving DecidableEq, Repr

structure Ceremony where
  enrollmentId : String
  subject : String
  purpose : Purpose
  origin : CeremonyOrigin
  userUuid : String
  deviceLabel : Option String
  registration : PasskeyRegistration
  userVerification : Option PasskeyAuthentication
  expiresAt : ℕ
deriving Repr

structure RevocationCeremony where
  producer : String
  targetSubject : String
  targetPurpose : Purpose
  targetCredentialIdHex : String
  targetCredentialIdWire : String
  expiresAt : ℕ
  webauthn : PasskeyAuthentication
deriving Repr

/-! ## The store -/

structure AuthStore where
  sessions : SessionStore
  /-- `auth-proxy-meta:`, by session. -/
  proxyMeta : Table String AuthProxyMeta
  /-- `stepup-task:`, by session. -/
  pendingStepUps : Table String PendingStepUp
  /-- `pk_task_meta:`. -/
  loginMeta : Table String CeremonyMeta
  /-- `pk_auth:`. -/
  authStates : Table String PasskeyAuthentication
  /-- `pk_enrol:`. -/
  enrolments : Table String Ceremony
  /-- `pk_revoke:`. -/
  revocations : Table String RevocationCeremony
  /-- The credentials that sign in. -/
  login : CredentialStore
  /-- `KS_PASSKEY_STEP_UP`. -/
  stepUp : CredentialStore
  invites : InviteStore
  acl : Table String AclEntry

namespace AuthStore

/-- A store with an access-control list and nothing else. -/
def new (acl : Table String AclEntry) : AuthStore :=
  ⟨.new, ∅, ∅, ∅, ∅, ∅, ∅, .new, .new, .new, acl⟩

def credentials (s : AuthStore) : Purpose → CredentialStore
  | .session => s.login
  | .stepUp => s.stepUp

def setCredentials (s : AuthStore) (purpose : Purpose) (c : CredentialStore) : AuthStore :=
  match purpose with
  | .session => { s with login := c }
  | .stepUp => { s with stepUp := c }

end AuthStore

/-- The accesses of the store. -/
inductive AuthAccess where
  | get
  | session (o : SessionAccess)
  | credential (purpose : Purpose) (o : CredentialAccess)
  | invite (o : InviteAccess)
  | putMeta (sessionId : String) (m : AuthProxyMeta)
  | removeMeta (sessionId : String)
  | putPending (sessionId : String) (p : PendingStepUp)
  | takePending (sessionId : String)
  | putLoginMeta (authId : String) (m : CeremonyMeta)
  | takeLoginMeta (authId : String)
  | putAuthState (authId : String) (a : PasskeyAuthentication)
  | takeAuthState (authId : String)
  | putEnrolment (c : Ceremony)
  | takeEnrolment (enrollmentId : String)
  | putRevocation (revocationId : String) (c : RevocationCeremony)
  | takeRevocation (revocationId : String)
  /-- The batch of `persist`: a new credential, and an entry of the access-control list. -/
  | persist (purpose : Purpose) (copied : Option PasskeyUser) (user : PasskeyUser)
      (credId : String) (aclEntry : Option AclEntry)

def AuthStore.perform : AuthAccess → AuthStore → AuthStore
  | .get, s => s
  | .session o, s => { s with sessions := s.sessions.perform o }
  | .credential purpose o, s =>
      s.setCredentials purpose ((s.credentials purpose).perform o)
  | .invite o, s => { s with invites := s.invites.perform o }
  | .putMeta sessionId m, s => { s with proxyMeta := s.proxyMeta.insert sessionId m }
  | .removeMeta sessionId, s => { s with proxyMeta := s.proxyMeta.erase sessionId }
  | .putPending sessionId p, s =>
      { s with pendingStepUps := s.pendingStepUps.insert sessionId p }
  | .takePending sessionId, s => { s with pendingStepUps := s.pendingStepUps.erase sessionId }
  | .putLoginMeta authId m, s => { s with loginMeta := s.loginMeta.insert authId m }
  | .takeLoginMeta authId, s => { s with loginMeta := s.loginMeta.erase authId }
  | .putAuthState authId a, s => { s with authStates := s.authStates.insert authId a }
  | .takeAuthState authId, s => { s with authStates := s.authStates.erase authId }
  | .putEnrolment c, s => { s with enrolments := s.enrolments.insert c.enrollmentId c }
  | .takeEnrolment enrollmentId, s => { s with enrolments := s.enrolments.erase enrollmentId }
  | .putRevocation revocationId c, s =>
      { s with revocations := s.revocations.insert revocationId c }
  | .takeRevocation revocationId, s => { s with revocations := s.revocations.erase revocationId }
  | .persist purpose copied user credId aclEntry, s =>
      let t := s.setCredentials purpose ((s.credentials purpose).perform (.bind copied user credId))
      match aclEntry with
      | some entry => { t with acl := t.acl.insert entry.did entry }
      | none => t

instance : Access AuthStore AuthAccess := ⟨AuthStore.perform⟩

/-! ## Handlers -/

/-- The clock, and what is drawn at random. -/
structure AuthEnv extends SessionEnv where
  uuid : String
  /-- The randomness of a ceremony. -/
  nonce : String

/-- The locks of one process. -/
inductive AuthLock where
  | invite (l : InviteLock)
  /-- `credentials_guard`. -/
  | credentials (process : ℕ) (purpose : Purpose) (subject : String)
deriving DecidableEq, Repr

inductive TaskError where
  | standard (code msg : String)
  | declared (code msg : String)
  | app (e : AuthError)
deriving DecidableEq, Repr

abbrev AuthM := Atomic AuthStore AuthAccess AuthEnv AuthLock TaskError

/-- A part of the store keeps to its own accesses. -/
def sessionPart : Part AuthStore AuthAccess SessionStore SessionAccess where
  get := AuthStore.sessions
  access := .session
  get_perform _ _ := rfl

def credentialPart (purpose : Purpose) :
    Part AuthStore AuthAccess CredentialStore CredentialAccess where
  get s := s.credentials purpose
  access := .credential purpose
  get_perform o s := by cases purpose <;> rfl

def invitePart : Part AuthStore AuthAccess InviteStore InviteAccess where
  get := AuthStore.invites
  access := .invite
  get_perform _ _ := rfl

section

variable {α : Type}

/-- A handler on the sessions. -/
def onSessions (p : SessionM α) : AuthM α :=
  sessionPart.lift AuthEnv.toSessionEnv Empty.elim TaskError.app p

/-- A handler on the credentials of a purpose. -/
def onCredentials (purpose : Purpose) (p : CredentialM α) : AuthM α :=
  (credentialPart purpose).lift (fun _ => ()) Empty.elim Empty.elim p

end

end Auth

end DidHosting
