import DidHosting.Support.Part
import DidHosting.Support.Table
import DidHosting.Common.Domain

/-!
# Sessions

A session is a row, with a row that leads from its refresh token to it and one that leads
from its DID to it.  The three are written one after the other, and a change of a session
writes back a copy that was read before.

A write of a session row says in the model which copy it was made from, and why.  The log
keeps this for every write; no handler reads it.
-/

namespace DidHosting

namespace Auth

/-! ## Sessions -/

inductive SessionState where
  | challengeSent
  | authenticated
deriving DecidableEq, Repr

/-- `Session`.  Times are in seconds since the epoch. -/
structure Session where
  sessionId : String
  did : String
  challenge : String
  state : SessionState
  createdAt : ℕ
  lastSeen : ℕ
  refreshToken : Option String
  refreshExpiresAt : Option ℕ
  teeAttested : Bool
  tokenId : Option String
  sessionPubkeyB58btc : Option String
  amr : List String
  acr : String
  acrExpiresAt : Option ℕ
  notAfter : Option ℕ
deriving DecidableEq, Repr

def lastSeenGranularitySecs : ℕ := 60

/-- What raised a session to `aal2`. -/
inductive Evidence where
  /-- A user-verified assertion by a step-up credential. -/
  | stepUpPasskey
  /-- An assertion by a login credential. -/
  | loginPasskey
  | didSigned
deriving DecidableEq, Repr

/-- Why a session row is written. -/
inductive SessionChange where
  | challenged
  | created
  | finalized
  | elevated
  | touched
  | demoted
  | refreshed
  | clamped
  | steppedUp (evidence : Evidence)
deriving DecidableEq, Repr

/-! ## The store -/

/-- An entry of the log. -/
inductive SessionFact where
  | wrote (before : Option Session) (after : Session) (why : SessionChange)
  | removed (sessionId : String)
deriving Repr

/-- The rows of sessions, and the log. -/
structure SessionStore where
  /-- `session:`. -/
  sessions : Table String Session
  /-- `refresh:`, by token. -/
  refresh : Table String String
  /-- `session-did:`, by the whole key. -/
  sessionDids : Table String String
  log : List SessionFact

def SessionStore.new : SessionStore := ⟨∅, ∅, ∅, []⟩

/-- The accesses of the store.  A session is written from the copy that was read. -/
inductive SessionAccess where
  | get
  | putSession (copied : Option Session) (session : Session) (why : SessionChange)
  | removeSession (sessionId : String)
  | putSessionDid (key sessionId : String)
  | removeSessionDid (key : String)
  | putRefresh (token sessionId : String)
  | takeRefresh (token : String)
  | removeRefresh (token : String)

def SessionStore.perform : SessionAccess → SessionStore → SessionStore
  | .get, s => s
  | .putSession _ session why, s =>
      { s with
        sessions := s.sessions.insert session.sessionId session
        log := s.log ++ [.wrote (s.sessions.lookup session.sessionId) session why] }
  | .removeSession sessionId, s =>
      { s with
        sessions := s.sessions.erase sessionId
        log := s.log ++ [.removed sessionId] }
  | .putSessionDid key sessionId, s =>
      { s with sessionDids := s.sessionDids.insert key sessionId }
  | .removeSessionDid key, s => { s with sessionDids := s.sessionDids.erase key }
  | .putRefresh token sessionId, s => { s with refresh := s.refresh.insert token sessionId }
  | .takeRefresh token, s => { s with refresh := s.refresh.erase token }
  | .removeRefresh token, s => { s with refresh := s.refresh.erase token }

instance : Access SessionStore SessionAccess := ⟨SessionStore.perform⟩

/-- The clock, and what is drawn at random. -/
structure SessionEnv where
  now : ℕ
  sessionId : String
  jti : String
  refreshToken : String
deriving DecidableEq

inductive AuthError where
  | unauthorized (msg : String)
  | authentication (msg : String)
  | forbidden (msg : String)
  | validation (msg : String)
  | notFound (msg : String)
  | config (msg : String)
  | internal (msg : String)
deriving DecidableEq, Repr

/-- The errors of the operations, as errors of a request. -/
def AuthError.ofApp : AppError → AuthError
  | .notFound msg => .notFound msg
  | .validation msg => .validation msg
  | .forbidden msg => .forbidden msg
  | e => .internal e.toText

/-- Handlers on the sessions.  They take no locks. -/
abbrev SessionM := Atomic SessionStore SessionAccess SessionEnv Empty AuthError

/-! ## Keys -/

def sessionDidPrefix (did : String) : String :=
  s!"session-did:{did}:"

def sessionDidKey (did sessionId : String) : String :=
  s!"session-did:{did}:{sessionId}"

/-- `prefix_iter_raw` over the sessions of a DID. -/
def SessionStore.sessionsOf (s : SessionStore) (did : String) : List String :=
  ((Table.rows s.sessionDids).filter fun row =>
    Text.startsWith (sessionDidPrefix did) row.1).map (·.2)

/-! ## Rows -/

def clock : SessionM ℕ := .draw (·.now)

/-- `store_session`, of a session made from the copy `copied`. -/
def storeSession (copied : Option Session) (session : Session) (why : SessionChange) :
    SessionM Unit := do
  .call (.putSession copied session why) fun _ => ()
  .call (.putSessionDid (sessionDidKey session.did session.sessionId) session.sessionId)
    fun _ => ()

def getSession (sessionId : String) : SessionM (Option Session) :=
  .call .get fun s => s.sessions.lookup sessionId

def storeRefreshIndex (token sessionId : String) : SessionM Unit :=
  .call (.putRefresh token sessionId) fun _ => ()

def getSessionByRefresh (token : String) : SessionM (Option String) :=
  .call .get fun s => s.refresh.lookup token

def takeSessionIdByRefresh (token : String) : SessionM (Option String) :=
  .call (.takeRefresh token) fun s => s.refresh.lookup token

def touchLastSeen (session : Session) (now : ℕ) : SessionM Bool := do
  if now < session.lastSeen + lastSeenGranularitySecs then
    return false
  else
    storeSession (some session) { session with lastSeen := now } .touched
    return true

/-- Remove the row of a refresh token, if there is one. -/
def removeRefreshOf (session : Session) : SessionM Unit :=
  match session.refreshToken with
  | some token => .call (.removeRefresh token) fun _ => ()
  | none => return

def deleteSession (sessionId : String) : SessionM Unit := do
  match ← getSession sessionId with
  | none => return
  | some session =>
      removeRefreshOf session
      .call (.removeSession sessionId) fun _ => ()
      .call (.removeSessionDid (sessionDidKey session.did sessionId)) fun _ => ()

/-- A session whose elevation does not count for a subject with a step-up credential. -/
def Session.elevatedWithoutPasskey (session : Session) (subject : String) : Bool :=
  session.did = subject && session.acr = "aal2" && !session.amr.contains "passkey"

/-- The session after a demotion. -/
def Session.demoted (session : Session) : Session :=
  { session with amr := ["did"], acr := "aal1", acrExpiresAt := none }

/-- The loop of `demote_non_passkey_step_up_sessions`. -/
def demoteAll (subject : String) : List String → ℕ → SessionM ℕ
  | [], demoted => return demoted
  | sessionId :: rest, demoted => do
      match ← getSession sessionId with
      | none => demoteAll subject rest demoted
      | some session =>
          if session.elevatedWithoutPasskey subject then
            storeSession (some session) session.demoted .demoted
            demoteAll subject rest (demoted + 1)
          else demoteAll subject rest demoted

def demoteNonPasskeyStepUpSessions (subject : String) : SessionM ℕ := do
  let sessionIds ← .call .get fun s => s.sessionsOf subject
  demoteAll subject sessionIds 0

/-- The session is expired for the clean-up. -/
def Session.isExpired (session : Session) (now challengeTtl : ℕ) : Bool :=
  match session.state with
  | .challengeSent => challengeTtl < now - session.createdAt
  | .authenticated => session.refreshExpiresAt.all (· < now)

/-- The loop of `cleanup_expired_sessions` over the session rows it read. -/
def cleanupAll (now challengeTtl : ℕ) : List (String × Session) → SessionM Unit
  | [] => return
  | (key, session) :: rest => do
      if session.isExpired now challengeTtl then
        .call (.removeSession key) fun _ => ()
        removeRefreshOf session
        .call (.removeSessionDid (sessionDidKey session.did session.sessionId)) fun _ => ()
        cleanupAll now challengeTtl rest
      else cleanupAll now challengeTtl rest

/-- `cleanup_expired_sessions`, its part about sessions. -/
def cleanupExpiredSessions (challengeTtl : ℕ) : SessionM Unit := do
  let entries ← .call .get fun s => Table.rows s.sessions
  let now ← clock
  cleanupAll now challengeTtl entries

/-! ## Tokens -/

structure Claims where
  aud : String
  sub : String
  sessionId : String
  role : String
  exp : ℕ
  iat : ℕ
  jti : String
  amr : List String
  acr : String
deriving DecidableEq, Repr

/-- `JwtKeys`: what encodes claims as a token, and decodes them. -/
structure JwtKeys where
  encode : Claims → Except AuthError String
  decode : String → Except AuthError Claims

/-- The name of a role in a token. -/
def Role.asStr : Role → String
  | .admin => "admin"
  | .owner => "owner"
  | .service => "service"

structure TokenResponse where
  sessionId : String
  subject : String
  accessToken : String
  accessExpiresAt : ℕ
  refreshToken : String
  refreshExpiresAt : ℕ
  issuedAt : ℕ
  amr : List String
  acr : String
deriving DecidableEq, Repr

/-- `JwtKeys::new_claims`. -/
def newClaims (sub sessionId role : String) (expirySecs : ℕ) : SessionM Claims := do
  let now ← clock
  let jti ← .draw (·.jti)
  return ⟨"WebVH", sub, sessionId, role, now + expirySecs, now, jti, ["did"], "aal1"⟩

/-- The tokens of `generate_tokens`. -/
structure Tokens where
  accessToken : String
  accessExpiresAt : ℕ
  refreshToken : String
  refreshExpiresAt : ℕ
  tokenId : String
deriving DecidableEq, Repr

section

variable (jwt : JwtKeys)

def generateTokens (did sessionId : String) (role : Role) (accessExpiry refreshExpiry : ℕ)
    (amrAcrOverride : Option (List String × String)) : SessionM Tokens := do
  let base ← newClaims did sessionId (Role.asStr role) accessExpiry
  let claims :=
    match amrAcrOverride with
    | some (amr, acr) => { base with amr := amr, acr := acr }
    | none => base
  let accessToken ← .check (jwt.encode claims)
  let refreshToken ← .draw (·.refreshToken)
  let now ← clock
  return ⟨accessToken, claims.exp, refreshToken, now + refreshExpiry, claims.jti⟩

/-- The session after `finalize_challenge_session`. -/
def Session.finalized (session : Session) (tokens : Tokens) : Session :=
  { session with
    state := .authenticated
    refreshToken := some tokens.refreshToken
    refreshExpiresAt := some tokens.refreshExpiresAt
    tokenId := some tokens.tokenId
    amr := ["did"]
    acr := "aal1" }

def finalizeChallengeSession (session : Session) (role : Role)
    (accessExpiry refreshExpiry : ℕ) : SessionM TokenResponse := do
  let tokens ← generateTokens jwt session.did session.sessionId role accessExpiry refreshExpiry
    none
  storeSession (some session) (session.finalized tokens) .finalized
  storeRefreshIndex tokens.refreshToken session.sessionId
  let now ← clock
  return ⟨session.sessionId, session.did, tokens.accessToken, tokens.accessExpiresAt,
    tokens.refreshToken, tokens.refreshExpiresAt, now, ["did"], "aal1"⟩

/-- The session of `create_authenticated_session`. -/
def newSession (sessionId did : String) (tokens : Tokens) (createdAt lastSeen : ℕ)
    (sessionPubkeyB58btc : Option String) (amrAcr : List String × String) : Session where
  sessionId := sessionId
  did := did
  challenge := ""
  state := .authenticated
  createdAt := createdAt
  lastSeen := lastSeen
  refreshToken := some tokens.refreshToken
  refreshExpiresAt := some tokens.refreshExpiresAt
  teeAttested := false
  tokenId := some tokens.tokenId
  sessionPubkeyB58btc := sessionPubkeyB58btc
  amr := amrAcr.1
  acr := amrAcr.2
  acrExpiresAt := none
  notAfter := none

def createAuthenticatedSession (did : String) (role : Role) (accessExpiry refreshExpiry : ℕ)
    (sessionPubkeyB58btc : Option String) (amrAcrOverride : Option (List String × String)) :
    SessionM TokenResponse := do
  let sessionId ← .draw (·.sessionId)
  let tokens ← generateTokens jwt did sessionId role accessExpiry refreshExpiry amrAcrOverride
  let amrAcr := amrAcrOverride.getD (["did"], "aal1")
  let createdAt ← clock
  let lastSeen ← clock
  storeSession none (newSession sessionId did tokens createdAt lastSeen sessionPubkeyB58btc amrAcr)
    .created
  storeRefreshIndex tokens.refreshToken sessionId
  let now ← clock
  return ⟨sessionId, did, tokens.accessToken, tokens.accessExpiresAt, tokens.refreshToken,
    tokens.refreshExpiresAt, now, amrAcr.1, amrAcr.2⟩

/-- The session after `elevate_session`. -/
def Session.elevated (session : Session) (tokenId refreshToken : String) (refreshExpiresAt : ℕ)
    (amr : List String) (acr : String) : Session :=
  { session with
    tokenId := some tokenId
    refreshToken := some refreshToken
    refreshExpiresAt := some refreshExpiresAt
    amr := amr
    acr := acr }

def elevateSession (sessionId : String) (role : Role) (amr : List String) (acr : String)
    (accessExpiry refreshExpiry : ℕ) : SessionM TokenResponse := do
  match ← getSession sessionId with
  | none => .fail (.authentication "session not found")
  | some session =>
      if session.state ≠ .authenticated then
        .fail (.authentication "session not authenticated")
      else
        let base ← newClaims session.did sessionId (Role.asStr role) accessExpiry
        let accessToken ← .check (jwt.encode { base with amr := amr, acr := acr })
        let refreshToken ← .draw (·.refreshToken)
        let now ← clock
        storeSession (some session)
          (session.elevated base.jti refreshToken (now + refreshExpiry) amr acr) .elevated
        storeRefreshIndex refreshToken sessionId
        let issuedAt ← clock
        return ⟨sessionId, session.did, accessToken, base.exp, refreshToken,
          now + refreshExpiry, issuedAt, amr, acr⟩

end

end Auth

end DidHosting
