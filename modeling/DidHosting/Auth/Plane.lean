import DidHosting.Auth.Enrol
import DidHosting.Auth.Refresh

/-!
# The control plane

What is asked of the control plane, and the processes that answer.  They share one store;
each has locks of its own.
-/

namespace DidHosting

namespace Auth

inductive AuthCall where
  /-- A request of any kind, with its bearer token. -/
  | request (token : Option String)
  | revokeSession (cx : Cx) (p : RevokeSession)
  | stepUpStart (cx : Cx) (p : StepUpStart)
  | approveResponse (cx : Cx) (p : ApproveResponse)
  | loginStart (p : LoginStart)
  | loginFinish (cx : Cx) (p : LoginFinish)
  | refreshV1 (doc : RefreshDoc)
  | refreshV2 (doc : RefreshDoc)
  | enrolStart (cx : Cx) (deviceLabel : Option String)
  | enrolFinish (cx : Cx) (p : EnrolFinish)
  | invite (call : InviteCall)
  | redeemStart (token claimCode : String)
  | redeemFinish (p : EnrolFinish)
  | revokeStart (cx : Cx) (p : RevokeStart)
  | revokeFinish (cx : Cx) (p : RevokeFinish)
  | oobSession (approved : ApprovedSession)
  | elevate (sessionId : String) (role : Role) (amr : List String) (acr : String)
  | demote (subject : String)
  | cleanup (challengeTtl : ℕ)

/-- The libraries and the configuration of the control plane. -/
structure Plane where
  libs : AuthLibs
  inviteLibs : InviteLibs
  canon : CanonicalHandlers
  cfg : AuthConfig
  inviteTtl : ℕ

section

variable (A : Plane)

/-- `redeem_start`: the invite of a token and a claim code. -/
def redeemInvite (me process : ℕ) (token claimCode : String) : AuthM AuthAnswer := do
  requireWebauthn A.cfg
  match ← onInvites (redeem A.inviteLibs me process token claimCode) with
  | .invalid =>
      declared "INVITE_INVALID"
        "the invite is not redeemable with that token and claim code"
  | .tooManyAttempts =>
      declared "TOO_MANY_ATTEMPTS"
        "too many wrong claim codes: the invite has been invalidated; ask for a new one"
  | .valid invite => redeemStart A.libs A.cfg process invite

/-- `elevate_session`, on the keys of the service. -/
def elevateCall (sessionId : String) (role : Role) (amr : List String) (acr : String) :
    AuthM AuthAnswer :=
  match A.cfg.jwtKeys with
  | none => refuseWith (.config "auth not configured")
  | some jwt => do
      let tokens ← onSessions (elevateSession jwt sessionId role amr acr
        A.cfg.accessTokenExpiry A.cfg.refreshTokenExpiry)
      return .loggedIn tokens

/-- Handler `me`, in a process. -/
def handle (me process : ℕ) : AuthCall → AuthM AuthAnswer
  | .request token => do return .authenticated (← fromRequestParts A.cfg token)
  | .revokeSession cx p => do return .revokedCount (← revokeSession cx p)
  | .stepUpStart cx p => do return .stepUpStarted (← stepUpStart A.libs A.cfg cx p)
  | .approveResponse cx p => approveResponse A.libs A.cfg process cx p
  | .loginStart p => loginStart A.libs A.cfg p
  | .loginFinish cx p => loginFinish A.libs A.cfg cx p
  | .refreshV1 doc => do return .refreshed (← refreshV1 A.canon A.cfg doc)
  | .refreshV2 doc => do return .refreshed (← refreshV2 A.canon A.cfg doc)
  | .enrolStart cx deviceLabel => enrolStart A.libs A.cfg cx deviceLabel
  | .enrolFinish cx p => enrolFinish A.libs A.cfg process cx p
  | .invite call => do
      return .invite (← onInvites (handleInvite A.inviteLibs A.inviteTtl me process call))
  | .redeemStart token claimCode => redeemInvite A me process token claimCode
  | .redeemFinish p => redeemFinish A.libs A.cfg process me p
  | .revokeStart cx p => revokeStart A.libs A.cfg cx p
  | .revokeFinish cx p => revokeFinish A.libs A.cfg process cx p
  | .oobSession approved => do return .loggedIn (← oobCreateSession A.cfg approved)
  | .elevate sessionId role amr acr => elevateCall A sessionId role amr acr
  | .demote subject => do
      let _ ← onSessions (demoteNonPasskeyStepUpSessions subject)
      return .done
  | .cleanup challengeTtl => do
      onSessions (cleanupExpiredSessions challengeTtl)
      return .done

end

abbrev AuthPool := Pool ℕ AuthStore AuthAccess AuthEnv AuthLock TaskError AuthAnswer

/-- The control plane on a store: handler `i` runs in process `process i`. -/
def controlPlane (A : Plane) (acl : Table String AclEntry) (process : ℕ → ℕ)
    (calls : ℕ → AuthCall) : AuthPool :=
  Pool.start (AuthStore.new acl) fun i => handle A i (process i) (calls i)

end Auth

end DidHosting
