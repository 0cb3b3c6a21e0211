import DidHosting.Auth.Tasks

/-!
# Enrolling and revoking passkeys

An enrolment is opened by an invite or by the subject, and finished with an attestation.  A
revocation is opened by its producer, who finishes it with an assertion.  Both read the
whole record of a user under the lock of the user's credentials, and write it back.
-/

namespace DidHosting

namespace Auth

def maxSessionCredentials : ℕ := 10

def maxEntityName : ℕ := 64

def entityName (did : String) : String :=
  let chars := did.toList
  if chars.length ≤ maxEntityName then did
  else String.ofList ('…' :: chars.drop (chars.length - (maxEntityName - 1)))

section

variable {α : Type}

/-- Handlers on the invites.  What they draw is not used here. -/
def onInvites (p : InviteM α) : AuthM α :=
  invitePart.lift (fun env : AuthEnv => ⟨env.now, env.uuid, env.nonce, env.nonce, []⟩)
    AuthLock.invite
    (fun e =>
      match e with
      | .app e => TaskError.app (.ofApp e)
      | .inviteLapsed msg => .declared "INVITE_LAPSED" msg
      | .roleNotAllowed msg => .declared "ROLE_NOT_ALLOWED" msg
      | .malformedRequest msg => .standard "MalformedRequest" msg)
    p

end

section

variable (L : AuthLibs) (cfg : AuthConfig)

/-! ## Opening an enrolment -/

def openEnrolment (subject : String) (purpose : Purpose) (origin : CeremonyOrigin)
    (deviceLabel : Option String) : AuthM Ceremony := do
  requireWebauthn cfg
  let found ← onCredentials purpose (getPasskeyUserByDid subject)
  let uuid ← .draw (·.uuid)
  let user := found.getD (.new uuid subject)
  let exclude := if user.credentials.isEmpty then none else some user.credIds
  let nonce ← .draw (·.nonce)
  let (_, registration) ← .check
    ((L.startRegistration nonce user.userUuid (entityName subject) exclude).mapError fun e =>
      .app (.internal s!"webauthn registration start failed: {e}"))
  let uvNonce ← .draw (·.nonce)
  let userVerification ← .check
    (if user.credentials.isEmpty then .ok none
    else ((L.startAuthentication uvNonce user.credentials).map fun r => some r.2.2).mapError
      fun e => .app (.internal s!"webauthn uv start failed: {e}"))
  let id ← .draw (·.uuid)
  let now ← nowEpoch
  let ceremony : Ceremony := {
    enrollmentId := s!"enr_{id}"
    subject
    purpose
    origin
    userUuid := user.userUuid
    deviceLabel
    registration
    userVerification
    expiresAt := now + ceremonyTtlSecs }
  .call (.putEnrolment ceremony) fun _ => ()
  return ceremony

def enrolStart (cx : Cx) (deviceLabel : Option String) : AuthM AuthAnswer := do
  let auth ← cx.auth
  if !cfg.hasWebauthn then
    declared "ENROLLMENT_NOT_SUPPORTED" "this service does not enrol passkeys"
  else
    let found ← onCredentials .session (getPasskeyUserByDid auth.did)
    let held := (found.map (·.credentials.length)).getD 0
    if maxSessionCredentials ≤ held then
      declared "MAX_CREDENTIALS_REACHED" s!"at most {maxSessionCredentials} passkeys per subject"
    else
      let bearer := cx.bearer.filter fun b => b.did = auth.did && b.sessionId ≠ ""
      let ceremony ← openEnrolment L cfg auth.did .session (.subject (bearer.map (·.sessionId)))
        deviceLabel
      return .enrolmentStarted ceremony.enrollmentId

/-- `redeem_start`, in a process, for an invite that was redeemed. -/
def redeemStart (process : ℕ) (invite : Invite) : AuthM AuthAnswer := do
  let ceremony ← openEnrolment L cfg invite.subject invite.purpose
    (.invite invite.tokenHash invite.inviteId invite.role invite.issuedBy) invite.deviceLabel
  match ← (onInvites (openCeremony process invite.tokenHash ceremony.enrollmentId)).attempt with
  | .ok _ => return .enrolmentStarted ceremony.enrollmentId
  | .error (_ : TaskError) =>
      declared "INVITE_INVALID"
        "the invite is not redeemable with that token and claim code"

/-! ## Finishing an enrolment -/

structure EnrolFinish where
  enrollmentId : String
  uvCredential : Option Json
  credential : Json
  deviceLabel : Option String
deriving Repr

/-- `verify_uv`: the record after the assertion. -/
def verifyUv (state : PasskeyAuthentication) (user : PasskeyUser) (uv : Json) :
    Except String PasskeyUser := do
  let credential ← (L.readCredential uv).mapError fun e => s!"unreadable assertion: {e}"
  let result ← (L.finishAuthentication credential state).mapError fun _ =>
    "the user-verification assertion did not verify"
  if !result.userVerified then throw "the assertion does not carry user verification"
  else if !user.credIds.contains result.credId then
    throw "the assertion is not from one of your credentials"
  else return user.updated L result

/-- Why a finish could not bind its credential. -/
inductive Refusal where
  | userVerification (msg : String)
  | attestation (msg : String)
deriving DecidableEq, Repr

/-- `verify`: the new credential, and the record with it. -/
def verify (ceremony : Ceremony) (existing : Option PasskeyUser) (uv : Option Json)
    (attestation : Json) : Except Refusal (Passkey × PasskeyUser) := do
  let user := existing.getD (.new ceremony.userUuid ceremony.subject)
  let user ←
    (match ceremony.userVerification, uv with
    | some state, some uv => (verifyUv L state user uv).mapError .userVerification
    | some _, none =>
        throw (.userVerification
          "this enrolment needs a user-verified assertion from a passkey you already hold")
    | none, some _ =>
        throw (.userVerification "no user verification was asked for; send none")
    | none, none => pure user)
  let credential ← (L.readRegistration attestation).mapError fun e =>
    .attestation s!"unreadable attestation: {e}"
  let passkey ← (L.finishRegistration credential ceremony.registration).mapError fun _ =>
    .attestation "the attestation did not verify"
  return (passkey, { user with credentials := user.credentials ++ [passkey] })

/-- Set a member of an ordered map. -/
def setEntry {β : Type} (key : String) (value : β) (entries : List (String × β)) :
    List (String × β) :=
  (key, value) :: entries.filter fun e => e.1 ≠ key

/-- The record that `persist` writes. -/
def PasskeyUser.bound (user : PasskeyUser) (credId : String) (label : Option String) (now : ℕ) :
    PasskeyUser :=
  { user with
    labels :=
      match label with
      | some label => setEntry credId label user.labels
      | none => user.labels
    registeredAt := setEntry credId now user.registeredAt }

def persist (purpose : Purpose) (existing : Option PasskeyUser) (user : PasskeyUser)
    (passkey : Passkey) (label : Option String) (aclEntry : Option AclEntry) : AuthM Unit := do
  let now ← nowEpoch
  .call (.persist purpose existing (user.bound passkey.credId label now) passkey.credId aclEntry)
    fun _ => ()

/-- `finish`: the ceremony, claimed. -/
def claimEnrolment (enrollmentId msg : String) : AuthM Ceremony := do
  match ← .call (.takeEnrolment enrollmentId) fun s => s.enrolments.lookup enrollmentId with
  | none => declared "ENROLLMENT_NOT_FOUND" msg
  | some ceremony => return ceremony

/-- `finish`, under the lock of the subject's credentials. -/
def finishLocked (ceremony : Ceremony) (p : EnrolFinish) : AuthM AuthAnswer := do
  let existing ← onCredentials .session (getPasskeyUserByDid ceremony.subject)
  if existing.any fun u => maxSessionCredentials ≤ u.credentials.length then
    standard "TaskFailed" s!"at most {maxSessionCredentials} passkeys per subject"
  else
    let (passkey, user) ← .check ((verify L ceremony existing p.uvCredential p.credential).mapError
      fun r =>
        match r with
        | .userVerification m => .standard "PermissionDenied" m
        | .attestation m => .declared "ATTESTATION_INVALID" m)
    persist .session existing user passkey (p.deviceLabel.or ceremony.deviceLabel) none
    return .enrolled .session passkey.credId ceremony.subject

/-- The bearer session is the one the enrolment was started in, if it was started in one. -/
def Cx.sameSession (cx : Cx) (sessionId : Option String) : Bool :=
  sessionId.all fun sid => cx.bearer.any fun b => b.sessionId = sid

def enrolFinish (process : ℕ) (cx : Cx) (p : EnrolFinish) : AuthM AuthAnswer := do
  let auth ← cx.auth
  requireWebauthn cfg
  let ceremony ← claimEnrolment p.enrollmentId "no open enrolment has that enrollmentId"
  match ceremony.origin with
  | .invite .. => declared "ENROLLMENT_NOT_FOUND" "no open enrolment has that enrollmentId"
  | .subject sessionId =>
      let now ← nowEpoch
      if ceremony.expiresAt < now then
        declared "ENROLLMENT_EXPIRED" "the enrolment has expired; start again"
      else if ceremony.subject ≠ auth.did || !cx.sameSession sessionId then
        declared "SUBJECT_MISMATCH" "this enrolment was started by another subject or session"
      else
        .locked (.credentials process .session ceremony.subject) (finishLocked L ceremony p)

/-- `redeem_finish`: the entry of a subject that has none yet. -/
def invitedEntry (ceremony : Ceremony) (role : Option String) : AuthM (Option AclEntry) := do
  match ceremony.purpose, role with
  | .session, some role =>
      match ← .call .get fun s => s.acl.lookup ceremony.subject with
      | some _ => return none
      | none =>
          let role ← .check (parseRole role)
          return some ⟨ceremony.subject, role, none, none, .all⟩
  | _, _ => return none

/-- `redeem_finish`, under the lock of the subject's credentials. -/
def redeemLockedFinish (process me : ℕ) (ceremony : Ceremony) (tokenHash : String)
    (role : Option String) (p : EnrolFinish) : AuthM AuthAnswer := do
  let existing ← onCredentials ceremony.purpose (getPasskeyUserByDid ceremony.subject)
  let (passkey, user) ← .check ((verify L ceremony existing p.uvCredential p.credential).mapError
    fun r =>
      match r with
      | .userVerification m => .declared "USER_VERIFICATION_FAILED" m
      | .attestation m => .declared "ATTESTATION_INVALID" m)
  match ← onInvites (take me process tokenHash) with
  | none => declared "ENROLLMENT_NOT_FOUND" "no open redemption has that enrollmentId"
  | some _ =>
      let aclEntry ← invitedEntry ceremony role
      persist ceremony.purpose existing user passkey (p.deviceLabel.or ceremony.deviceLabel)
        aclEntry
      if ceremony.purpose = .stepUp then
        let _ ← onSessions (demoteNonPasskeyStepUpSessions ceremony.subject)
        return .enrolled ceremony.purpose passkey.credId ceremony.subject
      else return .enrolled ceremony.purpose passkey.credId ceremony.subject

/-- `redeem_finish`, as handler `me` in a process. -/
def redeemFinish (process me : ℕ) (p : EnrolFinish) : AuthM AuthAnswer := do
  requireWebauthn cfg
  let ceremony ← claimEnrolment p.enrollmentId "no open redemption has that enrollmentId"
  match ceremony.origin with
  | .subject _ => declared "ENROLLMENT_NOT_FOUND" "no open redemption has that enrollmentId"
  | .invite tokenHash _ role _ =>
      let now ← nowEpoch
      if ceremony.expiresAt < now then
        declared "ENROLLMENT_EXPIRED"
          "the redemption ceremony has expired; start again while the invite is valid"
      else
        let live ← onInvites (byTokenHash tokenHash)
        let now ← nowEpoch
        if (live.filter fun i => !i.isExpired now).any fun i =>
            i.ceremony = some ceremony.enrollmentId then
          .locked (.credentials process ceremony.purpose ceremony.subject)
            (redeemLockedFinish L process me ceremony tokenHash role p)
        else declared "ENROLLMENT_NOT_FOUND" "no open redemption has that enrollmentId"

/-! ## Revoking a credential -/

structure RevokeStart where
  subject : Option String
  /-- The id on the wire. -/
  credentialId : String
  /-- What `hex_from_wire` makes of it. -/
  credHex : Option String
deriving DecidableEq, Repr

def findCredential (subject credHex : String) : AuthM (Option (Purpose × PasskeyUser)) := do
  let login ← onCredentials .session (getPasskeyUserByDid subject)
  match login.filter fun u => u.credIds.contains credHex with
  | some user => return some (.session, user)
  | none =>
      let stepUp ← onCredentials .stepUp (getPasskeyUserByDid subject)
      match stepUp.filter fun u => u.credIds.contains credHex with
      | some user => return some (.stepUp, user)
      | none => return none

def revokeStart (cx : Cx) (p : RevokeStart) : AuthM AuthAnswer := do
  let auth ← cx.auth
  requireWebauthn cfg
  let target := p.subject.getD auth.did
  if target ≠ auth.did && auth.role ≠ .admin then
    declared "NOT_AUTHORIZED" "only an administrator may revoke another subject's passkey"
  else
    match p.credHex with
    | none => declared "CREDENTIAL_NOT_FOUND" "not a recognised credential id"
    | some credHex =>
        match ← findCredential target credHex with
        | none => declared "CREDENTIAL_NOT_FOUND" "no such credential for that subject"
        | some (purpose, user) =>
            if purpose = .session && user.credentials.length ≤ 1 then
              declared "LAST_CREDENTIAL"
                "the subject's last login passkey cannot be revoked this way"
            else
              let producer ← onCredentials .session (getPasskeyUserByDid auth.did)
              match producer.filter fun u => !u.credentials.isEmpty with
              | none =>
                  declared "REAUTH_UNAVAILABLE"
                    "you hold no passkey this service can re-verify you with"
              | some producer =>
                  let nonce ← .draw (·.nonce)
                  let (_, _, state) ← .check
                    ((L.startAuthentication nonce producer.credentials).mapError fun e =>
                      .app (.internal s!"webauthn revoke start failed: {e}"))
                  let uuid ← .draw (·.uuid)
                  let now ← nowEpoch
                  .call (.putRevocation s!"rvk_{uuid}" ⟨auth.did, target, purpose, credHex,
                    p.credentialId, now + ceremonyTtlSecs, state⟩) fun _ => ()
                  return .revocationStarted s!"rvk_{uuid}"

structure RevokeFinish where
  revocationId : String
  uvCredential : Json
deriving Repr

/-- `revoke_finish`: the ceremony, claimed by its producer. -/
def claimRevocation (did revocationId : String) : AuthM RevocationCeremony := do
  let peeked ← .call .get fun s => s.revocations.lookup revocationId
  if peeked.any fun c => c.producer = did then
    let taken ← .call (.takeRevocation revocationId) fun s => s.revocations.lookup revocationId
    match taken.filter fun c => c.producer = did with
    | none => declared "REVOCATION_NOT_FOUND" "no pending revocation has that id"
    | some ceremony => return ceremony
  else declared "REVOCATION_NOT_FOUND" "no pending revocation has that id"

/-- `revoke_finish`, under the lock of the target's credentials: how many remain. -/
def revokeLocked (ceremony : RevocationCeremony) : AuthM ℕ := do
  match ← onCredentials ceremony.targetPurpose (getPasskeyUserByDid ceremony.targetSubject) with
  | none => declared "REVOCATION_NOT_FOUND" "no pending revocation has that id"
  | some user =>
      if ceremony.targetPurpose = .session && user.credentials.length ≤ 1 then
        declared "LAST_CREDENTIAL" "the subject's last login passkey cannot be revoked"
      else if user.credIds.contains ceremony.targetCredentialIdHex then
        onCredentials ceremony.targetPurpose
          (removeCredential user ceremony.targetCredentialIdHex)
        return (user.without ceremony.targetCredentialIdHex).credentials.length
      else declared "REVOCATION_NOT_FOUND" "no pending revocation has that id"

/-- `revoke_finish`, under the lock of the producer's credentials. -/
def recordProducerUse (did : String) (result : AuthenticationResult) : AuthM Unit := do
  match ← onCredentials .session (getPasskeyUserByDid did) with
  | none => return
  | some user => onCredentials .session (storePasskeyUser user (user.updated L result) .used)

/-- `revoke_finish`: the standing of the producer, at commit time. -/
def checkStanding (ceremony : RevocationCeremony) (did : String) : AuthM Unit := do
  if ceremony.targetSubject ≠ ceremony.producer then
    let role ← checkAcl did
    if role ≠ .admin then
      declared "NOT_AUTHORIZED" "administrator standing was withdrawn meanwhile"
    else return
  else return

/-- `revoke_finish`, in a process. -/
def revokeFinish (process : ℕ) (cx : Cx) (p : RevokeFinish) : AuthM AuthAnswer := do
  let auth ← cx.auth
  let ceremony ← claimRevocation auth.did p.revocationId
  let now ← nowEpoch
  if ceremony.expiresAt < now then
    declared "REVOCATION_EXPIRED" "the revocation ceremony has expired"
  else
    requireWebauthn cfg
    let result ← finishAssertion L p.uvCredential ceremony.webauthn "USER_VERIFICATION_FAILED"
    if !result.userVerified then
      declared "USER_VERIFICATION_FAILED" "the assertion does not carry user verification"
    else
      checkStanding ceremony auth.did
      let remaining ← .locked
        (.credentials process ceremony.targetPurpose ceremony.targetSubject)
        (revokeLocked ceremony)
      .locked (.credentials process .session auth.did) (recordProducerUse L auth.did result)
      return .revoked ceremony.targetPurpose ceremony.targetCredentialIdHex
        ceremony.targetSubject remaining

end

end Auth

end DidHosting
