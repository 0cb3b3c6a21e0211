import DidHosting.Support.Atomic
import DidHosting.Support.Table
import DidHosting.Common.Domain
import DidHosting.Control.State

/-!
# Passkey enrolment invites

An invite is redeemed with a token and a claim code.  The store keeps hashes of both, an
index by the id administrators use, and a counter of wrong claim codes.  The counter is
incremented by the store; the invite itself is read, changed and saved under a lock that
belongs to one process.

Beside what the services keep, the model's store has a log of the invites issued and taken
and of the wrong claim codes.  No handler reads it.
-/

namespace DidHosting

namespace Auth

/-! ## Invites -/

def maxWrongCodes : ℕ := 5

def u32Max : ℕ := 2 ^ 32 - 1

/-- What a credential may authenticate. -/
inductive Purpose where
  | session
  | stepUp
deriving DecidableEq, Repr

/-- A salted digest of a claim code.  The salt and the digest are in hex. -/
structure ClaimHash where
  salt : String
  mKib : ℕ
  t : ℕ
  p : ℕ
  digest : String
deriving DecidableEq, Repr

/-- A stored invite.  Times are in seconds since the epoch. -/
structure Invite where
  inviteId : String
  tokenHash : String
  claim : ClaimHash
  subject : String
  purpose : Purpose
  role : Option String
  deviceLabel : Option String
  issuedBy : String
  createdAt : ℕ
  expiresAt : ℕ
  wrongCodes : ℕ
  ceremony : Option String
deriving DecidableEq, Repr

def Invite.isExpired (i : Invite) (now : ℕ) : Bool :=
  i.expiresAt ≤ now

structure InviteRequest where
  subject : String
  purpose : Purpose
  role : Option String
  deviceLabel : Option String
  issuedBy : String
  ttlSecs : ℕ
deriving DecidableEq, Repr

/-- A new invite with its two secrets. -/
structure IssuedInvite where
  invite : Invite
  token : String
  claimCode : String
deriving DecidableEq, Repr

/-- The outcome of presenting a token and a claim code. -/
inductive Redemption where
  | valid (invite : Invite)
  | invalid
  | tooManyAttempts
deriving DecidableEq, Repr

/-! ## The store -/

/-- An entry of the log. -/
inductive InviteFact where
  | issued (tokenHash : String)
  /-- Handler `by'` found a claim code wrong, and the invite has wrong codes left. -/
  | counted (by' : ℕ) (tokenHash : String)
  /-- Handler `by'` found a claim code wrong, and invalidated the invite. -/
  | lockedOut (by' : ℕ) (tokenHash : String)
  /-- The invite was there, and was removed by handler `by'`. -/
  | taken (by' : ℕ) (tokenHash : String)
deriving DecidableEq, Repr

namespace InviteFact

/-- The invite an entry is about. -/
def tokenHash : InviteFact → String
  | issued h | counted _ h | lockedOut _ h | taken _ h => h

def isCounted (tokenHash : String) : InviteFact → Bool
  | counted _ h => h = tokenHash
  | _ => false

def isLockedOut (tokenHash : String) : InviteFact → Bool
  | lockedOut _ h => h = tokenHash
  | _ => false

def isTaken (tokenHash : String) : InviteFact → Bool
  | taken _ h => h = tokenHash
  | _ => false

end InviteFact

/-- The rows of invites, and the log. -/
structure InviteStore where
  /-- `pk_invite:`, by the hash of the token. -/
  invites : Table String Invite
  /-- `pk_invite_id:`. -/
  inviteIds : Table String String
  /-- `pk_wrong:`, by the hash of the token. -/
  wrong : Table String ℕ
  log : List InviteFact

namespace InviteStore

def new : InviteStore := ⟨∅, ∅, ∅, []⟩

/-- The wrong claim codes counted against an invite that has some left. -/
def counted (s : InviteStore) (tokenHash : String) : ℕ :=
  s.log.countP (·.isCounted tokenHash)

/-- The wrong claim codes that invalidated an invite. -/
def lockouts (s : InviteStore) (tokenHash : String) : ℕ :=
  s.log.countP (·.isLockedOut tokenHash)

/-- The wrong claim codes that are answered as such. -/
def wrongCodes (s : InviteStore) (tokenHash : String) : ℕ :=
  s.counted tokenHash + s.lockouts tokenHash

/-- How often an invite was taken. -/
def takes (s : InviteStore) (tokenHash : String) : ℕ :=
  s.log.countP (·.isTaken tokenHash)

def stored (s : InviteStore) (tokenHash : String) : Bool :=
  (s.invites.lookup tokenHash).isSome

end InviteStore

/-- Why an invite is saved. -/
inductive Saving where
  | issue
  | rewrite
deriving DecidableEq, Repr

/-- Why an invite is taken. -/
inductive Taking where
  | consume
  | lockout
deriving DecidableEq, Repr

/-- The accesses of the store. -/
inductive InviteAccess where
  | get
  | putInvite (invite : Invite) (why : Saving)
  | putInviteId (inviteId tokenHash : String)
  | takeInvite (by' : ℕ) (tokenHash : String) (why : Taking)
  | removeInviteId (inviteId : String)
  | incrWrong (by' : ℕ) (tokenHash : String)
  | removeWrong (tokenHash : String)

/-- `incr_raw`: the counter after an increment. -/
def InviteStore.nextWrong (s : InviteStore) (tokenHash : String) : ℕ :=
  (s.wrong.lookup tokenHash).getD 0 + 1

/-- What is recorded of a take. -/
def InviteStore.takeFacts (s : InviteStore) (by' : ℕ) (tokenHash : String) (why : Taking) :
    List InviteFact :=
  (if s.stored tokenHash then [.taken by' tokenHash] else []) ++
    if why = .lockout then [.lockedOut by' tokenHash] else []

def InviteStore.perform : InviteAccess → InviteStore → InviteStore
  | .get, s => s
  | .putInvite invite why, s =>
      { s with
        invites := s.invites.insert invite.tokenHash invite
        log := if why = .issue then s.log ++ [.issued invite.tokenHash] else s.log }
  | .putInviteId inviteId tokenHash, s =>
      { s with inviteIds := s.inviteIds.insert inviteId tokenHash }
  | .takeInvite by' tokenHash why, s =>
      { s with
        invites := s.invites.erase tokenHash
        log := s.log ++ s.takeFacts by' tokenHash why }
  | .removeInviteId inviteId, s => { s with inviteIds := s.inviteIds.erase inviteId }
  | .incrWrong by' tokenHash, s =>
      { s with
        wrong := s.wrong.insert tokenHash (s.nextWrong tokenHash)
        log :=
          if s.nextWrong tokenHash < maxWrongCodes then s.log ++ [.counted by' tokenHash]
          else s.log }
  | .removeWrong tokenHash, s => { s with wrong := s.wrong.erase tokenHash }

instance : Access InviteStore InviteAccess := ⟨InviteStore.perform⟩

/-! ## What the handlers call -/

/-- The cryptography of the invites. -/
structure InviteLibs where
  /-- Hex SHA-256. -/
  hashToken : String → String
  hexDecode : String → Option (List UInt8)
  hexEncode : List UInt8 → String
  /-- Argon2id of a text under a salt, with its memory, passes and lanes. -/
  argon2 : String → List UInt8 → ℕ → ℕ → ℕ → Except String (List UInt8)

/-- The clock, and what is drawn at random. -/
structure InviteEnv where
  now : ℕ
  uuid : String
  token : String
  claimCode : String
  salt : List UInt8

/-- `ATTEMPT_LOCKS` of one process. -/
inductive InviteLock where
  | attempts (process : ℕ) (tokenHash : String)
deriving DecidableEq, Repr

inductive InviteError where
  | app (e : AppError)
  | inviteLapsed (msg : String)
  | roleNotAllowed (msg : String)
  | malformedRequest (msg : String)
deriving DecidableEq, Repr

abbrev InviteM := Atomic InviteStore InviteAccess InviteEnv InviteLock InviteError

/-! ## Claim codes -/

/-- The letters that are read as digits. -/
def readAsDigit (c : Char) : Char :=
  match c.toUpper with
  | 'O' => '0'
  | 'I' | 'L' => '1'
  | other => other

def normaliseClaimCode (code : String) : String :=
  String.ofList ((code.toList.filter fun c => !(c = '-' || c = ' ' || c = '\t')).map readAsDigit)

section

variable (L : InviteLibs)

def digest (code : String) (salt : List UInt8) (mKib t p : ℕ) : Except String (List UInt8) :=
  L.argon2 (normaliseClaimCode code) salt mKib t p

def hashClaimCode (code : String) (salt : List UInt8) : Except AppError ClaimHash :=
  match digest L code salt (19 * 1024) 2 1 with
  | .ok out => .ok ⟨L.hexEncode salt, 19 * 1024, 2, 1, L.hexEncode out⟩
  | .error e => .error (.internal s!"argon2: {e}")

def verifyClaimCode (hash : ClaimHash) (code : String) : Bool :=
  match L.hexDecode hash.salt, L.hexDecode hash.digest with
  | some salt, some expected =>
      match digest L code salt hash.mKib hash.t hash.p with
      | .ok got => got = expected
      | .error _ => false
  | _, _ => false

end

/-! ## The operations -/

def save (invite : Invite) (why : Saving) : InviteM Unit := do
  .call (.putInvite invite why) fun _ => ()
  .call (.putInviteId invite.inviteId invite.tokenHash) fun _ => ()

def byTokenHash (tokenHash : String) : InviteM (Option Invite) :=
  .call .get fun s => s.invites.lookup tokenHash

def byId (inviteId : String) : InviteM (Option Invite) := do
  match ← .call .get fun s => s.inviteIds.lookup inviteId with
  | none => return none
  | some tokenHash => byTokenHash tokenHash

/-- `take_locked`, by handler `me`. -/
def takeLocked (me : ℕ) (tokenHash : String) (why : Taking) : InviteM (Option Invite) := do
  let taken ← .call (.takeInvite me tokenHash why) fun s => s.invites.lookup tokenHash
  match taken with
  | none => return none
  | some invite =>
      .call (.removeInviteId invite.inviteId) fun _ => ()
      .call (.removeWrong tokenHash) fun _ => ()
      return some invite

def take (me process : ℕ) (tokenHash : String) : InviteM (Option Invite) :=
  .locked (.attempts process tokenHash) (takeLocked me tokenHash .consume)

/-- `update`: under the lock, once the invite was found. -/
def updateLocked (tokenHash : String) (change : Invite → Except InviteError Invite) :
    InviteM (Option Invite) := do
  match ← byTokenHash tokenHash with
  | none => return none
  | some found =>
      let invite ← .check (change found)
      save invite .rewrite
      return some invite

def update (process : ℕ) (inviteId : String) (change : Invite → Except InviteError Invite) :
    InviteM (Option Invite) := do
  match ← byId inviteId with
  | none => return none
  | some found =>
      .locked (.attempts process found.tokenHash) (updateLocked found.tokenHash change)

def revoke (me process : ℕ) (inviteId : String) : InviteM Bool := do
  match ← byId inviteId with
  | none => return false
  | some invite =>
      let taken ← take me process invite.tokenHash
      return taken.isSome

def openCeremony (process : ℕ) (tokenHash ceremony : String) : InviteM Unit :=
  .locked (.attempts process tokenHash) do
    match ← byTokenHash tokenHash with
    | none => .fail (.app (.notFound "invite not found"))
    | some invite => save { invite with ceremony := some ceremony } .rewrite

section

variable (L : InviteLibs)

def issue (req : InviteRequest) : InviteM IssuedInvite := do
  if req.purpose = .stepUp && req.role.isSome then
    .fail (.app (.validation "a step-up invite confers no role"))
  else
    let token ← .draw (·.token)
    let claimCode ← .draw (·.claimCode)
    let salt ← .draw (·.salt)
    let claim ← .check ((hashClaimCode L claimCode salt).mapError .app)
    let now ← .draw (·.now)
    let inviteId ← .draw (·.uuid)
    let invite : Invite := {
      inviteId
      tokenHash := L.hashToken token
      claim
      subject := req.subject
      purpose := req.purpose
      role := req.role
      deviceLabel := req.deviceLabel
      issuedBy := req.issuedBy
      createdAt := now
      expiresAt := saturatingAdd now (max req.ttlSecs 1)
      wrongCodes := 0
      ceremony := none }
    save invite .issue
    return ⟨invite, token, claimCode⟩

/-- The part of `redeem` that counts a wrong claim code. -/
def countWrong (me : ℕ) (invite : Invite) (tokenHash : String) : InviteM Redemption := do
  let wrongCodes ← .call (.incrWrong me tokenHash) fun s => s.nextWrong tokenHash
  if maxWrongCodes ≤ wrongCodes then
    let _ ← takeLocked me tokenHash .lockout
    return .tooManyAttempts
  else
    save { invite with wrongCodes := min wrongCodes u32Max } .rewrite
    return .invalid

/-- The part of `redeem` under the lock. -/
def redeemLocked (me : ℕ) (tokenHash claimCode : String) (now : ℕ) : InviteM Redemption := do
  let found ← byTokenHash tokenHash
  match found.filter fun i => !i.isExpired now with
  | none => return .invalid
  | some invite =>
      if verifyClaimCode L invite.claim claimCode then return .valid invite
      else countWrong me invite tokenHash

/-- `redeem`, by handler `me` of a process.  The work done for a token that is not stored
tells nothing, and is left out. -/
def redeem (me process : ℕ) (token claimCode : String) : InviteM Redemption := do
  let tokenHash := L.hashToken token
  let now ← .draw (·.now)
  let found ← byTokenHash tokenHash
  if found.any fun i => !i.isExpired now then
    .locked (.attempts process tokenHash) (redeemLocked L me tokenHash claimCode now)
  else return .invalid

/-! ## Requests -/

/-- What `invite_update` is asked for: a role, and an expiry that is given or put off. -/
structure InviteChange where
  role : Option String
  expiresAt : Option ℤ
  extendBy : Option ℕ
deriving DecidableEq, Repr

/-- `Role::from_str` accepts the text. -/
def isRole (text : String) : Bool :=
  text = "admin" || text = "owner" || text = "service"

/-- The role after an update. -/
def changeRole (i : Invite) : Option String → Except InviteError Invite
  | none => .ok i
  | some r =>
      if i.purpose = .stepUp then .error (.roleNotAllowed "a stepUp invite confers no role")
      else if isRole r then .ok { i with role := some r }
      else .error (.roleNotAllowed s!"`{r}` is not a role this service grants")

/-- The expiry after an update, which is at most `limit`. -/
def changeExpiry (i : Invite) (now limit : ℕ) : Option ℤ → Option ℕ → Except InviteError Invite
  | some t, _ =>
      if t.toNat ≤ now || limit < t.toNat then
        .error (.malformedRequest
          s!"expiresAt must lie in the future and within {limit - now}s of now")
      else .ok { i with expiresAt := t.toNat }
  | none, some secs => .ok { i with expiresAt := min (saturatingAdd now secs) limit }
  | none, none => .ok i

/-- The change of `invite_update`, where invites live for `ttl` seconds at most. -/
def inviteUpdate (ttl now : ℕ) (change : InviteChange) (i : Invite) :
    Except InviteError Invite := do
  if i.isExpired now then
    throw (.inviteLapsed "the invite has lapsed; issue a new one")
  else
    let i ← changeRole i change.role
    changeExpiry i now (saturatingAdd now (max ttl 1)) change.expiresAt change.extendBy

/-- What is asked of a process. -/
inductive InviteCall where
  | issue (req : InviteRequest)
  | redeem (token claimCode : String)
  | take (tokenHash : String)
  | update (inviteId : String) (change : InviteChange)
  | openCeremony (tokenHash ceremony : String)
  | revoke (inviteId : String)
deriving DecidableEq, Repr

inductive InviteAnswer where
  | issued (invite : IssuedInvite)
  | redemption (r : Redemption)
  | taken (invite : Option Invite)
  | updated (invite : Option Invite)
  | opened
  | revoked (found : Bool)
deriving DecidableEq, Repr

/-- Handler `me` of a process, whose invites live for `ttl` seconds at most. -/
def handleInvite (ttl me process : ℕ) : InviteCall → InviteM InviteAnswer
  | .issue req => do return .issued (← issue L req)
  | .redeem token claimCode => do return .redemption (← redeem L me process token claimCode)
  | .take tokenHash => do return .taken (← take me process tokenHash)
  | .update inviteId change => do
      let now ← .draw (·.now)
      return .updated (← update process inviteId (inviteUpdate ttl now change))
  | .openCeremony tokenHash ceremony => do
      openCeremony process tokenHash ceremony
      return .opened
  | .revoke inviteId => do return .revoked (← revoke me process inviteId)

end

end Auth

end DidHosting
