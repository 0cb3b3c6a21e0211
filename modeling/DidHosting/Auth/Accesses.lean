import DidHosting.Support.Confined
import DidHosting.Auth.Plane

/-!
# What requests write

Most requests write no credential, and every request that writes a session makes one of a
few changes to the copy it read.  This is seen from the accesses of the handlers alone,
whatever they read.
-/

namespace DidHosting

namespace Auth

/-! ## Sessions -/

/-- What a change of a session makes of a copy. -/
def SessionChange.Makes : SessionChange → Session → Session → Prop
  | .touched, old, session => ∃ now, session = { old with lastSeen := now }
  | .demoted, old, session => session = old.demoted
  | .finalized, old, session => ∃ tokens, session = old.finalized tokens
  | .elevated, old, session => ∃ tokenId refreshToken refreshExpiresAt amr acr,
      session = old.elevated tokenId refreshToken refreshExpiresAt amr acr
  | .refreshed, old, session => ∃ tokenId refreshToken refreshExpiresAt lastSeen,
      session = { old with
        tokenId := some tokenId
        refreshToken := some refreshToken
        refreshExpiresAt := some refreshExpiresAt
        lastSeen := lastSeen }
  | .clamped, old, session => ∃ m, session = old.clamped m
  | .steppedUp _, old, session => ∃ factor, session = old.steppedUp factor
  | .challenged, _, _ => False
  | .created, _, _ => False

/-- A session is written as a change of the copy, or as a new one. -/
def SessionAccess.Made : SessionAccess → Prop
  | .putSession (some old) session why => why.Makes old session
  | .putSession none _ why => why = .created
  | _ => True

section

variable {α : Type}

/-- A handler that writes sessions as they are made. -/
abbrev Makes (p : SessionM α) : Prop :=
  p.Only SessionAccess.Made fun _ => True

theorem makes_storeSession {copied : Option Session} {session : Session} {why : SessionChange}
    (h : SessionAccess.Made (.putSession copied session why)) :
    Makes (storeSession copied session why) :=
  Atomic.only_call_bind h fun _ => ⟨trivial, fun _ => trivial⟩

theorem makes_touchLastSeen (session : Session) (now : ℕ) : Makes (touchLastSeen session now) := by
  unfold touchLastSeen
  refine Atomic.only_ite trivial ?_
  refine Atomic.only_seq (makes_storeSession ⟨now, rfl⟩) ?_
  intro _
  trivial

theorem makes_removeRefreshOf (session : Session) : Makes (removeRefreshOf session) := by
  unfold removeRefreshOf
  cases session.refreshToken with
  | none => trivial
  | some token => exact ⟨trivial, fun _ => trivial⟩

theorem makes_deleteSession (sessionId : String) : Makes (deleteSession sessionId) := by
  unfold deleteSession
  refine Atomic.only_call_bind trivial ?_
  intro s
  cases s.sessions.lookup sessionId with
  | none => trivial
  | some session =>
      refine Atomic.only_seq (makes_removeRefreshOf session) ?_
      intro _
      exact ⟨trivial, fun _ => ⟨trivial, fun _ => trivial⟩⟩

theorem makes_demoteAll (subject : String) (ids : List String) (n : ℕ) :
    Makes (demoteAll subject ids n) := by
  induction ids generalizing n with
  | nil => trivial
  | cons id rest ih =>
      unfold demoteAll
      refine Atomic.only_call_bind trivial ?_
      intro s
      cases s.sessions.lookup id with
      | none => exact ih n
      | some session =>
          refine Atomic.only_ite ?_ (ih n)
          refine Atomic.only_seq (makes_storeSession rfl) ?_
          intro _
          exact ih (n + 1)

theorem makes_demote (subject : String) : Makes (demoteNonPasskeyStepUpSessions subject) :=
  Atomic.only_call_bind trivial fun s => makes_demoteAll subject (s.sessionsOf subject) 0

theorem makes_cleanupAll (now challengeTtl : ℕ) (entries : List (String × Session)) :
    Makes (cleanupAll now challengeTtl entries) := by
  induction entries with
  | nil => trivial
  | cons e rest ih =>
      obtain ⟨key, session⟩ := e
      unfold cleanupAll
      refine Atomic.only_ite ?_ ih
      refine Atomic.only_call_bind trivial ?_
      intro _
      refine Atomic.only_seq (makes_removeRefreshOf session) ?_
      intro _
      exact Atomic.only_call_bind trivial fun _ => ih

theorem makes_cleanup (challengeTtl : ℕ) : Makes (cleanupExpiredSessions challengeTtl) := by
  unfold cleanupExpiredSessions
  refine Atomic.only_call_bind trivial ?_
  intro s
  refine Atomic.only_draw_bind ?_
  intro env
  exact makes_cleanupAll _ _ _

section

variable (jwt : JwtKeys)

theorem makes_generateTokens (did sessionId : String) (role : Role)
    (accessExpiry refreshExpiry : ℕ) (override : Option (List String × String)) :
    Makes (generateTokens jwt did sessionId role accessExpiry refreshExpiry override) := by
  unfold generateTokens newClaims
  refine Atomic.only_seq ?_ ?_
  · exact Atomic.only_draw_bind fun _ => Atomic.only_draw_bind fun _ => trivial
  · intro base
    refine Atomic.only_seq (Atomic.only_check fun _ _ => trivial) ?_
    intro accessToken
    exact Atomic.only_draw_bind fun _ => Atomic.only_draw_bind fun _ => trivial

theorem makes_createAuthenticatedSession (did : String) (role : Role)
    (accessExpiry refreshExpiry : ℕ) (key : Option String)
    (override : Option (List String × String)) :
    Makes (createAuthenticatedSession jwt did role accessExpiry refreshExpiry key override) := by
  unfold createAuthenticatedSession
  refine Atomic.only_draw_bind ?_
  intro env
  refine Atomic.only_seq (makes_generateTokens jwt _ _ _ _ _ _) ?_
  intro tokens
  refine Atomic.only_draw_bind ?_
  intro env₁
  refine Atomic.only_draw_bind ?_
  intro env₂
  refine Atomic.only_seq (makes_storeSession rfl) ?_
  intro _
  exact ⟨trivial, fun _ => Atomic.only_draw_bind fun _ => trivial⟩

theorem makes_elevateSession (sessionId : String) (role : Role) (amr : List String) (acr : String)
    (accessExpiry refreshExpiry : ℕ) :
    Makes (elevateSession jwt sessionId role amr acr accessExpiry refreshExpiry) := by
  unfold elevateSession
  refine Atomic.only_call_bind trivial ?_
  intro s
  cases s.sessions.lookup sessionId with
  | none => trivial
  | some session =>
      refine Atomic.only_ite trivial ?_
      unfold newClaims
      refine Atomic.only_seq ?_ ?_
      · exact Atomic.only_draw_bind fun _ => Atomic.only_draw_bind fun _ => trivial
      · intro base
        refine Atomic.only_seq (Atomic.only_check fun _ _ => trivial) ?_
        intro accessToken
        refine Atomic.only_draw_bind ?_
        intro env
        refine Atomic.only_draw_bind ?_
        intro env₁
        refine Atomic.only_seq (makes_storeSession ⟨_, _, _, _, _, rfl⟩) ?_
        intro _
        exact ⟨trivial, fun _ => Atomic.only_draw_bind fun _ => trivial⟩

end

end

/-! ## Requests that write no credential -/

/-- The access writes no credential, and a session as it is made. -/
def AuthAccess.Plain : AuthAccess → Prop
  | .session o => o.Made
  | .credential _ .get => True
  | .credential _ _ => False
  | .persist .. => False
  | _ => True

/-- The access changes nothing. -/
def AuthAccess.Reads : AuthAccess → Prop
  | .get => True
  | .session .get => True
  | .credential _ .get => True
  | _ => False

/-- The access reads, or binds a challenge to a session. -/
def AuthAccess.StartsStepUp : AuthAccess → Prop
  | .putPending .. => True
  | o => o.Reads

/-- The answer tells of no credential that was enrolled or revoked. -/
def AuthAnswer.Plain : AuthAnswer → Prop
  | .enrolled .. => False
  | .revoked .. => False
  | _ => True

/-- A handler whose accesses are plain. -/
abbrev Plain {α : Type} (p : AuthM α) : Prop :=
  p.Only AuthAccess.Plain fun _ => True

/-- A handler that only reads. -/
abbrev Reading {α : Type} (p : AuthM α) : Prop :=
  p.Only AuthAccess.Reads fun _ => True

/-- A request with a plain answer, whose accesses are as `ok` says. -/
abbrev Answers (ok : AuthAccess → Prop) (p : AuthM AuthAnswer) : Prop :=
  p.Only ok AuthAnswer.Plain

section

variable {α β : Type}

theorem AuthAccess.Reads.plain {o : AuthAccess} (h : o.Reads) : o.Plain := by
  cases o with
  | get => trivial
  | session o =>
      cases o with
      | get => trivial
      | _ => exact False.elim h
  | credential purpose o =>
      cases o with
      | get => trivial
      | _ => exact False.elim h
  | _ => exact False.elim h

theorem plain_of_reading {p : AuthM α} (h : Reading p) : Plain p :=
  h.mono (fun _ ho => ho.plain) fun _ _ => trivial

theorem plain_onSessions {p : SessionM α} (h : Makes p) : Plain (onSessions p) :=
  Part.only_lift h fun _ ho => ho

theorem plain_onInvites (p : InviteM α) : Plain (onInvites p) :=
  Part.only_lift_part p fun _ => trivial

theorem reading_onCredentials {purpose : Purpose} {p : CredentialM α}
    (h : p.Only (· = .get) fun _ => True) : Reading (onCredentials purpose p) := by
  refine Part.only_lift h ?_
  rintro o rfl
  trivial

theorem reads_getPasskeyUserByDid (did : String) :
    (getPasskeyUserByDid did).Only (· = .get) fun _ => True := by
  unfold getPasskeyUserByDid
  refine Atomic.only_call_bind rfl ?_
  intro s
  cases s.dids.lookup did with
  | none => trivial
  | some userUuid => exact ⟨rfl, fun _ => trivial⟩

theorem reads_getPasskeyUserByCred (credId : String) :
    (getPasskeyUserByCred credId).Only (· = .get) fun _ => True := by
  unfold getPasskeyUserByCred
  refine Atomic.only_call_bind rfl ?_
  intro s
  cases s.creds.lookup credId with
  | none => trivial
  | some userUuid => exact ⟨rfl, fun _ => trivial⟩

theorem reading_userByDid (purpose : Purpose) (did : String) :
    Reading (onCredentials purpose (getPasskeyUserByDid did)) :=
  reading_onCredentials (reads_getPasskeyUserByDid did)

theorem plain_userByDid (purpose : Purpose) (did : String) :
    Plain (onCredentials purpose (getPasskeyUserByDid did)) :=
  plain_of_reading (reading_userByDid purpose did)

theorem plain_userByCred (purpose : Purpose) (credId : String) :
    Plain (onCredentials purpose (getPasskeyUserByCred credId)) :=
  plain_of_reading (reading_onCredentials (reads_getPasskeyUserByCred credId))

theorem reading_getSession (sessionId : String) : Reading (onSessions (getSession sessionId)) :=
  ⟨trivial, fun _ => trivial⟩

theorem plain_getSession (sessionId : String) : Plain (onSessions (getSession sessionId)) :=
  plain_of_reading (reading_getSession sessionId)

theorem reading_check {x : Except TaskError α} : Reading (.check x : AuthM α) :=
  Atomic.only_check fun _ _ => trivial

theorem plain_check {x : Except TaskError α} : Plain (.check x : AuthM α) :=
  plain_of_reading reading_check

end

theorem only_callerOf (cx : Cx) : cx.callerOf.Only (fun _ => False) fun _ => True := by
  unfold Cx.callerOf
  cases cx.caller with
  | none => trivial
  | some did => trivial

theorem reading_callerOf (cx : Cx) : Reading cx.callerOf :=
  (only_callerOf cx).mono (fun _ ho => False.elim ho) fun _ _ => trivial

theorem plain_callerOf (cx : Cx) : Plain cx.callerOf :=
  plain_of_reading (reading_callerOf cx)

theorem reading_checkAcl (did : String) : Reading (checkAcl did) := by
  unfold checkAcl
  refine Atomic.only_ite trivial ?_
  refine Atomic.only_call_bind trivial ?_
  intro s
  cases s.acl.lookup did with
  | none => trivial
  | some entry => trivial

theorem plain_checkAcl (did : String) : Plain (checkAcl did) :=
  plain_of_reading (reading_checkAcl did)

theorem plain_auth (cx : Cx) : Plain cx.auth := by
  unfold Cx.auth
  refine Atomic.only_seq (plain_callerOf cx) ?_
  intro did
  refine Atomic.only_seq (Atomic.only_attempt (plain_checkAcl did) fun _ => trivial) ?_
  intro found
  cases found with
  | error e => trivial
  | ok role =>
      cases cx.bearer with
      | none => trivial
      | some bearer =>
          exact Atomic.only_ite trivial trivial

theorem plain_holdsCredential (purpose : Purpose) (did : String) :
    Plain (holdsCredential purpose did) := by
  unfold holdsCredential
  refine Atomic.only_seq (plain_userByDid purpose did) ?_
  intro user
  trivial

section

variable (L : AuthLibs) (cfg : AuthConfig)

theorem plain_effectiveAcr (session : Session) (claims : Claims) (now : ℕ) :
    Plain (effectiveAcr session claims now) := by
  unfold effectiveAcr
  refine Atomic.only_ite (Atomic.only_ite trivial ?_) trivial
  refine Atomic.only_seq (plain_holdsCredential .stepUp session.did) ?_
  intro holds
  trivial

theorem plain_fromRequestParts (token : Option String) : Plain (fromRequestParts cfg token) := by
  unfold fromRequestParts
  cases token with
  | none => trivial
  | some token =>
      cases cfg.jwtKeys with
      | none => trivial
      | some jwt =>
          refine Atomic.only_seq plain_check ?_
          intro claims
          refine Atomic.only_seq (plain_getSession claims.sessionId) ?_
          intro found
          cases found with
          | none => trivial
          | some session =>
              refine Atomic.only_ite trivial ?_
              refine Atomic.only_ite trivial ?_
              refine Atomic.only_seq plain_check ?_
              intro role
              refine Atomic.only_draw_bind ?_
              intro env
              refine Atomic.only_seq (plain_effectiveAcr session claims env.now) ?_
              intro acr
              refine Atomic.only_seq
                (plain_onSessions (makes_touchLastSeen session env.now)) ?_
              intro _
              trivial

theorem plain_revokeSession (cx : Cx) (p : RevokeSession) : Plain (revokeSession cx p) := by
  unfold revokeSession
  refine Atomic.only_seq (plain_callerOf cx) ?_
  intro caller
  refine Atomic.only_ite trivial ?_
  cases p.sessionId with
  | none => trivial
  | some sessionId =>
      refine Atomic.only_ite trivial ?_
      refine Atomic.only_seq (plain_getSession sessionId) ?_
      intro found
      cases found with
      | none => trivial
      | some session =>
          refine Atomic.only_ite trivial ?_
          refine Atomic.only_seq (plain_onSessions (makes_deleteSession sessionId)) ?_
          intro _
          exact ⟨trivial, fun _ => trivial⟩

theorem AuthAccess.Reads.starts {o : AuthAccess} (h : o.Reads) : o.StartsStepUp := by
  cases o with
  | putPending sessionId pending => trivial
  | _ => exact h

theorem starts_of_reading {α : Type} {p : AuthM α} (h : Reading p) :
    p.Only AuthAccess.StartsStepUp fun _ => True :=
  h.mono (fun _ ho => ho.starts) fun _ _ => trivial

/-- A request for a step-up reads, and binds its challenge at the end. -/
theorem starts_stepUpStart (cx : Cx) (p : StepUpStart) :
    (stepUpStart L cfg cx p).Only AuthAccess.StartsStepUp fun _ => True := by
  unfold stepUpStart
  refine Atomic.only_seq (starts_of_reading (reading_callerOf cx)) ?_
  intro caller
  refine Atomic.only_seq (starts_of_reading (reading_getSession p.sessionId)) ?_
  intro found
  cases found with
  | none => trivial
  | some session =>
      refine Atomic.only_ite trivial ?_
      refine Atomic.only_ite trivial ?_
      refine Atomic.only_ite trivial ?_
      refine Atomic.only_draw_bind ?_
      intro env
      refine Atomic.only_seq (starts_of_reading (reading_userByDid .stepUp session.did)) ?_
      intro user
      refine Atomic.only_draw_bind ?_
      intro env₁
      refine Atomic.only_seq (starts_of_reading reading_check) ?_
      intro gate
      cases cfg.serverDid with
      | none => trivial
      | some myVid =>
          refine Atomic.only_seq (starts_of_reading reading_check) ?_
          intro signed
          exact ⟨trivial, fun _ => trivial⟩

theorem plain_stepUpStart (cx : Cx) (p : StepUpStart) : Plain (stepUpStart L cfg cx p) := by
  apply (starts_stepUpStart L cfg cx p).mono
  · intro o ho
    cases o with
    | putPending sessionId pending => trivial
    | _ => exact AuthAccess.Reads.plain ho
  · exact fun _ _ => trivial

theorem plain_claimStepUp (p : ApproveResponse) (sessionId : String) :
    Plain (claimStepUp p sessionId) := by
  unfold claimStepUp
  refine Atomic.only_call_bind trivial ?_
  intro s
  cases s.pendingStepUps.lookup sessionId with
  | none => trivial
  | some peeked =>
      refine Atomic.only_ite trivial ?_
      refine Atomic.only_call_bind trivial ?_
      intro t
      cases t.pendingStepUps.lookup sessionId with
      | none => trivial
      | some pending =>
          exact Atomic.only_ite trivial trivial

theorem plain_finishAssertion (assertion : Json) (state : PasskeyAuthentication)
    (code : String) : Plain (finishAssertion L assertion state code) := by
  unfold finishAssertion
  refine Atomic.only_seq plain_check ?_
  intro credential
  exact plain_check

theorem plain_elevate (p : ApproveResponse) (pending : PendingStepUp) (sessionId : String) :
    Plain (elevate p pending sessionId) := by
  unfold elevate
  refine Atomic.only_seq (plain_holdsCredential .stepUp pending.subject) ?_
  intro holds
  refine Atomic.only_ite trivial ?_
  cases p.grantedAcr.filter (· ≠ stepUpAcr) with
  | some granted => trivial
  | none =>
      refine Atomic.only_seq (plain_getSession sessionId) ?_
      intro found
      cases found.filter fun s => s.state = .authenticated && s.did = pending.subject with
      | none => trivial
      | some session =>
          refine Atomic.only_seq (plain_checkAcl session.did) ?_
          intro _
          refine Atomic.only_seq (plain_onSessions (makes_storeSession ⟨_, rfl⟩)) ?_
          intro _
          trivial

/-- What a response to a step-up comes to once its evidence was checked. -/
def ApproveResponse.decided (p : ApproveResponse) (pending : PendingStepUp) (sessionId : String) :
    AuthM AuthAnswer :=
  match p.decision with
  | .denied => return .recorded
  | .other => refuseWith (.validation "unsupported decision")
  | .approved => return .elevated (← elevate p pending sessionId)

theorem plain_requireWebauthn : Plain (requireWebauthn cfg) := by
  unfold requireWebauthn
  cases cfg.hasWebauthn with
  | true => trivial
  | false => trivial

theorem plain_loginCredentials (subject : Option String) : Plain (loginCredentials subject) := by
  unfold loginCredentials
  cases subject with
  | none =>
      refine Atomic.only_call_bind trivial ?_
      intro s
      exact Atomic.only_ite trivial trivial
  | some did =>
      refine Atomic.only_seq (plain_userByDid .session did) ?_
      intro found
      cases found with
      | none => trivial
      | some user =>
          exact Atomic.only_ite trivial trivial

theorem plain_loginStart (p : LoginStart) : Answers AuthAccess.Plain (loginStart L cfg p) := by
  unfold loginStart
  refine Atomic.only_seq (plain_requireWebauthn cfg) ?_
  intro _
  refine Atomic.only_seq (plain_loginCredentials p.subject) ?_
  intro passkeys
  refine Atomic.only_draw_bind ?_
  intro env
  refine Atomic.only_seq plain_check ?_
  intro started
  refine Atomic.only_draw_bind ?_
  intro env₁
  refine Atomic.only_call_bind trivial ?_
  intro _
  refine Atomic.only_draw_bind ?_
  intro env₂
  exact ⟨trivial, fun _ => trivial⟩

theorem plain_claimLogin (authId : String) : Plain (claimLogin authId) := by
  unfold claimLogin
  refine Atomic.only_call_bind trivial ?_
  intro s
  cases s.loginMeta.lookup authId with
  | none => trivial
  | some m =>
      refine Atomic.only_call_bind trivial ?_
      intro t
      cases t.authStates.lookup authId with
      | none => trivial
      | some state => trivial

theorem plain_loginStepUp (cx : Cx) (user : PasskeyUser) : Plain (loginStepUp cx user) := by
  unfold loginStepUp
  refine Atomic.only_seq (plain_callerOf cx) ?_
  intro caller
  cases cx.bearer.filter fun b => b.did = caller && b.did = user.did with
  | none => trivial
  | some bearer =>
      refine Atomic.only_seq (plain_getSession bearer.sessionId) ?_
      intro found
      cases found.filter fun s => s.state = .authenticated with
      | none => trivial
      | some session =>
          refine Atomic.only_seq (plain_onSessions (makes_storeSession ⟨_, rfl⟩)) ?_
          intro _
          trivial

theorem plain_openLogin (cx : Cx) (user : PasskeyUser) (role : Role) :
    Plain (openLogin cfg cx user role) := by
  unfold openLogin
  refine Atomic.only_seq (plain_callerOf cx) ?_
  intro caller
  cases ed25519Key caller with
  | none => trivial
  | some key =>
      cases cfg.jwtKeys with
      | none => trivial
      | some jwt => exact plain_onSessions (makes_createAuthenticatedSession jwt _ _ _ _ _ _)

/-! ## Refresh and out-of-band sign-in -/

variable (canon : CanonicalHandlers)

theorem only_backendRefresh {ok : AuthAccess → Prop} (hplain : ∀ o, o.Plain → ok o)
    (hrefresh : ∀ acl input,
      (deniedSessions (canon.handleRefresh acl input)).Only ok fun _ => True)
    (input : RefreshInput) : (backendRefresh canon cfg input).Only ok fun _ => True := by
  unfold backendRefresh
  cases cfg.jwtKeys with
  | none => trivial
  | some jwt =>
      refine Atomic.only_call_bind (hplain .get trivial) ?_
      intro s
      exact hrefresh s.acl input

theorem only_refreshV1 {ok : AuthAccess → Prop} (hplain : ∀ o, o.Plain → ok o)
    (hrefresh : ∀ acl input,
      (deniedSessions (canon.handleRefresh acl input)).Only ok fun _ => True)
    (doc : RefreshDoc) : (refreshV1 canon cfg doc).Only ok fun _ => True := by
  unfold refreshV1
  cases doc.issuer with
  | none => trivial
  | some signerDid => exact only_backendRefresh cfg canon hplain hrefresh _

theorem plain_refreshChecks (doc : RefreshDoc) (sessionId : String) (session : Session) :
    Plain (refreshChecks cfg doc sessionId session) := by
  unfold refreshChecks
  refine Atomic.only_draw_bind ?_
  intro env
  refine Atomic.only_ite trivial ?_
  refine Atomic.only_ite trivial ?_
  refine Atomic.only_call_bind trivial ?_
  intro s
  cases s.proxyMeta.lookup sessionId with
  | none => trivial
  | some m =>
      exact Atomic.only_ite trivial trivial

theorem plain_refreshPeek (doc : RefreshDoc) : Plain (refreshPeek cfg doc) := by
  unfold refreshPeek
  refine Atomic.only_seq (plain_onSessions ⟨trivial, fun _ => trivial⟩) ?_
  intro found
  cases found with
  | none => trivial
  | some sessionId =>
      refine Atomic.only_seq (plain_getSession sessionId) ?_
      intro found
      cases found with
      | none => trivial
      | some session => exact plain_refreshChecks cfg doc sessionId session

theorem plain_refreshClamp (sessionId : String) : Plain (refreshClamp sessionId) := by
  unfold refreshClamp
  refine Atomic.only_call_bind trivial ?_
  intro s
  cases s.proxyMeta.lookup sessionId with
  | none => trivial
  | some m =>
      refine Atomic.only_seq (plain_getSession sessionId) ?_
      intro found
      cases found with
      | none => trivial
      | some session =>
          exact Atomic.only_ite (plain_onSessions (makes_storeSession ⟨m, rfl⟩)) trivial

theorem only_refreshV2 {ok : AuthAccess → Prop} (hplain : ∀ o, o.Plain → ok o)
    (hrefresh : ∀ acl input,
      (deniedSessions (canon.handleRefresh acl input)).Only ok fun _ => True)
    (doc : RefreshDoc) : (refreshV2 canon cfg doc).Only ok fun _ => True := by
  unfold refreshV2
  refine Atomic.only_seq ((plain_refreshPeek cfg doc).mono hplain fun _ _ => trivial) ?_
  intro boundKeyVerified
  refine Atomic.only_seq (only_backendRefresh cfg canon hplain hrefresh _) ?_
  intro sessionId
  refine Atomic.only_seq ((plain_refreshClamp sessionId).mono hplain fun _ _ => trivial) ?_
  intro _
  trivial

theorem plain_oobCreateSession (approved : ApprovedSession) :
    Plain (oobCreateSession cfg approved) := by
  unfold oobCreateSession
  refine Atomic.only_seq (plain_checkAcl approved.subject) ?_
  intro role
  cases cfg.jwtKeys with
  | none => trivial
  | some jwt =>
      cases Text.stripPrefix "did:key:" approved.sessionKey with
      | none => trivial
      | some multikey =>
          refine Atomic.only_draw_bind ?_
          intro env
          refine Atomic.only_seq
            (plain_onSessions (makes_createAuthenticatedSession jwt _ _ _ _ _ _)) ?_
          intro tokens
          exact ⟨trivial, fun _ => trivial⟩

/-! ## Enrolment and revocation -/

theorem plain_openEnrolment (subject : String) (purpose : Purpose) (origin : CeremonyOrigin)
    (deviceLabel : Option String) :
    Plain (openEnrolment L cfg subject purpose origin deviceLabel) := by
  unfold openEnrolment
  refine Atomic.only_seq (plain_requireWebauthn cfg) ?_
  intro _
  refine Atomic.only_seq (plain_userByDid purpose subject) ?_
  intro found
  refine Atomic.only_draw_bind ?_
  intro env
  refine Atomic.only_draw_bind ?_
  intro env₁
  refine Atomic.only_seq plain_check ?_
  intro registration
  refine Atomic.only_draw_bind ?_
  intro env₂
  refine Atomic.only_seq plain_check ?_
  intro userVerification
  refine Atomic.only_draw_bind ?_
  intro env₃
  refine Atomic.only_draw_bind ?_
  intro env₄
  exact ⟨trivial, fun _ => trivial⟩

theorem plain_enrolStart (cx : Cx) (deviceLabel : Option String) :
    Answers AuthAccess.Plain (enrolStart L cfg cx deviceLabel) := by
  unfold enrolStart
  refine Atomic.only_seq (plain_auth cx) ?_
  intro auth
  refine Atomic.only_ite trivial ?_
  refine Atomic.only_seq (plain_userByDid .session auth.did) ?_
  intro found
  refine Atomic.only_ite trivial ?_
  refine Atomic.only_seq (plain_openEnrolment L cfg _ _ _ _) ?_
  intro ceremony
  trivial

theorem plain_redeemStart (process : ℕ) (invite : Invite) :
    Answers AuthAccess.Plain (redeemStart L cfg process invite) := by
  unfold redeemStart
  refine Atomic.only_seq (plain_openEnrolment L cfg _ _ _ _) ?_
  intro ceremony
  refine Atomic.only_seq (Atomic.only_attempt (plain_onInvites _) fun _ => trivial) ?_
  intro opened
  cases opened with
  | error e => trivial
  | ok _ => trivial

theorem plain_claimEnrolment (enrollmentId msg : String) :
    Plain (claimEnrolment enrollmentId msg) := by
  unfold claimEnrolment
  refine Atomic.only_call_bind trivial ?_
  intro s
  cases s.enrolments.lookup enrollmentId with
  | none => trivial
  | some ceremony => trivial

theorem plain_invitedEntry (ceremony : Ceremony) (role : Option String) :
    Plain (invitedEntry ceremony role) := by
  unfold invitedEntry
  cases ceremony.purpose with
  | stepUp => trivial
  | session =>
      cases role with
      | none => trivial
      | some role =>
          refine Atomic.only_call_bind trivial ?_
          intro s
          cases s.acl.lookup ceremony.subject with
          | some entry => trivial
          | none =>
              refine Atomic.only_seq plain_check ?_
              intro role
              trivial

theorem plain_findCredential (subject credHex : String) :
    Plain (findCredential subject credHex) := by
  unfold findCredential
  refine Atomic.only_seq (plain_userByDid .session subject) ?_
  intro login
  cases login.filter fun u => u.credIds.contains credHex with
  | some user => trivial
  | none =>
      refine Atomic.only_seq (plain_userByDid .stepUp subject) ?_
      intro stepUp
      cases stepUp.filter fun u => u.credIds.contains credHex with
      | some user => trivial
      | none => trivial

theorem plain_revokeStart (cx : Cx) (p : RevokeStart) :
    Answers AuthAccess.Plain (revokeStart L cfg cx p) := by
  unfold revokeStart
  refine Atomic.only_seq (plain_auth cx) ?_
  intro auth
  refine Atomic.only_seq (plain_requireWebauthn cfg) ?_
  intro _
  refine Atomic.only_ite trivial ?_
  cases p.credHex with
  | none => trivial
  | some credHex =>
      refine Atomic.only_seq (plain_findCredential (p.subject.getD auth.did) credHex) ?_
      intro found
      cases found with
      | none => trivial
      | some found =>
          obtain ⟨purpose, user⟩ := found
          refine Atomic.only_ite trivial ?_
          refine Atomic.only_seq (plain_userByDid .session auth.did) ?_
          intro producer
          cases producer.filter fun u => !u.credentials.isEmpty with
          | none => trivial
          | some producer =>
              refine Atomic.only_draw_bind ?_
              intro env
              refine Atomic.only_seq plain_check ?_
              intro started
              refine Atomic.only_draw_bind ?_
              intro env₁
              refine Atomic.only_draw_bind ?_
              intro env₂
              exact ⟨trivial, fun _ => trivial⟩

theorem plain_claimRevocation (did revocationId : String) :
    Plain (claimRevocation did revocationId) := by
  unfold claimRevocation
  refine Atomic.only_call_bind trivial ?_
  intro s
  refine Atomic.only_ite ?_ trivial
  refine Atomic.only_call_bind trivial ?_
  intro t
  cases (t.revocations.lookup revocationId).filter fun c => c.producer = did with
  | none => trivial
  | some ceremony => trivial

theorem plain_checkStanding (ceremony : RevocationCeremony) (did : String) :
    Plain (checkStanding ceremony did) := by
  unfold checkStanding
  refine Atomic.only_ite ?_ trivial
  refine Atomic.only_seq (plain_checkAcl did) ?_
  intro role
  exact Atomic.only_ite trivial trivial

theorem plain_redeemInvite (A : Plane) (me process : ℕ) (token claimCode : String) :
    Answers AuthAccess.Plain (redeemInvite A me process token claimCode) := by
  unfold redeemInvite
  refine Atomic.only_seq (plain_requireWebauthn A.cfg) ?_
  intro _
  refine Atomic.only_seq (plain_onInvites _) ?_
  intro redeemed
  cases redeemed with
  | invalid => trivial
  | tooManyAttempts => trivial
  | valid invite => exact plain_redeemStart A.libs A.cfg process invite

theorem plain_elevateCall (A : Plane) (sessionId : String) (role : Role) (amr : List String)
    (acr : String) : Answers AuthAccess.Plain (elevateCall A sessionId role amr acr) := by
  unfold elevateCall
  cases A.cfg.jwtKeys with
  | none => trivial
  | some jwt =>
      refine Atomic.only_seq (plain_onSessions (makes_elevateSession jwt _ _ _ _ _ _)) ?_
      intro tokens
      trivial

/-- The requests that write credentials. -/
def AuthCall.writesCredentials : AuthCall → Bool
  | .approveResponse .. => true
  | .loginFinish .. => true
  | .enrolFinish .. => true
  | .redeemFinish .. => true
  | .revokeFinish .. => true
  | _ => false

/-- Every other request makes plain accesses, and those of the canonical handlers. -/
theorem only_handle {A : Plane} {ok : AuthAccess → Prop} (hplain : ∀ o, o.Plain → ok o)
    (hrefresh : ∀ acl input,
      (deniedSessions (A.canon.handleRefresh acl input)).Only ok fun _ => True)
    (me process : ℕ) {call : AuthCall} (hcall : call.writesCredentials = false) :
    Answers ok (handle A me process call) := by
  have hall : ∀ {p : AuthM AuthAnswer}, Answers AuthAccess.Plain p → Answers ok p := by
    intro p hp
    exact hp.mono hplain fun _ ha => ha
  cases call with
  | request token =>
      exact hall (Atomic.only_seq (plain_fromRequestParts A.cfg token) fun _ => trivial)
  | revokeSession cx p =>
      exact hall (Atomic.only_seq (plain_revokeSession cx p) fun _ => trivial)
  | stepUpStart cx p =>
      exact hall (Atomic.only_seq (plain_stepUpStart A.libs A.cfg cx p) fun _ => trivial)
  | approveResponse cx p => cases hcall
  | loginStart p => exact hall (plain_loginStart A.libs A.cfg p)
  | loginFinish cx p => cases hcall
  | refreshV1 doc =>
      exact Atomic.only_seq (only_refreshV1 A.cfg A.canon hplain hrefresh doc) fun _ => trivial
  | refreshV2 doc =>
      exact Atomic.only_seq (only_refreshV2 A.cfg A.canon hplain hrefresh doc) fun _ => trivial
  | enrolStart cx deviceLabel => exact hall (plain_enrolStart A.libs A.cfg cx deviceLabel)
  | enrolFinish cx p => cases hcall
  | invite call => exact hall (Atomic.only_seq (plain_onInvites _) fun _ => trivial)
  | redeemStart token claimCode => exact hall (plain_redeemInvite A me process token claimCode)
  | redeemFinish p => cases hcall
  | revokeStart cx p => exact hall (plain_revokeStart A.libs A.cfg cx p)
  | revokeFinish cx p => cases hcall
  | oobSession approved =>
      exact hall (Atomic.only_seq (plain_oobCreateSession A.cfg approved) fun _ => trivial)
  | elevate sessionId role amr acr => exact hall (plain_elevateCall A sessionId role amr acr)
  | demote subject =>
      exact hall (Atomic.only_seq (plain_onSessions (makes_demote subject)) fun _ => trivial)
  | cleanup challengeTtl =>
      exact hall (Atomic.only_seq (plain_onSessions (makes_cleanup challengeTtl)) fun _ => trivial)

end

end Auth

end DidHosting
