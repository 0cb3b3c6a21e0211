import DidHosting.Auth.Accesses
import DidHosting.Auth.CredentialRows
import DidHosting.Auth.Lockout
import DidHosting.Auth.Lockstep

/-!
# Credentials under interleaving

The requests that write credentials read a whole record, wait, and write it back whole.
The rows keep together in every run in which a record is written from a current copy: a
login records the use of a credential without the lock of the subject's credentials, and
may write back what a revocation or an enrolment has changed in between.
-/

namespace DidHosting

namespace Auth

/-! ## Records as they are written -/

section

variable (L : AuthLibs) (user : PasskeyUser) (result : AuthenticationResult)

theorem updated_credIds : (user.updated L result).credIds = user.credIds := by
  change (user.credentials.map _).map _ = user.credentials.map _
  rw [List.map_map]
  apply List.map_congr_left
  intro c _
  change (if c.credId = result.credId then _ else c : Passkey).credId = c.credId
  by_cases hsame : c.credId = result.credId
  · rw [if_pos hsame]
  · rw [if_neg hsame]

theorem rewrites_updated :
    CredentialStore.Rewrites user (user.updated L result) user.credIds :=
  ⟨rfl, rfl, updated_credIds L user result⟩

theorem rewrites_without (c : String) :
    CredentialStore.Rewrites user (user.without c) (user.credIds.filter (· ≠ c)) := by
  refine ⟨rfl, rfl, ?_⟩
  change (user.credentials.filter _).map _ = (user.credentials.map _).filter _
  rw [List.filter_map]
  rfl

end

theorem verifyUv_rewrites {L : AuthLibs} {state : PasskeyAuthentication} {user user' : PasskeyUser}
    {uv : Json} (h : verifyUv L state user uv = .ok user') :
    CredentialStore.Rewrites user user' user.credIds := by
  unfold verifyUv at h
  obtain ⟨credential, -, h⟩ := bind_eq_ok h
  obtain ⟨result, -, h⟩ := bind_eq_ok h
  by_cases hverified : (!result.userVerified) = true
  · rw [if_pos hverified] at h
    cases h
  · rw [if_neg hverified] at h
    by_cases hlisted : (!user.credIds.contains result.credId) = true
    · rw [if_pos hlisted] at h
      cases h
    · rw [if_neg hlisted] at h
      cases h
      exact rewrites_updated L user result

/-- What an enrolment verified is the record that was read, with one more credential. -/
theorem verify_rewrites {L : AuthLibs} {ceremony : Ceremony} {existing : Option PasskeyUser}
    {uv : Option Json} {attestation : Json} {passkey : Passkey} {user : PasskeyUser}
    (h : verify L ceremony existing uv attestation = .ok (passkey, user)) :
    CredentialStore.Rewrites (existing.getD (.new ceremony.userUuid ceremony.subject)) user
      ((existing.getD (.new ceremony.userUuid ceremony.subject)).credIds ++ [passkey.credId]) := by
  unfold verify at h
  obtain ⟨u, hu, h⟩ := bind_eq_ok h
  obtain ⟨credential, -, h⟩ := bind_eq_ok h
  obtain ⟨made, -, h⟩ := bind_eq_ok h
  cases h
  have hmade : CredentialStore.Rewrites (existing.getD (.new ceremony.userUuid ceremony.subject)) u
      (existing.getD (.new ceremony.userUuid ceremony.subject)).credIds := by
    cases hstate : ceremony.userVerification with
    | none =>
        cases uv with
        | none =>
            simp only [hstate] at hu
            cases hu
            exact ⟨rfl, rfl, rfl⟩
        | some uv =>
            simp only [hstate] at hu
            cases hu
    | some state =>
        cases uv with
        | none =>
            simp only [hstate] at hu
            cases hu
        | some uv =>
            simp only [hstate] at hu
            cases hverified : verifyUv L state
                (existing.getD (.new ceremony.userUuid ceremony.subject)) uv with
            | error e =>
                rw [hverified] at hu
                cases hu
            | ok u' =>
                rw [hverified] at hu
                cases hu
                exact verifyUv_rewrites hverified
  refine ⟨hmade.userUuid, hmade.did, ?_⟩
  change (u.credentials ++ [passkey]).map _ = _
  rw [List.map_append, ← hmade.credIds]
  rfl

theorem wellMade_bound {L : AuthLibs} {ceremony : Ceremony} {existing : Option PasskeyUser}
    {uv : Option Json} {attestation : Json} {passkey : Passkey} {user : PasskeyUser}
    (h : verify L ceremony existing uv attestation = .ok (passkey, user))
    (label : Option String) (now : ℕ) :
    CredentialStore.WellMade
      (.bind existing (user.bound passkey.credId label now) passkey.credId) := by
  have hmade := verify_rewrites h
  cases existing with
  | none => exact hmade.credIds
  | some old => exact ⟨hmade.userUuid, hmade.did, hmade.credIds⟩

/-! ## Writes of credentials -/

section

variable {s : CredentialStore} {user copied : PasskeyUser} {c : String}

theorem safe_storePasskeyUser
    (hmade : CredentialStore.Rewrites copied user copied.credIds) :
    (storePasskeyUser copied user .used).Safe CredentialStore.protocol (fun _ _ => True)
      (fun _ _ => True) s := by
  unfold storePasskeyUser
  refine Atomic.safe_bind ?_
  intro t _ hinv hcurrent
  obtain ⟨hkept, hgrows⟩ := CredentialStore.kept_used hinv hcurrent hmade
  refine ⟨hkept, hgrows, ?_⟩
  -- the DID row is written for a record that stays with its DID
  intro v hlater hinv' _
  have hstored : (t.perform (.putUser copied user .used)).users.lookup user.userUuid = some user := by
    change (t.users.insert user.userUuid user).lookup user.userUuid = some user
    rw [Table.lookup_insert_ite, if_pos rfl]
  obtain ⟨u, hu, hdid⟩ := hlater.users _ _ hstored
  obtain ⟨hkept', hgrows'⟩ := CredentialStore.kept_putUserDid hinv' hu hdid
  exact ⟨hkept', hgrows', trivial⟩

theorem safe_removeCredential (hlists : c ∈ user.credIds) :
    (removeCredential user c).Safe CredentialStore.protocol
      (fun _ t => .revoked c ∈ t.log) (fun _ _ => True) s := by
  unfold removeCredential
  refine Atomic.safe_bind ?_
  intro t _ hinv _
  obtain ⟨hkept, hgrows, hgone⟩ := CredentialStore.kept_removeCred hinv
  refine ⟨hkept, hgrows, ?_⟩
  unfold storePasskeyUser
  refine Atomic.safe_bind ?_
  intro v hlater hinv' hcurrent
  obtain ⟨hkept', hgrows'⟩ := CredentialStore.kept_revoked hinv' hcurrent hlists
    (rewrites_without user c) (hlater.gone c hgone)
  refine ⟨hkept', hgrows', ?_⟩
  have hlogged : CredentialFact.revoked c ∈
      (v.perform (.putUser user (user.without c) (.revoked c))).log :=
    List.mem_append_right _ List.mem_cons_self
  have hstored : (v.perform (.putUser user (user.without c) (.revoked c))).users.lookup
      (user.without c).userUuid = some (user.without c) := by
    change (v.users.insert (user.without c).userUuid (user.without c)).lookup
      (user.without c).userUuid = some (user.without c)
    rw [Table.lookup_insert_ite, if_pos rfl]
  intro w hlater' hinv'' _
  obtain ⟨u, hu, hdid⟩ := hlater'.users _ _ hstored
  obtain ⟨hkept'', hgrows''⟩ := CredentialStore.kept_putUserDid hinv'' hu hdid
  exact ⟨hkept'', hgrows'', hgrows''.log.subset (hlater'.log.subset hlogged)⟩

end

/-! ## The store of one purpose, in the whole store -/

section

variable (P : Purpose)

/-- What an access asks, where it concerns the purpose. -/
def credentialsMeet : AuthAccess → AuthStore → Prop
  | .credential purpose o, s => purpose = P → CredentialStore.Meets o (s.credentials P)
  | .persist purpose copied user c _, s =>
      purpose = P → CredentialStore.Meets (.bind copied user c) (s.credentials P)
  | _, _ => True

def credentialProtocol : Protocol AuthStore AuthAccess :=
  (credentialPart P).protocol CredentialStore.protocol (credentialsMeet P)

/-- The access writes nothing of the purpose. -/
def Quiet : AuthAccess → Prop
  | .credential _ .get => True
  | .credential purpose _ => purpose ≠ P
  | .persist purpose .. => purpose ≠ P
  | _ => True

variable {P}

theorem credentials_setCredentials (s : AuthStore) (purpose : Purpose) (c : CredentialStore) :
    (s.setCredentials purpose c).credentials P = if purpose = P then c else s.credentials P := by
  cases purpose <;> cases P <;> rfl

theorem credentials_persist (s : AuthStore) (purpose : Purpose) (copied : Option PasskeyUser)
    (user : PasskeyUser) (c : String) (entry : Option AclEntry) :
    (s.perform (.persist purpose copied user c entry)).credentials P =
      if purpose = P then (s.credentials P).perform (.bind copied user c)
      else s.credentials P := by
  have hset := credentials_setCredentials (P := P) s purpose
    ((s.credentials purpose).perform (.bind copied user c))
  have hentry : (s.perform (.persist purpose copied user c entry)).credentials P =
      (s.setCredentials purpose
        ((s.credentials purpose).perform (.bind copied user c))).credentials P := by
    cases entry <;> cases P <;> rfl
  rw [hentry, hset]
  by_cases hsame : purpose = P
  · subst hsame
    rfl
  · rw [if_neg hsame, if_neg hsame]

theorem credentials_quiet {o : AuthAccess} (h : Quiet P o) (s : AuthStore) :
    (s.perform o).credentials P = s.credentials P := by
  cases o with
  | credential purpose o =>
      change (s.setCredentials purpose ((s.credentials purpose).perform o)).credentials P = _
      rw [credentials_setCredentials]
      by_cases hsame : purpose = P
      · rw [if_pos hsame]
        cases o with
        | get => rw [hsame]; rfl
        | _ => exact absurd hsame h
      · rw [if_neg hsame]
  | persist purpose copied user c entry => rw [credentials_persist, if_neg h]
  | _ => cases P <;> rfl

theorem quiet_of_plain (o : AuthAccess) (h : o.Plain) : Quiet P o := by
  cases o with
  | credential purpose o =>
      cases o with
      | get => trivial
      | _ => exact h.elim
  | persist purpose copied user c entry => exact h.elim
  | _ => trivial

theorem keeps_of_credentials {o : AuthAccess} {s : AuthStore} {c : CredentialStore}
    (h : (s.perform o).credentials P = c) (hkept : c.Kept) (hgrows : (s.credentials P).Grows c) :
    (credentialProtocol P).Inv (Access.perform o s) ∧
      (credentialProtocol P).Grows s (Access.perform o s) := by
  subst h
  exact ⟨hkept, hgrows⟩

theorem quiet_keeps (o : AuthAccess) (s : AuthStore) (h : Quiet P o)
    (hinv : (credentialProtocol P).Inv s) (_ : (credentialProtocol P).Meets o s) :
    (credentialProtocol P).Inv (Access.perform o s) ∧
      (credentialProtocol P).Grows s (Access.perform o s) :=
  keeps_of_credentials (credentials_quiet h s) hinv (CredentialStore.Grows.refl _)

/-- A handler that keeps the rows of the purpose together. -/
abbrev Keeping (P : Purpose) {α : Type} (p : AuthM α) (Q : α → AuthStore → Prop)
    (s : AuthStore) : Prop :=
  p.Safe (credentialProtocol P) Q (fun _ _ => True) s

theorem keeping_quiet {α : Type} {p : AuthM α} {Q : α → Prop} (h : p.Only (Quiet P) Q)
    (s : AuthStore) : Keeping P p (fun a _ => Q a) s :=
  h.safe quiet_keeps s

/-- After plain accesses a handler goes on in some later store. -/
theorem keeping_plain_bind {α β : Type} {p : AuthM α} {f : α → AuthM β} {Q : α → Prop}
    {R : β → AuthStore → Prop} (h : p.Only AuthAccess.Plain Q) {s : AuthStore}
    (hf : ∀ a t, Q a → Keeping P (f a) R t) : Keeping P (p >>= f) R s :=
  (h.mono quiet_of_plain fun _ ha => ha).safe_bind quiet_keeps hf

section

variable {s : AuthStore} {purpose : Purpose} {user copied : PasskeyUser} {c : String}

theorem quiet_onCredentials {α : Type} (h : purpose ≠ P) (p : CredentialM α) :
    (onCredentials purpose p).Only (Quiet P) fun _ => True := by
  refine Part.only_lift_part p ?_
  intro o
  cases o with
  | get => trivial
  | _ => exact h

/-- A handler on credentials that is safe on those of the purpose. -/
theorem keeping_onCredentials {α : Type} {p : CredentialM α} {Q : α → CredentialStore → Prop}
    (h : ∀ t, p.Safe CredentialStore.protocol Q (fun _ _ => True) t) :
    Keeping P (onCredentials purpose p) (fun a t => purpose = P → Q a (t.credentials P)) s := by
  by_cases hsame : purpose = P
  · subst hsame
    refine Part.safe_lift (h _) ?_ ?_ ?_
    · intro o t hmeets
      exact hmeets rfl
    · intro a t ha _
      exact ha
    · intro e t _
      trivial
  · refine (keeping_quiet (quiet_onCredentials hsame p) s).mono ?_ fun _ _ he => he
    intro a t _ heq
    exact absurd heq hsame

theorem keeping_used (hmade : CredentialStore.Rewrites copied user copied.credIds) :
    Keeping P (onCredentials purpose (storePasskeyUser copied user .used)) (fun _ _ => True) s :=
  (keeping_onCredentials fun _ => safe_storePasskeyUser hmade).mono (fun _ _ _ => trivial)
    fun _ _ he => he

theorem keeping_persist {existing : Option PasskeyUser} {passkey : Passkey}
    {label : Option String} {entry : Option AclEntry}
    (hmade : ∀ now, CredentialStore.WellMade
      (.bind existing (user.bound passkey.credId label now) passkey.credId)) :
    Keeping P (persist purpose existing user passkey label entry)
      (fun _ t => purpose = P → ∃ uuid, .enrolled uuid passkey.credId ∈ (t.credentials P).log)
      s := by
  unfold persist
  refine Atomic.safe_draw_bind ?_
  intro env t _ hinv hmeets
  by_cases hsame : purpose = P
  · have hcreds : (t.perform (.persist purpose existing (user.bound passkey.credId label env.now)
        passkey.credId entry)).credentials P = (t.credentials P).perform
          (.bind existing (user.bound passkey.credId label env.now) passkey.credId) := by
      rw [credentials_persist, if_pos hsame]
    obtain ⟨hkept, hgrows⟩ := CredentialStore.kept_bind hinv (hmeets hsame) (hmade env.now)
    obtain ⟨hinv', hgrows'⟩ := keeps_of_credentials hcreds hkept hgrows
    refine ⟨hinv', hgrows', ?_⟩
    intro _
    refine ⟨user.userUuid, ?_⟩
    change _ ∈ ((t.perform (.persist purpose existing (user.bound passkey.credId label env.now)
      passkey.credId entry)).credentials P).log
    rw [hcreds]
    exact List.mem_append_right _ List.mem_cons_self
  · have hquiet : Quiet P (.persist purpose existing
        (user.bound passkey.credId label env.now) passkey.credId entry) := hsame
    obtain ⟨hkept, hgrows⟩ := quiet_keeps _ t hquiet hinv hmeets
    exact ⟨hkept, hgrows, fun heq => absurd heq hsame⟩

end

/-! ## The requests -/

/-- An answer about a credential is in the log. -/
def Recorded (P : Purpose) : AuthAnswer → AuthStore → Prop
  | .enrolled purpose c _, s =>
      purpose = P → ∃ uuid, .enrolled uuid c ∈ (s.credentials P).log
  | .revoked purpose c _ _, s => purpose = P → .revoked c ∈ (s.credentials P).log
  | _, _ => True

theorem recorded_lasting (a : AuthAnswer) : (credentialProtocol P).Lasting (Recorded P a) := by
  intro s t hst h
  have hlog : (s.credentials P).log <+: (t.credentials P).log := hst.log
  cases a with
  | enrolled purpose c subject =>
      intro hsame
      obtain ⟨uuid, hmem⟩ := h hsame
      exact ⟨uuid, hlog.subset hmem⟩
  | revoked purpose c subject remaining =>
      intro hsame
      exact hlog.subset (h hsame)
  | _ => trivial

theorem recorded_of_plain {a : AuthAnswer} (h : a.Plain) (s : AuthStore) : Recorded P a s := by
  cases a with
  | enrolled purpose c subject => exact h.elim
  | revoked purpose c subject remaining => exact h.elim
  | _ => trivial

section

variable {L : AuthLibs} {cfg : AuthConfig} {s : AuthStore}

theorem keeping_recordStepUpUse (subject : String) (result : AuthenticationResult) :
    Keeping P (recordStepUpUse L subject result) (fun _ _ => True) s := by
  unfold recordStepUpUse
  refine keeping_plain_bind (plain_userByCred .stepUp result.credId) ?_
  intro user t _
  cases user.filter fun u => u.did = subject with
  | none => trivial
  | some user => exact keeping_used (rewrites_updated L user result)

theorem keeping_verifyStepUp (process : ℕ) (pending : PendingStepUp) (assertion : Json) :
    Keeping P (verifyStepUp L cfg process pending assertion) (fun _ _ => True) s := by
  unfold verifyStepUp
  cases pending.webauthn with
  | none => trivial
  | some state =>
      by_cases hwebauthn : (!cfg.hasWebauthn) = true
      · simp only [if_pos hwebauthn]
        trivial
      · simp only [if_neg hwebauthn]
        refine keeping_plain_bind (plain_finishAssertion L assertion state _) ?_
        intro result t _
        by_cases hverified : (!result.userVerified) = true
        · rw [if_pos hverified]
          trivial
        · rw [if_neg hverified]
          exact Atomic.safe_locked (keeping_recordStepUpUse _ _)

theorem keeping_decided (p : ApproveResponse) (pending : PendingStepUp) (sessionId : String) :
    Keeping P (p.decided pending sessionId) (Recorded P) s := by
  rw [ApproveResponse.decided]
  cases p.decision with
  | denied => trivial
  | other => trivial
  | approved =>
      refine keeping_plain_bind (plain_elevate p pending sessionId) ?_
      intro session v _
      trivial

theorem keeping_approveResponse (process : ℕ) (cx : Cx) (p : ApproveResponse) :
    Keeping P (approveResponse L cfg process cx p) (Recorded P) s := by
  unfold approveResponse
  refine keeping_plain_bind (plain_callerOf cx) ?_
  intro approver t _
  cases p.sessionId with
  | none => trivial
  | some sessionId =>
      refine keeping_plain_bind (plain_claimStepUp p sessionId) ?_
      intro pending t _
      refine Atomic.safe_draw_bind ?_
      intro env
      by_cases hexpired : pending.expiresAt < env.now
      · simp only [if_pos hexpired]
        trivial
      · simp only [if_neg hexpired]
        by_cases hsubject : p.subject ≠ pending.subject
        · rw [if_pos hsubject]
          trivial
        · rw [if_neg hsubject]
          by_cases happrover : approver ≠ pending.subject
          · rw [if_pos happrover]
            trivial
          · rw [if_neg happrover]
            cases hevidence : p.evidence with
            | none => exact keeping_decided p pending sessionId
            | some evidence =>
                cases evidence with
                | didSigned => exact keeping_decided p pending sessionId
                | webauthn assertion =>
                    refine Atomic.safe_bind ((keeping_verifyStepUp process pending assertion).mono
                      ?_ fun _ _ he => he)
                    intro _ v _
                    exact keeping_decided p pending sessionId

theorem keeping_recordLoginUse (subject : Option String) (result : AuthenticationResult) :
    Keeping P (recordLoginUse L subject result) (fun _ _ => True) s := by
  unfold recordLoginUse
  refine keeping_plain_bind (plain_userByCred .session result.credId) ?_
  intro found t _
  cases found with
  | none => trivial
  | some user =>
      by_cases hother : subject.any (· ≠ user.did) = true
      · simp only [if_pos hother]
        trivial
      · simp only [if_neg hother]
        refine Atomic.safe_bind ((keeping_used (rewrites_updated L user result)).mono ?_
          fun _ _ he => he)
        intro _ v _
        trivial

theorem keeping_loginFinish (cx : Cx) (p : LoginFinish) :
    Keeping P (loginFinish L cfg cx p) (Recorded P) s := by
  unfold loginFinish
  refine keeping_plain_bind (plain_requireWebauthn cfg) ?_
  intro _ t _
  refine keeping_plain_bind (plain_claimLogin p.authId) ?_
  rintro ⟨m, state⟩ t _
  refine Atomic.safe_draw_bind ?_
  intro env
  by_cases hexpired : m.expiresAt < env.now
  · simp only [if_pos hexpired]
    trivial
  · simp only [if_neg hexpired]
    refine keeping_plain_bind (plain_finishAssertion L p.credential state _) ?_
    intro result t _
    refine Atomic.safe_bind ((keeping_recordLoginUse m.subject result).mono ?_ fun _ _ he => he)
    intro user t _
    refine keeping_plain_bind (plain_checkAcl user.did) ?_
    intro role t _
    cases m.stepUp with
    | true =>
        refine keeping_plain_bind (plain_loginStepUp cx user) ?_
        intro session v _
        trivial
    | false =>
        refine keeping_plain_bind (plain_openLogin cfg cx user role) ?_
        intro tokens v _
        trivial

theorem keeping_finishLocked (ceremony : Ceremony) (p : EnrolFinish) :
    Keeping P (finishLocked L ceremony p) (Recorded P) s := by
  unfold finishLocked
  refine keeping_plain_bind (plain_userByDid .session ceremony.subject) ?_
  intro existing t _
  by_cases hmany : (existing.any fun u => maxSessionCredentials ≤ u.credentials.length) = true
  · rw [if_pos hmany]
    trivial
  · rw [if_neg hmany]
    refine Atomic.safe_bind (Atomic.safe_check ?_ fun _ _ => trivial)
    rintro ⟨passkey, user⟩ hverified
    have hmade := wellMade_bound (mapError_eq_ok hverified)
      (p.deviceLabel.or ceremony.deviceLabel)
    refine Atomic.safe_bind ((keeping_persist hmade).mono ?_ fun _ _ he => he)
    intro _ v hlogged
    exact hlogged

theorem keeping_enrolFinish (process : ℕ) (cx : Cx) (p : EnrolFinish) :
    Keeping P (enrolFinish L cfg process cx p) (Recorded P) s := by
  unfold enrolFinish
  refine keeping_plain_bind (plain_auth cx) ?_
  intro auth t _
  refine keeping_plain_bind (plain_requireWebauthn cfg) ?_
  intro _ t _
  refine keeping_plain_bind (plain_claimEnrolment _ _) ?_
  intro ceremony t _
  cases ceremony.origin with
  | invite tokenHash inviteId role issuedBy => trivial
  | subject sessionId =>
      refine Atomic.safe_draw_bind ?_
      intro env
      by_cases hexpired : ceremony.expiresAt < env.now
      · simp only [if_pos hexpired]
        trivial
      · simp only [if_neg hexpired]
        by_cases hother : (ceremony.subject ≠ auth.did || !cx.sameSession sessionId) = true
        · rw [if_pos hother]
          trivial
        · rw [if_neg hother]
          exact Atomic.safe_locked (keeping_finishLocked ceremony p)

theorem keeping_redeemLockedFinish (process me : ℕ) (ceremony : Ceremony) (tokenHash : String)
    (role : Option String) (p : EnrolFinish) :
    Keeping P (redeemLockedFinish L process me ceremony tokenHash role p) (Recorded P) s := by
  unfold redeemLockedFinish
  refine keeping_plain_bind (plain_userByDid ceremony.purpose ceremony.subject) ?_
  intro existing t _
  refine Atomic.safe_bind (Atomic.safe_check ?_ fun _ _ => trivial)
  rintro ⟨passkey, user⟩ hverified
  have hmade := wellMade_bound (mapError_eq_ok hverified)
    (p.deviceLabel.or ceremony.deviceLabel)
  refine keeping_plain_bind (plain_onInvites _) ?_
  intro taken t _
  cases taken with
  | none => trivial
  | some invite =>
      refine keeping_plain_bind (plain_invitedEntry ceremony role) ?_
      intro entry t _
      refine Atomic.safe_bind ((keeping_persist hmade).mono ?_ fun _ _ he => he)
      intro _ v hlogged
      by_cases hstepUp : ceremony.purpose = .stepUp
      · simp only [if_pos hstepUp]
        -- what was logged stays logged while sessions are demoted
        have hdemote := (plain_onSessions (makes_demote ceremony.subject)).mono
          (quiet_of_plain (P := P)) fun _ ha => ha
        have hkept := (keeping_quiet hdemote v).keeps
          (recorded_lasting (.enrolled ceremony.purpose passkey.credId ceremony.subject)) hlogged
        refine Atomic.safe_bind (hkept.mono ?_ fun _ _ he => he)
        intro _ w hw
        exact hw.2
      · simp only [if_neg hstepUp]
        exact hlogged

theorem keeping_redeemFinish (process me : ℕ) (p : EnrolFinish) :
    Keeping P (redeemFinish L cfg process me p) (Recorded P) s := by
  unfold redeemFinish
  refine keeping_plain_bind (plain_requireWebauthn cfg) ?_
  intro _ t _
  refine keeping_plain_bind (plain_claimEnrolment _ _) ?_
  intro ceremony t _
  cases ceremony.origin with
  | subject sessionId => trivial
  | invite tokenHash inviteId role issuedBy =>
      refine Atomic.safe_draw_bind ?_
      intro env
      by_cases hexpired : ceremony.expiresAt < env.now
      · simp only [if_pos hexpired]
        trivial
      · simp only [if_neg hexpired]
        refine keeping_plain_bind (plain_onInvites _) ?_
        intro live t _
        refine Atomic.safe_draw_bind ?_
        intro env₁
        by_cases hlive : ((live.filter fun i => !i.isExpired env₁.now).any fun i =>
            i.ceremony = some ceremony.enrollmentId) = true
        · rw [if_pos hlive]
          exact Atomic.safe_locked
            (keeping_redeemLockedFinish process me ceremony tokenHash role p)
        · rw [if_neg hlive]
          trivial

theorem keeping_revokeLocked (ceremony : RevocationCeremony) :
    Keeping P (revokeLocked ceremony)
      (fun _ t => ceremony.targetPurpose = P →
        .revoked ceremony.targetCredentialIdHex ∈ (t.credentials P).log) s := by
  unfold revokeLocked
  refine keeping_plain_bind (plain_userByDid ceremony.targetPurpose ceremony.targetSubject) ?_
  intro found t _
  cases found with
  | none => trivial
  | some user =>
      by_cases hlast : (ceremony.targetPurpose = .session && user.credentials.length ≤ 1) = true
      · simp only [if_pos hlast]
        trivial
      · simp only [if_neg hlast]
        by_cases hlisted : user.credIds.contains ceremony.targetCredentialIdHex = true
        · rw [if_pos hlisted]
          refine Atomic.safe_bind ?_
          exact keeping_onCredentials fun _ =>
            safe_removeCredential (List.contains_iff_mem.mp hlisted)
        · rw [if_neg hlisted]
          trivial

theorem keeping_recordProducerUse (did : String) (result : AuthenticationResult) :
    Keeping P (recordProducerUse L did result) (fun _ _ => True) s := by
  unfold recordProducerUse
  refine keeping_plain_bind (plain_userByDid .session did) ?_
  intro found t _
  cases found with
  | none => trivial
  | some user => exact keeping_used (rewrites_updated L user result)

theorem keeping_revokeFinish (process : ℕ) (cx : Cx) (p : RevokeFinish) :
    Keeping P (revokeFinish L cfg process cx p) (Recorded P) s := by
  unfold revokeFinish
  refine keeping_plain_bind (plain_auth cx) ?_
  intro auth t _
  refine keeping_plain_bind (plain_claimRevocation auth.did p.revocationId) ?_
  intro ceremony t _
  refine Atomic.safe_draw_bind ?_
  intro env
  by_cases hexpired : ceremony.expiresAt < env.now
  · simp only [if_pos hexpired]
    trivial
  · simp only [if_neg hexpired]
    refine keeping_plain_bind (plain_requireWebauthn cfg) ?_
    intro _ t _
    refine keeping_plain_bind (plain_finishAssertion L p.uvCredential ceremony.webauthn _) ?_
    intro result t _
    by_cases hverified : (!result.userVerified) = true
    · rw [if_pos hverified]
      trivial
    · rw [if_neg hverified]
      refine keeping_plain_bind (plain_checkStanding ceremony auth.did) ?_
      intro _ t _
      refine Atomic.safe_bind (Atomic.safe_locked
        ((keeping_revokeLocked ceremony).mono ?_ fun _ _ he => he))
      intro remaining v hlogged
      -- what was logged stays logged while the producer's record is written
      have hused : Keeping P (.locked (.credentials process .session auth.did)
          (recordProducerUse L auth.did result)) (fun _ _ => True) v :=
        Atomic.safe_locked (keeping_recordProducerUse auth.did result)
      have hkept := hused.keeps (recorded_lasting (.revoked ceremony.targetPurpose
        ceremony.targetCredentialIdHex ceremony.targetSubject remaining)) hlogged
      refine Atomic.safe_bind (hkept.mono ?_ fun _ _ he => he)
      intro _ w hw
      exact hw.2

end

/-- Every request keeps the rows of the purpose together, and answers as the log says. -/
theorem keeping_handle {A : Plane} (me process : ℕ) (call : AuthCall) (s : AuthStore) :
    Keeping P (handle A me process call) (Recorded P) s := by
  cases hcall : call.writesCredentials with
  | false =>
      have hrefresh : ∀ acl input, (deniedSessions (A.canon.handleRefresh acl input)).Only
          (Quiet P) fun _ => True := by
        intro acl input
        exact Part.only_lift_part _ fun _ => trivial
      refine (keeping_quiet (only_handle quiet_of_plain hrefresh me process hcall) s).mono ?_
        fun _ _ he => he
      intro a t ha
      exact recorded_of_plain ha t
  | true =>
      cases call with
      | approveResponse cx p => exact keeping_approveResponse process cx p
      | loginFinish cx p => exact keeping_loginFinish cx p
      | enrolFinish cx p => exact keeping_enrolFinish process cx p
      | redeemFinish p => exact keeping_redeemFinish process me p
      | revokeFinish cx p => exact keeping_revokeFinish process cx p
      | _ => cases hcall

end

/-! ## Runs -/

/-- A new credential is one that nothing is known of. -/
def newCredential (P : Purpose) (m : AuthPool) : PoolEvent ℕ AuthEnv → Bool
  | .drop _ => true
  | .run i _ =>
      match m.handler i with
      | .access (.persist purpose _ _ c _) _ => purpose ≠ P || (m.store.credentials P).fresh c
      | .access (.credential purpose (.bind _ _ c)) _ =>
          purpose ≠ P || (m.store.credentials P).fresh c
      | _ => true

/-- A record is written while the stored one still lists the credentials of its copy. -/
def currentCopies (P : Purpose) (m : AuthPool) : PoolEvent ℕ AuthEnv → Bool
  | .drop _ => true
  | .run i _ =>
      match m.handler i with
      | .access (.credential purpose (.putUser copied _ _)) _ =>
          purpose ≠ P || (m.store.credentials P).current copied
      | .access (.persist purpose copied user _ _) _ =>
          purpose ≠ P || (m.store.credentials P).currentFor copied user
      | .access (.credential purpose (.bind copied user _)) _ =>
          purpose ≠ P || (m.store.credentials P).currentFor copied user
      | _ => true

theorem meets_of_currentCopies {P : Purpose} {m : AuthPool} {event : PoolEvent ℕ AuthEnv}
    (hnew : newCredential P m event = true) (hcurrent : currentCopies P m event = true) :
    m.Meets (credentialProtocol P) event := by
  cases event with
  | drop i => trivial
  | run i x =>
      intro o k hk
      unfold newCredential at hnew
      unfold currentCopies at hcurrent
      simp only [hk] at hnew hcurrent
      have hasked : ∀ {purpose : Purpose} {b : Bool}, purpose = P →
          (decide (purpose ≠ P) || b) = true → b = true := by
        intro purpose b hsame h
        simpa [hsame] using h
      cases o with
      | credential purpose o =>
          intro hsame
          cases o with
          | putUser copied user why => exact hasked hsame hcurrent
          | bind copied user c => exact ⟨hasked hsame hcurrent, hasked hsame hnew⟩
          | _ => trivial
      | persist purpose copied user c entry =>
          intro hsame
          exact ⟨hasked hsame hcurrent, hasked hsame hnew⟩
      | _ => trivial

/-- The answer of a revocation. -/
def revokedCredential : AuthM AuthAnswer → Option (Purpose × String × String × ℕ)
  | .ret (.revoked purpose c subject remaining) => some (purpose, c, subject, remaining)
  | _ => none

theorem revokedCredential_eq_some {p : AuthM AuthAnswer} {purpose : Purpose} {c subject : String}
    {remaining : ℕ} (h : revokedCredential p = some (purpose, c, subject, remaining)) :
    p = .ret (.revoked purpose c subject remaining) := by
  unfold revokedCredential at h
  split at h
  · cases h
    rfl
  · cases h

/-- In a run that writes every record from a current copy: a credential whose revocation was
answered is in no record, one whose enrolment was answered is in a record unless it was
revoked, and the rows of credentials, DIDs and users agree, up to the credentials whose
revocation has removed one row and not yet written the other. -/
theorem credentials_kept (A : Plane) (acl : Table String AclEntry) (process : ℕ → ℕ)
    (calls : ℕ → AuthCall) (P : Purpose) (events : List (PoolEvent ℕ AuthEnv))
    (hnew : Run.Meets Pool.step (fun m event => newCredential P m event = true)
      (controlPlane A acl process calls) events)
    (hcurrent : Run.Meets Pool.step (fun m event => currentCopies P m event = true)
      (controlPlane A acl process calls) events) :
    let pool := (controlPlane A acl process calls).exec events
    let rows := pool.store.credentials P
    (∀ i c subject remaining, pool.handler i = .ret (.revoked P c subject remaining) →
      ∀ uuid user, rows.users.lookup uuid = some user → c ∉ user.credIds) ∧
    (∀ i c subject, pool.handler i = .ret (.enrolled P c subject) →
      .revoked c ∈ rows.log ∨
        ∃ uuid user, rows.users.lookup uuid = some user ∧ c ∈ user.credIds) ∧
    (∀ c uuid, rows.creds.lookup c = some uuid ↔
      c ∉ rows.removing ∧ ∃ user, rows.users.lookup uuid = some user ∧ c ∈ user.credIds) ∧
    ∀ did uuid, rows.dids.lookup did = some uuid ↔
      ∃ user, rows.users.lookup uuid = some user ∧ user.did = did := by
  intro pool rows
  have hmeets : Run.Meets Pool.step (fun m event => m.Meets (credentialProtocol P) event)
      (controlPlane A acl process calls) events := by
    refine (hnew.and hcurrent).mono ?_
    intro m event h
    exact meets_of_currentCopies h.1 h.2
  have hstart : Pool.Safe (credentialProtocol P) (fun _ => Recorded P) (fun _ _ _ => True)
      (controlPlane A acl process calls) := by
    refine Pool.Safe.start ?_ fun i => keeping_handle i (process i) (calls i) _
    change ((AuthStore.new acl).credentials P).Kept
    cases P with
    | session => exact CredentialStore.kept_new
    | stepUp => exact CredentialStore.kept_new
  have hsafe : Pool.Safe (credentialProtocol P) (fun _ => Recorded P) (fun _ _ _ => True) pool := by
    refine (hstart.exec hmeets ?_ ?_).1
    · intro _ a
      exact recorded_lasting a
    · intro _ _ s t _ _
      trivial
  have hkept : rows.Kept := hsafe.inv
  refine ⟨?_, ?_, ?_, ?_⟩
  · intro i c subject remaining hi uuid user huser
    have hlogged : .revoked c ∈ rows.log := hsafe.answered hi rfl
    exact (hkept.revoked c hlogged).2 uuid user huser
  · intro i c subject hi
    obtain ⟨uuid, hlogged⟩ := hsafe.answered hi rfl
    rcases hkept.enrolled uuid c hlogged with hrevoked | ⟨user, huser, hlisted⟩
    · exact Or.inl hrevoked
    · exact Or.inr ⟨uuid, user, huser, hlisted⟩
  · intro c uuid
    constructor
    · intro hrow
      refine ⟨?_, hkept.mapped c uuid hrow⟩
      intro hremoving
      rw [hkept.removing c hremoving] at hrow
      cases hrow
    · rintro ⟨hnot, user, huser, hlisted⟩
      exact (hkept.listed uuid user c huser hlisted).resolve_right hnot
  · intro did uuid
    constructor
    · intro hrow
      exact hkept.didUser did uuid hrow
    · rintro ⟨user, huser, rfl⟩
      exact hkept.didRow uuid user huser

/-! ## A login during a revocation -/

namespace Sample

/-- An authenticator that names the credential it uses. -/
def authLibs : AuthLibs where
  readCredential json := .ok json
  startAuthentication nonce _ := .ok (nonce, .null, ⟨.null⟩)
  finishAuthentication json _ :=
    match json with
    | .str c => .ok ⟨c, true, 0⟩
    | _ => .error "no assertion"
  readRegistration json := .ok json
  startRegistration _ _ _ _ := .ok (.null, ⟨.null⟩)
  finishRegistration json _ :=
    match json with
    | .str c => .ok ⟨c, .null⟩
    | _ => .error "no attestation"
  updatedRecord c _ := c.record
  signRequest _ := .ok .null

def authConfig : AuthConfig := ⟨some jwtKeys, true, some "did:example:host", 900, 3600, 86400, 1800⟩

/-- No wallet signs in. -/
def canonicalHandlers : CanonicalHandlers where
  handleRefresh _ _ := .fail (.authentication "refused")

def plane : Plane := ⟨authLibs, inviteLibs, canonicalHandlers, authConfig, 3600⟩

def keyHolder : String := "did:key:z6Mkalice"

def holderCx : Cx := ⟨some keyHolder, none, none⟩

def holderAcl : Table String AclEntry :=
  (∅ : Table String AclEntry).insert keyHolder ⟨keyHolder, .owner, none, none, .all⟩

/-- A subject enrols "a" and then "b", opens the revocation of "b" and a login, and
finishes both. -/
def credentialCalls : ℕ → AuthCall
  | 0 => .enrolStart holderCx none
  | 1 => .enrolFinish holderCx ⟨"enr_u0", none, .str "a", none⟩
  | 2 => .enrolStart holderCx none
  | 3 => .enrolFinish holderCx ⟨"enr_u2", some (.str "a"), .str "b", none⟩
  | 4 => .revokeStart holderCx ⟨none, "b", some "b"⟩
  | 5 => .loginStart ⟨false, some keyHolder⟩
  | 6 => .loginFinish holderCx ⟨"u5", .str "a"⟩
  | _ => .revokeFinish holderCx ⟨"rvk_u4", .str "a"⟩

def authEnv (i : ℕ) : AuthEnv := ⟨⟨1000, s!"s{i}", s!"jti{i}", s!"token{i}"⟩, s!"u{i}", "nonce"⟩

/-- Handler `i` takes `n` steps. -/
def authSteps (i n : ℕ) : List (PoolEvent ℕ AuthEnv) :=
  List.replicate n (.run i (authEnv i))

/-- Both credentials are enrolled, and the two ceremonies are open. -/
def credentialsOpened : List (PoolEvent ℕ AuthEnv) :=
  authSteps 0 20 ++ authSteps 1 20 ++ authSteps 2 20 ++ authSteps 3 20 ++ authSteps 4 20 ++
    authSteps 5 20

end Sample

/-- A revocation that is finished before the login: the credential is in no record. -/
theorem credentials_kept_revoked :
    ¬ ∃ uuid user, (((controlPlane Sample.plane Sample.holderAcl (fun _ => 0)
      Sample.credentialCalls).exec (Sample.credentialsOpened ++ Sample.authSteps 7 30 ++
        Sample.authSteps 6 30)).store.credentials .session).users.lookup uuid = some user ∧
      "b" ∈ user.credIds := by
  have ⟨hnew, hcurrent, hanswer⟩ :
      Run.Meets Pool.step (fun m event => newCredential .session m event = true)
        (controlPlane Sample.plane Sample.holderAcl (fun _ => 0) Sample.credentialCalls)
        (Sample.credentialsOpened ++ Sample.authSteps 7 30 ++ Sample.authSteps 6 30) ∧
      Run.Meets Pool.step (fun m event => currentCopies .session m event = true)
        (controlPlane Sample.plane Sample.holderAcl (fun _ => 0) Sample.credentialCalls)
        (Sample.credentialsOpened ++ Sample.authSteps 7 30 ++ Sample.authSteps 6 30) ∧
      revokedCredential (((controlPlane Sample.plane Sample.holderAcl (fun _ => 0)
        Sample.credentialCalls).exec (Sample.credentialsOpened ++ Sample.authSteps 7 30 ++
          Sample.authSteps 6 30)).handler 7) = some (.session, "b", Sample.keyHolder, 1) := by
    decide +kernel
  obtain ⟨hrevoked, -⟩ := credentials_kept Sample.plane Sample.holderAcl (fun _ => 0)
    Sample.credentialCalls .session _ hnew hcurrent
  rintro ⟨uuid, user, huser, hlisted⟩
  exact hrevoked 7 "b" Sample.keyHolder 1 (revokedCredential_eq_some hanswer) uuid user huser
    hlisted

/-- A login that read the record before a revocation and writes it after: the revocation of
"b" is answered, and "b" is back in the record, without a row of its own. -/
theorem login_restores_credential :
    Run.Meets Pool.step (fun m event => newCredential .session m event = true)
      (controlPlane Sample.plane Sample.holderAcl (fun _ => 0) Sample.credentialCalls)
      (Sample.credentialsOpened ++ Sample.authSteps 6 5 ++ Sample.authSteps 7 30 ++
        Sample.authSteps 6 30) ∧
    revokedCredential (((controlPlane Sample.plane Sample.holderAcl (fun _ => 0)
      Sample.credentialCalls).exec (Sample.credentialsOpened ++ Sample.authSteps 6 5 ++
        Sample.authSteps 7 30)).handler 7) = some (.session, "b", Sample.keyHolder, 1) ∧
    ((((controlPlane Sample.plane Sample.holderAcl (fun _ => 0)
      Sample.credentialCalls).exec (Sample.credentialsOpened ++ Sample.authSteps 6 5 ++
        Sample.authSteps 7 30 ++ Sample.authSteps 6 30)).store.login.users.lookup "u0").map
          (·.credIds)) = some ["a", "b"] ∧
    (((controlPlane Sample.plane Sample.holderAcl (fun _ => 0)
      Sample.credentialCalls).exec (Sample.credentialsOpened ++ Sample.authSteps 6 5 ++
        Sample.authSteps 7 30 ++ Sample.authSteps 6 30)).store.login.creds.lookup "b") = none := by
  decide +kernel

end Auth

end DidHosting
