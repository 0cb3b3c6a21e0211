import DidHosting.Oob.History

/-!
# Signing in out of band

Every handler of the service keeps to `oobProtocol`, whatever the others do at its accesses.
So in every run a request moves only along its edges, and the session a `redeem` answers
with goes back, record by record, to the document that proved a DID and to the grant that
DID signed.
-/

namespace DidHosting

namespace Oob

section

variable {L : OobLibs} {cfg : OobConfig} {guarded : Prop} {s : OobStore}
  {E : OobRefusal → OobStore → Prop}

/-! ## The parts of the handlers -/

theorem safe_keyDoc {α : Type} {read : Json → Except String α} {raw : Json} {typeUri : String}
    {Q : OobDocument × α → OobStore → Prop}
    (h : ∀ doc payload key,
      verifyBoundKey L.toTaskLibs doc.toTrustTask keyPurposes = .ok key →
      read doc.payload = .ok payload → Q (doc, payload) s)
    (herr : ∀ e, E ⟨e, none⟩ s) :
    (keyDoc L cfg read raw typeUri).Safe (oobProtocol L cfg guarded) Q E s := by
  unfold keyDoc
  cases L.document raw with
  | none => exact herr _
  | some doc =>
      refine Atomic.safe_draw_bind ?_
      intro env
      cases envelope cfg doc typeUri env.now with
      | error e => exact herr _
      | ok _ =>
          cases hkey : verifyBoundKey L.toTaskLibs doc.toTrustTask keyPurposes with
          | error e => cases e <;> exact herr _
          | ok key =>
              cases hread : read doc.payload with
              | error e => exact herr _
              | ok payload => exact h doc payload key hkey hread

theorem safe_fresh {doc : OobDocument} {Q : Unit → OobStore → Prop}
    (h : ∀ t, Extends s t → Q () t) (herr : ∀ e t, Extends s t → E ⟨e, none⟩ t) :
    (fresh doc).Safe (oobProtocol L cfg guarded) Q E s := by
  unfold fresh
  refine Atomic.safe_draw_bind ?_
  intro env
  refine Atomic.safe_bind ?_
  apply safe_rememberDocument
  intro t x hst
  cases x with
  | ok _ => exact h t hst
  | error e => cases e <;> exact herr _ t hst

theorem safe_checked {α : Type} {x : Except OobError α} {Q : α → OobStore → Prop}
    (h : ∀ a, x = .ok a → Q a s) (herr : ∀ e, E ⟨e, none⟩ s) :
    (checked x).Safe (oobProtocol L cfg guarded) Q E s := by
  unfold checked
  cases x with
  | ok a => exact h a rfl
  | error e => exact herr e

theorem safe_response {task : String} {value : Json} {Q : Json → OobStore → Prop}
    (h : ∀ body, Q body s) (herr : ∀ e, E ⟨e, none⟩ s) :
    (response L task value).Safe (oobProtocol L cfg guarded) Q E s := by
  unfold response
  cases L.write task value with
  | ok body => exact h body
  | error _ => exact herr _

theorem safe_signed {request : OobDocument} {recipient purpose : String} {payload : Json}
    {Q : Json → OobStore → Prop} (h : ∀ document, Q document s) (herr : ∀ e, E ⟨e, none⟩ s) :
    (signed L cfg request recipient payload purpose).Safe (oobProtocol L cfg guarded) Q E s := by
  unfold signed
  refine Atomic.safe_draw_bind ?_
  intro env₁
  refine Atomic.safe_draw_bind ?_
  intro env₂
  refine Atomic.safe_draw_bind ?_
  intro env₃
  cases env₃.sign _ purpose with
  | ok document => exact h document
  | error _ => exact herr _

/-- `current` answers with a record of the history that has not lapsed. -/
theorem safe_current {id : String} {fuel : ℕ} {Q : OobRecord × ℕ → OobStore → Prop}
    (h : ∀ t r now, Extends s t → t.Written r → r.requestId = id → r.lapsed now = false →
      Q (r, now) t)
    (herr : ∀ e t, Extends s t → E ⟨e, none⟩ t) :
    (current id fuel).Safe (oobProtocol L cfg guarded) Q E s := by
  induction fuel generalizing s with
  | zero => trivial
  | succ fuel ih =>
      unfold current
      refine Atomic.safe_bind ?_
      apply safe_get
      · intro t hst
        exact herr _ t hst
      · intro t r hst hr hid
        refine Atomic.safe_draw_bind ?_
        intro env
        cases hlapsed : r.lapsed env.now with
        | false => exact h t r env.now hst hr hid hlapsed
        | true =>
            have hholds : Move.expired.Holds L cfg r (r.next .expired env.now) :=
              ⟨env.now, hlapsed, rfl⟩
            refine Atomic.safe_bind ?_
            apply safe_compareAndSet hr hholds
            · intro u htu hmoved _
              refine h u _ env.now (hst.trans htu) ⟨_, hmoved, rfl⟩ hid ?_
              rfl
            · intro u htu _ _
              apply ih
              · intro v r' now huv
                exact h v r' now (hst.trans (htu.trans huv))
              · intro e v huv
                exact herr e v (hst.trans (htu.trans huv))

theorem safe_lockHolderRecord {id issuer : String} {expected : OobState} {fuel : ℕ}
    {Q : OobRecord × ℕ → OobStore → Prop}
    (h : ∀ t r now, Extends s t → t.Written r → r.requestId = id → r.lapsed now = false →
      r.state = expected → Q (r, now) t)
    (herr : ∀ e t, Extends s t → E ⟨e, none⟩ t) :
    (lockHolderRecord id issuer expected fuel).Safe (oobProtocol L cfg guarded) Q E s := by
  unfold lockHolderRecord
  refine Atomic.safe_bind ?_
  refine safe_current ?_ herr
  intro t r now hst hr hid hlapsed
  by_cases hkey : r.approverKey ≠ some issuer
  · simp only [if_pos hkey]
    exact herr _ t hst
  · simp only [if_neg hkey]
    by_cases hexpired : r.state = .expired
    · simp only [if_pos hexpired]
      exact herr _ t hst
    · simp only [if_neg hexpired]
      by_cases hstate : r.state = expected
      · simp only [hstate, ne_eq, not_true_eq_false, if_false]
        exact h t r now hst hr hid hlapsed hstate
      · simp only [ne_eq, hstate, not_false_eq_true, if_true]
        exact herr _ t hst

/-- `decline` refuses, and in a guarded run the request has come to its end. -/
theorem safe_decline {α : Type} {r : OobRecord} {err : OobError} {Q : α → OobStore → Prop}
    (hr : s.Written r) (hstate : r.state = .claimed ∨ r.state = .identified)
    (herr : ∀ t, Extends s t → (guarded → t.Closed r.requestId) →
      E ⟨err, some r.requestId⟩ t) :
    (decline r err : OobM α).Safe (oobProtocol L cfg guarded) Q E s := by
  unfold decline
  refine Atomic.safe_draw_bind ?_
  intro env
  have hholds : Move.declined.Holds L cfg r (r.next .declined env.now) := ⟨hstate, env.now, rfl⟩
  refine Atomic.safe_bind ?_
  apply safe_compareAndSet hr hholds
  · intro t hst hmoved hstored
    apply herr t hst
    intro _
    refine ⟨⟨_, hmoved, rfl⟩, ?_⟩
    intro r' hr'
    change t.records.lookup r.requestId = some _ at hstored
    rw [hstored] at hr'
    obtain rfl := Option.some.inj hr'
    rfl
  · intro t hst hmatch hmeets
    apply herr t hst
    intro hguarded
    rcases hmeets hguarded with hmatch' | hclosed
    · rw [hmatch] at hmatch'
      cases hmatch'
    · obtain ⟨f, hf, hfr⟩ := hr.extends hst
      exact ⟨⟨f, hf, congrArg OobRecord.requestId hfr⟩, OobStore.ended_iff.mp hclosed⟩

/-- What `prove_checks` asserts of the `identify` document it accepts. -/
structure IdentifyAccepted (L : OobLibs) (r : OobRecord) (did : String) (identify : OobDocument)
    (payload : IdentifyPayload) : Prop where
  issuer : identify.issuer = some did
  proven : verifyOperational L.toTaskLibs ⟨L.keys, none⟩ identify.toTrustTask = .ok ()
  approverKey : (identify.payload.get "approverKey").bind Json.asStr = r.approverKey
  read : L.readIdentify identify.payload = some payload
  requestId : payload.requestId = r.requestId

theorem safe_proveChecks {r : OobRecord} {raw : Json}
    {Q : String × OobDocument × IdentifyPayload → OobStore → Prop}
    (h : ∀ t did identify payload, Extends s t → IdentifyAccepted L r did identify payload →
      Q (did, identify, payload) t)
    (herr : ∀ e t, Extends s t → E ⟨e, none⟩ t) :
    (proveChecks L cfg r raw).Safe (oobProtocol L cfg guarded) Q E s := by
  have hhere := fun e => herr e s (Extends.refl s)
  unfold proveChecks
  cases L.document raw with
  | none => exact hhere _
  | some identify =>
      by_cases hkey : (identify.payload.get "approverKey").bind Json.asStr ≠ r.approverKey
      · simp only [if_pos hkey]
        exact hhere _
      simp only [if_neg hkey]
      refine Atomic.safe_draw_bind ?_
      intro env₁
      by_cases hdid : (decide (identify.issuer.getD "" = "") ||
          !env₁.isAllowed (identify.issuer.getD "")) = true
      · simp only [if_pos hdid]
        exact hhere _
      simp only [if_neg hdid]
      refine Atomic.safe_draw_bind ?_
      intro env₂
      cases envelope cfg identify (L.typeUri "auth::oob::identify::v0_1") env₂.now with
      | error _ => exact hhere _
      | ok _ =>
          refine Atomic.safe_draw_bind ?_
          intro env₃
          cases env₃.hasVerifier with
          | false => exact hhere _
          | true =>
              cases hproven : verifyOperational L.toTaskLibs ⟨L.keys, none⟩
                  identify.toTrustTask with
              | error _ => exact hhere _
              | ok _ =>
                  cases hread : L.readIdentify identify.payload with
                  | none => exact hhere _
                  | some payload =>
                      by_cases hid : payload.requestId ≠ r.requestId
                      · simp only [if_pos hid]
                        exact hhere _
                      simp only [if_neg hid]
                      refine Atomic.safe_draw_bind ?_
                      intro env₄
                      refine Atomic.safe_bind ?_
                      apply safe_rememberDocument
                      intro t x hst
                      cases x with
                      | error _ => exact herr _ t hst
                      | ok _ =>
                          apply h t _ _ _ hst
                          refine ⟨?_, hproven, not_not.mp hkey, hread, not_not.mp hid⟩
                          cases hissuer : identify.issuer with
                          | none => simp [hissuer] at hdid
                          | some did => rfl

theorem safe_grantChecks {r : OobRecord} {raw : Json}
    {Q : OobDocument × GrantPayload → OobStore → Prop}
    (h : ∀ t grant p, Extends s t → GrantChecked L r grant p → Q (grant, p) t)
    (herr : ∀ e t, Extends s t → E ⟨e, none⟩ t) :
    (grantChecks L cfg r raw).Safe (oobProtocol L cfg guarded) Q E s := by
  have hhere := fun e => herr e s (Extends.refl s)
  unfold grantChecks
  cases L.document raw with
  | none => exact hhere _
  | some grant =>
      by_cases hissuer : grant.issuer ≠ some (r.identifiedDid.getD "")
      · simp only [if_pos hissuer]
        exact hhere _
      simp only [if_neg hissuer]
      refine Atomic.safe_draw_bind ?_
      intro env₁
      cases envelope cfg grant (L.typeUri "auth::oob::grant::v0_1") env₁.now with
      | error _ => exact hhere _
      | ok _ =>
          refine Atomic.safe_draw_bind ?_
          intro env₂
          cases env₂.hasVerifier with
          | false => exact hhere _
          | true =>
              cases hproven : verifyApproval L.toTaskLibs ⟨L.keys, none⟩ grant.toTrustTask with
              | error _ => exact hhere _
              | ok _ =>
                  refine Atomic.safe_draw_bind ?_
                  intro env₃
                  refine Atomic.safe_bind ?_
                  apply safe_rememberDocument
                  intro t x hst
                  cases x with
                  | error _ => exact herr _ t hst
                  | ok _ =>
                      cases hread : L.readGrant grant.payload with
                      | none => exact herr _ t hst
                      | some p =>
                          by_cases hbound : (decide (p.requestId ≠ r.requestId) ||
                              decide (r.approverKey ≠ some p.approverKey) ||
                              decide (p.sessionKey ≠ r.startKey) ||
                              decide (p.origin ≠ r.origin)) = true
                          · simp only [if_pos hbound]
                            exact herr _ t hst
                          simp only [if_neg hbound]
                          cases hdigest : contextDigestsEqual L p.contextDigest
                              (r.step2Digest.getD "") with
                          | false => exact herr _ t hst
                          | true =>
                              have hchecked : GrantChecked L r grant p := by
                                simp only [Bool.or_eq_true, decide_eq_true_eq, not_or,
                                  not_not] at hbound
                                obtain ⟨⟨⟨hid, hkey⟩, hsession⟩, horigin⟩ := hbound
                                exact ⟨not_not.mp hissuer, hproven, hread, hid, hkey, hsession,
                                  horigin, hdigest⟩
                              refine Atomic.safe_draw_bind ?_
                              intro env₄
                              by_cases hpast : (p.approve && decide (p.notAfter ≤ env₄.now)) = true
                              · simp only [if_pos hpast]
                                exact herr _ t hst
                              simp only [if_neg hpast]
                              refine Atomic.safe_draw_bind ?_
                              intro env₅
                              cases env₅.isAllowed (r.identifiedDid.getD "") with
                              | false => exact herr _ t hst
                              | true => exact h t grant p hst hchecked

end

/-! ## The handlers -/

/-- How `redeem`, as handler `i`, came by the session it answers with. -/
structure Redeemed (L : OobLibs) (s : OobStore) (i : ℕ) (doc : OobDocument)
    (session : ApprovedSession) (r₀ r c : OobRecord) (redeemedAt : ℕ) : Prop where
  request : L.readRequestId doc.payload = .ok r.requestId
  proven : ∃ key, verifyBoundKey L.toTaskLibs doc.toTrustTask keyPurposes = .ok key
  read : s.Written r₀
  sameId : r₀.requestId = r.requestId
  starter : doc.issuer = some r₀.startKey
  consumed : .moved r c (.consumed i redeemedAt) ∈ s.log
  subject : session.subject = r.identifiedDid.getD ""
  sessionKey : session.sessionKey = r.startKey

/-- What handler `i` answers. -/
def Answered (L : OobLibs) (i : ℕ) (a : OobAnswer) (s : OobStore) : Prop :=
  ∀ doc session, a = .approved doc session →
    ∃ r₀ r c redeemedAt, Redeemed L s i doc session r₀ r c redeemedAt

/-- What a handler refuses with. -/
def Refused (guarded : Prop) (e : OobRefusal) (s : OobStore) : Prop :=
  ∀ id, e.declines = some id → guarded → s.Closed id

section

variable {L : OobLibs} {cfg : OobConfig} {guarded : Prop} {s : OobStore} {i : ℕ}

theorem answered_document (body : Json) (s : OobStore) : Answered L i (.document body) s :=
  fun _ _ h => nomatch h

theorem refused_none (e : OobError) (s : OobStore) : Refused guarded ⟨e, none⟩ s :=
  fun _ h => nomatch h

theorem refused_extends (e : OobError) (t : OobStore) (_ : Extends s t) :
    Refused guarded ⟨e, none⟩ t :=
  refused_none e t

theorem safe_document {request : OobDocument} {recipient purpose : String} {payload : Json} :
    (do return .document (← signed L cfg request recipient payload purpose) : OobM OobAnswer).Safe
      (oobProtocol L cfg guarded) (Answered L i) (Refused guarded) s := by
  refine Atomic.safe_bind ?_
  refine safe_signed ?_ fun e => refused_none e s
  intro document
  exact answered_document document s

theorem safe_request {raw : Json} {conn : Connection} :
    (request L cfg raw conn).Safe (oobProtocol L cfg guarded) (Answered L i) (Refused guarded)
      s := by
  unfold request
  refine Atomic.safe_bind ?_
  refine safe_keyDoc ?_ fun e => refused_none e s
  intro doc payload _ _ _
  by_cases hpurpose : unserved payload "purpose" "login" = true
  · simp only [if_pos hpurpose]
    exact refused_none _ s
  simp only [if_neg hpurpose]
  by_cases hmode : unserved payload "mode" "scan" = true
  · simp only [if_pos hmode]
    exact refused_none _ s
  simp only [if_neg hmode]
  cases L.readRequest payload with
  | error _ => exact refused_none _ s
  | ok _ =>
      refine Atomic.safe_bind (Atomic.safe_pure.mpr ?_)
      refine Atomic.safe_bind (safe_fresh ?_ refused_extends)
      intro t _
      refine Atomic.safe_draw_bind ?_
      intro env₁
      refine Atomic.safe_draw_bind ?_
      intro env₂
      refine Atomic.safe_bind (safe_create rfl ?_)
      intro u x _
      cases x with
      | error e => cases e <;> exact refused_none _ u
      | ok _ =>
          refine Atomic.safe_bind (Atomic.safe_pure.mpr ?_)
          refine Atomic.safe_bind (safe_response ?_ fun e => refused_none e u)
          intro body
          exact safe_document

theorem safe_claim {raw : Json} {fuel : ℕ} :
    (claim L cfg raw fuel).Safe (oobProtocol L cfg guarded) (Answered L i) (Refused guarded)
      s := by
  unfold claim
  refine Atomic.safe_bind ?_
  refine safe_keyDoc ?_ fun e => refused_none e s
  intro doc requestId _ _ _
  by_cases hthread : doc.parentThreadId ≠ some requestId
  · simp only [if_pos hthread]
    exact refused_none _ s
  simp only [if_neg hthread]
  refine Atomic.safe_bind (safe_current ?_ refused_extends)
  intro t r _ _ hr _ _
  by_cases hexpired : r.state = .expired
  · simp only [if_pos hexpired]
    exact refused_none _ t
  simp only [if_neg hexpired]
  by_cases hstate : r.state ≠ .pending
  · simp only [if_pos hstate]
    exact refused_none _ t
  simp only [if_neg hstate]
  refine Atomic.safe_bind (safe_fresh ?_ refused_extends)
  intro u htu
  refine Atomic.safe_draw_bind ?_
  intro env₁
  refine Atomic.safe_draw_bind ?_
  intro env₂
  have hholds : Move.claimed.Holds L cfg r
      (claimedRecord cfg r (doc.issuer.getD "") env₂.twoDigits env₁.now) :=
    ⟨not_not.mp hstate, _, _, _, rfl⟩
  refine Atomic.safe_bind (safe_compareAndSet (hr.extends htu) hholds ?_ ?_)
  · intro v _ _ _
    refine Atomic.safe_bind (safe_response ?_ fun e => refused_none e v)
    intro body
    exact safe_document
  · intro v _ _ _
    exact refused_none _ v

theorem safe_prove {raw : Json} {conn : Connection} {fuel : ℕ} :
    (prove L cfg raw conn fuel).Safe (oobProtocol L cfg guarded) (Answered L i)
      (Refused guarded) s := by
  unfold prove
  refine Atomic.safe_bind ?_
  refine safe_keyDoc ?_ fun e => refused_none e s
  intro doc identifyRaw _ _ _
  refine Atomic.safe_bind (safe_checked ?_ fun e => refused_none e s)
  intro requestId _
  refine Atomic.safe_bind (safe_checked ?_ fun e => refused_none e s)
  intro _ _
  refine Atomic.safe_bind (safe_lockHolderRecord ?_ refused_extends)
  intro t r _ _ hr _ _ hstate
  refine Atomic.safe_bind (safe_fresh ?_ refused_extends)
  intro u htu
  have hru := hr.extends htu
  refine Atomic.safe_bind (Atomic.safe_attempt (safe_proveChecks ?_ ?_))
  · intro v did identify payload huv haccepted
    have hrv := hru.extends huv
    by_cases hnumber : r.matchNumber ≠ some payload.enteredNumber
    · simp only [if_pos hnumber]
      refine safe_decline hrv (Or.inl hstate) ?_
      intro w _ hclosed id hid
      obtain rfl := Option.some.inj hid
      exact hclosed
    simp only [if_neg hnumber]
    refine Atomic.safe_bind (safe_response ?_ fun e => refused_none e v)
    intro body
    refine Atomic.safe_bind (safe_signed ?_ fun e => refused_none e v)
    intro document
    refine Atomic.safe_draw_bind ?_
    intro env
    have hholds : (Move.identified identify document).Holds L cfg r
        (identifiedRecord L r did document env.now) := by
      refine ⟨hstate, did, env.now, ?_, rfl⟩
      exact ⟨haccepted.issuer, haccepted.proven, haccepted.approverKey,
        payload, haccepted.read, haccepted.requestId, not_not.mp hnumber⟩
    refine Atomic.safe_bind (safe_compareAndSet hrv hholds ?_ ?_)
    · intro w _ _ _
      exact answered_document document w
    · intro w _ _ _
      exact refused_none _ w
  · intro e v huv
    refine safe_decline (hru.extends huv) (Or.inl hstate) ?_
    intro w _ hclosed id hid
    obtain rfl := Option.some.inj hid
    exact hclosed

theorem safe_respond {raw : Json} {fuel : ℕ} :
    (respond L cfg raw fuel).Safe (oobProtocol L cfg guarded) (Answered L i) (Refused guarded)
      s := by
  unfold respond
  refine Atomic.safe_bind ?_
  refine safe_keyDoc ?_ fun e => refused_none e s
  intro doc grantRaw _ _ _
  refine Atomic.safe_bind (safe_checked ?_ fun e => refused_none e s)
  intro requestId _
  refine Atomic.safe_bind (safe_checked ?_ fun e => refused_none e s)
  intro _ _
  refine Atomic.safe_bind (safe_lockHolderRecord ?_ refused_extends)
  intro t r checkedAt _ hr _ hlapsed hstate
  refine Atomic.safe_bind (safe_fresh ?_ refused_extends)
  intro u htu
  have hru := hr.extends htu
  refine Atomic.safe_bind (Atomic.safe_attempt (safe_grantChecks ?_ ?_))
  · intro v grant p huv hchecked
    refine Atomic.safe_draw_bind ?_
    intro env
    have hholds : (Move.decided grant checkedAt).Holds L cfg r
        (decidedRecord r grantRaw p env.now) :=
      ⟨hstate, hlapsed, p, grantRaw, env.now, hchecked, rfl⟩
    refine Atomic.safe_bind (safe_compareAndSet (hru.extends huv) hholds ?_ ?_)
    · intro w _ _ _
      refine Atomic.safe_bind (safe_response ?_ fun e => refused_none e w)
      intro body
      exact safe_document
    · intro w _ _ _
      exact refused_none _ w
  · intro e v huv
    refine safe_decline (hru.extends huv) (Or.inr hstate) ?_
    intro w _ hclosed id hid
    obtain rfl := Option.some.inj hid
    exact hclosed

/-- `consume` spends the grant of the record it was given. -/
theorem safe_consume {doc : OobDocument} {r₀ r : OobRecord} {checkedAt : ℕ}
    (hrequest : L.readRequestId doc.payload = .ok r.requestId)
    (hproven : ∃ key, verifyBoundKey L.toTaskLibs doc.toTrustTask keyPurposes = .ok key)
    (hr₀ : s.Written r₀) (hsame : r₀.requestId = r.requestId)
    (hstarter : doc.issuer = some r₀.startKey) (hr : s.Written r) (hstate : r.state = .approved)
    (hlapsed : r.lapsed checkedAt = false) :
    (consume cfg i doc r checkedAt).Safe (oobProtocol L cfg guarded) (Answered L i)
      (Refused guarded) s := by
  unfold consume
  refine Atomic.safe_draw_bind ?_
  intro env₁
  have hholds : (Move.consumed i checkedAt).Holds L cfg r (r.next .consumed env₁.now) :=
    ⟨hstate, hlapsed, env₁.now, rfl⟩
  refine Atomic.safe_bind (safe_compareAndSet hr hholds ?_ ?_)
  · intro t hst hmoved _
    refine Atomic.safe_draw_bind ?_
    intro env₂
    cases env₂.isAllowed (r.identifiedDid.getD "") with
    | false => exact refused_none _ t
    | true =>
        refine Atomic.safe_draw_bind ?_
        intro env₃ doc' session heq
        cases heq
        exact ⟨r₀, r, _, checkedAt, hrequest, hproven, hr₀.extends hst, hsame, hstarter, hmoved,
          rfl, rfl⟩
  · intro t _ _ _
    exact refused_none _ t

theorem safe_redeemLoop {doc : OobDocument} {requestId : String} {r₀ : OobRecord} {fuel : ℕ}
    (hrequest : L.readRequestId doc.payload = .ok requestId)
    (hproven : ∃ key, verifyBoundKey L.toTaskLibs doc.toTrustTask keyPurposes = .ok key)
    (hr₀ : s.Written r₀) (hid₀ : r₀.requestId = requestId)
    (hstarter : doc.issuer = some r₀.startKey) :
    (redeemLoop cfg i doc requestId fuel).Safe (oobProtocol L cfg guarded) (Answered L i)
      (Refused guarded) s := by
  induction fuel generalizing s with
  | zero => trivial
  | succ fuel ih =>
      unfold redeemLoop
      refine Atomic.safe_bind (safe_current ?_ refused_extends)
      intro t r now hst hr hid hlapsed
      have hagain : ∀ u, Extends t u → (redeemLoop cfg i doc requestId fuel).Safe
          (oobProtocol L cfg guarded) (Answered L i) (Refused guarded) u :=
        fun u htu => ih (hr₀.extends (hst.trans htu))
      have hdeliver : ∀ n, r.state = .claimed → (do
          let now ← clock
          let next := { r.next .claimed now with matchNumberDelivered := true }
          if ← compareAndSet r.version next .delivered then
            refuse ⟨.pending, "not decided yet", some (stateDetails r (some n))⟩
          else
            redeemLoop cfg i doc requestId fuel : OobM OobAnswer).Safe
          (oobProtocol L cfg guarded) (Answered L i) (Refused guarded) t := by
        intro n hstate
        refine Atomic.safe_draw_bind ?_
        intro env
        have hholds : Move.delivered.Holds L cfg r
            { r.next .claimed env.now with matchNumberDelivered := true } :=
          ⟨hstate, env.now, rfl⟩
        refine Atomic.safe_bind (safe_compareAndSet hr hholds ?_ ?_)
        · intro u _ _ _
          exact refused_none _ u
        · intro u htu _ _
          exact hagain u htu
      have hwait : (do
          if ← Atomic.draw (·.holdOver) then
            refuse ⟨.pending, "not decided yet", some (stateDetails r r.matchNumber)⟩
          else
            redeemLoop cfg i doc requestId fuel : OobM OobAnswer).Safe
          (oobProtocol L cfg guarded) (Answered L i) (Refused guarded) t := by
        refine Atomic.safe_draw_bind ?_
        intro env
        cases env.holdOver with
        | true => exact refused_none _ t
        | false => exact hagain t (Extends.refl t)
      dsimp only
      cases hstate : r.state with
      | approved =>
          rw [← hid] at hrequest
          exact safe_consume hrequest hproven (hr₀.extends hst) (hid₀.trans hid.symm) hstarter hr
            hstate hlapsed
      | declined => exact refused_none _ t
      | cancelled => exact refused_none _ t
      | expired => exact refused_none _ t
      | consumed => exact refused_none _ t
      | pending =>
          simp only [reduceCtorEq, decide_false, Bool.false_and, Bool.false_eq_true, if_false]
          exact hwait
      | identified =>
          simp only [reduceCtorEq, decide_false, Bool.false_and, Bool.false_eq_true, if_false]
          exact hwait
      | claimed =>
          cases hnumber : (if (decide (OobState.claimed = OobState.claimed) &&
              !r.matchNumberDelivered) = true then r.matchNumber else none) with
          | some n => exact hdeliver n hstate
          | none => exact hwait

theorem safe_redeem {raw : Json} {fuel : ℕ} :
    (redeem L cfg i raw fuel).Safe (oobProtocol L cfg guarded) (Answered L i) (Refused guarded)
      s := by
  unfold redeem
  refine Atomic.safe_bind ?_
  refine safe_keyDoc ?_ fun e => refused_none e s
  intro doc requestId key hkey hrequest
  refine Atomic.safe_bind (safe_current ?_ refused_extends)
  intro t r₀ _ _ hr₀ hid₀ _
  by_cases hstarter : doc.issuer ≠ some r₀.startKey
  · simp only [if_pos hstarter]
    exact refused_none _ t
  simp only [if_neg hstarter]
  refine Atomic.safe_bind (safe_fresh ?_ refused_extends)
  intro u htu
  refine Atomic.safe_draw_bind ?_
  intro env
  cases env.pollRefused with
  | some msg => exact refused_none _ u
  | none =>
      exact safe_redeemLoop hrequest ⟨key, hkey⟩ (hr₀.extends htu) hid₀ (not_not.mp hstarter)

theorem safe_cancel {raw : Json} {fuel : ℕ} :
    (cancel L cfg raw fuel).Safe (oobProtocol L cfg guarded) (Answered L i) (Refused guarded)
      s := by
  unfold cancel
  refine Atomic.safe_bind ?_
  refine safe_keyDoc ?_ fun e => refused_none e s
  intro doc requestId _ _ _
  refine Atomic.safe_bind (safe_current ?_ refused_extends)
  intro t r _ _ hr _ _
  by_cases hparty : (decide (doc.issuer.getD "" ≠ r.startKey) &&
      decide (some (doc.issuer.getD "") ≠ r.approverKey)) = true
  · simp only [if_pos hparty]
    exact refused_none _ t
  simp only [if_neg hparty]
  refine Atomic.safe_bind (safe_fresh ?_ refused_extends)
  intro u htu
  refine Atomic.safe_bind (safe_response ?_ fun e => refused_none e u)
  intro body
  by_cases hcancelled : r.state = .cancelled
  · simp only [if_pos hcancelled]
    exact safe_document
  simp only [if_neg hcancelled]
  by_cases hdecided : (r.state.isFinal || decide (r.state = .approved)) = true
  · simp only [if_pos hdecided]
    exact refused_none _ u
  simp only [if_neg hdecided]
  refine Atomic.safe_draw_bind ?_
  intro env
  have hopen : r.state.isFinal = false := by
    simp only [Bool.or_eq_true, not_or, Bool.not_eq_true] at hdecided
    exact hdecided.1
  have hholds : Move.cancelled.Holds L cfg r (r.next .cancelled env.now) := ⟨hopen, env.now, rfl⟩
  refine Atomic.safe_bind (safe_compareAndSet (hr.extends htu) hholds ?_ ?_)
  · intro v _ _ _
    exact safe_document
  · intro v _ _ _
    exact refused_none _ v

theorem safe_handle (fuel : ℕ) (i : ℕ) (c : OobCall) (s : OobStore) :
    (handle L cfg fuel i c).Safe (oobProtocol L cfg guarded) (Answered L i) (Refused guarded)
      s := by
  unfold handle
  dsimp only
  generalize ((c.raw.get "type").bind Json.asStr).getD "" = typeUri
  by_cases h₁ : typeUri = L.typeUri "auth::oob::request::v0_1"
  · rw [if_pos h₁]
    exact safe_request
  rw [if_neg h₁]
  by_cases h₂ : typeUri = L.typeUri "auth::oob::claim::v0_1"
  · rw [if_pos h₂]
    exact safe_claim
  rw [if_neg h₂]
  by_cases h₃ : typeUri = L.typeUri "auth::oob::prove::v0_1"
  · rw [if_pos h₃]
    exact safe_prove
  rw [if_neg h₃]
  by_cases h₄ : typeUri = L.typeUri "auth::oob::respond::v0_1"
  · rw [if_pos h₄]
    exact safe_respond
  rw [if_neg h₄]
  by_cases h₅ : typeUri = L.typeUri "auth::oob::redeem::v0_1"
  · rw [if_pos h₅]
    exact safe_redeem
  rw [if_neg h₅]
  by_cases h₆ : typeUri = L.typeUri "auth::oob::cancel::v0_1"
  · rw [if_pos h₆]
    exact safe_cancel
  · rw [if_neg h₆]
    exact refused_none _ s

end

/-! ## Runs -/

/-- The handlers of the service at work on its store. -/
abbrev OobPool := Pool ℕ OobStore OobAccess OobEnv Empty OobRefusal OobAnswer

/-- The service with the calls it is sent: handler `i` answers the `i`-th. -/
def service (L : OobLibs) (cfg : OobConfig) (fuel : ℕ → ℕ) (calls : ℕ → OobCall) : OobPool :=
  Pool.start OobStore.new fun i => handle L cfg (fuel i) i (calls i)

/-- A request about to be opened has an id that no request had before. -/
def newId (m : OobPool) : PoolEvent ℕ OobEnv → Bool
  | .drop _ => true
  | .run i _ =>
      match m.handler i with
      | .access (.create record _) _ =>
          m.store.log.all fun f => f.written.requestId ≠ record.requestId
      | _ => true

/-- A request about to be declined is still the record that was read, or has come to its
end. -/
def declinesOpen (m : OobPool) : PoolEvent ℕ OobEnv → Bool
  | .drop _ => true
  | .run i _ =>
      match m.handler i with
      | .access (.compareAndSet expected next .declined) _ =>
          m.store.matchesVersion next.requestId expected || m.store.ended next.requestId
      | _ => true

section

variable {L : OobLibs} {cfg : OobConfig} {guarded : Prop}

theorem meets_of_newId {m : OobPool} {event : PoolEvent ℕ OobEnv} (hnew : newId m event = true)
    (hdeclines : guarded → declinesOpen m event = true) :
    m.Meets (oobProtocol L cfg guarded) event := by
  cases event with
  | drop i => trivial
  | run i x =>
      intro o k hk
      unfold newId at hnew
      unfold declinesOpen at hdeclines
      simp only [hk] at hnew hdeclines
      cases o with
      | get => trivial
      | remember key until' now => trivial
      | create record now =>
          intro f hf
          exact of_decide_eq_true (List.all_eq_true.mp hnew f hf)
      | compareAndSet expected next why =>
          cases why with
          | declined => exact fun hguarded => Bool.or_eq_true_iff.mp (hdeclines hguarded)
          | _ => trivial

theorem answered_lasting (i : ℕ) (a : OobAnswer) :
    (oobProtocol L cfg guarded).Lasting (Answered L i a) := by
  intro s t hst h doc session heq
  obtain ⟨r₀, r, c, redeemedAt, hredeemed⟩ := h doc session heq
  exact ⟨r₀, r, c, redeemedAt, { hredeemed with
    read := hredeemed.read.extends hst
    consumed := Extends.mem hst hredeemed.consumed }⟩

theorem refused_lasting (e : OobRefusal) : (oobProtocol L cfg guarded).Lasting (Refused guarded e) :=
  fun _ _ hst h id hid hguarded => Extends.closed hst id (h id hid hguarded)

/-- The run lemma: at every point of a run the store is recorded and the handlers keep to
the protocol, and from there on the store only grows. -/
theorem service_exec {fuel : ℕ → ℕ} {calls : ℕ → OobCall} {events more : List (PoolEvent ℕ OobEnv)}
    (hmeets : Run.Meets Pool.step (fun m event => m.Meets (oobProtocol L cfg guarded) event)
      (service L cfg fuel calls) (events ++ more)) :
    Pool.Safe (oobProtocol L cfg guarded) (fun i => Answered L i) (fun _ => Refused guarded)
        ((service L cfg fuel calls).exec events) ∧
      Pool.Safe (oobProtocol L cfg guarded) (fun i => Answered L i) (fun _ => Refused guarded)
        ((service L cfg fuel calls).exec (events ++ more)) ∧
      Extends ((service L cfg fuel calls).exec events).store
        ((service L cfg fuel calls).exec (events ++ more)).store := by
  obtain ⟨hfront, hback⟩ := hmeets.of_append
  have hstart : Pool.Safe (oobProtocol L cfg guarded) (fun i => Answered L i)
      (fun _ => Refused guarded) (service L cfg fuel calls) :=
    Pool.Safe.start recorded_new fun i => safe_handle (fuel i) i (calls i) OobStore.new
  obtain ⟨hsafe, -⟩ := hstart.exec hfront answered_lasting fun _ => refused_lasting
  obtain ⟨hsafe', hgrows⟩ := hsafe.exec hback answered_lasting fun _ => refused_lasting
  have hexec : (service L cfg fuel calls).exec (events ++ more) =
      Pool.exec ((service L cfg fuel calls).exec events) more := Run.exec_append _ _ _ _
  rw [hexec]
  exact ⟨hsafe, hsafe', hgrows⟩

/-! ## What a session goes back to -/

/-- The records and documents a sign-in went through. -/
structure Ceremony where
  claimed : OobRecord
  identified : OobRecord
  approved : OobRecord
  consumed : OobRecord
  identify : OobDocument
  step2 : Json
  grant : OobDocument
  payload : GrantPayload
  decidedAt : ℕ
  redeemedAt : ℕ

/-- The session that handler `i` answers to `doc` with is the outcome of the ceremony
`c`. -/
structure SignedIn (L : OobLibs) (s : OobStore) (i : ℕ) (doc : OobDocument)
    (session : ApprovedSession) (c : Ceremony) : Prop where
  identified : .moved c.claimed c.identified (.identified c.identify c.step2) ∈ s.log
  decided : .moved c.identified c.approved (.decided c.grant c.decidedAt) ∈ s.log
  consumed : .moved c.approved c.consumed (.consumed i c.redeemedAt) ∈ s.log
  /-- The redeemer proved the start key of the request. -/
  request : L.readRequestId doc.payload = .ok c.approved.requestId
  starter : doc.issuer = some c.approved.startKey
  starterProven : ∃ key, verifyBoundKey L.toTaskLibs doc.toTrustTask keyPurposes = .ok key
  sessionKey : session.sessionKey = c.approved.startKey
  /-- The subject passed `prove` for the request. -/
  identifyChecked : IdentifyChecked L c.claimed c.identify session.subject
  sameRequest : c.claimed.requestId = c.approved.requestId
  sameApprover : c.claimed.approverKey = c.approved.approverKey
  /-- The subject signed a grant that approves, for this request. -/
  grantIssuer : c.grant.issuer = some session.subject
  grantProven : verifyApproval L.toTaskLibs ⟨L.keys, none⟩ c.grant.toTrustTask = .ok ()
  grantPayload : L.readGrant c.grant.payload = some c.payload
  approves : c.payload.approve = true
  grantRequest : c.payload.requestId = c.approved.requestId
  grantApprover : c.approved.approverKey = some c.payload.approverKey
  grantSession : c.payload.sessionKey = c.approved.startKey
  grantOrigin : c.payload.origin = c.approved.origin
  grantDigest : contextDigestsEqual L c.payload.contextDigest (L.contextDigest c.step2) = true
  /-- The request was in its decision window when the grant was there, and at the
  redeem. -/
  decidedInTime : c.decidedAt ≤ c.approved.decisionDeadline.getD 0
  redeemedInTime : c.redeemedAt ≤ c.approved.decisionDeadline.getD 0

theorem le_deadline_of_lapsed {r : OobRecord} {now : ℕ} (hstate : r.state.inDecisionWindow = true)
    (hpending : r.state ≠ .pending) (h : r.lapsed now = false) :
    now ≤ r.decisionDeadline.getD 0 := by
  unfold OobRecord.lapsed at h
  rw [if_neg hpending, if_pos hstate] at h
  exact Nat.not_lt.mp (of_decide_eq_false h)

theorem Redeemed.signedIn {s : OobStore} (hinv : Recorded L cfg s) {i : ℕ} {doc : OobDocument}
    {session : ApprovedSession} {r₀ r c : OobRecord} {redeemedAt : ℕ}
    (h : Redeemed L s i doc session r₀ r c redeemedAt) :
    ∃ ceremony, SignedIn L s i doc session ceremony := by
  obtain ⟨hholds, hr⟩ := hinv.moved r c _ h.consumed
  obtain ⟨happroved, hlapsed, -⟩ := hholds
  obtain ⟨b, grant, decidedAt, p, raw, now, hdecided, hb, hident, hblapsed, hgrant, happrove,
    hrb⟩ := hinv.approved hr happroved
  obtain ⟨b₀, identify, step2, did, now', hidentified, hb₀, hidentify, hbb₀⟩ :=
    hinv.identified hb hident
  have hstarter := (hinv.sameRequest h.read hr h.sameId).startKey
  have hbdid : b.identifiedDid.getD "" = did := by
    rw [hbb₀]
    rfl
  have hbdigest : b.step2Digest.getD "" = L.contextDigest step2 := by
    rw [hbb₀]
    rfl
  have hrequest : b.requestId = r.requestId := by
    rw [hrb]
    rfl
  have happrover : b.approverKey = r.approverKey := by
    rw [hrb]
    rfl
  have hkey : b.startKey = r.startKey := by
    rw [hrb]
    rfl
  have horigin : b.origin = r.origin := by
    rw [hrb]
    rfl
  have hdeadline : b.decisionDeadline = r.decisionDeadline := by
    rw [hrb]
    rfl
  have hsubject : session.subject = did := by
    rw [h.subject, ← hbdid, hrb]
    rfl
  refine ⟨⟨b₀, b, r, c, identify, step2, grant, p, decidedAt, redeemedAt⟩, ?_⟩
  constructor
  · exact hidentified
  · exact hdecided
  · exact h.consumed
  · exact h.request
  · rw [h.starter, hstarter]
  · exact h.proven
  · exact h.sessionKey
  · rw [hsubject]
    exact hidentify
  · rw [← hrequest, hbb₀]
    rfl
  · rw [← happrover, hbb₀]
    rfl
  · rw [hgrant.issuer, hbdid, hsubject]
  · exact hgrant.proven
  · exact hgrant.payload
  · exact happrove
  · exact hgrant.requestId.trans hrequest
  · exact happrover.symm.trans hgrant.approverKey
  · exact hgrant.sessionKey.trans hkey
  · exact hgrant.origin.trans horigin
  · rw [← hbdigest]
    exact hgrant.digest
  · change decidedAt ≤ r.decisionDeadline.getD 0
    rw [← hdeadline]
    apply le_deadline_of_lapsed _ _ hblapsed
    · rw [hident]
      rfl
    · rw [hident]
      exact nofun
  · apply le_deadline_of_lapsed _ _ hlapsed
    · rw [happroved]
      rfl
    · rw [happroved]
      exact nofun

/-- Signing in out of band is safe, whatever the handlers do in between each other: a
request moves along its edges, its end is the last, one session comes of it, and that goes
back to what the starter, the wallet and the member signed. -/
theorem sign_in_safe (L : OobLibs) (cfg : OobConfig) (fuel : ℕ → ℕ) (calls : ℕ → OobCall)
    (events : List (PoolEvent ℕ OobEnv))
    (hnew : Run.Meets Pool.step (fun m event => newId m event = true)
      (service L cfg fuel calls) events) :
    (∀ front event back id r r', events = front ++ event :: back →
      ((service L cfg fuel calls).exec front).store.records.lookup id = some r →
      ((service L cfg fuel calls).exec (front ++ [event])).store.records.lookup id = some r' →
      r'.state = r.state ∨ r.state.Edge r'.state) ∧
    (∀ front back id r r', events = front ++ back →
      ((service L cfg fuel calls).exec front).store.records.lookup id = some r →
      ((service L cfg fuel calls).exec events).store.records.lookup id = some r' →
      r.state.Reaches r'.state ∧ r'.startKey = r.startKey ∧ r'.origin = r.origin ∧
        (r.state.isFinal = true → r' = r)) ∧
    (∀ i j doc doc' session session' requestId,
      ((service L cfg fuel calls).exec events).handler i = .ret (.approved doc session) →
      ((service L cfg fuel calls).exec events).handler j = .ret (.approved doc' session') →
      L.readRequestId doc.payload = .ok requestId →
      L.readRequestId doc'.payload = .ok requestId → i = j) ∧
    (∀ i doc session,
      ((service L cfg fuel calls).exec events).handler i = .ret (.approved doc session) →
      ∃ c, SignedIn L ((service L cfg fuel calls).exec events).store i doc session c) := by
  have hmeets : Run.Meets Pool.step (fun m event => m.Meets (oobProtocol L cfg False) event)
      (service L cfg fuel calls) events := by
    refine hnew.mono ?_
    intro m event h
    exact meets_of_newId h False.elim
  have hend : Pool.Safe (oobProtocol L cfg False) (fun i => Answered L i)
      (fun _ => Refused False) ((service L cfg fuel calls).exec events) := by
    have happ := hmeets
    rw [← List.append_nil events] at happ
    exact (service_exec happ).1
  have hsigned : ∀ i doc session,
      ((service L cfg fuel calls).exec events).handler i = .ret (.approved doc session) →
      ∃ c, SignedIn L ((service L cfg fuel calls).exec events).store i doc session c := by
    intro i doc session hi
    obtain ⟨r₀, r, c, redeemedAt, hredeemed⟩ := hend.answered hi doc session rfl
    exact hredeemed.signedIn hend.inv
  refine ⟨?_, ?_, ?_, hsigned⟩
  · intro front event back id r r' hevents hr hr'
    have happ := hmeets
    rw [hevents, ← List.singleton_append, ← List.append_assoc] at happ
    obtain ⟨hsafe, hsafe', -⟩ := service_exec happ.of_append.1
    obtain ⟨hlast, -⟩ := happ.of_append.1.of_append.2
    have hexec : (service L cfg fuel calls).exec (front ++ [event]) =
        Pool.step ((service L cfg fuel calls).exec front) event := by
      have hsplit := Run.exec_append Pool.step (service L cfg fuel calls) front [event]
      rw [Run.exec_cons, Run.exec_nil] at hsplit
      exact hsplit
    rcases Pool.step_store ((service L cfg fuel calls).exec front) event with hstore | hstore
    · rw [hexec, hstore, hr] at hr'
      obtain rfl := Option.some.inj hr'
      exact Or.inl rfl
    · obtain ⟨i, x, o, k, rfl, hk, hstore⟩ := hstore
      have hafter := hsafe'.inv
      rw [hexec, hstore] at hafter
      rw [hexec, hstore] at hr'
      exact perform_edge hsafe.inv (hlast o k hk) hafter hr hr'
  · intro front back id r r' hevents hr hr'
    have happ := hmeets
    rw [hevents] at happ
    obtain ⟨hsafe, -, hgrows⟩ := service_exec happ
    rw [← hevents] at hgrows
    rcases Recorded.stored_later hsafe.inv hend.inv hgrows.log hr hr' with rfl | hlater
    · exact ⟨.refl, rfl, rfl, fun _ => rfl⟩
    · refine ⟨hlater.reaches, hlater.startKey, hlater.origin, ?_⟩
      intro hfinal
      rw [hlater.isOpen] at hfinal
      cases hfinal
  · intro i j doc doc' session session' requestId hi hj hid hid'
    obtain ⟨c, hc⟩ := hsigned i doc session hi
    obtain ⟨c', hc'⟩ := hsigned j doc' session' hj
    have hrequest := hc.request
    rw [hid] at hrequest
    have hrequest' := hc'.request
    rw [hid'] at hrequest'
    have hsame : c.consumed.requestId = c'.consumed.requestId := by
      have hlater := (Recorded.moved hend.inv _ _ _ hc.consumed).1.later
      have hlater' := (Recorded.moved hend.inv _ _ _ hc'.consumed).1.later
      rw [hlater.requestId, hlater'.requestId, ← Except.ok.inj hrequest, ← Except.ok.inj hrequest']
    have hfinal : ∀ {b a : OobRecord} {me at' : ℕ}, .moved b a (.consumed me at') ∈
        ((service L cfg fuel calls).exec events).store.log → a.state.isFinal = true := by
      intro b a me at' hmem
      obtain ⟨-, -, now, rfl⟩ := (Recorded.moved hend.inv _ _ _ hmem).1
      rfl
    have hfact := Recorded.final_unique hend.inv hc.consumed hc'.consumed hsame
      (hfinal hc.consumed) (hfinal hc'.consumed)
    injection hfact with _ _ hwhy
    injection hwhy

end

namespace Sample

/-- A document, read off its members. -/
def readDocument (raw : Json) : Option OobDocument := do
  let id ← (raw.get "id").bind Json.asStr
  let typeUri ← (raw.get "type").bind Json.asStr
  let issuer ← (raw.get "issuer").bind Json.asStr
  let method ← (raw.get "method").bind Json.asStr
  let purpose ← (raw.get "purpose").bind Json.asStr
  let payload ← raw.get "payload"
  return {
    id := id
    threadId := none
    typeUri := typeUri
    issuer := some issuer
    recipient := some "did:web:control"
    issuedAt := some 0
    expiresAt := none
    payload := payload
    proof := some ⟨method, purpose, "z1"⟩
    parentThreadId := (raw.get "parentThreadId").bind Json.asStr }

/-- The member of a payload, as text. -/
def readText (name : String) (payload : Json) : Except String String :=
  match (payload.get name).bind Json.asStr with
  | some s => .ok s
  | none => .error "no such member"

/-- Libraries to which every key is an Ed25519 key and every proof is good. -/
def oobLibs : OobLibs where
  typeUri path := path
  errorPrefix := "error"
  multibaseDecode s :=
    if s = "zDigest" then some (true, 0x12 :: 0x20 :: List.replicate 32 0)
    else some (true, 0xed :: 0x01 :: List.replicate 32 0)
  parseDataIntegrityProof _ := .ok ()
  verifyDidKey _ := .ok ()
  integrityText _ := "integrity"
  verificationText _ := "verification"
  instantText _ := "an instant"
  document := readDocument
  readRequest _ := .ok ()
  readRequestId := readText "requestId"
  readCarried payload :=
    match payload.get "carried" with
    | some carried => .ok carried
    | none => .error "nothing carried"
  readIdentify payload :=
    match readText "requestId" payload, readText "enteredNumber" payload with
    | .ok requestId, .ok number => some ⟨requestId, number⟩
    | _, _ => none
  readGrant payload :=
    match readText "requestId" payload with
    | .ok requestId =>
        some ⟨requestId, "did:key:zA", "did:key:zB", "https://c", "zDigest", true, 90⟩
    | .error _ => none
  write _ v := .ok v
  contextDigest _ := "zDigest"
  rfc3339 _ := "a time"
  keys := ⟨fun _ _ _ => .ok (), fun _ => false⟩

def oobConfig : OobConfig := ⟨"did:web:control", "control", "https://c", 60, 60, 3600⟩

def requestId : String := "AAAAAAAAAAAAAAAAAAAAAA"

/-- What the deployment answers at second 10. -/
def env : OobEnv where
  now := 10
  hasVerifier := true
  isAllowed _ := true
  displayName _ := none
  sign unsigned _ := .ok unsigned
  uuid := "u"
  newRequestId := requestId
  twoDigits := "42"
  pollRefused := none
  holdOver := true

/-- A document of `issuer`, proved with its key. -/
def signedBy (issuer key id task purpose : String) (payload : Json) : Json :=
  .obj [("id", .str id), ("type", .str s!"auth::oob::{task}::v0_1"), ("issuer", .str issuer),
    ("method", .str s!"{issuer}#{key}"), ("purpose", .str purpose), ("payload", payload),
    ("parentThreadId", .str requestId)]

/-- The payload that names the request. -/
def named : Json := .obj [("requestId", .str requestId)]

/-- A `prove` with the number that the wallet was told. -/
def proving (id number : String) : Json :=
  signedBy "did:key:zA" "zA" id "prove" "authentication" (.obj [("carried",
    signedBy "did:web:al" "key-1" id "identify" "authentication" (.obj [
      ("requestId", .str requestId), ("approverKey", .str "did:key:zA"),
      ("enteredNumber", .str number)]))])

def noConnection : Connection := ⟨none, none, none, none⟩

/-- The calls of a sign-in, and a `prove` with a wrong number. -/
def calls : ℕ → OobCall
  | 0 =>
      ⟨signedBy "did:key:zB" "zB" "b1" "request" "authentication" (.obj []), noConnection⟩
  | 1 => ⟨signedBy "did:key:zA" "zA" "a1" "claim" "authentication" named, noConnection⟩
  | 2 => ⟨proving "a2" "17", noConnection⟩
  | 3 => ⟨signedBy "did:key:zB" "zB" "b2" "redeem" "authentication" named, noConnection⟩
  | 4 => ⟨proving "a3" "42", noConnection⟩
  | 5 =>
      ⟨signedBy "did:key:zA" "zA" "a4" "respond" "authentication" (.obj [("carried",
        signedBy "did:web:al" "key-1" "a4" "grant" "assertionMethod" named)]), noConnection⟩
  | _ => ⟨signedBy "did:key:zB" "zB" "b3" "redeem" "authentication" named, noConnection⟩

/-- Handler `i` runs to its end. -/
def whole (i : ℕ) : List (PoolEvent ℕ OobEnv) :=
  List.replicate 24 (.run i env)

/-- A sign-in: the request is opened, claimed, shown its number, proved for, decided and
redeemed. -/
def signIn : List (PoolEvent ℕ OobEnv) :=
  whole 0 ++ whole 1 ++ whole 3 ++ whole 4 ++ whole 5 ++ whole 6

/-- The fuel of each handler. -/
def fuel (_ : ℕ) : ℕ := 3

end Sample

/-- Whom a handler has signed in. -/
def signedInAs : OobM OobAnswer → Option String
  | .ret (.approved _ session) => some session.subject
  | _ => none

theorem signedInAs_eq_some {p : OobM OobAnswer} {subject : String}
    (h : signedInAs p = some subject) :
    ∃ doc session, p = .ret (.approved doc session) ∧ session.subject = subject := by
  cases p with
  | ret a =>
      cases a with
      | document body => cases h
      | approved doc session => exact ⟨doc, session, rfl, Option.some.inj h⟩
  | _ => cases h

/-- A member signs in. -/
theorem sign_in_safe_member :
    ∃ doc session c,
      ((service Sample.oobLibs Sample.oobConfig Sample.fuel Sample.calls).exec
        Sample.signIn).handler 6 = .ret (.approved doc session) ∧
      session.subject = "did:web:al" ∧
      SignedIn Sample.oobLibs
        ((service Sample.oobLibs Sample.oobConfig Sample.fuel Sample.calls).exec
          Sample.signIn).store 6 doc session c := by
  have ⟨hnew, hanswer⟩ :
      Run.Meets Pool.step (fun m event => newId m event = true)
        (service Sample.oobLibs Sample.oobConfig Sample.fuel Sample.calls) Sample.signIn ∧
      signedInAs (((service Sample.oobLibs Sample.oobConfig Sample.fuel Sample.calls).exec
        Sample.signIn).handler 6) = some "did:web:al" := by
    decide +kernel
  obtain ⟨-, -, -, hsigned⟩ := sign_in_safe Sample.oobLibs Sample.oobConfig Sample.fuel
    Sample.calls Sample.signIn hnew
  obtain ⟨doc, session, hhandler, hsubject⟩ := signedInAs_eq_some hanswer
  obtain ⟨c, hc⟩ := hsigned 6 doc session hhandler
  exact ⟨doc, session, c, hhandler, hsubject, hc⟩

end Oob

end DidHosting
