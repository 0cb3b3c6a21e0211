import DidHosting.Support.Text
import DidHosting.Common.Json
import DidHosting.Common.Replay

/-!
# Signed documents

A Trust Task document says by itself who sent it, to whom and when, and its proof shows
it.  The services act on a privileged document only if the proof is made by a key of the
document's issuer, or by the key of the issuer's own session.

Keys and signatures are the business of a `Resolution`: what the resolver and the
signature library answer while one document is handled.
-/

namespace DidHosting

open Text

/-! ## Documents -/

/-- The proof of a document, with what the services read of it. -/
structure TaskProof where
  verificationMethod : String
  proofPurpose : String
  proofValue : String
deriving DecidableEq, Repr

/-- `TrustTask<Value>`.  Instants are in nanoseconds since the epoch. -/
structure TrustTask where
  id : String
  threadId : Option String
  typeUri : String
  issuer : Option String
  recipient : Option String
  issuedAt : Option ℤ
  expiresAt : Option ℤ
  payload : Json
  proof : Option TaskProof
deriving Repr

/-- `controller_did`: the part of a verification method before its `#`. -/
def controllerDid (verificationMethod : String) : String :=
  before '#' verificationMethod

/-- The purposes the services verify a proof for. -/
inductive ProofPurpose where
  | authentication
  | assertionMethod
deriving DecidableEq, Repr

/-- The value of a proof's `proofPurpose`. -/
def ProofPurpose.name : ProofPurpose → String
  | authentication => "authentication"
  | assertionMethod => "assertionMethod"

/-! ## Errors -/

/-- `DataIntegrityError`, as far as it is told apart. -/
inductive DataIntegrityError where
  | resolver (msg : String)
  | invalidSignature
  | unsupportedCryptoSuite (name : String)
  | keyTypeMismatch (text : String)
  | invalidPublicKey (reason : String)
  | canonicalization (reason : String)
  | malformedProof (reason : String)
deriving DecidableEq, Repr

inductive VerificationError where
  | malformedProof (text : String)
  | issuerMismatch (text : String)
  | signatureInvalid
  | unsupportedCryptosuite (name : String)
  | other (text : String)
deriving DecidableEq, Repr

/-- `RejectReason`, as far as the gate uses it. -/
inductive RejectReason where
  | proofRequired
  | proofInvalid (reason : String)
  | malformedRequest (reason : String)
  | wrongRecipient (inBand expected : String)
  | expired (expiresAt : ℤ)
  | permissionDenied (reason : String)
  | unavailable
  | idConflict
  | internalError (reason : String)
deriving DecidableEq, Repr

/-- The libraries the gate is linked with. -/
structure TaskLibs where
  /-- `Payload::TYPE_URI` of the generated module with this path. -/
  typeUri : String → String
  /-- `vta_sdk::inbound::TRUST_TASK_ERROR_PREFIX`. -/
  errorPrefix : String
  /-- `multibase::decode`: whether the base is base58btc, and the bytes. -/
  multibaseDecode : String → Option (Bool × List UInt8)
  /-- `parse_data_integrity_proof`. -/
  parseDataIntegrityProof : TaskProof → Except VerificationError Unit
  /-- `ProofVerifier::verify` with keys read off `did:key` identifiers. -/
  verifyDidKey : TrustTask → Except VerificationError Unit
  /-- The `Display` text of an error of the proof library. -/
  integrityText : DataIntegrityError → String
  /-- The `Display` text of a `VerificationError`. -/
  verificationText : VerificationError → String
  /-- The `Display` text of an instant. -/
  instantText : ℤ → String

/-- The mark of a failure to reach the signer's DID. -/
def unreachableMark : String := "signer DID unreachable"

/-- The mark of a refusal because the signer deactivated its DID. -/
def deactivatedMark : String := "is deactivated; its keys are no longer valid"

def VerificationError.isUnreachable : VerificationError → Bool
  | other text => containsText unreachableMark text
  | _ => false

def mapIntegrityError (L : TaskLibs) : DataIntegrityError → VerificationError
  | .unsupportedCryptoSuite name => .unsupportedCryptosuite name
  | .keyTypeMismatch text => .issuerMismatch text
  | .invalidSignature => .signatureInvalid
  | .invalidPublicKey reason => .malformedProof s!"public key: {reason}"
  | .canonicalization reason => .other s!"canonicalisation: {reason}"
  | .malformedProof reason => .malformedProof reason
  | .resolver msg => .other (L.integrityText (.resolver msg))

/-! ## The verifier -/

/-- What key resolution and the signature check answer while a document is
handled.  `verify doc purpose fresh` is the check of the document's proof with a
key listed for `purpose`, against the cached DID documents or against fresh ones;
`refresh` says whether a DID may be resolved afresh. -/
structure Resolution where
  verify : TrustTask → ProofPurpose → Bool → Except DataIntegrityError Unit
  refresh : String → Bool

/-- The signature of `doc` was found valid, with a key listed for `purpose`. -/
def Resolution.Verifies (keys : Resolution) (doc : TrustTask) (purpose : ProofPurpose) :
    Prop :=
  ∃ fresh, keys.verify doc purpose fresh = .ok ()

/-- The one key that may sign for the principal of a bearer session. -/
structure SessionDelegate where
  principal : String
  verificationMethod : String
deriving DecidableEq, Repr

/-- Whether a check may accept the delegate. -/
inductive Delegation where
  | allowed
  | refused
deriving DecidableEq, Repr

/-- `TransportBoundVerifier`. -/
structure Verifier where
  keys : Resolution
  delegate : Option SessionDelegate

/-- The delegate stands in for `issuer` with the key `vm`. -/
def delegates (delegate : Option SessionDelegate) (vm issuer : String) : Bool :=
  delegate.any fun d => d.verificationMethod = vm && d.principal = issuer

/-- `prepare`: the proof parses and its key is the issuer's or the delegate's. -/
def prepare (L : TaskLibs) (v : Verifier) (doc : TrustTask) (delegation : Delegation) :
    Except VerificationError Unit :=
  match doc.proof with
  | none => .error (.malformedProof "document carries no proof member")
  | some proof => do
      L.parseDataIntegrityProof proof
      match doc.issuer with
      | none =>
          .error (.issuerMismatch
            "document carries a proof but no in-band issuer to bind it to")
      | some issuer =>
          if controllerDid proof.verificationMethod = issuer ||
              delegation = .allowed && delegates v.delegate proof.verificationMethod issuer then
            .ok ()
          else
            .error (.issuerMismatch
              s!"verificationMethod is controlled by {controllerDid proof.verificationMethod}, not the document issuer {issuer}")

/-- The failures a fresh DID document could cure. -/
def retryable : DataIntegrityError → Bool
  | .resolver msg => !containsText deactivatedMark msg
  | .invalidSignature => true
  | _ => false

def verifyWith (L : TaskLibs) (v : Verifier) (doc : TrustTask) (purpose : ProofPurpose)
    (delegation : Delegation) : Except VerificationError Unit := do
  prepare L v doc delegation
  match v.keys.verify doc purpose false with
  | .ok () => .ok ()
  | .error e =>
      let vm := (doc.proof.map (·.verificationMethod)).getD ""
      if retryable e && v.keys.refresh (controllerDid vm) then
        (v.keys.verify doc purpose true).mapError (mapIntegrityError L)
      else
        .error (mapIntegrityError L e)

/-- The check of a declared purpose that `verify_operational` and
`verify_approval` make first. -/
def declaresPurpose (purpose : ProofPurpose) (what : String) (doc : TrustTask) :
    Except VerificationError Unit :=
  match doc.proof with
  | some proof =>
      if proof.proofPurpose = purpose.name then .ok ()
      else
        .error (.malformedProof
          s!"proofPurpose must be `{purpose.name}` for {what}, not `{proof.proofPurpose}`")
  | none => .ok ()

def verifyOperational (L : TaskLibs) (v : Verifier) (doc : TrustTask) :
    Except VerificationError Unit := do
  declaresPurpose .authentication "this message" doc
  verifyWith L v doc .authentication .allowed

def verifyApproval (L : TaskLibs) (v : Verifier) (doc : TrustTask) :
    Except VerificationError Unit := do
  declaresPurpose .assertionMethod "an approver's decision" doc
  verifyWith L v doc .assertionMethod .refused

/-! ## Sender-bound documents -/

inductive BoundError where
  | missingProof
  | missingIssuer
  | unexpectedIssuer (issuer expected : String)
  | senderMismatch (issuer sender : String)
  | missingRecipient
  | wrongRecipient (recipient expected : String)
  | missingIssuedAt
  | stale
  | expired (expiresAt : ℤ)
  | proof (e : VerificationError)
deriving DecidableEq, Repr

namespace BoundError

def toText (L : TaskLibs) : BoundError → String
  | missingProof => "document carries no proof; a signed document is required"
  | missingIssuer => "document carries no in-band issuer"
  | unexpectedIssuer issuer expected =>
      s!"document issuer {issuer} is not the expected peer {expected}"
  | senderMismatch issuer sender =>
      s!"document issuer {issuer} does not match the transport sender {sender}"
  | missingRecipient => "document carries no in-band recipient"
  | wrongRecipient recipient expected =>
      s!"document is addressed to {recipient}, not {expected}"
  | missingIssuedAt => "document carries no issuedAt"
  | stale => "document issuedAt is outside the freshness window"
  | expired expiresAt => s!"document expired at {L.instantText expiresAt}"
  | proof e => s!"proof verification failed: {L.verificationText e}"

def isTransient : BoundError → Bool
  | proof e => e.isUnreachable
  | _ => false

/-- The reason of a failure that will not clear. -/
def finalReason (L : TaskLibs) : BoundError → RejectReason
  | missingProof => .proofRequired
  | missingIssuer => .malformedRequest (missingIssuer.toText L)
  | missingRecipient => .malformedRequest (missingRecipient.toText L)
  | missingIssuedAt => .malformedRequest (missingIssuedAt.toText L)
  | stale => .malformedRequest (stale.toText L)
  | wrongRecipient recipient expected => .wrongRecipient recipient expected
  | expired expiresAt => .expired expiresAt
  | unexpectedIssuer issuer expected =>
      .permissionDenied ((unexpectedIssuer issuer expected).toText L)
  | senderMismatch issuer sender =>
      .permissionDenied ((senderMismatch issuer sender).toText L)
  | proof e => .proofInvalid (L.verificationText e)

def rejectReason (L : TaskLibs) (e : BoundError) : RejectReason :=
  if e.isTransient then .unavailable else e.finalReason L

end BoundError

/-- The check of the issuer against the peer it must be. -/
def checkExpectedIssuer (expected : Option String) (issuer : String) :
    Except BoundError Unit :=
  match expected with
  | some expected =>
      if issuer = expected then .ok () else .error (.unexpectedIssuer issuer expected)
  | none => .ok ()

/-- The check of the issuer against the sender the transport reported. -/
def checkTransportSender (sender : Option String) (issuer : String) :
    Except BoundError Unit :=
  match sender with
  | some sender =>
      if controllerDid sender = issuer then .ok () else .error (.senderMismatch issuer sender)
  | none => .ok ()

/-- The checks of `issuedAt` and `expiresAt` at the instant `now`. -/
def checkFreshness (now : ℕ) (issuedAt : ℤ) (expiresAt : Option ℤ) : Except BoundError Unit :=
  if issuedAt < now - (freshnessWindowSecs * nanosPerSec : ℕ) ∨
      now + (futureSkewSecs * nanosPerSec : ℕ) < issuedAt then
    .error .stale
  else
    match expiresAt with
    | some expiresAt => if expiresAt ≤ now then .error (.expired expiresAt) else .ok ()
    | none => .ok ()

/-- The proof check of `verify_bound`, by the relationship it must use. -/
def verifyRelationship (L : TaskLibs) (v : Verifier) (doc : TrustTask) :
    ProofPurpose → Except VerificationError Unit
  | .authentication => verifyOperational L v doc
  | .assertionMethod => verifyApproval L v doc

def verifyBound (L : TaskLibs) (doc : TrustTask) (expectedIssuer transportSender : Option String)
    (myVid : String) (v : Verifier) (now : ℕ) (relationship : ProofPurpose) :
    Except BoundError String := do
  let _ ← okOr .missingProof doc.proof
  let issuer ← okOr .missingIssuer doc.issuer
  checkExpectedIssuer expectedIssuer issuer
  checkTransportSender transportSender issuer
  let recipient ← okOr .missingRecipient doc.recipient
  (if recipient = myVid then .ok () else .error (.wrongRecipient recipient myVid))
  let issuedAt ← okOr .missingIssuedAt doc.issuedAt
  checkFreshness now issuedAt doc.expiresAt
  (verifyRelationship L v doc relationship).mapError .proof
  return issuer
where
  okOr {α : Type} (e : BoundError) : Option α → Except BoundError α
    | some a => .ok a
    | none => .error e

def verifySenderBound (L : TaskLibs) (doc : TrustTask)
    (expectedIssuer transportSender : Option String) (myVid : String) (v : Verifier)
    (now : ℕ) : Except BoundError String :=
  verifyBound L doc expectedIssuer transportSender myVid v now .authentication

def verifySenderBoundApproval (L : TaskLibs) (doc : TrustTask)
    (transportSender : Option String) (myVid : String) (v : Verifier) (now : ℕ) :
    Except BoundError String :=
  verifyBound L doc none transportSender myVid v now .assertionMethod

/-! ## What a verified document proves -/

/-- The proof of `doc` verified for `purpose`, and its key is the issuer's, or the
delegate's where one is accepted. -/
structure Proven (keys : Resolution) (delegate : Option SessionDelegate) (doc : TrustTask)
    (purpose : ProofPurpose) (issuer : String) (proof : TaskProof) : Prop where
  carried : doc.proof = some proof
  issued : doc.issuer = some issuer
  declared : proof.proofPurpose = purpose.name
  verified : keys.Verifies doc purpose
  key : controllerDid proof.verificationMethod = issuer ∨
    purpose = .authentication ∧
      delegates delegate proof.verificationMethod issuer = true

section

variable {L : TaskLibs} {v : Verifier} {doc : TrustTask} {purpose : ProofPurpose}
  {delegation : Delegation}

theorem prepare_spec (h : prepare L v doc delegation = .ok ()) :
    ∃ proof issuer, doc.proof = some proof ∧ doc.issuer = some issuer ∧
      (controllerDid proof.verificationMethod = issuer ∨
        delegation = .allowed ∧
          delegates v.delegate proof.verificationMethod issuer = true) := by
  unfold prepare at h
  cases hproof : doc.proof with
  | none =>
      rw [hproof] at h
      cases h
  | some proof =>
      rw [hproof] at h
      obtain ⟨⟨⟩, -, hissued⟩ := bind_eq_ok h
      cases hissuer : doc.issuer with
      | none =>
          rw [hissuer] at hissued
          cases hissued
      | some issuer =>
          rw [hissuer] at hissued
          simp only at hissued
          split at hissued
          · rename_i hkey
            simp only [Bool.or_eq_true, Bool.and_eq_true, decide_eq_true_eq] at hkey
            exact ⟨proof, issuer, rfl, rfl, hkey⟩
          · cases hissued

theorem verifyWith_spec (h : verifyWith L v doc purpose delegation = .ok ()) :
    prepare L v doc delegation = .ok () ∧ v.keys.Verifies doc purpose := by
  unfold verifyWith at h
  obtain ⟨⟨⟩, hprepared, hverified⟩ := bind_eq_ok h
  refine ⟨hprepared, ?_⟩
  cases hfirst : v.keys.verify doc purpose false with
  | ok u => exact ⟨false, hfirst⟩
  | error e =>
      -- a failed attempt may be repeated against a fresh document
      rw [hfirst] at hverified
      simp only at hverified
      split at hverified
      · exact ⟨true, mapError_eq_ok hverified⟩
      · cases hverified

theorem declaresPurpose_spec {what : String} {proof : TaskProof}
    (h : declaresPurpose purpose what doc = .ok ()) (hproof : doc.proof = some proof) :
    proof.proofPurpose = purpose.name := by
  unfold declaresPurpose at h
  rw [hproof] at h
  simp only at h
  split at h
  · assumption
  · cases h

theorem verifyRelationship_spec (h : verifyRelationship L v doc purpose = .ok ()) :
    ∃ issuer proof, Proven v.keys v.delegate doc purpose issuer proof := by
  cases purpose with
  | authentication =>
      obtain ⟨⟨⟩, hdeclared, hwith⟩ := bind_eq_ok h
      obtain ⟨hprepared, hverified⟩ := verifyWith_spec hwith
      obtain ⟨proof, issuer, hproof, hissuer, hkey⟩ := prepare_spec hprepared
      refine ⟨issuer, proof, hproof, hissuer, declaresPurpose_spec hdeclared hproof,
        hverified, ?_⟩
      exact hkey.imp_right fun hdelegate => ⟨rfl, hdelegate.2⟩
  | assertionMethod =>
      obtain ⟨⟨⟩, hdeclared, hwith⟩ := bind_eq_ok h
      obtain ⟨hprepared, hverified⟩ := verifyWith_spec hwith
      obtain ⟨proof, issuer, hproof, hissuer, hkey⟩ := prepare_spec hprepared
      refine ⟨issuer, proof, hproof, hissuer, declaresPurpose_spec hdeclared hproof,
        hverified, Or.inl ?_⟩
      -- the delegate is refused for an attestation
      rcases hkey with hkey | ⟨hallowed, -⟩
      · exact hkey
      · cases hallowed

theorem checkFreshness_spec {now : ℕ} {issuedAt : ℤ} {expiresAt : Option ℤ}
    (h : checkFreshness now issuedAt expiresAt = .ok ()) :
    freshDocument now issuedAt ∧ ∀ e, expiresAt = some e → (now : ℤ) < e := by
  unfold checkFreshness at h
  split at h
  · cases h
  · rename_i hfresh
    refine ⟨hfresh, ?_⟩
    rintro e rfl
    simp only at h
    split at h
    · cases h
    · rename_i hlate
      exact Int.not_le.mp hlate

/-- What a sender-bound document has shown. -/
structure SenderBound (v : Verifier) (doc : TrustTask) (purpose : ProofPurpose)
    (transportSender : Option String) (myVid : String) (now : ℕ) (issuer : String) :
    Prop where
  proven : ∃ proof, Proven v.keys v.delegate doc purpose issuer proof
  sender : ∀ s, transportSender = some s → controllerDid s = issuer
  addressed : doc.recipient = some myVid
  fresh : ∃ issuedAt, doc.issuedAt = some issuedAt ∧ freshDocument now issuedAt
  unexpired : ∀ e, doc.expiresAt = some e → (now : ℤ) < e

theorem okOr_eq_ok {α : Type} {e : BoundError} {o : Option α} {a : α}
    (h : verifyBound.okOr e o = .ok a) : o = some a := by
  cases o with
  | none => cases h
  | some b =>
      cases h
      rfl

theorem verifyBound_spec {expectedIssuer transportSender : Option String} {myVid : String}
    {now : ℕ} {issuer : String}
    (h : verifyBound L doc expectedIssuer transportSender myVid v now purpose = .ok issuer) :
    SenderBound v doc purpose transportSender myVid now issuer := by
  unfold verifyBound at h
  obtain ⟨proof, hproof, h₁⟩ := bind_eq_ok h
  obtain ⟨issuer', hissuer, h₂⟩ := bind_eq_ok h₁
  obtain ⟨⟨⟩, -, h₃⟩ := bind_eq_ok h₂
  obtain ⟨⟨⟩, hsender, h₄⟩ := bind_eq_ok h₃
  obtain ⟨recipient, hrecipient, h₅⟩ := bind_eq_ok h₄
  obtain ⟨⟨⟩, haddressed, h₆⟩ := bind_eq_ok h₅
  obtain ⟨issuedAt, hissued, h₇⟩ := bind_eq_ok h₆
  obtain ⟨⟨⟩, hfresh, h₈⟩ := bind_eq_ok h₇
  obtain ⟨⟨⟩, hverified, h₉⟩ := bind_eq_ok h₈
  cases h₉
  obtain ⟨issuer'', proof', hproven⟩ := verifyRelationship_spec (mapError_eq_ok hverified)
  have hsame : issuer'' = issuer :=
    Option.some.inj (hproven.issued.symm.trans (okOr_eq_ok hissuer))
  obtain ⟨hfresh, hunexpired⟩ := checkFreshness_spec hfresh
  refine ⟨⟨proof', hsame ▸ hproven⟩, ?_, ?_, ⟨issuedAt, okOr_eq_ok hissued, hfresh⟩,
    hunexpired⟩
  · rintro s rfl
    unfold checkTransportSender at hsender
    simp only at hsender
    split at hsender
    · assumption
    · cases hsender
  · split at haddressed
    · rename_i heq
      rw [← heq]
      exact okOr_eq_ok hrecipient
    · cases haddressed

end

/-! ## Documents of an exchange's own keys -/

inductive BoundKeyError where
  | keyUnsupported
  | missingProof
  | notIssuerKey
  | purpose (purpose : String)
  | proof (e : VerificationError)
deriving DecidableEq, Repr

def isEd25519Multikey (L : TaskLibs) (multikey : String) : Bool :=
  match L.multibaseDecode multikey with
  | some (true, bytes) => bytes.length = 34 && bytes.take 2 = [0xed, 0x01]
  | _ => false

def verifyBoundKey (L : TaskLibs) (doc : TrustTask) (purposes : List String) :
    Except BoundKeyError String :=
  let issuer := doc.issuer.getD ""
  match (stripPrefix "did:key:" issuer).filter (isEd25519Multikey L) with
  | none => .error .keyUnsupported
  | some multikey =>
      match doc.proof with
      | none => .error .missingProof
      | some proof =>
          if proof.verificationMethod ≠ s!"{issuer}#{multikey}" then .error .notIssuerKey
          else if !purposes.contains proof.proofPurpose then
            .error (.purpose proof.proofPurpose)
          else
            ((L.verifyDidKey doc).mapError .proof).map fun _ => issuer

/-! ## Proof rules -/

inductive ProofRule where
  | optional
  | authentication
  | assertionMethod
  | sessionKey
  | boundKey (purposes : List String)
deriving DecidableEq, Repr

namespace ProofRule

def admitsBearer : ProofRule → Bool
  | boundKey _ => false
  | _ => true

def usesSharedReplayCache : ProofRule → Bool
  | boundKey _ => false
  | _ => true

/-- The purpose the proof of a privileged document must be for. -/
def purpose : ProofRule → ProofPurpose
  | assertionMethod => .assertionMethod
  | _ => .authentication

end ProofRule

end DidHosting
