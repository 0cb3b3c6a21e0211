import DidHosting.Oob.Store

/-!
# The out-of-band sign-in service

A browser opens a request with a key of its own, a wallet claims it, proves whose it is and
decides, and the browser redeems the decision for a session.  Each of the six handlers
reads the request, checks what it was sent, and changes the request with a
compare-and-set.

What the deployment answers (its clock, its access control list, its signing key, random
draws) is an input of each step; keys and signatures are the library's.  Polls that are
refused for being too many are an input as well, and a loop goes round as often as its
fuel allows: a handler out of fuel is one that its client has left.
-/

namespace DidHosting

namespace Oob

open Text

/-! ## Payloads and libraries -/

structure GrantPayload where
  requestId : String
  approverKey : String
  sessionKey : String
  origin : String
  contextDigest : String
  approve : Bool
  notAfter : ℕ
deriving DecidableEq, Repr

/-- `IdentifyPayload`, with what the service reads of it. -/
structure IdentifyPayload where
  requestId : String
  enteredNumber : String
deriving DecidableEq, Repr

/-- The libraries of the service: the gate's, the readers and writers of the generated
payload types, and the keys of the members. -/
structure OobLibs extends TaskLibs where
  /-- `serde_json::from_value::<TrustTask<Value>>`. -/
  document : Json → Option OobDocument
  readRequest : Json → Except String Unit
  /-- The request id of a claim, redeem or cancel payload. -/
  readRequestId : Json → Except String String
  /-- The `identify` document of a prove payload, or the `grant` of a respond payload. -/
  readCarried : Json → Except String Json
  readIdentify : Json → Option IdentifyPayload
  readGrant : Json → Option GrantPayload
  /-- `types::write` of the response type of a task. -/
  write : String → Json → Except String Json
  contextDigest : Json → String
  rfc3339 : ℕ → String
  keys : Resolution

/-- `OobConfig`, after `OobService::new`. -/
structure OobConfig where
  serviceDid : String
  serviceName : String
  origin : String
  claimWindowSecs : ℕ
  decisionWindowSecs : ℕ
  sessionLimitSecs : ℕ
deriving DecidableEq, Repr

/-- What the deployment answers when a handler asks. -/
structure OobEnv where
  now : ℕ
  hasVerifier : Bool
  isAllowed : String → Bool
  displayName : String → Option String
  sign : Json → String → Except String Json
  uuid : String
  newRequestId : String
  twoDigits : String
  pollRefused : Option String
  holdOver : Bool

structure Connection where
  ip : Option String
  location : Option String
  browser : Option String
  os : Option String
deriving DecidableEq, Repr

/-! ## Errors and answers -/

inductive OobErrorCode where
  | purposeUnsupported
  | modeUnsupported
  | keyUnsupported
  | rateLimited
  | requestNotFound
  | requestExpired
  | alreadyClaimed
  | notClaimant
  | numberMismatch
  | notAuthorized
  | alreadyDecided
  | contextMismatch
  | pending
  | declined
  | notStarter
  | malformedRequest
deriving DecidableEq, Repr

structure OobError where
  code : OobErrorCode
  message : String
  details : Option Json
deriving Repr

def OobError.new (code : OobErrorCode) (message : String) : OobError :=
  ⟨code, message, none⟩

def OobError.notAuthorized : OobError := .new .notAuthorized "not authorized"

def OobError.malformed (m : String) : OobError := .new .malformedRequest m

/-- A refusal, and the request it declines: where a check of `prove` or `respond` fails
for the holder of the lock. -/
structure OobRefusal where
  error : OobError
  declines : Option String
deriving Repr

structure ApprovedSession where
  subject : String
  sessionKey : String
  notAfter : ℕ
  displayName : Option String
  grant : Json
deriving Repr

inductive OobAnswer where
  | document (body : Json)
  | approved (request : OobDocument) (session : ApprovedSession)
deriving Repr

/-- Handlers of the service.  It takes no locks. -/
abbrev OobM := Atomic OobStore OobAccess OobEnv Empty OobRefusal

/-- A refusal that leaves the request as it is. -/
def refuse {α : Type} (e : OobError) : OobM α :=
  .fail ⟨e, none⟩

/-! ## Accesses -/

def compareAndSet (expected : ℕ) (next : OobRecord) (why : Move) : OobM Bool :=
  .call (.compareAndSet expected next why) fun s => s.matchesVersion next.requestId expected

def rememberDocument (issuer id : String) (until' now : ℕ) : OobM (Except SeenError Unit) :=
  .call (.remember (issuer, id) until' now) fun s =>
    rememberResult (s.seen.filter fun e => now ≤ e.2) (issuer, id)

/-- `env.now()`. -/
def clock : OobM ℕ := .draw (·.now)

def seenIdTtlSecs : ℕ := 600

def maxDocumentAgeSecs : ℕ := 300

def clockSkewSecs : ℕ := 60

def maxDocumentIdLen : ℕ := 128

def keyPurposes : List String := ["authentication", "assertionMethod"]

section

variable (L : OobLibs) (cfg : OobConfig)

/-! ## Documents -/

/-- `envelope`, at a clock reading. -/
def envelope (doc : OobDocument) (typeUri : String) (now : ℕ) : Except OobError Unit :=
  if doc.typeUri ≠ typeUri then .error (.malformed s!"expected {typeUri}")
  else if doc.id = "" || doc.issuer.getD "" = "" then .error (.malformed "missing id or issuer")
  else if maxDocumentIdLen < doc.id.utf8ByteSize then .error (.malformed "id is too long")
  else if doc.recipient ≠ some cfg.serviceDid then .error .notAuthorized
  else
    match doc.issuedAt with
    | none => .error (.malformed "missing issuedAt")
    | some issuedAt =>
        let issued := issuedAt / nanosPerSec
        if (now + clockSkewSecs : ℤ) < issued || (maxDocumentAgeSecs : ℤ) < now - issued then
          .error .notAuthorized
        else if doc.expiresAt.any fun exp => exp / (nanosPerSec : ℤ) ≤ (now : ℤ) then
          .error .notAuthorized
        else .ok ()

/-- `key_doc`: the document, of a key of its own, and its payload. -/
def keyDoc {α : Type} (read : Json → Except String α) (raw : Json) (typeUri : String) :
    OobM (OobDocument × α) := do
  match L.document raw with
  | none => refuse (.malformed "not a Trust Task document")
  | some doc =>
      let now ← clock
      (match envelope cfg doc typeUri now with
      | .ok () => pure ()
      | .error e => refuse e)
      (match verifyBoundKey L.toTaskLibs doc.toTrustTask keyPurposes with
      | .ok _ => pure ()
      | .error .keyUnsupported => refuse (.new .keyUnsupported "Ed25519 did:key only")
      | .error _ => refuse .notAuthorized)
      match read doc.payload with
      | .ok payload => pure (doc, payload)
      | .error e => refuse (.malformed s!"payload: {e}")

/-- `fresh`: refuse a replayed document. -/
def fresh (doc : OobDocument) : OobM Unit := do
  let now ← clock
  match ← rememberDocument (doc.issuer.getD "") doc.id (now + seenIdTtlSecs) now with
  | .ok () => pure ()
  | .error .replay => refuse (.new .notAuthorized "document id already used")
  | .error .full => refuse (.new .rateLimited "the service is busy; try again shortly")

def isRequestId (s : String) : Bool :=
  22 ≤ s.utf8ByteSize && s.utf8ByteSize ≤ 43 &&
    s.toList.all fun c => c.isAlphanum || c = '-' || c = '_'

def carriedRequestId (doc : Json) : Except OobError String :=
  match (((doc.get "payload").bind (Json.get "requestId")).bind Json.asStr).filter isRequestId with
  | some id => .ok id
  | none => .error (.malformed "carried requestId missing")

def sameThread (doc : OobDocument) (requestId : String) : Except OobError Unit :=
  if doc.parentThreadId.any (· ≠ requestId) then
    .error (.malformed "parentThreadId must equal the requestId")
  else
    .ok ()

def checked {α : Type} (x : Except OobError α) : OobM α :=
  match x with
  | .ok a => pure a
  | .error e => refuse e

def response (task : String) (value : Json) : OobM Json :=
  match L.write task value with
  | .ok body => pure body
  | .error _ => refuse (.malformed "the service could not build its response")

def signed (request : OobDocument) (recipient : String) (payload : Json) (purpose : String) :
    OobM Json := do
  let uuid ← .draw (·.uuid)
  let now ← clock
  let unsigned := Json.obj [
    ("id", .str s!"urn:uuid:{uuid}"),
    ("type", .str s!"{request.typeUri}#response"),
    ("issuer", .str cfg.serviceDid),
    ("recipient", .str recipient),
    ("issuedAt", .str (L.rfc3339 now)),
    ("threadId", .str request.id),
    ("payload", payload)]
  match ← .draw (fun env => env.sign unsigned purpose) with
  | .ok document => pure document
  | .error _ => refuse (.malformed "the service could not sign its response")

def attestation : String := "assertionMethod"

def operational : String := "authentication"

/-! ## The record of a request -/

/-- `current`: the record, with an elapsed deadline applied, and the clock reading it
was judged at. -/
def current (requestId : String) : ℕ → OobM (OobRecord × ℕ)
  | 0 => .halt
  | fuel + 1 => do
      match ← (.call .get fun s => s.records.lookup requestId : OobM (Option OobRecord)) with
      | none => refuse (.new .requestNotFound "no such request")
      | some req =>
          let now ← clock
          if req.lapsed now = false then
            pure (req, now)
          else
            let next := req.next .expired now
            if ← compareAndSet req.version next .expired then
              pure (next, now)
            else
              current requestId fuel

def lockHolderRecord (requestId issuer : String) (expected : OobState) (fuel : ℕ) :
    OobM (OobRecord × ℕ) := do
  let (req, now) ← current requestId fuel
  if req.approverKey ≠ some issuer then
    refuse (.new .notClaimant "not the claimant")
  else if req.state = .expired then
    refuse (.new .requestExpired "request expired")
  else if req.state ≠ expected then
    let code := if expected = .identified then .alreadyDecided else .requestExpired
    refuse (.new code s!"request is {req.state.asStr}")
  else
    pure (req, now)

/-- `decline`: decline the request, if it is still the one that was read, and refuse. -/
def decline {α : Type} (req : OobRecord) (err : OobError) : OobM α := do
  let now ← clock
  let _ ← compareAndSet req.version (req.next .declined now) .declined
  .fail ⟨err, some req.requestId⟩

def step1 (req : OobRecord) : List (String × Json) :=
  [ ("requestId", .str req.requestId),
    ("service", .obj [("did", .str cfg.serviceDid), ("name", .str cfg.serviceName)]),
    ("origin", .str req.origin),
    ("purpose", .str req.purpose),
    ("decisionDeadline", .num (.posInt (req.decisionDeadline.getD 0))) ]

/-- The members step 2 adds. -/
def step2 (req : OobRecord) (conn : Connection) (did : String) : Json :=
  let sameNetwork : Json :=
    match req.startNetwork, conn.ip with
    | some a, some b => .bool (a = b)
    | _, _ => .str "unknown"
  .obj (step1 cfg req ++ [
    ("sessionKey", .str req.startKey),
    ("requester", .obj [
      ("location", .str req.location),
      ("browser", .str req.browser),
      ("os", .str req.os),
      ("createdAt", .str (L.rfc3339 req.createdAt)),
      ("sameNetwork", sameNetwork)]),
    ("identifiedAs", .str did)])

/-! ## The handlers -/

/-- The record a request opens. -/
def openedRecord (doc : OobDocument) (conn : Connection) (requestId : String) (now : ℕ) :
    OobRecord where
  requestId := requestId
  state := .pending
  version := 0
  purpose := "login"
  origin := cfg.origin
  startKey := doc.issuer.getD ""
  startNetwork := conn.ip
  location := conn.location.getD "unknown"
  browser := conn.browser.getD "unknown"
  os := conn.os.getD "unknown"
  createdAt := now
  approverKey := none
  matchNumber := none
  matchNumberDelivered := false
  identifiedDid := none
  step2Digest := none
  claimDeadline := now + cfg.claimWindowSecs
  decisionDeadline := none
  grant := none
  grantNotAfter := none
  finishedAt := none

/-- The member of a payload, if it is a string other than the one that is served. -/
def unserved (payload : Json) (name served : String) : Bool :=
  ((payload.get name).bind Json.asStr).any (· ≠ served)

def request (raw : Json) (conn : Connection) : OobM OobAnswer := do
  let (doc, payload) ← keyDoc L cfg (fun v => .ok v) raw (L.typeUri "auth::oob::request::v0_1")
  if unserved payload "purpose" "login" then
    refuse (.new .purposeUnsupported "purpose must be login")
  else if unserved payload "mode" "scan" then
    refuse (.new .modeUnsupported "mode must be scan")
  else
    (match L.readRequest payload with
    | .ok () => pure ()
    | .error e => refuse (.malformed s!"payload: {e}"))
    fresh doc
    let now ← clock
    let requestId ← .draw (·.newRequestId)
    let record := openedRecord cfg doc conn requestId now
    (match ← (.call (.create record now) fun s => createResult (s.sweep now) record :
        OobM (Except CreateError Unit)) with
    | .ok () => pure ()
    | .error .full => refuse (.new .rateLimited "too many open requests")
    | .error .duplicate => refuse (.malformed "request id collision"))
    let body ← response L "request" (.obj [
      ("requestId", .str requestId),
      ("claimDeadline", .num (.posInt record.claimDeadline))])
    return .document (← signed L cfg doc (doc.issuer.getD "") body operational)

/-- The record a claim leaves. -/
def claimedRecord (req : OobRecord) (approverKey matchNumber : String) (now : ℕ) : OobRecord :=
  { req.next .claimed now with
    approverKey := some approverKey
    matchNumber := some matchNumber
    decisionDeadline := some (now + cfg.decisionWindowSecs) }

def claim (raw : Json) (fuel : ℕ) : OobM OobAnswer := do
  let (doc, requestId) ← keyDoc L cfg L.readRequestId raw (L.typeUri "auth::oob::claim::v0_1")
  if doc.parentThreadId ≠ some requestId then
    refuse (.malformed "parentThreadId must equal payload.requestId")
  else
    let (req, _) ← current requestId fuel
    if req.state = .expired then
      refuse (.new .requestExpired "request expired")
    else if req.state ≠ .pending then
      refuse (.new .alreadyClaimed "already claimed")
    else
      fresh doc
      let now ← clock
      let number ← .draw (·.twoDigits)
      let approverKey := doc.issuer.getD ""
      let next := claimedRecord cfg req approverKey number now
      if ← compareAndSet req.version next .claimed then
        let body ← response L "claim" (.obj (step1 cfg next))
        return .document (← signed L cfg doc approverKey body attestation)
      else
        refuse (.new .alreadyClaimed "already claimed")

/-- `prove_checks`: the DID of the `identify` document, and the document. -/
def proveChecks (req : OobRecord) (identifyRaw : Json) :
    OobM (String × OobDocument × IdentifyPayload) := do
  match L.document identifyRaw with
  | none => refuse .notAuthorized
  | some identify =>
      if (identify.payload.get "approverKey").bind Json.asStr ≠ req.approverKey then
        refuse .notAuthorized
      else
        let did := identify.issuer.getD ""
        let allowed ← .draw (·.isAllowed did)
        if did = "" || !allowed then
          refuse .notAuthorized
        else
          let now ← clock
          (match envelope cfg identify (L.typeUri "auth::oob::identify::v0_1") now with
          | .ok () => pure ()
          | .error _ => refuse .notAuthorized)
          if !(← .draw (·.hasVerifier)) then
            refuse .notAuthorized
          else
            (match verifyOperational L.toTaskLibs ⟨L.keys, none⟩ identify.toTrustTask with
            | .ok () => pure ()
            | .error _ => refuse .notAuthorized)
            match L.readIdentify identify.payload with
            | none => refuse .notAuthorized
            | some payload =>
                if payload.requestId ≠ req.requestId then
                  refuse .notAuthorized
                else
                  let now ← clock
                  match ← rememberDocument did identify.id (now + seenIdTtlSecs) now with
                  | .ok () => pure (did, identify, payload)
                  | .error _ => refuse .notAuthorized

/-- The record a successful `prove` leaves. -/
def identifiedRecord (req : OobRecord) (did : String) (signedStep2 : Json) (now : ℕ) : OobRecord :=
  { req.next .identified now with
    identifiedDid := some did
    step2Digest := some (L.contextDigest signedStep2) }

def prove (raw : Json) (conn : Connection) (fuel : ℕ) : OobM OobAnswer := do
  let (doc, identifyRaw) ← keyDoc L cfg L.readCarried raw (L.typeUri "auth::oob::prove::v0_1")
  let requestId ← checked (carriedRequestId identifyRaw)
  checked (sameThread doc requestId)
  let issuer := doc.issuer.getD ""
  let (req, _) ← lockHolderRecord requestId issuer .claimed fuel
  fresh doc
  -- from here every failed check declines the request
  match ← (proveChecks L cfg req identifyRaw).attempt with
  | .error r => decline req r.error
  | .ok (did, identify, payload) =>
      if req.matchNumber ≠ some payload.enteredNumber then
        decline req (.new .numberMismatch "the number does not match")
      else
        let body ← response L "prove" (step2 L cfg req conn did)
        let document ← signed L cfg doc issuer body attestation
        let now ← clock
        if ← compareAndSet req.version (identifiedRecord L req did document now)
            (.identified identify document) then
          return .document document
        else
          refuse (.new .requestExpired "request changed")

def decodeDigest (s : String) : Option (List UInt8) :=
  if startsWith "z" s || startsWith "u" s then
    match L.multibaseDecode s with
    | some (_, bytes) =>
        if bytes.length = 34 && bytes.take 2 = [0x12, 0x20] then some (bytes.drop 2) else none
    | none => none
  else
    none

/-- `context_digests_equal`: the digests are compared by their bytes. -/
def contextDigestsEqual (a b : String) : Bool :=
  match decodeDigest L a, decodeDigest L b with
  | some x, some y => x = y
  | _, _ => false

/-- `grant_checks`: the grant and its payload. -/
def grantChecks (req : OobRecord) (grantRaw : Json) : OobM (OobDocument × GrantPayload) := do
  match L.document grantRaw with
  | none => refuse .notAuthorized
  | some grant =>
      let did := req.identifiedDid.getD ""
      if grant.issuer ≠ some did then
        refuse .notAuthorized
      else
        let now ← clock
        (match envelope cfg grant (L.typeUri "auth::oob::grant::v0_1") now with
        | .ok () => pure ()
        | .error _ => refuse .notAuthorized)
        if !(← .draw (·.hasVerifier)) then
          refuse .notAuthorized
        else
          (match verifyApproval L.toTaskLibs ⟨L.keys, none⟩ grant.toTrustTask with
          | .ok () => pure ()
          | .error _ => refuse .notAuthorized)
          let now ← clock
          (match ← rememberDocument did grant.id (now + seenIdTtlSecs) now with
          | .ok () => pure ()
          | .error _ => refuse .notAuthorized)
          match L.readGrant grant.payload with
          | none => refuse .notAuthorized
          | some p =>
              if p.requestId ≠ req.requestId || req.approverKey ≠ some p.approverKey ||
                  p.sessionKey ≠ req.startKey || p.origin ≠ req.origin then
                refuse (.new .contextMismatch "context mismatch")
              else if !contextDigestsEqual L p.contextDigest (req.step2Digest.getD "") then
                refuse (.new .contextMismatch "context mismatch")
              else
                let now ← clock
                if p.approve && decide (p.notAfter ≤ now) then
                  refuse .notAuthorized
                else if !(← .draw (·.isAllowed did)) then
                  refuse .notAuthorized
                else
                  pure (grant, p)

/-- The record a decision leaves. -/
def decidedRecord (req : OobRecord) (grantRaw : Json) (p : GrantPayload) (now : ℕ) : OobRecord :=
  { req.next (if p.approve then .approved else .declined) now with
    grant := some grantRaw
    grantNotAfter := some p.notAfter
    startNetwork := none }

def respond (raw : Json) (fuel : ℕ) : OobM OobAnswer := do
  let (doc, grantRaw) ← keyDoc L cfg L.readCarried raw (L.typeUri "auth::oob::respond::v0_1")
  let requestId ← checked (carriedRequestId grantRaw)
  checked (sameThread doc requestId)
  let issuer := doc.issuer.getD ""
  let (req, checkedAt) ← lockHolderRecord requestId issuer .identified fuel
  fresh doc
  match ← (grantChecks L cfg req grantRaw).attempt with
  | .error r => decline req r.error
  | .ok (grant, p) =>
      let now ← clock
      if ← compareAndSet req.version (decidedRecord req grantRaw p now)
          (.decided grant checkedAt) then
        let status := if p.approve then "approved" else "declined"
        let body ← response L "respond" (.obj [("status", .str status)])
        return .document (← signed L cfg doc issuer body attestation)
      else
        refuse (.new .alreadyDecided "already decided")

/-- `consume`, by handler `me`. -/
def consume (me : ℕ) (doc : OobDocument) (req : OobRecord) (checkedAt : ℕ) : OobM OobAnswer := do
  let now ← clock
  if ← compareAndSet req.version (req.next .consumed now) (.consumed me checkedAt) then
    let did := req.identifiedDid.getD ""
    if !(← .draw (·.isAllowed did)) then
      refuse .notAuthorized
    else
      let limit := now + cfg.sessionLimitSecs
      let displayName ← .draw (·.displayName did)
      return .approved doc
        { subject := did
          sessionKey := req.startKey
          notAfter := min (req.grantNotAfter.getD limit) limit
          displayName := displayName
          grant := req.grant.getD .null }
  else
    refuse (.new .requestExpired "already redeemed")

/-- The state of a request, and its number once there is one, as the details of an
error. -/
def stateDetails (req : OobRecord) (number : Option String) : Json :=
  .obj (("state", .str req.state.asStr) ::
    (number.map fun n => ("matchNumber", .str n)).toList)

/-- The loop of `redeem`: it waits for a decision until the hold is over. -/
def redeemLoop (me : ℕ) (doc : OobDocument) (requestId : String) : ℕ → OobM OobAnswer
  | 0 => .halt
  | fuel + 1 => do
      let (req, checkedAt) ← current requestId (fuel + 1)
      match req.state with
      | .approved => consume cfg me doc req checkedAt
      | .declined | .cancelled =>
          refuse ⟨.declined, s!"request {req.state.asStr}", some (stateDetails req none)⟩
      | .expired | .consumed =>
          refuse ⟨.requestExpired, "request expired", some (stateDetails req none)⟩
      | _ =>
          match (if req.state = .claimed && !req.matchNumberDelivered then req.matchNumber
            else none) with
          | some n =>
              let now ← clock
              let next := { req.next .claimed now with matchNumberDelivered := true }
              if ← compareAndSet req.version next .delivered then
                refuse ⟨.pending, "not decided yet", some (stateDetails req (some n))⟩
              else
                redeemLoop me doc requestId fuel
          | none =>
              if ← .draw (·.holdOver) then
                refuse ⟨.pending, "not decided yet", some (stateDetails req req.matchNumber)⟩
              else
                redeemLoop me doc requestId fuel

/-- `redeem`, by handler `me`. -/
def redeem (me : ℕ) (raw : Json) (fuel : ℕ) : OobM OobAnswer := do
  let (doc, requestId) ← keyDoc L cfg L.readRequestId raw (L.typeUri "auth::oob::redeem::v0_1")
  let (req, _) ← current requestId fuel
  if doc.issuer ≠ some req.startKey then
    refuse (.new .notStarter "not the starter")
  else
    fresh doc
    match ← .draw (·.pollRefused) with
    | some msg => refuse (.new .rateLimited msg)
    | none => redeemLoop cfg me doc requestId fuel

def cancel (raw : Json) (fuel : ℕ) : OobM OobAnswer := do
  let (doc, requestId) ← keyDoc L cfg L.readRequestId raw (L.typeUri "auth::oob::cancel::v0_1")
  let (req, _) ← current requestId fuel
  let issuer := doc.issuer.getD ""
  if issuer ≠ req.startKey && some issuer ≠ req.approverKey then
    refuse .notAuthorized
  else
    fresh doc
    let purpose := if some issuer = req.approverKey then attestation else operational
    let body ← response L "cancel" (.obj [("status", .str "cancelled")])
    if req.state = .cancelled then
      return .document (← signed L cfg doc issuer body purpose)
    else if req.state.isFinal || req.state = .approved then
      refuse (.new .alreadyDecided s!"request {req.state.asStr}")
    else
      let now ← clock
      if ← compareAndSet req.version (req.next .cancelled now) .cancelled then
        return .document (← signed L cfg doc issuer body purpose)
      else
        refuse (.new .alreadyDecided "request changed")

/-- What a client sends. -/
structure OobCall where
  raw : Json
  conn : Connection

/-- `handle`: handler `me`, by the type of the document. -/
def handle (fuel me : ℕ) (c : OobCall) : OobM OobAnswer :=
  let typeUri := ((c.raw.get "type").bind Json.asStr).getD ""
  if typeUri = L.typeUri "auth::oob::request::v0_1" then request L cfg c.raw c.conn
  else if typeUri = L.typeUri "auth::oob::claim::v0_1" then claim L cfg c.raw fuel
  else if typeUri = L.typeUri "auth::oob::prove::v0_1" then prove L cfg c.raw c.conn fuel
  else if typeUri = L.typeUri "auth::oob::respond::v0_1" then respond L cfg c.raw fuel
  else if typeUri = L.typeUri "auth::oob::redeem::v0_1" then redeem L cfg me c.raw fuel
  else if typeUri = L.typeUri "auth::oob::cancel::v0_1" then cancel L cfg c.raw fuel
  else refuse (.malformed s!"unsupported type {typeUri}")

end

end Oob

end DidHosting
