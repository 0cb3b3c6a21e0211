import DidHosting.Common.Mnemonic
import DidHosting.Common.Servable
import DidHosting.Common.Store
import DidHosting.Identity.RotateDocument
import DidHosting.Identity.Service
import DidHosting.Support.Faults

/-!
# Rotating the keys of a service

`rotate_keys` appends a log entry with new keys, and writes three stores: the secret store,
the generation records and the log, in this order.  Before the first write it has verified the
log it is going to store; that a generation is recorded it sees only behind it.

The library appends an entry to the verified ones, from a document and parameters.  What it
documents about the entry is `Documented`.
-/

namespace DidHosting

namespace KeyRotation

open Text Identity

/-! ## Data -/

/-- The libraries of a rotation. -/
structure RotateLibs extends ServeLibs, KeyLibs where
  /-- The id of `Secret::from_multibase` without a kid. -/
  secretId : String → String
  /-- The error of a key that has no multibase form. -/
  multibaseError : String → String
  /-- `LogEntry::get_state`. -/
  getState : LogEntry → Json
  /-- `update_keys` of parameters. -/
  updateKeys : Parameters → List String
  setUpdateKeys : List String → Parameters → Parameters
  /-- `DIDWebVHState::create_log_entry` behind the verified entries: the entry it appends. -/
  createLogEntry :
    List (LogEntry × Parameters) → DidDocument → Parameters → Secret → Except String LogEntry

/-- What `rotate_keys` is called with, the keys it generates where none is given, and the
time. -/
structure Rotation where
  serverDid : String
  which : RotateKeys
  newKaKey : Option String
  newSigningKey : Option String
  graceSecs : ℕ
  generatedKa : Except String String
  generatedSigning : String
  now : ℕ

/-- `AppError`, as far as a rotation raises it. -/
inductive RotateError where
  | config (msg : String)
  | other (msg : String)
deriving DecidableEq, Repr

structure RotationReport where
  did : String
  which : RotateKeys
  newKaKid : String
  retiredKaKid : String
  newSigningKid : String
  retiredSigningKid : String
  newGeneration : ℕ
  retiredGeneration : ℕ
  expiresAt : ℕ
  versionCount : ℕ
deriving DecidableEq, Repr

/-- The secret store and the rows a rotation reads and writes. -/
structure RotateStore where
  secrets : Option ServerSecrets
  currentId : Option ℕ
  generations : Table ℕ IdentityGeneration
  dids : DidsKs

/-- A write of a rotation: of the secret store, a batch of generations, or a log. -/
inductive RotateWrite where
  | secrets (secrets : ServerSecrets)
  | generations (rows : List IdentityGeneration) (currentId : ℕ)
  | log (mnemonic content : String)

instance : WriteBatch RotateStore RotateWrite where
  commit
    | .secrets secrets, s => { s with secrets := some secrets }
    | .generations rows currentId, s =>
        { s with
          currentId := some currentId
          generations := rows.foldl (fun t g => t.insert g.id g) s.generations }
    | .log mnemonic content, s =>
        { s with
          dids := { s.dids with contentLog := s.dids.contentLog.insert mnemonic content } }

/-! ## The checks -/

/-- `ok_or_else(|| AppError::Config(..))`. -/
def orConfig {α : Type} (msg : String) : Option α → Except RotateError α
  | some a => .ok a
  | none => .error (.config msg)

/-- `map_err(|e| AppError::Config(format!("{text}: {e}")))`. -/
def configErr {α : Type} (text : String) (x : Except String α) : Except RotateError α :=
  x.mapError fun e => .config s!"{text}: {e}"

def mnemonicFromDid (did : String) : Option String :=
  match (stripPrefix "did:webvh:" did).bind (splitOnce ':') with
  | none => none
  | some (_, afterScid) =>
      if afterScid = "" then none
      else
        match splitOnce ':' afterScid with
        | some (_, path) =>
            if path ≠ "" then some (replaceChar ':' "/" path) else some rootDidMnemonic
        | none => some rootDidMnemonic

/-- The members of a document that is an object. -/
def stateObject : Json → DidDocument
  | .obj members => members
  | _ => []

/-- The first entry of the array under a key, when it is a string. -/
def firstKid (doc : DidDocument) (rel : String) : Option String :=
  (((member doc rel).bind Json.asArray).bind List.head?).bind Json.asStr

section

variable (L : RotateLibs) (r : Rotation)

/-- `load_validated_state`: the entries, with the parameters validated for each. -/
def loadValidatedState (content : String) :
    Except RotateError (List (L.LogEntry × L.Parameters)) := do
  let entries ← (parseEntries L.toLibs 0 none (lines content)).mapError .config
  if entries.isEmpty then .error (.config "the DID log is empty")
  else do
    let report ← configErr "the existing DID log does not verify"
      (L.validate (entries.map Prod.fst) none)
    report.2.mapError fun e =>
      .config s!"the existing DID log is incomplete: {e} — refusing to append"
    return (entries.map Prod.fst).zip report.1

/-- A new key: the given one, or one that is generated. -/
def chosenKey (flag : String) (given : Option String) (generated : Except RotateError String) :
    Except RotateError String :=
  match given with
  | some text => configErr s!"invalid {flag}" (L.decode text)
  | none => generated

def newKa : Except RotateError String :=
  chosenKey L "--ka-key" r.newKaKey (configErr "failed to generate an X25519 key" r.generatedKa)

def newSigning : Except RotateError String :=
  chosenKey L "--signing-key" r.newSigningKey (.ok r.generatedSigning)

/-- A multibase form of a key. -/
def multibaseOf (text : String) (form : String → Option String) (key : String) :
    Except RotateError String :=
  orConfig s!"{text}: {L.multibaseError key}" (form key)

/-- The incoming key-agreement key: the document it is installed in, its kid, its public half
and the private key to store. -/
structure IncomingKa where
  doc : DidDocument
  kid : String
  multibase : Option String
  stored : Option String

def incomingKa (didId retiredKid : String) (doc : DidDocument) :
    Except RotateError IncomingKa :=
  if r.which.rotatesKa then do
    let key ← newKa L r
    let multibase ← multibaseOf L "failed to derive the new public key" L.publicMultibase key
    let rotated := rotateKeyAgreement doc didId multibase
    if rotated.2 = retiredKid then
      .error (.config
        "the new key-agreement key is identical to the current one — nothing to rotate")
    else do
      let stored ← multibaseOf L "failed to encode the new private key" L.privateMultibase key
      return ⟨rotated.1, rotated.2, some multibase, some stored⟩
  else return ⟨doc, retiredKid, none, none⟩

/-- The incoming signing key: the document and the parameters it is installed in, its kid and
the private key to store. -/
structure IncomingSigning where
  doc : DidDocument
  params : L.Parameters
  kid : String
  stored : Option String

def incomingSigning (didId retiredKid current : String) (doc : DidDocument)
    (params : L.Parameters) : Except RotateError (IncomingSigning L) :=
  if r.which.rotatesSigning then do
    let key ← newSigning L r
    let multibase ← multibaseOf L "failed to derive the new signing public key"
      L.publicMultibase key
    if multibase = current then
      .error (.config "the new signing key is identical to the current one — nothing to rotate")
    else do
      let rotated := rotateSigning doc didId multibase
      let stored ← multibaseOf L "failed to encode the new signing private key"
        L.privateMultibase key
      return ⟨rotated.1, L.setUpdateKeys [multibase] params, rotated.2, some stored⟩
  else return ⟨doc, params, retiredKid, none⟩

/-- The signer of the entry: its id embeds the key. -/
def signerOf (key multibase : String) : Secret :=
  if containsText "#" (L.secretId key) then ⟨L.secretId key, key⟩
  else ⟨s!"did:key:{multibase}#{multibase}", key⟩

/-- The log with one line more. -/
def appendLine (content line : String) : String :=
  trimEnd content ++ "\n" ++ line ++ "\n"

/-- What a rotation has found out before its first write. -/
structure Prepared where
  didId : String
  retiredKaKid : String
  retiredSigningKid : String
  newKaKid : String
  newSigningKid : String
  newKaMultibase : Option String
  newKaStored : Option String
  newSigningStored : Option String
  newLog : String
  versionCount : ℕ

/-- The checks of `rotate_keys` on the secrets and the log. -/
def prepare (secrets : ServerSecrets) (content : String) : Except RotateError Prepared := do
  let states ← loadValidatedState L content
  let last ← orConfig "the DID log is empty" states.getLast?
  let doc := stateObject (L.getState last.1)
  let didId ← orConfig "the DID document has no `id`" ((member doc "id").bind Json.asStr)
  let retiredKaKid ← orConfig "the DID document advertises no keyAgreement key to rotate"
    (firstKid doc "keyAgreement")
  let retiredSigningKid := (firstKid doc "authentication").getD ""
  let ka ← incomingKa L r didId retiredKaKid doc
  let key ← configErr "failed to decode signing_key" (L.decode secrets.signingKey)
  let multibase ← multibaseOf L "failed to derive the signing public key" L.publicMultibase key
  let signing ← incomingSigning L r didId retiredSigningKid multibase ka.doc last.2
  let entry ← configErr "failed to sign the new log entry"
    (L.createLogEntry states signing.doc signing.params (signerOf L key multibase))
  let line ← (L.entryToString entry).mapError .other
  let newLog := appendLine content line
  let _ ← configErr "the rotated DID log does not verify" (verifyDidLogChain L.toLibs newLog none)
  return {
    didId := didId
    retiredKaKid := retiredKaKid
    retiredSigningKid := retiredSigningKid
    newKaKid := ka.kid
    newSigningKid := signing.kid
    newKaMultibase := ka.multibase
    newKaStored := ka.stored
    newSigningStored := signing.stored
    newLog := newLog
    versionCount := states.length + 1 }

end

/-! ## The operation -/

/-- The retired keys that are stored: with a grace period, the outgoing keys are filed under
the kids of the document. -/
def retiredKeys (graceSecs : ℕ) (kaKid signingKid : String) (secrets : ServerSecrets) :
    List RetiredKeys :=
  if 0 < graceSecs then
    secrets.retired.filter (·.kaKid != kaKid) ++
      [⟨kaKid, secrets.keyAgreementKey, signingKid, secrets.signingKey⟩]
  else secrets.retired

/-- The secrets that are stored. -/
def replaced (r : Rotation) (secrets : ServerSecrets) (p : Prepared) : ServerSecrets where
  signingKey := p.newSigningStored.getD secrets.signingKey
  keyAgreementKey := p.newKaStored.getD secrets.keyAgreementKey
  retired := retiredKeys r.graceSecs p.retiredKaKid p.retiredSigningKid secrets

/-- The generation that becomes current. -/
def nextGeneration (r : Rotation) (p : Prepared) (current : IdentityGeneration) :
    IdentityGeneration where
  id := current.id + 1
  did := p.didId
  signingKid := p.newSigningKid
  kaKid := p.newKaKid
  kaPublicMultibase := p.newKaMultibase.or current.kaPublicMultibase
  mediatorDid := current.mediatorDid
  protocols := current.protocols
  createdAt := r.now
  retiredAt := none
  expiresAt := none

/-- The batch of generations: the one that retires is written with a grace period. -/
def generationBatch (r : Rotation) (p : Prepared) (current : IdentityGeneration) : RotateWrite :=
  .generations
    ((if 0 < r.graceSecs then [Identity.retired current r.now r.graceSecs] else []) ++
      [nextGeneration r p current])
    (current.id + 1)

/-- Operations on the stores of a service that is stopped. -/
abbrev RotateM := Prog RotateStore RotateWrite Unit RotateError

def readStore {α : Type} (f : RotateStore → α) : RotateM α :=
  Prog.ofQuery (Query.read f)

section

variable (L : RotateLibs) (r : Rotation)

/-- `rotate_keys` before its first write. -/
def prepareRotation : Query RotateStore RotateError (String × ServerSecrets × Prepared) := do
  let mnemonic ← Query.ofExcept (orConfig
    s!"`{r.serverDid}` is not a did:webvh identifier this service hosts"
    (mnemonicFromDid r.serverDid))
  let row ← Query.read (·.secrets)
  let secrets ← Query.ofExcept (orConfig "secret store holds no server secrets" row)
  let log ← Query.read (·.dids.contentLog.lookup mnemonic)
  let content ← Query.ofExcept (orConfig
    s!"no DID log stored at `{mnemonic}` — is `server_did` right?" log)
  let p ← Query.ofExcept (prepare L r secrets content)
  return (mnemonic, secrets, p)

/-- The second write of `rotate_keys`: the generation that retires, and the next one. -/
def recordGeneration (p : Prepared) : RotateM IdentityGeneration := do
  let currentId ← readStore (·.currentId)
  let rows ← readStore (·.generations)
  let current ← Prog.check (orConfig
    ("no identity generation recorded — start the service once so it can resolve its own " ++
      "DID, then rotate")
    (loadGenerations currentId rows r.now).head?)
  Prog.write (generationBatch r p current)
  return current

/-- The third write of `rotate_keys`, and `store.persist`. -/
def publishLog (mnemonic : String) (p : Prepared) : RotateM Unit := do
  Prog.write (.log mnemonic p.newLog)
  readStore fun _ => ()

/-- The writes of `rotate_keys`. -/
def writeRotation (mnemonic : String) (secrets : ServerSecrets) (p : Prepared) :
    RotateM RotationReport := do
  Prog.write (.secrets (replaced r secrets p))
  let current ← recordGeneration r p
  publishLog mnemonic p
  return {
    did := p.didId
    which := r.which
    newKaKid := p.newKaKid
    retiredKaKid := p.retiredKaKid
    newSigningKid := p.newSigningKid
    retiredSigningKid := p.retiredSigningKid
    newGeneration := current.id + 1
    retiredGeneration := current.id
    expiresAt := graceEnd r.now r.graceSecs
    versionCount := p.versionCount }

def rotateKeys : RotateM RotationReport := do
  let (mnemonic, secrets, p) ← Prog.ofQuery (prepareRotation L r)
  writeRotation r mnemonic secrets p

end

/-! ## A run -/

section

variable (L : RotateLibs) (r : Rotation) (fault : ℕ → Option RotateError) (s : RotateStore)

/-- A run whose `i`-th access fails with `fault i`. -/
def rotation : Except RotateError RotationReport × RotateStore × ℕ :=
  Prog.runFaulty fault (rotateKeys L r) 0 s

/-- All the checks before the first write pass on the store. -/
structure Ready (mnemonic : String) (secrets : ServerSecrets) (content : String)
    (p : Prepared) : Prop where
  mnemonic_eq : mnemonicFromDid r.serverDid = some mnemonic
  secrets_eq : s.secrets = some secrets
  content_eq : s.dids.contentLog.lookup mnemonic = some content
  prepared : prepare L r secrets content = .ok p

/-- The secret store is written: the checks pass, and no access has failed up to there. -/
def WritesSecrets : Prop :=
  (∀ i ≤ 2, fault i = none) ∧ ∃ mnemonic secrets content p, Ready L r s mnemonic secrets content p

/-- Behind the secret store, the log is written too: a generation is live, and no access has
failed up to there. -/
def GoesOn : Prop :=
  (∀ i, 3 ≤ i → i ≤ 6 → fault i = none) ∧ loadGenerations s.currentId s.generations r.now ≠ []

end

/-! ## Tips of logs -/

section

variable (L : RotateLibs)

/-- The public half of a stored private key. -/
def publicHalf (text : String) : Option String :=
  (L.decode text).toOption.bind L.publicMultibase

/-- The document and the update keys at the end of a log that verifies. -/
def logTip (content : String) : Option (DidDocument × List String) :=
  (loadValidatedState L content).toOption.bind fun states =>
    states.getLast?.map fun last => (stateObject (L.getState last.1), L.updateKeys last.2)

/-- What the documentation of the libraries says of a private key that is written, and of an
entry that is appended: its text is a line, which reads as an entry with the document, and
the update keys in force behind it are those of the parameters. -/
structure Documented : Prop where
  publicHalf_private : ∀ key text, L.privateMultibase key = some text →
    publicHalf L text = L.publicMultibase key
  updateKeys_set : ∀ keys params, L.updateKeys (L.setUpdateKeys keys params) = keys
  one_each : ∀ entries params, L.validate entries none = .ok (params, .ok ()) →
    params.length = entries.length
  line : ∀ states doc params signer entry text,
    L.createLogEntry states doc params signer = .ok entry → L.entryToString entry = .ok text →
      IsLine text
  reads : ∀ states doc params signer entry text,
    L.createLogEntry states doc params signer = .ok entry → L.entryToString entry = .ok text →
      ∀ version e, L.deserializeString text version = .ok e → L.getState e = .obj doc
  parameters : ∀ states doc params signer entry text,
    L.createLogEntry states doc params signer = .ok entry → L.entryToString entry = .ok text →
      ∀ version e, L.deserializeString text version = .ok e →
        ∀ validated, L.validate (states.map Prod.fst ++ [e]) none = .ok (validated, .ok ()) →
          ∃ last, validated.getLast? = some last ∧ L.updateKeys last = L.updateKeys params

end

section

variable {L : RotateLibs} {r : Rotation}

theorem configErr_eq_ok {α : Type} {text : String} {x : Except String α} {a : α}
    (h : configErr text x = .ok a) : x = .ok a :=
  mapError_eq_ok h

theorem orConfig_eq_ok {α : Type} {msg : String} {x : Option α} {a : α}
    (h : orConfig msg x = .ok a) : x = some a := by
  cases x with
  | none => cases h
  | some b =>
      cases h
      rfl

theorem loadValidatedState_ok {content : String} {states : List (L.LogEntry × L.Parameters)}
    (h : loadValidatedState L content = .ok states) :
    ∃ entries params, parseEntries L.toLibs 0 none (lines content) = .ok entries ∧
      L.validate (entries.map Prod.fst) none = .ok (params, .ok ()) ∧
        states = (entries.map Prod.fst).zip params := by
  obtain ⟨entries, hentries, h⟩ := bind_eq_ok h
  cases hempty : entries.isEmpty with
  | true =>
      rw [if_pos hempty] at h
      cases h
  | false =>
      rw [if_neg (by rw [hempty]; exact Bool.false_ne_true)] at h
      obtain ⟨report, hreport, h⟩ := bind_eq_ok h
      obtain ⟨u, hcomplete, h⟩ := bind_eq_ok h
      cases h
      refine ⟨entries, report.1, mapError_eq_ok hentries, ?_, rfl⟩
      have hdone : report.2 = .ok () := mapError_eq_ok hcomplete
      rw [configErr_eq_ok hreport, ← hdone]

theorem loadValidatedState_of_valid {content : String} {entries : List (L.LogEntry × ℕ)}
    {params : List L.Parameters}
    (hparse : parseEntries L.toLibs 0 none (lines content) = .ok entries) (hne : entries ≠ [])
    (hvalid : L.validate (entries.map Prod.fst) none = .ok (params, .ok ())) :
    loadValidatedState L content = .ok ((entries.map Prod.fst).zip params) := by
  have hempty : entries.isEmpty = false := by simpa using hne
  unfold loadValidatedState
  rw [hparse]
  change (if entries.isEmpty then _ else _) = _
  rw [hempty, hvalid]
  rfl

/-- A log that verifies is read, and its entries validate. -/
theorem verifyDidLogChain_ok {content : String} {witnessed : Bool}
    (h : verifyDidLogChain L.toLibs content none = .ok witnessed) :
    ∃ entries params, parseEntries L.toLibs 0 none (lines content) = .ok entries ∧
      L.validate (entries.map Prod.fst) none = .ok (params, .ok ()) := by
  obtain ⟨-, -, h⟩ := bind_eq_ok h
  obtain ⟨entries, hentries, h⟩ := bind_eq_ok h
  obtain ⟨proofs, hproofs, h⟩ := bind_eq_ok h
  cases hproofs
  obtain ⟨report, hreport, h⟩ := bind_eq_ok h
  obtain ⟨u, hcomplete, -⟩ := bind_eq_ok h
  refine ⟨entries, report.1, hentries, ?_⟩
  have hdone : report.2 = .ok () := mapErr_eq_ok hcomplete
  rw [mapErr_eq_ok hreport, ← hdone]

theorem trimmedLines_appendLine {line : String} (h : IsLine line) (content : String) :
    trimmedLines (appendLine content line) = trimmedLines content ++ [line] := by
  have hline : trimmedLines line = [line] := by
    have hjoin : joinLines [line] = line := by simp [joinLines]
    rw [← hjoin, trimmedLines_joinLines (by simpa using h), hjoin]
  have hempty : appendLine content line = trimEnd content ++ "\n" ++ line ++ "\n" ++ "" := by
    simp [appendLine]
  rw [hempty, trimmedLines_append, trimmedLines_append, trimmedLines_trimEnd, hline]
  exact List.append_nil _

end

section

variable {L : RotateLibs} {r : Rotation}

/-- A log with the lines of another one and a line for an entry appended to it ends in the
document and the update keys of that entry. -/
theorem logTip_of_appended (hL : Documented L) {content newLog : String}
    {states : List (L.LogEntry × L.Parameters)} {doc : DidDocument} {params : L.Parameters}
    {signer : Secret} {entry : L.LogEntry} {line : String} {witnessed : Bool}
    (hloaded : loadValidatedState L content = .ok states)
    (hentry : L.createLogEntry states doc params signer = .ok entry)
    (hline : L.entryToString entry = .ok line)
    (hlines : trimmedLines newLog = trimmedLines content ++ [line])
    (hverified : verifyDidLogChain L.toLibs newLog none = .ok witnessed) :
    logTip L newLog = some (doc, L.updateKeys params) := by
  obtain ⟨entries, olds, hparse, hold, rfl⟩ := loadValidatedState_ok hloaded
  obtain ⟨read, validated, hread, hvalid⟩ := verifyDidLogChain_ok hverified
  have hreads := parseEntries_iff_readsAs.mp hread
  rw [hlines] at hreads
  -- the new log is read line by line, as the old one was
  obtain ⟨before, e, n, version, rfl, hbefore, hdeserialize⟩ := hreads.concat
  obtain rfl : entries = before :=
    Except.ok.inj (hparse.symm.trans (parseEntries_iff_readsAs.mpr hbefore))
  have hfst : ((entries.map Prod.fst).zip olds).map Prod.fst = entries.map Prod.fst :=
    List.map_fst_zip (by rw [hL.one_each _ _ hold])
  have hentries : (entries ++ [(e, n)]).map Prod.fst = entries.map Prod.fst ++ [e] := by simp
  have happended : L.validate (((entries.map Prod.fst).zip olds).map Prod.fst ++ [e]) none =
      .ok (validated, .ok ()) := by
    rw [hfst, ← hentries]
    exact hvalid
  obtain ⟨last, hlast, hkeys⟩ :=
    hL.parameters _ _ _ _ _ _ hentry hline _ _ hdeserialize _ happended
  obtain ⟨init, rfl⟩ := List.getLast?_eq_some_iff.mp hlast
  have hlength : (entries.map Prod.fst).length = init.length := by
    have hcount := hL.one_each _ _ hvalid
    simp at hcount ⊢
    omega
  have hstates : loadValidatedState L newLog =
      .ok ((entries.map Prod.fst).zip init ++ [(e, last)]) := by
    rw [loadValidatedState_of_valid hread (by simp) hvalid, hentries, List.zip_append hlength]
    rfl
  rw [logTip, hstates]
  simp [hL.reads _ _ _ _ _ _ hentry hline _ _ hdeserialize, hkeys, stateObject, Except.toOption]

end

/-! ## What the checks establish -/

section

variable (L : RotateLibs) (r : Rotation)

/-- The public half of the incoming key-agreement key, if that is rotated. -/
def newKaPublic : Option String :=
  if r.which.rotatesKa then (newKa L r).toOption.bind L.publicMultibase else none

/-- The public half of the incoming signing key, if that is rotated. -/
def newSigningPublic : Option String :=
  if r.which.rotatesSigning then (newSigning L r).toOption.bind L.publicMultibase else none

/-- The document of the new entry. -/
def rotatedDoc (doc : DidDocument) : DidDocument :=
  rotateDocument r.which (((member doc "id").bind Json.asStr).getD "")
    ((newKaPublic L r).getD "") ((newSigningPublic L r).getD "") doc

/-- The document and the update keys of the new entry. -/
def rotatedTip (tip : DidDocument × List String) : DidDocument × List String :=
  (rotatedDoc L r tip.1, (newSigningPublic L r).elim tip.2 fun m => [m])

/-- What passing the checks establishes about a log with the tip `tip`. -/
structure Prepares (content : String) (p : Prepared) (tip : DidDocument × List String) :
    Prop where
  tip_eq : logTip L content = some tip
  kaKid : firstKid tip.1 "keyAgreement" = some p.retiredKaKid
  signingKid : p.retiredSigningKid = (firstKid tip.1 "authentication").getD ""
  kaStored : p.newKaStored.isSome = r.which.rotatesKa
  kaPublic : p.newKaStored.bind (publicHalf L) = newKaPublic L r
  kaKnown : (newKaPublic L r).isSome = r.which.rotatesKa
  signingStored : p.newSigningStored.isSome = r.which.rotatesSigning
  signingPublic : p.newSigningStored.bind (publicHalf L) = newSigningPublic L r
  signingKnown : (newSigningPublic L r).isSome = r.which.rotatesSigning
  newTip : logTip L p.newLog = some (rotatedTip L r tip)
  appended : ∃ line, trimmedLines p.newLog = trimmedLines content ++ [line]
  verifies : ∃ witnessed, verifyDidLogChain L.toLibs p.newLog none = .ok witnessed

end

section

variable {L : RotateLibs} {r : Rotation}

theorem multibaseOf_eq_ok {text key multibase : String} {form : String → Option String}
    (h : multibaseOf L text form key = .ok multibase) : form key = some multibase :=
  orConfig_eq_ok h

theorem incomingKa_ok (hL : Documented L) {didId retiredKid : String} {doc : DidDocument}
    {ka : IncomingKa} (h : incomingKa L r didId retiredKid doc = .ok ka) :
    ka.stored.isSome = r.which.rotatesKa ∧
      ka.stored.bind (publicHalf L) = newKaPublic L r ∧
        (newKaPublic L r).isSome = r.which.rotatesKa ∧
          ka.doc = if r.which.rotatesKa then
            (rotateKeyAgreement doc didId ((newKaPublic L r).getD "")).1 else doc := by
  unfold incomingKa at h
  unfold newKaPublic
  cases hwhich : r.which.rotatesKa with
  | false =>
      rw [hwhich] at h
      cases h
      exact ⟨rfl, rfl, rfl, rfl⟩
  | true =>
      rw [hwhich] at h
      obtain ⟨key, hkey, h⟩ := bind_eq_ok h
      obtain ⟨multibase, hpublic, h⟩ := bind_eq_ok h
      have hpublic := multibaseOf_eq_ok hpublic
      by_cases hsame : (rotateKeyAgreement doc didId multibase).2 = retiredKid
      · rw [if_pos hsame] at h
        cases h
      · rw [if_neg hsame] at h
        obtain ⟨stored, hstored, h⟩ := bind_eq_ok h
        cases h
        have hhalf := hL.publicHalf_private _ _ (multibaseOf_eq_ok hstored)
        have hnew : (newKa L r).toOption.bind L.publicMultibase = some multibase := by
          rw [hkey]
          exact hpublic
        refine ⟨rfl, ?_, ?_, ?_⟩
        · exact hhalf.trans (hpublic.trans hnew.symm)
        · rw [if_pos rfl, hnew]
          rfl
        · rw [if_pos rfl, if_pos rfl, hnew]
          rfl

theorem incomingSigning_ok (hL : Documented L) {didId retiredKid current : String}
    {doc : DidDocument} {params : L.Parameters} {signing : IncomingSigning L}
    (h : incomingSigning L r didId retiredKid current doc params = .ok signing) :
    signing.stored.isSome = r.which.rotatesSigning ∧
      signing.stored.bind (publicHalf L) = newSigningPublic L r ∧
        (newSigningPublic L r).isSome = r.which.rotatesSigning ∧
          (signing.doc = if r.which.rotatesSigning then
            (rotateSigning doc didId ((newSigningPublic L r).getD "")).1 else doc) ∧
              L.updateKeys signing.params =
                (newSigningPublic L r).elim (L.updateKeys params) fun m => [m] := by
  unfold incomingSigning at h
  unfold newSigningPublic
  cases hwhich : r.which.rotatesSigning with
  | false =>
      rw [hwhich] at h
      cases h
      exact ⟨rfl, rfl, rfl, rfl, rfl⟩
  | true =>
      rw [hwhich] at h
      obtain ⟨key, hkey, h⟩ := bind_eq_ok h
      obtain ⟨multibase, hpublic, h⟩ := bind_eq_ok h
      have hpublic := multibaseOf_eq_ok hpublic
      by_cases hsame : multibase = current
      · rw [if_pos hsame] at h
        cases h
      · rw [if_neg hsame] at h
        obtain ⟨stored, hstored, h⟩ := bind_eq_ok h
        cases h
        have hhalf := hL.publicHalf_private _ _ (multibaseOf_eq_ok hstored)
        have hnew : (newSigning L r).toOption.bind L.publicMultibase = some multibase := by
          rw [hkey]
          exact hpublic
        refine ⟨rfl, ?_, ?_, ?_, ?_⟩
        · exact hhalf.trans (hpublic.trans hnew.symm)
        · rw [if_pos rfl, hnew]
          rfl
        · rw [if_pos rfl, if_pos rfl, hnew]
          rfl
        · rw [if_pos rfl, hnew]
          exact hL.updateKeys_set _ _

theorem prepare_ok (hL : Documented L) {secrets : ServerSecrets} {content : String}
    {p : Prepared} (h : prepare L r secrets content = .ok p) :
    ∃ tip, Prepares L r content p tip := by
  obtain ⟨states, hstates, h⟩ := bind_eq_ok h
  obtain ⟨last, hlast, h⟩ := bind_eq_ok h
  obtain ⟨didId, hdid, h⟩ := bind_eq_ok h
  obtain ⟨retiredKaKid, hkid, h⟩ := bind_eq_ok h
  obtain ⟨ka, hka, h⟩ := bind_eq_ok h
  obtain ⟨key, hkey, h⟩ := bind_eq_ok h
  obtain ⟨multibase, hmultibase, h⟩ := bind_eq_ok h
  obtain ⟨signing, hsigning, h⟩ := bind_eq_ok h
  obtain ⟨entry, hentry, h⟩ := bind_eq_ok h
  obtain ⟨line, hline, h⟩ := bind_eq_ok h
  obtain ⟨witnessed, hverified, h⟩ := bind_eq_ok h
  cases h
  obtain ⟨hkaStored, hkaPublic, hkaKnown, hkaDoc⟩ := incomingKa_ok hL hka
  obtain ⟨hsigningStored, hsigningPublic, hsigningKnown, hsigningDoc, hkeys⟩ :=
    incomingSigning_ok hL hsigning
  have hentry := configErr_eq_ok hentry
  have hline := mapError_eq_ok hline
  have hverified := configErr_eq_ok hverified
  have hlines := trimmedLines_appendLine (hL.line _ _ _ _ _ _ hentry hline) content
  have htip := logTip_of_appended hL hstates hentry hline hlines hverified
  let doc := stateObject (L.getState last.1)
  refine ⟨(doc, L.updateKeys last.2), ?_, orConfig_eq_ok hkid, rfl, hkaStored, hkaPublic,
    hkaKnown, hsigningStored, hsigningPublic, hsigningKnown, ?_, ⟨line, hlines⟩,
    ⟨witnessed, hverified⟩⟩
  · rw [logTip, hstates]
    have hlast := orConfig_eq_ok hlast
    simp [Except.toOption, hlast, doc]
  · have hdid : ((member doc "id").bind Json.asStr).getD "" = didId := by
      rw [orConfig_eq_ok hdid]
      rfl
    have hdoc : rotatedDoc L r doc = signing.doc := by
      rw [rotatedDoc, hdid, hsigningDoc, hkaDoc]
      rfl
    rw [htip, rotatedTip, hdoc, hkeys]

end

/-! ## The accesses of a run -/

section

variable {L : RotateLibs} {r : Rotation} {fault : ℕ → Option RotateError} {s : RotateStore}
  {mnemonic : String} {secrets : ServerSecrets} {content : String} {p : Prepared}

theorem prepareRotation_ok (h : (prepareRotation L r).eval s = .ok (mnemonic, secrets, p)) :
    ∃ content, Ready L r s mnemonic secrets content p := by
  obtain ⟨slot, hslot, h⟩ := Query.eval_bind_eq_ok h
  obtain ⟨row, hrow, h⟩ := Query.eval_bind_eq_ok h
  obtain ⟨held, hheld, h⟩ := Query.eval_bind_eq_ok h
  obtain ⟨log, hlog, h⟩ := Query.eval_bind_eq_ok h
  obtain ⟨content, hcontent, h⟩ := Query.eval_bind_eq_ok h
  obtain ⟨q, hq, h⟩ := Query.eval_bind_eq_ok h
  rw [Query.eval_ofExcept] at hslot hheld hcontent hq
  cases h
  cases hrow
  cases hlog
  exact ⟨content, orConfig_eq_ok hslot, orConfig_eq_ok hheld, orConfig_eq_ok hcontent, hq⟩

theorem Ready.eval_eq (h : Ready L r s mnemonic secrets content p) :
    (prepareRotation L r).eval s = .ok (mnemonic, secrets, p) ∧
      (prepareRotation L r).accesses s = 2 := by
  simp [prepareRotation, orConfig, Query.ofExcept, Query.read, Query.bind, Query.eval,
    Query.accesses, bind, pure, h.mnemonic_eq, h.secrets_eq, h.content_eq, h.prepared]

/-- The second write leaves the secrets and the logs, and is made if and only if no access
fails and a generation is live. -/
theorem recordGeneration_run (fault : ℕ → Option RotateError) (r : Rotation) (p : Prepared)
    (t : RotateStore) :
    let run := Prog.runFaulty fault (recordGeneration r p) 3 t
    let records := (∀ i, 3 ≤ i → i ≤ 5 → fault i = none) ∧
      loadGenerations t.currentId t.generations r.now ≠ []
    run.2.1.secrets = t.secrets ∧ run.2.1.dids = t.dids ∧
      ((records ∧ ∃ g u, run = (.ok g, u, 6)) ∨ (¬ records ∧ ∃ e u n, run = (.error e, u, n))) := by
  intro run records
  have hfails : ∀ j e, 3 ≤ j → j ≤ 5 → fault j = some e → ¬ records := by
    intro j e hlow hhigh hsome h
    exact absurd (hsome.symm.trans (h.1 j hlow hhigh)) (by simp)
  have hrun : run = _ := Prog.runFaulty_readThen fault (·.currentId) _ 3 t
  cases hfault3 : fault 3 with
  | some e =>
      rw [hfault3] at hrun
      rw [hrun]
      exact ⟨rfl, rfl, .inr ⟨hfails 3 e (by omega) (by omega) hfault3, e, _, _, rfl⟩⟩
  | none =>
      rw [hfault3] at hrun
      replace hrun : run = _ := hrun.trans (Prog.runFaulty_readThen fault (·.generations) _ 4 t)
      cases hfault4 : fault 4 with
      | some e =>
          rw [hfault4] at hrun
          rw [hrun]
          exact ⟨rfl, rfl, .inr ⟨hfails 4 e (by omega) (by omega) hfault4, e, _, _, rfl⟩⟩
      | none =>
          rw [hfault4] at hrun
          replace hrun : run = _ := hrun.trans (Prog.runFaulty_check fault _ _ 5 t)
          cases hlive : loadGenerations t.currentId t.generations r.now with
          | nil =>
              rw [hlive] at hrun
              rw [hrun]
              exact ⟨rfl, rfl, .inr ⟨fun h => h.2 hlive, _, _, _, rfl⟩⟩
          | cons current rest =>
              rw [hlive] at hrun
              replace hrun : run = _ := hrun.trans (Prog.runFaulty_write fault _ _ 5 t)
              cases hfault5 : fault 5 with
              | some e =>
                  rw [hfault5] at hrun
                  rw [hrun]
                  exact ⟨rfl, rfl, .inr ⟨hfails 5 e (by omega) (by omega) hfault5, e, _, _, rfl⟩⟩
              | none =>
                  rw [hfault5] at hrun
                  rw [hrun]
                  have hsome : loadGenerations t.currentId t.generations r.now ≠ [] := by
                    rw [hlive]
                    exact List.cons_ne_nil _ _
                  refine ⟨rfl, rfl, .inl ⟨⟨?_, hsome⟩, current, _, rfl⟩⟩
                  intro i hlow hhigh
                  obtain rfl | rfl | rfl : i = 3 ∨ i = 4 ∨ i = 5 := by omega
                  · exact hfault3
                  · exact hfault4
                  · exact hfault5

/-- The third write is made if its own access does not fail. -/
theorem publishLog_run (t : RotateStore) :
    let run := Prog.runFaulty fault (publishLog mnemonic p) 6 t
    let published := WriteBatch.commit (RotateWrite.log mnemonic p.newLog) t
    (fault 6 ≠ none ∧ ∃ e n, run = (.error e, t, n)) ∨
      (fault 6 = none ∧ fault 7 = none ∧ ∃ n, run = (.ok (), published, n)) ∨
      (fault 6 = none ∧ fault 7 ≠ none ∧ ∃ e n, run = (.error e, published, n)) := by
  intro run published
  have hrun : run = _ := Prog.runFaulty_write fault _ _ 6 t
  cases hfault6 : fault 6 with
  | some e =>
      rw [hfault6] at hrun
      exact .inl ⟨Option.some_ne_none e, e, _, hrun⟩
  | none =>
      rw [hfault6] at hrun
      replace hrun : run = _ := hrun.trans (Prog.runFaulty_ask fault _ 7 _)
      cases hfault7 : fault 7 with
      | some e =>
          rw [hfault7] at hrun
          exact .inr (.inr ⟨rfl, Option.some_ne_none e, e, _, hrun⟩)
      | none =>
          rw [hfault7] at hrun
          exact .inr (.inl ⟨rfl, rfl, _, hrun⟩)

theorem writeRotation_run :
    let run := Prog.runFaulty fault (writeRotation r mnemonic secrets p) 2 s
    (fault 2 ≠ none ∧ run.2.1 = s ∧ ∃ e, run.1 = .error e) ∨
      (fault 2 = none ∧ run.2.1.secrets = some (replaced r secrets p) ∧
        ((¬ GoesOn r fault s ∧ run.2.1.dids = s.dids ∧ ∃ e, run.1 = .error e) ∨
          (GoesOn r fault s ∧ run.2.1.dids =
              { s.dids with contentLog := s.dids.contentLog.insert mnemonic p.newLog } ∧
            ((fault 7 = none ∧ ∃ report, run.1 = .ok report) ∨
              (fault 7 ≠ none ∧ ∃ e, run.1 = .error e))))) := by
  intro run
  have hrun : run = _ := Prog.runFaulty_write fault _ _ 2 s
  cases hfault2 : fault 2 with
  | some e =>
      rw [hfault2] at hrun
      rw [hrun]
      exact .inl ⟨Option.some_ne_none e, rfl, e, rfl⟩
  | none =>
      rw [hfault2] at hrun
      replace hrun : run = _ := hrun.trans (Prog.runFaulty_bind fault _ _ 3 _)
      obtain ⟨hsecrets, hdids, ⟨⟨hnone, hlive⟩, g, u, hrecord⟩ | ⟨hstop, e, u, n, hrecord⟩⟩ :=
        recordGeneration_run fault r p
          (WriteBatch.commit (RotateWrite.secrets (replaced r secrets p)) s)
      · rw [hrecord] at hrun hsecrets hdids
        replace hrun : run = _ := hrun.trans (Prog.runFaulty_bind fault _ _ 6 u)
        have hpublished : u.dids = s.dids := hdids
        have hgoes : fault 6 = none → GoesOn r fault s := by
          refine fun hfault6 => ⟨fun i hlow hhigh => ?_, hlive⟩
          rcases Nat.lt_or_eq_of_le hhigh with hlt | rfl
          · exact hnone i hlow (Nat.le_of_lt_succ hlt)
          · exact hfault6
        rcases publishLog_run u with
          ⟨hfault6, e, n, hpublish⟩ | ⟨hfault6, hfault7, n, hpublish⟩ |
            ⟨hfault6, hfault7, e, n, hpublish⟩
        · rw [hpublish] at hrun
          rw [hrun]
          refine .inr ⟨rfl, hsecrets, .inl ⟨fun h => ?_, hdids, e, rfl⟩⟩
          exact hfault6 (h.1 6 (by omega) (by omega))
        · rw [hpublish] at hrun
          rw [hrun, ← hpublished]
          exact .inr ⟨rfl, hsecrets, .inr ⟨hgoes hfault6, rfl, .inl ⟨hfault7, _, rfl⟩⟩⟩
        · rw [hpublish] at hrun
          rw [hrun, ← hpublished]
          exact .inr ⟨rfl, hsecrets, .inr ⟨hgoes hfault6, rfl, .inr ⟨hfault7, e, rfl⟩⟩⟩
      · rw [hrecord] at hrun hsecrets hdids
        rw [hrun]
        refine .inr ⟨rfl, hsecrets, .inl ⟨fun h => hstop ⟨?_, h.2⟩, hdids, e, rfl⟩⟩
        exact fun i hlow hhigh => h.1 i hlow (by omega)

/-- A run leaves the store as it was, or it has replaced the secrets; and then it has written
the log or not. -/
theorem rotation_cases (L : RotateLibs) (r : Rotation) (fault : ℕ → Option RotateError)
    (s : RotateStore) :
    let run := rotation L r fault s
    (¬ WritesSecrets L r fault s ∧ run.2.1 = s ∧ ∃ e, run.1 = .error e) ∨
      ∃ mnemonic secrets content p, WritesSecrets L r fault s ∧
        Ready L r s mnemonic secrets content p ∧ run.2.1.secrets = some (replaced r secrets p) ∧
          ((¬ GoesOn r fault s ∧ run.2.1.dids = s.dids ∧ ∃ e, run.1 = .error e) ∨
            (GoesOn r fault s ∧ run.2.1.dids =
                { s.dids with contentLog := s.dids.contentLog.insert mnemonic p.newLog } ∧
              ((fault 7 = none ∧ ∃ report, run.1 = .ok report) ∨
                (fault 7 ≠ none ∧ ∃ e, run.1 = .error e)))) := by
  intro run
  have hrun : run = _ := Prog.runFaulty_bind fault _ _ 0 s
  rcases Prog.runFaulty_ofQuery (ω := RotateWrite) (κ := Unit) fault (prepareRotation L r) 0 s
    with ⟨hnone, hread⟩ | ⟨i, hi, e, hsome, hread⟩
  · rw [hread] at hrun
    cases heval : (prepareRotation L r).eval s with
    | error e =>
        rw [heval] at hrun
        refine .inl ⟨?_, by rw [hrun], e, by rw [hrun]⟩
        rintro ⟨-, mnemonic, secrets, content, p, hready⟩
        exact absurd (heval.symm.trans hready.eval_eq.1) (by simp)
    | ok found =>
        obtain ⟨mnemonic, secrets, p⟩ := found
        obtain ⟨content, hready⟩ := prepareRotation_ok heval
        have haccesses := hready.eval_eq.2
        rw [heval, haccesses] at hrun
        rw [haccesses] at hnone
        replace hrun : run = Prog.runFaulty fault (writeRotation r mnemonic secrets p) 2 s := hrun
        rw [hrun]
        rcases writeRotation_run with ⟨hfault2, hstore, herror⟩ | ⟨hfault2, hwrites⟩
        · exact .inl ⟨fun h => hfault2 (h.1 2 (Nat.le_refl 2)), hstore, herror⟩
        · refine .inr ⟨mnemonic, secrets, content, p, ⟨?_, mnemonic, secrets, content, p, hready⟩,
            hready, hwrites⟩
          intro i hi
          rcases Nat.lt_or_eq_of_le hi with hlt | rfl
          · have hfault := hnone i hlt
            rwa [Nat.zero_add] at hfault
          · exact hfault2
  · rw [hread] at hrun
    refine .inl ⟨?_, by rw [hrun], e, by rw [hrun]⟩
    rintro ⟨hnone, mnemonic, secrets, content, p, hready⟩
    rw [hready.eval_eq.2] at hi
    rw [Nat.zero_add, hnone i (by omega)] at hsome
    cases hsome

end

end KeyRotation

end DidHosting
