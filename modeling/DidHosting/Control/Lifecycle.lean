import DidHosting.Control.Publish

/-!
# Creating, changing and deleting slots

The operations that change a slot without a new log: create (with
force-replace), witness upload, delete, change of owner, disable, rollback; and
the resolution of an agent name.

Witness upload and change of owner run under the path guard.  Create, delete,
disable and rollback take no lock.
-/

namespace DidHosting

open Text

/-! ## Create -/

/-- `generate_unique_mnemonic` over the random draws of its attempts. -/
def generateUniqueMnemonic : List String → ControlQ String
  | [] => Query.fail (.internal "failed to generate unique mnemonic after 100 attempts")
  | mnemonic :: rest => do
      let row ← Query.read (·.record mnemonic)
      if row.isNone then pure mnemonic else generateUniqueMnemonic rest

/-- The record a force-replace displaces, if the path is taken; refused unless
the caller may replace it. -/
def replacedRecord (auth : AuthClaims) (customPath : String) (force : Bool)
    (conflictMsg : String) : ControlQ (Option DidRecord) := do
  let row ← Query.read (·.record customPath)
  if row.isNone then pure none
  else do
    Query.require force (.conflict conflictMsg)
    let row ← Query.read (·.record customPath)
    let existing ← Query.okOr (.internal "path conflict but record missing") row
    Query.require (authorized auth existing)
      (.forbidden "force replace requires admin or current owner")
    return some existing

/-- The batch of a force-replace: the content and the previous owner's index
row go, the record stays until it is overwritten. -/
def forceReplaceBatch (auth : AuthClaims) (customPath : String)
    (existing : DidRecord) : Batch :=
  [.removeLog customPath, .removeWitness customPath] ++
    if existing.owner ≠ auth.did then [.removeOwner existing.owner customPath] else []

def resolvePathForCreate (auth : AuthClaims) (customPath : String) (force : Bool)
    (conflictMsg : String) : ControlM String := do
  let existing ← (replacedRecord auth customPath force conflictMsg : ControlQ _)
  Prog.writeOpt (existing.map (forceReplaceBatch auth customPath))
  return customPath

/-- The slot a create is for: the root, a custom path, or a fresh random one. -/
def createPath (auth : AuthClaims) (path : Option String) (force : Bool)
    (draws : List String) : ControlM String :=
  match path with
  | some customPath =>
      if customPath = rootDidMnemonic then do
        Prog.check (if auth.role = .admin then .ok ()
          else .error (.forbidden "only admins can create the root DID"))
        resolvePathForCreate auth customPath force "root DID (.well-known) already exists"
      else do
        Prog.check (validateCustomPath customPath)
        resolvePathForCreate auth customPath force s!"path '{customPath}' is already taken"
  | none => Prog.ofQuery (generateUniqueMnemonic (draws.take 100))

/-- The record of an empty slot. -/
def emptyRecord (auth : AuthClaims) (mnemonic : String) (domain : Option String)
    (now : ℕ) : DidRecord where
  owner := auth.did
  mnemonic := mnemonic
  createdAt := now
  updatedAt := now
  versionCount := 0
  didId := none
  contentSize := 0
  disabled := false
  deletedAt := none
  method := .webvh
  domain := domain.getD ""
  services := none
  agentNames := []

/-- The last batch of `create_did`. -/
def createBatch (auth : AuthClaims) (mnemonic : String) (domain : Option String)
    (now : ℕ) : Batch :=
  [.insertDid mnemonic (emptyRecord auth mnemonic domain now),
    .insertOwner auth.did mnemonic]

/-- The slot-count quota of a create: a slot the caller already holds does not
count. -/
def checkAddedSlot (auth : AuthClaims) (mnemonic : String) : ControlQ Unit := do
  let existing ← Query.read (·.record mnemonic)
  match existing with
  | some record =>
      if record.owner ≠ auth.did then checkDidCountLimit auth else pure ()
  | none => checkDidCountLimit auth

def createDid (A : AppState) (auth : AuthClaims) (now : ℕ) (path : Option String)
    (force : Bool) (domain : Option String) (draws : List String) :
    ControlM RequestUriResponse := do
  let mnemonic ← createPath auth path force draws
  (checkAddedSlot auth mnemonic : ControlQ Unit)
  Prog.write (createBatch auth mnemonic domain now)
  let base := A.config.hostingUrl.getD "http://localhost"
  return ⟨mnemonic, s!"{base}/{mnemonic}/did.jsonl"⟩

/-! ## Witness upload -/

/-- Append a proof to one version's entry of the witness file. -/
def addProof (proof : Json) : Json → Json
  | .obj members =>
      match (Json.obj members).get "proof" with
      | some (.arr proofs) => .obj (Json.setMember "proof" (.arr (proofs ++ [proof])) members)
      | _ => .obj (Json.setMember "proof" (.arr [proof]) members)
  | other => other

/-- Merge a proof into the witness file: into the first entry of its version,
or as a new entry. -/
def mergeProof (versionId : String) (proof : Json) : List Json → List Json
  | [] => [.obj [("proof", .arr [proof]), ("versionId", .str versionId)]]
  | e :: rest =>
      if (e.get "versionId").bind Json.asStr = some versionId then addProof proof e :: rest
      else e :: mergeProof versionId proof rest

/-- An `InvalidWitness` error. -/
def witnessErr (msg : String) : AppError :=
  AppError.validationOf .invalidWitness msg

/-- The stored witness file as a list; a blob that does not parse counts as
empty. -/
def witnessEntries (L : Libs) (existing : Option String) : List Json :=
  ((existing.bind fun text => (L.fromStr text).toOption).bind Json.asArray).getD []

/-- The part of `upload_witness` that runs under the path lock. -/
def uploadWitnessPlan (A : AppState) (auth : AuthClaims) (mnemonic : String)
    (witnessEntry : Json) : ControlQ (Option Batch × Unit) := do
  let _ ← getAuthorizedRecord mnemonic auth
  let versionId ← Query.okOr
    (witnessErr "witness object must have a string \"versionId\"")
    ((witnessEntry.get "versionId").bind Json.asStr)
  let proof ← Query.okOr (witnessErr "witness object must have a \"proof\"")
    (witnessEntry.get "proof")
  let row ← Query.read (·.log mnemonic)
  let logContent ← Query.okOr (witnessErr "no published log exists for this DID yet") row
  Query.ofExcept
    (match verifyWitnessProofForVersion A.libs logContent versionId proof with
      | .ok () => .ok ()
      | .error e => .error (witnessErr e))
  let existing ← Query.read (·.witness mnemonic)
  let entries := mergeProof versionId proof (witnessEntries A.libs existing)
  return (some [.insertWitness mnemonic (A.libs.toJsonString (.arr entries))], ())

def uploadWitness (A : AppState) (auth : AuthClaims) (mnemonic : String)
    (witnessEntry : Json) : ControlM Unit := do
  Prog.check (validateMnemonic mnemonic)
  Prog.planned (some mnemonic) (uploadWitnessPlan A auth mnemonic witnessEntry)

/-! ## Delete -/

def ensureSlotDomainMatches (L : Libs) (record : DidRecord)
    (requestDomain : Option String) : Except AppError Unit :=
  match namedDomain requestDomain with
  | none => .ok ()
  | some requested =>
      let domain := slotDomain L record
      if domain ≠ "" && !eqIgnoreAsciiCase requested domain then
        .error (.validation
          s!"did-management:unknown_domain — requested domain `{requested}` does not match the slot's domain `{domain}`")
      else
        .ok ()

/-- The batch of `delete_did`. -/
def deleteBatch (mnemonic owner : String) : Batch :=
  [.removeDid mnemonic, .removeLog mnemonic, .removeWitness mnemonic,
    .removeOwner owner mnemonic]

/-- `delete_did` up to the commit. -/
def deletePlan (A : AppState) (auth : AuthClaims) (mnemonic : String)
    (requestDomain : Option String) : ControlQ (Option Batch × Option String) := do
  let record ← getAuthorizedRecord mnemonic auth
  checkPublishedHost A auth record.didId
  Query.ofExcept (ensureSlotDomainMatches A.libs record requestDomain)
  return (some (deleteBatch mnemonic record.owner), record.didId)

def deleteDid (A : AppState) (auth : AuthClaims) (mnemonic : String)
    (requestDomain : Option String) : ControlM (Option String) := do
  Prog.check (validateMnemonic mnemonic)
  Prog.planned none (deletePlan A auth mnemonic requestDomain)

/-! ## Resolving names -/

/-- The gate of `resolve_agent_name_to_did` on the slot's record. -/
def servesName (record : DidRecord) (name : String) : Bool :=
  !record.disabled && record.deletedAt.isNone &&
    record.agentNames.any fun e => e.name = name && e.enabled

def resolveAgentNameToDid (A : AppState) (domain name : String) :
    ControlQ (Option String) :=
  if !A.config.agentNames then pure none
  else do
    let holder ← Query.read (·.nameHolder domain (bareName name))
    match holder with
    | none => pure none
    | some mnemonic => do
        let row ← Query.read (·.record mnemonic)
        match row with
        | none => pure none
        | some record =>
            if servesName record (bareName name) then pure record.didId else pure none

def resolveDidOrAgentName (A : AppState) (input : String) : ControlQ String := do
  let trimmed := trim input
  if !A.libs.looksLikeAgentName trimmed then Query.ofExcept (validateDidFormat trimmed)
  else
    match A.libs.agentNameParse trimmed with
    | .error e =>
        Query.fail (.validation s!"'{trimmed}' is not a valid agent name: {e}")
    | .ok name => do
        let did ← resolveAgentNameToDid A name.authority name.localName
        Query.okOr (.validation s!"agent name '{name.withoutScheme}' does not resolve to a DID hosted here — bind it first, or use the DID directly")
          did

/-! ## Change of owner -/

/-- The batch of `change_did_owner`. -/
def changeOwnerBatch (mnemonic newOwner : String) (record : DidRecord) (now : ℕ) : Batch :=
  [.insertDid mnemonic { record with owner := newOwner, updatedAt := now },
    .removeOwner record.owner mnemonic, .insertOwner newOwner mnemonic]

/-- The new owner of a transfer must be known to the access control. -/
def checkNewOwner (newOwner : String) : ControlQ Unit := do
  let entry ← getAclEntry newOwner
  Query.require entry.isSome
    (.validation s!"new owner '{newOwner}' is not in the ACL — add them first")

/-- The part of `change_did_owner` that runs under the path lock. -/
def changeOwnerPlan (A : AppState) (auth : AuthClaims) (now : ℕ)
    (mnemonic newOwner : String) : ControlQ (Option Batch × DidRecord) := do
  let record ← getAuthorizedRecord mnemonic auth
  checkPublishedHost A auth record.didId
  let owner ← resolveDidOrAgentName A newOwner
  if record.owner = owner then return (none, record)
  else do
    checkNewOwner owner
    return (some (changeOwnerBatch mnemonic owner record now),
      { record with owner := owner, updatedAt := now })

def changeDidOwner (A : AppState) (auth : AuthClaims) (now : ℕ)
    (mnemonic newOwner : String) : ControlM DidRecord := do
  Prog.check (validateMnemonic mnemonic)
  Prog.planned (some mnemonic) (changeOwnerPlan A auth now mnemonic newOwner)

/-! ## Disable and enable -/

/-- `set_did_disabled` up to the write. -/
def setDisabledPlan (A : AppState) (auth : AuthClaims) (mnemonic : String)
    (disabled : Bool) : ControlQ (Option Batch × Unit) := do
  let record ← getAuthorizedRecord mnemonic auth
  checkPublishedHost A auth record.didId
  return (some [.insertDid mnemonic { record with disabled := disabled }], ())

def setDidDisabled (A : AppState) (auth : AuthClaims) (mnemonic : String)
    (disabled : Bool) : ControlM Unit := do
  Prog.check (validateMnemonic mnemonic)
  Prog.planned none (setDisabledPlan A auth mnemonic disabled)

/-! ## Rollback -/

/-- How many of `count` entries a rollback keeps. -/
def rollbackKeep (count : ℕ) (targetVersion : Option ℕ) : Except AppError ℕ :=
  match targetVersion with
  | none =>
      if count < 2 then
        .error (.validation "cannot rollback: DID log must have at least 2 entries")
      else
        .ok (count - 1)
  | some target =>
      if target < 1 || count < target then
        .error (.validation s!"invalid target version {target}: the log holds {count} entries")
      else
        .ok target

/-- The first `keep` entries of a log. -/
def truncateLog (content : String) (keep : ℕ) : String :=
  joinLines ((nonblankLines content).take keep)

/-- The record a rollback to `truncated` stores. -/
def rolledBack (L : Libs) (record : DidRecord) (truncated : String) (keep now : ℕ) :
    DidRecord :=
  { record with
    versionCount := keep
    didId := extractDidId L truncated
    contentSize := truncated.utf8ByteSize
    updatedAt := now
    services := extractServiceTypes L truncated }

theorem rolledBack_didId (L : Libs) (record : DidRecord) (truncated : String)
    (keep now : ℕ) : (rolledBack L record truncated keep now).didId = extractDidId L truncated :=
  rfl

/-- The batch and the answer of a rollback that keeps `keep` of the entries of
`content`. -/
def rollbackResult (A : AppState) (now : ℕ) (mnemonic content : String)
    (record : DidRecord) (keep : ℕ) :
    Option Batch × DidRecord × Option LogMetadata × ℕ :=
  let removed := entryCount content - keep
  if removed = 0 then (none, record, some (extractLogMetadata A.libs content), 0)
  else
    let truncated := truncateLog content keep
    let next := rolledBack A.libs record truncated keep now
    (some [.insertLog mnemonic truncated, .insertDid mnemonic next, .removeWitness mnemonic],
      next, some (extractLogMetadata A.libs truncated), removed)

/-- `rollback_did_to` up to the commit. -/
def rollbackPlan (A : AppState) (auth : AuthClaims) (now : ℕ) (mnemonic : String)
    (targetVersion : Option ℕ) :
    ControlQ (Option Batch × DidRecord × Option LogMetadata × ℕ) := do
  let record ← getAuthorizedRecord mnemonic auth
  checkPublishedHost A auth record.didId
  let row ← Query.read (·.log mnemonic)
  let content ← Query.okOr (.notFound "no log content for this DID") row
  let keep ← Query.ofExcept (rollbackKeep (entryCount content) targetVersion)
  return rollbackResult A now mnemonic content record keep

def rollbackDidTo (A : AppState) (auth : AuthClaims) (now : ℕ) (mnemonic : String)
    (targetVersion : Option ℕ) : ControlM (DidRecord × Option LogMetadata × ℕ) := do
  Prog.check (validateMnemonic mnemonic)
  Prog.planned none (rollbackPlan A auth now mnemonic targetVersion)

/-! ## What the plans establish -/

section Spec

variable {A : AppState} {V : Set ControlStore} {auth : AuthClaims} {now : ℕ}
  {mnemonic : String}

theorem deletePlan_spec {requestDomain : Option String}
    {r : Option Batch × Option String}
    (h : (deletePlan A auth mnemonic requestDomain).Yields V r) :
    ∃ record, (∃ s ∈ V, s.record mnemonic = some record) ∧
      authorized auth record = true ∧
      ensureSlotDomainMatches A.libs record requestDomain = .ok () ∧
      r.1 = some (deleteBatch mnemonic record.owner) := by
  unfold deletePlan at h
  simp only [Query.yields_bind, Query.yields_ofExcept, Query.yields_pure,
    yields_getAuthorizedRecord] at h
  obtain ⟨record, ⟨hread, hauth⟩, _, _, _, hdomain, rfl⟩ := h
  exact ⟨record, hread, hauth, hdomain, rfl⟩

theorem uploadWitnessPlan_spec {witnessEntry : Json} {r : Option Batch × Unit}
    (h : (uploadWitnessPlan A auth mnemonic witnessEntry).Yields V r) :
    ∃ content, r.1 = some [.insertWitness mnemonic content] := by
  unfold uploadWitnessPlan at h
  simp only [Query.yields_bind, Query.yields_okOr, Query.yields_read,
    Query.yields_ofExcept, Query.yields_pure] at h
  obtain ⟨_, _, _, _, _, _, _, _, _, _, _, _, _, _, rfl⟩ := h
  exact ⟨_, rfl⟩

theorem changeOwnerPlan_spec {newOwner : String} {r : Option Batch × DidRecord}
    (h : (changeOwnerPlan A auth now mnemonic newOwner).Yields V r) :
    ∃ record, (∃ s ∈ V, s.record mnemonic = some record) ∧
      authorized auth record = true ∧
      (r.1 = none ∨ ∃ owner, r.1 = some (changeOwnerBatch mnemonic owner record now)) := by
  unfold changeOwnerPlan at h
  simp only [Query.yields_bind, yields_getAuthorizedRecord] at h
  obtain ⟨record, ⟨hread, hauth⟩, _, _, owner, _, h⟩ := h
  refine ⟨record, hread, hauth, ?_⟩
  split at h
  · rw [Query.yields_pure] at h
    exact Or.inl (congrArg Prod.fst h)
  · simp only [Query.yields_bind, Query.yields_pure] at h
    obtain ⟨_, _, rfl⟩ := h
    exact Or.inr ⟨owner, rfl⟩

theorem setDisabledPlan_spec {disabled : Bool} {r : Option Batch × Unit}
    (h : (setDisabledPlan A auth mnemonic disabled).Yields V r) :
    ∃ record, (∃ s ∈ V, s.record mnemonic = some record) ∧
      authorized auth record = true ∧
      r.1 = some [.insertDid mnemonic { record with disabled := disabled }] := by
  unfold setDisabledPlan at h
  simp only [Query.yields_bind, Query.yields_pure, yields_getAuthorizedRecord] at h
  obtain ⟨record, ⟨hread, hauth⟩, _, _, rfl⟩ := h
  exact ⟨record, hread, hauth, rfl⟩

theorem rollbackPlan_spec {targetVersion : Option ℕ}
    {r : Option Batch × DidRecord × Option LogMetadata × ℕ}
    (h : (rollbackPlan A auth now mnemonic targetVersion).Yields V r) :
    ∃ record content keep, (∃ s ∈ V, s.record mnemonic = some record) ∧
      authorized auth record = true ∧ (∃ s ∈ V, s.log mnemonic = some content) ∧
      rollbackKeep (entryCount content) targetVersion = .ok keep ∧
      r = rollbackResult A now mnemonic content record keep := by
  unfold rollbackPlan at h
  simp only [Query.yields_bind, Query.yields_okOr, Query.yields_read,
    Query.yields_ofExcept, Query.yields_pure, yields_getAuthorizedRecord] at h
  obtain ⟨record, ⟨hread, hauth⟩, _, _, _, ⟨s, hs, rfl⟩, content, hcontent, keep, hkeep,
    rfl⟩ := h
  exact ⟨record, content, keep, hread, hauth, ⟨s, hs, hcontent⟩, hkeep, rfl⟩

end Spec

end DidHosting
