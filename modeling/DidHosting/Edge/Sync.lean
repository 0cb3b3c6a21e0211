import DidHosting.Common.Store
import DidHosting.Common.Publication
import DidHosting.Common.Domain
import DidHosting.Common.Mnemonic

/-!
# Sync updates on an edge

An edge keeps its own copy of the slots it serves.  It verifies every update it
is sent: the binding of the identifier to the slot, the chain and witness
proofs of the log, and the history, both against the log the slot holds and
against the high-water log kept for the DID's identity.
-/

namespace DidHosting

open Text

/-! ## State -/

structure AssignmentEntry where
  domain : String
  assignedAt : ℕ
  assigner : String
deriving DecidableEq, Repr

/-- The keyspaces of an edge. -/
structure EdgeStore where
  ks : DidsKs
  assignments : Table String AssignmentEntry
  pendingPurges : Table String PendingPurge
  domains : Table String DomainEntry
  defaultDomain : Option String

/-- One write of an edge operation: a batch on the `dids` keyspace, or a single
row of another keyspace. -/
inductive EdgeWrite where
  | dids (batch : Batch)
  | insertAssignment (entry : AssignmentEntry)
  | removeAssignment (domain : String)
  | insertPendingPurge (entry : PendingPurge)
  | removePendingPurge (domain : String)
  | insertDomain (entry : DomainEntry)
  | removeDomain (name : String)
deriving DecidableEq, Repr

namespace EdgeStore

/-- The store after a write. -/
def commit : EdgeWrite → EdgeStore → EdgeStore
  | .dids batch, s => { s with ks := DidsKs.commit batch s.ks }
  | .insertAssignment e, s => { s with assignments := s.assignments.insert e.domain e }
  | .removeAssignment d, s => { s with assignments := s.assignments.erase d }
  | .insertPendingPurge p, s =>
      { s with pendingPurges := s.pendingPurges.insert p.domain p }
  | .removePendingPurge d, s => { s with pendingPurges := s.pendingPurges.erase d }
  | .insertDomain e, s => { s with domains := s.domains.insert e.name e }
  | .removeDomain name, s => { s with domains := s.domains.erase name }

instance : WriteBatch EdgeStore EdgeWrite := ⟨commit⟩

def record (s : EdgeStore) (mnemonic : String) : Option DidRecord :=
  s.ks.dids.lookup mnemonic

/-- The log a slot holds. -/
def log (s : EdgeStore) (mnemonic : String) : Option String :=
  s.ks.contentLog.lookup mnemonic

/-- The witness file a slot holds. -/
def witness (s : EdgeStore) (mnemonic : String) : Option String :=
  s.ks.contentWitness.lookup mnemonic

/-- The high-water log of an identity. -/
def highWater (s : EdgeStore) (identity : String) : Option String :=
  s.ks.highWaterIdentity.lookup identity

/-- The high-water mark of a slot. -/
def slotMark (s : EdgeStore) (mnemonic : String) : Option SlotHighWater :=
  s.ks.highWaterSlot.lookup mnemonic

end EdgeStore

/-- The fixed part of an edge: its libraries and its public URL. -/
structure EdgeState where
  libs : Libs
  publicUrl : Option String

/-- The error codes `sync/update/0.2` and `replica/domain` directives declare. -/
inductive ErrorCode where
  | invalidLog
  | historyRewrite
  | deactivated
  | stalePurge
  | nonCanonicalName
deriving DecidableEq, Repr

inductive OpError where
  | refused (msg : String)
  | declared (code : ErrorCode) (msg : String)
  | transient (msg : String)
deriving DecidableEq, Repr

def OpError.ofApp (e : AppError) : OpError :=
  match e with
  | .internal _ => .transient e.toText
  | _ => .refused e.toText

/-- The one lock of an edge: the sync lock. -/
inductive EdgeLock where
  | sync
deriving DecidableEq, Repr

/-- Reads of an edge's store. -/
abbrev EdgeQ := Query EdgeStore AppError

abbrev EdgeM := Prog EdgeStore EdgeWrite EdgeLock OpError

/-! ## Binding -/

/-- The hosts this edge serves: its public URL and each assigned domain. -/
def servedBases (E : EdgeState) (assignments : Table String AssignmentEntry) :
    List String :=
  E.publicUrl.toList ++ (Table.rows assignments).flatMap fun row =>
    let host := before '/' row.2.domain
    ["https://" ++ host, "https://" ++ row.2.domain]

/-- The authority of a base URL. -/
def urlAuthority (u : Url) : String :=
  match u.port with
  | some p => u.hostStr.getD "" ++ ":" ++ toString p
  | none => u.hostStr.getD ""

/-- The identifier resolves at this slot on one of the served hosts. -/
def boundAt (L : Libs) (method : Method) (update : DidSyncUpdate)
    (bases : List String) : Bool :=
  match method with
  | .webvh =>
      bases.any fun base =>
        (validateDidIdMatchesRequest L update.didId update.mnemonic base).isOk
  | _ =>
      endsWith (":" ++ replaceChar '/' ":" update.mnemonic) update.didId &&
        bases.any fun base =>
          match L.urlParse base with
          | .ok u => urlAuthority u = didHostOrEmpty L update.didId
          | .error _ => false

/-- The identifier is the one the log establishes. -/
def checkNamedDid (L : Libs) (method : Method) (update : DidSyncUpdate) :
    Except AppError Unit :=
  if method = .webvh && extractDidId L update.logContent ≠ some update.didId then
    let established := (extractDidId L update.logContent).getD "no DID"
    .error (.validation
      s!"sync update names {update.didId} but its log establishes {established}")
  else
    .ok ()

def verifyBinding (E : EdgeState) (method : Method) (update : DidSyncUpdate) :
    EdgeQ Unit := do
  Query.ofExcept (checkNamedDid E.libs method update)
  let bases ← Query.read fun s => servedBases E s.assignments
  Query.require (!bases.isEmpty)
    (.validation "this server has no public URL or assigned domain to bind synced DIDs to")
  Query.require (boundAt E.libs method update bases)
    (.validation
      s!"{update.didId} does not resolve at slot {update.mnemonic} on a host this server serves")

/-! ## Content -/

/-- A `MethodError` as a validation error. -/
def methodErr {α : Type} : Except MethodError α → Except AppError α
  | .ok a => .ok a
  | .error e => .error (.validation e.toText)

/-- The content check of `verify_update`, with the document a did:webs stream
implies. -/
def verifyContent (L : Libs) (method : Method) (update : DidSyncUpdate) :
    Except AppError (Option Json) :=
  match method with
  | .webvh =>
      match verifyDidLogAndWitnessProofs L update.logContent update.witnessContent with
      | .ok () => .ok none
      | .error e => .error (.validation e)
  | .web =>
      if L.methodWebs then .ok none
      else .error (.validation "this server cannot verify web logs")
  | .webs =>
      if L.methodWebs then
        match methodErr (verifyArtifacts L update.didId update.logContent) with
        | .error e => .error e
        | .ok derived =>
            match L.fromStr derived with
            | .ok doc => .ok (some doc)
            | .error e => .error (.internal e)
      else .error (.validation "this server cannot verify webs logs")

/-! ## History -/

/-- The stable identity of a DID: the SCID for webvh, else the identifier. -/
def didIdentity (method : Method) (didId : String) : Except AppError String :=
  match method with
  | .webvh =>
      match webvhScid didId with
      | some scid => .ok scid
      | none => .error (.validation s!"{didId} is not a did:webvh identifier")
  | _ => .ok didId

/-- The identity of the DID a slot holds, read under the incoming method. -/
def heldIdentity (method : Method) (record : Option DidRecord) : Option String :=
  (record.bind (·.didId)).map fun id =>
    match method with
    | .webvh => (webvhScid id).getD ""
    | _ => id

/-- A slot never changes method. -/
def checkSlotMethod (mnemonic : String) (method : Method) (record : Option DidRecord)
    (mark : Option SlotHighWater) : Except AppError Unit :=
  match ((record.map (·.method)).toList ++ (mark.map (·.method)).toList).find?
      (· ≠ method) with
  | some held =>
      .error (.validation
        s!"slot {mnemonic} holds a {held.name} DID; refusing to replace it with a {method.name} log")
  | none => .ok ()

/-- The continuity of a log with one it replaces. -/
def checkSuccessor (L : Libs) (method : Method) (didId previous logContent : String) :
    Except AppError Unit :=
  match method with
  | .webvh =>
      match verifyLogExtends L (some previous) logContent with
      | .ok () => .ok ()
      | .error e => .error (.validation e)
  | _ =>
      if L.methodWebs then methodErr (verifyContinuation L didId previous logContent)
      else .error (.validation s!"this server cannot verify {method.name} logs")

/-- The continuity with every earlier log of the same DID. -/
def checkSuccessors (L : Libs) (method : Method) (didId logContent : String) :
    List String → Except AppError Unit
  | [] => .ok ()
  | previous :: rest => do
      checkSuccessor L method didId previous logContent
      checkSuccessors L method didId logContent rest

/-- `verify_history`: the identity of the DID. -/
def verifyHistory (L : Libs) (mnemonic didId logContent : String) (method : Method) :
    EdgeQ String := do
  let held ← Query.read (·.log mnemonic)
  let heldRecord ← Query.read (·.record mnemonic)
  let slotMark ← Query.read (·.slotMark mnemonic)
  Query.ofExcept (checkSlotMethod mnemonic method heldRecord slotMark)
  let identity ← Query.ofExcept (didIdentity method didId)
  let highWater ← Query.read (·.highWater identity)
  let sameDidHeld := if heldIdentity method heldRecord = some identity then held else none
  Query.ofExcept (checkSuccessors L method didId logContent
    (sameDidHeld.toList ++ highWater.toList))
  return identity

/-! ## Applying an update -/

inductive SyncApplied where
  | applied
  | unchanged
deriving DecidableEq, Repr

/-- The services and names of the current document. -/
def syncedFacts (L : Libs) (document : Option Json) (logContent host : String) :
    Option (List String) × List String :=
  match document with
  | some doc => (some (serviceTypesFromDoc doc), agentNamesFromDocument L doc host)
  | none => (extractServiceTypes L logContent, extractAgentNames L logContent host)

/-- The record an applied update stores. -/
def syncedRecord (L : Libs) (update : DidSyncUpdate) (method : Method)
    (document : Option Json) (now : ℕ) : DidRecord where
  owner := "system"
  mnemonic := update.mnemonic
  createdAt := now
  updatedAt := now
  versionCount := update.versionCount
  didId := some update.didId
  contentSize := update.logContent.utf8ByteSize
  disabled := update.disabled
  deletedAt := none
  method := method
  domain := didHostOrEmpty L update.didId
  services :=
    (syncedFacts L document update.logContent (didHostOrEmpty L update.didId)).1
  agentNames :=
    ((syncedFacts L document update.logContent (didHostOrEmpty L update.didId)).2.filter
      fun name => (validateAgentNameBinding name update.mnemonic).isOk).map
        fun name => ⟨name, true, now⟩

/-- The edge already holds exactly the state of the update. -/
def alreadyHeld (update : DidSyncUpdate) (record : Option DidRecord)
    (log witness : Option String) : Bool :=
  match record with
  | some prev =>
      prev.didId = some update.didId && prev.disabled = update.disabled &&
        log = some update.logContent && witness = update.witnessContent
  | none => false

/-- The index rows of names the new record no longer has. -/
def retiredNames (previous : Option DidRecord) (record : DidRecord) (host : String) : Batch :=
  match previous with
  | some prev =>
      (prev.agentNames.filter fun old =>
        !record.agentNames.any fun n => n.name = old.name).map
          fun old => .removeName host old.name
  | none => []

/-- The witness part of the batch: an absent file means the slot holds none. -/
def witnessWrite (update : DidSyncUpdate) : BatchOp :=
  match update.witnessContent with
  | some witness => .insertWitness update.mnemonic witness
  | none => .removeWitness update.mnemonic

def stageHighWater (identity mnemonic didId : String) (method : Method)
    (logContent : String) : Batch :=
  [.insertHighWaterIdentity identity logContent,
    .insertHighWaterSlot mnemonic ⟨identity, didId, method⟩]

/-- The batch of `apply_single_update`. -/
def updateBatch (L : Libs) (update : DidSyncUpdate) (method : Method)
    (previous : Option DidRecord) (record : DidRecord) (identity : String) : Batch :=
  let host := didHostOrEmpty L update.didId
  [.insertDid update.mnemonic record] ++ retiredNames previous record host ++
    (record.agentNames.map fun e => .insertName host e.name update.mnemonic) ++
    [.insertLog update.mnemonic update.logContent, .insertOwner "system" update.mnemonic,
      witnessWrite update] ++
    stageHighWater identity update.mnemonic update.didId method update.logContent

/-- The method of a synced log. -/
def syncedMethod (L : Libs) (logContent : String) : Method :=
  (detectMethod L logContent).getD .webvh

/-- `apply_single_update` up to the commit. -/
def updatePlan (E : EdgeState) (now : ℕ) (update : DidSyncUpdate) :
    EdgeQ (Option EdgeWrite × SyncApplied) := do
  let method := syncedMethod E.libs update.logContent
  verifyBinding E method update
  let document ← Query.ofExcept (verifyContent E.libs method update)
  let identity ← verifyHistory E.libs update.mnemonic update.didId update.logContent method
  let previous ← Query.read (·.record update.mnemonic)
  let log ← Query.read (·.log update.mnemonic)
  let witness ← Query.read (·.witness update.mnemonic)
  if alreadyHeld update previous log witness then return (none, .unchanged)
  else
    let record := syncedRecord E.libs update method document now
    return (some (.dids (updateBatch E.libs update method previous record identity)), .applied)

def syncRefusal : AppError → OpError
  | .validation msg =>
      if containsText "deactivated" msg then .declared .deactivated msg
      else if containsText "not an extension" msg || containsText "rollback" msg ||
          containsText "high-water" msg || containsText "refusing to replace" msg then
        .declared .historyRewrite msg
      else
        .declared .invalidLog msg
  | e => OpError.ofApp e

/-- The entry-count check of `apply_sync_entry`: the log must hold exactly the
entries the source counted. -/
def checkEntryCount (update : DidSyncUpdate) : Except OpError Unit :=
  if entryCount update.logContent ≠ update.versionCount then
    .error (.declared .invalidLog
      s!"versionCount is {update.versionCount} but logContent holds {entryCount update.logContent} entries")
  else
    .ok ()

theorem checkEntryCount_eq_ok_iff {update : DidSyncUpdate} :
    checkEntryCount update = .ok () ↔ entryCount update.logContent = update.versionCount := by
  unfold checkEntryCount
  split
  · rename_i hne
    simp [hne]
  · rename_i heq
    simpa using heq

def applySyncEntry (E : EdgeState) (now : ℕ) (update : DidSyncUpdate) :
    EdgeM SyncApplied := do
  Prog.check (checkEntryCount update)
  Prog.planned (some .sync) ((updatePlan E now update).mapError syncRefusal)

/-- The batch that drops a slot with the index rows of its record.  The
high-water rows stay. -/
def dropSlot (L : Libs) (mnemonic : String) (record : DidRecord) : Batch :=
  [.removeDid mnemonic, .removeLog mnemonic, .removeWitness mnemonic,
    .removeOwner record.owner mnemonic, .removeWatcherSync mnemonic] ++
    record.agentNames.map fun n => .removeName (hostOfDidId L record.didId) n.name

/-- `do_sync_delete` up to the commit: whether the slot was held. -/
def syncDeletePlan (E : EdgeState) (mnemonic : String) :
    Query EdgeStore OpError (Option EdgeWrite × Bool) := do
  let row ← Query.read (·.record mnemonic)
  match row with
  | none => return (none, false)
  | some record => return (some (.dids (dropSlot E.libs mnemonic record)), true)

def doSyncDelete (E : EdgeState) (mnemonic : String) : EdgeM Bool :=
  Prog.planned (some .sync) (syncDeletePlan E mnemonic)

end DidHosting
