import DidHosting.Edge.Sync

/-!
# Domains on an edge

Assignment and unassignment of domains, the purge of a domain's slots, the
sweep of due purges, and the clean-up of empty slots.

A purge reads the records once and then deletes slot by slot, each in a batch
of its own.
-/

namespace DidHosting

open Text

/-! ## Purging a domain -/

/-- `PurgeReport`.  Store failures are outside the model, so nothing fails. -/
structure PurgeReport where
  deleted : ℕ
  skippedNoDomain : ℕ
  skippedOtherDomain : ℕ
deriving DecidableEq, Repr

/-- The batch that deletes one slot of a purged domain. -/
def purgeBatch (L : Libs) (record : DidRecord) : Batch :=
  dropSlot L record.mnemonic record

/-- The record loop of `purge_domain_dids`. -/
def purgeLoop (L : Libs) (target : String) (report : PurgeReport) :
    List DidRecord → EdgeM PurgeReport
  | [] => pure report
  | record :: rest =>
      if record.domain = "" then
        purgeLoop L target { report with skippedNoDomain := report.skippedNoDomain + 1 } rest
      else if record.domain ≠ target then
        purgeLoop L target
          { report with skippedOtherDomain := report.skippedOtherDomain + 1 } rest
      else do
        Prog.write (.dids (purgeBatch L record))
        purgeLoop L target { report with deleted := report.deleted + 1 } rest

/-- The records of the keyspace in iteration order. -/
def allRecords (s : EdgeStore) : List DidRecord :=
  (Table.rows s.ks.dids).map Prod.snd

def purgeDomainDids (L : Libs) (target : String) : EdgeM PurgeReport := do
  let records ← (Query.read allRecords : Query EdgeStore OpError _)
  purgeLoop L target ⟨0, 0, 0⟩ records

/-! ## Pending purges -/

def cancelPurge (domain : String) : EdgeM Unit := do
  let row ← (Query.read (·.pendingPurges.lookup domain) : Query EdgeStore OpError _)
  Prog.writeOpt (if row.isSome then some (.removePendingPurge domain) else none)

/-- `delete_domain_record`: whether the record was deleted. -/
def deleteDomainRecord (L : Libs) (name : String) : EdgeM Bool :=
  match normalizeDomainName L name with
  | .error _ => pure false
  | .ok canonical => do
      let default ← (Query.read (·.defaultDomain) : Query EdgeStore OpError _)
      let row ← (Query.read (·.domains.lookup canonical) : Query EdgeStore OpError _)
      let deletable := default ≠ some canonical && row.isSome
      Prog.writeOpt (if deletable then some (.removeDomain canonical) else none)
      return deletable

/-- What a due entry still needs after its slots are gone: a disabled domain's
record is deleted with it. -/
def finishPurge (L : Libs) (entry : PendingPurge) : EdgeM Bool :=
  if entry.reason = disablePurgeReason then deleteDomainRecord L entry.domain
  else pure true

/-- The loop of `run_sweep_once`: how many due entries were processed. -/
def sweepLoop (L : Libs) (now purged : ℕ) : List PendingPurge → EdgeM ℕ
  | [] => pure purged
  | entry :: rest =>
      if !entry.isRipe now then sweepLoop L now purged rest
      else do
        let _ ← purgeDomainDids L entry.domain
        let done ← finishPurge L entry
        if done then do
          cancelPurge entry.domain
          sweepLoop L now (purged + 1) rest
        else
          sweepLoop L now purged rest

def runSweepOnce (L : Libs) (now : ℕ) : EdgeM ℕ := do
  let pending ← (Query.read (fun s => (Table.rows s.pendingPurges).map Prod.snd) :
    Query EdgeStore OpError _)
  sweepLoop L now 0 pending

/-! ## Directives -/

def checkCanonical (L : Libs) (name what : String) : Except OpError Unit :=
  match normalizeDomainName L name with
  | .error e => .error (.refused s!"{what}: `{name}` is not a domain name: {e.toText}")
  | .ok canonical =>
      if canonical ≠ name then
        .error (.refused s!"{what}: `{name}` is not in canonical form (expected `{canonical}`)")
      else .ok ()

def doDomainAssign (L : Libs) (now : ℕ) (assigner domain : String) : EdgeM Unit := do
  Prog.check (checkCanonical L domain "replica/domain/assign")
  Prog.write (.insertAssignment ⟨domain, now, assigner⟩)
  cancelPurge domain

/-- `do_domain_unassign`: when the purge is due. -/
def doDomainUnassign (L : Libs) (now grace : ℕ) (assigner domain : String) : EdgeM ℕ := do
  Prog.check (checkCanonical L domain "replica/domain/unassign")
  let row ← (Query.read (·.assignments.lookup domain) : Query EdgeStore OpError _)
  if row.isSome then do
    Prog.write (.removeAssignment domain)
    Prog.write (.insertPendingPurge ⟨domain, now, grace, "grace-expired", assigner⟩)
    return addSeconds now grace
  else do
    let pending ← (Query.read (·.pendingPurges.lookup domain) : Query EdgeStore OpError _)
    return match pending with
      | some p => addSeconds p.scheduledAt p.graceSeconds
      | none => now

/-- `do_domain_purge` for a directive issued at `issuedAt`: how many slots were
removed. -/
def doDomainPurge (L : Libs) (issuedAt : ℕ) (domain : String) : EdgeM ℕ := do
  Prog.check (checkCanonical L domain "replica/domain/purge")
  let row ← (Query.read (·.assignments.lookup domain) : Query EdgeStore OpError _)
  Prog.check
    (match row with
      | some current =>
          if issuedAt < current.assignedAt then
            .error (.declared .stalePurge
              "the purge predates this server's current assignment of the domain; nothing was deleted")
          else .ok ()
      | none => .ok ())
  let report ← purgeDomainDids L domain
  cancelPurge domain
  return report.deleted

def updateDomain (L : Libs) (name : String) (newEntry : DomainEntry) : EdgeM Unit := do
  let canonical ← Prog.check ((normalizeDomainName L name).mapError OpError.ofApp)
  Prog.check
    (if newEntry.name ≠ canonical then
      .error (OpError.ofApp (.validation
        s!"cannot rename domain ('{canonical}' → '{newEntry.name}') — domain names are immutable"))
    else .ok ())
  let row ← (Query.read (·.domains.lookup canonical) : Query EdgeStore OpError _)
  Prog.check
    (if row.isSome then .ok ()
    else .error (OpError.ofApp (.notFound s!"domain '{canonical}'")))
  Prog.write (.insertDomain newEntry)

def createDomain (L : Libs) (entry : DomainEntry) : EdgeM Unit := do
  let canonical ← Prog.check ((normalizeDomainName L entry.name).mapError OpError.ofApp)
  let row ← (Query.read (·.domains.lookup canonical) : Query EdgeStore OpError _)
  Prog.check
    (if row.isSome then .error (OpError.ofApp (.conflict s!"domain '{canonical}' already exists"))
    else .ok ())
  Prog.write (.insertDomain entry)

/-- The name check of `do_domain_upsert`. -/
def checkUpsertName (L : Libs) (name : String) : Except OpError Unit :=
  match normalizeDomainName L name with
  | .error e => .error (.declared .nonCanonicalName s!"`{name}` is not a domain name: {e.toText}")
  | .ok canonical =>
      if canonical ≠ name then
        .error (.declared .nonCanonicalName
          s!"`{name}` is not in canonical form (expected `{canonical}`)")
      else .ok ()

/-- The schedule an upserted entry asks for. -/
def upsertSchedule (scheduledBy : String) (entry : DomainEntry) : EdgeM Unit :=
  match entry.status with
  | .active => cancelPurge entry.name
  | .disabled =>
      match entry.disabledAt, entry.purgeAt with
      | some disabledAt, some purgeAt =>
          Prog.write (.insertPendingPurge
            ⟨entry.name, disabledAt, purgeAt - disabledAt, disablePurgeReason, scheduledBy⟩)
      | _, _ => pure ()

/-- `do_domain_upsert`, for the entry the directive carries. -/
def doDomainUpsert (L : Libs) (scheduledBy : String) (entry : DomainEntry) : EdgeM Unit := do
  Prog.check (checkUpsertName L entry.name)
  let row ← (Query.read (·.domains.lookup entry.name) : Query EdgeStore OpError _)
  if row.isSome then updateDomain L entry.name entry else createDomain L entry
  upsertSchedule scheduledBy entry

def enableDomain (L : Libs) (name : String) : EdgeM Unit := do
  let canonical ← Prog.check ((normalizeDomainName L name).mapError OpError.ofApp)
  let row ← (Query.read (·.domains.lookup canonical) : Query EdgeStore OpError _)
  let entry ← Prog.check
    (match row with
      | some entry => .ok entry
      | none => .error (OpError.ofApp (.notFound s!"domain '{canonical}'")))
  Prog.write (.insertDomain { entry with status := .active, disabledAt := none, purgeAt := none })
  cancelPurge canonical

/-! ## Clean-up of empty slots -/

/-- The retention of soft-deleted records: 30 days. -/
def softDeleteRetention : ℕ := 30 * 24 * 3600

/-- Whether `cleanup_empty_dids` removes a record. -/
def shouldRemove (now ttlSeconds : ℕ) (record : DidRecord) : Bool :=
  (record.versionCount = 0 && ttlSeconds < now - record.createdAt) ||
    match record.deletedAt with
    | some d => softDeleteRetention < now - d
    | none => false

/-- The loop of `cleanup_empty_dids`: four removes for each chosen slot. -/
def cleanupLoop (now ttlSeconds : ℕ) : List DidRecord → EdgeM Unit
  | [] => pure ()
  | record :: rest =>
      if shouldRemove now ttlSeconds record then do
        Prog.write (.dids [.removeDid record.mnemonic])
        Prog.write (.dids [.removeLog record.mnemonic])
        Prog.write (.dids [.removeWitness record.mnemonic])
        Prog.write (.dids [.removeOwner record.owner record.mnemonic])
        cleanupLoop now ttlSeconds rest
      else
        cleanupLoop now ttlSeconds rest

def cleanupEmptyDids (now ttlSeconds : ℕ) : EdgeM Unit := do
  let records ← (Query.read allRecords : Query EdgeStore OpError _)
  cleanupLoop now ttlSeconds records

end DidHosting
