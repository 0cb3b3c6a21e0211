import DidHosting.Common.Domain
import DidHosting.Support.Prog

/-!
# The access control list

The three tasks that change the access control list, and the redemption of a
passkey invite, which may add an entry.  The tasks run under one lock; a
redemption runs under the lock of the subject's credentials.  Every operation
reads the keyspace step by step, and writes one row at most.
-/

namespace DidHosting.Acl

open Text

/-! ## The keyspace -/

/-- The stored `AclEntry`: the fields the hosting operations read, and the ones
only the tasks here do. -/
structure AclRow extends AclEntry where
  label : Option String
  createdAt : ℕ
deriving DecidableEq, Repr

/-- The `acl` keyspace.  An entry is stored under its own DID. -/
structure AclKs where
  rows : Table String AclRow
  keyed : ∀ did row, rows.lookup did = some row → row.did = did

inductive AclWrite where
  | store (row : AclRow)
  | delete (did : String)
deriving DecidableEq, Repr

namespace AclKs

/-- `get_acl_entry`. -/
def get (s : AclKs) (did : String) : Option AclRow :=
  s.rows.lookup did

/-- `list_acl_entries`. -/
def list (s : AclKs) : List AclRow :=
  (Table.rows s.rows).map (·.2)

def empty : AclKs where
  rows := ∅
  keyed := by
    intro did row h
    cases h

/-- `store_acl_entry`. -/
def store (s : AclKs) (row : AclRow) : AclKs where
  rows := s.rows.insert row.did row
  keyed := by
    intro did row' h
    rcases Table.lookup_insert_cases h with ⟨rfl, rfl⟩ | hold
    · rfl
    · exact s.keyed did row' hold

/-- `delete_acl_entry`. -/
def delete (s : AclKs) (did : String) : AclKs where
  rows := s.rows.erase did
  keyed := by
    intro did' row h
    exact s.keyed did' row (Table.lookup_of_erase h)

/-- The keyspace after a write. -/
def commit : AclWrite → AclKs → AclKs
  | .store row, s => s.store row
  | .delete did, s => s.delete did

instance : WriteBatch AclKs AclWrite := ⟨commit⟩

theorem get_store (s : AclKs) (row : AclRow) (did : String) :
    (s.store row).get did = if did = row.did then some row else s.get did :=
  Table.lookup_insert_ite ..

theorem get_delete (s : AclKs) (did did' : String) :
    (s.delete did).get did' = if did' = did then none else s.get did' :=
  Table.lookup_erase_ite ..

theorem get_empty (did : String) : empty.get did = none :=
  rfl

theorem did_of_get {s : AclKs} {did : String} {row : AclRow} (h : s.get did = some row) :
    row.did = did :=
  s.keyed did row h

theorem mem_list {s : AclKs} {row : AclRow} : row ∈ s.list ↔ s.get row.did = some row := by
  constructor
  · intro h
    obtain ⟨⟨did, row'⟩, hmem, rfl⟩ := List.mem_map.mp h
    have hget : s.get did = some row' := Table.mem_rows.mp hmem
    rw [did_of_get hget, hget]
  · intro h
    exact List.mem_map.mpr ⟨(row.did, row), Table.mem_rows.mpr h, rfl⟩

end AclKs

/-! ## Errors -/

/-- `TrustTaskCode`: a standard code, or one a task declares. -/
inductive TrustTaskCode where
  | permissionDenied
  | malformedRequest
  | extended (task slug : String)
deriving DecidableEq, Repr

structure ErrorPayload where
  code : TrustTaskCode
  message : String
  details : Option Json
deriving Repr

/-- Why an operation is refused: a task's error response, or an error of the
redemption. -/
inductive Refusal where
  | rejected (payload : ErrorPayload)
  | app (e : AppError)
deriving Repr

/-- Reads of the keyspace. -/
abbrev AclQ := Query AclKs Refusal

/-- Refuse with an error payload. -/
def reject {α : Type} (code : TrustTaskCode) (message : String) (details : Option Json) :
    AclQ α :=
  .fail (.rejected ⟨code, message, details⟩)

/-- The standard library and the task framework, as far as the tasks use
them. -/
structure Framework where
  /-- `format!("{:?}")` of a text. -/
  debug : String → String
  /-- `str::parse::<DID>` succeeds. -/
  parsesAsDid : String → Bool
  /-- `guards::acl::reject_last_authority`: the code to refuse with. -/
  rejectLastAuthority : List AclRow → (AclRow → Bool) → (AclRow → Bool) → Option String

/-! ## Roles -/

def roleText : Role → String
  | .admin => "admin"
  | .owner => "owner"
  | .service => "service"

def parseRole (text : String) : Except AppError Role :=
  if text = "admin" then .ok .admin
  else if text = "owner" then .ok .owner
  else if text = "service" then .ok .service
  else .error (.validation s!"unknown role: {text}")

def roleRank : Role → ℕ
  | .service => 0
  | .owner => 1
  | .admin => 2

def isStrictPromotion (fromRole toRole : Role) : Bool :=
  roleRank fromRole < roleRank toRole

def checkAcl (did : String) : AclQ (Except AppError Role) :=
  if 512 < did.utf8ByteSize then return .error (.validation "DID exceeds maximum length")
  else do
    match ← Query.read (·.get did) with
    | some entry => return .ok entry.role
    | none => return .error (.forbidden s!"DID not in ACL: {did}")

/-- The resolved issuer of a request. -/
def resolvedIssuer (issuer : Option String) : AclQ String :=
  match issuer with
  | some caller => return caller
  | none =>
      reject .permissionDenied
        "inbound document has no in-band or transport-derived issuer" none

/-- The caller must be an Admin; `denied` is what another role is told. -/
def requireAdmin (caller denied : String) : AclQ Unit := do
  match ← checkAcl caller with
  | .ok .admin => return ()
  | .ok _ => reject .permissionDenied denied none
  | .error _ => reject .permissionDenied "caller is not present in the maintainer's ACL" none

/-! ## `acl/grant` -/

/-- `WebvhAclEntryExt`, with its `WebvhQuota`. -/
structure WebvhAclEntryExt where
  maxTotalSize : Option ℕ
  maxDidCount : Option ℕ
  domains : DomainScope
deriving DecidableEq, Repr

/-- `SpecAclEntry`.  `webvh` is the `vnd.affinidi.webvh` member of `ext`, as
`serde_json` reads it; `createdAt` is in epoch seconds. -/
structure SpecAclEntry where
  subject : String
  role : String
  scopes : List String
  label : Option String
  createdAt : Option ℤ
  webvh : Option (Except String WebvhAclEntryExt)

/-- The quotas and the scope of an entry: an Owner has to name them. -/
def SpecAclEntry.webvhExt (e : SpecAclEntry) (role : Role) : Except AppError WebvhAclEntryExt :=
  match e.webvh with
  | some (.ok w) => .ok w
  | some (.error message) =>
      .error (.validation
        s!"ext.vnd.affinidi.webvh did not deserialise as WebvhAclEntryExt: {message}")
  | none =>
      if role = .owner then
        .error (.validation
          "ext.vnd.affinidi.webvh is required on Owner entries (carries `domains` scope)")
      else .ok ⟨none, none, .all⟩

def SpecAclEntry.intoLocal (e : SpecAclEntry) (createdAtFallback : ℕ) :
    Except AppError AclRow := do
  let role ← parseRole e.role
  let w ← e.webvhExt role
  return { did := e.subject
           role := role
           label := e.label
           createdAt := (e.createdAt.map Int.toNat).getD createdAtFallback
           maxTotalSize := w.maxTotalSize
           maxDidCount := w.maxDidCount
           domains := w.domains }

/-- An `acl/grant/0.1` request, with its resolved issuer and the time. -/
structure GrantRequest where
  issuer : Option String
  entry : SpecAclEntry
  now : ℕ

/-- The entry a grant of an existing subject leaves. -/
def mergedRow (current proposed : AclRow) : AclRow where
  did := current.did
  role := current.role
  label := proposed.label
  createdAt := current.createdAt
  maxTotalSize := proposed.maxTotalSize
  maxDidCount := proposed.maxDidCount
  domains := proposed.domains

/-- The proposed entry of a grant. -/
def proposedRow (F : Framework) (r : GrantRequest) : AclQ AclRow :=
  match r.entry.intoLocal 0 with
  | .error e => reject .malformedRequest e.toText none
  | .ok proposed =>
      if !F.parsesAsDid proposed.did then
        reject .malformedRequest
          "the entry's subject is not a DID; resolve an agent name first" none
      else if r.entry.scopes ≠ [] then
        reject .malformedRequest
          "acl/grant/0.1 with `scopes` is not supported by this maintainer — use `ext.vnd.affinidi.webvh.domains` for per-entry domain scope"
          none
      else return proposed

/-- `handle_inner` of `acl/grant`. -/
def grantPlan (F : Framework) (r : GrantRequest) : AclQ (Option AclWrite × Option AclRow) := do
  let caller ← resolvedIssuer r.issuer
  requireAdmin caller "only Admin callers may emit acl/grant/0.1"
  let proposed ← proposedRow F r
  match ← Query.read (·.get proposed.did) with
  | some current =>
      if current.role = proposed.role then
        let merged := mergedRow current proposed
        if merged = current then return (none, some merged)
        else return (some (.store merged), some merged)
      else
        reject .permissionDenied
          "subject already exists with a different role; role changes must use acl/change-role/0.1"
          (some (.obj
            [("reason", .str "role_change_required"),
              ("existingRole", .str (roleText current.role)),
              ("proposedRole", .str (roleText proposed.role)),
              ("suggestedTask", .str "https://trusttasks.org/spec/acl/change-role/0.1")]))
  | none =>
      let entry := { proposed with createdAt := r.now }
      return (some (.store entry), some entry)

/-! ## `acl/revoke` -/

def parseDomainScopes (F : Framework) : List String → Except String (List String)
  | [] => .ok []
  | item :: items =>
      match stripPrefix "domain:" item with
      | some name =>
          if name = "" then
            .error s!"scope item {F.debug item} is not understood by this maintainer; supported form is `domain:<name>`"
          else do
            let names ← parseDomainScopes F items
            return name :: names
      | none =>
          .error s!"scope item {F.debug item} is not understood by this maintainer; supported form is `domain:<name>`"

inductive ScopeReduction where
  | entryRemoved
  | narrowed (scope : DomainScope)
  | noOp
  | scopeReduceOnAll
deriving DecidableEq, Repr

def applyScopeReduction (current : DomainScope) (remove : List String) : ScopeReduction :=
  match current with
  | .all => .scopeReduceOnAll
  | .allowed domains =>
      let kept := domains.filter fun d => !remove.contains d
      let dropped := domains.filter fun d => remove.contains d
      if dropped = [] then .noOp
      else if kept = [] then .entryRemoved
      else .narrowed (.allowed kept)
  | .allowedWithDefault domains default =>
      let kept := domains.filter fun d => !remove.contains d
      let dropped := domains.filter fun d => remove.contains d
      if dropped = [] then .noOp
      else if kept = [] then .entryRemoved
      else if kept.contains default then .narrowed (.allowedWithDefault kept default)
      else .narrowed (.allowed kept)

/-- An `acl/revoke/0.1` request. -/
structure RevokeRequest where
  issuer : Option String
  subject : String
  scopes : List String

/-- The details of a refusal that protects the last Admin. -/
def lastAuthorityDetails (holders : List String) : Json :=
  .obj [("protectedRole", .str "admin"), ("remainingHolders", .arr (holders.map .str))]

/-- The other Admins of a list of entries. -/
def otherAdmins (subject : String) (entries : List AclRow) : List String :=
  (entries.filter fun e => e.role = .admin && e.did ≠ subject).map (·.did)

/-- Full removal of `handle_inner`. -/
def removalPlan (F : Framework) (subject : String) : AclQ (Option AclWrite × Option AclRow) := do
  let entries ← Query.read (·.list)
  match F.rejectLastAuthority entries (fun e => e.role = .admin) (fun e => e.did = subject) with
  | some _ =>
      reject (.extended "acl/revoke" "last_authority_protected")
        "this revocation would leave the maintainer with no Admin entries"
        (some (lastAuthorityDetails (otherAdmins subject entries)))
  | none => return (some (.delete subject), none)

/-- Scope reduction of `handle_inner`. -/
def reductionPlan (F : Framework) (scopes : List String) (existing : AclRow) (subject : String) :
    AclQ (Option AclWrite × Option AclRow) :=
  match parseDomainScopes F scopes with
  | .error message => reject .malformedRequest message none
  | .ok names =>
      match applyScopeReduction existing.domains names with
      | .entryRemoved => return (some (.delete subject), none)
      | .narrowed scope =>
          let updated : AclRow := { existing with domains := scope }
          return (some (.store updated), some updated)
      | .noOp => return (none, some existing)
      | .scopeReduceOnAll =>
          reject .malformedRequest
            "cannot scope-reduce an entry whose domain scope is `all`; grant a narrower scope first"
            none

/-- The authorisation of a revocation: an Admin, or the subject itself. -/
def authorizeRevoke (caller subject : String) : AclQ Unit :=
  if caller = subject then return ()
  else requireAdmin caller "only Admin callers may revoke another subject"

/-- `handle_inner` of `acl/revoke`. -/
def revokePlan (F : Framework) (r : RevokeRequest) :
    AclQ (Option AclWrite × Option AclRow) := do
  let caller ← resolvedIssuer r.issuer
  authorizeRevoke caller r.subject
  match ← Query.read (·.get r.subject) with
  | none =>
      reject (.extended "acl/revoke" "subject_not_present")
        s!"subject {r.subject} is not in the maintainer's ACL" none
  | some existing =>
      if r.scopes = [] then removalPlan F r.subject
      else reductionPlan F r.scopes existing r.subject

/-! ## `acl/change-role` -/

/-- An `acl/change-role/0.1` request. -/
structure ChangeRoleRequest where
  issuer : Option String
  subject : String
  fromRole : String
  toRole : String

def roleNotRecognizedDetails (offending : String) : Json :=
  .obj [("offendingRole", .str offending),
    ("knownRoles", .arr [.str "admin", .str "owner", .str "service"])]

/-- `parse_role`, of the field `field` of the request. -/
def recognizedRole (F : Framework) (field text : String) : AclQ Role :=
  match parseRole text with
  | .ok role => return role
  | .error _ =>
      reject (.extended "acl/change-role" "role_not_recognized")
        s!"{field} {F.debug text} is not recognised" (some (roleNotRecognizedDetails text))

/-- The last-authority guard of `handle_inner`. -/
def guardDemotion (subject : String) (fromRole toRole : Role) : AclQ Unit :=
  if fromRole = .admin ∧ toRole ≠ .admin then do
    let entries ← Query.read (·.list)
    if otherAdmins subject entries = [] then
      reject (.extended "acl/change-role" "last_authority_protected")
        "this role change would leave the maintainer with no Admin entries"
        (some (lastAuthorityDetails (otherAdmins subject entries)))
    else return ()
  else return ()

/-- `handle_inner` of `acl/change-role`. -/
def changeRolePlan (F : Framework) (r : ChangeRoleRequest) :
    AclQ (Option AclWrite × Option AclRow) := do
  let caller ← resolvedIssuer r.issuer
  requireAdmin caller "only Admin callers may emit acl/change-role/0.1"
  let fromRole ← recognizedRole F "fromRole" r.fromRole
  let toRole ← recognizedRole F "toRole" r.toRole
  if caller = r.subject ∧ isStrictPromotion fromRole toRole = true then
    reject .permissionDenied "self-promotion to a more privileged role is forbidden" none
  else
    match ← Query.read (·.get r.subject) with
    | none =>
        reject (.extended "acl/change-role" "state_mismatch")
          s!"subject {r.subject} is not in the maintainer's ACL"
          (some (.obj [("currentRole", .null)]))
    | some entry =>
        if entry.role ≠ fromRole then
          reject (.extended "acl/change-role" "state_mismatch")
            s!"subject's current role is {F.debug (roleText entry.role)}, not {F.debug (roleText fromRole)}"
            (some (.obj [("currentRole", .str (roleText entry.role))]))
        else if fromRole = toRole then return (none, some entry)
        else do
          guardDemotion r.subject fromRole toRole
          let updated : AclRow := { entry with role := toRole }
          return (some (.store updated), some updated)

/-! ## Redeeming an invite -/

/-- What the invite of a redemption binds: a login passkey, with the role a new
subject gets, or a step-up passkey. -/
inductive InvitePurpose where
  | session
  | stepUp
deriving DecidableEq, Repr

/-- A redemption that has taken its invite. -/
structure RedeemRequest where
  purpose : InvitePurpose
  subject : String
  role : Option String
  now : ℕ

/-- The entry of `redeem_finish`, written by `persist` together with the
passkey. -/
def redeemPlan (r : RedeemRequest) : AclQ (Option AclWrite × Option AclRow) :=
  match r.purpose, r.role with
  | .session, some role => do
      match ← Query.read (·.get r.subject) with
      | some _ => return (none, none)
      | none =>
          match parseRole role with
          | .error e => .fail (.app e)
          | .ok role =>
              let entry : AclRow :=
                { did := r.subject
                  role := role
                  label := some "enrolled via passkey invite"
                  createdAt := r.now
                  maxTotalSize := none
                  maxDidCount := none
                  domains := .all }
              return (some (.store entry), some entry)
  | _, _ => return (none, none)

/-! ## Operations -/

/-- The operations on the list. -/
inductive AclTask where
  | grant (r : GrantRequest)
  | revoke (r : RevokeRequest)
  | changeRole (r : ChangeRoleRequest)
  | redeem (r : RedeemRequest)

/-- The locks: `ACL_WRITE_LOCK_KEY`, and the `credentials_guard` of a
subject. -/
inductive AclLock where
  | aclWrite
  | credentials (purpose : InvitePurpose) (subject : String)
deriving DecidableEq, Repr

namespace AclTask

/-- The lock an operation runs under. -/
def lock : AclTask → AclLock
  | grant _ => .aclWrite
  | revoke _ => .aclWrite
  | changeRole _ => .aclWrite
  | redeem r => .credentials r.purpose r.subject

/-- What an operation reads, and the write and the entry it comes to. -/
def plan (F : Framework) : AclTask → AclQ (Option AclWrite × Option AclRow)
  | grant r => grantPlan F r
  | revoke r => revokePlan F r
  | changeRole r => changeRolePlan F r
  | redeem r => redeemPlan r

def prog (F : Framework) (task : AclTask) :
    Prog AclKs AclWrite AclLock Refusal (Option AclRow) :=
  Prog.planned (some task.lock) (task.plan F)

end AclTask

end DidHosting.Acl
