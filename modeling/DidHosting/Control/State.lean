import DidHosting.Common.Store
import DidHosting.Common.Publication
import DidHosting.Common.Domain
import DidHosting.Common.Mnemonic

/-!
# The control plane's store and its shared checks

The keyspaces the hosting operations read, and the checks several operations
make before they write: authorisation against the record, the host safety
check, and the per-account quotas.
-/

namespace DidHosting

open Text

/-! ## State -/

/-- The keyspaces the hosting operations use. -/
structure ControlStore where
  ks : DidsKs
  acl : Table String AclEntry
  domains : Table String DomainEntry

instance : WriteBatch ControlStore Batch where
  commit batch s := { s with ks := DidsKs.commit batch s.ks }

namespace ControlStore

def record (s : ControlStore) (mnemonic : String) : Option DidRecord :=
  s.ks.dids.lookup mnemonic

/-- The log stored for a slot. -/
def log (s : ControlStore) (mnemonic : String) : Option String :=
  s.ks.contentLog.lookup mnemonic

/-- The witness file stored for a slot. -/
def witness (s : ControlStore) (mnemonic : String) : Option String :=
  s.ks.contentWitness.lookup mnemonic

/-- The slot the name index gives for a name on a domain. -/
def nameHolder (s : ControlStore) (domain name : String) : Option String :=
  s.ks.agentName.lookup (domain, name)

end ControlStore

/-- The configuration the hosting operations read. -/
structure Config where
  didHostingUrl : Option String
  publicUrl : Option String
  agentNames : Bool
deriving DecidableEq, Repr

/-- `did_hosting_url.or(public_url)`. -/
def Config.hostingUrl (c : Config) : Option String :=
  c.didHostingUrl <|> c.publicUrl

/-- The fixed part of the service: its libraries and its configuration. -/
structure AppState where
  libs : Libs
  config : Config

/-- Reads of the control plane's store. -/
abbrev ControlQ := Query ControlStore AppError

/-- Operations of the control plane.  Locks are the per-path guards. -/
abbrev ControlM := Prog ControlStore Batch String AppError

/-! ## Authorisation -/

/-- The caller owns the slot or is an administrator. -/
def authorized (auth : AuthClaims) (record : DidRecord) : Bool :=
  record.owner = auth.did || auth.role = .admin

def getAuthorizedRecord (mnemonic : String) (auth : AuthClaims) : ControlQ DidRecord := do
  let row ← Query.read (·.record mnemonic)
  let record ← Query.okOr (.notFound s!"DID not found: {mnemonic}") row
  Query.require (authorized auth record) (.forbidden "not the owner of this DID")
  return record

def getAclEntry (did : String) : ControlQ (Option AclEntry) :=
  Query.read (·.acl.lookup did)

/-- The entry of a caller without one: the role of the claims, no limits. -/
def defaultAclEntry (auth : AuthClaims) : AclEntry :=
  ⟨auth.did, auth.role, none, none, .all⟩

/-- `check_did_host_safety`.  Permissive while no domain is configured. -/
def checkDidHostSafety (A : AppState) (auth : AuthClaims) (didId : String) :
    ControlQ Unit := do
  let entry ← getAclEntry auth.did
  let anyDomain ← Query.read fun s => !s.domains.entries.isEmpty
  if anyDomain then do
    let domains ← Query.read (·.domains)
    Query.ofExcept
      (assertDidHostAllowed A.libs domains (entry.getD (defaultAclEntry auth)) didId)
  else
    pure ()

/-- The host check of a slot that may not be published yet. -/
def checkPublishedHost (A : AppState) (auth : AuthClaims) (didId : Option String) :
    ControlQ Unit :=
  match didId with
  | some did => checkDidHostSafety A auth did
  | none => pure ()

/-! ## Quotas -/

def u64Max : ℕ := 2 ^ 64 - 1

def saturatingAdd (a b : ℕ) : ℕ := min (a + b) u64Max

/-- The mnemonics a scan of the `owner:{owner}:` rows returns.  A longer owner
that begins with `{owner}:` shares the string prefix, so its rows are in the
scan too. -/
def ownerRows (owner : String) (s : ControlStore) : List String :=
  ((Table.rows s.ks.ownerIndex).filter fun row =>
    startsWith ("owner:" ++ owner ++ ":") (RowKey.owner row.1.1 row.1.2).render).map
      Prod.snd

/-- The loop of `owner_usage`. -/
def ownerUsageFrom (owner : String) (count total : ℕ) :
    List String → ControlQ (ℕ × ℕ)
  | [] => pure (count, total)
  | mnemonic :: rest => do
      let row ← Query.read (·.record mnemonic)
      match row with
      | some record =>
          if record.owner = owner then
            ownerUsageFrom owner (count + 1) (saturatingAdd total record.contentSize) rest
          else
            ownerUsageFrom owner count total rest
      | none => ownerUsageFrom owner count total rest

/-- `owner_usage`: how many slots the owner holds and their total size. -/
def ownerUsage (owner : String) : ControlQ (ℕ × ℕ) := do
  let mnemonics ← Query.read (ownerRows owner)
  ownerUsageFrom owner 0 0 mnemonics

def checkDidCountLimit (auth : AuthClaims) : ControlQ Unit := do
  if auth.role = .admin then pure ()
  else do
    let entry ← getAclEntry auth.did
    match entry.bind AclEntry.maxDidCount with
    | none => pure ()
    | some max =>
        if max = u64Max then pure ()
        else do
          let usage ← ownerUsage auth.did
          Query.require (usage.1 < max)
            (.quotaExceeded s!"DID count limit reached ({max})")

def checkTotalSizeLimit (auth : AuthClaims) (oldSize newSize : ℕ) : ControlQ Unit := do
  if auth.role = .admin then pure ()
  else do
    let entry ← getAclEntry auth.did
    match entry.bind AclEntry.maxTotalSize with
    | none => pure ()
    | some max =>
        if max = u64Max then pure ()
        else do
          let usage ← ownerUsage auth.did
          Query.require (saturatingAdd (usage.2 - oldSize) newSize ≤ max)
            (.quotaExceeded s!"total content size limit reached ({max} bytes)")

/-! ## What an authorised read establishes -/

/-- The record an authorised read returns is the slot's, and the caller may
act on it. -/
theorem yields_getAuthorizedRecord {V : Set ControlStore} {mnemonic : String}
    {auth : AuthClaims} {record : DidRecord} :
    (getAuthorizedRecord mnemonic auth).Yields V record ↔
      (∃ s ∈ V, s.record mnemonic = some record) ∧ authorized auth record = true := by
  unfold getAuthorizedRecord
  simp only [Query.yields_bind, Query.yields_read, Query.yields_okOr,
    Query.yields_require, Query.yields_pure]
  constructor
  · rintro ⟨row, ⟨s, hs, rfl⟩, r, hr, _, hauth, rfl⟩
    exact ⟨⟨s, hs, hr⟩, hauth⟩
  · rintro ⟨⟨s, hs, hr⟩, hauth⟩
    exact ⟨_, ⟨s, hs, rfl⟩, record, hr, (), hauth, rfl⟩

end DidHosting
