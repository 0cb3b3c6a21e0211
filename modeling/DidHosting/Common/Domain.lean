import Mathlib.Algebra.GroupWithZero.Nat
import DidHosting.Support.Table
import DidHosting.Common.Method

/-!
# Domains, roles and account limits

The domain registry with its canonical names, the access-control entries, and
the host checks that tie an identifier to both.
-/

namespace DidHosting

open Text

/-! ## Access control -/

inductive Role where
  | admin
  | owner
  | service
deriving DecidableEq, Repr

inductive DomainScope where
  | all
  | allowed (domains : List String)
  | allowedWithDefault (domains : List String) (default : String)
deriving DecidableEq, Repr

def DomainScope.allows : DomainScope → String → Bool
  | all, _ => true
  | allowed domains, d => domains.contains d
  | allowedWithDefault domains _, d => domains.contains d

/-- `AclEntry`, the fields the hosting operations read. -/
structure AclEntry where
  did : String
  role : Role
  maxTotalSize : Option ℕ
  maxDidCount : Option ℕ
  domains : DomainScope
deriving DecidableEq, Repr

/-- `AuthClaims`: who is calling. -/
structure AuthClaims where
  did : String
  role : Role
deriving DecidableEq, Repr

def maxDidLen : ℕ := 2048

def validateDidFormat (did : String) : Except AppError String :=
  let trimmed := trim did
  if trimmed = "" then
    .error (.validation "DID must not be empty")
  else if maxDidLen < trimmed.utf8ByteSize then
    .error (.validation s!"DID exceeds maximum length of {maxDidLen} characters")
  else if !startsWith "did:" trimmed then
    .error (.validation "DID must start with 'did:' scheme")
  else if trimmed.toList.any fun c => c.toNat < 32 ∨ c.toNat = 127 then
    .error (.validation "DID must not contain ASCII control characters")
  else
    .ok trimmed

/-! ## Domain names -/

inductive DomainStatus where
  | active
  | disabled
deriving DecidableEq, Repr

inductive DomainUrlScheme where
  | https
  | http
deriving DecidableEq, Repr

structure DomainBranding where
  displayName : Option String
  logoUrl : Option String
  tosUrl : Option String
  contactEmail : Option String
deriving DecidableEq, Repr

structure DomainQuota where
  maxDidsInDomain : Option ℕ
  maxTotalSizeInDomain : Option ℕ
deriving DecidableEq, Repr

structure DomainEntry where
  name : String
  label : Option String := none
  scheme : DomainUrlScheme := .https
  status : DomainStatus := .active
  createdAt : ℕ
  defaultDomain : Bool := false
  branding : Option DomainBranding := none
  witnesses : Option (List String) := none
  watchers : Option (List String) := none
  quota : Option DomainQuota := none
  wellKnownEnabled : Bool := false
  disabledAt : Option ℕ := none
  purgeAt : Option ℕ := none
deriving DecidableEq, Repr

/-- The decimal value of a string of ASCII digits. -/
def decimal (cs : List Char) : ℕ :=
  cs.foldl (fun n c => 10 * n + (c.toNat - 48)) 0

/-- `str::parse::<u16>`: decimal digits after an optional plus sign. -/
def parseU16 (s : String) : Option ℕ :=
  let digits := match s.toList with
    | '+' :: rest => rest
    | cs => cs
  if digits = [] || !digits.all Char.isDigit then none
  else if decimal digits < 2 ^ 16 then some (decimal digits)
  else none

def splitHostPort (host : String) : Except AppError (String × Option ℕ) :=
  match rsplitOnce ':' host with
  | none => .ok (host, none)
  | some (h, p) =>
      if h = "" || p = "" then
        .error (.validation s!"malformed host '{host}': empty host or port around ':'")
      else
        match parseU16 p with
        | none =>
            .error (.validation s!"host port '{p}' must be a number between 1 and 65535")
        | some 0 => .error (.validation "host port must not be 0")
        | some n => .ok (h, some n)

/-- The characters of a canonical host name. -/
def isHostChar (c : Char) : Bool :=
  c.isLower || c.isDigit || c == '-' || c == '.'

def normalizeHost (L : Libs) (host : String) : Except AppError String := do
  let (hostPart, port) ← splitHostPort host
  match L.hostParse hostPart with
  | .error e => .error (.validation s!"malformed host '{hostPart}': {e}")
  | .ok (.domain s) =>
      if !s.toList.all isHostChar then
        .error (.validation s!"host '{s}' contains characters outside LDH + '.'")
      else
        .ok (match port with
          | some p => s!"{s}:{p}"
          | none => s)
  | .ok _ =>
      .error (.validation s!"host '{hostPart}' is an IP literal — domain names must be DNS hostnames")

/-- The characters of a domain's path prefix. -/
def isPathPrefixChar (c : Char) : Bool :=
  c.isLower || c.isDigit || c == '-' || c == '_' || c == '.' || c == '/'

/-- Two adjacent slashes. -/
def hasDoubleSlash : List Char → Bool
  | '/' :: '/' :: _ => true
  | _ :: rest => hasDoubleSlash rest
  | [] => false

def normalizePath (path : String) : Except AppError String :=
  if path = "" then
    .error (.validation "path-prefix after '/' must not be empty")
  else if startsWith "/" path || endsWith "/" path then
    .error (.validation "path-prefix must not have leading or trailing '/'")
  else if hasDoubleSlash path.toList then
    .error (.validation "path-prefix must not contain empty segments ('//')")
  else
    match path.toList.find? fun c => !isPathPrefixChar c with
    | some c =>
        .error (.validation s!"path-prefix contains invalid character {c.quote} — allowed: lowercase alphanumeric, '-', '_', '.', '/'")
    | none => .ok path

/-- The canonical form of a domain name, before it is compared with the
input. -/
def canonicalDomain (L : Libs) (input : String) : Except AppError String :=
  match splitOnce '/' input with
  | none => normalizeHost L input
  | some (host, path) => do
      let host ← normalizeHost L host
      let path ← normalizePath path
      return s!"{host}/{path}"

/-- `normalize_domain_name`: accept a name that is already canonical. -/
def normalizeDomainName (L : Libs) (input : String) : Except AppError String :=
  if input = "" then
    .error (.validation "domain name must not be empty")
  else if 253 < input.utf8ByteSize then
    .error (.validation "domain name exceeds 253 chars")
  else if trim input ≠ input then
    .error (.validation "domain name must not have leading or trailing whitespace")
  else if startsWith "/" input || endsWith "/" input then
    .error (.validation "domain name must not start or end with '/'")
  else do
    let canonical ← canonicalDomain L input
    if canonical ≠ input then
      .error (.validation s!"domain name not in canonical form — use '{canonical}'")
    else
      .ok canonical

theorem normalizeDomainName_eq_ok {L : Libs} {input canonical : String}
    (h : normalizeDomainName L input = .ok canonical) : canonical = input := by
  unfold normalizeDomainName at h
  repeat' split at h
  all_goals try cases h
  cases hcanonical : canonicalDomain L input with
  | error e => simp [hcanonical, bind, Except.bind] at h
  | ok c =>
      simp only [hcanonical, bind, Except.bind] at h
      split at h
      · cases h
      · rename_i hsame
        cases h
        exact not_not.mp hsame

/-! ## Pending purges -/

structure PendingPurge where
  domain : String
  scheduledAt : ℕ
  graceSeconds : ℕ
  reason : String
  scheduledBy : String
deriving DecidableEq, Repr

/-- `u64::saturating_add` of two times. -/
def addSeconds (a b : ℕ) : ℕ := min (a + b) (2 ^ 64 - 1)

def PendingPurge.isRipe (p : PendingPurge) (now : ℕ) : Bool :=
  addSeconds p.scheduledAt p.graceSeconds ≤ now

def disablePurgeReason : String := "disable-grace"

/-! ## Host checks -/

/-- The entry lookup of `get_domain`, after normalisation. -/
def getDomain (L : Libs) (domains : Table String DomainEntry) (name : String) :
    Except AppError (Option DomainEntry) := do
  let canonical ← normalizeDomainName L name
  return domains.lookup canonical

def assertHostIsActiveDomain (L : Libs) (domains : Table String DomainEntry)
    (host : String) : Except AppError Unit := do
  match ← getDomain L domains host with
  | none =>
      .error (.validation s!"did host '{host}' is not a configured domain on this server")
  | some entry =>
      if entry.status = .active then .ok ()
      else .error (.validation s!"did host '{host}' is configured but disabled")

def assertAclAllowsHost (acl : AclEntry) (host : String) : Except AppError Unit :=
  if acl.role = .admin || acl.role = .service then .ok ()
  else if acl.domains.allows host then .ok ()
  else
    .error (.forbidden s!"caller is not authorised to operate on domain '{host}'")

def assertDidHostAllowed (L : Libs) (domains : Table String DomainEntry)
    (acl : AclEntry) (did : String) : Except AppError Unit := do
  let host ← extractDidHost L did
  assertHostIsActiveDomain L domains host
  assertAclAllowsHost acl host

end DidHosting
