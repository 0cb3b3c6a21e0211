import DidHosting.Control.Names

/-!
# Registering and publishing logs

The operations that store a new log for a slot: atomic registration, publish,
and the agent-name operations, which publish a new document version along with
the change of one name.

Each operation is a plan, which reads the store and computes one batch, run
under the guard of the slot's path.  The specification of a plan is stated for
arbitrary stores seen by its reads, so that it serves sequential and
interleaved runs alike.
-/

namespace DidHosting

open Text

def publicationError (e : MethodError) : AppError :=
  AppError.validationOf .invalidLog e.toText

/-- `verify_publication` with the error of the write path. -/
def verifiedPublication (L : Libs) (domain mnemonic content : String)
    (existing existingWitness : Option String) : Except AppError Publication :=
  match verifyPublication L domain mnemonic content existing existingWitness with
  | .ok p => .ok p
  | .error e => .error (publicationError e)

theorem verifiedPublication_eq_ok {L : Libs} {domain mnemonic content : String}
    {existing existingWitness : Option String} {p : Publication}
    (h : verifiedPublication L domain mnemonic content existing existingWitness = .ok p) :
    verifyPublication L domain mnemonic content existing existingWitness = .ok p := by
  unfold verifiedPublication at h
  split at h
  · cases h
    assumption
  · contradiction

structure RequestUriResponse where
  mnemonic : String
  didUrl : String
deriving DecidableEq, Repr

/-! ## Registration -/

/-- The checks of `register_did_atomic` before it takes the lock. -/
def registerPrecheck (A : AppState) (auth : AuthClaims) (path didLog : String) :
    Except AppError Unit :=
  if path = rootDidMnemonic && auth.role ≠ .admin then
    .error (.forbidden "only admins can register the root DID")
  else if detectMethod A.libs didLog = some .webs then
    validateWebsMnemonic path
  else
    validateMnemonic path

/-- The host and path check of `register_did_atomic`.  A did:webs identifier is
built from the slot, so there is nothing to compare. -/
def registerBinding (A : AppState) (publication : Publication)
    (didId path base : String) : Except AppError Unit :=
  if publication.method = .webs then .ok ()
  else
    match validateDidIdMatchesRequest A.libs didId path base with
    | .ok () => .ok ()
    | .error e => .error (.validation e)

/-- Whether the registration takes the slot over from another owner. -/
def registerOwnership (auth : AuthClaims) (force : Bool)
    (existing : Option DidRecord) : Except AppError Bool :=
  match existing with
  | none => .ok false
  | some rec =>
      if rec.owner = auth.did then .ok false
      else if auth.role ≠ .admin then
        .error (.forbidden "slot is owned by a different DID")
      else if !force then
        .error (.forbidden "admin takeover of a slot owned by another DID requires force=true")
      else
        .ok true

/-- Creation time and version of a registered record: kept and advanced on a
re-registration by the owner, started afresh otherwise. -/
def registerVersion (existing : Option DidRecord) (ownerChanged : Bool) (now : ℕ) :
    ℕ × ℕ :=
  match existing, ownerChanged with
  | some rec, false => (rec.createdAt, rec.versionCount + 1)
  | _, _ => (now, 1)

/-- The names a registration starts from. -/
def existingNames (existing : Option DidRecord) : List AgentNameEntry :=
  match existing with
  | some rec => rec.agentNames
  | none => []

/-- The record `register_did_atomic` stores. -/
def registerRecord (A : AppState) (auth : AuthClaims) (path didLog : String)
    (publication : Publication) (didId : String) (existing : Option DidRecord)
    (ownerChanged : Bool) (names : List AgentNameEntry) (now : ℕ) : DidRecord where
  owner := auth.did
  mnemonic := path
  createdAt := (registerVersion existing ownerChanged now).1
  updatedAt := now
  versionCount := (registerVersion existing ownerChanged now).2
  didId := some didId
  contentSize := didLog.utf8ByteSize
  disabled := false
  deletedAt := none
  method := publication.method
  domain := if publication.method = .webs then didHostOrEmpty A.libs didId else ""
  services := publication.services
  agentNames := names

/-- The clean-up a takeover adds to the batch. -/
def takeoverBatch (path : String) (existing : Option DidRecord)
    (ownerChanged : Bool) : Batch :=
  match existing, ownerChanged with
  | some prev, true => [.removeWitness path, .removeOwner prev.owner path]
  | _, _ => []

/-- The batch of `register_did_atomic`. -/
def registerBatch (auth : AuthClaims) (path didLog : String)
    (existing : Option DidRecord) (ownerChanged : Bool) (record : DidRecord)
    (changes : NameChanges) (regDomain : String) : Batch :=
  [.insertLog path didLog] ++ takeoverBatch path existing ownerChanged ++
    [.insertDid path record, .insertOwner auth.did path] ++
    nameBatch changes regDomain path

/-- The slot-count quota of a registration: only a fresh slot counts. -/
def checkNewSlot (auth : AuthClaims) (existing : Option DidRecord) : ControlQ Unit :=
  if existing.isNone then checkDidCountLimit auth else pure ()

/-- The part of `register_did_atomic` that runs under the path lock, up to the
commit. -/
def registerPlan (A : AppState) (auth : AuthClaims) (now : ℕ) (path didLog : String)
    (force : Bool) (domain : Option String) :
    ControlQ (Option Batch × RequestUriResponse) := do
  let existingLog ← Query.read (·.log path)
  let existingWitness ← Query.read (·.witness path)
  let publication ← Query.ofExcept
    (verifiedPublication A.libs (domain.getD "") path didLog existingLog existingWitness)
  let base ← Query.okOr
    (.internal "server has neither did_hosting_url nor public_url configured; cannot validate DID host")
    A.config.hostingUrl
  let didId ← Query.okOr
    (.validation "did_log's latest entry has no resolvable did:webvh state.id")
    publication.didId
  checkDidHostSafety A auth didId
  Query.ofExcept (registerBinding A publication didId path base)
  let existing ← Query.read (·.record path)
  let ownerChanged ← Query.ofExcept (registerOwnership auth force existing)
  checkNewSlot auth existing
  checkTotalSizeLimit auth ((existing.map (·.contentSize)).getD 0) didLog.utf8ByteSize
  let regDomain := didHostOrEmpty A.libs didId
  let names ← reconcileAgentNames (existingNames existing) path
    (publication.agentNames A.libs regDomain) regDomain now
  let record :=
    registerRecord A auth path didLog publication didId existing ownerChanged names.1 now
  let batch := registerBatch auth path didLog existing ownerChanged record names.2 regDomain
  let prefixUrl := trimEndMatches '/' base
  return (some batch, ⟨path, s!"{prefixUrl}/{path}/did.jsonl"⟩)

def registerDidAtomic (A : AppState) (auth : AuthClaims) (now : ℕ)
    (path didLog : String) (force : Bool) (domain : Option String) :
    ControlM RequestUriResponse := do
  Prog.check (registerPrecheck A auth path didLog)
  Prog.planned (some path) (registerPlan A auth now path didLog force domain)

/-! ## Publishing a new version -/

/-- The path grammar of a slot, by the method of its record. -/
def validateSlotPath (method : Option Method) (mnemonic : String) : Except AppError Unit :=
  if method = some .webs then validateWebsMnemonic mnemonic else validateMnemonic mnemonic

/-- A slot does not change method. -/
def checkSameMethod (L : Libs) (mnemonic didLog : String) (record : DidRecord) :
    Except AppError Unit :=
  match detectMethod L didLog with
  | some submitted =>
      if submitted = record.method then .ok ()
      else
        .error (.validation
          s!"slot '{mnemonic}' hosts a did:{record.method.name} DID; it cannot be republished as did:{submitted.name}")
  | none => .ok ()

/-- `request_domain.filter(|d| !d.is_empty())`. -/
def namedDomain (requestDomain : Option String) : Option String :=
  requestDomain.filter (· ≠ "")

/-- The cross-check of the caller's explicit domain against the DID's host. -/
def checkRequestDomain (L : Libs) (requestDomain didId : Option String) :
    Except AppError Unit :=
  match namedDomain requestDomain, didId with
  | some requested, some did =>
      match extractDidHost L did with
      | .error e => .error e
      | .ok host =>
          if eqIgnoreAsciiCase requested host then .ok ()
          else
            .error (.validation
              s!"did-management:unknown_domain — requested domain `{requested}` does not match the DID's host `{host}`")
  | _, _ => .ok ()

/-- The record `prepare_republish` returns: one version further, with the
fields read from the new content, and the domain filled in when it was
empty. -/
def republished (L : Libs) (record : DidRecord) (publication : Publication)
    (didLog : String) (now : ℕ) : DidRecord :=
  { record with
    updatedAt := now
    versionCount := record.versionCount + 1
    didId := publication.didId
    contentSize := didLog.utf8ByteSize
    services := publication.services
    domain :=
      if record.domain = "" then hostOfDidId L publication.didId else record.domain }

def prepareRepublish (A : AppState) (auth : AuthClaims) (now : ℕ)
    (mnemonic didLog : String) (requestDomain : Option String) :
    ControlQ (DidRecord × String × Publication) := do
  let row ← Query.read (·.record mnemonic)
  Query.ofExcept (validateSlotPath (row.map (·.method)) mnemonic)
  let record ← getAuthorizedRecord mnemonic auth
  Query.ofExcept (checkSameMethod A.libs mnemonic didLog record)
  let existing ← Query.read (·.log mnemonic)
  let existingWitness ← Query.read (·.witness mnemonic)
  let publication ← Query.ofExcept
    (verifiedPublication A.libs record.domain mnemonic didLog existing existingWitness)
  checkTotalSizeLimit auth record.contentSize didLog.utf8ByteSize
  checkPublishedHost A auth publication.didId
  Query.ofExcept (checkRequestDomain A.libs requestDomain publication.didId)
  let next := republished A.libs record publication didLog now
  return (next, slotDomain A.libs next, publication)

/-- The batch of `publish_did`. -/
def publishBatch (mnemonic didLog : String) (record : DidRecord)
    (changes : NameChanges) (domain : String) : Batch :=
  [.insertLog mnemonic didLog, .insertDid mnemonic record] ++
    nameBatch changes domain mnemonic

/-- The part of `publish_did` that runs under the path lock. -/
def publishPlan (A : AppState) (auth : AuthClaims) (now : ℕ) (mnemonic didLog : String)
    (requestDomain : Option String) : ControlQ (Option Batch × Unit) := do
  let prepared ← prepareRepublish A auth now mnemonic didLog requestDomain
  let domain := prepared.2.1
  let names ← reconcileAgentNames prepared.1.agentNames mnemonic
    (prepared.2.2.agentNames A.libs domain) domain now
  let record := { prepared.1 with agentNames := names.1 }
  return (some (publishBatch mnemonic didLog record names.2 domain), ())

def publishDid (A : AppState) (auth : AuthClaims) (now : ℕ) (mnemonic didLog : String)
    (requestDomain : Option String) : ControlM Unit :=
  Prog.planned (some mnemonic) (publishPlan A auth now mnemonic didLog requestDomain)

/-! ## Agent-name operations -/

inductive AgentNameOp where
  | activate
  | remove
  | park
deriving DecidableEq, Repr

def AgentNameOp.requiresClaim : AgentNameOp → Bool
  | activate => true
  | remove => false
  | park => false

/-- Set the flag of the first entry with the given name. -/
def setEnabled (name : String) (enabled : Bool) :
    List AgentNameEntry → List AgentNameEntry
  | [] => []
  | e :: rest =>
      if e.name = name then { e with enabled := enabled } :: rest
      else e :: setEnabled name enabled rest

def upsertAgentName (names : List AgentNameEntry) (name : String) (now : ℕ) :
    List AgentNameEntry :=
  if names.any fun e => e.name = name then setEnabled name true names
  else names ++ [⟨name, true, now⟩]

/-- The precondition, registry change and index write of an operation on the
name `name`.  `holder` is the index row an activation reads. -/
def agentNameEffect (op : AgentNameOp) (names : List AgentNameEntry)
    (mnemonic domain name : String) (now : ℕ) (holder : Option String) :
    Except AppError (List AgentNameEntry × Batch) :=
  match op with
  | .activate =>
      if holder.isNone || holder = some mnemonic then
        .ok (upsertAgentName names name now, [.insertName domain name mnemonic])
      else
        .error (.agentName .taken)
  | .park =>
      if names.any fun e => e.name = name then .ok (setEnabled name false names, [])
      else .error (.agentName .notFound)
  | .remove =>
      if names.any fun e => e.name = name then
        .ok (names.filter fun e => e.name ≠ name, [.removeName domain name])
      else
        .error (.agentName .notFound)

/-- What an agent-name operation makes of the names and the index. -/
theorem agentNameEffect_cases {op : AgentNameOp} {names : List AgentNameEntry}
    {m domain name : String} {now : ℕ} {holder : Option String}
    {effect : List AgentNameEntry × Batch}
    (h : agentNameEffect op names m domain name now holder = .ok effect) :
    op = .activate ∧ (holder = none ∨ holder = some m) ∧
        effect = (upsertAgentName names name now, [.insertName domain name m]) ∨
      op = .park ∧ effect = (setEnabled name false names, []) ∨
      op = .remove ∧ (names.any fun e => e.name = name) = true ∧
        effect = (names.filter fun e => e.name ≠ name, [.removeName domain name]) := by
  unfold agentNameEffect at h
  cases op with
  | activate =>
      simp only at h
      split at h
      · rename_i hholder
        cases h
        exact Or.inl ⟨rfl, by simpa [Option.isNone_iff_eq_none] using hholder, rfl⟩
      · contradiction
  | park =>
      simp only at h
      split at h
      · cases h
        exact Or.inr (Or.inl ⟨rfl, rfl⟩)
      · contradiction
  | remove =>
      simp only at h
      split at h
      · rename_i hheld
        cases h
        exact Or.inr (Or.inr ⟨rfl, hheld, rfl⟩)
      · contradiction

/-- The index row an activation reads for its collision check. -/
def readHolder (op : AgentNameOp) (domain name : String) : ControlQ (Option String) :=
  if op = .activate then Query.read (·.nameHolder domain name) else pure none

/-- The part of `apply_agent_name_op` that runs under the path lock. -/
def agentNamePlan (A : AppState) (auth : AuthClaims) (now : ℕ)
    (mnemonic name didLog : String) (requestDomain : Option String) (op : AgentNameOp) :
    ControlQ (Option Batch × DidRecord) := do
  let prepared ← prepareRepublish A auth now mnemonic didLog requestDomain
  let domain := prepared.2.1
  let claimed := (prepared.2.2.agentNames A.libs domain).contains name
  Query.require (claimed = op.requiresClaim) (.agentName .alsoKnownAsMismatch)
  let holder ← readHolder op domain name
  let effect ← Query.ofExcept
    (agentNameEffect op prepared.1.agentNames mnemonic domain name now holder)
  let record := { prepared.1 with agentNames := effect.1 }
  return (some ([.insertLog mnemonic didLog, .insertDid mnemonic record] ++ effect.2), record)

def applyAgentNameOp (A : AppState) (auth : AuthClaims) (now : ℕ)
    (mnemonic name didLog : String) (requestDomain : Option String) (op : AgentNameOp) :
    ControlM DidRecord := do
  Prog.check (validateAgentNameBinding name mnemonic)
  Prog.planned (some mnemonic)
    (agentNamePlan A auth now mnemonic (bareName name) didLog requestDomain op)

/-! ## What the plans establish -/

section Spec

variable {A : AppState} {V : Set ControlStore} {auth : AuthClaims} {now : ℕ}
  {mnemonic didLog : String} {requestDomain : Option String}

/-- What a registration has checked when it commits `batch`. -/
structure Registers (A : AppState) (V : Set ControlStore) (auth : AuthClaims) (now : ℕ)
    (path didLog : String) (force : Bool) (domain : Option String)
    (existing : Option DidRecord) (ownerChanged : Bool) (publication : Publication)
    (didId base : String) (names : List AgentNameEntry) (changes : NameChanges) : Prop where
  existing_read : ∃ s ∈ V, s.record path = existing
  verified : ∃ s ∈ V, ∃ t ∈ V, verifyPublication A.libs (domain.getD "") path didLog
    (s.log path) (t.witness path) = .ok publication
  base_eq : A.config.hostingUrl = some base
  didId_eq : publication.didId = some didId
  bound : publication.method ≠ .webs →
    validateDidIdMatchesRequest A.libs didId path base = .ok ()
  ownership : registerOwnership auth force existing = .ok ownerChanged
  reconciled : Reconciled V (existingNames existing) path
    (publication.agentNames A.libs (didHostOrEmpty A.libs didId))
    (didHostOrEmpty A.libs didId) now names changes

theorem registerPlan_spec {path : String} {force : Bool} {domain : Option String}
    {r : Option Batch × RequestUriResponse}
    (h : (registerPlan A auth now path didLog force domain).Yields V r) :
    ∃ existing ownerChanged publication didId base names changes,
      Registers A V auth now path didLog force domain existing ownerChanged publication
        didId base names changes ∧
      r.1 = some (registerBatch auth path didLog existing ownerChanged
        (registerRecord A auth path didLog publication didId existing ownerChanged
          names now)
        changes (didHostOrEmpty A.libs didId)) := by
  unfold registerPlan at h
  simp only [Query.yields_bind, Query.yields_read, Query.yields_ofExcept,
    Query.yields_okOr, Query.yields_pure] at h
  obtain ⟨_, ⟨s, hs, rfl⟩, _, ⟨t, ht, rfl⟩, publication, hpub, base, hbase, didId, hdid,
    _, _, _, hbound, existing, ⟨u, hu, hexisting⟩, ownerChanged, howner, _, _, _, _,
    ⟨names, changes⟩, hnames, rfl⟩ := h
  refine ⟨existing, ownerChanged, publication, didId, base, names, changes, ?_, rfl⟩
  refine
    { existing_read := ⟨u, hu, hexisting.symm⟩
      verified := ⟨s, hs, t, ht, verifiedPublication_eq_ok hpub⟩
      base_eq := hbase
      didId_eq := hdid
      bound := ?_
      ownership := howner
      reconciled := reconcileAgentNames_spec hnames }
  intro hwebs
  unfold registerBinding at hbound
  rw [if_neg hwebs] at hbound
  split at hbound
  · assumption
  · contradiction

/-- What `prepare_republish` has checked when it returns: the slot's record
`record`, advanced to the version verified as `publication`. -/
structure Republishes (A : AppState) (V : Set ControlStore) (auth : AuthClaims)
    (mnemonic didLog : String) (record : DidRecord) (publication : Publication) : Prop where
  path_valid : ∃ s ∈ V, validateSlotPath ((s.record mnemonic).map (·.method)) mnemonic = .ok ()
  record_read : ∃ s ∈ V, s.record mnemonic = some record
  allowed : authorized auth record = true
  same_method : publication.method = record.method
  verified : ∃ s ∈ V, ∃ t ∈ V, verifyPublication A.libs record.domain mnemonic didLog
    (s.log mnemonic) (t.witness mnemonic) = .ok publication

theorem prepareRepublish_spec {r : DidRecord × String × Publication}
    (h : (prepareRepublish A auth now mnemonic didLog requestDomain).Yields V r) :
    ∃ record publication, Republishes A V auth mnemonic didLog record publication ∧
      r = (republished A.libs record publication didLog now,
        slotDomain A.libs (republished A.libs record publication didLog now),
        publication) := by
  unfold prepareRepublish at h
  simp only [Query.yields_bind, Query.yields_read, Query.yields_ofExcept,
    Query.yields_pure, yields_getAuthorizedRecord] at h
  obtain ⟨_, ⟨u, hu, rfl⟩, _, hpath, record, ⟨hrecord, hauth⟩, _, hsame, _, ⟨s, hs, rfl⟩,
    _, ⟨t, ht, rfl⟩, publication, hpub, _, _, _, _, _, _, rfl⟩ := h
  have hpub' := verifiedPublication_eq_ok hpub
  refine ⟨record, publication,
    ⟨⟨u, hu, hpath⟩, hrecord, hauth, ?_, ⟨s, hs, t, ht, hpub'⟩⟩, rfl⟩
  unfold checkSameMethod at hsame
  rw [verifyPublication_method hpub'] at hsame
  simp only at hsame
  split at hsame
  · assumption
  · contradiction

/-- The record a publish of `publication` stores, before its names. -/
theorem publishPlan_spec {r : Option Batch × Unit}
    (h : (publishPlan A auth now mnemonic didLog requestDomain).Yields V r) :
    ∃ record publication names changes,
      Republishes A V auth mnemonic didLog record publication ∧
      Reconciled V record.agentNames mnemonic
        (publication.agentNames A.libs
          (slotDomain A.libs (republished A.libs record publication didLog now)))
        (slotDomain A.libs (republished A.libs record publication didLog now)) now
        names changes ∧
      r.1 = some (publishBatch mnemonic didLog
        { republished A.libs record publication didLog now with agentNames := names }
        changes (slotDomain A.libs (republished A.libs record publication didLog now))) := by
  unfold publishPlan at h
  simp only [Query.yields_bind, Query.yields_pure] at h
  obtain ⟨_, hprep, ⟨names, changes⟩, hnames, rfl⟩ := h
  obtain ⟨record, publication, hrep, rfl⟩ := prepareRepublish_spec hprep
  exact ⟨record, publication, names, changes, hrep, reconcileAgentNames_spec hnames, rfl⟩

theorem agentNamePlan_spec {name : String} {op : AgentNameOp}
    {r : Option Batch × DidRecord}
    (h : (agentNamePlan A auth now mnemonic name didLog requestDomain op).Yields V r) :
    ∃ record publication holder effect,
      Republishes A V auth mnemonic didLog record publication ∧
      ((publication.agentNames A.libs
          (slotDomain A.libs (republished A.libs record publication didLog now))).contains
        name = op.requiresClaim) ∧
      (op = .activate → ∃ s ∈ V, s.nameHolder
        (slotDomain A.libs (republished A.libs record publication didLog now)) name =
          holder) ∧
      agentNameEffect op record.agentNames mnemonic
        (slotDomain A.libs (republished A.libs record publication didLog now)) name now
        holder = .ok effect ∧
      r.1 = some ([.insertLog mnemonic didLog, .insertDid mnemonic
        { republished A.libs record publication didLog now with agentNames := effect.1 }] ++
        effect.2) := by
  unfold agentNamePlan at h
  simp only [Query.yields_bind, Query.yields_require, Query.yields_ofExcept,
    Query.yields_pure] at h
  obtain ⟨_, hprep, _, hclaim, holder, hholder, effect, heffect, rfl⟩ := h
  obtain ⟨record, publication, hrep, rfl⟩ := prepareRepublish_spec hprep
  refine ⟨record, publication, holder, effect, hrep, by simpa using hclaim, ?_, heffect, rfl⟩
  rintro rfl
  rw [readHolder, if_pos rfl, Query.yields_read] at hholder
  obtain ⟨s, hs, rfl⟩ := hholder
  exact ⟨s, hs, rfl⟩

end Spec

end DidHosting
