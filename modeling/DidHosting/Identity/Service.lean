import Mathlib.Algebra.GroupWithZero.Nat
import DidHosting.Identity.Generation
import DidHosting.Support.Atomic

/-!
# The identity of a running service

The secret store, the rows of the generations, and what a running process holds in memory:
the live set and the secrets resolver.  Loading, reloading, the expiry sweep and the kill
switch, each as the accesses it makes.  A reload and the kill switch hold the rotation
lock, the sweep does not.

The secret store is read and written whole.  A write is given as the secrets that were read
and the change that was made to them.
-/

namespace DidHosting

namespace Identity

/-! ## State -/

/-- What a write of the secret store changes in the secrets that were read. -/
inductive SecretsChange where
  /-- Nothing: a rotation writes also when it has no keys to keep. -/
  | same
  /-- The keys of the generation that retires. -/
  | stash (id : ℕ) (keys : RetiredKeys)
  /-- The keys of an expired generation go. -/
  | purge (kaKid : String)
  /-- New keys of the operator. -/
  | rekey (signingKey keyAgreementKey : String)
deriving DecidableEq, Repr

def SecretsChange.apply : SecretsChange → ServerSecrets → ServerSecrets
  | same, secrets => secrets
  | stash _ keys, secrets =>
      { secrets with retired := secrets.retired.filter (·.kaKid != keys.kaKid) ++ [keys] }
  | purge kaKid, secrets =>
      { secrets with retired := secrets.retired.filter (·.kaKid != kaKid) }
  | rekey signingKey keyAgreementKey, secrets =>
      { secrets with signingKey := signingKey, keyAgreementKey := keyAgreementKey }

/-- What has been done to the secrets.  No operation reads it. -/
structure SecretsHistory where
  /-- The keys that were last given to the service. -/
  latest : String × String
  /-- The keys stashed for generations that have not expired. -/
  stashed : List (ℕ × RetiredKeys)
  /-- The key-agreement kids removed from the secret store. -/
  purged : List String
  /-- The kids of expired generations. -/
  gone : List String
deriving DecidableEq, Repr

/-- The stores, and the memory of the process. -/
structure Host where
  secretStore : Option ServerSecrets
  currentId : Option ℕ
  records : Table ℕ IdentityGeneration
  resolver : Table String Secret
  generations : List IdentityGeneration
  secrets : List Secret
  history : SecretsHistory

/-- The accesses of the operations. -/
inductive IdentityAccess where
  | read
  | setSecrets (base : ServerSecrets) (change : SecretsChange)
  | saveCurrent (g : IdentityGeneration)
  | saveRotation (retiring candidate : IdentityGeneration)
  | removeRecord (id : ℕ)
  | insertSecret (secret : Secret)
  | removeSecret (kid : String)
  | establishLive (g : IdentityGeneration) (new : List Secret)
  | updateCurrent (g : IdentityGeneration)
  | rotateLive (candidate retiring : IdentityGeneration) (new : List Secret) (keep : Bool)
  | dropLive (g : IdentityGeneration) (expired : Bool)
  | install (generations : List IdentityGeneration) (secrets : List Secret)

/-- The history after a change of the secret store. -/
def SecretsHistory.record (h : SecretsHistory) : SecretsChange → SecretsHistory
  | .same => h
  | .stash id keys => { h with stashed := (id, keys) :: h.stashed }
  | .purge kaKid => { h with purged := kaKid :: h.purged }
  | .rekey signingKey keyAgreementKey => { h with latest := (signingKey, keyAgreementKey) }

/-- The history after the end of a generation. -/
def SecretsHistory.expire (h : SecretsHistory) (g : IdentityGeneration) : SecretsHistory :=
  { h with
    stashed := h.stashed.filter (·.1 != g.id)
    gone := g.kaKid :: g.signingKid :: h.gone }

/-- Each secret under its kid, the later ones over the earlier. -/
def insertAll (new : List Secret) (resolver : Table String Secret) : Table String Secret :=
  new.foldl (fun table secret => table.insert secret.id secret) resolver

def IdentityAccess.perform : IdentityAccess → Host → Host
  | read, s => s
  | setSecrets base change, s =>
      { s with secretStore := some (change.apply base), history := s.history.record change }
  | saveCurrent g, s => { s with records := s.records.insert g.id g, currentId := some g.id }
  | saveRotation retiring candidate, s =>
      { s with
        records := (s.records.insert retiring.id retiring).insert candidate.id candidate
        currentId := some candidate.id }
  | removeRecord id, s => { s with records := s.records.erase id }
  | insertSecret secret, s => { s with resolver := s.resolver.insert secret.id secret }
  | removeSecret kid, s => { s with resolver := s.resolver.erase kid }
  | establishLive g new, s => { s with generations := [g], secrets := new }
  | updateCurrent g, s => { s with generations := g :: s.generations.tail }
  | rotateLive candidate retiring new keep, s =>
      { s with
        generations :=
          if keep then candidate :: retiring :: s.generations.tail else [candidate]
        secrets := if keep then new ++ s.secrets else new }
  | dropLive g expired, s =>
      { s with
        generations := s.generations.filter (·.id != g.id)
        secrets := s.secrets.filter fun x => x.id != g.kaKid && x.id != g.signingKid
        history := if expired then s.history.expire g else s.history }
  | install generations secrets, s =>
      { s with
        generations := generations
        secrets := secrets
        resolver := insertAll secrets ∅ }

instance : Access Host IdentityAccess where
  perform := IdentityAccess.perform

/-- `AppError`, as far as these operations raise it. -/
inductive IdentityError where
  | config (msg : String)
  | validation (msg : String)
  | store (msg : String)
deriving DecidableEq, Repr

/-- Operations on the identity.  An input says whether a store access fails; the lock is
the rotation lock. -/
abbrev IdentityM := Atomic Host IdentityAccess (Option IdentityError) Unit IdentityError

/-- An access of a store, which may fail. -/
def fallible {α : Type} (o : IdentityAccess) (f : Host → α) : IdentityM α := do
  match ← Atomic.draw id with
  | some e => .fail e
  | none => Atomic.call o f

/-- An access of the memory. -/
def act (o : IdentityAccess) : IdentityM Unit :=
  Atomic.call o fun _ => ()

/-- `ServiceIdentity::current`. -/
def currentGeneration : IdentityM IdentityGeneration :=
  .access .read fun s =>
    match s.generations with
    | g :: _ => .ret g
    | [] => .halt

/-! ## Key material in memory -/

/-- Insert the secrets into the resolver, one after the other. -/
def insertSecrets : List Secret → IdentityM Unit
  | [] => pure ()
  | secret :: rest => do
      act (.insertSecret secret)
      insertSecrets rest

def dropGenerationSecrets (g : IdentityGeneration) (expired : Bool) : IdentityM Unit := do
  act (.removeSecret g.kaKid)
  act (.removeSecret g.signingKid)
  act (.dropLive g expired)

/-! ## Reload -/

inductive ReloadOutcome where
  | unchanged
  | established (generation : ℕ)
  | rotatedWithoutOverlap (generation : ℕ) (kaKid : String)
  | unresolvable
  | refused (reason : String)
  | rotated (newGeneration retiredGeneration expiresAt : ℕ)
  | metadataUpdated (generation : ℕ)
deriving DecidableEq, Repr

def establishGeneration (L : KeyLibs) (g : IdentityGeneration) : IdentityM Unit := do
  match ← fallible .read (·.secretStore) with
  | none => .fail (.config "secret store holds no server secrets")
  | some secrets => do
      fallible (.saveCurrent g) fun _ => ()
      let placeholder ← currentGeneration
      act (.removeSecret placeholder.kaKid)
      act (.removeSecret placeholder.signingKid)
      let new := secretsFor L g secrets
      insertSecrets new
      act (.establishLive g new)

def updateCurrentGenerationInPlace (g : IdentityGeneration) : IdentityM Unit := do
  fallible (.saveCurrent g) fun _ => ()
  act (.updateCurrent g)

/-- `now.saturating_add(grace_secs)`. -/
def graceEnd (now graceSecs : ℕ) : ℕ :=
  min (now + graceSecs) (2 ^ 64 - 1)

/-- The generation that stops being current. -/
def retired (g : IdentityGeneration) (now graceSecs : ℕ) : IdentityGeneration :=
  { g with retiredAt := some now, expiresAt := some (graceEnd now graceSecs) }

/-- The change a rotation makes to the secrets: with a grace period, the keys of the
generation that retires are kept. -/
def stashChange (L : KeyLibs) (retiring : IdentityGeneration) (graceSecs : ℕ) :
    IdentityM SecretsChange :=
  if 0 < graceSecs then do
    match ← Atomic.call .read fun s => retiredKeysFor L s.secrets retiring with
    | some keys => return .stash retiring.id keys
    | none => return .same
  else return .same

/-- Without a grace period the key material goes at once. -/
def dropIfImmediate (retiring : IdentityGeneration) (graceSecs : ℕ) : IdentityM Unit :=
  if graceSecs = 0 then dropGenerationSecrets retiring false else pure ()

/-- The rotation of `reload_service_identity`. -/
def rotateTo (L : KeyLibs) (current candidate : IdentityGeneration) (secrets : ServerSecrets)
    (now graceSecs : ℕ) : IdentityM ReloadOutcome := do
  let retiring := retired current now graceSecs
  let change ← stashChange L retiring graceSecs
  fallible (.setSecrets secrets change) fun _ => ()
  fallible (.saveRotation retiring candidate) fun _ => ()
  let new := secretsFor L candidate (change.apply secrets)
  insertSecrets new
  act (.rotateLive candidate retiring new (decide (0 < graceSecs)))
  dropIfImmediate retiring graceSecs
  return .rotated candidate.id retiring.id (graceEnd now graceSecs)

/-- The part of `reload_service_identity` that has found other keys in the document. -/
def reloadKeys (L : KeyLibs) (current candidate : IdentityGeneration) (now graceSecs : ℕ) :
    IdentityM ReloadOutcome := do
  match ← fallible .read (·.secretStore) with
  | none => return .refused "secret store holds no server secrets"
  | some secrets =>
      match L.decode secrets.keyAgreementKey with
      | .error e => .fail (.config s!"failed to decode key_agreement_key: {e}")
      | .ok key =>
          if secretMatchesDocument L key candidate.kaPublicMultibase then
            if current.isSameKidRotation candidate then do
              establishGeneration L candidate
              return .rotatedWithoutOverlap candidate.id candidate.kaKid
            else rotateTo L current candidate secrets now graceSecs
          else
            return .refused s!"the DID document advertises key-agreement key {candidate.kaKid} but the secret store holds a different private key — write the new key to the secret store before publishing the DID (keys, then rotate)"

/-- The generation a reload compares with the current one. -/
def candidateOf (endpoint : Endpoint) (doc : ResolvedIdentityDoc) (persisted : Option ℕ)
    (current : IdentityGeneration) (now : ℕ) : IdentityGeneration :=
  generationOf endpoint doc (if persisted.isSome then current.id + 1 else current.id) now

/-- `reload_service_identity`, on the document that was resolved. -/
def reloadServiceIdentity (L : KeyLibs) (endpoint : Endpoint) (doc : Option ResolvedIdentityDoc)
    (now graceSecs : ℕ) : IdentityM ReloadOutcome :=
  Atomic.locked () <|
    match doc with
    | none => return .unresolvable
    | some doc => do
        let current ← currentGeneration
        let persisted ← fallible .read (·.currentId)
        let candidate := candidateOf endpoint doc persisted current now
        if persisted.isNone then do
          establishGeneration L candidate
          return .established candidate.id
        else if !current.differsFrom candidate then return .unchanged
        else if !current.keyChanged candidate then do
          updateCurrentGenerationInPlace { candidate with id := current.id }
          return .metadataUpdated current.id
        else reloadKeys L current candidate now graceSecs

/-! ## Expiry -/

/-- The secret store loses the keys of the generation, if it has them. -/
def purgeRetired (g : IdentityGeneration) : IdentityM Unit := do
  match ← fallible .read (·.secretStore) with
  | none => pure ()
  | some secrets =>
      if secrets.retired.any (·.kaKid == g.kaKid) then
        fallible (.setSecrets secrets (.purge g.kaKid)) fun _ => ()
      else pure ()

def expireGeneration (g : IdentityGeneration) : IdentityM Unit := do
  dropGenerationSecrets g true
  purgeRetired g
  fallible (.removeRecord g.id) fun _ => ()

/-- The loop of `run_sweep_once`; a generation that fails is left for the next sweep. -/
def expireEach (reaped : ℕ) : List IdentityGeneration → IdentityM ℕ
  | [] => return reaped
  | g :: rest => do
      match ← (expireGeneration g).attempt with
      | .ok _ => expireEach (reaped + 1) rest
      | .error _ => expireEach reaped rest

def runSweepOnce (now : ℕ) : IdentityM ℕ := do
  let live ← Atomic.call .read (·.generations)
  match ← (fallible .read fun s => loadGenerations s.currentId s.records now).attempt with
  | .error _ => return 0
  | .ok stored => expireEach 0 (toExpire live (doomedIds live (stored.map (·.id)) now))

def retireGenerationNow (generationId : ℕ) : IdentityM Unit :=
  Atomic.locked () do
    let generations ← Atomic.call .read (·.generations)
    match generations.find? (·.id == generationId) with
    | none => .fail (.validation s!"no live identity generation with id {generationId}")
    | some g =>
        if g.retiredAt.isNone then
          .fail (.config
            "refusing to expire the current generation — rotate to a new one first")
        else expireGeneration g

/-! ## Loading -/

/-- The generation a service comes up with, and whether it is saved. -/
def bootGeneration (endpoint : Endpoint) (doc : Option ResolvedIdentityDoc)
    (stored : List IdentityGeneration) (now : ℕ) : IdentityGeneration × Bool :=
  match resolveCurrentGeneration endpoint doc stored.head? now with
  | some g => (g, stored.head? != some g)
  | none => (placeholder endpoint now, false)

/-- Saving may fail; the service comes up all the same. -/
def saveBoot (g : IdentityGeneration) (persist : Bool) : IdentityM Unit :=
  if persist then do
    let _ ← (fallible (.saveCurrent g) fun _ => () : IdentityM Unit).attempt (δ := IdentityError)
    pure ()
  else pure ()

/-- The generations a service comes up with: the current one, and the retired ones that are
live in the store. -/
def bootGenerations (current : IdentityGeneration) (stored : List IdentityGeneration) :
    List IdentityGeneration :=
  current :: stored.filter fun g => g.retiredAt.isSome && g.id != current.id

/-- `load_identity`, with the secrets the service has read from the secret store. -/
def loadIdentity (L : KeyLibs) (endpoint : Endpoint) (doc : Option ResolvedIdentityDoc)
    (now : ℕ) : IdentityM Unit := do
  match ← Atomic.call .read (·.secretStore) with
  | none => .fail (.config "secret store holds no server secrets")
  | some secrets => do
      let rows ← (fallible .read fun s => loadGenerations s.currentId s.records now).attempt
        (δ := IdentityError)
      let stored := rows.toOption.getD []
      let boot := bootGeneration endpoint doc stored now
      saveBoot boot.1 boot.2
      let generations := bootGenerations boot.1 stored
      act (.install generations (generations.flatMap fun g => secretsFor L g secrets))

/-! ## Operations -/

/-- The operations on the identity of a service. -/
inductive IdentityOp where
  | load (endpoint : Endpoint) (doc : Option ResolvedIdentityDoc)
  | reload (endpoint : Endpoint) (doc : Option ResolvedIdentityDoc) (graceSecs : ℕ)
  | sweep
  | retireNow (generationId : ℕ)
deriving DecidableEq, Repr

/-- The operation at a time; a reload has an outcome. -/
def IdentityOp.handler (L : KeyLibs) (now : ℕ) : IdentityOp → IdentityM (Option ReloadOutcome)
  | load endpoint doc => do
      loadIdentity L endpoint doc now
      return none
  | reload endpoint doc graceSecs => do
      let outcome ← reloadServiceIdentity L endpoint doc now graceSecs
      return some outcome
  | sweep => do
      let _ ← runSweepOnce now
      return none
  | retireNow generationId => do
      retireGenerationNow generationId
      return none

end Identity

end DidHosting
