import DidHosting.Support.Part
import DidHosting.Support.Table
import DidHosting.Common.Json
import DidHosting.Auth.Invite

/-!
# Passkey credentials

A passkey user is one record with all the credentials of a subject for one purpose.  A row
leads from the subject's DID to the record, and one from each credential.  An operation
reads the record, changes it and writes it back whole.

A write of a record says in the model which copy it was made from.  The store also keeps
which credentials lost their row while the record still lists them, and a log of the
credentials that were enrolled and revoked.  No handler reads these.
-/

namespace DidHosting

namespace Auth

/-! ## Users -/

/-- A credential, by its id in hex, and what the library keeps of it. -/
structure Passkey where
  credId : String
  record : Json
deriving Repr

structure PasskeyUser where
  userUuid : String
  did : String
  displayName : String
  credentials : List Passkey
  labels : List (String × String)
  registeredAt : List (String × ℕ)
deriving Repr

namespace PasskeyUser

/-- `PasskeyUser::new`, under a uuid. -/
def new (userUuid did : String) : PasskeyUser :=
  ⟨userUuid, did, did, [], [], []⟩

/-- The ids of the credentials. -/
def credIds (user : PasskeyUser) : List String :=
  user.credentials.map (·.credId)

/-- The record without a credential. -/
def without (user : PasskeyUser) (credId : String) : PasskeyUser :=
  { user with
    credentials := user.credentials.filter fun c => c.credId ≠ credId
    labels := user.labels.filter fun e => e.1 ≠ credId
    registeredAt := user.registeredAt.filter fun e => e.1 ≠ credId }

end PasskeyUser

/-! ## The store of one purpose -/

/-- Why a record is written. -/
inductive UserChange where
  | used
  | revoked (credId : String)
deriving DecidableEq, Repr

/-- An entry of the log. -/
inductive CredentialFact where
  | enrolled (userUuid credId : String)
  | revoked (credId : String)
deriving DecidableEq, Repr

/-- The rows of users, and what the model keeps beside them. -/
structure CredentialStore where
  /-- `pk_user:`. -/
  users : Table String PasskeyUser
  /-- `pk_did:`. -/
  dids : Table String String
  /-- `pk_cred:`. -/
  creds : Table String String
  /-- The credentials whose row was removed by a revocation that has not written the record
  yet. -/
  removing : List String
  log : List CredentialFact

namespace CredentialStore

def new : CredentialStore := ⟨∅, ∅, ∅, [], []⟩

def allPasskeys (s : CredentialStore) : List Passkey :=
  (Table.rows s.users).flatMap fun row => row.2.credentials

end CredentialStore

/-- The accesses of the store.  A record is written from the copy that was read. -/
inductive CredentialAccess where
  | get
  | putUser (copied user : PasskeyUser) (why : UserChange)
  | putUserDid (did userUuid : String)
  | removeCred (credId : String)
  /-- The batch of `stage_new_credential`. -/
  | bind (copied : Option PasskeyUser) (user : PasskeyUser) (credId : String)

def CredentialStore.perform : CredentialAccess → CredentialStore → CredentialStore
  | .get, s => s
  | .putUser _ user .used, s => { s with users := s.users.insert user.userUuid user }
  | .putUser _ user (.revoked credId), s =>
      { s with
        users := s.users.insert user.userUuid user
        removing := s.removing.filter (· ≠ credId)
        log := s.log ++ [.revoked credId] }
  | .putUserDid did userUuid, s => { s with dids := s.dids.insert did userUuid }
  | .removeCred credId, s =>
      { s with
        creds := s.creds.erase credId
        removing := credId :: s.removing }
  | .bind _ user credId, s =>
      { s with
        users := s.users.insert user.userUuid user
        dids := s.dids.insert user.did user.userUuid
        creds := s.creds.insert credId user.userUuid
        log := s.log ++ [.enrolled user.userUuid credId] }

instance : Access CredentialStore CredentialAccess := ⟨CredentialStore.perform⟩

/-- Handlers on the credentials of one purpose.  They draw nothing, take no locks and do
not fail. -/
abbrev CredentialM := Atomic CredentialStore CredentialAccess Unit Empty Empty

/-- `store_passkey_user`, of a record made from the copy `copied`. -/
def storePasskeyUser (copied user : PasskeyUser) (why : UserChange) : CredentialM Unit := do
  .call (.putUser copied user why) fun _ => ()
  .call (.putUserDid user.did user.userUuid) fun _ => ()

def removeCredential (user : PasskeyUser) (credId : String) : CredentialM Unit := do
  .call (.removeCred credId) fun _ => ()
  storePasskeyUser user (user.without credId) (.revoked credId)

/-- `get_passkey_user_by_did`: two reads. -/
def getPasskeyUserByDid (did : String) : CredentialM (Option PasskeyUser) := do
  match ← .call .get fun s => s.dids.lookup did with
  | none => return none
  | some userUuid => .call .get fun s => s.users.lookup userUuid

/-- `get_passkey_user_by_cred`: two reads. -/
def getPasskeyUserByCred (credId : String) : CredentialM (Option PasskeyUser) := do
  match ← .call .get fun s => s.creds.lookup credId with
  | none => return none
  | some userUuid => .call .get fun s => s.users.lookup userUuid

end Auth

end DidHosting
