import Mathlib.Data.List.Sort
import DidHosting.Support.Table

/-!
# Identity generations

One version of the service's own DID identity, the key material it answers to, and what the
code decides about them: whether a document means a rotation, which secrets a generation
has in the secret store, which generations of the store are still to be honoured.

Decoding a private key and deriving its public key belong to the key library.
-/

namespace DidHosting

namespace Identity

/-! ## Data -/

/-- The key library: private keys in their multibase form, and what is read from them. -/
structure KeyLibs where
  /-- The private key of `Secret::from_multibase`. -/
  decode : String → Except String String
  /-- `Secret::get_public_keymultibase`. -/
  publicMultibase : String → Option String
  /-- `Secret::get_private_keymultibase`. -/
  privateMultibase : String → Option String

/-- `Secret`: a private key and the kid it answers to. -/
structure Secret where
  id : String
  key : String
deriving DecidableEq, Repr

structure ProtocolSet where
  didcomm : Bool
  tsp : Bool
deriving DecidableEq, Repr

structure IdentityGeneration where
  id : ℕ
  did : String
  signingKid : String
  kaKid : String
  kaPublicMultibase : Option String
  mediatorDid : Option String
  protocols : ProtocolSet
  createdAt : ℕ
  retiredAt : Option ℕ
  expiresAt : Option ℕ
deriving DecidableEq, Repr

structure RetiredKeys where
  kaKid : String
  keyAgreementKey : String
  signingKid : String
  signingKey : String
deriving DecidableEq, Repr

/-- `ServerSecrets`, as far as the identity uses it. -/
structure ServerSecrets where
  signingKey : String
  keyAgreementKey : String
  retired : List RetiredKeys
deriving DecidableEq, Repr

structure ResolvedIdentityDoc where
  signingKid : String
  kaKid : String
  kaPublicMultibase : Option String
deriving DecidableEq, Repr

/-- Where the service is to be reached, from its configuration. -/
structure Endpoint where
  did : String
  mediatorDid : Option String
  protocols : ProtocolSet
deriving DecidableEq, Repr

/-! ## Comparing generations -/

namespace IdentityGeneration

def isLive (g : IdentityGeneration) (now : ℕ) : Bool :=
  g.expiresAt.all (now < ·)

/-- `key_material_differs_from`: what is unknown does not differ. -/
def keyMaterialDiffersFrom (g other : IdentityGeneration) : Bool :=
  match g.kaPublicMultibase, other.kaPublicMultibase with
  | some a, some b => a != b
  | _, _ => false

def differsFrom (g other : IdentityGeneration) : Bool :=
  g.did != other.did || g.signingKid != other.signingKid || g.kaKid != other.kaKid ||
    g.mediatorDid != other.mediatorDid || g.protocols != other.protocols ||
    g.keyMaterialDiffersFrom other

/-- `key_changed` of a reload. -/
def keyChanged (g other : IdentityGeneration) : Bool :=
  g.signingKid != other.signingKid || g.kaKid != other.kaKid || g.keyMaterialDiffersFrom other

def isSameKidRotation (g other : IdentityGeneration) : Bool :=
  g.kaKid == other.kaKid && g.keyMaterialDiffersFrom other

end IdentityGeneration

def secretMatchesDocument (L : KeyLibs) (key : String) (advertised : Option String) : Bool :=
  match advertised with
  | none => true
  | some advertised => L.publicMultibase key == some advertised

/-! ## Key material -/

/-- The signing key and the key-agreement key of a generation in the secret store. -/
def keysOf (g : IdentityGeneration) (secrets : ServerSecrets) : Option (String × String) :=
  if g.retiredAt.isSome then
    (secrets.retired.find? (·.kaKid == g.kaKid)).map fun r =>
      (r.signingKey, r.keyAgreementKey)
  else some (secrets.signingKey, secrets.keyAgreementKey)

/-- `Secret::from_multibase`, where the key decodes. -/
def decoded (L : KeyLibs) (kid key : String) : Option Secret :=
  (L.decode key).toOption.map fun key => ⟨kid, key⟩

def secretsFor (L : KeyLibs) (g : IdentityGeneration) (secrets : ServerSecrets) : List Secret :=
  match keysOf g secrets with
  | none => []
  | some (signingKey, kaKey) =>
      (decoded L g.signingKid signingKey).toList ++ (decoded L g.kaKid kaKey).toList

/-- The private key under `kid` in the live set, in its stored form. -/
def storedForm (L : KeyLibs) (secrets : List Secret) (kid : String) : Option String :=
  (secrets.find? (·.id == kid)).bind fun s => L.privateMultibase s.key

def retiredKeysFor (L : KeyLibs) (secrets : List Secret) (g : IdentityGeneration) :
    Option RetiredKeys := do
  let keyAgreementKey ← storedForm L secrets g.kaKid
  let signingKey ← storedForm L secrets g.signingKid
  return ⟨g.kaKid, keyAgreementKey, g.signingKid, signingKey⟩

/-! ## Stored generations -/

/-- `Vec::swap(0, pos)`, where `pos` is the first place at which `p` holds. -/
def swapToFront (p : IdentityGeneration → Bool) :
    List IdentityGeneration → List IdentityGeneration
  | [] => []
  | g :: rest =>
      if p g then g :: rest
      else
        match rest.find? p with
        | none => g :: rest
        | some first => first :: rest.set (rest.findIdx p) g

/-- Newer generations come first. -/
def NotOlder (a b : IdentityGeneration) : Prop :=
  b.id ≤ a.id

instance : DecidableRel NotOlder :=
  fun a b => inferInstanceAs (Decidable (b.id ≤ a.id))

/-- `load_generations`: the rows that are live, newest first behind the current one. -/
def loadGenerations (currentId : Option ℕ) (records : Table ℕ IdentityGeneration) (now : ℕ) :
    List IdentityGeneration :=
  let live := ((Table.rows records).map Prod.snd).filter (·.isLive now)
  let newest := live.insertionSort NotOlder
  match currentId with
  | none => newest
  | some id => swapToFront (·.id == id) newest

/-! ## Reading a document -/

/-- The generation a document stands for. -/
def generationOf (endpoint : Endpoint) (doc : ResolvedIdentityDoc) (id createdAt : ℕ) :
    IdentityGeneration where
  id := id
  did := endpoint.did
  signingKid := doc.signingKid
  kaKid := doc.kaKid
  kaPublicMultibase := doc.kaPublicMultibase
  mediatorDid := endpoint.mediatorDid
  protocols := endpoint.protocols
  createdAt := createdAt
  retiredAt := none
  expiresAt := none

/-- `resolve_current_generation`: the document's kids under the id the store gives, or what
the store has when the document cannot be resolved. -/
def resolveCurrentGeneration (endpoint : Endpoint) (doc : Option ResolvedIdentityDoc)
    (stored : Option IdentityGeneration) (now : ℕ) : Option IdentityGeneration :=
  match doc with
  | none => stored
  | some doc =>
      some (generationOf endpoint doc (stored.elim 0 (·.id)) (stored.elim now (·.createdAt)))

/-- The generation a service starts on when it can neither resolve its document nor find a
stored one. -/
def placeholder (endpoint : Endpoint) (now : ℕ) : IdentityGeneration where
  id := 0
  did := endpoint.did
  signingKid := s!"{endpoint.did}#key-0"
  kaKid := s!"{endpoint.did}#key-1"
  kaPublicMultibase := none
  mediatorDid := endpoint.mediatorDid
  protocols := endpoint.protocols
  createdAt := now
  retiredAt := none
  expiresAt := none

/-! ## Expiry -/

/-- `doomed_ids` of a sweep: the live generations, but the current one, that have expired or
have no row. -/
def doomedIds (live : List IdentityGeneration) (persisted : List ℕ) (now : ℕ) : List ℕ :=
  (live.filter fun g =>
    some g.id != live.head?.map (·.id) && (!g.isLive now || !persisted.contains g.id)).map (·.id)

/-- `to_expire` of a sweep: the doomed generations, but those whose key-agreement kid a
generation that stays has too. -/
def toExpire (live : List IdentityGeneration) (doomed : List ℕ) : List IdentityGeneration :=
  let surviving := (live.filter fun g => !doomed.contains g.id).map (·.kaKid)
  live.filter fun g => doomed.contains g.id && !surviving.contains g.kaKid

end Identity

end DidHosting
