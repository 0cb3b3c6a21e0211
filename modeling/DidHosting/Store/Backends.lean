import DidHosting.Support.Base64
import DidHosting.Support.Table

/-!
# What the storage backends hold

A store is a set of named keyspaces, each with values under byte-string keys.
Every backend holds the same rows in its own way: Redis in one space of keys
that carry the keyspace's name, Cosmos DB and Firestore as documents with the
key in base64url, DynamoDB as items with binary attributes, fjall as rows.
-/

namespace DidHosting.Backend

abbrev Bytes := List UInt8

/-- The bytes of an ASCII text. -/
def ascii (text : String) : Bytes :=
  text.toList.map fun c => .ofNat c.toNat

inductive StoreBackend where
  | redis | dynamodb | firestore | cosmosdb | fjall
deriving DecidableEq, Repr

/-! ## Keyspaces -/

inductive Keyspace where
  | dids | acl | sessions | passkeyStepUp | stats | timeseries | registry | witnesses
  | metaRows | domains | assignments | pendingPurges | identity | outboundQueue
  | tspRelationships
deriving DecidableEq, Repr

/-- `KS_DIDS`, `KS_ACL`, … -/
def Keyspace.name : Keyspace → String
  | .dids => "dids"
  | .acl => "acl"
  | .sessions => "sessions"
  | .passkeyStepUp => "passkey_step_up"
  | .stats => "stats"
  | .timeseries => "timeseries"
  | .registry => "registry"
  | .witnesses => "witnesses"
  | .metaRows => "meta"
  | .domains => "domains"
  | .assignments => "assignments"
  | .pendingPurges => "pending_purges"
  | .identity => "identity"
  | .outboundQueue => "outbox"
  | .tspRelationships => "tsp_relationships"

/-- The rows of a store: one value for each key of a keyspace. -/
abbrev Database := Table (Keyspace × Bytes) Bytes

namespace Database

/-- The pairs of one keyspace. -/
def pairs (db : Database) (ks : Keyspace) : List (Bytes × Bytes) :=
  (Table.rows db).filterMap fun row => if row.1.1 = ks then some (row.1.2, row.2) else none

theorem mem_pairs {db : Database} {ks : Keyspace} {key value : Bytes} :
    (key, value) ∈ db.pairs ks ↔ db.lookup (ks, key) = some value := by
  rw [← Table.mem_rows]
  constructor
  · intro h
    obtain ⟨⟨⟨ks', key'⟩, value'⟩, hrow, hpair⟩ := List.mem_filterMap.mp h
    by_cases hks : ks' = ks
    · rw [if_pos hks] at hpair
      obtain ⟨rfl, rfl⟩ := Prod.mk.inj (Option.some.inj hpair)
      rw [← hks]
      exact hrow
    · rw [if_neg hks] at hpair
      exact absurd hpair (by simp)
  · intro h
    exact List.mem_filterMap.mpr ⟨((ks, key), value), h, by simp⟩

theorem nodup_pairs (db : Database) (ks : Keyspace) : (db.pairs ks).Nodup := by
  have hrows : (Table.rows db).Nodup := List.Nodup.of_map _ (Table.keys_rows_nodup db)
  refine hrows.filterMap ?_
  rintro ⟨⟨ks₁, key₁⟩, value₁⟩ ⟨⟨ks₂, key₂⟩, value₂⟩ ⟨key, value⟩ h₁ h₂
  by_cases hks₁ : ks₁ = ks
  · by_cases hks₂ : ks₂ = ks
    · simp only [hks₁, hks₂, if_true, Option.mem_def, Option.some.injEq, Prod.mk.injEq] at h₁ h₂
      rw [hks₁, hks₂, h₁.1, h₁.2, h₂.1, h₂.2]
    · simp [hks₂] at h₂
  · simp [hks₁] at h₁

/-- The pairs whose key starts with a prefix. -/
def withPrefix (db : Database) (ks : Keyspace) (stem : Bytes) : List (Bytes × Bytes) :=
  (db.pairs ks).filter fun pair => stem.isPrefixOf pair.1

theorem mem_withPrefix {db : Database} {ks : Keyspace} {stem key value : Bytes} :
    (key, value) ∈ db.withPrefix ks stem ↔
      db.lookup (ks, key) = some value ∧ stem.isPrefixOf key = true := by
  rw [withPrefix, List.mem_filter, mem_pairs]

theorem nodup_withPrefix (db : Database) (ks : Keyspace) (stem : Bytes) :
    (db.withPrefix ks stem).Nodup :=
  (db.nodup_pairs ks).filter _

/-- A store with one row. -/
def single (ks : Keyspace) (key value : Bytes) : Database :=
  (∅ : Database).insert (ks, key) value

end Database

/-! ## Redis -/

/-- What a Redis key of the keyspace starts with: its name and a colon. -/
def keyPrefix (ks : Keyspace) : Bytes :=
  ascii ks.name ++ [58]

/-- `RedisKeyspace::full_key`. -/
def fullKey (ks : Keyspace) (key : Bytes) : Bytes :=
  keyPrefix ks ++ key

theorem colon_not_mem_name (ks : Keyspace) : (58 : UInt8) ∉ ascii ks.name := by
  cases ks <;> decide

theorem fullKey_inj {ks ks' : Keyspace} {key key' : Bytes}
    (h : fullKey ks key = fullKey ks' key') : ks = ks' ∧ key = key' := by
  have hsplit : ∀ ks key, (fullKey ks key).takeWhile (· ≠ 58) = ascii ks.name := by
    intro ks key
    have hname : ∀ b ∈ ascii ks.name, (decide (b ≠ 58)) = true := by
      intro b hb
      exact decide_eq_true fun heq => colon_not_mem_name ks (heq ▸ hb)
    rw [fullKey, keyPrefix, List.append_assoc, List.takeWhile_append_of_pos hname]
    simp
  have hname : ascii ks.name = ascii ks'.name := by
    rw [← hsplit ks key, ← hsplit ks' key', h]
  have hks : ks = ks' := by
    have hall : ∀ a b : Keyspace, ascii a.name = ascii b.name → a = b := by
      intro a b
      cases a <;> cases b <;> decide
    exact hall ks ks' hname
  subst hks
  exact ⟨rfl, List.append_cancel_left h⟩

def redisGet (db : Database) (full : Bytes) : Option Bytes :=
  ((Table.rows db).find? fun row => fullKey row.1.1 row.1.2 = full).map (·.2)

/-! ## Documents and items -/

/-- `KvDoc` of Cosmos DB, in the container of its keyspace. -/
structure CosmosDoc where
  id : List Char
  pk : String
  data : List Char
deriving DecidableEq, Repr

def partitionValue : String := "kv"

def CosmosDoc.ofPair (pair : Bytes × Bytes) : CosmosDoc where
  id := Base64.encode pair.1
  pk := partitionValue
  data := Base64.encode pair.2

/-- `KvDoc` of Firestore, in the collection of its keyspace. -/
structure FirestoreDoc where
  key : List Char
  data : List Char
deriving DecidableEq, Repr

def FirestoreDoc.ofPair (pair : Bytes × Bytes) : FirestoreDoc where
  key := Base64.encode pair.1
  data := Base64.encode pair.2

/-- The attribute values the DynamoDB backend writes. -/
inductive AttributeValue where
  | b (blob : Bytes)
  | s (text : String)
  | n (digits : String)
deriving DecidableEq, Repr

/-- An item of a DynamoDB table: `PK_ATTR`, `VAL_ATTR` and `CNT_ATTR`. -/
structure Item where
  pk : Option AttributeValue
  val : Option AttributeValue
  cnt : Option AttributeValue
deriving DecidableEq, Repr

def Item.ofPair (pair : Bytes × Bytes) : Item where
  pk := some (.b pair.1)
  val := some (.b pair.2)
  cnt := none

end DidHosting.Backend
