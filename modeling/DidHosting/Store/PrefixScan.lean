import DidHosting.Support.Glob
import DidHosting.Store.Backends
import Mathlib.Data.List.Perm.Basic

/-!
# Prefix scans

`prefix_iter_raw` of the five backends.  Each asks its service for the keys
that start with a prefix in the service's own words and works on what is
delivered: Redis answers a glob pattern, Cosmos DB compares the texts of
document ids, Firestore and DynamoDB deliver everything and the code filters,
fjall knows prefixes.

A `Delivery` is what a service delivered to one scan, and `Delivery.Complete`
what the code may rely on: everything the query asks for is there.  The order
is the service's, and a Redis scan may deliver a key more than once.
-/

namespace DidHosting.Backend

open Database

/-! ## The five scans -/

/-- `prefix_iter_raw` on Redis, of the keys the scan delivered. -/
def redisPrefixIter (db : Database) (ks : Keyspace) (keys : List Bytes) : List (Bytes × Bytes) :=
  let values := keys.map (redisGet db)
  let prefixLen := (keyPrefix ks).length
  (keys.zip values).filterMap fun (k, v) => v.map fun val => (k.drop prefixLen, val)

/-- `prefix_iter_raw` on Cosmos DB, of the documents the query delivered. -/
def cosmosPrefixIter (stem : Bytes) : List CosmosDoc → Option (List (Bytes × Bytes))
  | [] => some []
  | doc :: docs => do
    let keyBytes ← Base64.decode doc.id
    -- verify the prefix on the raw bytes
    if stem.isPrefixOf keyBytes then
      let valBytes ← Base64.decode doc.data
      let results ← cosmosPrefixIter stem docs
      return (keyBytes, valBytes) :: results
    else cosmosPrefixIter stem docs

/-- `prefix_iter_raw` on Firestore, of the documents of the collection. -/
def firestorePrefixIter (stem : Bytes) : List FirestoreDoc → Option (List (Bytes × Bytes))
  | [] => some []
  | doc :: docs => do
    let keyBytes ← Base64.decode doc.key
    if stem.isEmpty || stem.isPrefixOf keyBytes then
      let valBytes ← Base64.decode doc.data
      let results ← firestorePrefixIter stem docs
      return (keyBytes, valBytes) :: results
    else firestorePrefixIter stem docs

/-- `filter_items_by_prefix`: the matching pairs of one page. -/
def filterItemsByPrefix (items : List Item) (stem : Bytes) : List (Bytes × Bytes) :=
  items.filterMap fun item =>
    match item.pk, item.val with
    | some (.b pk), some (.b val) => if stem.isPrefixOf pk then some (pk, val) else none
    | _, _ => none

/-- `prefix_iter_raw` on DynamoDB, of the pages of the table scan. -/
def dynamoPrefixIter (stem : Bytes) (pages : List (List Item)) : List (Bytes × Bytes) :=
  pages.flatMap fun items => filterItemsByPrefix items stem

/-! ## Deliveries -/


/-- What the service delivered to one scan. -/
inductive Delivery where
  | redis (keys : List Bytes)
  | dynamodb (pages : List (List Item))
  | firestore (docs : List FirestoreDoc)
  | cosmosdb (docs : List CosmosDoc)
  | fjall (pairs : List (Bytes × Bytes))
deriving DecidableEq, Repr

def Delivery.backend : Delivery → StoreBackend
  | .redis _ => .redis
  | .dynamodb _ => .dynamodb
  | .firestore _ => .firestore
  | .cosmosdb _ => .cosmosdb
  | .fjall _ => .fjall

/-- The query of the Cosmos DB scan: every document of the partition, or the
ones whose id starts with the encoded prefix. -/
def cosmosQuery (stem : Bytes) (doc : CosmosDoc) : Bool :=
  doc.pk = partitionValue && (stem.isEmpty || (Base64.encode stem).isPrefixOf doc.id)

/-- The service delivered everything the scan asked for.  Items without a value
are counters, which `incr_raw` keeps beside the rows of a table. -/
def Delivery.Complete (db : Database) (ks : Keyspace) (stem : Bytes) : Delivery → Prop
  | .redis keys => ∀ full, full ∈ keys ↔
      Glob.covers (Glob.scanPattern (fullKey ks stem)) full = true ∧
        ∃ ks' key value, db.lookup (ks', key) = some value ∧ fullKey ks' key = full
  | .dynamodb pages => ∃ counters : List Item, (∀ item ∈ counters, item.val = none) ∧
      pages.flatten.Perm ((db.pairs ks).map .ofPair ++ counters)
  | .firestore docs => docs.Perm ((db.pairs ks).map .ofPair)
  | .cosmosdb docs => docs.Perm (((db.pairs ks).map .ofPair).filter (cosmosQuery stem))
  | .fjall pairs => pairs.Perm (db.withPrefix ks stem)

def prefixIterRaw (db : Database) (ks : Keyspace) (stem : Bytes) :
    Delivery → Option (List (Bytes × Bytes))
  | .redis keys => some (redisPrefixIter db ks keys)
  | .dynamodb pages => some (dynamoPrefixIter stem pages)
  | .firestore docs => firestorePrefixIter stem docs
  | .cosmosdb docs => cosmosPrefixIter stem docs
  | .fjall pairs => some pairs

/-- The scan returned the pairs whose key starts with the prefix, each once. -/
def Exact (db : Database) (ks : Keyspace) (stem : Bytes) (delivery : Delivery) : Prop :=
  ∃ result, prefixIterRaw db ks stem delivery = some result ∧
    result.Perm (db.withPrefix ks stem)

/-! ## DynamoDB, Firestore, Cosmos DB -/

@[simp] theorem FirestoreDoc.key_ofPair (pair : Bytes × Bytes) :
    (FirestoreDoc.ofPair pair).key = Base64.encode pair.1 := rfl

@[simp] theorem FirestoreDoc.data_ofPair (pair : Bytes × Bytes) :
    (FirestoreDoc.ofPair pair).data = Base64.encode pair.2 := rfl

@[simp] theorem CosmosDoc.id_ofPair (pair : Bytes × Bytes) :
    (CosmosDoc.ofPair pair).id = Base64.encode pair.1 := rfl

@[simp] theorem CosmosDoc.data_ofPair (pair : Bytes × Bytes) :
    (CosmosDoc.ofPair pair).data = Base64.encode pair.2 := rfl

theorem firestorePrefixIter_pairs (stem : Bytes) (pairs : List (Bytes × Bytes)) :
    firestorePrefixIter stem (pairs.map .ofPair) =
      some (pairs.filter fun pair => stem.isPrefixOf pair.1) := by
  induction pairs with
  | nil => rfl
  | cons pair pairs ih =>
    have hempty : (stem.isEmpty || stem.isPrefixOf pair.1) = stem.isPrefixOf pair.1 := by
      cases stem with
      | nil => simp
      | cons b rest => rfl
    rw [List.map_cons, firestorePrefixIter, FirestoreDoc.key_ofPair, FirestoreDoc.data_ofPair,
      Base64.decode_encode, Base64.decode_encode, ih]
    simp only [Option.bind_eq_bind, Option.bind_some, hempty, List.filter_cons]
    by_cases hkey : stem.isPrefixOf pair.1 = true
    · simp only [if_pos hkey]
      rfl
    · simp only [if_neg hkey]

theorem cosmosPrefixIter_pairs (stem : Bytes) (pairs : List (Bytes × Bytes)) :
    cosmosPrefixIter stem (pairs.map .ofPair) =
      some (pairs.filter fun pair => stem.isPrefixOf pair.1) := by
  induction pairs with
  | nil => rfl
  | cons pair pairs ih =>
    rw [List.map_cons, cosmosPrefixIter, CosmosDoc.id_ofPair, CosmosDoc.data_ofPair,
      Base64.decode_encode, Base64.decode_encode, ih]
    simp only [Option.bind_eq_bind, Option.bind_some, List.filter_cons]
    by_cases hkey : stem.isPrefixOf pair.1 = true
    · simp only [if_pos hkey]
      rfl
    · simp only [if_neg hkey]

theorem filterItemsByPrefix_pairs (stem : Bytes) (pairs : List (Bytes × Bytes)) :
    filterItemsByPrefix (pairs.map .ofPair) stem =
      pairs.filter fun pair => stem.isPrefixOf pair.1 := by
  rw [filterItemsByPrefix, List.filterMap_map, ← List.filterMap_eq_filter]
  apply List.filterMap_congr
  intro pair _
  simp only [Function.comp_apply, Item.ofPair, Option.guard]

theorem filterItemsByPrefix_counters {counters : List Item} (stem : Bytes)
    (h : ∀ item ∈ counters, item.val = none) : filterItemsByPrefix counters stem = [] := by
  apply List.filterMap_eq_nil_iff.mpr
  rintro ⟨pk, val, cnt⟩ hitem
  obtain rfl : val = none := h _ hitem
  cases pk with
  | none => rfl
  | some attr => cases attr <;> rfl

theorem dynamoPrefixIter_eq (stem : Bytes) (pages : List (List Item)) :
    dynamoPrefixIter stem pages = filterItemsByPrefix pages.flatten stem := by
  simp only [dynamoPrefixIter, filterItemsByPrefix, List.filterMap_flatten, List.flatMap]

/-- A delivery of encoded rows, in whatever order, is an encoding of the rows. -/
theorem exists_map_of_perm {α β : Type} (f : α → β) {delivered : List β} {rows : List α}
    (h : delivered.Perm (rows.map f)) :
    ∃ rows' : List α, delivered = rows'.map f ∧ rows'.Perm rows := by
  have hcomp : Relation.Comp (fun l₁ l₂ => l₁ = List.map f l₂) List.Perm delivered rows := by
    rw [List.eq_map_comp_perm]
    exact h
  exact hcomp

theorem exact_firestore {db : Database} {ks : Keyspace} {stem : Bytes} {docs : List FirestoreDoc}
    (h : (Delivery.firestore docs).Complete db ks stem) : Exact db ks stem (.firestore docs) := by
  obtain ⟨pairs, rfl, hpairs⟩ := exists_map_of_perm _ h
  exact ⟨_, firestorePrefixIter_pairs stem pairs, hpairs.filter _⟩

theorem exact_dynamodb {db : Database} {ks : Keyspace} {stem : Bytes} {pages : List (List Item)}
    (h : (Delivery.dynamodb pages).Complete db ks stem) : Exact db ks stem (.dynamodb pages) := by
  obtain ⟨counters, hcounters, hpages⟩ := h
  refine ⟨_, rfl, ?_⟩
  have hfiltered : (filterItemsByPrefix pages.flatten stem).Perm
      (filterItemsByPrefix ((db.pairs ks).map .ofPair ++ counters) stem) :=
    hpages.filterMap _
  have hrows : filterItemsByPrefix ((db.pairs ks).map .ofPair ++ counters) stem =
      db.withPrefix ks stem := by
    have happend : filterItemsByPrefix ((db.pairs ks).map .ofPair ++ counters) stem =
        filterItemsByPrefix ((db.pairs ks).map .ofPair) stem ++
          filterItemsByPrefix counters stem := List.filterMap_append
    rw [happend, filterItemsByPrefix_pairs, filterItemsByPrefix_counters stem hcounters,
      List.append_nil]
    rfl
  rw [dynamoPrefixIter_eq, ← hrows]
  exact hfiltered

/-! ## Cosmos DB -/

/-- The query finds the document of a key. -/
def CosmosFinds (stem key : Bytes) : Prop :=
  stem = [] ∨ Base64.Continues stem key

theorem cosmosQuery_ofPair (stem : Bytes) (pair : Bytes × Bytes) :
    cosmosQuery stem (.ofPair pair) = true ↔ CosmosFinds stem pair.1 := by
  simp only [cosmosQuery, CosmosDoc.ofPair, decide_true, Bool.true_and, Bool.or_eq_true,
    List.isEmpty_iff, List.isPrefixOf_iff_prefix, Base64.encode_isPrefix_iff, CosmosFinds]

/-- The scan returns the rows the query finds. -/
theorem exact_cosmosdb_iff {db : Database} {ks : Keyspace} {stem : Bytes}
    {docs : List CosmosDoc} (h : (Delivery.cosmosdb docs).Complete db ks stem) :
    Exact db ks stem (.cosmosdb docs) ↔
      ∀ key value, db.lookup (ks, key) = some value → stem <+: key → CosmosFinds stem key := by
  have hfound : ((db.pairs ks).map CosmosDoc.ofPair).filter (cosmosQuery stem) =
      ((db.pairs ks).filter fun pair => cosmosQuery stem (.ofPair pair)).map .ofPair := by
    rw [List.filter_map]
    rfl
  have hdocs := h
  simp only [Delivery.Complete, hfound] at hdocs
  obtain ⟨pairs, rfl, hpairs⟩ := exists_map_of_perm _ hdocs
  -- what the loop keeps of the pairs the query found
  have hkept : (pairs.filter fun pair => stem.isPrefixOf pair.1).Perm
      ((db.withPrefix ks stem).filter fun pair => cosmosQuery stem (.ofPair pair)) := by
    have hfilter := hpairs.filter fun pair => stem.isPrefixOf pair.1
    rw [List.filter_comm] at hfilter
    exact hfilter
  have hresult : ∀ result, prefixIterRaw db ks stem (.cosmosdb (pairs.map .ofPair)) = some result →
      result.Perm ((db.withPrefix ks stem).filter fun pair => cosmosQuery stem (.ofPair pair)) := by
    intro result hresult
    have heq : some (pairs.filter fun pair => stem.isPrefixOf pair.1) = some result :=
      (cosmosPrefixIter_pairs stem pairs).symm.trans hresult
    exact Option.some.inj heq ▸ hkept
  constructor
  · rintro ⟨result, hsome, hexact⟩ key value hkey hprefix
    have hmem : (key, value) ∈ db.withPrefix ks stem :=
      mem_withPrefix.mpr ⟨hkey, List.isPrefixOf_iff_prefix.mpr hprefix⟩
    have hquery := ((hexact.symm.trans (hresult result hsome)).subset hmem)
    exact (cosmosQuery_ofPair stem (key, value)).mp (List.mem_filter.mp hquery).2
  · intro hfinds
    refine ⟨_, cosmosPrefixIter_pairs stem pairs, ?_⟩
    have hall : (db.withPrefix ks stem).filter (fun pair => cosmosQuery stem (.ofPair pair)) =
        db.withPrefix ks stem := by
      apply List.filter_eq_self.mpr
      rintro ⟨key, value⟩ hpair
      obtain ⟨hkey, hprefix⟩ := mem_withPrefix.mp hpair
      exact (cosmosQuery_ofPair stem (key, value)).mpr
        (hfinds key value hkey (List.isPrefixOf_iff_prefix.mp hprefix))
    rw [← hall]
    exact hkept

/-! ## Redis -/

theorem redisGet_fullKey (db : Database) (ks : Keyspace) (key : Bytes) :
    redisGet db (fullKey ks key) = db.lookup (ks, key) := by
  unfold redisGet
  cases hfind : (Table.rows db).find? fun row => fullKey row.1.1 row.1.2 = fullKey ks key with
  | none =>
    rw [List.find?_eq_none] at hfind
    cases hlookup : db.lookup (ks, key) with
    | none => rfl
    | some value =>
      have hrow := hfind ((ks, key), value) (Table.mem_rows.mpr hlookup)
      simp at hrow
  | some row =>
    obtain ⟨⟨ks', key'⟩, value⟩ := row
    have hsame := List.find?_some hfind
    obtain ⟨rfl, rfl⟩ := fullKey_inj (of_decide_eq_true hsame)
    exact (Table.mem_rows.mp (List.mem_of_find?_eq_some hfind)).symm

theorem not_special_keyPrefix (ks : Keyspace) : ∀ b ∈ keyPrefix ks, Glob.special b = false := by
  have hall : (keyPrefix ks).all (fun b => !Glob.special b) = true := by
    cases ks <;> decide
  intro b hb
  simpa using List.all_eq_true.mp hall b hb

theorem scanPattern_fullKey (ks : Keyspace) (stem : Bytes) :
    Glob.scanPattern (fullKey ks stem) =
      (keyPrefix ks).map .byte ++ Glob.scanPattern stem := by
  rw [Glob.scanPattern, fullKey, List.append_assoc,
    Glob.tokens_literal _ (not_special_keyPrefix ks)]
  rfl

/-- The keys a scan delivers: the stored keys of its keyspace that the pattern
of the prefix matches.  The name in front keeps the other keyspaces out. -/
theorem mem_delivered {db : Database} {ks : Keyspace} {stem : Bytes} {keys : List Bytes}
    (h : (Delivery.redis keys).Complete db ks stem) (full : Bytes) :
    full ∈ keys ↔ ∃ key value, full = fullKey ks key ∧ db.lookup (ks, key) = some value ∧
      Glob.covers (Glob.scanPattern stem) key = true := by
  rw [h full, scanPattern_fullKey]
  constructor
  · rintro ⟨hcovers, ks', key, value, hrow, rfl⟩
    obtain ⟨rest, hrest⟩ := Glob.isPrefix_of_covers hcovers
    have hfull : fullKey ks rest = fullKey ks' key := hrest
    obtain ⟨rfl, rfl⟩ := fullKey_inj hfull
    rw [fullKey, Glob.covers_literal] at hcovers
    exact ⟨_, value, rfl, hrow, hcovers⟩
  · rintro ⟨key, value, rfl, hrow, hcovers⟩
    refine ⟨?_, ks, key, value, hrow, rfl⟩
    rw [fullKey, Glob.covers_literal]
    exact hcovers

/-- The value stored under a key. -/
def storedValue (db : Database) (ks : Keyspace) (key : Bytes) : Bytes :=
  (db.lookup (ks, key)).getD []

/-- The scan returns each delivered key with its value. -/
theorem redisPrefixIter_eq (db : Database) (ks : Keyspace) (names : List Bytes)
    (h : ∀ key ∈ names, (db.lookup (ks, key)).isSome = true) :
    redisPrefixIter db ks (names.map (fullKey ks)) =
      names.map fun key => (key, storedValue db ks key) := by
  induction names with
  | nil => rfl
  | cons key names ih =>
    obtain ⟨value, hvalue⟩ := Option.isSome_iff_exists.mp (h key List.mem_cons_self)
    have hrest := ih fun k hk => h k (List.mem_cons_of_mem key hk)
    have hdrop : (fullKey ks key).drop (keyPrefix ks).length = key := List.drop_left
    simp only [redisPrefixIter] at hrest ⊢
    simp only [List.map_cons, List.zip_cons_cons, List.filterMap_cons, redisGet_fullKey, hvalue,
      Option.map_some, hdrop, hrest, storedValue, Option.getD_some]

/-- A scan on Redis is exact when it delivers no key twice and the pattern
matches the stored keys that start with the prefix and no others. -/
theorem exact_redis_iff {db : Database} {ks : Keyspace} {stem : Bytes} {keys : List Bytes}
    (h : (Delivery.redis keys).Complete db ks stem) :
    Exact db ks stem (.redis keys) ↔ keys.Nodup ∧
      ∀ key value, db.lookup (ks, key) = some value →
        Glob.covers (Glob.scanPattern stem) key = stem.isPrefixOf key := by
  obtain ⟨names, rfl⟩ : ∃ names : List Bytes, keys = names.map (fullKey ks) := by
    refine ⟨keys.map (List.drop (keyPrefix ks).length), ?_⟩
    rw [List.map_map]
    refine (List.map_id keys).symm.trans (List.map_congr_left fun full hfull => ?_)
    obtain ⟨key, value, rfl, -⟩ := (mem_delivered h full).mp hfull
    simp only [id_eq, Function.comp_apply, fullKey, List.drop_left]
  have hinjective : Function.Injective (fullKey ks) := fun _ _ heq => (fullKey_inj heq).2
  have hnames : ∀ key, key ∈ names ↔ ∃ value, db.lookup (ks, key) = some value ∧
      Glob.covers (Glob.scanPattern stem) key = true := by
    intro key
    rw [← List.mem_map_of_injective hinjective, mem_delivered h]
    constructor
    · rintro ⟨key', value, hkey, hrow, hcovers⟩
      obtain rfl := hinjective hkey
      exact ⟨value, hrow, hcovers⟩
    · rintro ⟨value, hrow, hcovers⟩
      exact ⟨key, value, rfl, hrow, hcovers⟩
  have hresult : redisPrefixIter db ks (names.map (fullKey ks)) =
      names.map fun key => (key, storedValue db ks key) := by
    apply redisPrefixIter_eq
    intro key hkey
    obtain ⟨value, hrow, -⟩ := (hnames key).mp hkey
    rw [hrow]
    rfl
  have hmem : ∀ key value, (key, value) ∈ names.map (fun key => (key, storedValue db ks key)) ↔
      db.lookup (ks, key) = some value ∧ Glob.covers (Glob.scanPattern stem) key = true := by
    intro key value
    constructor
    · intro hpair
      obtain ⟨key', hkey', heq⟩ := List.mem_map.mp hpair
      obtain ⟨rfl, rfl⟩ := Prod.mk.inj heq
      obtain ⟨value, hrow, hcovers⟩ := (hnames key').mp hkey'
      refine ⟨?_, hcovers⟩
      rw [storedValue, hrow, Option.getD_some]
    · rintro ⟨hrow, hcovers⟩
      refine List.mem_map.mpr ⟨key, (hnames key).mpr ⟨value, hrow, hcovers⟩, ?_⟩
      rw [storedValue, hrow, Option.getD_some]
  have hpairs : (names.map fun key => (key, storedValue db ks key)).Nodup ↔ names.Nodup :=
    List.nodup_map_iff fun _ _ heq => (Prod.mk.inj heq).1
  rw [List.nodup_map_iff hinjective, ← hpairs]
  constructor
  · rintro ⟨result, hsome, hexact⟩
    obtain rfl := Option.some.inj hsome
    rw [hresult] at hexact
    refine ⟨hexact.nodup_iff.mpr (db.nodup_withPrefix ks stem), ?_⟩
    intro key value hrow
    have hboth := (hmem key value).symm.trans (hexact.mem_iff.trans mem_withPrefix)
    simp only [hrow, true_and] at hboth
    exact Bool.eq_iff_iff.mpr hboth
  · rintro ⟨hnodup, hfinds⟩
    refine ⟨_, rfl, ?_⟩
    rw [hresult]
    refine (List.perm_ext_iff_of_nodup hnodup (db.nodup_withPrefix ks stem)).mpr ?_
    rintro ⟨key, value⟩
    rw [hmem, mem_withPrefix]
    constructor
    · rintro ⟨hrow, hcovers⟩
      exact ⟨hrow, (hfinds key value hrow).symm.trans hcovers⟩
    · rintro ⟨hrow, hprefix⟩
      exact ⟨hrow, (hfinds key value hrow).trans hprefix⟩

/-! ## Which scans are exact -/

/-- No row was delivered twice.  Only a Redis scan may do that. -/
def Delivery.Once : Delivery → Prop
  | .redis keys => keys.Nodup
  | _ => True

/-- What the backend asks its service about a stored key is whether the key
starts with the prefix. -/
def StoreBackend.Finds (stem key : Bytes) : StoreBackend → Prop
  | .redis => Glob.covers (Glob.scanPattern stem) key = stem.isPrefixOf key
  | .cosmosdb => stem <+: key → CosmosFinds stem key
  | _ => True

/-- The prefixes a backend is exact for, whatever is stored: on Redis those
without a byte that means something in a pattern, on Cosmos DB those of whole
groups of three bytes. -/
def StoreBackend.Serves (stem : Bytes) : StoreBackend → Prop
  | .redis => ∀ b ∈ stem, Glob.special b = false
  | .cosmosdb => stem.length % 3 = 0
  | _ => True

/-- The rows in the order of the store. -/
def Delivery.inOrder (db : Database) (ks : Keyspace) (stem : Bytes) : StoreBackend → Delivery
  | .redis => .redis (((Table.rows db).map fun row => fullKey row.1.1 row.1.2).filter
      (Glob.covers (Glob.scanPattern (fullKey ks stem))))
  | .dynamodb => .dynamodb [(db.pairs ks).map .ofPair]
  | .firestore => .firestore ((db.pairs ks).map .ofPair)
  | .cosmosdb => .cosmosdb (((db.pairs ks).map .ofPair).filter (cosmosQuery stem))
  | .fjall => .fjall (db.withPrefix ks stem)

@[simp] theorem Delivery.backend_inOrder (db : Database) (ks : Keyspace) (stem : Bytes)
    (b : StoreBackend) : (Delivery.inOrder db ks stem b).backend = b := by
  cases b <;> rfl

theorem Delivery.complete_inOrder (db : Database) (ks : Keyspace) (stem : Bytes)
    (b : StoreBackend) : (Delivery.inOrder db ks stem b).Complete db ks stem := by
  cases b with
  | redis =>
    intro full
    rw [List.mem_filter, and_comm]
    refine and_congr_right fun _ => ?_
    constructor
    · intro hmem
      obtain ⟨⟨⟨ks', key⟩, value⟩, hrow, rfl⟩ := List.mem_map.mp hmem
      exact ⟨ks', key, value, Table.mem_rows.mp hrow, rfl⟩
    · rintro ⟨ks', key, value, hrow, rfl⟩
      exact List.mem_map.mpr ⟨((ks', key), value), Table.mem_rows.mpr hrow, rfl⟩
  | dynamodb =>
    refine ⟨[], by simp, ?_⟩
    simp [List.flatten]
  | firestore => exact List.Perm.refl _
  | cosmosdb => exact List.Perm.refl _
  | fjall => exact List.Perm.refl _

theorem Delivery.once_inOrder (db : Database) (ks : Keyspace) (stem : Bytes)
    (b : StoreBackend) : (Delivery.inOrder db ks stem b).Once := by
  cases b with
  | redis =>
    have hrows : ((Table.rows db).map fun row => fullKey row.1.1 row.1.2).Nodup := by
      have hkeys : (Table.rows db).map (fun row => fullKey row.1.1 row.1.2) =
          ((Table.rows db).map (·.1)).map fun k => fullKey k.1 k.2 := by
        rw [List.map_map]
        rfl
      rw [hkeys]
      refine (Table.keys_rows_nodup db).map ?_
      rintro ⟨ks₁, key₁⟩ ⟨ks₂, key₂⟩ heq
      obtain ⟨rfl, rfl⟩ := fullKey_inj heq
      rfl
    exact hrows.filter _
  | dynamodb | firestore | cosmosdb | fjall => trivial

theorem exact_iff {db : Database} {ks : Keyspace} {stem : Bytes} {delivery : Delivery}
    (h : delivery.Complete db ks stem) :
    Exact db ks stem delivery ↔ delivery.Once ∧
      ∀ key value, db.lookup (ks, key) = some value → delivery.backend.Finds stem key := by
  cases delivery with
  | redis keys => exact exact_redis_iff h
  | cosmosdb docs =>
    rw [exact_cosmosdb_iff h]
    exact ⟨fun hfinds => ⟨trivial, hfinds⟩, fun hboth => hboth.2⟩
  | dynamodb pages => exact iff_of_true (exact_dynamodb h) ⟨trivial, fun _ _ _ => trivial⟩
  | firestore docs => exact iff_of_true (exact_firestore h) ⟨trivial, fun _ _ _ => trivial⟩
  | fjall pairs => exact iff_of_true ⟨pairs, rfl, h⟩ ⟨trivial, fun _ _ _ => trivial⟩

/-- A prefix a backend serves, it serves over every stored key. -/
theorem StoreBackend.serves_iff (stem : Bytes) (b : StoreBackend) :
    b.Serves stem ↔ ∀ key, b.Finds stem key := by
  cases b with
  | redis => exact (Glob.scan_exact_iff stem).symm
  | cosmosdb =>
    constructor
    · intro h key hprefix
      exact .inr (Base64.continues_of_isPrefix h hprefix)
    · intro h
      rcases h (stem ++ [255]) (List.prefix_append stem [255]) with rfl | heq | hnext
      · rfl
      · simp at heq
      · obtain ⟨next, rest, heq, hjoins⟩ := hnext
        obtain rfl : (255 : UInt8) = next := (List.cons.inj (List.append_cancel_left heq)).1
        simp only [Base64.joins] at hjoins
        change stem.length % 3 = 0
        by_contra hne
        have hcases : stem.length % 3 = 1 ∨ stem.length % 3 = 2 := by omega
        rcases hcases with hone | htwo
        · rw [hone] at hjoins
          exact absurd hjoins (by decide)
        · rw [htwo] at hjoins
          exact absurd hjoins (by decide)
  | dynamodb | firestore | fjall => exact iff_of_true trivial fun _ => trivial

/-- A prefix scan returns the stored pairs whose key starts with the prefix,
each once, exactly when its backend finds each of these keys and no other and
is delivered none of them twice; and a backend serves a prefix exactly when
that is so in every store. -/
theorem prefix_scan_exact_iff (db : Database) (ks : Keyspace) (stem : Bytes)
    (delivery : Delivery) (hcomplete : delivery.Complete db ks stem) :
    (Exact db ks stem delivery ↔ delivery.Once ∧
      ∀ key value, db.lookup (ks, key) = some value → delivery.backend.Finds stem key) ∧
    (delivery.backend.Serves stem ↔ ∀ (db' : Database) (delivery' : Delivery),
      delivery'.backend = delivery.backend → delivery'.Complete db' ks stem →
        delivery'.Once → Exact db' ks stem delivery') := by
  refine ⟨exact_iff hcomplete, ?_⟩
  rw [StoreBackend.serves_iff]
  constructor
  · intro hfinds db' delivery' hbackend hcomplete' honce
    rw [exact_iff hcomplete', hbackend]
    exact ⟨honce, fun key _ _ => hfinds key⟩
  · intro hexact key
    have hone := hexact (single ks key []) (.inOrder (single ks key []) ks stem delivery.backend)
      (Delivery.backend_inOrder _ _ _ _) (Delivery.complete_inOrder _ _ _ _)
      (Delivery.once_inOrder _ _ _ _)
    have hkeys := ((exact_iff (Delivery.complete_inOrder _ _ _ _)).mp hone).2 key []
      (AList.lookup_insert _)
    rwa [Delivery.backend_inOrder] at hkeys

/-- Two agent names of `h`, one of `k`, and a record. -/
def hostNames : Database :=
  [("name:h:al", 1), ("name:k:al", 2), ("did:al", 3), ("name:h:bo", 4)].foldl
    (fun db (key, value) => db.insert (.dids, ascii key) [value]) ∅

/-- The scan of the agent names of a host on Redis. -/
theorem prefix_scan_exact_iff_name :
    let delivery := Delivery.redis [ascii "dids:name:h:bo", ascii "dids:name:h:al"]
    Exact hostNames .dids (ascii "name:h:") delivery ∧
      prefixIterRaw hostNames .dids (ascii "name:h:") delivery =
        some [(ascii "name:h:bo", [4]), (ascii "name:h:al", [1])] := by
  have ⟨horder, hall, honce, hresult⟩ :
      Delivery.inOrder hostNames .dids (ascii "name:h:") .redis =
        .redis [ascii "dids:name:h:bo", ascii "dids:name:h:al"] ∧
      (ascii "name:h:").all (fun b => !Glob.special b) = true ∧
      [ascii "dids:name:h:bo", ascii "dids:name:h:al"].Nodup ∧
      prefixIterRaw hostNames .dids (ascii "name:h:")
        (.redis [ascii "dids:name:h:bo", ascii "dids:name:h:al"]) =
          some [(ascii "name:h:bo", [4]), (ascii "name:h:al", [1])] := by
    decide +kernel
  have hcomplete : (Delivery.redis [ascii "dids:name:h:bo", ascii "dids:name:h:al"]).Complete
      hostNames .dids (ascii "name:h:") := by
    rw [← horder]
    exact Delivery.complete_inOrder _ _ _ _
  refine ⟨(prefix_scan_exact_iff _ _ _ _ hcomplete).2.mp ?_ _ _ rfl hcomplete honce, hresult⟩
  intro b hb
  simpa using List.all_eq_true.mp hall b hb

/-- The records on Cosmos DB: "did:" ends inside a group of three bytes, and the
query finds no document of a record. -/
theorem cosmos_scan_misses_records :
    (Delivery.cosmosdb []).Complete (single .dids (ascii "did:al") [1]) .dids (ascii "did:") ∧
    prefixIterRaw (single .dids (ascii "did:al") [1]) .dids (ascii "did:") (.cosmosdb []) =
      some [] ∧
    (single .dids (ascii "did:al") [1]).withPrefix .dids (ascii "did:") =
      [(ascii "did:al", [1])] ∧
    ¬Exact (single .dids (ascii "did:al") [1]) .dids (ascii "did:") (.cosmosdb []) := by
  have hcomplete : (Delivery.cosmosdb []).Complete (single .dids (ascii "did:al") [1]) .dids
      (ascii "did:") := by
    have horder : Delivery.inOrder (single .dids (ascii "did:al") [1]) .dids (ascii "did:")
        .cosmosdb = .cosmosdb [] := by decide +kernel
    rw [← horder]
    exact Delivery.complete_inOrder _ _ _ _
  have hrow : (single .dids (ascii "did:al") [1]).withPrefix .dids (ascii "did:") =
      [(ascii "did:al", [1])] := by decide +kernel
  refine ⟨hcomplete, rfl, hrow, ?_⟩
  rintro ⟨result, hresult, hexact⟩
  obtain rfl : [] = result := Option.some.inj hresult
  rw [hrow] at hexact
  exact absurd hexact.length_eq (by decide)

end DidHosting.Backend
