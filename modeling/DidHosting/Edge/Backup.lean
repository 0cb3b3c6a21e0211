import DidHosting.Common.Reference
import DidHosting.Store.Batch
import DidHosting.Support.RowWrites

/-!
# Backup and restore of an edge

`run_backup` writes the rows of nine keyspaces as text, and `run_restore` writes them back,
a thousand rows to a batch.  The keyspaces an edge opens are more than these nine, and a
batch is committed before the next one is decoded.
-/

namespace DidHosting

namespace Backup

open Backend

/-! ## The store -/

/-- The keyspaces an edge writes. -/
def edgeKeyspaces : List Keyspace :=
  [.dids, .stats, .domains, .assignments, .pendingPurges, .registry, .timeseries, .metaRows,
    .witnesses, .identity, .tspRelationships]

abbrev EdgeStore :=
  { db : Database // ∀ ks key, ks ∉ edgeKeyspaces → db.lookup (ks, key) = none }

/-! ## The file -/

structure KvEntry where
  key : String
  value : String
deriving DecidableEq, Repr

structure BackupKeyspaces where
  dids : List KvEntry
  stats : List KvEntry
  domains : List KvEntry
  assignments : List KvEntry
  pendingPurges : List KvEntry
  registry : List KvEntry
  timeseries : List KvEntry
  metaRows : List KvEntry
  witnesses : List KvEntry
deriving DecidableEq, Repr

structure BackupFile where
  version : ℕ
  createdAt : String
  serverVersion : String
  config : String
  keyspaces : BackupKeyspaces
deriving DecidableEq, Repr

def backupVersion : ℕ := 3

def encodePairs (pairs : List (Bytes × Bytes)) : List KvEntry :=
  pairs.map fun p => ⟨String.ofList (Base64.encode p.1), String.ofList (Base64.encode p.2)⟩

/-- What `run_backup` writes; `iter_all` gives the pairs of a keyspace. -/
def runBackup (config createdAt serverVersion : String) (s : Database) : BackupFile where
  version := backupVersion
  createdAt := createdAt
  serverVersion := serverVersion
  config := config
  keyspaces :=
    { dids := encodePairs (s.pairs .dids)
      stats := encodePairs (s.pairs .stats)
      domains := encodePairs (s.pairs .domains)
      assignments := encodePairs (s.pairs .assignments)
      pendingPurges := encodePairs (s.pairs .pendingPurges)
      registry := encodePairs (s.pairs .registry)
      timeseries := encodePairs (s.pairs .timeseries)
      metaRows := encodePairs (s.pairs .metaRows)
      witnesses := encodePairs (s.pairs .witnesses) }

/-! ### Its JSON -/

def KvEntry.toJson (e : KvEntry) : Json :=
  .obj [("key", .str e.key), ("value", .str e.value)]

/-- The JSON of the entries of a keyspace. -/
def entriesJson (entries : List KvEntry) : Json :=
  .arr (entries.map KvEntry.toJson)

def BackupKeyspaces.toJson (b : BackupKeyspaces) : Json :=
  .obj [("dids", entriesJson b.dids), ("stats", entriesJson b.stats),
    ("domains", entriesJson b.domains), ("assignments", entriesJson b.assignments),
    ("pending_purges", entriesJson b.pendingPurges), ("registry", entriesJson b.registry),
    ("timeseries", entriesJson b.timeseries), ("meta", entriesJson b.metaRows),
    ("witnesses", entriesJson b.witnesses)]

def BackupFile.toJson (b : BackupFile) : Json :=
  .obj [("version", .num (.posInt b.version)), ("created_at", .str b.createdAt),
    ("server_version", .str b.serverVersion), ("config", .str b.config),
    ("keyspaces", b.keyspaces.toJson)]

def readEntry (v : Json) : Option KvEntry := do
  let key ← (v.get "key").bind Json.asStr
  let value ← (v.get "value").bind Json.asStr
  return ⟨key, value⟩

/-- Read the entries of a keyspace. -/
def readEntries (v : Json) : Option (List KvEntry) :=
  v.asArray.bind fun items => items.mapM readEntry

/-- Read a keyspace that every version has. -/
def requiredKeyspace (v : Json) (ks : Keyspace) : Option (List KvEntry) :=
  (v.get ks.name).bind readEntries

/-- Read a keyspace with `#[serde(default)]`. -/
def defaultKeyspace (v : Json) (ks : Keyspace) : Option (List KvEntry) :=
  match v.get ks.name with
  | none => some []
  | some entries => readEntries entries

def readKeyspaces (v : Json) : Option BackupKeyspaces := do
  let dids ← requiredKeyspace v .dids
  let stats ← requiredKeyspace v .stats
  let domains ← defaultKeyspace v .domains
  let assignments ← defaultKeyspace v .assignments
  let pendingPurges ← defaultKeyspace v .pendingPurges
  let registry ← defaultKeyspace v .registry
  let timeseries ← defaultKeyspace v .timeseries
  let metaRows ← defaultKeyspace v .metaRows
  let witnesses ← defaultKeyspace v .witnesses
  return ⟨dids, stats, domains, assignments, pendingPurges, registry, timeseries, metaRows,
    witnesses⟩

/-- Read the version, a `u32`. -/
def readVersion (v : Json) : Option ℕ :=
  v.asU64.filter (· < 2 ^ 32)

def readBackup (v : Json) : Option BackupFile := do
  let version ← (v.get "version").bind readVersion
  let createdAt ← (v.get "created_at").bind Json.asStr
  let serverVersion ← (v.get "server_version").bind Json.asStr
  let config ← (v.get "config").bind Json.asStr
  let keyspaces ← (v.get "keyspaces").bind readKeyspaces
  return ⟨version, createdAt, serverVersion, config, keyspaces⟩

/-! ## Restoring -/

/-- Why a restore stops. -/
inductive RestoreError where
  | invalidJson
  | newerVersion (version : ℕ)
  | unsupportedVersion (version : ℕ)
  | config (message : String)
  | invalidKey
  | invalidValue
deriving DecidableEq, Repr

/-- `serde_json`, and what becomes of the configuration in a backup: it is parsed, written
to `config.toml` and loaded. -/
structure BackupLibs where
  fromStr : String → Except String Json
  toStringPretty : Json → String
  installConfig : String → Except String Unit

def decodeEntry (e : KvEntry) : Except RestoreError (Bytes × Bytes) :=
  match Base64.decode e.key.toList with
  | none => .error .invalidKey
  | some key =>
      match Base64.decode e.value.toList with
      | none => .error .invalidValue
      | some value => .ok (key, value)

/-- The batches of `restore_keyspace`. -/
def restoreChunks (ks : Keyspace) :
    List (List KvEntry) → Database → Except RestoreError Unit × Database
  | [], s => (.ok (), s)
  | chunk :: rest, s =>
      match chunk.mapM decodeEntry with
      | .error e => (.error e, s)
      | .ok pairs => restoreChunks ks rest (applyAll s (pairs.map fun p => .insert ks p.1 p.2))

def restoreKeyspace (ks : Keyspace) (entries : List KvEntry) (s : Database) :
    Except RestoreError ℕ × Database :=
  match restoreChunks ks (chunks 1000 entries) s with
  | (.error e, s) => (.error e, s)
  | (.ok (), s) => (.ok entries.length, s)

/-- The keyspaces in the order they are restored. -/
def BackupKeyspaces.parts (b : BackupKeyspaces) : List (Keyspace × List KvEntry) :=
  [(.dids, b.dids), (.stats, b.stats), (.domains, b.domains), (.assignments, b.assignments),
    (.pendingPurges, b.pendingPurges), (.registry, b.registry), (.timeseries, b.timeseries),
    (.metaRows, b.metaRows), (.witnesses, b.witnesses)]

/-- Restore the keyspaces one after another. -/
def restoreParts : List (Keyspace × List KvEntry) → Database → Except RestoreError ℕ × Database
  | [], s => (.ok 0, s)
  | (ks, entries) :: rest, s =>
      match restoreKeyspace ks entries s with
      | (.error e, s) => (.error e, s)
      | (.ok count, s) => ((restoreParts rest s).1.map (count + ·), (restoreParts rest s).2)

/-- `run_restore`, into the store that the configuration opens. -/
def runRestore (B : BackupLibs) (text : String) (s : Database) :
    Except RestoreError ℕ × Database :=
  match (B.fromStr text).toOption.bind readBackup with
  | none => (.error .invalidJson, s)
  | some backup =>
      if backupVersion < backup.version then (.error (.newerVersion backup.version), s)
      else if backup.version < 1 then (.error (.unsupportedVersion backup.version), s)
      else
        match B.installConfig backup.config with
        | .error e => (.error (.config e), s)
        | .ok () => restoreParts backup.keyspaces.parts s

/-! ## What a restore writes -/

/-- An entry that does not decode. -/
def Malformed (e : KvEntry) : Prop :=
  ∀ row, decodeEntry e ≠ .ok row

/-- The rows of some entries of a keyspace. -/
def rowsOf (part : Keyspace × List KvEntry) : List ((Keyspace × Bytes) × Bytes) :=
  part.2.filterMap fun e =>
    (decodeEntry e).toOption.map fun row => ((part.1, row.1), row.2)

/-- The chunks of a file, in the order they are written. -/
def chunksOf (parts : List (Keyspace × List KvEntry)) : List (Keyspace × List KvEntry) :=
  parts.flatMap fun part => (chunks 1000 part.2).map fun chunk => (part.1, chunk)

/-- A chunk without a malformed entry. -/
def Readable (chunk : Keyspace × List KvEntry) : Bool :=
  chunk.2.all fun e => (decodeEntry e).isOk

/-- The rows of the chunks before the first one with a malformed entry. -/
def rowsBefore (parts : List (Keyspace × List KvEntry)) : List ((Keyspace × Bytes) × Bytes) :=
  ((chunksOf parts).takeWhile Readable).flatMap rowsOf

/-! ### Chunks -/

theorem applyAll_inserts (ks : Keyspace) (pairs : List (Bytes × Bytes)) (s : Database) :
    applyAll s (pairs.map fun p => .insert ks p.1 p.2) =
      Table.write (pairs.map fun p => ((ks, p.1), p.2)) s := by
  unfold applyAll Table.write
  rw [List.foldl_map, List.foldl_map]
  rfl

theorem rowsOf_of_mapM (ks : Keyspace) {chunk : List KvEntry} {pairs : List (Bytes × Bytes)}
    (h : chunk.mapM decodeEntry = .ok pairs) :
    Readable (ks, chunk) = true ∧
      rowsOf (ks, chunk) = pairs.map fun p => ((ks, p.1), p.2) := by
  induction chunk generalizing pairs with
  | nil =>
      cases h
      exact ⟨rfl, rfl⟩
  | cons e rest ih =>
      rw [List.mapM_cons] at h
      obtain ⟨pair, hpair, h⟩ := bind_eq_ok h
      obtain ⟨more, hmore, h⟩ := bind_eq_ok h
      cases h
      obtain ⟨hread, hrows⟩ := ih hmore
      constructor
      · simpa [Readable, hpair, Except.isOk, Except.toBool] using hread
      · simpa [rowsOf, hpair, Except.toOption] using hrows

theorem not_readable_of_mapM (ks : Keyspace) {chunk : List KvEntry} {e : RestoreError}
    (h : chunk.mapM decodeEntry = .error e) : Readable (ks, chunk) = false := by
  induction chunk with
  | nil => cases h
  | cons entry rest ih =>
      rw [List.mapM_cons] at h
      rcases bind_eq_error h with hentry | ⟨pair, hpair, h⟩
      · simp [Readable, hentry, Except.isOk, Except.toBool]
      · rcases bind_eq_error h with hrest | ⟨more, -, h⟩
        · have hread := ih hrest
          simp only [Readable] at hread ⊢
          simp [hread]
        · cases h

/-- What the batches of a keyspace write, and when they all get through. -/
theorem restoreChunks_spec (ks : Keyspace) (cs : List (List KvEntry)) (s : Database) :
    (restoreChunks ks cs s).2 =
        Table.write (((cs.map fun c => (ks, c)).takeWhile Readable).flatMap rowsOf) s ∧
      (restoreChunks ks cs s).1.isOk = (cs.map fun c => (ks, c)).all Readable := by
  induction cs generalizing s with
  | nil => exact ⟨rfl, rfl⟩
  | cons chunk rest ih =>
      rw [List.map_cons, List.takeWhile_cons, List.all_cons]
      cases hchunk : chunk.mapM decodeEntry with
      | error e =>
          have hread := not_readable_of_mapM ks hchunk
          simp only [restoreChunks, hchunk, hread]
          exact ⟨rfl, rfl⟩
      | ok pairs =>
          obtain ⟨hread, hrows⟩ := rowsOf_of_mapM ks hchunk
          obtain ⟨hstore, hok⟩ := ih (applyAll s (pairs.map fun p => .insert ks p.1 p.2))
          simp only [restoreChunks, hchunk, hread, if_true, Bool.true_and]
          refine ⟨?_, hok⟩
          rw [hstore, applyAll_inserts, List.flatMap_cons, hrows, Table.write_append]

theorem restoreKeyspace_spec (ks : Keyspace) (entries : List KvEntry) (s : Database) :
    (restoreKeyspace ks entries s).2 = (restoreChunks ks (chunks 1000 entries) s).2 ∧
      (restoreKeyspace ks entries s).1.isOk =
        (restoreChunks ks (chunks 1000 entries) s).1.isOk := by
  unfold restoreKeyspace
  split
  · rename_i hchunks
    rw [hchunks]
    exact ⟨rfl, rfl⟩
  · rename_i hchunks
    rw [hchunks]
    exact ⟨rfl, rfl⟩

theorem takeWhile_append_all {α : Type} {p : α → Bool} {xs : List α} (ys : List α)
    (h : xs.all p = true) :
    (xs ++ ys).takeWhile p = xs ++ ys.takeWhile p :=
  List.takeWhile_append_of_pos fun x hx => List.all_eq_true.mp h x hx

theorem takeWhile_append_not_all {α : Type} {p : α → Bool} {xs ys : List α}
    (h : xs.all p = false) : (xs ++ ys).takeWhile p = xs.takeWhile p := by
  induction xs with
  | nil => simp at h
  | cons x xs ih =>
      rw [List.cons_append, List.takeWhile_cons, List.takeWhile_cons]
      cases hx : p x with
      | false => rfl
      | true =>
          rw [List.all_cons, hx, Bool.true_and] at h
          simp only [if_true, ih h]

/-- A restore writes the rows of the chunks before the first one with a malformed entry. -/
theorem restoreParts_spec (parts : List (Keyspace × List KvEntry)) (s : Database) :
    (restoreParts parts s).2 = Table.write (rowsBefore parts) s ∧
      (restoreParts parts s).1.isOk = (chunksOf parts).all Readable := by
  induction parts generalizing s with
  | nil => exact ⟨rfl, rfl⟩
  | cons part rest ih =>
      obtain ⟨ks, entries⟩ := part
      obtain ⟨hstore, hok⟩ := restoreKeyspace_spec ks entries s
      obtain ⟨hstore', hok'⟩ := restoreChunks_spec ks (chunks 1000 entries) s
      rw [hstore'] at hstore
      rw [hok'] at hok
      have hsplit : chunksOf ((ks, entries) :: rest) =
          ((chunks 1000 entries).map fun c => (ks, c)) ++ chunksOf rest := rfl
      unfold rowsBefore
      rw [hsplit, List.all_append]
      cases hkeyspace : restoreKeyspace ks entries s with
      | mk outcome t =>
          rw [hkeyspace] at hstore hok
          simp only at hstore hok
          subst hstore
          cases outcome with
          | error e =>
              have hbad : ((chunks 1000 entries).map fun c => (ks, c)).all Readable = false :=
                hok.symm
              simp only [restoreParts, hkeyspace]
              rw [takeWhile_append_not_all hbad, hbad]
              exact ⟨rfl, rfl⟩
          | ok count =>
              have hgood : ((chunks 1000 entries).map fun c => (ks, c)).all Readable = true :=
                hok.symm
              have hall : ((chunks 1000 entries).map fun c => (ks, c)).takeWhile Readable =
                  (chunks 1000 entries).map fun c => (ks, c) := by
                simpa using takeWhile_append_all [] hgood
              rw [hall] at hkeyspace
              obtain ⟨hrest, hokrest⟩ := ih (Table.write
                (((chunks 1000 entries).map fun c => (ks, c)).flatMap rowsOf) s)
              simp only [restoreParts, hkeyspace]
              rw [hrest, takeWhile_append_all _ hgood, hgood, List.flatMap_append,
                Table.write_append, Bool.true_and, ← hokrest]
              refine ⟨rfl, ?_⟩
              cases (restoreParts rest _).1 <;> rfl

/-! ### Reading a file -/

/-- The keyspaces that a backup has. -/
def backedUp : List Keyspace :=
  [.dids, .stats, .domains, .assignments, .pendingPurges, .registry, .timeseries, .metaRows,
    .witnesses]

/-- The entries of a keyspace in a file that carries some keyspaces of a store. -/
def entriesOf (carried : Keyspace → Bool) (s : Database) (ks : Keyspace) : List KvEntry :=
  if carried ks then encodePairs (s.pairs ks) else []

/-- What is read from such a file. -/
def keyspacesOf (carried : Keyspace → Bool) (s : Database) : BackupKeyspaces where
  dids := entriesOf carried s .dids
  stats := entriesOf carried s .stats
  domains := entriesOf carried s .domains
  assignments := entriesOf carried s .assignments
  pendingPurges := entriesOf carried s .pendingPurges
  registry := entriesOf carried s .registry
  timeseries := entriesOf carried s .timeseries
  metaRows := entriesOf carried s .metaRows
  witnesses := entriesOf carried s .witnesses

/-- The file has the rows of the store in the keyspaces it carries, and no member for the
others.  Other members do not matter. -/
structure Carries (f : Json) (version : ℕ) (config : String) (carried : Keyspace → Bool)
    (s : Database) : Prop where
  version : f.get "version" = some (.num (.posInt version))
  createdAt : ∃ text, f.get "created_at" = some (.str text)
  serverVersion : ∃ text, f.get "server_version" = some (.str text)
  config : f.get "config" = some (.str config)
  required : carried .dids = true ∧ carried .stats = true
  keyspaces : ∃ v, f.get "keyspaces" = some v ∧ ∀ ks ∈ backedUp,
    v.get ks.name = if carried ks then some (entriesJson (encodePairs (s.pairs ks))) else none

theorem readEntry_toJson (e : KvEntry) : readEntry e.toJson = some e := rfl

theorem readEntries_entriesJson (entries : List KvEntry) :
    readEntries (entriesJson entries) = some entries := by
  have hmap : (entries.map KvEntry.toJson).mapM readEntry = some entries := by
    induction entries with
    | nil => rfl
    | cons e rest ih =>
        rw [List.map_cons, List.mapM_cons, readEntry_toJson, ih]
        rfl
  exact hmap

section Reading

variable {v : Json} {carried : Keyspace → Bool} {s : Database}

theorem defaultKeyspace_eq {ks : Keyspace}
    (h : v.get ks.name =
      if carried ks then some (entriesJson (encodePairs (s.pairs ks))) else none) :
    defaultKeyspace v ks = some (entriesOf carried s ks) := by
  unfold defaultKeyspace entriesOf
  rw [h]
  cases carried ks with
  | false => rfl
  | true => exact readEntries_entriesJson _

theorem requiredKeyspace_eq {ks : Keyspace} (hcarried : carried ks = true)
    (h : v.get ks.name =
      if carried ks then some (entriesJson (encodePairs (s.pairs ks))) else none) :
    requiredKeyspace v ks = some (entriesOf carried s ks) := by
  unfold requiredKeyspace entriesOf
  rw [h, hcarried]
  exact readEntries_entriesJson _

theorem readKeyspaces_eq (hrequired : carried .dids = true ∧ carried .stats = true)
    (h : ∀ ks ∈ backedUp, v.get ks.name =
      if carried ks then some (entriesJson (encodePairs (s.pairs ks))) else none) :
    readKeyspaces v = some (keyspacesOf carried s) := by
  have hdefault : ∀ ks ∈ backedUp, defaultKeyspace v ks = some (entriesOf carried s ks) :=
    fun ks hks => defaultKeyspace_eq (h ks hks)
  unfold readKeyspaces
  rw [requiredKeyspace_eq hrequired.1 (h .dids (by decide)),
    requiredKeyspace_eq hrequired.2 (h .stats (by decide)), hdefault .domains (by decide),
    hdefault .assignments (by decide), hdefault .pendingPurges (by decide),
    hdefault .registry (by decide), hdefault .timeseries (by decide),
    hdefault .metaRows (by decide), hdefault .witnesses (by decide)]
  rfl

theorem Carries.readBackup_eq {f : Json} {version : ℕ} {config : String}
    (h : Carries f version config carried s) (hversion : version ≤ backupVersion) :
    ∃ createdAt serverVersion, readBackup f =
      some ⟨version, createdAt, serverVersion, config, keyspacesOf carried s⟩ := by
  obtain ⟨createdAt, hcreated⟩ := h.createdAt
  obtain ⟨serverVersion, hserver⟩ := h.serverVersion
  obtain ⟨v, hv, hkeyspaces⟩ := h.keyspaces
  have hsmall : version < 2 ^ 32 := lt_of_le_of_lt hversion (by decide)
  have hread : readVersion (.num (.posInt version)) = some version := by
    simp only [readVersion, Json.asU64, Option.filter_eq_some_iff, decide_eq_true_eq]
    exact ⟨trivial, hsmall⟩
  refine ⟨createdAt, serverVersion, ?_⟩
  unfold readBackup
  rw [h.version, hcreated, hserver, h.config, hv, Option.bind_some, hread, Option.bind_some,
    Option.bind_some, Option.bind_some, Option.bind_some,
    readKeyspaces_eq h.required hkeyspaces]
  rfl

end Reading

theorem runBackup_carries (config createdAt serverVersion : String) (s : Database) :
    Carries (runBackup config createdAt serverVersion s).toJson backupVersion config
      (fun _ => true) s where
  version := rfl
  createdAt := ⟨createdAt, rfl⟩
  serverVersion := ⟨serverVersion, rfl⟩
  config := rfl
  required := ⟨rfl, rfl⟩
  keyspaces := by
    refine ⟨(runBackup config createdAt serverVersion s).keyspaces.toJson, rfl, ?_⟩
    intro ks hks
    cases ks
    all_goals first | rfl | exact absurd hks (by decide)

/-! ### Its rows -/

theorem decodeEntry_encode (key value : Bytes) :
    decodeEntry ⟨String.ofList (Base64.encode key), String.ofList (Base64.encode value)⟩ =
      .ok (key, value) := by
  simp [decodeEntry, Base64.decode_encode]

theorem readable_chunksOf {parts : List (Keyspace × List KvEntry)} :
    (chunksOf parts).all Readable = true ↔
      ∀ part ∈ parts, ∀ e ∈ part.2, (decodeEntry e).isOk = true := by
  have hpart : ∀ part : Keyspace × List KvEntry,
      (∀ c ∈ chunks 1000 part.2, Readable (part.1, c) = true) ↔
        ∀ e ∈ part.2, (decodeEntry e).isOk = true := by
    intro part
    have hmem : ∀ e, e ∈ part.2 ↔ ∃ c ∈ chunks 1000 part.2, e ∈ c := by
      intro e
      rw [← List.mem_flatten, flatten_chunks (by decide)]
    simp only [Readable, List.all_eq_true, hmem]
    exact ⟨fun h e ⟨c, hc, he⟩ => h c hc e he, fun h c hc e he => h e ⟨c, hc, he⟩⟩
  simp only [chunksOf, List.all_flatMap, List.all_map, List.all_eq_true, Function.comp_apply,
    hpart]

/-- Without a malformed entry all rows are written. -/
theorem rowsBefore_of_readable {parts : List (Keyspace × List KvEntry)}
    (h : (chunksOf parts).all Readable = true) : rowsBefore parts = parts.flatMap rowsOf := by
  have hall : (chunksOf parts).takeWhile Readable = chunksOf parts := by
    simpa using takeWhile_append_all [] h
  have hpart : ∀ part : Keyspace × List KvEntry,
      ((chunks 1000 part.2).map fun c => (part.1, c)).flatMap rowsOf = rowsOf part := by
    intro part
    have hrows : rowsOf part = rowsOf (part.1, (chunks 1000 part.2).flatten) := by
      rw [flatten_chunks (by decide)]
    rw [hrows]
    unfold rowsOf
    rw [List.filterMap_flatten, List.flatMap_map]
    rfl
  unfold rowsBefore
  rw [hall]
  unfold chunksOf
  rw [List.flatMap_assoc]
  exact List.flatMap_congr fun part _ => hpart part

theorem mem_rowsOf {part : Keyspace × List KvEntry} {ks : Keyspace} {key value : Bytes} :
    ((ks, key), value) ∈ rowsOf part ↔
      part.1 = ks ∧ ∃ e ∈ part.2, decodeEntry e = .ok (key, value) := by
  unfold rowsOf
  rw [List.mem_filterMap]
  constructor
  · rintro ⟨e, he, hrow⟩
    cases hdecode : decodeEntry e with
    | error err => simp [hdecode, Except.toOption] at hrow
    | ok row =>
        rw [hdecode] at hrow
        simp only [Except.toOption, Option.map_some, Option.some.injEq, Prod.mk.injEq] at hrow
        obtain ⟨⟨hks, rfl⟩, rfl⟩ := hrow
        exact ⟨hks, e, he, hdecode⟩
  · rintro ⟨rfl, e, he, hdecode⟩
    exact ⟨e, he, by simp [hdecode, Except.toOption]⟩

section Rows

variable (carried : Keyspace → Bool) (s : Database)

theorem decodeEntry_entriesOf {ks : Keyspace} {e : KvEntry} (h : e ∈ entriesOf carried s ks) :
    carried ks = true ∧ ∃ key value, s.lookup (ks, key) = some value ∧
      decodeEntry e = .ok (key, value) := by
  unfold entriesOf at h
  split at h
  · rename_i hcarried
    obtain ⟨⟨key, value⟩, hpair, rfl⟩ := List.mem_map.mp h
    exact ⟨hcarried, key, value, Database.mem_pairs.mp hpair, decodeEntry_encode key value⟩
  · simp at h

theorem parts_keyspacesOf :
    (keyspacesOf carried s).parts = backedUp.map fun ks => (ks, entriesOf carried s ks) :=
  rfl

theorem readable_keyspacesOf :
    (chunksOf (keyspacesOf carried s).parts).all Readable = true := by
  rw [readable_chunksOf, parts_keyspacesOf]
  intro part hpart e he
  obtain ⟨ks, -, rfl⟩ := List.mem_map.mp hpart
  obtain ⟨-, key, value, -, hdecode⟩ := decodeEntry_entriesOf carried s he
  rw [hdecode]
  rfl

theorem mem_rowsBefore_keyspacesOf {ks : Keyspace} {key value : Bytes} :
    ((ks, key), value) ∈ rowsBefore (keyspacesOf carried s).parts ↔
      (ks ∈ backedUp ∧ carried ks = true) ∧ s.lookup (ks, key) = some value := by
  rw [rowsBefore_of_readable (readable_keyspacesOf carried s), parts_keyspacesOf,
    List.mem_flatMap]
  constructor
  · rintro ⟨part, hpart, hrow⟩
    obtain ⟨ks', hks', rfl⟩ := List.mem_map.mp hpart
    obtain ⟨rfl, e, he, hdecode⟩ := mem_rowsOf.mp hrow
    obtain ⟨hcarried, key', value', hlookup, hdecode'⟩ := decodeEntry_entriesOf carried s he
    rw [hdecode] at hdecode'
    cases hdecode'
    exact ⟨⟨hks', hcarried⟩, hlookup⟩
  · rintro ⟨⟨hks, hcarried⟩, hlookup⟩
    refine ⟨_, List.mem_map.mpr ⟨ks, hks, rfl⟩, mem_rowsOf.mpr ⟨rfl, _, ?_,
      decodeEntry_encode key value⟩⟩
    unfold entriesOf
    rw [if_pos hcarried]
    exact List.mem_map.mpr ⟨(key, value), Database.mem_pairs.mpr hlookup, rfl⟩

/-- Restored into an empty store, the keyspaces that are carried are those of the store. -/
theorem lookup_restored (ks : Keyspace) (key : Bytes) :
    (Table.write (rowsBefore (keyspacesOf carried s).parts) (∅ : Database)).lookup (ks, key) =
      if ks ∈ backedUp ∧ carried ks = true then s.lookup (ks, key) else none := by
  rw [Table.lookup_write, AList.lookup_empty, Option.or_none]
  cases hlast : Table.lastValue (ks, key) (rowsBefore (keyspacesOf carried s).parts) with
  | some value =>
      obtain ⟨hks, hlookup⟩ :=
        (mem_rowsBefore_keyspacesOf carried s).mp (Table.mem_of_lastValue hlast)
      rw [if_pos hks, hlookup]
  | none =>
      split
      · rename_i hks
        cases hlookup : s.lookup (ks, key) with
        | none => rfl
        | some value =>
            have hmem := (mem_rowsBefore_keyspacesOf carried s).mpr ⟨hks, hlookup⟩
            have hkey := List.mem_map_of_mem (f := Prod.fst) hmem
            exact absurd hkey (Table.lastValue_eq_none.mp hlast)
      · rfl

end Rows

/-! ## The restore -/

section Restore

variable (B : BackupLibs) {text : String} {f : Json}

/-- A file that is read, of a version that is supported and with a configuration that is
installed, is restored part by part. -/
theorem runRestore_eq {backup : BackupFile} (hf : B.fromStr text = .ok f)
    (hread : readBackup f = some backup) (hmin : 1 ≤ backup.version)
    (hmax : backup.version ≤ backupVersion) (hconfig : B.installConfig backup.config = .ok ())
    (t : Database) : runRestore B text t = restoreParts backup.keyspaces.parts t := by
  unfold runRestore
  rw [hf]
  simp only [Except.toOption, Option.bind_some, hread, hconfig]
  rw [if_neg (by omega), if_neg (by omega)]

theorem outcome_of_isOk {r : Except RestoreError ℕ × Database} (h : r.1.isOk = true) :
    ∃ n, r = (.ok n, r.2) := by
  obtain ⟨outcome | n, t⟩ := r
  · contradiction
  · exact ⟨n, rfl⟩

theorem outcome_of_not_isOk {r : Except RestoreError ℕ × Database} (h : r.1.isOk = false) :
    ∃ e, r.1 = .error e := by
  obtain ⟨e | outcome, t⟩ := r
  · exact ⟨e, rfl⟩
  · contradiction

/-- A file that carries keyspaces of a store is restored to these. -/
theorem restore_carried {version : ℕ} {config : String} {carried : Keyspace → Bool}
    {s : Database} (hf : B.fromStr text = .ok f) (h : Carries f version config carried s)
    (hmin : 1 ≤ version) (hmax : version ≤ backupVersion)
    (hconfig : B.installConfig config = .ok ()) :
    ∃ n t, runRestore B text ∅ = (.ok n, t) ∧ ∀ ks key, t.lookup (ks, key) =
      if ks ∈ backedUp ∧ carried ks = true then s.lookup (ks, key) else none := by
  obtain ⟨createdAt, serverVersion, hread⟩ := h.readBackup_eq hmax
  obtain ⟨hstore, hok⟩ := restoreParts_spec (keyspacesOf carried s).parts ∅
  rw [readable_keyspacesOf] at hok
  obtain ⟨n, hn⟩ := outcome_of_isOk hok
  refine ⟨n, _, (runRestore_eq B hf hread hmin hmax hconfig ∅).trans hn, ?_⟩
  intro ks key
  rw [hstore]
  exact lookup_restored carried s ks key

/-- A restore with a malformed entry stops with an error, and the rows of the batches before
it stay. -/
theorem restore_malformed {backup : BackupFile} (hf : B.fromStr text = .ok f)
    (hread : readBackup f = some backup) (hmin : 1 ≤ backup.version)
    (hmax : backup.version ≤ backupVersion) (hconfig : B.installConfig backup.config = .ok ())
    (hbad : ∃ part ∈ backup.keyspaces.parts, ∃ e ∈ part.2, Malformed e) (t : Database) :
    (∃ e, (runRestore B text t).1 = .error e) ∧
      (runRestore B text t).2 = Table.write (rowsBefore backup.keyspaces.parts) t := by
  rw [runRestore_eq B hf hread hmin hmax hconfig]
  obtain ⟨hstore, hok⟩ := restoreParts_spec backup.keyspaces.parts t
  refine ⟨outcome_of_not_isOk ?_, hstore⟩
  rw [hok, Bool.eq_false_iff, Ne, readable_chunksOf]
  intro hall
  obtain ⟨part, hpart, e, he, hmalformed⟩ := hbad
  have hgood := hall part hpart e he
  cases hdecode : decodeEntry e with
  | ok row => exact hmalformed row hdecode
  | error err =>
      rw [hdecode] at hgood
      contradiction

/-- Writing rows changes nothing exactly when they are there already. -/
theorem same_write_iff (rows : List ((Keyspace × Bytes) × Bytes)) (t : Database) :
    Same (Table.write rows t) t ↔
      ∀ row value, Table.lastValue row rows = some value → t.lookup row = some value := by
  constructor
  · intro hsame row value hlast
    rw [← hsame row, Table.lookup_write, hlast, Option.some_or]
  · intro hrows row
    rw [Table.lookup_write]
    cases hlast : Table.lastValue row rows with
    | none => exact Option.none_or
    | some value => rw [hrows row value hlast, Option.some_or]

/-- The keyspaces an edge writes are those of a backup and two more. -/
theorem edgeKeyspaces_cases {ks : Keyspace} (h : ks ∈ edgeKeyspaces) :
    ks ∈ backedUp ∨ ks = .identity ∨ ks = .tspRelationships := by
  revert h
  cases ks <;> decide

end Restore

end Backup

open Backend Backup in
/-- A restored backup is the store it was taken of exactly when that store has no identity
generations and no relationships: these keyspaces are not in the file.  What a file of an
older version carries is restored.  A restore that fails on a malformed entry leaves the
store as it was exactly when the batches before that entry have nothing new. -/
theorem restore_undoes_backup_iff (B : BackupLibs) :
    (∀ (s : EdgeStore) (config createdAt serverVersion : String),
      let file := (runBackup config createdAt serverVersion s.1).toJson
      B.fromStr (B.toStringPretty file) = .ok file → B.installConfig config = .ok () →
      ∃ n t, runRestore B (B.toStringPretty file) ∅ = (.ok n, t) ∧
        (Same t s.1 ↔ ∀ key, s.1.lookup (.identity, key) = none ∧
          s.1.lookup (.tspRelationships, key) = none)) ∧
    (∀ (text : String) (f : Json) (version : ℕ) (config : String) (carried : Keyspace → Bool)
      (s : Database), B.fromStr text = .ok f → Carries f version config carried s →
      1 ≤ version → version < backupVersion → B.installConfig config = .ok () →
      ∃ n t, runRestore B text ∅ = (.ok n, t) ∧ ∀ ks key, t.lookup (ks, key) =
        if ks ∈ backedUp ∧ carried ks = true then s.lookup (ks, key) else none) ∧
    (∀ (text : String) (f : Json) (backup : BackupFile) (t : Database),
      B.fromStr text = .ok f → readBackup f = some backup → 1 ≤ backup.version →
      backup.version ≤ backupVersion → B.installConfig backup.config = .ok () →
      (∃ part ∈ backup.keyspaces.parts, ∃ e ∈ part.2, Malformed e) →
      (∃ e, (runRestore B text t).1 = .error e) ∧
        (Same (runRestore B text t).2 t ↔ ∀ row value,
          Table.lastValue row (rowsBefore backup.keyspaces.parts) = some value →
            t.lookup row = some value)) := by
  refine ⟨?_, ?_, ?_⟩
  · intro s config createdAt serverVersion file hf hconfig
    obtain ⟨n, t, hrun, hrows⟩ := restore_carried B hf
      (runBackup_carries config createdAt serverVersion s.1) (by decide) le_rfl hconfig
    refine ⟨n, t, hrun, ?_⟩
    constructor
    · intro hsame key
      rw [← hsame, ← hsame, hrows, hrows]
      exact ⟨rfl, rfl⟩
    · rintro hnone ⟨ks, key⟩
      rw [hrows]
      by_cases hks : ks ∈ backedUp
      · rw [if_pos ⟨hks, rfl⟩]
      · rw [if_neg fun h => hks h.1]
        by_cases hedge : ks ∈ edgeKeyspaces
        · rcases edgeKeyspaces_cases hedge with hin | rfl | rfl
          · exact absurd hin hks
          · exact (hnone key).1.symm
          · exact (hnone key).2.symm
        · exact (s.2 ks key hedge).symm
  · intro text f version config carried s hf h hmin hmax hconfig
    exact restore_carried B hf h hmin hmax.le hconfig
  · intro text f backup t hf hread hmin hmax hconfig hbad
    obtain ⟨herror, hstore⟩ := restore_malformed B hf hread hmin hmax hconfig hbad t
    refine ⟨herror, ?_⟩
    rw [hstore]
    exact same_write_iff _ t

namespace Backup

open Backend

/-! ## Samples -/

/-- Libraries that print compact JSON and read back one file. -/
def reading (f : Json) : BackupLibs where
  fromStr text := if text = Reference.print f then .ok f else .error "expected value"
  toStringPretty := Reference.print
  installConfig _ := .ok ()

theorem fromStr_reading (f : Json) : (reading f).fromStr (Reference.print f) = .ok f :=
  if_pos rfl

/-- A store with a DID and a generation of the edge's identity. -/
def sampleStore : EdgeStore where
  val := ((∅ : Backend.Database).insert (.dids, [1]) [2]).insert (.identity, [3]) [4]
  property := by
    intro ks key hks
    have hdids : ks ≠ .dids := by
      rintro rfl
      exact hks (by decide)
    have hidentity : ks ≠ .identity := by
      rintro rfl
      exact hks (by decide)
    rw [AList.lookup_insert_ne (by simp [hidentity]), AList.lookup_insert_ne (by simp [hdids])]
    rfl

def sampleFile : BackupFile :=
  runBackup "c" "t" "v" sampleStore.1

/-- A file of the first version, with its sessions. -/
def oldFile : Json :=
  .obj [("version", .num (.posInt 1)), ("created_at", .str "t"), ("server_version", .str "v"),
    ("config", .str "c"), ("keyspaces", .obj [
      ("dids", entriesJson (encodePairs (sampleStore.1.pairs .dids))), ("acl", .arr []),
      ("stats", entriesJson (encodePairs (sampleStore.1.pairs .stats))),
      ("sessions", entriesJson [⟨"AQ", "Ag"⟩])])]

/-- The backup with a key among its statistics that is not base64url. -/
def tornFile : BackupFile :=
  { sampleFile with keyspaces := { sampleFile.keyspaces with stats := [⟨"!", ""⟩] } }

theorem oldFile_carries :
    Carries oldFile 1 "c" (fun ks => ks = .dids ∨ ks = .stats) sampleStore.1 where
  version := rfl
  createdAt := ⟨"t", rfl⟩
  serverVersion := ⟨"v", rfl⟩
  config := rfl
  required := ⟨rfl, rfl⟩
  keyspaces := by
    refine ⟨_, rfl, ?_⟩
    intro ks hks
    cases ks
    all_goals first | rfl | exact absurd hks (by decide)

theorem readBackup_tornFile : readBackup tornFile.toJson = some tornFile := by
  decide +kernel

theorem malformed_tornFile : ∃ part ∈ tornFile.keyspaces.parts, ∃ e ∈ part.2, Malformed e := by
  refine ⟨(.stats, [⟨"!", ""⟩]), by decide +kernel, ⟨"!", ""⟩, by decide, ?_⟩
  intro row hrow
  have hkey : decodeEntry ⟨"!", ""⟩ = .error .invalidKey := by decide +kernel
  rw [hkey] at hrow
  contradiction

/-- The backup of the sample store, a file of the first version, and a file with a malformed
entry. -/
theorem restore_undoes_backup_sample :
    (∃ n t, runRestore (reading sampleFile.toJson) (Reference.print sampleFile.toJson) ∅ =
        (.ok n, t) ∧
      (Same t sampleStore.1 ↔ ∀ key, sampleStore.1.lookup (.identity, key) = none ∧
        sampleStore.1.lookup (.tspRelationships, key) = none)) ∧
    (∃ n t, runRestore (reading oldFile) (Reference.print oldFile) ∅ = (.ok n, t) ∧
      ∀ ks key, t.lookup (ks, key) =
        if ks ∈ backedUp ∧ decide (ks = .dids ∨ ks = .stats) = true
        then sampleStore.1.lookup (ks, key) else none) ∧
    (∃ e, (runRestore (reading tornFile.toJson) (Reference.print tornFile.toJson) ∅).1 =
      .error e) :=
  ⟨(restore_undoes_backup_iff (reading sampleFile.toJson)).1 sampleStore "c" "t" "v"
      (fromStr_reading _) rfl,
    (restore_undoes_backup_iff (reading oldFile)).2.1 _ oldFile 1 "c" _ sampleStore.1
      (fromStr_reading _) oldFile_carries (by decide) (by decide) rfl,
    ((restore_undoes_backup_iff (reading tornFile.toJson)).2.2 _ tornFile.toJson tornFile ∅
      (fromStr_reading _) readBackup_tornFile (by decide) (by decide) rfl
      malformed_tornFile).1⟩

/-- The generation of the sample store does not come back, and the restore that fails on the
malformed entry leaves a DID in the empty store. -/
theorem identity_lost_and_torn :
    (runRestore (reading sampleFile.toJson) (Reference.print sampleFile.toJson) ∅).1.isOk =
        true ∧
      ¬ Same (runRestore (reading sampleFile.toJson) (Reference.print sampleFile.toJson) ∅).2
        sampleStore.1 ∧
      (runRestore (reading tornFile.toJson) (Reference.print tornFile.toJson) ∅).1 =
        .error .invalidKey ∧
      ¬ Same (runRestore (reading tornFile.toJson) (Reference.print tornFile.toJson) ∅).2 ∅ := by
  have hsample : readBackup sampleFile.toJson = some sampleFile := by decide +kernel
  rw [runRestore_eq _ (fromStr_reading _) hsample (by decide) (by decide) rfl,
    runRestore_eq _ (fromStr_reading _) readBackup_tornFile (by decide) (by decide) rfl]
  refine ⟨by decide +kernel, ?_, by decide +kernel, ?_⟩
  · intro hsame
    have hrow := hsame (.identity, [3])
    revert hrow
    decide +kernel
  · intro hsame
    have hrow := hsame (.dids, [1])
    revert hrow
    decide +kernel

end Backup

end DidHosting
