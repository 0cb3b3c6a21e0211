import DidHosting.Support.Prog
import DidHosting.Support.Table
import DidHosting.Common.DidLog

/-!
# The `dids` keyspace

Records, the rows of the `dids` keyspace and the write batches on it.  The
control plane and the edges use the same rows; the high-water rows are written
by edges only.

In the store a row is addressed by a string (`did:{mnemonic}`,
`name:{domain}:{name}`, …).  Here each kind of row is a table of its own.  The
two views agree because the key functions do not collide on the values they
are applied to: `RowKey.render_injective`.
-/

namespace DidHosting

open Text

/-! ## Records -/

structure AgentNameEntry where
  name : String
  enabled : Bool
  createdAt : ℕ
deriving DecidableEq, Repr

structure DidRecord where
  owner : String
  mnemonic : String
  createdAt : ℕ
  updatedAt : ℕ
  versionCount : ℕ
  didId : Option String
  contentSize : ℕ
  disabled : Bool
  deletedAt : Option ℕ
  method : Method
  domain : String
  services : Option (List String)
  agentNames : List AgentNameEntry
deriving DecidableEq, Repr

/-- The domain a slot's agent names are scoped to: the record's tagged domain,
or the host of its DID when the record carries none. -/
def slotDomain (L : Libs) (record : DidRecord) : String :=
  if record.domain ≠ "" then record.domain else hostOfDidId L record.didId

/-- `DidSyncUpdate`: the state of a slot as the control plane sends it. -/
structure DidSyncUpdate where
  mnemonic : String
  didId : String
  logContent : String
  witnessContent : Option String
  versionCount : ℕ
  disabled : Bool
deriving DecidableEq, Repr

/-- `SlotHighWater`: the last DID a slot of an edge served. -/
structure SlotHighWater where
  identity : String
  didId : String
  method : Method
deriving DecidableEq, Repr

/-! ## Rows and keys -/

/-- The address of a row of the keyspace. -/
inductive RowKey where
  | did (mnemonic : String)
  | contentLog (mnemonic : String)
  | contentWitness (mnemonic : String)
  | owner (did mnemonic : String)
  | agentName (domain name : String)
  | watcherSync (mnemonic : String)
  | highWaterIdentity (identity : String)
  | highWaterSlot (mnemonic : String)
deriving DecidableEq, Repr

namespace RowKey

/-- The key strings: `did_key`, `content_log_key`, `content_witness_key`,
`owner_key`, `agent_name_key`, `watcher_sync_key`, `high_water_identity_key`
and `high_water_slot_key`. -/
def render : RowKey → String
  | did m => "did:" ++ m
  | contentLog m => "content:" ++ m ++ ":log"
  | contentWitness m => "content:" ++ m ++ ":witness"
  | owner d m => "owner:" ++ d ++ ":" ++ m
  | agentName d n => "name:" ++ d ++ ":" ++ n
  | watcherSync m => "watcher_sync:" ++ m
  | highWaterIdentity i => "hw:id:" ++ i
  | highWaterSlot m => "hw:slot:" ++ m

/-- The second component of a two-part key contains no separator.  Mnemonics
and agent names are validated to be of this kind. -/
def Plain : RowKey → Prop
  | owner _ m => ':' ∉ m.toList
  | agentName _ n => ':' ∉ n.toList
  | _ => True

/-- Splitting at the last separator is unambiguous. -/
theorem append_colon_inj {xs ys xs' ys' : List Char}
    (hy : ':' ∉ ys) (hy' : ':' ∉ ys')
    (h : xs ++ ':' :: ys = xs' ++ ':' :: ys') : xs = xs' ∧ ys = ys' := by
  rcases List.append_eq_append_iff.mp h with ⟨zs, hz, hz'⟩ | ⟨zs, hz, hz'⟩
  · cases zs with
    | nil => simp_all
    | cons z zs =>
        have hmem : ':' ∈ ys := by
          rw [List.cons_append] at hz'
          rw [(List.cons.inj hz').2]
          simp
        exact absurd hmem hy
  · cases zs with
    | nil => simp_all
    | cons z zs =>
        have hmem : ':' ∈ ys' := by
          rw [List.cons_append] at hz'
          rw [(List.cons.inj hz').2]
          simp
        exact absurd hmem hy'

/-- Different rows have different keys. -/
theorem render_injective {k k' : RowKey} (hk : k.Plain) (hk' : k'.Plain)
    (h : k.render = k'.render) : k = k' := by
  have hl := congrArg String.toList h
  cases k <;> cases k' <;>
    simp only [render, String.toList_append, String.reduceToList,
      List.cons_append, List.nil_append, List.append_assoc, List.cons.injEq,
      Char.reduceEq, true_and, false_and] at hl
  case did.did => simp [String.toList_injective hl]
  case contentLog.contentLog => simp [String.toList_injective (by simpa using hl)]
  case contentWitness.contentWitness =>
    simp [String.toList_injective (by simpa using hl)]
  case owner.owner =>
    obtain ⟨h₁, h₂⟩ := append_colon_inj hk hk' hl
    rw [String.toList_injective h₁, String.toList_injective h₂]
  case agentName.agentName =>
    obtain ⟨h₁, h₂⟩ := append_colon_inj hk hk' hl
    rw [String.toList_injective h₁, String.toList_injective h₂]
  case watcherSync.watcherSync => simp [String.toList_injective hl]
  case highWaterIdentity.highWaterIdentity => simp [String.toList_injective hl]
  case highWaterSlot.highWaterSlot => simp [String.toList_injective hl]
  case contentLog.contentWitness =>
    have := congrArg (fun l => l.reverse.head?) hl
    simp at this
  case contentWitness.contentLog =>
    have := congrArg (fun l => l.reverse.head?) hl
    simp at this

end RowKey

/-! ## The keyspace -/

structure DidsKs where
  dids : Table String DidRecord
  contentLog : Table String String
  contentWitness : Table String String
  ownerIndex : Table (String × String) String
  agentName : Table (String × String) String
  watcherSync : Table String String
  highWaterIdentity : Table String String
  highWaterSlot : Table String SlotHighWater

namespace DidsKs

def empty : DidsKs := ⟨∅, ∅, ∅, ∅, ∅, ∅, ∅, ∅⟩

end DidsKs

/-- One insert or remove of a write batch. -/
inductive BatchOp where
  | insertDid (mnemonic : String) (record : DidRecord)
  | removeDid (mnemonic : String)
  | insertLog (mnemonic content : String)
  | removeLog (mnemonic : String)
  | insertWitness (mnemonic content : String)
  | removeWitness (mnemonic : String)
  | insertOwner (owner mnemonic : String)
  | removeOwner (owner mnemonic : String)
  | insertName (domain name mnemonic : String)
  | removeName (domain name : String)
  | removeWatcherSync (mnemonic : String)
  | insertHighWaterIdentity (identity content : String)
  | insertHighWaterSlot (mnemonic : String) (mark : SlotHighWater)
deriving DecidableEq, Repr

/-- The operation is on the name index. -/
def BatchOp.onNames : BatchOp → Bool
  | insertName _ _ _ => true
  | removeName _ _ => true
  | _ => false

/-- The slot whose record, log or witness file the operation is on. -/
def BatchOp.slot : BatchOp → Option String
  | insertDid m _ => some m
  | removeDid m => some m
  | insertLog m _ => some m
  | removeLog m => some m
  | insertWitness m _ => some m
  | removeWitness m => some m
  | _ => none

/-- A write batch, applied in order. -/
abbrev Batch := List BatchOp

namespace DidsKs

/-- Apply one operation of a batch. -/
def apply (ks : DidsKs) : BatchOp → DidsKs
  | .insertDid m r => { ks with dids := ks.dids.insert m r }
  | .removeDid m => { ks with dids := ks.dids.erase m }
  | .insertLog m c => { ks with contentLog := ks.contentLog.insert m c }
  | .removeLog m => { ks with contentLog := ks.contentLog.erase m }
  | .insertWitness m c => { ks with contentWitness := ks.contentWitness.insert m c }
  | .removeWitness m => { ks with contentWitness := ks.contentWitness.erase m }
  | .insertOwner o m => { ks with ownerIndex := ks.ownerIndex.insert (o, m) m }
  | .removeOwner o m => { ks with ownerIndex := ks.ownerIndex.erase (o, m) }
  | .insertName d n m => { ks with agentName := ks.agentName.insert (d, n) m }
  | .removeName d n => { ks with agentName := ks.agentName.erase (d, n) }
  | .removeWatcherSync m => { ks with watcherSync := ks.watcherSync.erase m }
  | .insertHighWaterIdentity i c =>
      { ks with highWaterIdentity := ks.highWaterIdentity.insert i c }
  | .insertHighWaterSlot m mark =>
      { ks with highWaterSlot := ks.highWaterSlot.insert m mark }

/-- `WriteBatch::commit`. -/
def commit (batch : Batch) (ks : DidsKs) : DidsKs :=
  batch.foldl apply ks

instance : WriteBatch DidsKs Batch := ⟨commit⟩

@[simp] theorem commit_nil (ks : DidsKs) : commit [] ks = ks := rfl

@[simp] theorem commit_cons (op : BatchOp) (batch : Batch) (ks : DidsKs) :
    commit (op :: batch) ks = commit batch (ks.apply op) := rfl

@[simp] theorem commit_append (b₁ b₂ : Batch) (ks : DidsKs) :
    commit (b₁ ++ b₂) ks = commit b₂ (commit b₁ ks) :=
  List.foldl_append

/-- A batch of index operations touches the name index only. -/
theorem commit_onNames {batch : Batch} (h : ∀ op ∈ batch, op.onNames = true) (ks : DidsKs) :
    ∃ index, commit batch ks = { ks with agentName := index } := by
  induction batch generalizing ks with
  | nil => exact ⟨ks.agentName, rfl⟩
  | cons op batch ih =>
      have hop : op.onNames = true := h op List.mem_cons_self
      obtain ⟨index, hindex⟩ :=
        ih (fun o ho => h o (List.mem_cons_of_mem _ ho)) (ks.apply op)
      refine ⟨index, ?_⟩
      rw [commit_cons, hindex]
      cases op <;> first | rfl | simp [BatchOp.onNames] at hop

/-- A batch on other slots leaves the record, the log and the witness file of
slot `m`. -/
theorem commit_other_slot {batch : Batch} {m : String}
    (h : ∀ op ∈ batch, op.slot ≠ some m) (ks : DidsKs) :
    (commit batch ks).dids.lookup m = ks.dids.lookup m ∧
      (commit batch ks).contentLog.lookup m = ks.contentLog.lookup m ∧
      (commit batch ks).contentWitness.lookup m = ks.contentWitness.lookup m := by
  induction batch generalizing ks with
  | nil => exact ⟨rfl, rfl, rfl⟩
  | cons op batch ih =>
      have hne : ∀ m', op.slot = some m' → m ≠ m' := by
        rintro m' hm' rfl
        exact h op List.mem_cons_self hm'
      obtain ⟨h₁, h₂, h₃⟩ := ih (fun o ho => h o (List.mem_cons_of_mem _ ho)) (ks.apply op)
      rw [commit_cons, h₁, h₂, h₃]
      cases op with
      | insertDid m' r => exact ⟨AList.lookup_insert_ne (hne m' rfl), rfl, rfl⟩
      | removeDid m' => exact ⟨AList.lookup_erase_ne (hne m' rfl), rfl, rfl⟩
      | insertLog m' c => exact ⟨rfl, AList.lookup_insert_ne (hne m' rfl), rfl⟩
      | removeLog m' => exact ⟨rfl, AList.lookup_erase_ne (hne m' rfl), rfl⟩
      | insertWitness m' c =>
          exact ⟨rfl, rfl, AList.lookup_insert_ne (hne m' rfl)⟩
      | removeWitness m' =>
          exact ⟨rfl, rfl, AList.lookup_erase_ne (hne m' rfl)⟩
      | _ => exact ⟨rfl, rfl, rfl⟩

/-- Pointing several names at a slot touches the name index only. -/
@[simp] theorem commit_map_insertName (names : List String) (d m : String)
    (ks : DidsKs) :
    commit (names.map fun n => .insertName d n m) ks =
      { ks with
        agentName := Table.insertAll (names.map fun n => (d, n)) m ks.agentName } := by
  induction names generalizing ks with
  | nil => rfl
  | cons n names ih =>
      rw [List.map_cons, commit_cons, ih]
      rfl

/-- Retiring several names touches the name index only. -/
@[simp] theorem commit_map_removeName (names : List String) (d : String)
    (ks : DidsKs) :
    commit (names.map fun n => .removeName d n) ks =
      { ks with
        agentName := Table.eraseAll (names.map fun n => (d, n)) ks.agentName } := by
  induction names generalizing ks with
  | nil => rfl
  | cons n names ih =>
      rw [List.map_cons, commit_cons, ih]
      rfl

end DidsKs

end DidHosting
