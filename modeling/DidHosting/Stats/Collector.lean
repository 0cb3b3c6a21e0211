import DidHosting.Support.Table

/-!
# The stats collector

Counters are kept in memory: what has come in for each DID since the last drain, buckets of
five minutes, and the totals of the server.  An edge counts resolutions and updates and
drains them for its control plane; the control plane adds what the edges send.
-/

namespace DidHosting

structure DidStats where
  totalResolves : ℕ
  totalUpdates : ℕ
  lastResolvedAt : Option ℕ
  lastUpdatedAt : Option ℕ
deriving DecidableEq, Repr

def DidStats.zero : DidStats := ⟨0, 0, none, none⟩

namespace Stats

def bucketSecs : ℕ := 300

structure MnemonicDeltas where
  resolves : ℕ
  updates : ℕ
  lastResolvedAt : Option ℕ
  lastUpdatedAt : Option ℕ
deriving DecidableEq, Repr

structure DidStatsDelta where
  mnemonic : String
  resolveDelta : ℕ
  updateDelta : ℕ
  lastResolvedAt : Option ℕ
  lastUpdatedAt : Option ℕ
deriving DecidableEq, Repr

/-- The counters of a server. -/
structure StatsCollector where
  deltas : Table String MnemonicDeltas
  buckets : Table (String × ℕ) (ℕ × ℕ)
  totalResolves : ℕ
  totalUpdates : ℕ
  lastResolvedAt : ℕ
  lastUpdatedAt : ℕ

def bucketEpoch (ts : ℕ) : ℕ :=
  ts / bucketSecs * bucketSecs

namespace StatsCollector

/-- `StatsCollector::new`. -/
def new : StatsCollector :=
  ⟨∅, ∅, 0, 0, 0, 0⟩

/-- The deltas of a DID, none at first. -/
def entry (c : StatsCollector) (mnemonic : String) : MnemonicDeltas :=
  (c.deltas.lookup mnemonic).getD ⟨0, 0, none, none⟩

/-- The later of a time that was kept and one that came in. -/
def later (prev : Option ℕ) : Option ℕ → Option ℕ
  | none => prev
  | some ts =>
      match prev with
      | none => some ts
      | some prev => some (max prev ts)

/-- Add to a bucket of a DID. -/
def addBucket (mnemonic : String) (epoch resolves updates : ℕ)
    (buckets : Table (String × ℕ) (ℕ × ℕ)) : Table (String × ℕ) (ℕ × ℕ) :=
  let b := (buckets.lookup (mnemonic, epoch)).getD (0, 0)
  buckets.insert (mnemonic, epoch) (b.1 + resolves, b.2 + updates)

/-- Add to the buckets of a DID and of the server. -/
def addBuckets (mnemonic : String) (now resolves updates : ℕ)
    (buckets : Table (String × ℕ) (ℕ × ℕ)) : Table (String × ℕ) (ℕ × ℕ) :=
  addBucket "_all" (bucketEpoch now) resolves updates
    (addBucket mnemonic (bucketEpoch now) resolves updates buckets)

/-- `StatsCollector::record_resolve`. -/
def recordResolve (mnemonic : String) (now : ℕ) (c : StatsCollector) : StatsCollector :=
  let entry := c.entry mnemonic
  { c with
    deltas := c.deltas.insert mnemonic
      { entry with resolves := entry.resolves + 1, lastResolvedAt := some now }
    buckets := addBuckets mnemonic now 1 0 c.buckets
    totalResolves := c.totalResolves + 1
    lastResolvedAt := max c.lastResolvedAt now }

/-- `StatsCollector::record_update`. -/
def recordUpdate (mnemonic : String) (now : ℕ) (c : StatsCollector) : StatsCollector :=
  let entry := c.entry mnemonic
  { c with
    deltas := c.deltas.insert mnemonic
      { entry with updates := entry.updates + 1, lastUpdatedAt := some now }
    buckets := addBuckets mnemonic now 0 1 c.buckets
    totalUpdates := c.totalUpdates + 1
    lastUpdatedAt := max c.lastUpdatedAt now }

/-- `StatsCollector::apply_deltas`. -/
def applyDeltas (d : DidStatsDelta) (c : StatsCollector) : StatsCollector :=
  { c with
    totalResolves := c.totalResolves + d.resolveDelta
    totalUpdates := c.totalUpdates + d.updateDelta
    lastResolvedAt := max c.lastResolvedAt (d.lastResolvedAt.getD 0)
    lastUpdatedAt := max c.lastUpdatedAt (d.lastUpdatedAt.getD 0) }

/-- `StatsCollector::record_deltas`. -/
def recordDeltas (d : DidStatsDelta) (now : ℕ) (c : StatsCollector) : StatsCollector :=
  if d.resolveDelta = 0 ∧ d.updateDelta = 0 then c
  else
    let entry := c.entry d.mnemonic
    applyDeltas d
      { c with
        deltas := c.deltas.insert d.mnemonic
          { resolves := entry.resolves + d.resolveDelta
            updates := entry.updates + d.updateDelta
            lastResolvedAt := later entry.lastResolvedAt d.lastResolvedAt
            lastUpdatedAt := later entry.lastUpdatedAt d.lastUpdatedAt }
        buckets := addBuckets d.mnemonic now d.resolveDelta d.updateDelta c.buckets }

/-- `StatsCollector::drain_for_sync`. -/
def drainForSync (c : StatsCollector) : List DidStatsDelta × StatsCollector :=
  ((Table.rows c.deltas).map fun row =>
      ⟨row.1, row.2.resolves, row.2.updates, row.2.lastResolvedAt, row.2.lastUpdatedAt⟩,
    { c with deltas := ∅ })

/-! ## What recording adds -/

theorem entry_recordDeltas (d : DidStatsDelta) (now : ℕ) (c : StatsCollector) (m : String) :
    ((c.recordDeltas d now).entry m).resolves =
        (c.entry m).resolves + (if m = d.mnemonic then d.resolveDelta else 0) ∧
      ((c.recordDeltas d now).entry m).updates =
        (c.entry m).updates + (if m = d.mnemonic then d.updateDelta else 0) := by
  unfold recordDeltas
  split
  · rename_i hzero
    rw [hzero.1, hzero.2, ite_self]
    exact ⟨rfl, rfl⟩
  · dsimp only
    unfold applyDeltas entry
    dsimp only
    rw [Table.lookup_insert_ite]
    split
    · rename_i hm
      rw [hm]
      exact ⟨rfl, rfl⟩
    · exact ⟨rfl, rfl⟩

end StatsCollector

end Stats

end DidHosting
