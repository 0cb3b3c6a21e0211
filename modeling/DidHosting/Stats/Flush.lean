import DidHosting.Common.Json
import DidHosting.Stats.Collector
import DidHosting.Support.Faults
import DidHosting.Support.RowWrites
import DidHosting.Support.Text
import Mathlib.Algebra.BigOperators.Finprod
import Mathlib.Algebra.Order.Monoid.Prod

/-!
# The flush of the counters

The control plane drains its collector and adds what came out to the stored totals and to
rows of five minutes: one for each DID that was counted, and the row `_all` of the server.
The rows are read one by one and written in one batch.
-/

namespace DidHosting

namespace Stats

open Text

/-! ## The code -/

/-- Resolves and updates. -/
abbrev Counts := ℕ × ℕ

def DidStatsDelta.counts (d : DidStatsDelta) : Counts :=
  (d.resolveDelta, d.updateDelta)

def MnemonicDeltas.counts (d : MnemonicDeltas) : Counts :=
  (d.resolves, d.updates)

/-- The key of the totals of a DID. -/
def statsKey (mnemonic : String) : String :=
  "stats:" ++ mnemonic

/-- The key of a row of five minutes. -/
def tsKey (mnemonic : String) (bucket : ℕ) : String :=
  "ts:" ++ mnemonic ++ ":" ++ toString bucket

/-- The keyspaces `stats` and `timeseries`.  A row of the second is the `r` and `u` of its
JSON value. -/
structure StatsStore where
  stats : Table String DidStats
  timeseries : Table String Counts

/-- A batch over the two keyspaces. -/
structure StatsBatch where
  stats : List (String × DidStats)
  timeseries : List (String × Counts)

instance : WriteBatch StatsStore StatsBatch where
  commit batch s := ⟨Table.write batch.stats s.stats, Table.write batch.timeseries s.timeseries⟩

/-- The totals of a key, zero at first. -/
def StatsStore.total (s : StatsStore) (key : String) : DidStats :=
  (s.stats.lookup key).getD DidStats.zero

/-- The counts of a row, zero at first. -/
def StatsStore.row (s : StatsStore) (key : String) : Counts :=
  (s.timeseries.lookup key).getD (0, 0)

/-- The totals with a delta added. -/
def addDelta (stats : DidStats) (d : DidStatsDelta) : DidStats where
  totalResolves := stats.totalResolves + d.resolveDelta
  totalUpdates := stats.totalUpdates + d.updateDelta
  lastResolvedAt := StatsCollector.later stats.lastResolvedAt d.lastResolvedAt
  lastUpdatedAt := StatsCollector.later stats.lastUpdatedAt d.lastUpdatedAt

/-- The loop of `flush_stats_to_store`. -/
def flushRows (bucket : ℕ) :
    List DidStatsDelta → Counts → StatsBatch → Query StatsStore AppError (Counts × StatsBatch)
  | [], all, batch => pure (all, batch)
  | d :: ds, all, batch => do
      let stats ← Query.read fun s => s.total (statsKey d.mnemonic)
      let batch := { batch with
        stats := batch.stats ++ [(statsKey d.mnemonic, addDelta stats d)] }
      if 0 < d.resolveDelta ∨ 0 < d.updateDelta then
        let existing ← Query.read fun s => s.row (tsKey d.mnemonic bucket)
        let row := (existing.1 + d.resolveDelta, existing.2 + d.updateDelta)
        flushRows bucket ds (all.1 + d.resolveDelta, all.2 + d.updateDelta) { batch with
          timeseries := batch.timeseries ++ [(tsKey d.mnemonic bucket, row)] }
      else
        flushRows bucket ds all batch

/-- The batch of `flush_stats_to_store`. -/
def flushBatch (now : ℕ) (deltas : List DidStatsDelta) : Query StatsStore AppError StatsBatch := do
  let bucket := bucketEpoch now
  let (all, batch) ← flushRows bucket deltas (0, 0) ⟨[], []⟩
  if 0 < all.1 ∨ 0 < all.2 then
    let existing ← Query.read fun s => s.row (tsKey "_all" bucket)
    let row := (existing.1 + all.1, existing.2 + all.2)
    return { batch with timeseries := batch.timeseries ++ [(tsKey "_all" bucket, row)] }
  else
    return batch

/-- `flush_stats_to_store`, behind the drain. -/
def flushStatsToStore (now : ℕ) (deltas : List DidStatsDelta) :
    Prog StatsStore StatsBatch Unit AppError Unit :=
  if deltas.isEmpty then pure ()
  else Prog.ofQuery (flushBatch now deltas) >>= fun batch => Prog.commit batch (pure ())

/-! ## Keys -/

theorem statsKey_injective : Function.Injective statsKey := by
  intro m m' h
  have hlist := congrArg String.toList h
  simp only [statsKey, String.toList_append, List.append_cancel_left_eq] at hlist
  exact String.toList_injective hlist

theorem colon_not_mem_toString (n : ℕ) : ':' ∉ (toString n).toList := by
  intro hmem
  have hdigit : Char.isDigit ':' = true :=
    Nat.isDigit_of_mem_toDigits (by decide) (by decide) (Nat.toList_repr ▸ hmem)
  exact absurd hdigit (by decide)

theorem toString_nat_injective {b b' : ℕ} (h : toString b = toString b') : b = b' := by
  have hdigits : Nat.toDigits 10 b = Nat.toDigits 10 b' := by
    rw [← Nat.toList_repr, ← Nat.toList_repr]
    exact congrArg String.toList h
  rw [← Nat.ofDigitChars_ten_toDigits (n := b), hdigits, Nat.ofDigitChars_ten_toDigits]

/-- The last `:` of a row's key is in front of the bucket. -/
theorem tsKey_inj {m m' : String} {b b' : ℕ} : tsKey m b = tsKey m' b' ↔ m = m' ∧ b = b' := by
  constructor
  · intro h
    have hsplit : ∀ (m : String) (b : ℕ),
        rsplitOnce ':' (tsKey m b) = some ("ts:" ++ m, toString b) :=
      fun m b => rsplitOnce_append (colon_not_mem_toString b)
    have hparts := hsplit m b
    rw [h, hsplit m' b', Option.some.injEq, Prod.mk.injEq] at hparts
    have hlist := congrArg String.toList hparts.1
    simp only [String.toList_append, List.append_cancel_left_eq] at hlist
    exact ⟨(String.toList_injective hlist).symm, (toString_nat_injective hparts.2).symm⟩
  · rintro ⟨rfl, rfl⟩
    rfl

/-! ## What a flush writes -/

theorem counted_iff {c : Counts} : (0 < c.1 ∨ 0 < c.2) ↔ c ≠ 0 := by
  rw [ne_eq, Prod.ext_iff]
  simp only [Prod.fst_zero, Prod.snd_zero]
  omega

section

variable (s : StatsStore) (now bucket : ℕ)

/-- The rows of the counted deltas. -/
def countedRows (ds : List DidStatsDelta) : List (String × Counts) :=
  (ds.filter fun d => d.counts ≠ 0).map fun d =>
    (tsKey d.mnemonic bucket, s.row (tsKey d.mnemonic bucket) + d.counts)

theorem countedRows_cons (d : DidStatsDelta) (ds : List DidStatsDelta) :
    countedRows s bucket (d :: ds) =
      (if d.counts ≠ 0 then
        [(tsKey d.mnemonic bucket, s.row (tsKey d.mnemonic bucket) + d.counts)] else []) ++
        countedRows s bucket ds := by
  unfold countedRows
  by_cases h : d.counts = 0
  · rw [List.filter_cons_of_neg (by simpa using h), if_neg (by simpa using h), List.nil_append]
  · rw [List.filter_cons_of_pos (by simpa using h), if_pos h, List.map_cons,
      List.singleton_append]

def totalRows (ds : List DidStatsDelta) : List (String × DidStats) :=
  ds.map fun d => (statsKey d.mnemonic, addDelta (s.total (statsKey d.mnemonic)) d)

theorem eval_flushRows (ds : List DidStatsDelta) (all : Counts) (batch : StatsBatch) :
    (flushRows bucket ds all batch).eval s = .ok (all + (ds.map (·.counts)).sum,
      ⟨batch.stats ++ totalRows s ds, batch.timeseries ++ countedRows s bucket ds⟩) := by
  induction ds generalizing all batch with
  | nil => simp [flushRows, totalRows, countedRows, Query.eval, pure]
  | cons d ds ih =>
      rw [flushRows, countedRows_cons, List.map_cons, List.sum_cons]
      change Query.eval (if 0 < d.counts.1 ∨ 0 < d.counts.2 then _ else _) s = _
      by_cases hcounts : d.counts = 0
      · rw [if_neg (mt counted_iff.mp (by simpa using hcounts)), ih,
          if_neg (by simpa using hcounts), hcounts, zero_add, List.nil_append]
        simp [totalRows]
      · rw [if_pos (counted_iff.mpr hcounts), if_pos hcounts]
        change Query.eval (flushRows bucket ds (all + d.counts) _) s = _
        rw [ih, add_assoc]
        simp [totalRows, Prod.ext_iff, StatsStore.row, DidStatsDelta.counts]

/-- The batch a flush commits. -/
def batchOf (ds : List DidStatsDelta) : StatsBatch where
  stats := totalRows s ds
  timeseries := countedRows s (bucketEpoch now) ds ++
    if (ds.map (·.counts)).sum = 0 then []
    else [(tsKey "_all" (bucketEpoch now),
      s.row (tsKey "_all" (bucketEpoch now)) + (ds.map (·.counts)).sum)]

theorem eval_flushBatch (ds : List DidStatsDelta) :
    (flushBatch now ds).eval s = .ok (batchOf s now ds) := by
  unfold flushBatch batchOf
  rw [Query.eval_bind, eval_flushRows]
  change Query.eval (if _ then _ else _) s = _
  by_cases hsum : (ds.map (·.counts)).sum = 0
  · rw [if_neg (mt counted_iff.mp (by simpa using hsum)), if_pos hsum, List.append_nil]
    rfl
  · rw [if_pos (counted_iff.mpr (by simpa using hsum)), if_neg hsum]
    change Except.ok _ = _
    simp [Prod.ext_iff]

/-- What was drained has the counts `f`. -/
structure Drained (ds : List DidStatsDelta) (f : String → Counts) : Prop where
  nodup : (ds.map (·.mnemonic)).Nodup
  counts : ∀ d ∈ ds, f d.mnemonic = d.counts
  rest : ∀ m ∉ ds.map (·.mnemonic), f m = 0

variable {s now bucket} {ds : List DidStatsDelta} {f : String → Counts}

theorem Drained.sum_eq (h : Drained ds f) : (ds.map (·.counts)).sum = ∑ᶠ m, f m := by
  have hsupport : Function.support f ⊆ ↑(ds.map (·.mnemonic)).toFinset := by
    intro m hm
    rw [List.coe_toFinset, Set.mem_ofPred_eq]
    by_contra hnot
    exact hm (h.rest m hnot)
  rw [finsum_eq_sum_of_support_subset f hsupport, List.sum_toFinset f h.nodup, List.map_map]
  exact congrArg List.sum (List.map_congr_left fun d hd => (h.counts d hd).symm)

theorem Drained.eq_zero (h : Drained ds f) (hsum : (ds.map (·.counts)).sum = 0) (m : String) :
    f m = 0 := by
  by_cases hm : m ∈ ds.map (·.mnemonic)
  · obtain ⟨d, hd, rfl⟩ := List.mem_map.mp hm
    rw [h.counts d hd]
    exact List.sum_eq_zero_iff.mp hsum _ (List.mem_map_of_mem hd)
  · exact h.rest m hm

theorem drained_drainForSync (c : StatsCollector) :
    Drained c.drainForSync.1 fun m => (c.entry m).counts where
  nodup := by
    have hkeys : c.drainForSync.1.map (·.mnemonic) = (Table.rows c.deltas).map (·.1) := by
      simp [StatsCollector.drainForSync]
    rw [hkeys]
    exact Table.keys_rows_nodup c.deltas
  counts := by
    intro d hd
    obtain ⟨row, hrow, rfl⟩ := List.mem_map.mp hd
    rw [StatsCollector.entry, Table.mem_rows.mp hrow]
    rfl
  rest := by
    intro m hm
    have hlookup : c.deltas.lookup m = none := by
      by_contra hsome
      obtain ⟨entry, hentry⟩ := Option.ne_none_iff_exists'.mp hsome
      refine hm (List.mem_map.mpr ⟨⟨m, entry.resolves, entry.updates, entry.lastResolvedAt,
        entry.lastUpdatedAt⟩, ?_, rfl⟩)
      exact List.mem_map.mpr ⟨(m, entry), Table.mem_rows.mpr hentry, rfl⟩
    rw [StatsCollector.entry, hlookup]
    rfl

/-- The totals of a DID after a flush. -/
def StatsStore.totalCounts (s : StatsStore) (mnemonic : String) : Counts :=
  ((s.total (statsKey mnemonic)).totalResolves, (s.total (statsKey mnemonic)).totalUpdates)

theorem totalCounts_flush (h : Drained ds f) (m : String) :
    (WriteBatch.commit (batchOf s now ds) s : StatsStore).totalCounts m =
      s.totalCounts m + f m := by
  have hkeys : ((totalRows s ds).map (·.1)) = (ds.map (·.mnemonic)).map statsKey := by
    simp [totalRows]
  have hlookup : (WriteBatch.commit (batchOf s now ds) s : StatsStore).stats.lookup (statsKey m) =
      (Table.lastValue (statsKey m) (totalRows s ds)).or (s.stats.lookup (statsKey m)) :=
    Table.lookup_write _ _ _
  by_cases hm : m ∈ ds.map (·.mnemonic)
  · obtain ⟨d, hd, rfl⟩ := List.mem_map.mp hm
    have hlast : Table.lastValue (statsKey d.mnemonic) (totalRows s ds) =
        some (addDelta (s.total (statsKey d.mnemonic)) d) := by
      refine Table.lastValue_of_mem ?_ (List.mem_map_of_mem hd)
      rw [hkeys]
      exact h.nodup.map statsKey_injective
    have htotal : (WriteBatch.commit (batchOf s now ds) s : StatsStore).total
        (statsKey d.mnemonic) = addDelta (s.total (statsKey d.mnemonic)) d := by
      rw [StatsStore.total, hlookup, hlast]
      rfl
    rw [StatsStore.totalCounts, htotal, h.counts d hd]
    rfl
  · have hlast : Table.lastValue (statsKey m) (totalRows s ds) = none := by
      apply Table.lastValue_eq_none.mpr
      rw [hkeys]
      intro hmem
      obtain ⟨m', hm', hkey⟩ := List.mem_map.mp hmem
      exact hm (statsKey_injective hkey ▸ hm')
    have htotal : (WriteBatch.commit (batchOf s now ds) s : StatsStore).total (statsKey m) =
        s.total (statsKey m) := by
      rw [StatsStore.total, hlookup, hlast, Option.none_or]
      rfl
    rw [StatsStore.totalCounts, htotal, h.rest m hm, add_zero]
    rfl

theorem row_countedRows (h : Drained ds f) (m : String) (b : ℕ) :
    ((Table.write (countedRows s bucket ds) s.timeseries).lookup (tsKey m b)).getD (0, 0) =
      s.row (tsKey m b) + if b = bucket then f m else 0 := by
  have hkeys : ((countedRows s bucket ds).map (·.1)) =
      ((ds.filter fun d => d.counts ≠ 0).map (·.mnemonic)).map (tsKey · bucket) := by
    simp [countedRows]
  rw [Table.lookup_write]
  by_cases hm : ∃ d ∈ ds, d.counts ≠ 0 ∧ d.mnemonic = m ∧ b = bucket
  · obtain ⟨d, hd, hcounts, rfl, rfl⟩ := hm
    have hlast : Table.lastValue (tsKey d.mnemonic b) (countedRows s b ds) =
        some (s.row (tsKey d.mnemonic b) + d.counts) := by
      refine Table.lastValue_of_mem ?_ (List.mem_map_of_mem (List.mem_filter.mpr ⟨hd, ?_⟩))
      · rw [hkeys]
        refine List.Nodup.map (fun m m' hkey => (tsKey_inj.mp hkey).1) ?_
        exact h.nodup.sublist (List.filter_sublist.map _)
      · exact decide_eq_true hcounts
    rw [hlast, if_pos rfl, h.counts d hd]
    rfl
  · have hlast : Table.lastValue (tsKey m b) (countedRows s bucket ds) = none := by
      apply Table.lastValue_eq_none.mpr
      rw [hkeys]
      intro hmem
      obtain ⟨m', hm', hkey⟩ := List.mem_map.mp hmem
      obtain ⟨d, hd, rfl⟩ := List.mem_map.mp hm'
      obtain ⟨hmem, hcounts⟩ := List.mem_filter.mp hd
      obtain ⟨hname, hbucket⟩ := tsKey_inj.mp hkey
      exact hm ⟨d, hmem, of_decide_eq_true hcounts, hname, hbucket.symm⟩
    have hzero : (if b = bucket then f m else 0) = 0 := by
      split
      · rename_i hb
        by_cases hmem : m ∈ ds.map (·.mnemonic)
        · obtain ⟨d, hd, rfl⟩ := List.mem_map.mp hmem
          rw [h.counts d hd]
          by_contra hcounts
          exact hm ⟨d, hd, hcounts, rfl, hb⟩
        · exact h.rest m hmem
      · rfl
    rw [hlast, hzero, add_zero, Option.none_or]
    rfl

theorem row_flush (h : Drained ds f) (m : String) (b : ℕ) :
    (WriteBatch.commit (batchOf s now ds) s : StatsStore).row (tsKey m b) =
      s.row (tsKey m b) + if b = bucketEpoch now then (if m = "_all" then ∑ᶠ m, f m else f m)
        else 0 := by
  have hrow : (WriteBatch.commit (batchOf s now ds) s : StatsStore).row (tsKey m b) =
      ((Table.write (batchOf s now ds).timeseries s.timeseries).lookup (tsKey m b)).getD (0, 0) :=
    rfl
  rw [hrow, batchOf]
  dsimp only
  rw [h.sum_eq, Table.write_append]
  by_cases hsum : ∑ᶠ m, f m = 0
  · have hzero : ∀ m, f m = 0 := h.eq_zero (h.sum_eq.trans hsum)
    rw [if_pos hsum, Table.write_nil, row_countedRows h, hsum, hzero m]
    simp
  · rw [if_neg hsum, Table.write_cons, Table.write_nil, Table.lookup_insert_ite]
    by_cases hkey : tsKey m b = tsKey "_all" (bucketEpoch now)
    · obtain ⟨rfl, rfl⟩ := tsKey_inj.mp hkey
      rw [if_pos rfl, if_pos rfl, if_pos rfl]
      rfl
    · rw [if_neg hkey, row_countedRows h]
      by_cases hb : b = bucketEpoch now
      · have hm : m ≠ "_all" := fun hm => hkey (by rw [hm, hb])
        rw [if_pos hb, if_pos hb, if_neg hm]
      · rw [if_neg hb, if_neg hb]

end

end Stats

end DidHosting
