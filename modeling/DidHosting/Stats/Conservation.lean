import DidHosting.Stats.Flush
import Mathlib.Tactic.Abel

/-!
# Counts over runs

A count is recorded in the collector, drained by a flush, and stored by its batch.  It is lost
where the flush fails behind the drain.  What the row `_all` has more than the rows of the
DIDs is what was counted for a DID of that name, and the buckets of the collector keep
everything that was ever recorded.
-/

namespace DidHosting

namespace Stats

/-! ## Runs -/

/-- The collector of the control plane and its store. -/
structure StatsProcess where
  collector : StatsCollector
  store : StatsStore

inductive StatsRecord where
  | resolve (mnemonic : String)
  | update (mnemonic : String)
  | deltas (d : DidStatsDelta)

/-- The calls.  The `i`-th access of a flush to the store fails with `fault i`. -/
inductive StatsCall where
  | record (r : StatsRecord) (now : ℕ)
  | flush (now : ℕ) (fault : ℕ → Option AppError)

/-- The collector after a call that records. -/
def StatsRecord.apply (now : ℕ) (c : StatsCollector) : StatsRecord → StatsCollector
  | .resolve mnemonic => c.recordResolve mnemonic now
  | .update mnemonic => c.recordUpdate mnemonic now
  | .deltas d => c.recordDeltas d now

/-- The DID a call records for. -/
def StatsRecord.mnemonic : StatsRecord → String
  | .resolve mnemonic => mnemonic
  | .update mnemonic => mnemonic
  | .deltas d => d.mnemonic

/-- What a call records. -/
def StatsRecord.counts : StatsRecord → Counts
  | .resolve _ => (1, 0)
  | .update _ => (0, 1)
  | .deltas d => d.counts

namespace StatsProcess

/-- `flush_stats_to_store`: the drain, and then the store. -/
def flush (now : ℕ) (fault : ℕ → Option AppError) (p : StatsProcess) :
    Except AppError Unit × StatsProcess :=
  let drained := p.collector.drainForSync
  let ran := (flushStatsToStore now drained.1).runFaulty fault 0 p.store
  (ran.1, ⟨drained.2, ran.2.1⟩)

/-- The process after a call. -/
def step (p : StatsProcess) : StatsCall → StatsProcess
  | .record r now => { p with collector := r.apply now p.collector }
  | .flush now fault => (p.flush now fault).2

/-- The process after a list of calls. -/
def run (p : StatsProcess) (calls : List StatsCall) : StatsProcess :=
  calls.foldl step p

/-- What is recorded for a DID and not yet drained. -/
def pending (p : StatsProcess) (mnemonic : String) : Counts :=
  (p.collector.entry mnemonic).counts

/-- What the collector holds in a bucket. -/
def bucket (p : StatsProcess) (key : String × ℕ) : Counts :=
  (p.collector.buckets.lookup key).getD (0, 0)

/-- None of the accesses the flush makes fails. -/
def StoreAnswers (now : ℕ) (fault : ℕ → Option AppError) (p : StatsProcess) : Prop :=
  p.collector.drainForSync.1 = [] ∨
    ∀ i ≤ (flushBatch now p.collector.drainForSync.1).accesses p.store, fault i = none

instance (now : ℕ) (fault : ℕ → Option AppError) (p : StatsProcess) :
    Decidable (p.StoreAnswers now fault) :=
  inferInstanceAs (Decidable (_ ∨ _))

end StatsProcess

/-- What a call records for a DID. -/
def StatsCall.counts (mnemonic : String) : StatsCall → Counts
  | .record r _ => if mnemonic = r.mnemonic then r.counts else 0
  | .flush _ _ => 0

/-- What was recorded for a DID. -/
def recorded (calls : List StatsCall) (mnemonic : String) : Counts :=
  (calls.map (·.counts mnemonic)).sum

/-- A condition on every flush of a run, with the state it begins in. -/
def EachFlush (P : ℕ → (ℕ → Option AppError) → StatsProcess → Prop) :
    StatsProcess → List StatsCall → Prop
  | _, [] => True
  | p, .flush now fault :: calls => P now fault p ∧ EachFlush P (p.step (.flush now fault)) calls
  | p, .record r now :: calls => EachFlush P (p.step (.record r now)) calls

/-- A contribution of every flush of a run, with the state it begins in. -/
def flushSum (F : ℕ → (ℕ → Option AppError) → StatsProcess → Counts) :
    StatsProcess → List StatsCall → Counts
  | _, [] => 0
  | p, .flush now fault :: calls => F now fault p + flushSum F (p.step (.flush now fault)) calls
  | p, .record r now :: calls => flushSum F (p.step (.record r now)) calls

theorem flushSum_eq_zero_iff {F : ℕ → (ℕ → Option AppError) → StatsProcess → Counts}
    {p : StatsProcess} {calls : List StatsCall} :
    flushSum F p calls = 0 ↔ EachFlush (fun now fault p => F now fault p = 0) p calls := by
  induction calls generalizing p with
  | nil => exact ⟨fun _ => trivial, fun _ => rfl⟩
  | cons call calls ih =>
      cases call with
      | flush now fault =>
          rw [flushSum, EachFlush, ← ih]
          exact add_eq_zero
      | record r now => exact ih

theorem eachFlush_forall {ι : Type} {P : ι → ℕ → (ℕ → Option AppError) → StatsProcess → Prop}
    {p : StatsProcess} {calls : List StatsCall} :
    (∀ i, EachFlush (P i) p calls) ↔ EachFlush (fun now fault p => ∀ i, P i now fault p) p calls := by
  induction calls generalizing p with
  | nil => exact ⟨fun _ => trivial, fun _ _ => trivial⟩
  | cons call calls ih =>
      cases call with
      | flush now fault =>
          simp only [EachFlush, forall_and]
          rw [ih]
      | record r now => exact ih

/-! ## One call -/

section

variable {p : StatsProcess} {r : StatsRecord} {now : ℕ} {fault : ℕ → Option AppError}

theorem counts_insert {c : StatsCollector} {n : String} {e : MnemonicDeltas} {added : Counts}
    (he : e.counts = (c.entry n).counts + added) (m : String) :
    (((c.deltas.insert n e).lookup m).getD ⟨0, 0, none, none⟩).counts =
      (c.entry m).counts + if m = n then added else 0 := by
  rw [Table.lookup_insert_ite]
  by_cases hm : m = n
  · rw [if_pos hm, if_pos hm, hm]
    exact he
  · rw [if_neg hm, if_neg hm, add_zero]
    rfl

/-- A call that records adds its counts to the entry of its DID. -/
theorem entry_apply (r : StatsRecord) (now : ℕ) (c : StatsCollector) (m : String) :
    ((r.apply now c).entry m).counts =
      (c.entry m).counts + if m = r.mnemonic then r.counts else 0 := by
  cases r with
  | resolve mnemonic =>
      have he : (⟨(c.entry mnemonic).resolves + 1, (c.entry mnemonic).updates, some now,
          (c.entry mnemonic).lastUpdatedAt⟩ : MnemonicDeltas).counts =
          (c.entry mnemonic).counts + (1, 0) := rfl
      exact counts_insert he m
  | update mnemonic =>
      have he : (⟨(c.entry mnemonic).resolves, (c.entry mnemonic).updates + 1,
          (c.entry mnemonic).lastResolvedAt, some now⟩ : MnemonicDeltas).counts =
          (c.entry mnemonic).counts + (0, 1) := rfl
      exact counts_insert he m
  | deltas d =>
      obtain ⟨hresolves, hupdates⟩ := StatsCollector.entry_recordDeltas d now c m
      refine Prod.ext (hresolves.trans ?_) (hupdates.trans ?_)
      all_goals
        by_cases hm : m = d.mnemonic
        · simp [hm, StatsRecord.mnemonic, StatsRecord.counts, DidStatsDelta.counts,
            MnemonicDeltas.counts]
        · simp [hm, StatsRecord.mnemonic, MnemonicDeltas.counts]

theorem pending_record (m : String) : (p.step (.record r now)).pending m =
    p.pending m + if m = r.mnemonic then r.counts else 0 :=
  entry_apply r now p.collector m

theorem pending_flush (m : String) : (p.step (.flush now fault)).pending m = 0 := rfl

theorem commit_batchOf_nil (s : StatsStore) : WriteBatch.commit (batchOf s now []) s = s := by
  simp [batchOf, totalRows, countedRows, WriteBatch.commit]

theorem flush_of_counts (h : p.collector.drainForSync.1 ≠ []) :
    (flushStatsToStore now p.collector.drainForSync.1) =
      (Prog.ofQuery (flushBatch now p.collector.drainForSync.1) >>= fun batch =>
        Prog.commit batch (pure ())) := by
  unfold flushStatsToStore
  rw [if_neg]
  simpa using h

/-- Where the store answers, everything that was drained is stored. -/
theorem flush_of_answers (h : p.StoreAnswers now fault) :
    (p.flush now fault).1 = .ok () ∧ (p.step (.flush now fault)).store =
      WriteBatch.commit (batchOf p.store now p.collector.drainForSync.1) p.store := by
  by_cases hnil : p.collector.drainForSync.1 = []
  · have hflush : flushStatsToStore now p.collector.drainForSync.1 = pure () := by
      rw [hnil]
      rfl
    rw [StatsProcess.step, StatsProcess.flush, hflush, hnil, commit_batchOf_nil]
    exact ⟨rfl, rfl⟩
  · have hanswers := h.resolve_left hnil
    have hran := Prog.runFaulty_commitQuery (κ := Unit) fault
      (eval_flushBatch p.store now p.collector.drainForSync.1) 0
    rw [StatsProcess.step, StatsProcess.flush, flush_of_counts hnil]
    rcases hran with ⟨-, hok, hstore⟩ | ⟨⟨i, hi, hfault⟩, -⟩
    · exact ⟨hok, hstore⟩
    · rw [Nat.zero_add] at hfault
      exact absurd (hanswers i hi) hfault

theorem flush_of_not_answers (h : ¬ p.StoreAnswers now fault) :
    (∃ e, (p.flush now fault).1 = .error e) ∧ (p.step (.flush now fault)).store = p.store := by
  obtain ⟨hnil, hfails⟩ := not_or.mp h
  have hran := Prog.runFaulty_commitQuery (κ := Unit) fault
    (eval_flushBatch p.store now p.collector.drainForSync.1) 0
  rw [StatsProcess.step, StatsProcess.flush, flush_of_counts hnil]
  rcases hran with ⟨hnone, -⟩ | ⟨-, herr, hstore⟩
  · refine absurd ?_ hfails
    intro i hi
    have hi' := hnone i hi
    rwa [Nat.zero_add] at hi'
  · exact ⟨herr, hstore⟩

theorem addBucket_row (m : String) (epoch resolves updates : ℕ)
    (buckets : Table (String × ℕ) (ℕ × ℕ)) (key : String × ℕ) :
    ((StatsCollector.addBucket m epoch resolves updates buckets).lookup key).getD (0, 0) =
      (buckets.lookup key).getD (0, 0) + if key = (m, epoch) then (resolves, updates) else 0 := by
  unfold StatsCollector.addBucket
  rw [Table.lookup_insert_ite]
  by_cases hkey : key = (m, epoch)
  · rw [if_pos hkey, if_pos hkey, hkey]
    rfl
  · rw [if_neg hkey, if_neg hkey, add_zero]

/-- What a call adds to the buckets of the collector. -/
def StatsRecord.bucketCounts (r : StatsRecord) (now : ℕ) (key : String × ℕ) : Counts :=
  (if key = (r.mnemonic, bucketEpoch now) then r.counts else 0) +
    if key = ("_all", bucketEpoch now) then r.counts else 0

theorem addBuckets_row (r : StatsRecord) (now : ℕ) (buckets : Table (String × ℕ) (ℕ × ℕ))
    (key : String × ℕ) :
    ((StatsCollector.addBuckets r.mnemonic now r.counts.1 r.counts.2 buckets).lookup key).getD
        (0, 0) = (buckets.lookup key).getD (0, 0) + r.bucketCounts now key := by
  unfold StatsCollector.addBuckets
  rw [addBucket_row, addBucket_row, add_assoc]
  rfl

theorem bucket_record (key : String × ℕ) : (p.step (.record r now)).bucket key =
    p.bucket key + r.bucketCounts now key := by
  cases r with
  | resolve mnemonic => exact addBuckets_row (.resolve mnemonic) now p.collector.buckets key
  | update mnemonic => exact addBuckets_row (.update mnemonic) now p.collector.buckets key
  | deltas d =>
      have hrow := addBuckets_row (.deltas d) now p.collector.buckets key
      unfold StatsProcess.step StatsRecord.apply StatsProcess.bucket StatsCollector.recordDeltas
      dsimp only
      split
      · rename_i hzero
        have hcounts : (StatsRecord.deltas d).counts = 0 := Prod.ext hzero.1 hzero.2
        simp [StatsRecord.bucketCounts, hcounts]
      · exact hrow

theorem bucket_flush (key : String × ℕ) :
    (p.step (.flush now fault)).bucket key = p.bucket key := rfl

end

/-! ## Totals -/

/-- What the flushes of a run that fail have drained of a DID. -/
def lost (mnemonic : String) : StatsProcess → List StatsCall → Counts :=
  flushSum fun now fault p => if p.StoreAnswers now fault then 0 else p.pending mnemonic

theorem totals_run (p : StatsProcess) (calls : List StatsCall) (m : String) :
    (p.run calls).store.totalCounts m + (p.run calls).pending m + lost m p calls =
      p.store.totalCounts m + p.pending m + recorded calls m := by
  induction calls generalizing p with
  | nil => simp [StatsProcess.run, lost, flushSum, recorded]
  | cons call calls ih =>
      have hrun : p.run (call :: calls) = (p.step call).run calls := rfl
      have hrecorded : recorded (call :: calls) m = call.counts m + recorded calls m :=
        List.sum_cons
      rw [hrun, hrecorded]
      cases call with
      | record r now =>
          have hlost : lost m p (.record r now :: calls) =
              lost m (p.step (.record r now)) calls := rfl
          have hstore : (p.step (.record r now)).store = p.store := rfl
          have hcounts : (StatsCall.record r now).counts m =
              if m = r.mnemonic then r.counts else 0 := rfl
          rw [hlost, ih, hstore, pending_record, hcounts]
          abel
      | flush now fault =>
          have hlost : lost m p (.flush now fault :: calls) =
              (if p.StoreAnswers now fault then 0 else p.pending m) +
                lost m (p.step (.flush now fault)) calls := rfl
          have hstep : (p.step (.flush now fault)).store.totalCounts m +
              (if p.StoreAnswers now fault then 0 else p.pending m) =
                p.store.totalCounts m + p.pending m := by
            by_cases hanswers : p.StoreAnswers now fault
            · rw [if_pos hanswers, (flush_of_answers hanswers).2, add_zero,
                totalCounts_flush (drained_drainForSync p.collector)]
              rfl
            · rw [if_neg hanswers, (flush_of_not_answers hanswers).2]
          have hcounts : (StatsCall.flush now fault).counts m = 0 := rfl
          rw [hlost, hcounts, zero_add, ← hstep, add_left_comm, ih, pending_flush, add_zero]
          abel

/-! ## The row of the server -/

/-- The sum of the rows of the DIDs in a bucket. -/
noncomputable def StatsStore.didSum (s : StatsStore) (b : ℕ) : Counts :=
  ∑ᶠ m, if m = "_all" then 0 else s.row (tsKey m b)

/-- The row `_all` of a bucket is the sum of the rows of the DIDs. -/
def AllIsSum (s : StatsStore) (b : ℕ) : Prop :=
  s.row (tsKey "_all" b) = s.didSum b

theorem finite_rows (s : StatsStore) (b : ℕ) :
    (Function.support fun m => if m = "_all" then 0 else s.row (tsKey m b)).Finite := by
  have hkeys : {key : String | key ∈ s.timeseries.keys}.Finite := List.finite_toSet _
  refine (hkeys.preimage (f := (tsKey · b)) fun m _ m' _ h => (tsKey_inj.mp h).1).subset ?_
  intro m hm
  by_contra hnot
  have hlookup : s.timeseries.lookup (tsKey m b) = none := AList.lookup_eq_none.mpr hnot
  apply hm
  simp [StatsStore.row, hlookup]

theorem finite_pending (c : StatsCollector) :
    (Function.support fun m => (c.entry m).counts).Finite := by
  have hkeys : {m : String | m ∈ c.deltas.keys}.Finite := List.finite_toSet _
  refine hkeys.subset ?_
  intro m hm
  by_contra hnot
  have hlookup : c.deltas.lookup m = none := AList.lookup_eq_none.mpr hnot
  apply hm
  simp [StatsCollector.entry, hlookup, MnemonicDeltas.counts]

/-- The whole is what is counted for a DID and the rest. -/
theorem finsum_split {f : String → Counts} (hf : (Function.support f).Finite) (n : String) :
    ∑ᶠ m, f m = f n + ∑ᶠ m, if m = n then 0 else f m := by
  have hsplit : f = fun m => (if m = n then f m else 0) + if m = n then 0 else f m := by
    funext m
    by_cases hm : m = n
    · simp [hm]
    · simp [hm]
  have hleft : (Function.support fun m => if m = n then f m else 0).Finite := by
    refine hf.subset fun m hm => ?_
    by_contra hnot
    simp [Function.notMem_support.mp hnot] at hm
  have hright : (Function.support fun m => if m = n then 0 else f m).Finite := by
    refine hf.subset fun m hm => ?_
    by_contra hnot
    simp [Function.notMem_support.mp hnot] at hm
  calc ∑ᶠ m, f m = ∑ᶠ m, ((if m = n then f m else 0) + if m = n then 0 else f m) := by
        rw [← hsplit]
    _ = (∑ᶠ m, if m = n then f m else 0) + ∑ᶠ m, if m = n then 0 else f m :=
        finsum_add_distrib hleft hright
    _ = f n + ∑ᶠ m, if m = n then 0 else f m := by
        rw [finsum_eq_single _ n fun m hm => if_neg hm, if_pos rfl]

/-- What the flushes of a run store for a DID named `_all`. -/
def storedForAll (b : ℕ) : StatsProcess → List StatsCall → Counts :=
  flushSum fun now fault p =>
    if p.StoreAnswers now fault ∧ b = bucketEpoch now then p.pending "_all" else 0

theorem didSum_flush {s : StatsStore} {now : ℕ} (c : StatsCollector) (b : ℕ) :
    (WriteBatch.commit (batchOf s now c.drainForSync.1) s : StatsStore).didSum b =
      s.didSum b + if b = bucketEpoch now then
        ∑ᶠ m, if m = "_all" then 0 else (c.entry m).counts else 0 := by
  have hdrained := drained_drainForSync c
  unfold StatsStore.didSum
  by_cases hb : b = bucketEpoch now
  · have hrest : (Function.support fun m => if m = "_all" then 0 else (c.entry m).counts).Finite := by
      refine (finite_pending c).subset fun m hm => ?_
      by_contra hnot
      simp [Function.notMem_support.mp hnot] at hm
    rw [if_pos hb, ← finsum_add_distrib (finite_rows s b) hrest]
    refine finsum_congr fun m => ?_
    by_cases hm : m = "_all"
    · rw [if_pos hm, if_pos hm, if_pos hm, add_zero]
    · rw [if_neg hm, if_neg hm, if_neg hm, row_flush hdrained, if_pos hb, if_neg hm]
  · rw [if_neg hb, add_zero]
    refine finsum_congr fun m => ?_
    rw [row_flush hdrained, if_neg hb, add_zero]

theorem row_flush_all (p : StatsProcess) (now : ℕ) (fault : ℕ → Option AppError) (b : ℕ) :
    (p.step (.flush now fault)).store.row (tsKey "_all" b) + p.store.didSum b =
      p.store.row (tsKey "_all" b) + (p.step (.flush now fault)).store.didSum b +
        if p.StoreAnswers now fault ∧ b = bucketEpoch now then p.pending "_all" else 0 := by
  by_cases hanswers : p.StoreAnswers now fault
  · rw [(flush_of_answers hanswers).2, row_flush (drained_drainForSync p.collector), if_pos rfl,
      didSum_flush]
    by_cases hb : b = bucketEpoch now
    · rw [if_pos hb, if_pos hb, if_pos ⟨hanswers, hb⟩,
        finsum_split (finite_pending p.collector) "_all", StatsProcess.pending]
      abel
    · rw [if_neg hb, if_neg hb, if_neg fun h => hb h.2]
      abel
  · rw [(flush_of_not_answers hanswers).2, if_neg fun h => hanswers h.1, add_zero]

/-- What the row `_all` has more than the rows of the DIDs is what was stored for a DID of
that name. -/
theorem rows_run (p : StatsProcess) (calls : List StatsCall) (b : ℕ) :
    (p.run calls).store.row (tsKey "_all" b) + p.store.didSum b =
      p.store.row (tsKey "_all" b) + (p.run calls).store.didSum b + storedForAll b p calls := by
  induction calls generalizing p with
  | nil => simp [StatsProcess.run, storedForAll, flushSum, add_comm]
  | cons call calls ih =>
      have hrun : p.run (call :: calls) = (p.step call).run calls := rfl
      rw [hrun]
      cases call with
      | record r now => exact ih (p.step (.record r now))
      | flush now fault =>
          have hstored : storedForAll b p (.flush now fault :: calls) =
              (if p.StoreAnswers now fault ∧ b = bucketEpoch now then p.pending "_all" else 0) +
                storedForAll b (p.step (.flush now fault)) calls := rfl
          have hstep := row_flush_all p now fault b
          have hrest := ih (p.step (.flush now fault))
          rw [hstored]
          refine add_left_cancel (a := (p.step (.flush now fault)).store.row (tsKey "_all" b) +
            (p.step (.flush now fault)).store.didSum b) ?_
          calc _ = ((p.step (.flush now fault)).store.row (tsKey "_all" b) + p.store.didSum b) +
                (((p.step (.flush now fault)).run calls).store.row (tsKey "_all" b) +
                  (p.step (.flush now fault)).store.didSum b) := by abel
            _ = _ := by rw [hstep, hrest]
            _ = _ := by abel

/-! ## The buckets of the collector -/

/-- What a call adds to a bucket. -/
def StatsCall.bucketCounts (key : String × ℕ) : StatsCall → Counts
  | .record r now => r.bucketCounts now key
  | .flush _ _ => 0

/-- What was added to a bucket. -/
def recordedIn (calls : List StatsCall) (key : String × ℕ) : Counts :=
  (calls.map (·.bucketCounts key)).sum

/-- What was added to a bucket and then stored by a flush.  What the flush before left to the
next one is `fresh`. -/
def flushedIn (key : String × ℕ) : (String × ℕ → Counts) → StatsProcess → List StatsCall → Counts
  | _, _, [] => 0
  | fresh, p, .record r now :: calls =>
      flushedIn key (fun key => fresh key + r.bucketCounts now key) (p.step (.record r now)) calls
  | fresh, p, .flush now fault :: calls =>
      (if p.StoreAnswers now fault then fresh key else 0) +
        flushedIn key (fun _ => 0) (p.step (.flush now fault)) calls

/-- The collector holds no count in a bucket that was stored: at most those that were not. -/
def HoldsNoneStored (p : StatsProcess) (calls : List StatsCall) : Prop :=
  ∀ key, (p.run calls).bucket key + flushedIn key (fun _ => 0) p calls ≤ recordedIn calls key

theorem bucket_run (p : StatsProcess) (calls : List StatsCall) (key : String × ℕ) :
    (p.run calls).bucket key = p.bucket key + recordedIn calls key := by
  induction calls generalizing p with
  | nil => simp [StatsProcess.run, recordedIn]
  | cons call calls ih =>
      have hrun : p.run (call :: calls) = (p.step call).run calls := rfl
      have hrecorded : recordedIn (call :: calls) key =
          call.bucketCounts key + recordedIn calls key := List.sum_cons
      rw [hrun, hrecorded, ih, ← add_assoc]
      cases call with
      | record r now => rw [bucket_record, StatsCall.bucketCounts]
      | flush now fault => rw [bucket_flush, StatsCall.bucketCounts, add_zero]

/-- A call adds nothing to the buckets where it adds nothing for its DID. -/
theorem bucketCounts_eq_zero_iff (r : StatsRecord) (now : ℕ) :
    (∀ key, r.bucketCounts now key = 0) ↔ r.counts = 0 := by
  constructor
  · intro h
    have hkey := h (r.mnemonic, bucketEpoch now)
    rw [StatsRecord.bucketCounts, if_pos rfl] at hkey
    exact (add_eq_zero.mp hkey).1
  · intro h key
    simp [StatsRecord.bucketCounts, h]

/-- Nothing is stored from a bucket where no flush stores a count. -/
theorem flushedIn_eq_zero_iff {fresh : String × ℕ → Counts} {p : StatsProcess}
    {calls : List StatsCall} (h : (∀ key, fresh key = 0) ↔ ∀ m, p.pending m = 0) :
    (∀ key, flushedIn key fresh p calls = 0) ↔
      EachFlush (fun now fault p => p.StoreAnswers now fault → ∀ m, p.pending m = 0) p calls := by
  induction calls generalizing p fresh with
  | nil => exact ⟨fun _ => trivial, fun _ _ => rfl⟩
  | cons call calls ih =>
      cases call with
      | record r now =>
          refine ih ?_
          have hpending : (∀ m, (p.step (.record r now)).pending m = 0) ↔
              (∀ m, p.pending m = 0) ∧ r.counts = 0 := by
            simp only [pending_record, add_eq_zero, forall_and]
            refine and_congr_right fun _ => ⟨fun hcounts => ?_, fun hcounts m => ?_⟩
            · exact (if_pos rfl).symm.trans (hcounts r.mnemonic)
            · rw [hcounts, ite_self]
          rw [hpending, ← h, ← bucketCounts_eq_zero_iff r now, ← forall_and]
          exact forall_congr' fun key => add_eq_zero
      | flush now fault =>
          have hnone : (∀ key : String × ℕ, (fun _ => 0 : String × ℕ → Counts) key = 0) ↔
              ∀ m, (p.step (.flush now fault)).pending m = 0 :=
            ⟨fun _ m => pending_flush m, fun _ _ => rfl⟩
          rw [EachFlush, ← ih hnone]
          simp only [flushedIn, add_eq_zero, forall_and]
          refine and_congr_left fun _ => ?_
          by_cases hanswers : p.StoreAnswers now fault
          · simp only [hanswers, ↓reduceIte, forall_const]
            exact h
          · simp only [hanswers, ↓reduceIte, false_imp_iff, implies_true]

theorem holdsNoneStored_iff {p : StatsProcess} {calls : List StatsCall}
    (hpending : ∀ m, p.pending m = 0) (hbucket : ∀ key, p.bucket key = 0) :
    HoldsNoneStored p calls ↔
      EachFlush (fun now fault p => p.StoreAnswers now fault → ∀ m, p.pending m = 0) p calls := by
  have hfresh : (∀ key : String × ℕ, (fun _ => 0 : String × ℕ → Counts) key = 0) ↔
      ∀ m, p.pending m = 0 := ⟨fun _ => hpending, fun _ _ => rfl⟩
  rw [← flushedIn_eq_zero_iff hfresh]
  refine forall_congr' fun key => ?_
  rw [bucket_run, hbucket, zero_add, add_le_iff_nonpos_right]
  exact nonpos_iff_eq_zero

end Stats

/-! ## Conservation -/

open Stats

/-- The parts of the conservation of counts, in a run from an empty collector.  The totals
and what is pending are everything recorded exactly where no flush that has counts to store
fails.  The rows `_all` stay the sums of the rows exactly where no flush stores counts for a
DID of that name.  After a flush no delta is left, but the buckets of the collector hold
stored counts as soon as a flush has stored any. -/
theorem flushes_conserve_iff (s : StatsStore) (hs : ∀ b, AllIsSum s b) (calls : List StatsCall) :
    let p : StatsProcess := ⟨StatsCollector.new, s⟩
    ((∀ m, (p.run calls).store.totalCounts m + (p.run calls).pending m =
        s.totalCounts m + recorded calls m) ↔
      EachFlush (fun now fault p => p.StoreAnswers now fault ∨ ∀ m, p.pending m = 0) p calls) ∧
    ((∀ b, AllIsSum (p.run calls).store b) ↔
      EachFlush (fun now fault p => p.StoreAnswers now fault → p.pending "_all" = 0) p calls) ∧
    (HoldsNoneStored p calls ↔
      EachFlush (fun now fault p => p.StoreAnswers now fault → ∀ m, p.pending m = 0) p calls) ∧
    ∀ now fault, (∀ m, ((p.run calls).step (.flush now fault)).pending m = 0) ∧
      (((p.run calls).flush now fault).1 = .ok () ↔ (p.run calls).StoreAnswers now fault) := by
  intro p
  have hpending : ∀ m, p.pending m = 0 := fun _ => rfl
  refine ⟨?_, ?_, holdsNoneStored_iff hpending fun _ => rfl, ?_⟩
  · have hlost : (∀ m, (p.run calls).store.totalCounts m + (p.run calls).pending m =
        s.totalCounts m + recorded calls m) ↔ ∀ m, lost m p calls = 0 := by
      refine forall_congr' fun m => ?_
      have hrun := totals_run p calls m
      rw [hpending m, add_zero] at hrun
      rw [← hrun, left_eq_add]
    rw [hlost]
    simp only [lost, flushSum_eq_zero_iff]
    rw [eachFlush_forall]
    refine iff_of_eq (congrArg (EachFlush · p calls) ?_)
    funext now fault q
    by_cases hanswers : q.StoreAnswers now fault
    · simp [hanswers]
    · simp [hanswers]
  · have hstored : (∀ b, AllIsSum (p.run calls).store b) ↔ ∀ b, storedForAll b p calls = 0 := by
      refine forall_congr' fun b => ?_
      have hrun := rows_run p calls b
      have hstart : p.store.row (tsKey "_all" b) = p.store.didSum b := hs b
      have hsum : (p.run calls).store.row (tsKey "_all" b) =
          (p.run calls).store.didSum b + storedForAll b p calls := by
        refine add_right_cancel (b := p.store.didSum b) ?_
        rw [hrun, hstart]
        abel
      rw [AllIsSum, hsum]
      exact add_eq_left
    rw [hstored]
    simp only [storedForAll, flushSum_eq_zero_iff]
    rw [eachFlush_forall]
    refine iff_of_eq (congrArg (EachFlush · p calls) ?_)
    funext now fault q
    by_cases hanswers : q.StoreAnswers now fault
    · simp [hanswers]
    · simp [hanswers]
  · intro now fault
    refine ⟨fun m => pending_flush m, ⟨fun hok => ?_, fun hanswers => (flush_of_answers hanswers).1⟩⟩
    by_contra hanswers
    obtain ⟨e, herr⟩ := (flush_of_not_answers hanswers).1
    rw [herr] at hok
    cases hok

namespace Stats

theorem allIsSum_empty (b : ℕ) : AllIsSum ⟨∅, ∅⟩ b := by
  change (0 : Counts) = ∑ᶠ m : String, if m = "_all" then 0 else (0 : Counts)
  simp only [ite_self, finsum_zero]

end Stats

/-- A run that resolves a DID and then flushes. -/
theorem flushes_conserve_sample :
    (∀ m, (StatsProcess.run ⟨StatsCollector.new, ⟨∅, ∅⟩⟩
        [.record (.resolve "al") 0, .flush 0 fun _ => none]).store.totalCounts m +
      (StatsProcess.run ⟨StatsCollector.new, ⟨∅, ∅⟩⟩
        [.record (.resolve "al") 0, .flush 0 fun _ => none]).pending m =
      (⟨∅, ∅⟩ : StatsStore).totalCounts m +
        recorded [.record (.resolve "al") 0, .flush 0 fun _ => none] m) ∧
    ∀ b, AllIsSum (StatsProcess.run ⟨StatsCollector.new, ⟨∅, ∅⟩⟩
      [.record (.resolve "al") 0, .flush 0 fun _ => none]).store b := by
  obtain ⟨htotals, hrows, -⟩ := flushes_conserve_iff ⟨∅, ∅⟩ allIsSum_empty
    [.record (.resolve "al") 0, .flush 0 fun _ => none]
  refine ⟨htotals.mpr ⟨.inl (.inr fun _ _ => rfl), trivial⟩, hrows.mpr ⟨fun _ => ?_, trivial⟩⟩
  decide +kernel

/-- A failed flush loses the count, a DID named `_all` is counted in its own row only, and a
stored count stays in the buckets. -/
theorem counts_lost_shared_and_held :
    (¬ ∀ (s : StatsStore) (calls : List StatsCall) (m : String),
      (StatsProcess.run ⟨StatsCollector.new, s⟩ calls).store.totalCounts m +
        (StatsProcess.run ⟨StatsCollector.new, s⟩ calls).pending m =
          s.totalCounts m + recorded calls m) ∧
    (¬ ∀ (s : StatsStore) (calls : List StatsCall), (∀ b, AllIsSum s b) →
      ∀ b, AllIsSum (StatsProcess.run ⟨StatsCollector.new, s⟩ calls).store b) ∧
    ¬ ∀ (s : StatsStore) (calls : List StatsCall), HoldsNoneStored ⟨StatsCollector.new, s⟩ calls := by
  refine ⟨fun h => ?_, fun h => ?_, fun h => ?_⟩
  · have hlost := h ⟨∅, ∅⟩ [.record (.resolve "al") 0, .flush 0 fun _ => some (.internal "")] "al"
    exact absurd hlost (by decide +kernel)
  · have hall := h ⟨∅, ∅⟩ [.record (.deltas ⟨"_all", 1, 0, none, none⟩) 0, .flush 0 fun _ => none]
      allIsSum_empty 0
    have hrun := rows_run ⟨StatsCollector.new, ⟨∅, ∅⟩⟩
      [.record (.deltas ⟨"_all", 1, 0, none, none⟩) 0, .flush 0 fun _ => none] 0
    have hstart : StatsStore.row ⟨∅, ∅⟩ (tsKey "_all" 0) = StatsStore.didSum ⟨∅, ∅⟩ 0 :=
      allIsSum_empty 0
    rw [hall, ← hstart] at hrun
    have hnone := left_eq_add.mp ((add_comm _ _).trans hrun)
    exact absurd hnone (by decide +kernel)
  · have hheld := h ⟨∅, ∅⟩ [.record (.resolve "al") 0, .flush 0 fun _ => none] ("al", 0)
    exact absurd hheld (by decide +kernel)

end DidHosting
