import DidHosting.Edge.AppendOnly
import DidHosting.Edge.Reconcile

/-!
# Rows of committed updates

Whatever an edge is told, each record, log and witness file it holds is that of an update
which it committed for the slot.  A row is only ever written by such an update or, with
another disabled flag, by a reconcile, so that it is enough to look at the insertions of a
batch.
-/

namespace DidHosting

open Text

/-! ## Rows and batches -/

section Rows

variable (L : Libs) (committed : List DidSyncUpdate)

/-- The log of an update committed for the slot. -/
def CommittedLog (mnemonic log : String) : Prop :=
  ∃ update ∈ committed, update.mnemonic = mnemonic ∧ update.logContent = log

/-- The witness file of an update committed for the slot. -/
def CommittedWitness (mnemonic witness : String) : Prop :=
  ∃ update ∈ committed, update.mnemonic = mnemonic ∧ update.witnessContent = some witness

/-- The record names the DID and the method of an update committed for the slot. -/
def CommittedRecord (mnemonic : String) (record : DidRecord) : Prop :=
  record.mnemonic = mnemonic ∧ ∃ update ∈ committed, update.mnemonic = mnemonic ∧
    record.didId = some update.didId ∧ record.method = syncedMethod L update.logContent

/-- Every record, log and witness file is that of a committed update. -/
structure RowsCommitted (s : EdgeStore) : Prop where
  record : ∀ m record, s.record m = some record → CommittedRecord L committed m record
  log : ∀ m log, s.log m = some log → CommittedLog committed m log
  witness : ∀ m witness, s.witness m = some witness → CommittedWitness committed m witness

/-- An operation that inserts only rows of committed updates. -/
def InsertsCommitted : BatchOp → Prop
  | .insertDid m record => CommittedRecord L committed m record
  | .insertLog m log => CommittedLog committed m log
  | .insertWitness m witness => CommittedWitness committed m witness
  | _ => True

/-- A write that inserts only rows of committed updates. -/
def EdgeWrite.InsertsCommitted : EdgeWrite → Prop
  | .dids batch => ∀ op ∈ batch, DidHosting.InsertsCommitted L committed op
  | _ => True

variable {L committed}

theorem CommittedLog.mono {committed' : List DidSyncUpdate} (hsub : committed ⊆ committed')
    {m log : String} (h : CommittedLog committed m log) : CommittedLog committed' m log := by
  obtain ⟨update, hmem, hupdate⟩ := h
  exact ⟨update, hsub hmem, hupdate⟩

theorem CommittedWitness.mono {committed' : List DidSyncUpdate} (hsub : committed ⊆ committed')
    {m witness : String} (h : CommittedWitness committed m witness) :
    CommittedWitness committed' m witness := by
  obtain ⟨update, hmem, hupdate⟩ := h
  exact ⟨update, hsub hmem, hupdate⟩

theorem CommittedRecord.mono {committed' : List DidSyncUpdate} (hsub : committed ⊆ committed')
    {m : String} {record : DidRecord} (h : CommittedRecord L committed m record) :
    CommittedRecord L committed' m record := by
  obtain ⟨hm, update, hmem, hupdate⟩ := h
  exact ⟨hm, update, hsub hmem, hupdate⟩

theorem RowsCommitted.mono {committed' : List DidSyncUpdate} (hsub : committed ⊆ committed')
    {s : EdgeStore} (h : RowsCommitted L committed s) : RowsCommitted L committed' s where
  record m record hrecord := (h.record m record hrecord).mono hsub
  log m log hlog := (h.log m log hlog).mono hsub
  witness m witness hwitness := (h.witness m witness hwitness).mono hsub

theorem RowsCommitted.apply {s : EdgeStore} (h : RowsCommitted L committed s) {op : BatchOp}
    (hop : InsertsCommitted L committed op) :
    RowsCommitted L committed { s with ks := s.ks.apply op } := by
  have hsame : ∀ {t : EdgeStore}, t.ks.dids = s.ks.dids → t.ks.contentLog = s.ks.contentLog →
      t.ks.contentWitness = s.ks.contentWitness → RowsCommitted L committed t := by
    intro t hdids hlogs hwitnesses
    refine ⟨fun m record hm => h.record m record ?_, fun m log hm => h.log m log ?_,
      fun m witness hm => h.witness m witness ?_⟩
    · rw [← hm, EdgeStore.record, EdgeStore.record, hdids]
    · rw [← hm, EdgeStore.log, EdgeStore.log, hlogs]
    · rw [← hm, EdgeStore.witness, EdgeStore.witness, hwitnesses]
  cases op with
  | insertDid m record =>
      refine ⟨fun m' record' hm => ?_, h.log, h.witness⟩
      obtain ⟨rfl, rfl⟩ | hold := Table.lookup_insert_cases hm
      · exact hop
      · exact h.record m' record' hold
  | insertLog m log =>
      refine ⟨h.record, fun m' log' hm => ?_, h.witness⟩
      obtain ⟨rfl, rfl⟩ | hold := Table.lookup_insert_cases hm
      · exact hop
      · exact h.log m' log' hold
  | insertWitness m witness =>
      refine ⟨h.record, h.log, fun m' witness' hm => ?_⟩
      obtain ⟨rfl, rfl⟩ | hold := Table.lookup_insert_cases hm
      · exact hop
      · exact h.witness m' witness' hold
  | removeDid m =>
      exact ⟨fun m' record hm => h.record m' record (Table.lookup_of_erase hm), h.log, h.witness⟩
  | removeLog m =>
      exact ⟨h.record, fun m' log hm => h.log m' log (Table.lookup_of_erase hm), h.witness⟩
  | removeWitness m =>
      exact ⟨h.record, h.log, fun m' witness hm => h.witness m' witness (Table.lookup_of_erase hm)⟩
  | _ => exact hsame rfl rfl rfl

theorem RowsCommitted.commit {s : EdgeStore} (h : RowsCommitted L committed s) {w : EdgeWrite}
    (hw : w.InsertsCommitted L committed) :
    RowsCommitted L committed (EdgeStore.commit w s) := by
  cases w with
  | dids batch =>
      induction batch generalizing s with
      | nil => exact h
      | cons op batch ih =>
          have hfirst := h.apply (hw op List.mem_cons_self)
          exact ih hfirst fun o ho => hw o (List.mem_cons_of_mem _ ho)
  | _ => exact ⟨h.record, h.log, h.witness⟩

theorem EdgeWrite.Removes.insertsCommitted {w : EdgeWrite} (hw : w.Removes) :
    w.InsertsCommitted L committed := by
  cases w with
  | dids batch =>
      intro op hop
      have hremoves := hw op hop
      cases op <;> trivial
  | _ => trivial

theorem updateBatch_insertsCommitted {update : DidSyncUpdate} (hupdate : update ∈ committed)
    (previous : Option DidRecord) (document : Option Json) (now : ℕ) (identity : String) :
    (EdgeWrite.dids (updateBatch L update (syncedMethod L update.logContent) previous
      (syncedRecord L update (syncedMethod L update.logContent) document now)
      identity)).InsertsCommitted L committed := by
  have hnames : ∀ op : BatchOp, op.onNames = true → InsertsCommitted L committed op := by
    intro op hop
    cases op <;> trivial
  have hwitness : InsertsCommitted L committed (witnessWrite update) := by
    unfold witnessWrite
    split
    · rename_i witness hsome
      exact ⟨update, hupdate, rfl, hsome⟩
    · trivial
  intro op hop
  simp only [updateBatch, stageHighWater, List.mem_append, List.mem_cons, List.not_mem_nil,
    or_false, List.mem_map] at hop
  obtain ((((rfl | hretired) | ⟨entry, -, rfl⟩) | (rfl | rfl | rfl)) | (rfl | rfl)) := hop
  · exact ⟨rfl, update, hupdate, rfl, rfl, rfl⟩
  · exact hnames op (onNames_retiredNames previous _ _ op hretired)
  · trivial
  · exact ⟨update, hupdate, rfl, rfl⟩
  · trivial
  · exact hwitness
  · trivial
  · trivial

end Rows

/-! ## Operations -/

section Operations

variable {E : EdgeState} {r : EdgeRun}

theorem rowsCommitted_entry (h : RowsCommitted E.libs r.committed r.store)
    (e : ℕ × DidSyncUpdate) :
    RowsCommitted E.libs (r.entry E e).committed (r.entry E e).store := by
  rcases EdgeRun.entry_plan E r e with hsame | ⟨w, hplan, hentry⟩
  · rw [hsame]
    exact h
  · rcases updatePlan_spec hplan with hnone | ⟨document, identity, previous, -, -, -, -, -, hw⟩
    · cases hnone
    · obtain rfl : w = _ := Option.some.inj (Prod.mk.inj hw).1
      rw [hentry]
      have hmem : e.2 ∈ r.committed ++ [e.2] := List.mem_append_right _ List.mem_cons_self
      exact (h.mono (List.subset_append_left _ _)).commit
        (updateBatch_insertsCommitted hmem previous document e.1 identity)

theorem rowsCommitted_step (h : RowsCommitted E.libs r.committed r.store) (op : EdgeOp) :
    RowsCommitted E.libs (r.step E op).committed (r.step E op).store := by
  rcases EdgeRun.step_cases E op with ⟨now, update, rfl⟩ | ⟨updates, rfl⟩ | ⟨α, p, hp, hstep⟩
  · exact rowsCommitted_entry h _
  · change RowsCommitted E.libs (updates.foldl (EdgeRun.entry E) r).committed
      (updates.foldl (EdgeRun.entry E) r).store
    induction updates generalizing r with
    | nil => exact h
    | cons e updates ih => exact ih (rowsCommitted_entry h e)
  · rw [hstep]
    have hkeep : ∀ w t, EdgeWrite.Removes w → RowsCommitted E.libs r.committed t →
        RowsCommitted E.libs r.committed (EdgeStore.commit w t) :=
      fun w t hw ht => ht.commit hw.insertsCommitted
    exact hp.run_invariant hkeep h

theorem committed_history {r' : EdgeRun} (h : Relation.ReflTransGen (HistoryStep E) r r') :
    r.committed ⊆ r'.committed := by
  induction h with
  | refl => exact List.Subset.refl _
  | tail _ hstep ih =>
      refine List.Subset.trans ih ?_
      cases hstep with
      | kept hmarks hlogs =>
          rw [hlogs]
          exact List.Subset.refl _
      | applied update identity happlied hlogs =>
          rw [hlogs]
          exact List.subset_append_left _ _

end Operations

/-! ## Methods and entries of committed logs -/

section Logs

variable {E : EdgeState} {r r' : EdgeRun}

/-- The slot of a committed update is marked with the method of its log. -/
def SlotMethods (L : Libs) (r : EdgeRun) : Prop :=
  ∀ update ∈ r.committed, ∃ mark, r.store.slotMark update.mnemonic = some mark ∧
    mark.method = syncedMethod L update.logContent

theorem SlotMethods.step (h : SlotMethods E.libs r) (hstep : HistoryStep E r r') :
    SlotMethods E.libs r' := by
  have hpersist := MarksPersist.ofStep hstep
  have hold : ∀ update ∈ r.committed, ∃ mark, r'.store.slotMark update.mnemonic = some mark ∧
      mark.method = syncedMethod E.libs update.logContent := by
    intro update hmem
    obtain ⟨mark, hmark, hmethod⟩ := h update hmem
    obtain ⟨mark', hmark', hkept⟩ := hpersist.slotMark _ mark hmark
    exact ⟨mark', hmark', hkept.trans hmethod⟩
  intro update hupdate
  cases hstep with
  | kept hmarks hlogs =>
      rw [hlogs] at hupdate
      exact hold update hupdate
  | applied update' identity happlied hlogs =>
      rw [hlogs] at hupdate
      rcases List.mem_append.mp hupdate with hmem | hmem
      · exact hold update hmem
      · obtain rfl := List.mem_singleton.mp hmem
        exact ⟨_, (happlied.slotMark _).trans (if_pos rfl), rfl⟩

theorem SlotMethods.run (h : SlotMethods E.libs r)
    (hrun : Relation.ReflTransGen (HistoryStep E) r r') : SlotMethods E.libs r' := by
  induction hrun with
  | refl => exact h
  | tail _ hstep ih => exact ih.step hstep

theorem SlotMethods.eq (h : SlotMethods E.libs r) {update update' : DidSyncUpdate}
    (hupdate : update ∈ r.committed) (hupdate' : update' ∈ r.committed)
    (hm : update.mnemonic = update'.mnemonic) :
    syncedMethod E.libs update.logContent = syncedMethod E.libs update'.logContent := by
  obtain ⟨mark, hmark, hmethod⟩ := h update hupdate
  obtain ⟨mark', hmark', hmethod'⟩ := h update' hupdate'
  rw [hm, hmark'] at hmark
  rw [← hmethod, ← hmethod', Option.some.inj hmark]

/-- The log is valid and has been read entry by entry. -/
def LogRead (L : Libs) (log : String) : Prop :=
  validateDidJsonl L log = .ok () ∧ ∃ entries, parseEntries L 0 none (lines log) = .ok entries

/-- The committed did:webvh logs have been read. -/
def LogsRead (L : Libs) (committed : List DidSyncUpdate) : Prop :=
  ∀ update ∈ committed, syncedMethod L update.logContent = .webvh →
    LogRead L update.logContent

theorem logRead_of_verifyContent {L : Libs} {update : DidSyncUpdate} {document : Option Json}
    (h : verifyContent L .webvh update = .ok document) : LogRead L update.logContent := by
  have hverify : verifyDidLogAndWitnessProofs L update.logContent update.witnessContent =
      .ok () := by
    unfold verifyContent at h
    simp only at h
    split at h
    · assumption
    · contradiction
  unfold verifyDidLogAndWitnessProofs verifyDidLogChain at hverify
  cases hvalid : validateDidJsonl L update.logContent with
  | error e => simp [hvalid, bind, Except.bind] at hverify
  | ok u =>
      cases hparse : parseEntries L 0 none (lines update.logContent) with
      | error e => simp [hvalid, hparse, bind, Except.bind] at hverify
      | ok entries => exact ⟨hvalid, entries, hparse⟩

theorem logsRead_entry (h : LogsRead E.libs r.committed) (e : ℕ × DidSyncUpdate) :
    LogsRead E.libs (r.entry E e).committed := by
  rcases EdgeRun.entry_plan E r e with hsame | ⟨w, hplan, hentry⟩
  · rw [hsame]
    exact h
  · rcases updatePlan_spec hplan with hnone | ⟨document, identity, previous, -, -, hcontent, -⟩
    · cases hnone
    · rw [hentry]
      intro update hupdate hmethod
      rcases List.mem_append.mp hupdate with hmem | hmem
      · exact h update hmem hmethod
      · obtain rfl := List.mem_singleton.mp hmem
        rw [hmethod] at hcontent
        exact logRead_of_verifyContent hcontent

theorem logsRead_step (h : LogsRead E.libs r.committed) (op : EdgeOp) :
    LogsRead E.libs (r.step E op).committed := by
  cases op with
  | syncUpdate now update => exact logsRead_entry h _
  | syncBatch updates =>
      change LogsRead E.libs (updates.foldl (EdgeRun.entry E) r).committed
      induction updates generalizing r with
      | nil => exact h
      | cons e updates ih => exact ih (logsRead_entry h e)
  | _ => exact h

end Logs

/-! ## Reconciles -/

section Reconcile

variable {s t : EdgeStore}

/-- The marks, the logs and the witness files are as before, and each record has another
disabled flag at most. -/
structure Repaired (s t : EdgeStore) : Prop where
  log : ∀ m, t.log m = s.log m
  witness : ∀ m, t.witness m = s.witness m
  highWater : ∀ identity, t.highWater identity = s.highWater identity
  slotMark : ∀ m, t.slotMark m = s.slotMark m
  record : ∀ m record, t.record m = some record →
    ∃ old, s.record m = some old ∧ record = { old with disabled := record.disabled }

/-- The write that repairs a record of the store. -/
def RepairOf (s : EdgeStore) (w : EdgeWrite) : Prop :=
  ∃ old disabled, s.record old.mnemonic = some old ∧
    w = .dids [.insertDid old.mnemonic { old with disabled := disabled }]

theorem compareLoop_writes (listed : Listing) (records : List DidRecord)
    (hheld : ∀ record ∈ records, s.record record.mnemonic = some record) :
    ∀ report, (compareLoop listed report records).Writes (RepairOf s) := by
  induction records with
  | nil =>
      intro report
      trivial
  | cons record records ih =>
      intro report
      have hrecord := hheld record List.mem_cons_self
      refine Prog.writes_bind (Prog.writes_writeOpt ?_) fun _ =>
        ih (fun rec hrec => hheld rec (List.mem_cons_of_mem _ hrec)) _
      intro w hw
      unfold reconcileRecord at hw
      split at hw
      · contradiction
      · split at hw
        · contradiction
        · simp only at hw
          split at hw
          · exact ⟨record, _, hrecord, (Option.some.inj hw).symm⟩
          · contradiction

theorem Repaired.commit (h : Repaired s t) {w : EdgeWrite} (hw : RepairOf s w) :
    Repaired s (EdgeStore.commit w t) := by
  obtain ⟨old, disabled, hold, rfl⟩ := hw
  refine ⟨h.log, h.witness, h.highWater, h.slotMark, fun m record hm => ?_⟩
  obtain ⟨rfl, rfl⟩ | hkept := Table.lookup_insert_cases hm
  · exact ⟨old, hold, rfl⟩
  · exact h.record m record hkept

theorem RepairOf.insertsCommitted {L : Libs} {committed : List DidSyncUpdate}
    (h : RowsCommitted L committed s) {w : EdgeWrite} (hw : RepairOf s w) :
    w.InsertsCommitted L committed := by
  obtain ⟨old, disabled, hold, rfl⟩ := hw
  intro op hop
  rw [List.mem_singleton.mp hop]
  exact h.record old.mnemonic old hold

/-- A reconcile repairs records, and keeps the rows those of committed updates. -/
theorem reconcileOnce_repairs {L : Libs} {committed : List DidSyncUpdate}
    (h : RowsCommitted L committed s) (replies : List ListingReply) :
    Repaired s ((reconcileOnce replies).run s).2 ∧
      RowsCommitted L committed ((reconcileOnce replies).run s).2 := by
  have hself : Repaired s s := ⟨fun _ => rfl, fun _ => rfl, fun _ => rfl, fun _ => rfl,
    fun _ record hm => ⟨record, hm, rfl⟩⟩
  have hheld : ∀ record ∈ heldRecords s, s.record record.mnemonic = some record := by
    intro record hmem
    obtain ⟨⟨m, hm⟩, -⟩ := mem_heldRecords.mp hmem
    rw [(h.record m record hm).1]
    exact hm
  unfold reconcileOnce
  cases hlisted : collectListing ∅ 0 replies with
  | error e => exact ⟨hself, h⟩
  | ok listed =>
      rw [Prog.run_check_bind_ok _ listed rfl]
      have hwrites := compareLoop_writes listed (heldRecords s) hheld
        ⟨[], missingSlots listed (heldRecords s), []⟩
      have hkeep : ∀ w t, RepairOf s w → Repaired s t ∧ RowsCommitted L committed t →
          Repaired s (EdgeStore.commit w t) ∧ RowsCommitted L committed (EdgeStore.commit w t) :=
        fun w t hw ht => ⟨ht.1.commit hw, ht.2.commit (hw.insertsCommitted h)⟩
      have hkept := hwrites.run_invariant hkeep ⟨hself, h⟩
      unfold applyListing
      rw [Prog.run_bind, Prog.run_liftM]
      simp only [Query.read, Query.eval]
      rw [Prog.run_bind]
      split
      all_goals
        rename_i hrun
        rw [hrun] at hkept
        exact hkept

theorem SlotMethods.repaired {L : Libs} {r : EdgeRun} (h : SlotMethods L r)
    (hrepaired : Repaired r.store t) : SlotMethods L { r with store := t } := by
  intro update hupdate
  obtain ⟨mark, hmark, hmethod⟩ := h update hupdate
  exact ⟨mark, (hrepaired.slotMark _).trans hmark, hmethod⟩

theorem HistoryInv.repaired {E : EdgeState} {r : EdgeRun} (h : HistoryInv E r)
    (hrepaired : Repaired r.store t) : HistoryInv E { r with store := t } where
  highWater scid hscid := (hrepaired.highWater scid).trans (h.highWater scid hscid)
  chain := h.chain
  record_mark m record hm := by
    obtain ⟨old, hold, heq⟩ := hrepaired.record m record hm
    obtain ⟨mark, hmark, hmethod⟩ := h.record_mark m old hold
    refine ⟨mark, (hrepaired.slotMark m).trans hmark, ?_⟩
    rw [hmethod, heq]

end Reconcile

end DidHosting
