import Mathlib.Logic.Relation
import DidHosting.Support.Run
import DidHosting.Edge.Domains

/-!
# Append-only history on an edge

Whatever an edge is told, the logs it commits for one did:webvh identity form a
chain in which each log extends all earlier ones, and a deactivated log is
followed only by itself.  The high-water row of the identity carries the
argument: it equals the last committed log, nothing removes it, and every
update is checked against it.
-/

namespace DidHosting

open Text

/-! ## What an applied update has checked -/

section Spec

variable {E : EdgeState} {V : Set EdgeStore} {now : ℕ} {update : DidSyncUpdate}

/-- What `verify_history` has checked when it returns `identity`. -/
structure HistoryChecked (L : Libs) (V : Set EdgeStore) (mnemonic didId logContent : String)
    (method : Method) (identity : String) : Prop where
  slot_method : ∃ s ∈ V, ∃ t ∈ V,
    checkSlotMethod mnemonic method (s.record mnemonic) (t.slotMark mnemonic) = .ok ()
  identity_eq : didIdentity method didId = .ok identity
  extends_highWater : ∃ s ∈ V, ∀ previous, s.highWater identity = some previous →
    checkSuccessor L method didId previous logContent = .ok ()

theorem checkSuccessors_mem {L : Libs} {method : Method} {didId logContent : String}
    {logs : List String}
    (h : checkSuccessors L method didId logContent logs = .ok ()) {previous : String}
    (hmem : previous ∈ logs) : checkSuccessor L method didId previous logContent = .ok () := by
  induction logs with
  | nil => simp at hmem
  | cons log logs ih =>
      rw [checkSuccessors] at h
      cases hc : checkSuccessor L method didId log logContent with
      | error e => simp [hc, bind, Except.bind] at h
      | ok u =>
          rcases List.mem_cons.mp hmem with rfl | hmem
          · exact hc
          · exact ih (by simpa [hc, bind, Except.bind] using h) hmem

theorem verifyHistory_spec {L : Libs} {mnemonic didId logContent identity : String}
    {method : Method}
    (h : (verifyHistory L mnemonic didId logContent method).Yields V identity) :
    HistoryChecked L V mnemonic didId logContent method identity := by
  unfold verifyHistory at h
  simp only [Query.yields_bind, Query.yields_read, Query.yields_ofExcept,
    Query.yields_pure] at h
  obtain ⟨_, ⟨_, _, rfl⟩, _, ⟨s, hs, rfl⟩, _, ⟨t, ht, rfl⟩, _, hmethod, _, hid, _,
    ⟨u, hu, rfl⟩, _, hsucc, rfl⟩ := h
  refine ⟨⟨s, hs, t, ht, hmethod⟩, hid, ⟨u, hu, ?_⟩⟩
  intro previous hprev
  exact checkSuccessors_mem hsucc (by simp [hprev])

/-- An update that changes the store has passed every check, and commits the
batch of `apply_single_update`. -/
theorem updatePlan_spec {r : Option EdgeWrite × SyncApplied}
    (h : (updatePlan E now update).Yields V r) :
    r = (none, .unchanged) ∨
      ∃ document identity previous,
        checkNamedDid E.libs (syncedMethod E.libs update.logContent) update = .ok () ∧
        (∃ s ∈ V, boundAt E.libs (syncedMethod E.libs update.logContent) update
          (servedBases E s.assignments) = true) ∧
        verifyContent E.libs (syncedMethod E.libs update.logContent) update =
          .ok document ∧
        HistoryChecked E.libs V update.mnemonic update.didId update.logContent
          (syncedMethod E.libs update.logContent) identity ∧
        (∃ s ∈ V, s.record update.mnemonic = previous) ∧
        r = (some (.dids (updateBatch E.libs update
          (syncedMethod E.libs update.logContent) previous
          (syncedRecord E.libs update (syncedMethod E.libs update.logContent) document now)
          identity)), .applied) := by
  unfold updatePlan verifyBinding at h
  simp only [Query.yields_bind, Query.yields_read, Query.yields_ofExcept,
    Query.yields_require] at h
  obtain ⟨_, ⟨_, hnamed, _, ⟨b, hb, rfl⟩, _, _, hbound⟩, document, hdoc, identity, hid,
    previous, ⟨p, hp, rfl⟩, _, ⟨_, _, rfl⟩, _, ⟨_, _, rfl⟩, h⟩ := h
  split at h
  · rw [Query.yields_pure] at h
    exact Or.inl h
  · rw [Query.yields_pure] at h
    exact Or.inr ⟨document, identity, _, hnamed, ⟨b, hb, hbound⟩, hdoc,
      verifyHistory_spec hid, ⟨p, hp, rfl⟩, h⟩

end Spec

/-! ## Effect on the high-water rows -/

section Effect

variable (L : Libs) (update : DidSyncUpdate) (method : Method)
  (previous : Option DidRecord) (record : DidRecord) (identity : String) (ks : DidsKs)

theorem onNames_retiredNames (host : String) :
    ∀ op ∈ retiredNames previous record host, op.onNames = true := by
  intro op hop
  cases previous with
  | none => simp [retiredNames] at hop
  | some prev =>
      obtain ⟨e, -, rfl⟩ := List.mem_map.mp hop
      rfl

theorem commit_updateBatch :
    (DidsKs.commit (updateBatch L update method previous record identity) ks).dids =
        ks.dids.insert update.mnemonic record ∧
      (DidsKs.commit (updateBatch L update method previous record identity) ks).contentLog =
        ks.contentLog.insert update.mnemonic update.logContent ∧
      (DidsKs.commit (updateBatch L update method previous record identity)
        ks).highWaterIdentity = ks.highWaterIdentity.insert identity update.logContent ∧
      (DidsKs.commit (updateBatch L update method previous record identity)
        ks).highWaterSlot =
          ks.highWaterSlot.insert update.mnemonic ⟨identity, update.didId, method⟩ := by
  have hnames : ∀ op ∈ retiredNames previous record (didHostOrEmpty L update.didId) ++
      (record.agentNames.map fun e =>
        BatchOp.insertName (didHostOrEmpty L update.didId) e.name update.mnemonic),
      op.onNames = true := by
    intro op hop
    rcases List.mem_append.mp hop with hop | hop
    · exact onNames_retiredNames previous record _ op hop
    · obtain ⟨e, -, rfl⟩ := List.mem_map.mp hop
      rfl
  obtain ⟨index, hindex⟩ :=
    DidsKs.commit_onNames hnames (ks.apply (.insertDid update.mnemonic record))
  have hsplit : DidsKs.commit (updateBatch L update method previous record identity) ks =
      DidsKs.commit ([.insertLog update.mnemonic update.logContent,
        .insertOwner "system" update.mnemonic, witnessWrite update] ++
        stageHighWater identity update.mnemonic update.didId method update.logContent)
        { ks.apply (.insertDid update.mnemonic record) with agentName := index } := by
    rw [← hindex]
    simp [updateBatch]
  rw [hsplit]
  cases hw : update.witnessContent <;>
    simp [stageHighWater, witnessWrite, hw, DidsKs.apply]

/-- The store after the batch of an applied update, row by row. -/
theorem updated_store (s : EdgeStore) :
    (∀ i, (EdgeStore.commit (.dids (updateBatch L update method previous record identity))
        s).highWater i = if i = identity then some update.logContent else s.highWater i) ∧
      (∀ m, (EdgeStore.commit (.dids (updateBatch L update method previous record identity))
        s).slotMark m =
          if m = update.mnemonic then some ⟨identity, update.didId, method⟩
          else s.slotMark m) ∧
      (∀ m, (EdgeStore.commit (.dids (updateBatch L update method previous record identity))
        s).record m = if m = update.mnemonic then some record else s.record m) ∧
      ∀ m, (EdgeStore.commit (.dids (updateBatch L update method previous record identity))
        s).log m =
          if m = update.mnemonic then some update.logContent else s.log m := by
  obtain ⟨hdids, hlog, hhw, hmark⟩ :=
    commit_updateBatch L update method previous record identity s.ks
  refine ⟨fun i => ?_, fun m => ?_, fun m => ?_, fun m => ?_⟩
  · exact (congrArg (AList.lookup i) hhw).trans (Table.lookup_insert_ite ..)
  · exact (congrArg (AList.lookup m) hmark).trans (Table.lookup_insert_ite ..)
  · exact (congrArg (AList.lookup m) hdids).trans (Table.lookup_insert_ite ..)
  · exact (congrArg (AList.lookup m) hlog).trans (Table.lookup_insert_ite ..)

end Effect

/-! ## Operations and runs -/

/-- The operations an edge applies, each with the clock readings it makes. -/
inductive EdgeOp where
  | syncUpdate (now : ℕ) (update : DidSyncUpdate)
  | syncBatch (updates : List (ℕ × DidSyncUpdate))
  | syncDelete (mnemonic : String)
  | domainAssign (now : ℕ) (assigner domain : String)
  | domainUnassign (now grace : ℕ) (assigner domain : String)
  | domainPurge (issuedAt : ℕ) (domain : String)
  | domainUpsert (scheduledBy : String) (entry : DomainEntry)
  | sweep (now : ℕ)
  | cleanup (now ttlSeconds : ℕ)

/-- An edge during a run: its store, and the updates it has committed so far,
oldest first. -/
structure EdgeRun where
  store : EdgeStore
  committed : List DidSyncUpdate

namespace EdgeRun

/-- The run after one sync entry.  An entry the edge already holds, or refuses,
commits nothing, and the next entry of its batch is tried all the same. -/
def entry (E : EdgeState) (r : EdgeRun) (e : ℕ × DidSyncUpdate) : EdgeRun :=
  match (applySyncEntry E e.1 e.2).run r.store with
  | (.ok .applied, s) => ⟨s, r.committed ++ [e.2]⟩
  | (_, s) => ⟨s, r.committed⟩

/-- The run after an operation that commits no log. -/
def after {α : Type} (r : EdgeRun) (p : EdgeM α) : EdgeRun :=
  { r with store := (p.run r.store).2 }

def step (E : EdgeState) (r : EdgeRun) : EdgeOp → EdgeRun
  | .syncUpdate now update => r.entry E (now, update)
  | .syncBatch updates => updates.foldl (entry E) r
  | .syncDelete mnemonic => r.after (doSyncDelete E mnemonic)
  | .domainAssign now assigner domain => r.after (doDomainAssign E.libs now assigner domain)
  | .domainUnassign now grace assigner domain =>
      r.after (doDomainUnassign E.libs now grace assigner domain)
  | .domainPurge issuedAt domain => r.after (doDomainPurge E.libs issuedAt domain)
  | .domainUpsert scheduledBy entry => r.after (doDomainUpsert E.libs scheduledBy entry)
  | .sweep now => r.after (runSweepOnce E.libs now)
  | .cleanup now ttlSeconds => r.after (cleanupEmptyDids now ttlSeconds)

/-- An edge that has served nothing yet.  Its assignments, pending purges and
domains are arbitrary. -/
def initial (assignments : Table String AssignmentEntry)
    (pendingPurges : Table String PendingPurge) (domains : Table String DomainEntry)
    (defaultDomain : Option String) : EdgeRun :=
  ⟨⟨DidsKs.empty, assignments, pendingPurges, domains, defaultDomain⟩, []⟩

theorem entry_store (E : EdgeState) (r : EdgeRun) (e : ℕ × DidSyncUpdate) :
    (r.entry E e).store = ((applySyncEntry E e.1 e.2).run r.store).2 := by
  unfold entry
  split <;> rename_i h <;> rw [h]

end EdgeRun

/-! ## What an operation does to the history -/

/-- The operation only removes a row. -/
def BatchOp.removes : BatchOp → Bool
  | .removeDid _ => true
  | .removeLog _ => true
  | .removeWitness _ => true
  | .removeOwner _ _ => true
  | .removeName _ _ => true
  | .removeWatcherSync _ => true
  | _ => false

/-- The write touches the `dids` keyspace by removing rows only. -/
def EdgeWrite.Removes : EdgeWrite → Prop
  | .dids batch => ∀ op ∈ batch, op.removes = true
  | _ => True

/-- The high-water rows are as before, and no slot has gained a record. -/
structure MarksKept (s t : EdgeStore) : Prop where
  highWater : ∀ identity, t.highWater identity = s.highWater identity
  slotMark : ∀ mnemonic, t.slotMark mnemonic = s.slotMark mnemonic
  record : ∀ mnemonic record, t.record mnemonic = some record →
    s.record mnemonic = some record

namespace MarksKept

theorem refl (s : EdgeStore) : MarksKept s s :=
  ⟨fun _ => rfl, fun _ => rfl, fun _ _ h => h⟩

theorem trans {s t u : EdgeStore} (hst : MarksKept s t) (htu : MarksKept t u) :
    MarksKept s u where
  highWater identity := (htu.highWater identity).trans (hst.highWater identity)
  slotMark mnemonic := (htu.slotMark mnemonic).trans (hst.slotMark mnemonic)
  record mnemonic record h := hst.record mnemonic record (htu.record mnemonic record h)

theorem apply {s : EdgeStore} {op : BatchOp} (h : op.removes = true) :
    MarksKept s { s with ks := s.ks.apply op } := by
  cases op with
  | removeDid m =>
      refine ⟨fun _ => rfl, fun _ => rfl, ?_⟩
      intro mnemonic record hrec
      have hrec' : (s.ks.dids.erase m).lookup mnemonic = some record := hrec
      exact Table.lookup_of_erase hrec'
  | removeLog m => exact ⟨fun _ => rfl, fun _ => rfl, fun _ _ h => h⟩
  | removeWitness m => exact ⟨fun _ => rfl, fun _ => rfl, fun _ _ h => h⟩
  | removeOwner o m => exact ⟨fun _ => rfl, fun _ => rfl, fun _ _ h => h⟩
  | removeName d n => exact ⟨fun _ => rfl, fun _ => rfl, fun _ _ h => h⟩
  | removeWatcherSync m => exact ⟨fun _ => rfl, fun _ => rfl, fun _ _ h => h⟩
  | _ => simp [BatchOp.removes] at h

theorem commit {w : EdgeWrite} (h : w.Removes) (s : EdgeStore) :
    MarksKept s (EdgeStore.commit w s) := by
  cases w with
  | dids batch =>
      change ∀ op ∈ batch, op.removes = true at h
      induction batch generalizing s with
      | nil => exact refl s
      | cons op batch ih =>
          have hhead : op.removes = true := h op List.mem_cons_self
          have htail := ih { s with ks := s.ks.apply op }
            (fun o ho => h o (List.mem_cons_of_mem _ ho))
          exact (apply hhead).trans htail
  | _ => exact ⟨fun _ => rfl, fun _ => rfl, fun _ _ h => h⟩

/-- An operation that only removes keeps the marks. -/
theorem run {α : Type} {p : EdgeM α} (hp : p.Writes EdgeWrite.Removes) (s : EdgeStore) :
    MarksKept s (p.run s).2 := by
  have hkeep : ∀ (w : EdgeWrite) (t : EdgeStore), w.Removes → MarksKept s t →
      MarksKept s (WriteBatch.commit w t) :=
    fun w t hw ht => ht.trans (commit hw t)
  exact hp.run_invariant hkeep (refl s)

end MarksKept

section Removals

open Prog

theorem dropSlot_removes (L : Libs) (mnemonic : String) (record : DidRecord) :
    (EdgeWrite.dids (dropSlot L mnemonic record)).Removes := by
  intro op hop
  rcases List.mem_append.mp hop with hop | hop
  · simp only [List.mem_cons, List.not_mem_nil, or_false] at hop
    rcases hop with rfl | rfl | rfl | rfl | rfl <;> rfl
  · obtain ⟨n, -, rfl⟩ := List.mem_map.mp hop
    rfl

theorem purgeLoop_writes (L : Libs) (target : String) (records : List DidRecord) :
    ∀ report, (purgeLoop L target report records).Writes EdgeWrite.Removes := by
  induction records with
  | nil =>
      intro report
      trivial
  | cons record records ih =>
      intro report
      unfold purgeLoop
      split
      · exact ih _
      · split
        · exact ih _
        · exact writes_bind ⟨dropSlot_removes L _ record, trivial⟩ fun _ => ih _

theorem purgeDomainDids_writes (L : Libs) (target : String) :
    (purgeDomainDids L target).Writes EdgeWrite.Removes :=
  writes_bind (writes_liftM _) fun _ => purgeLoop_writes L target _ _

theorem cancelPurge_writes (domain : String) :
    (cancelPurge domain).Writes EdgeWrite.Removes := by
  refine writes_bind (writes_liftM _) fun row => writes_writeOpt ?_
  intro w hw
  split at hw
  · cases hw
    trivial
  · contradiction

theorem deleteDomainRecord_writes (L : Libs) (name : String) :
    (deleteDomainRecord L name).Writes EdgeWrite.Removes := by
  unfold deleteDomainRecord
  split
  · trivial
  · refine writes_bind (writes_liftM _) fun _ => writes_bind (writes_liftM _) fun _ =>
      writes_bind (writes_writeOpt ?_) fun _ => trivial
    intro w hw
    split at hw
    · cases hw
      trivial
    · contradiction

theorem finishPurge_writes (L : Libs) (entry : PendingPurge) :
    (finishPurge L entry).Writes EdgeWrite.Removes := by
  unfold finishPurge
  split
  · exact deleteDomainRecord_writes L _
  · trivial

theorem sweepLoop_writes (L : Libs) (now : ℕ) (pending : List PendingPurge) :
    ∀ purged, (sweepLoop L now purged pending).Writes EdgeWrite.Removes := by
  induction pending with
  | nil =>
      intro purged
      trivial
  | cons entry pending ih =>
      intro purged
      unfold sweepLoop
      split
      · exact ih _
      · refine writes_bind (purgeDomainDids_writes L _) fun _ =>
          writes_bind (finishPurge_writes L entry) fun done => ?_
        split
        · exact writes_bind (cancelPurge_writes _) fun _ => ih _
        · exact ih _

theorem runSweepOnce_writes (L : Libs) (now : ℕ) :
    (runSweepOnce L now).Writes EdgeWrite.Removes :=
  writes_bind (writes_liftM _) fun _ => sweepLoop_writes L now _ _

theorem doDomainAssign_writes (L : Libs) (now : ℕ) (assigner domain : String) :
    (doDomainAssign L now assigner domain).Writes EdgeWrite.Removes :=
  writes_bind (writes_check _) fun _ =>
    writes_bind ⟨trivial, trivial⟩ fun _ => cancelPurge_writes domain

theorem doDomainUnassign_writes (L : Libs) (now grace : ℕ) (assigner domain : String) :
    (doDomainUnassign L now grace assigner domain).Writes EdgeWrite.Removes := by
  refine writes_bind (writes_check _) fun _ => writes_bind (writes_liftM _) fun row => ?_
  split
  · exact writes_bind ⟨trivial, trivial⟩ fun _ =>
      writes_bind ⟨trivial, trivial⟩ fun _ => trivial
  · exact writes_bind (writes_liftM _) fun _ => trivial

theorem doDomainPurge_writes (L : Libs) (issuedAt : ℕ) (domain : String) :
    (doDomainPurge L issuedAt domain).Writes EdgeWrite.Removes :=
  writes_bind (writes_check _) fun _ => writes_bind (writes_liftM _) fun _ =>
    writes_bind (writes_check _) fun _ => writes_bind (purgeDomainDids_writes L domain) fun _ =>
      writes_bind (cancelPurge_writes domain) fun _ => trivial

theorem updateDomain_writes (L : Libs) (name : String) (entry : DomainEntry) :
    (updateDomain L name entry).Writes EdgeWrite.Removes :=
  writes_bind (writes_check _) fun _ => writes_bind (writes_check _) fun _ =>
    writes_bind (writes_liftM _) fun _ => writes_bind (writes_check _) fun _ =>
      ⟨trivial, trivial⟩

theorem createDomain_writes (L : Libs) (entry : DomainEntry) :
    (createDomain L entry).Writes EdgeWrite.Removes :=
  writes_bind (writes_check _) fun _ => writes_bind (writes_liftM _) fun _ =>
    writes_bind (writes_check _) fun _ => ⟨trivial, trivial⟩

theorem upsertSchedule_writes (scheduledBy : String) (entry : DomainEntry) :
    (upsertSchedule scheduledBy entry).Writes EdgeWrite.Removes := by
  unfold upsertSchedule
  split
  · exact cancelPurge_writes _
  · split
    · exact ⟨trivial, trivial⟩
    · trivial

theorem doDomainUpsert_writes (L : Libs) (scheduledBy : String) (entry : DomainEntry) :
    (doDomainUpsert L scheduledBy entry).Writes EdgeWrite.Removes := by
  refine writes_bind (writes_check _) fun _ => writes_bind (writes_liftM _) fun row => ?_
  split
  · exact writes_bind (updateDomain_writes L _ entry) fun _ => upsertSchedule_writes _ entry
  · exact writes_bind (createDomain_writes L entry) fun _ => upsertSchedule_writes _ entry

theorem cleanupLoop_writes (now ttlSeconds : ℕ) (records : List DidRecord) :
    (cleanupLoop now ttlSeconds records).Writes EdgeWrite.Removes := by
  induction records with
  | nil => trivial
  | cons record records ih =>
      unfold cleanupLoop
      have hone : ∀ op : BatchOp, op.removes = true →
          (Prog.write (.dids [op]) : EdgeM Unit).Writes EdgeWrite.Removes := by
        intro op hop
        refine ⟨?_, trivial⟩
        intro o ho
        rw [List.mem_singleton.mp ho]
        exact hop
      split
      · exact writes_bind (hone _ rfl) fun _ => writes_bind (hone _ rfl) fun _ =>
          writes_bind (hone _ rfl) fun _ => writes_bind (hone _ rfl) fun _ => ih
      · exact ih

theorem cleanupEmptyDids_writes (now ttlSeconds : ℕ) :
    (cleanupEmptyDids now ttlSeconds).Writes EdgeWrite.Removes :=
  writes_bind (writes_liftM _) fun _ => cleanupLoop_writes now ttlSeconds _

theorem doSyncDelete_writes (E : EdgeState) (mnemonic : String) :
    (doSyncDelete E mnemonic).Writes EdgeWrite.Removes := by
  refine writes_planned ?_
  intro w a hw
  unfold syncDeletePlan at hw
  simp only [Query.yields_bind, Query.yields_read] at hw
  obtain ⟨row, -, hw⟩ := hw
  cases row with
  | none => simp at hw
  | some record =>
      simp only [Query.yields_pure, Prod.mk.injEq, Option.some.injEq] at hw
      rw [hw.1]
      exact dropSlot_removes E.libs mnemonic record

end Removals

/-- What an applied update has checked against the store `s`, and the rows it
leaves in the store `t`. -/
structure Applied (E : EdgeState) (update : DidSyncUpdate) (identity : String)
    (s t : EdgeStore) : Prop where
  identity_eq :
    didIdentity (syncedMethod E.libs update.logContent) update.didId = .ok identity
  slot_method :
    checkSlotMethod update.mnemonic (syncedMethod E.libs update.logContent)
      (s.record update.mnemonic) (s.slotMark update.mnemonic) = .ok ()
  successor : ∀ previous, s.highWater identity = some previous →
    checkSuccessor E.libs (syncedMethod E.libs update.logContent) update.didId previous
      update.logContent = .ok ()
  bound : boundAt E.libs (syncedMethod E.libs update.logContent) update
    (servedBases E s.assignments) = true
  highWater : ∀ i, t.highWater i =
    if i = identity then some update.logContent else s.highWater i
  slotMark : ∀ m, t.slotMark m =
    if m = update.mnemonic then
      some ⟨identity, update.didId, syncedMethod E.libs update.logContent⟩
    else s.slotMark m
  record : ∃ document now, ∀ m, t.record m =
    if m = update.mnemonic then
      some (syncedRecord E.libs update (syncedMethod E.libs update.logContent) document now)
    else s.record m

/-- A sync entry leaves the run as it is, or commits what `apply_single_update`
plans for it. -/
theorem EdgeRun.entry_plan (E : EdgeState) (r : EdgeRun) (e : ℕ × DidSyncUpdate) :
    r.entry E e = r ∨
      ∃ w, (updatePlan E e.1 e.2).Yields {r.store} (some w, .applied) ∧
        r.entry E e = ⟨EdgeStore.commit w r.store, r.committed ++ [e.2]⟩ := by
  obtain ⟨now, update⟩ := e
  have hrun : (applySyncEntry E now update).run r.store =
      match checkEntryCount update with
      | .error err => (.error err, r.store)
      | .ok _ => (Prog.planned (some EdgeLock.sync)
          ((updatePlan E now update).mapError syncRefusal)).run r.store := by
    unfold applySyncEntry
    cases checkEntryCount update <;> rfl
  unfold EdgeRun.entry
  rw [hrun]
  cases checkEntryCount update with
  | error err => exact Or.inl rfl
  | ok u =>
      simp only [Prog.run_planned]
      cases hplan : ((updatePlan E now update).mapError syncRefusal).eval r.store with
      | error err => exact Or.inl rfl
      | ok res =>
          rw [Query.eval_eq_ok_iff, Query.yields_mapError] at hplan
          rcases updatePlan_spec hplan with rfl | ⟨document, identity, previous, -, -, -, -, -, rfl⟩
          · exact Or.inl rfl
          · exact Or.inr ⟨_, hplan, rfl⟩

theorem EdgeRun.entry_cases (E : EdgeState) (r : EdgeRun) (e : ℕ × DidSyncUpdate) :
    r.entry E e = r ∨
      ∃ identity, Applied E e.2 identity r.store (r.entry E e).store ∧
        (r.entry E e).committed = r.committed ++ [e.2] := by
  rcases EdgeRun.entry_plan E r e with h | ⟨w, hplan, hentry⟩
  · exact Or.inl h
  · obtain ⟨now, update⟩ := e
    rcases updatePlan_spec hplan with h | ⟨document, identity, previous, -,
      ⟨b, rfl, hbound⟩, -, hchecked, ⟨p, rfl, rfl⟩, hw⟩
    · cases h
    · obtain ⟨s, rfl, t, rfl, hslot⟩ := hchecked.slot_method
      obtain ⟨u, rfl, hsucc⟩ := hchecked.extends_highWater
      obtain ⟨hhw, hmark, hrec, -⟩ := updated_store E.libs update
        (syncedMethod E.libs update.logContent) (r.store.record update.mnemonic)
        (syncedRecord E.libs update (syncedMethod E.libs update.logContent) document now)
        identity r.store
      cases hw
      rw [hentry]
      exact Or.inr ⟨identity, ⟨hchecked.identity_eq, hslot, hsucc, hbound, hhw, hmark,
        ⟨document, now, hrec⟩⟩, rfl⟩

/-- One change of an edge's history: either the marks are kept and nothing is
committed, or one update is applied. -/
inductive HistoryStep (E : EdgeState) (r r' : EdgeRun) : Prop where
  | kept (hmarks : MarksKept r.store r'.store) (hlogs : r'.committed = r.committed)
  | applied (update : DidSyncUpdate) (identity : String)
      (happlied : Applied E update identity r.store r'.store)
      (hlogs : r'.committed = r.committed ++ [update])

theorem HistoryStep.ofEntry (E : EdgeState) (r : EdgeRun) (e : ℕ × DidSyncUpdate) :
    HistoryStep E r (r.entry E e) := by
  rcases EdgeRun.entry_cases E r e with h | ⟨identity, happlied, hlogs⟩
  · rw [h]
    exact .kept (MarksKept.refl _) rfl
  · exact .applied e.2 identity happlied hlogs

/-- An operation takes one update or a batch of them, or removes rows only. -/
theorem EdgeRun.step_cases (E : EdgeState) (op : EdgeOp) :
    (∃ now update, op = .syncUpdate now update) ∨ (∃ updates, op = .syncBatch updates) ∨
      ∃ (α : Type) (p : EdgeM α), p.Writes EdgeWrite.Removes ∧
        ∀ r : EdgeRun, r.step E op = r.after p := by
  cases op with
  | syncUpdate now update => exact .inl ⟨now, update, rfl⟩
  | syncBatch updates => exact .inr (.inl ⟨updates, rfl⟩)
  | syncDelete m => exact .inr (.inr ⟨_, _, doSyncDelete_writes E m, fun _ => rfl⟩)
  | domainAssign now assigner d =>
      exact .inr (.inr ⟨_, _, doDomainAssign_writes E.libs now assigner d, fun _ => rfl⟩)
  | domainUnassign now grace assigner d =>
      exact .inr (.inr ⟨_, _, doDomainUnassign_writes E.libs now grace assigner d, fun _ => rfl⟩)
  | domainPurge issuedAt d =>
      exact .inr (.inr ⟨_, _, doDomainPurge_writes E.libs issuedAt d, fun _ => rfl⟩)
  | domainUpsert scheduledBy entry =>
      exact .inr (.inr ⟨_, _, doDomainUpsert_writes E.libs scheduledBy entry, fun _ => rfl⟩)
  | sweep now => exact .inr (.inr ⟨_, _, runSweepOnce_writes E.libs now, fun _ => rfl⟩)
  | cleanup now ttl => exact .inr (.inr ⟨_, _, cleanupEmptyDids_writes now ttl, fun _ => rfl⟩)

theorem EdgeRun.step_history (E : EdgeState) (r : EdgeRun) (op : EdgeOp) :
    Relation.ReflTransGen (HistoryStep E) r (r.step E op) := by
  rcases EdgeRun.step_cases E op with ⟨now, update, rfl⟩ | ⟨updates, rfl⟩ | ⟨α, p, hp, hstep⟩
  · exact .single (.ofEntry E r _)
  · change Relation.ReflTransGen (HistoryStep E) r (updates.foldl (EdgeRun.entry E) r)
    induction updates generalizing r with
    | nil => exact .refl
    | cons e updates ih => exact .head (.ofEntry E r e) (ih (r.entry E e))
  · rw [hstep]
    exact .single (.kept (MarksKept.run hp r.store) rfl)

theorem EdgeRun.exec_history (E : EdgeState) (r : EdgeRun) (ops : List EdgeOp) :
    Relation.ReflTransGen (HistoryStep E) r (Run.exec (EdgeRun.step E) r ops) := by
  induction ops generalizing r with
  | nil => exact .refl
  | cons op ops ih => exact (step_history E r op).trans (ih _)

end DidHosting
