import DidHosting.Edge.PendingPurges
import DidHosting.Support.Scan
import Mathlib.Logic.Relation

/-!
# How the slots of an edge change

Whatever an edge is told, its `dids` keyspace changes in two ways only: a verified
update writes a slot, or a slot is dropped together with the index rows of the record
it has at that moment.  Each operation is a sequence of such changes.
-/

namespace DidHosting

open Text

/-! ## Single changes -/

/-- A slot is dropped, or the slots stay. -/
inductive SlotDrop (L : Libs) (s t : EdgeStore) : Prop where
  | same (hks : t.ks = s.ks)
  | dropped (m : String) (record : DidRecord) (hrecord : s.record m = some record)
      (hks : t.ks = DidsKs.commit (dropSlot L m record) s.ks)

/-- Drops one after another. -/
abbrev SlotDrops (L : Libs) := Relation.ReflTransGen (SlotDrop L)

/-- What an accepted update of a slot commits. -/
structure SlotUpdate (E : EdgeState) (now : ℕ) (update : DidSyncUpdate) (s t : EdgeStore)
    (document : Option Json) (identity : String) : Prop where
  count : checkEntryCount update = .ok ()
  content :
    verifyContent E.libs (syncedMethod E.libs update.logContent) update = .ok document
  history : HistoryChecked E.libs {s} update.mnemonic update.didId update.logContent
    (syncedMethod E.libs update.logContent) identity
  ks : t.ks = DidsKs.commit
    (updateBatch E.libs update (syncedMethod E.libs update.logContent)
      (s.record update.mnemonic)
      (syncedRecord E.libs update (syncedMethod E.libs update.logContent) document now)
      identity) s.ks

/-- A sync entry leaves the store as it is, or commits the update. -/
theorem run_applySyncEntry (E : EdgeState) (now : ℕ) (update : DidSyncUpdate) (s : EdgeStore) :
    ((applySyncEntry E now update).run s).2 = s ∨
      ∃ document identity, SlotUpdate E now update s
        ((applySyncEntry E now update).run s).2 document identity := by
  unfold applySyncEntry
  cases hcount : checkEntryCount update with
  | error e => exact Or.inl rfl
  | ok u =>
      rw [Prog.run_check_bind_ok _ u rfl, Prog.run_planned]
      cases hplan : ((updatePlan E now update).mapError syncRefusal).eval s with
      | error e => exact Or.inl rfl
      | ok res =>
          rw [Query.eval_eq_ok_iff, Query.yields_mapError] at hplan
          rcases updatePlan_spec hplan with rfl | ⟨document, identity, previous, -, -, hcontent,
            hhistory, ⟨p, rfl, rfl⟩, rfl⟩
          · exact Or.inl rfl
          · exact Or.inr ⟨document, identity, hcount, hcontent, hhistory, rfl⟩

theorem run_doSyncDelete (E : EdgeState) (m : String) (s : EdgeStore) :
    ((doSyncDelete E m).run s).2 =
      match s.record m with
      | some record => EdgeStore.commit (.dids (dropSlot E.libs m record)) s
      | none => s := by
  unfold doSyncDelete
  rw [Prog.run_planned]
  have heval : (syncDeletePlan E m).eval s =
      match s.record m with
      | some record => .ok (some (.dids (dropSlot E.libs m record)), true)
      | none => .ok (none, false) := by
    unfold syncDeletePlan
    simp only [Query.read, bind, Query.bind, Query.eval]
    cases s.record m <;> rfl
  rw [heval]
  cases s.record m <;> rfl

theorem slotDrop_doSyncDelete (E : EdgeState) (m : String) (s : EdgeStore) :
    SlotDrop E.libs s ((doSyncDelete E m).run s).2 := by
  rw [run_doSyncDelete]
  split
  · rename_i record hrecord
    exact .dropped m record hrecord rfl
  · exact .same rfl

/-! ## Purges -/

section Purges

variable (L : Libs) {s : EdgeStore}

/-- The records of a keyed store have different mnemonics. -/
theorem nodup_allRecords (hkeyed : s.Keyed) :
    ((allRecords s).map (·.mnemonic)).Nodup := by
  have hnames : (allRecords s).map (·.mnemonic) = (Table.rows s.ks.dids).map Prod.fst := by
    unfold allRecords
    rw [List.map_map]
    refine List.map_congr_left fun row hrow => ?_
    exact hkeyed row.1 row.2 (Table.mem_rows.mp hrow)
  rw [hnames]
  exact Table.keys_rows_nodup _

theorem slotDrops_purgeLoop (target : String) (records : List DidRecord) (report : PurgeReport)
    (hnodup : (records.map (·.mnemonic)).Nodup)
    (hrecords : ∀ record ∈ records, s.record record.mnemonic = some record) :
    SlotDrops L s ((purgeLoop L target report records).run s).2 := by
  induction records generalizing report s with
  | nil => exact .refl
  | cons record records ih =>
      obtain ⟨hfirst, hrest⟩ := List.nodup_cons.mp hnodup
      have hlater : ∀ rec ∈ records, s.record rec.mnemonic = some rec :=
        fun rec hrec => hrecords rec (List.mem_cons_of_mem _ hrec)
      unfold purgeLoop
      split
      · exact ih _ hrest hlater
      · split
        · exact ih _ hrest hlater
        · have hdrop : SlotDrop L s (EdgeStore.commit (.dids (purgeBatch L record)) s) :=
            .dropped record.mnemonic record (hrecords record List.mem_cons_self) rfl
          refine Relation.ReflTransGen.head hdrop (ih _ hrest ?_)
          intro rec hrec
          have hne : rec.mnemonic ≠ record.mnemonic :=
            fun heq => hfirst (List.mem_map.mpr ⟨rec, hrec, heq⟩)
          rw [(commit_purgeBatch L record s rec.mnemonic).1, if_neg hne]
          exact hlater rec hrec

theorem slotDrops_purgeDomainDids (target : String) (hkeyed : s.Keyed) :
    SlotDrops L s ((purgeDomainDids L target).run s).2 := by
  refine slotDrops_purgeLoop L target (allRecords s) ⟨0, 0, 0⟩ (nodup_allRecords hkeyed) ?_
  intro record hmem
  obtain ⟨m, hm⟩ := mem_allRecords.mp hmem
  rw [hkeyed m record hm]
  exact hm

theorem slotDrops_doDomainPurge (issuedAt : ℕ) (domain : String) (hkeyed : s.Keyed) :
    SlotDrops L s ((doDomainPurge L issuedAt domain).run s).2 := by
  rw [run_doDomainPurge]
  split
  · split
    · exact (slotDrops_purgeDomainDids L domain hkeyed).tail (.same (EdgeStore.cancelled_ks ..))
    · exact .refl
  · exact .refl

theorem SlotDrop.keyed {t : EdgeStore} (h : SlotDrop L s t) (hkeyed : s.Keyed) : t.Keyed := by
  refine keyed_of_record hkeyed fun m record hm => ?_
  cases h with
  | same hks => rwa [EdgeStore.record, hks] at hm
  | dropped m' record' hrecord hks =>
      rw [EdgeStore.record, hks, commit_dropSlot] at hm
      have hm' := (Table.lookup_erase_ite ..).symm.trans hm
      split at hm'
      · contradiction
      · exact hm'

theorem SlotDrops.keyed {t : EdgeStore} (h : SlotDrops L s t) (hkeyed : s.Keyed) : t.Keyed := by
  induction h with
  | refl => exact hkeyed
  | tail _ hstep ih => exact SlotDrop.keyed L hstep ih

theorem slotDrops_sweepLoop (now : ℕ) (entries : List PendingPurge) (purged : ℕ)
    (hkeyed : s.Keyed) : SlotDrops L s ((sweepLoop L now purged entries).run s).2 := by
  induction entries generalizing purged s with
  | nil => exact .refl
  | cons entry entries ih =>
      unfold sweepLoop
      split
      · exact ih _ hkeyed
      · obtain ⟨report, s₁, hpurge, -⟩ :=
          run_purgeLoop L entry.domain (allRecords s) ⟨0, 0, 0⟩ s
        have hall : (purgeDomainDids L entry.domain).run s = (.ok report, s₁) := hpurge
        obtain ⟨done, s₂, hfinish, hks, -⟩ := run_finishPurge L entry s₁
        have hdrops : SlotDrops L s s₁ := by
          have := slotDrops_purgeDomainDids L entry.domain hkeyed
          rwa [hall] at this
        rw [Prog.run_bind_ok hall, Prog.run_bind_ok hfinish]
        split
        · have hcancelled : SlotDrops L s (s₂.cancelled entry.domain) :=
            (hdrops.tail (.same hks)).tail (.same (EdgeStore.cancelled_ks ..))
          rw [Prog.run_bind_ok (run_cancelPurge entry.domain s₂)]
          exact hcancelled.trans (ih _ (SlotDrops.keyed L hcancelled hkeyed))
        · have hsame : SlotDrops L s s₂ := hdrops.tail (.same hks)
          exact hsame.trans (ih _ (SlotDrops.keyed L hsame hkeyed))

theorem slotDrops_runSweepOnce (now : ℕ) (hkeyed : s.Keyed) :
    SlotDrops L s ((runSweepOnce L now).run s).2 :=
  slotDrops_sweepLoop L now _ 0 hkeyed

end Purges

/-! ## Operations -/

/-- The operation writes no slot: a sync delete, a directive or the sweep. -/
def EdgeOp.Drops : EdgeOp → Prop
  | .syncUpdate _ _ => False
  | .syncBatch _ => False
  | .cleanup _ _ => False
  | _ => True

/-- Such an operation drops slots one after another. -/
theorem slotDrops_step (E : EdgeState) (r : EdgeRun) {op : EdgeOp} (hop : op.Drops)
    (hkeyed : r.store.Keyed) : SlotDrops E.libs r.store (r.step E op).store := by
  cases op with
  | syncUpdate now update => exact absurd hop id
  | syncBatch updates => exact absurd hop id
  | cleanup now ttl => exact absurd hop id
  | syncDelete m => exact .single (slotDrop_doSyncDelete E m r.store)
  | domainPurge issuedAt d => exact slotDrops_doDomainPurge E.libs issuedAt d hkeyed
  | sweep now => exact slotDrops_runSweepOnce E.libs now hkeyed
  | domainAssign now assigner d =>
      refine .single (.same ?_)
      change ((doDomainAssign E.libs now assigner d).run r.store).2.ks = r.store.ks
      rw [run_doDomainAssign]
      split
      · exact EdgeStore.cancelled_ks ..
      · rfl
  | domainUnassign now grace assigner d =>
      refine .single (.same ?_)
      change ((doDomainUnassign E.libs now grace assigner d).run r.store).2.ks = r.store.ks
      rw [run_doDomainUnassign]
      split
      · split <;> rfl
      · rfl
  | domainUpsert scheduledBy entry =>
      refine .single (.same ?_)
      change ((doDomainUpsert E.libs scheduledBy entry).run r.store).2.ks = r.store.ks
      rw [run_doDomainUpsert]
      split
      · rcases rescheduled_cases
          { r.store with domains := r.store.domains.insert entry.name entry } scheduledBy entry
          with ⟨-, heq⟩ | ⟨_, _, -, -, heq⟩ | heq
        · rw [heq, EdgeStore.cancelled_ks]
        · rw [heq]
        · rw [heq]
      · rfl

end DidHosting
