import DidHosting.Edge.DomainSpec
import DidHosting.Common.Reference

/-!
# Purges that fail at a slot

A purge deletes the slots of a domain one after the other, each in a batch of its own.  A
batch that fails leaves its slot as it is and is counted; the purge goes on with the next
slot.  Here any of the batches may fail.

What a purge leaves is described row by row: a deleted slot takes the rows of its footprint
with it, and every row outside of the footprints stays.
-/

namespace DidHosting

open Text

/-! ## Rows of the keyspace -/

/-- What a row of the `dids` keyspace holds. -/
inductive RowValue where
  | record (record : DidRecord)
  | text (text : String)
  | mark (mark : SlotHighWater)
deriving DecidableEq, Repr

/-- The row under a key. -/
def DidsKs.row (ks : DidsKs) : RowKey → Option RowValue
  | .did m => (ks.dids.lookup m).map .record
  | .contentLog m => (ks.contentLog.lookup m).map .text
  | .contentWitness m => (ks.contentWitness.lookup m).map .text
  | .owner d m => (ks.ownerIndex.lookup (d, m)).map .text
  | .agentName d n => (ks.agentName.lookup (d, n)).map .text
  | .watcherSync m => (ks.watcherSync.lookup m).map .text
  | .highWaterIdentity i => (ks.highWaterIdentity.lookup i).map .text
  | .highWaterSlot m => (ks.highWaterSlot.lookup m).map .mark

/-- The rows of a slot: the record, the log, the witness file, the row of its owner, the
watcher-sync cursor, and the agent names that the record holds. -/
def slotRows (L : Libs) (record : DidRecord) : List RowKey :=
  [.did record.mnemonic, .contentLog record.mnemonic, .contentWitness record.mnemonic,
    .owner record.owner record.mnemonic, .watcherSync record.mnemonic] ++
    record.agentNames.map fun n => .agentName (hostOfDidId L record.didId) n.name

/-- The batch of a purged slot takes the rows of the slot and no other. -/
theorem row_purgeBatch (L : Libs) (record : DidRecord) (ks : DidsKs) (k : RowKey) :
    (DidsKs.commit (purgeBatch L record) ks).row k =
      if k ∈ slotRows L record then none else ks.row k := by
  have hks := commit_dropSlot L record.mnemonic record ks
  unfold purgeBatch
  rw [hks]
  have herase : ∀ {κ ν : Type} [DecidableEq κ] (t : Table κ ν) (key key' : κ) (f : ν → RowValue),
      ((t.erase key').lookup key).map f = if key = key' then none else (t.lookup key).map f := by
    intro κ ν _ t key key' f
    rw [Table.lookup_erase_ite]
    split <;> rfl
  cases k with
  | did m => simp [DidsKs.row, slotRows, herase]
  | contentLog m => simp [DidsKs.row, slotRows, herase]
  | contentWitness m => simp [DidsKs.row, slotRows, herase]
  | owner d m => simp [DidsKs.row, slotRows, herase]
  | watcherSync m => simp [DidsKs.row, slotRows, herase]
  | agentName d n =>
      simp only [DidsKs.row, slotRows, Table.lookup_eraseAll]
      by_cases hmem : (d, n) ∈ record.agentNames.map fun n =>
          (hostOfDidId L record.didId, n.name)
      · have hrow : RowKey.agentName d n ∈ record.agentNames.map fun n =>
            RowKey.agentName (hostOfDidId L record.didId) n.name := by
          obtain ⟨entry, hentry, heq⟩ := List.mem_map.mp hmem
          obtain ⟨rfl, rfl⟩ := Prod.mk.inj heq
          exact List.mem_map.mpr ⟨entry, hentry, rfl⟩
        rw [if_pos hmem]
        exact (if_pos (List.mem_append_right _ hrow)).symm
      · have hrow : RowKey.agentName d n ∉ slotRows L record := by
          intro h
          obtain hslot | hname := List.mem_append.mp h
          · simp at hslot
          · obtain ⟨entry, hentry, heq⟩ := List.mem_map.mp hname
            obtain ⟨rfl, rfl⟩ := RowKey.agentName.inj heq
            exact hmem (List.mem_map.mpr ⟨entry, hentry, rfl⟩)
        rw [if_neg hmem]
        exact (if_neg hrow).symm
  | highWaterIdentity i => simp [DidsKs.row, slotRows]
  | highWaterSlot m => simp [DidsKs.row, slotRows]

/-! ## The purge -/

namespace Faulty

structure PurgeReport where
  deleted : ℕ
  skippedNoDomain : ℕ
  skippedOtherDomain : ℕ
  failed : ℕ
deriving DecidableEq, Repr

/-- The record loop of `purge_domain_dids`, where `fails` says which batches fail. -/
def purgeLoop (L : Libs) (target : String) (fails : DidRecord → Bool) (report : PurgeReport)
    (s : EdgeStore) : List DidRecord → PurgeReport × EdgeStore
  | [] => (report, s)
  | record :: rest =>
      if record.domain = "" then
        purgeLoop L target fails { report with skippedNoDomain := report.skippedNoDomain + 1 } s
          rest
      else if record.domain ≠ target then
        purgeLoop L target fails
          { report with skippedOtherDomain := report.skippedOtherDomain + 1 } s rest
      else if fails record then
        purgeLoop L target fails { report with failed := report.failed + 1 } s rest
      else
        purgeLoop L target fails { report with deleted := report.deleted + 1 }
          (EdgeStore.commit (.dids (purgeBatch L record)) s) rest

def purgeDomainDids (L : Libs) (target : String) (fails : DidRecord → Bool) (s : EdgeStore) :
    PurgeReport × EdgeStore :=
  purgeLoop L target fails ⟨0, 0, 0, 0⟩ s (allRecords s)

/-- The record is tagged with the domain. -/
def Tagged (target : String) (record : DidRecord) : Prop :=
  record.domain ≠ "" ∧ record.domain = target

instance (target : String) : DecidablePred (Tagged target) :=
  fun _ => inferInstanceAs (Decidable (_ ∧ _))

section

variable {L : Libs} {target : String} {fails : DidRecord → Bool} {report : PurgeReport}
  {s : EdgeStore} {records : List DidRecord}

/-- The loop counts every record once, and deletes the tagged ones that do not fail. -/
theorem purgeLoop_eq (L : Libs) (target : String) (fails : DidRecord → Bool)
    (report : PurgeReport) (s : EdgeStore) (records : List DidRecord) :
    purgeLoop L target fails report s records =
      ({ deleted := report.deleted +
            records.countP fun r => decide (Tagged target r) && !fails r
         skippedNoDomain := report.skippedNoDomain + records.countP fun r => decide (r.domain = "")
         skippedOtherDomain := report.skippedOtherDomain +
            records.countP fun r => decide (r.domain ≠ "" ∧ r.domain ≠ target)
         failed := report.failed + records.countP fun r => decide (Tagged target r) && fails r },
        (records.filter fun r => decide (Tagged target r) && !fails r).foldl
          (fun s r => EdgeStore.commit (.dids (purgeBatch L r)) s) s) := by
  induction records generalizing report s with
  | nil => rfl
  | cons record rest ih =>
      rw [purgeLoop]
      by_cases hempty : record.domain = ""
      · have hnot : ¬Tagged target record := fun h => h.1 hempty
        rw [if_pos hempty, ih]
        simp [hempty, hnot, Nat.add_assoc, Nat.add_comm 1]
      · rw [if_neg hempty]
        by_cases hother : record.domain ≠ target
        · have hnot : ¬Tagged target record := fun h => hother h.2
          rw [if_pos hother, ih]
          simp [hempty, hother, hnot, Nat.add_assoc, Nat.add_comm 1]
        · have htagged : Tagged target record := ⟨hempty, not_not.mp hother⟩
          rw [if_neg hother]
          cases hfails : fails record with
          | true =>
              rw [if_pos rfl, ih]
              simp [List.countP_cons, hempty, htagged, hfails, Nat.add_assoc, Nat.add_comm 1]
              exact not_not.mp hother
          | false =>
              rw [if_neg Bool.false_ne_true, ih]
              simp [List.countP_cons, hempty, htagged, hfails, Nat.add_assoc, Nat.add_comm 1]
              exact not_not.mp hother

/-- Slot after slot, the rows of the deleted slots go. -/
theorem row_foldl_purgeBatch (L : Libs) (records : List DidRecord) (s : EdgeStore) (k : RowKey) :
    (records.foldl (fun s r => EdgeStore.commit (.dids (purgeBatch L r)) s) s).ks.row k =
      if ∃ record ∈ records, k ∈ slotRows L record then none else s.ks.row k := by
  induction records generalizing s with
  | nil => simp
  | cons record rest ih =>
      have hfirst : (EdgeStore.commit (.dids (purgeBatch L record)) s).ks.row k =
          if k ∈ slotRows L record then none else s.ks.row k := row_purgeBatch L record s.ks k
      rw [List.foldl_cons, ih, hfirst]
      by_cases hmem : k ∈ slotRows L record
      · rw [if_pos hmem, ite_self, if_pos ⟨record, List.mem_cons_self, hmem⟩]
      · have hiff : (∃ r ∈ record :: rest, k ∈ slotRows L r) ↔ ∃ r ∈ rest, k ∈ slotRows L r := by
          rw [List.exists_mem_cons_iff, or_iff_right hmem]
        rw [if_neg hmem, if_congr hiff rfl rfl]

theorem didsOnly_foldl_purgeBatch (L : Libs) (records : List DidRecord) (s : EdgeStore) :
    DidsOnly s (records.foldl (fun s r => EdgeStore.commit (.dids (purgeBatch L r)) s) s) := by
  induction records generalizing s with
  | nil => exact DidsOnly.refl s
  | cons record rest ih =>
      have hfirst : DidsOnly s (EdgeStore.commit (.dids (purgeBatch L record)) s) :=
        ⟨rfl, rfl, rfl, rfl⟩
      rw [List.foldl_cons]
      exact hfirst.trans (ih _)

theorem didsOnly_purgeDomainDids (L : Libs) (target : String) (fails : DidRecord → Bool)
    (s : EdgeStore) : DidsOnly s (purgeDomainDids L target fails s).2 := by
  rw [purgeDomainDids, purgeLoop_eq]
  exact didsOnly_foldl_purgeBatch L _ s

theorem row_purgeDomainDids (L : Libs) (target : String) (fails : DidRecord → Bool)
    (s : EdgeStore) (k : RowKey) :
    (purgeDomainDids L target fails s).2.ks.row k =
      if ∃ record ∈ allRecords s, Tagged target record ∧ fails record = false ∧
        k ∈ slotRows L record then none
      else s.ks.row k := by
  rw [purgeDomainDids, purgeLoop_eq]
  dsimp only
  rw [row_foldl_purgeBatch]
  refine if_congr ?_ rfl rfl
  constructor
  · rintro ⟨record, hmem, hrow⟩
    obtain ⟨hmem, htakes⟩ := List.mem_filter.mp hmem
    rw [Bool.and_eq_true, decide_eq_true_iff, Bool.not_eq_true'] at htakes
    exact ⟨record, hmem, htakes.1, htakes.2, hrow⟩
  · rintro ⟨record, hmem, htagged, hfails, hrow⟩
    refine ⟨record, List.mem_filter.mpr ⟨hmem, ?_⟩, hrow⟩
    rw [Bool.and_eq_true, decide_eq_true_iff, Bool.not_eq_true']
    exact ⟨htagged, hfails⟩

/-- A purge reports no failure when none of the batches failed. -/
theorem failed_eq_zero_iff : (purgeDomainDids L target fails s).1.failed = 0 ↔
    ∀ m record, s.record m = some record → Tagged target record → fails record = false := by
  rw [purgeDomainDids, purgeLoop_eq]
  change 0 + (allRecords s).countP _ = 0 ↔ _
  rw [Nat.zero_add, List.countP_eq_zero]
  constructor
  · intro h m record hrecord htagged
    have hnot := h record (mem_allRecords.mpr ⟨m, hrecord⟩)
    rw [Bool.and_eq_true, decide_eq_true_iff, not_and, Bool.not_eq_true] at hnot
    exact hnot htagged
  · intro h record hmem
    obtain ⟨m, hrecord⟩ := mem_allRecords.mp hmem
    rw [Bool.and_eq_true, decide_eq_true_iff, not_and, Bool.not_eq_true]
    exact h m record hrecord

end

/-- Where no batch fails, the purge is the program that commits them. -/
theorem run_purgeLoop (L : Libs) (target : String) (records : List DidRecord)
    (report : DidHosting.PurgeReport) (report' : PurgeReport) (s : EdgeStore) :
    ∃ done, (DidHosting.purgeLoop L target report records).run s =
      (.ok done, (purgeLoop L target (fun _ => false) report' s records).2) := by
  induction records generalizing report report' s with
  | nil => exact ⟨report, rfl⟩
  | cons record rest ih =>
      rw [DidHosting.purgeLoop, purgeLoop]
      by_cases hempty : record.domain = ""
      · rw [if_pos hempty, if_pos hempty]
        exact ih _ _ s
      rw [if_neg hempty, if_neg hempty]
      by_cases hother : record.domain ≠ target
      · rw [if_pos hother, if_pos hother]
        exact ih _ _ s
      rw [if_neg hother, if_neg hother, if_neg Bool.false_ne_true,
        Prog.run_bind_ok (Prog.run_write _ s)]
      exact ih _ _ _

theorem run_purgeDomainDids (L : Libs) (target : String) (s : EdgeStore) :
    ∃ report, (DidHosting.purgeDomainDids L target).run s =
      (.ok report, (purgeDomainDids L target (fun _ => false) s).2) :=
  run_purgeLoop L target (allRecords s) ⟨0, 0, 0⟩ ⟨0, 0, 0, 0⟩ s

/-! ## What a purge leaves -/

/-- A record that carries a domain carries the host of its DID. -/
def TaggedByHost (L : Libs) (s : EdgeStore) : Prop :=
  ∀ m record, s.record m = some record → record.domain ≠ "" → record.didId.isSome →
    record.domain = hostOfDidId L record.didId

theorem slotRows_disjoint {L : Libs} {record record' : DidRecord} {k : RowKey}
    (hmnemonic : record.mnemonic ≠ record'.mnemonic)
    (hhost : hostOfDidId L record.didId ≠ hostOfDidId L record'.didId)
    (h : k ∈ slotRows L record) : k ∉ slotRows L record' := by
  intro h'
  cases k with
  | agentName d n =>
      simp only [slotRows, List.mem_append, List.mem_cons, List.not_mem_nil, List.mem_map,
        reduceCtorEq, or_false, false_or, RowKey.agentName.injEq] at h h'
      obtain ⟨-, -, rfl, -⟩ := h
      obtain ⟨-, -, hsame, -⟩ := h'
      exact hhost hsame.symm
  | did m => simp_all [slotRows]
  | contentLog m => simp_all [slotRows]
  | contentWitness m => simp_all [slotRows]
  | owner d m => simp_all [slotRows]
  | watcherSync m => simp_all [slotRows]
  | highWaterIdentity i => simp [slotRows] at h
  | highWaterSlot m => simp [slotRows] at h

/-- A purge without failures takes the rows of the slots tagged with the domain, and no other
row.  Records without a domain are skipped.  Where a record that carries a domain carries its
DID's host, no such slot hosted on the domain is left, and no slot hosted elsewhere has
changed. -/
theorem purge_takes_tagged_slots (L : Libs) (target : String) (fails : DidRecord → Bool)
    (s : EdgeStore) (hkeyed : s.Keyed)
    (hfailed : (purgeDomainDids L target fails s).1.failed = 0) :
    (∀ m record, s.record m = some record → Tagged target record →
        .did m ∈ slotRows L record ∧
        ∀ k ∈ slotRows L record, (purgeDomainDids L target fails s).2.ks.row k = none) ∧
      (∀ k, (∀ m record, s.record m = some record → Tagged target record →
          k ∉ slotRows L record) →
        (purgeDomainDids L target fails s).2.ks.row k = s.ks.row k) ∧
      DidsOnly s (purgeDomainDids L target fails s).2 ∧
      (purgeDomainDids L target fails s).1.skippedNoDomain =
        (allRecords s).countP (fun r => decide (r.domain = "")) ∧
      (TaggedByHost L s →
        (∀ m record, (purgeDomainDids L target fails s).2.record m = some record →
          record.domain ≠ "" → record.didId.isSome → hostOfDidId L record.didId ≠ target) ∧
        ∀ m record, s.record m = some record → record.didId.isSome →
          hostOfDidId L record.didId ≠ "" → hostOfDidId L record.didId ≠ target →
          ∀ k ∈ slotRows L record,
            (purgeDomainDids L target fails s).2.ks.row k = s.ks.row k) := by
  have htakes := failed_eq_zero_iff.mp hfailed
  have hgone : ∀ m record, s.record m = some record → Tagged target record →
      ∀ k ∈ slotRows L record, (purgeDomainDids L target fails s).2.ks.row k = none := by
    intro m record hrecord htagged k hk
    rw [row_purgeDomainDids]
    exact if_pos ⟨record, mem_allRecords.mpr ⟨m, hrecord⟩, htagged,
      htakes m record hrecord htagged, hk⟩
  have hkept : ∀ k, (∀ m record, s.record m = some record → Tagged target record →
      k ∉ slotRows L record) →
      (purgeDomainDids L target fails s).2.ks.row k = s.ks.row k := by
    intro k hk
    rw [row_purgeDomainDids]
    refine if_neg ?_
    rintro ⟨record, hmem, htagged, -, hrow⟩
    obtain ⟨m, hrecord⟩ := mem_allRecords.mp hmem
    exact hk m record hrecord htagged hrow
  have hown : ∀ m record, s.record m = some record → .did m ∈ slotRows L record := by
    intro m record hrecord
    have hm : record.mnemonic = m := hkeyed m record hrecord
    rw [← hm]
    exact List.mem_cons_self
  refine ⟨fun m record hrecord htagged =>
      ⟨hown m record hrecord, hgone m record hrecord htagged⟩, hkept,
    didsOnly_purgeDomainDids L target fails s, ?_, fun hhosts => ⟨?_, ?_⟩⟩
  · rw [purgeDomainDids, purgeLoop_eq]
    exact Nat.zero_add _
  · intro m record hleft hne hdid hhost
    have hrow : (purgeDomainDids L target fails s).2.ks.row (.did m) = some (.record record) :=
      congrArg (Option.map RowValue.record) hleft
    have hrecord : s.record m = some record := by
      rw [row_purgeDomainDids] at hrow
      split at hrow
      · cases hrow
      · obtain ⟨record', hlookup, heq⟩ := Option.map_eq_some_iff.mp hrow
        cases heq
        exact hlookup
    have htagged : Tagged target record := ⟨hne, (hhosts m record hrecord hne hdid).trans hhost⟩
    rw [hgone m record hrecord htagged _ (hown m record hrecord)] at hrow
    cases hrow
  · intro m record hrecord hdid hhosted hhost k hk
    refine hkept k fun m' record' hrecord' htagged => ?_
    refine slotRows_disjoint ?_ ?_ hk
    · -- slots of one mnemonic are one slot, and this one is hosted elsewhere
      intro hsame
      have hm : m = m' := by
        rw [← hkeyed m record hrecord, ← hkeyed m' record' hrecord', hsame]
      rw [hm, hrecord'] at hrecord
      obtain rfl : record' = record := Option.some.inj hrecord
      exact hhost ((hhosts m' record' hrecord' htagged.1 hdid).symm.trans htagged.2)
    · cases hdid' : record'.didId with
      | none => exact hhosted
      | some did =>
          have hdomain := hhosts m' record' hrecord' htagged.1 (by rw [hdid']; rfl)
          rw [← hdid', ← hdomain, htagged.2]
          exact hhost

/-! ## Purges of `h.io` -/

namespace FaultSample

/-- A slot of `h.io`, as an edge tags it. -/
def synced : DidRecord :=
  ⟨"system", "alice", 1, 1, 1, some "did:webvh:s:h.io:alice", 3, false, none, .webvh, "h.io",
    none, []⟩

/-- A slot of `x.io`. -/
def elsewhere : DidRecord :=
  { synced with mnemonic := "bob", didId := some "did:webvh:s:x.io:bob", domain := "x.io" }

/-- The slot as it is registered on the control plane, without a domain. -/
def registered : DidRecord :=
  { synced with domain := "" }

/-- A store with the slots of `records`. -/
def holding (records : List DidRecord) : EdgeStore where
  ks := { DidsKs.empty with
    dids := records.foldr (fun record t => AList.insert record.mnemonic record t) ∅ }
  assignments := ∅
  pendingPurges := ∅
  domains := ∅
  defaultDomain := none

theorem record_holding {records : List DidRecord} {m : String} {record : DidRecord}
    (h : (holding records).record m = some record) : record ∈ records ∧ record.mnemonic = m := by
  induction records with
  | nil => cases h
  | cons r rest ih =>
      obtain ⟨rfl, rfl⟩ | hrest := Table.lookup_insert_cases h
      · exact ⟨List.mem_cons_self, rfl⟩
      · exact (ih hrest).imp_left (List.mem_cons_of_mem r)

theorem keyed_holding (records : List DidRecord) : (holding records).Keyed :=
  fun _ _ h => (record_holding h).2

/-- Three slots of an edge: of `h.io`, of `x.io` and without a domain. -/
def slots : List DidRecord :=
  [synced, elsewhere, { registered with mnemonic := "carol" }]

def mixed : EdgeStore :=
  holding slots

theorem tagged_mixed : TaggedByHost Reference.libs mixed := by
  intro m record h
  have hall : ∀ record ∈ slots, record.domain ≠ "" →
      record.didId.isSome → record.domain = hostOfDidId Reference.libs record.didId := by
    decide +kernel
  exact hall record (record_holding h).1

end FaultSample

open FaultSample in
theorem purge_takes_tagged_slots_synced :
    let result := purgeDomainDids Reference.libs "h.io" (fun _ => false) mixed
    (∀ k ∈ slotRows Reference.libs synced, result.2.ks.row k = none) ∧
      (∀ k ∈ slotRows Reference.libs elsewhere, result.2.ks.row k = mixed.ks.row k) ∧
      result.1.skippedNoDomain = 1 ∧
      mixed.record "alice" = some synced ∧ mixed.record "bob" = some elsewhere := by
  have ⟨hrows, huntagged⟩ : (mixed.record "alice" = some synced ∧
      mixed.record "bob" = some elsewhere) ∧
      (allRecords mixed).countP (fun r => decide (r.domain = "")) = 1 := by decide +kernel
  have hhost : hostOfDidId Reference.libs elsewhere.didId = "x.io" := by decide +kernel
  obtain ⟨htaken, -, -, hskipped, hhosted⟩ := purge_takes_tagged_slots Reference.libs "h.io"
    (fun _ => false) mixed (keyed_holding _) (failed_eq_zero_iff.mpr fun _ _ _ _ => rfl)
  refine ⟨(htaken _ _ hrows.1 ⟨by decide, rfl⟩).2, ?_, hskipped.trans huntagged, hrows⟩
  exact (hhosted tagged_mixed).2 _ _ hrows.2 rfl (by rw [hhost]; decide) (by rw [hhost]; decide)

open FaultSample in
/-- A slot without a domain outlives the purge of the domain its DID is hosted on. -/
theorem purge_leaves_untagged_slot :
    let result := purgeDomainDids Reference.libs "h.io" (fun _ => false) (holding [registered])
    result.1.failed = 0 ∧ hostOfDidId Reference.libs registered.didId = "h.io" ∧
      result.2.record "alice" = some registered := by
  decide +kernel

end Faulty

end DidHosting
