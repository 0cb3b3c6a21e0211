import DidHosting.Common.Reference
import DidHosting.Edge.History

/-!
# A reference edge

An edge on the reference libraries, at `https://h.io`.  The results say which store
a sync update leaves, for every log the reference libraries verify.
-/

namespace DidHosting.Reference

open Text

/-- The edge at `https://h.io`. -/
def edge : EdgeState :=
  ⟨libs, some "https://h.io"⟩

/-- The sync update of a log without witness proofs. -/
def updateOf (es : List Json) (did path : String) (disabled : Bool) : DidSyncUpdate :=
  ⟨path, did, logOf es, none, es.length, disabled⟩

variable {s : EdgeStore} {es : List Json} {did scid path : String} {state : Json}
  {disabled : Bool}

/-- The record the update stores. -/
def syncedRecordOf (es : List Json) (did path : String) (disabled : Bool) (now : ℕ) :
    DidRecord :=
  syncedRecord libs (updateOf es did path disabled) .webvh none now

/-- The batch the update commits. -/
def syncedBatch (es : List Json) (did path scid : String) (disabled : Bool) (now : ℕ)
    (previous : Option DidRecord) : Batch :=
  updateBatch libs (updateOf es did path disabled) .webvh previous
    (syncedRecordOf es did path disabled now) scid

theorem checkEntryCount_updateOf (hlog : ValidLog es did state) :
    checkEntryCount (updateOf es did path disabled) = .ok () :=
  checkEntryCount_eq_ok_iff.mpr (entryCount_logOf hlog.wellFormed)

theorem syncedMethod_updateOf (hlog : ValidLog es did state) :
    syncedMethod libs (updateOf es did path disabled).logContent = .webvh := by
  change (detectMethod libs (logOf es)).getD .webvh = .webvh
  rw [hlog.detectMethod_eq]
  rfl

theorem checkNamedDid_updateOf (hlog : ValidLog es did state) :
    checkNamedDid libs .webvh (updateOf es did path disabled) = .ok () := by
  have hdid : extractDidId libs (logOf es) = some did := hlog.extractDidId_eq
  unfold checkNamedDid updateOf
  rw [hdid]
  simp

theorem boundAt_updateOf
    (hbound : validateDidIdMatchesRequest libs did path "https://h.io" = .ok ()) :
    boundAt libs .webvh (updateOf es did path disabled)
      (servedBases edge s.assignments) = true := by
  have hmem : "https://h.io" ∈ servedBases edge s.assignments :=
    List.mem_append_left _ List.mem_cons_self
  refine List.any_eq_true.mpr ⟨"https://h.io", hmem, ?_⟩
  change (validateDidIdMatchesRequest libs did path "https://h.io").isOk = true
  rw [hbound]
  rfl

theorem verifyContent_updateOf (hlog : ValidLog es did state) :
    verifyContent libs .webvh (updateOf es did path disabled) = .ok none := by
  unfold verifyContent updateOf
  simp only [hlog.verifyForSync]

/-- What the history of a store has to allow. -/
structure Allows (s : EdgeStore) (es : List Json) (path scid : String) : Prop where
  slot_method : checkSlotMethod path .webvh (s.record path) (s.slotMark path) = .ok ()
  held : ∀ previous, s.log path = some previous →
    verifyLogExtends libs (some previous) (logOf es) = .ok ()
  high_water : ∀ previous, s.highWater scid = some previous →
    verifyLogExtends libs (some previous) (logOf es) = .ok ()

theorem checkSuccessors_ok {didId logContent : String} {logs : List String}
    (h : ∀ previous ∈ logs, verifyLogExtends libs (some previous) logContent = .ok ()) :
    checkSuccessors libs .webvh didId logContent logs = .ok () := by
  induction logs with
  | nil => rfl
  | cons previous logs ih =>
      have hfirst : checkSuccessor libs .webvh didId previous logContent = .ok () := by
        unfold checkSuccessor
        simp only [h previous List.mem_cons_self]
      rw [checkSuccessors, hfirst]
      exact ih fun q hq => h q (List.mem_cons_of_mem _ hq)

theorem verifyHistory_allowed (hallows : Allows s es path scid)
    (hscid : webvhScid did = some scid) :
    (verifyHistory libs path did (logOf es) .webvh).Yields {s} scid := by
  have hident : didIdentity .webvh did = .ok scid := by
    unfold didIdentity
    simp only [hscid]
  unfold verifyHistory
  simp only [Query.yields_bind, Query.yields_read, Query.yields_ofExcept, Query.yields_pure,
    Set.mem_singleton_iff, exists_eq_left]
  refine ⟨(), hallows.slot_method, scid, hident, (), ?_, rfl⟩
  refine checkSuccessors_ok fun previous hmem => ?_
  rcases List.mem_append.mp hmem with hheld | hmark
  · have hlog := Option.mem_toList.mp hheld
    split at hlog
    · exact hallows.held previous hlog
    · contradiction
  · exact hallows.high_water previous (Option.mem_toList.mp hmark)

/-- A sync update of a valid log that the slot does not hold yet is applied, at any
base URL. -/
theorem run_syncEntry {base : Option String} (now : ℕ) (hlog : ValidLog es did state)
    (hbound : boundAt libs .webvh (updateOf es did path disabled)
      (servedBases ⟨libs, base⟩ s.assignments) = true)
    (hscid : webvhScid did = some scid) (hallows : Allows s es path scid)
    (hnew : alreadyHeld (updateOf es did path disabled) (s.record path) (s.log path)
      (s.witness path) = false) :
    (applySyncEntry ⟨libs, base⟩ now (updateOf es did path disabled)).run s =
      (.ok .applied, EdgeStore.commit
        (.dids (syncedBatch es did path scid disabled now (s.record path))) s) := by
  have hserves : (!(servedBases ⟨libs, base⟩ s.assignments).isEmpty) = true := by
    generalize servedBases ⟨libs, base⟩ s.assignments = bases at hbound
    cases bases with
    | nil => exact nomatch hbound
    | cons _ _ => rfl
  have hplan : (updatePlan ⟨libs, base⟩ now (updateOf es did path disabled)).Yields {s}
      (some (.dids (syncedBatch es did path scid disabled now (s.record path))), .applied) := by
    unfold updatePlan verifyBinding
    rw [syncedMethod_updateOf hlog]
    simp only [Query.yields_bind, Query.yields_read, Query.yields_ofExcept,
      Query.yields_require, Set.mem_singleton_iff, exists_eq_left]
    refine ⟨(), ⟨(), checkNamedDid_updateOf hlog, (), hserves, hbound⟩, none,
      verifyContent_updateOf hlog, scid, verifyHistory_allowed hallows hscid, ?_⟩
    have hnot : ¬ alreadyHeld (updateOf es did path disabled)
        (s.record (updateOf es did path disabled).mnemonic)
        (s.log (updateOf es did path disabled).mnemonic)
        (s.witness (updateOf es did path disabled).mnemonic) = true :=
      Bool.eq_false_iff.mp hnew
    rw [if_neg hnot, Query.yields_pure]
    rfl
  unfold applySyncEntry
  rw [Prog.run_check_bind_ok _ () (checkEntryCount_updateOf hlog)]
  exact Prog.run_planned_ok (Query.yields_mapError.mpr hplan)

/-- The first update of a slot on an edge that has not seen the DID. -/
theorem run_firstSync {base : Option String} (now : ℕ) (hlog : ValidLog es did state)
    (hbound : boundAt libs .webvh (updateOf es did path disabled)
      (servedBases ⟨libs, base⟩ s.assignments) = true)
    (hscid : webvhScid did = some scid) (hrecord : s.record path = none)
    (hmark : s.slotMark path = none) (hheld : s.log path = none)
    (hhigh : s.highWater scid = none) :
    (applySyncEntry ⟨libs, base⟩ now (updateOf es did path disabled)).run s =
      (.ok .applied, EdgeStore.commit
        (.dids (syncedBatch es did path scid disabled now none)) s) := by
  have hallows : Allows s es path scid := by
    refine ⟨?_, ?_, ?_⟩
    · rw [hrecord, hmark]
      rfl
    · rw [hheld]
      exact fun _ h => nomatch h
    · rw [hhigh]
      exact fun _ h => nomatch h
  have hnew : alreadyHeld (updateOf es did path disabled) (s.record path) (s.log path)
      (s.witness path) = false := by
    rw [hrecord]
    rfl
  have hrun := run_syncEntry now hlog hbound hscid hallows hnew
  rwa [hrecord] at hrun

theorem syncedBatch_rows (now : ℕ) (previous : Option DidRecord) (s : EdgeStore) :
    let t := EdgeStore.commit (.dids (syncedBatch es did path scid disabled now previous)) s
    t.record path = some (syncedRecordOf es did path disabled now) ∧
      t.log path = some (logOf es) ∧ t.slotMark path = some ⟨scid, did, .webvh⟩ ∧
      t.highWater scid = some (logOf es) := by
  intro t
  obtain ⟨hhigh, hmark, hrec, hlog⟩ := updated_store libs (updateOf es did path disabled) .webvh
    previous (syncedRecordOf es did path disabled now) scid s
  exact ⟨(hrec path).trans (if_pos rfl), (hlog path).trans (if_pos rfl),
    (hmark path).trans (if_pos rfl), (hhigh scid).trans (if_pos rfl)⟩

/-- A slot allows what goes on from the log it holds. -/
theorem allows_append {more : List Json} {now : ℕ} {previous : Option DidRecord}
    (hes : ∀ e ∈ es, WellFormed e) (hmore : ∀ e ∈ more, WellFormed e)
    (hactive : ∀ e ∈ es, ((e.get "parameters").bind (Json.get "deactivated")).bind Json.asBool =
      none) :
    Allows (EdgeStore.commit (.dids (syncedBatch es did path scid disabled now previous)) s)
      (es ++ more) path scid := by
  obtain ⟨hrec, hlog, hmark, hhigh⟩ := @syncedBatch_rows es did scid path disabled now previous s
  have hextends := verifyLogExtends_append hes hmore hactive
  refine ⟨?_, ?_, ?_⟩
  · rw [hrec, hmark]
    rfl
  · rw [hlog]
    rintro _ ⟨⟩
    exact hextends
  · rw [hhigh]
    rintro _ ⟨⟩
    exact hextends

/-- An update with another DID is not what the slot holds. -/
theorem alreadyHeld_of_ne {update : DidSyncUpdate} {record : DidRecord}
    {log witness : Option String} (hdid : record.didId ≠ some update.didId) :
    alreadyHeld update (some record) log witness = false := by
  simp only [alreadyHeld, decide_eq_false hdid, Bool.false_and]

theorem syncedRecordOf_mnemonic (now : ℕ) :
    (syncedRecordOf es did path disabled now).mnemonic = path := rfl

theorem syncedRecordOf_domain (now : ℕ) :
    (syncedRecordOf es did path disabled now).domain = didHostOrEmpty libs did := rfl

section Initial

variable (assignments : Table String AssignmentEntry) (pendingPurges : Table String PendingPurge)
  (domains : Table String DomainEntry) (defaultDomain : Option String)

/-- An edge that was told nothing yet applies its first update. -/
theorem step_initialSync (now : ℕ) (hlog : ValidLog es did state)
    (hbound : validateDidIdMatchesRequest libs did path "https://h.io" = .ok ())
    (hscid : webvhScid did = some scid) :
    (EdgeRun.step edge (EdgeRun.initial assignments pendingPurges domains defaultDomain)
      (.syncUpdate now (updateOf es did path disabled))).store =
      EdgeStore.commit (.dids (syncedBatch es did path scid disabled now none))
        (EdgeRun.initial assignments pendingPurges domains defaultDomain).store := by
  have hrun : (applySyncEntry edge now (updateOf es did path disabled)).run
      (EdgeRun.initial assignments pendingPurges domains defaultDomain).store = _ :=
    run_firstSync now hlog (boundAt_updateOf hbound) hscid rfl rfl rfl rfl
  rw [EdgeRun.step, EdgeRun.entry_store, hrun]

theorem initialSync_dids (now : ℕ) (hlog : ValidLog es did state)
    (hbound : validateDidIdMatchesRequest libs did path "https://h.io" = .ok ())
    (hscid : webvhScid did = some scid) :
    (EdgeRun.step edge (EdgeRun.initial assignments pendingPurges domains defaultDomain)
      (.syncUpdate now (updateOf es did path disabled))).store.ks.dids =
      AList.insert path (syncedRecordOf es did path disabled now) ∅ := by
  have hcommit := commit_updateBatch libs (updateOf es did path disabled) .webvh none
    (syncedRecordOf es did path disabled now) scid DidsKs.empty
  rw [step_initialSync assignments pendingPurges domains defaultDomain now hlog hbound hscid]
  exact hcommit.1

end Initial

/-! ## The slot `al` on the reference edge -/

/-- The record of the slot after its first update. -/
def recordAl (now : ℕ) : DidRecord :=
  syncedRecordOf [al1] didAl "al" false now

theorem recordAl_mnemonic (now : ℕ) : (recordAl now).mnemonic = "al" := by
  rw [recordAl, syncedRecordOf_mnemonic]

theorem recordAl_domain (now : ℕ) : (recordAl now).domain = "h.io" := by
  rw [recordAl, syncedRecordOf_domain, host_didAl]

theorem scid_didAl : webvhScid didAl = some "s" := by
  decide +kernel

end DidHosting.Reference
