import DidHosting.Support.Run
import DidHosting.Support.Table
import DidHosting.Common.DidLog
import DidHosting.Common.Method
import DidHosting.Common.Mnemonic

/-!
# The mirror of a watcher

A watcher holds what its sources push: a record, a log and perhaps witness proofs for
each slot, and for each SCID the furthest log it has ever mirrored.  An update is checked
against the log of its slot and against that high-water log.

The high-water log alone carries the history.  It is the last committed log of its SCID in
whatever slot, so what extends it extends all earlier ones, and a delete leaves it where
it is.
-/

namespace DidHosting

namespace Watcher

open Text

/-! ## State -/

structure WatcherRecord where
  mnemonic : String
  didId : String
  sourceDid : String
  versionCount : ℕ
  updatedAt : ℕ
  disabled : Bool
deriving DecidableEq, Repr

/-- `SyncEntry`: the complete state of a slot, as a source pushes it. -/
structure SyncEntry where
  mnemonic : String
  didId : String
  logContent : String
  witnessContent : Option String
  versionCount : ℕ
  disabled : Bool
deriving DecidableEq, Repr

inductive SyncRefusal where
  | invalidLog (msg : String)
  | historyRewrite (msg : String)
  | deactivated (msg : String)
  | notOwner (msg : String)
  | transient (msg : String)
deriving DecidableEq, Repr

inductive SyncApplied where
  | applied
  | unchanged
deriving DecidableEq, Repr

/-- The rows of the keyspace, by their four kinds of key. -/
structure WatcherKs where
  /-- `did:{mnemonic}`. -/
  records : Table String WatcherRecord
  /-- `content:{mnemonic}:log`. -/
  contentLog : Table String String
  /-- `content:{mnemonic}:witness`. -/
  contentWitness : Table String String
  /-- `hw:id:{scid}`. -/
  highWater : Table String String

/-- A watcher that has mirrored nothing. -/
def WatcherKs.empty : WatcherKs := ⟨∅, ∅, ∅, ∅⟩

/-! ## Applying a sync -/

section

variable (L : Libs)

/-- The checks of an entry by itself: its count, the slot its DID resolves at, and
the chain.  The result is the SCID. -/
def checkEntry (entry : SyncEntry) : Except SyncRefusal String := do
  (validateMnemonic entry.mnemonic).mapError fun e => .invalidLog s!"mnemonic: {e.toText}"
  let entries := (nonblankLines entry.logContent).length
  (if entries ≠ entry.versionCount then
    .error (.invalidLog
      s!"versionCount is {entry.versionCount} but logContent holds {entries} entries")
  else .ok ())
  (if extractDidId L entry.logContent = some entry.didId then .ok ()
  else
    let established := (extractDidId L entry.logContent).getD "no DID"
    .error (.invalidLog s!"the update names {entry.didId} but its log establishes {established}"))
  let scid ← (match webvhScid entry.didId with
    | some scid => .ok scid
    | none => .error (.invalidLog s!"{entry.didId} is not a did:webvh identifier"))
  let host ← (extractDidHost L entry.didId).mapError fun e => .invalidLog e.toText
  (validateDidIdMatchesRequest L entry.didId entry.mnemonic s!"https://{host}").mapError
    .invalidLog
  (verifyDidLogAndWitnessProofs L entry.logContent entry.witnessContent).mapError .invalidLog
  return scid

/-- A slot is not re-pointed by a source that did not write it. -/
def checkOwner (held : Option WatcherRecord) (sourceDid scid mnemonic : String) :
    Except SyncRefusal Unit :=
  match held with
  | some prev =>
      if prev.sourceDid ≠ sourceDid && webvhScid prev.didId ≠ some scid then
        .error (.notOwner s!"slot {mnemonic} mirrors a DID another source syncs")
      else
        .ok ()
  | none => .ok ()

/-- The refusal of a log that does not extend an earlier one. -/
def historyRefusal (e : String) : SyncRefusal :=
  if containsText "deactivated" e then .deactivated e else .historyRewrite e

/-- The log extends every earlier one of its DID. -/
def checkHistory (logContent : String) : List String → Except SyncRefusal Unit
  | [] => .ok ()
  | previous :: rest => do
      (verifyLogExtends L (some previous) logContent).mapError historyRefusal
      checkHistory logContent rest

/-- The log of the slot, where the slot holds the SCID. -/
def sameDidHeld (held : Option WatcherRecord) (heldLog : Option String) (scid : String) :
    Option String :=
  heldLog.filter fun _ => (held.bind fun r => webvhScid r.didId) = some scid

/-- The watcher mirrors exactly this state already. -/
def alreadyMirrored (ks : WatcherKs) (entry : SyncEntry) : Bool :=
  (ks.records.lookup entry.mnemonic).any fun prev =>
    prev.didId = entry.didId && prev.disabled = entry.disabled &&
      ks.contentLog.lookup entry.mnemonic = some entry.logContent &&
      ks.contentWitness.lookup entry.mnemonic = entry.witnessContent

/-- The record a sync writes. -/
def syncedRecord (sourceDid : String) (entry : SyncEntry) (now : ℕ) : WatcherRecord where
  mnemonic := entry.mnemonic
  didId := entry.didId
  sourceDid := sourceDid
  versionCount := entry.versionCount
  updatedAt := now
  disabled := entry.disabled

/-- The batch a sync commits. -/
def WatcherKs.mirror (ks : WatcherKs) (sourceDid scid : String) (entry : SyncEntry) (now : ℕ) :
    WatcherKs where
  records := ks.records.insert entry.mnemonic (syncedRecord sourceDid entry now)
  contentLog := ks.contentLog.insert entry.mnemonic entry.logContent
  contentWitness :=
    match entry.witnessContent with
    | some w => ks.contentWitness.insert entry.mnemonic w
    | none => ks.contentWitness.erase entry.mnemonic
  highWater := ks.highWater.insert scid entry.logContent

/-- `apply_sync`, with the clock reading it makes. -/
def applySync (ks : WatcherKs) (sourceDid : String) (entry : SyncEntry) (now : ℕ) :
    Except SyncRefusal (SyncApplied × WatcherKs) := do
  let scid ← checkEntry L entry
  let held := ks.records.lookup entry.mnemonic
  checkOwner held sourceDid scid entry.mnemonic
  checkHistory L entry.logContent
    ((sameDidHeld held (ks.contentLog.lookup entry.mnemonic) scid).toList ++
      (ks.highWater.lookup scid).toList)
  if alreadyMirrored ks entry then
    return (.unchanged, ks)
  else
    return (.applied, ks.mirror sourceDid scid entry now)

end

/-- `delete_record`: whether anything was held for the source. -/
def deleteRecord (ks : WatcherKs) (mnemonic sourceDid : String) : Bool × WatcherKs :=
  if (ks.records.lookup mnemonic).any fun r => r.sourceDid = sourceDid then
    (true,
      { ks with
        records := ks.records.erase mnemonic
        contentLog := ks.contentLog.erase mnemonic
        contentWitness := ks.contentWitness.erase mnemonic })
  else
    (false, ks)

/-! ## Runs -/

/-- A call of a source. -/
inductive WatcherOp where
  | sync (source : String) (entry : SyncEntry) (now : ℕ)
  | delete (source : String) (mnemonic : String)
deriving DecidableEq, Repr

def WatcherOp.source : WatcherOp → String
  | sync source _ _ => source
  | delete source _ => source

/-- The store with what a reader of the whole run knows: the entries committed so far,
oldest first, and for each slot the source that first wrote it and has not deleted
it since. -/
structure WatcherRun where
  ks : WatcherKs
  committed : List SyncEntry
  firstWriter : Table String String

namespace WatcherRun

/-- A watcher before its first call. -/
def initial : WatcherRun := ⟨.empty, [], ∅⟩

def step (L : Libs) (r : WatcherRun) : WatcherOp → WatcherRun
  | .sync source entry now =>
      match applySync L r.ks source entry now with
      | .ok (.applied, ks) =>
          { ks := ks
            committed := r.committed ++ [entry]
            firstWriter :=
              match r.ks.records.lookup entry.mnemonic with
              | none => r.firstWriter.insert entry.mnemonic source
              | some _ => r.firstWriter }
      | _ => r
  | .delete source mnemonic =>
      match deleteRecord r.ks mnemonic source with
      | (true, ks) =>
          { r with
            ks := ks
            firstWriter :=
              if r.firstWriter.lookup mnemonic = some source then r.firstWriter.erase mnemonic
              else r.firstWriter }
      | (false, _) => r

/-- The state after calls one after another. -/
abbrev exec (L : Libs) (r : WatcherRun) (ops : List WatcherOp) : WatcherRun :=
  Run.exec (step L) r ops

end WatcherRun

/-- The logs committed for a SCID, oldest first. -/
def logsOf (scid : String) (committed : List SyncEntry) : List String :=
  (committed.filter fun entry => webvhScid entry.didId = some scid).map (·.logContent)

/-! ## What a call does -/

section

variable {L : Libs} {ks : WatcherKs} {entry : SyncEntry} {source scid : String} {now : ℕ}

/-- What an entry has shown that passes its own checks. -/
structure EntryChecked (L : Libs) (entry : SyncEntry) (scid : String) : Prop where
  named : webvhScid entry.didId = some scid
  established : extractDidId L entry.logContent = some entry.didId
  counted : (nonblankLines entry.logContent).length = entry.versionCount
  verified : verifyDidLogAndWitnessProofs L entry.logContent entry.witnessContent = .ok ()

theorem checkEntry_spec (h : checkEntry L entry = .ok scid) : EntryChecked L entry scid := by
  unfold checkEntry at h
  obtain ⟨⟨⟩, -, h₁⟩ := bind_eq_ok h
  obtain ⟨⟨⟩, hcount, h₂⟩ := bind_eq_ok h₁
  obtain ⟨⟨⟩, hestablished, h₃⟩ := bind_eq_ok h₂
  obtain ⟨scid', hscid, h₄⟩ := bind_eq_ok h₃
  obtain ⟨host, -, h₅⟩ := bind_eq_ok h₄
  obtain ⟨⟨⟩, -, h₆⟩ := bind_eq_ok h₅
  obtain ⟨⟨⟩, hverified, h₇⟩ := bind_eq_ok h₆
  cases h₇
  refine ⟨?_, ?_, ?_, mapError_eq_ok hverified⟩
  · cases hnamed : webvhScid entry.didId with
    | none =>
        rw [hnamed] at hscid
        cases hscid
    | some scid' =>
        rw [hnamed] at hscid
        cases hscid
        rfl
  · by_cases hid : extractDidId L entry.logContent = some entry.didId
    · exact hid
    · rw [if_neg hid] at hestablished
      cases hestablished
  · by_cases hne : (nonblankLines entry.logContent).length ≠ entry.versionCount
    · rw [if_pos hne] at hcount
      cases hcount
    · exact not_not.mp hne

theorem checkHistory_spec {logContent : String} {logs : List String}
    (h : checkHistory L logContent logs = .ok ()) :
    ∀ previous ∈ logs, LogSucceeds L previous logContent := by
  induction logs with
  | nil => exact fun _ hmem => absurd hmem List.not_mem_nil
  | cons previous rest ih =>
      obtain ⟨⟨⟩, hextends, hrest⟩ := bind_eq_ok h
      intro log hmem
      rcases List.mem_cons.mp hmem with rfl | hmem
      · exact verifyLogExtends_eq_ok_iff.mp (mapError_eq_ok hextends)
      · exact ih hrest log hmem

/-- What a sync has checked that the watcher accepts. -/
structure Accepted (L : Libs) (ks : WatcherKs) (source : String) (entry : SyncEntry)
    (scid : String) : Prop where
  checked : EntryChecked L entry scid
  owned : ∀ prev, ks.records.lookup entry.mnemonic = some prev →
    prev.sourceDid = source ∨ webvhScid prev.didId = some scid
  extends_held : ∀ prev log, ks.records.lookup entry.mnemonic = some prev →
    webvhScid prev.didId = some scid → ks.contentLog.lookup entry.mnemonic = some log →
      LogSucceeds L log entry.logContent
  extends_highWater : ∀ log, ks.highWater.lookup scid = some log →
    LogSucceeds L log entry.logContent

theorem checkOwner_spec {held : Option WatcherRecord} {mnemonic : String}
    (h : checkOwner held source scid mnemonic = .ok ()) {prev : WatcherRecord}
    (hheld : held = some prev) : prev.sourceDid = source ∨ webvhScid prev.didId = some scid := by
  subst hheld
  unfold checkOwner at h
  by_cases hother : prev.sourceDid = source
  · exact Or.inl hother
  · right
    by_cases hscid : webvhScid prev.didId = some scid
    · exact hscid
    · have hrefused : (decide (prev.sourceDid ≠ source) &&
          decide (webvhScid prev.didId ≠ some scid)) = true := by
        simp [hother, hscid]
      simp only at h
      rw [if_pos hrefused] at h
      cases h

/-- A sync that is applied writes its batch, one that changes nothing leaves the store. -/
theorem applySync_spec {outcome : SyncApplied} {ks' : WatcherKs}
    (h : applySync L ks source entry now = .ok (outcome, ks')) :
    (outcome = .unchanged ∧ ks' = ks) ∨
      ∃ scid, outcome = .applied ∧ ks' = ks.mirror source scid entry now ∧
        Accepted L ks source entry scid ∧ alreadyMirrored ks entry = false := by
  unfold applySync at h
  obtain ⟨scid, hentry, h₁⟩ := bind_eq_ok h
  obtain ⟨⟨⟩, howner, h₂⟩ := bind_eq_ok h₁
  obtain ⟨⟨⟩, hhistory, h₃⟩ := bind_eq_ok h₂
  have hlogs := checkHistory_spec hhistory
  by_cases hsame : alreadyMirrored ks entry = true
  · rw [if_pos hsame] at h₃
    cases h₃
    exact Or.inl ⟨rfl, rfl⟩
  · rw [if_neg hsame] at h₃
    cases h₃
    refine Or.inr ⟨scid, rfl, rfl, ⟨checkEntry_spec hentry, ?_, ?_, ?_⟩, by simpa using hsame⟩
    · intro prev hprev
      exact checkOwner_spec howner hprev
    · intro prev log hprev hscid hlog
      apply hlogs
      apply List.mem_append_left
      unfold sameDidHeld
      rw [hprev, hlog, Option.bind_some, Option.filter_some, if_pos (decide_eq_true hscid)]
      exact List.mem_singleton_self _
    · intro log hlog
      apply hlogs
      apply List.mem_append_right
      rw [hlog]
      exact List.mem_singleton_self _

theorem deleteRecord_spec {mnemonic : String} {ks' : WatcherKs}
    (h : deleteRecord ks mnemonic source = (true, ks')) :
    (∃ record, ks.records.lookup mnemonic = some record ∧ record.sourceDid = source) ∧
      ks'.records = ks.records.erase mnemonic ∧
      ks'.contentLog = ks.contentLog.erase mnemonic ∧ ks'.highWater = ks.highWater := by
  unfold deleteRecord at h
  cases hrecord : ks.records.lookup mnemonic with
  | none =>
      rw [hrecord] at h
      cases h
  | some record =>
      rw [hrecord, Option.any_some] at h
      by_cases hsource : record.sourceDid = source
      · rw [if_pos (decide_eq_true hsource)] at h
        cases h
        exact ⟨⟨record, rfl, hsource⟩, rfl, rfl, rfl⟩
      · rw [if_neg (by simpa using hsource)] at h
        cases h

end

/-! ## The invariant -/

section

variable {L : Libs}

theorem logsOf_append (scid : String) (committed : List SyncEntry) (entry : SyncEntry) :
    logsOf scid (committed ++ [entry]) =
      if webvhScid entry.didId = some scid then logsOf scid committed ++ [entry.logContent]
      else logsOf scid committed := by
  unfold logsOf
  rw [List.filter_append, List.map_append]
  by_cases h : webvhScid entry.didId = some scid
  · rw [if_pos h, List.filter_cons_of_pos (by simpa using h)]
    rfl
  · rw [if_neg h, List.filter_cons_of_neg (by simpa using h)]
    exact List.append_nil _

/-- A record is about its slot and the log stored in it. -/
structure RecordOf (L : Libs) (mnemonic : String) (record : WatcherRecord) (log : String) :
    Prop where
  slot : record.mnemonic = mnemonic
  did : extractDidId L log = some record.didId
  count : (nonblankLines log).length = record.versionCount

/-- What holds of a watcher at every point of a run. -/
structure MirrorInv (L : Libs) (r : WatcherRun) : Prop where
  highWater : ∀ scid, r.ks.highWater.lookup scid = (logsOf scid r.committed).getLast?
  chain : ∀ scid, (logsOf scid r.committed).Pairwise (LogSucceeds L)
  records : ∀ m record, r.ks.records.lookup m = some record →
    ∃ log, r.ks.contentLog.lookup m = some log ∧ RecordOf L m record log

theorem MirrorInv.initial : MirrorInv L .initial where
  highWater _ := rfl
  chain _ := List.Pairwise.nil
  records _ _ h := by cases h

/-- A run after a step: unless the call changed nothing, a batch was written or a slot
deleted. -/
inductive MirrorStep (L : Libs) (r r' : WatcherRun) : Prop where
  | kept (h : r' = r)
  | mirrored (source : String) (entry : SyncEntry) (now : ℕ) (scid : String)
      (haccepted : Accepted L r.ks source entry scid)
      (hks : r'.ks = r.ks.mirror source scid entry now)
      (hcommitted : r'.committed = r.committed ++ [entry])
  | deleted (mnemonic : String)
      (hrecords : r'.ks.records = r.ks.records.erase mnemonic)
      (hlog : r'.ks.contentLog = r.ks.contentLog.erase mnemonic)
      (hmark : r'.ks.highWater = r.ks.highWater)
      (hcommitted : r'.committed = r.committed)

theorem WatcherRun.step_refused {r : WatcherRun} {source : String} {entry : SyncEntry}
    {now : ℕ} {e : SyncRefusal} (h : applySync L r.ks source entry now = .error e) :
    r.step L (.sync source entry now) = r := by
  simp only [WatcherRun.step, h]

theorem WatcherRun.step_unchanged {r : WatcherRun} {source : String} {entry : SyncEntry}
    {now : ℕ} {ks : WatcherKs} (h : applySync L r.ks source entry now = .ok (.unchanged, ks)) :
    r.step L (.sync source entry now) = r := by
  simp only [WatcherRun.step, h]

theorem WatcherRun.step_applied {r : WatcherRun} {source : String} {entry : SyncEntry}
    {now : ℕ} {ks : WatcherKs} (h : applySync L r.ks source entry now = .ok (.applied, ks)) :
    r.step L (.sync source entry now) =
      { ks := ks
        committed := r.committed ++ [entry]
        firstWriter :=
          match r.ks.records.lookup entry.mnemonic with
          | none => r.firstWriter.insert entry.mnemonic source
          | some _ => r.firstWriter } := by
  simp only [WatcherRun.step, h]

theorem WatcherRun.step_absent {r : WatcherRun} {source mnemonic : String} {ks : WatcherKs}
    (h : deleteRecord r.ks mnemonic source = (false, ks)) :
    r.step L (.delete source mnemonic) = r := by
  simp only [WatcherRun.step, h]

theorem WatcherRun.step_deleted {r : WatcherRun} {source mnemonic : String} {ks : WatcherKs}
    (h : deleteRecord r.ks mnemonic source = (true, ks)) :
    r.step L (.delete source mnemonic) =
      { r with
        ks := ks
        firstWriter :=
          if r.firstWriter.lookup mnemonic = some source then r.firstWriter.erase mnemonic
          else r.firstWriter } := by
  simp only [WatcherRun.step, h]

theorem WatcherRun.step_cases (r : WatcherRun) (op : WatcherOp) :
    MirrorStep L r (r.step L op) := by
  cases op with
  | sync source entry now =>
      cases hsync : applySync L r.ks source entry now with
      | error e => exact MirrorStep.kept (step_refused hsync)
      | ok result =>
          obtain ⟨outcome, ks'⟩ := result
          rcases applySync_spec hsync with ⟨rfl, rfl⟩ | ⟨scid, rfl, rfl, haccepted, -⟩
          · exact MirrorStep.kept (step_unchanged hsync)
          · rw [step_applied hsync]
            exact MirrorStep.mirrored source entry now scid haccepted rfl rfl
  | delete source mnemonic =>
      rcases hdelete : deleteRecord r.ks mnemonic source with ⟨held, ks'⟩
      cases held with
      | false => exact MirrorStep.kept (step_absent hdelete)
      | true =>
          obtain ⟨-, hrecords, hlog, hmark⟩ := deleteRecord_spec hdelete
          rw [step_deleted hdelete]
          exact MirrorStep.deleted mnemonic hrecords hlog hmark rfl

theorem MirrorInv.step {r r' : WatcherRun} (hinv : MirrorInv L r) (h : MirrorStep L r r') :
    MirrorInv L r' := by
  cases h with
  | kept h =>
      rw [h]
      exact hinv
  | mirrored source entry now scid haccepted hks hcommitted =>
      refine ⟨?_, ?_, ?_⟩
      · intro scid'
        rw [hks, hcommitted, logsOf_append, haccepted.checked.named]
        unfold WatcherKs.mirror
        rw [Table.lookup_insert_ite]
        by_cases heq : scid' = scid
        · rw [if_pos heq, if_pos (congrArg some heq.symm), List.getLast?_concat]
        · rw [if_neg heq, if_neg (fun h => heq (Option.some.inj h).symm)]
          exact hinv.highWater scid'
      · intro scid'
        rw [hcommitted, logsOf_append]
        by_cases heq : webvhScid entry.didId = some scid'
        · rw [if_pos heq]
          refine LogSucceeds.pairwise_append_singleton (hinv.chain scid') ?_
          intro last hlast
          have hsame : scid = scid' :=
            Option.some.inj (haccepted.checked.named.symm.trans heq)
          rw [← hinv.highWater scid', ← hsame] at hlast
          exact haccepted.extends_highWater last hlast
        · rw [if_neg heq]
          exact hinv.chain scid'
      · intro m record hrecord
        rw [hks] at hrecord ⊢
        unfold WatcherKs.mirror at hrecord ⊢
        simp only at hrecord ⊢
        rw [Table.lookup_insert_ite] at hrecord ⊢
        by_cases hm : m = entry.mnemonic
        · rw [if_pos hm] at hrecord ⊢
          cases hrecord
          exact ⟨_, rfl, hm.symm, haccepted.checked.established, haccepted.checked.counted⟩
        · rw [if_neg hm] at hrecord ⊢
          exact hinv.records m record hrecord
  | deleted mnemonic hrecords hlog hmark hcommitted =>
      refine ⟨?_, ?_, ?_⟩
      · intro scid
        rw [hmark, hcommitted]
        exact hinv.highWater scid
      · intro scid
        rw [hcommitted]
        exact hinv.chain scid
      · intro m record hrecord
        rw [hrecords, Table.lookup_erase_ite] at hrecord
        rw [hlog, Table.lookup_erase_ite]
        by_cases hm : m = mnemonic
        · rw [if_pos hm] at hrecord
          cases hrecord
        · rw [if_neg hm] at hrecord ⊢
          exact hinv.records m record hrecord

theorem MirrorInv.exec {r : WatcherRun} (hinv : MirrorInv L r) (ops : List WatcherOp) :
    MirrorInv L (r.exec L ops) :=
  Run.exec_invariant_of_step (fun r op h => h.step (r.step_cases op)) ops hinv

/-- A row of the high-water table moves to a successor and is never removed. -/
theorem highWater_step {r r' : WatcherRun} (h : MirrorStep L r r') {scid log : String}
    (hlog : r.ks.highWater.lookup scid = some log) :
    ∃ log', r'.ks.highWater.lookup scid = some log' ∧ LogSucceeds L log log' := by
  have hrefl : LogSucceeds L log log := ⟨List.prefix_refl _, fun _ => rfl⟩
  cases h with
  | kept h =>
      rw [h]
      exact ⟨log, hlog, hrefl⟩
  | mirrored source entry now scid' haccepted hks hcommitted =>
      rw [hks]
      unfold WatcherKs.mirror
      rw [Table.lookup_insert_ite]
      by_cases heq : scid = scid'
      · rw [if_pos heq]
        exact ⟨_, rfl, haccepted.extends_highWater log (heq ▸ hlog)⟩
      · rw [if_neg heq]
        exact ⟨log, hlog, hrefl⟩
  | deleted mnemonic hrecords hlog' hmark hcommitted =>
      rw [hmark]
      exact ⟨log, hlog, hrefl⟩

theorem highWater_exec {r : WatcherRun} (ops : List WatcherOp) {scid log : String}
    (hlog : r.ks.highWater.lookup scid = some log) :
    ∃ log', (r.exec L ops).ks.highWater.lookup scid = some log' ∧ LogSucceeds L log log' := by
  let Kept : WatcherRun → Prop := fun r' =>
    ∃ log', r'.ks.highWater.lookup scid = some log' ∧ LogSucceeds L log log'
  have hstep : ∀ r' op, Kept r' → Kept (r'.step L op) := by
    rintro r' op ⟨log', hlog', hsucc⟩
    obtain ⟨log'', hlog'', hsucc'⟩ := highWater_step (r'.step_cases op) hlog'
    exact ⟨log'', hlog'', hsucc.trans hsucc'⟩
  exact Run.exec_invariant_of_step hstep ops ⟨log, hlog, List.prefix_refl _, fun _ => rfl⟩

/-- Whatever its sources call, first `ops` and then `more`: the high-water row of a
SCID is the last log committed for it and is never removed, each log committed for the
SCID extends every earlier one, a deactivated one is followed only by itself, and a
record carries the DID and the entry count of the log of its slot. -/
theorem mirror_append_only (L : Libs) (ops more : List WatcherOp) (scid : String) :
    let r := WatcherRun.initial.exec L ops
    let r' := r.exec L more
    r.ks.highWater.lookup scid = (logsOf scid r.committed).getLast? ∧
      (logsOf scid r.committed).Pairwise (fun earlier later =>
        verifyLogExtends L (some earlier) later = .ok () ∧
          (logDeactivated L earlier = true → logEntries later = logEntries earlier)) ∧
      (∀ log, r.ks.highWater.lookup scid = some log →
        ∃ log', r'.ks.highWater.lookup scid = some log' ∧
          verifyLogExtends L (some log) log' = .ok ()) ∧
      ∀ m record, r.ks.records.lookup m = some record →
        ∃ log, r.ks.contentLog.lookup m = some log ∧
          extractDidId L log = some record.didId ∧
          (nonblankLines log).length = record.versionCount := by
  intro r r'
  have hinv : MirrorInv L r := MirrorInv.initial.exec ops
  refine ⟨hinv.highWater scid, ?_, ?_, ?_⟩
  · refine (hinv.chain scid).imp ?_
    intro earlier later hsucc
    exact ⟨verifyLogExtends_eq_ok_iff.mpr hsucc, hsucc.2⟩
  · intro log hlog
    obtain ⟨log', hlog', hsucc⟩ := highWater_exec more hlog
    exact ⟨log', hlog', verifyLogExtends_eq_ok_iff.mpr hsucc⟩
  · intro m record hrecord
    obtain ⟨log, hlog, hrecordOf⟩ := hinv.records m record hrecord
    exact ⟨log, hlog, hrecordOf.did, hrecordOf.count⟩

end

end Watcher

end DidHosting
