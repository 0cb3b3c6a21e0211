import DidHosting.Common.Reference
import DidHosting.Watcher.Mirror

/-!
# The sources of a watcher

A slot is its writer's: another source can neither delete it nor point it at another
DID.  What the watcher calls the writer of a slot, though, is the source whose sync wrote
it last, and any source may sync the DID that is there.  So the slot of a source is safe
from the others for as long as none of them syncs the same DID into it.
-/

namespace DidHosting

namespace Watcher

/-! ## Taking a slot over -/

/-- A sync that would make its source the writer of a slot that another source wrote:
for the DID the slot holds, with a log that verifies and goes on from the slot's, and
with something in it that the slot does not hold. -/
def TakesOver (L : Libs) (ks : WatcherKs) (source : String) (entry : SyncEntry) : Prop :=
  ∃ prev, ks.records.lookup entry.mnemonic = some prev ∧ prev.sourceDid ≠ source ∧
    webvhScid prev.didId = webvhScid entry.didId ∧
    verifyDidLogAndWitnessProofs L entry.logContent entry.witnessContent = .ok () ∧
    (∀ log, ks.contentLog.lookup entry.mnemonic = some log →
      verifyLogExtends L (some log) entry.logContent = .ok ()) ∧
    alreadyMirrored ks entry = false

/-- No source takes over the slot of another one. -/
def KeepsToItsSlots (L : Libs) (r : WatcherRun) : WatcherOp → Prop
  | .sync source entry _ => ¬ TakesOver L r.ks source entry
  | .delete _ _ => True

/-! ## The writer of a slot -/

section

variable {L : Libs}

/-- The slots with a first writer are those with a record, and the first writer is the
source the record names. -/
def WriterInv (r : WatcherRun) : Prop :=
  ∀ m, r.firstWriter.lookup m = (r.ks.records.lookup m).map (·.sourceDid)

theorem WriterInv.initial : WriterInv .initial :=
  fun _ => rfl

/-- An applied sync of another source's slot takes it over. -/
theorem takesOver_of_accepted {ks : WatcherKs} {source scid : String} {entry : SyncEntry}
    {prev : WatcherRecord} (haccepted : Accepted L ks source entry scid)
    (hnew : alreadyMirrored ks entry = false)
    (hprev : ks.records.lookup entry.mnemonic = some prev) (hother : prev.sourceDid ≠ source) :
    TakesOver L ks source entry := by
  have hsame : webvhScid prev.didId = some scid :=
    (haccepted.owned prev hprev).resolve_left hother
  refine ⟨prev, hprev, hother, ?_, haccepted.checked.verified, ?_, hnew⟩
  · rw [hsame, haccepted.checked.named]
  · intro log hlog
    exact verifyLogExtends_eq_ok_iff.mpr (haccepted.extends_held prev log hprev hsame hlog)

/-- What a call does to the slots of the sources that do not make it, once nobody takes
a slot over. -/
theorem step_spec {r : WatcherRun} {op : WatcherOp} (hinv : WriterInv r)
    (hkeeps : KeepsToItsSlots L r op) :
    WriterInv (r.step L op) ∧ ∀ m prev, r.ks.records.lookup m = some prev →
      prev.sourceDid ≠ op.source → (r.step L op).ks.records.lookup m = some prev := by
  cases op with
  | sync source entry now =>
      cases hsync : applySync L r.ks source entry now with
      | error e =>
          rw [WatcherRun.step_refused hsync]
          exact ⟨hinv, fun _ _ hprev _ => hprev⟩
      | ok result =>
          obtain ⟨outcome, ks'⟩ := result
          rcases applySync_spec hsync with ⟨rfl, rfl⟩ | ⟨scid, rfl, rfl, haccepted, hnew⟩
          · rw [WatcherRun.step_unchanged hsync]
            exact ⟨hinv, fun _ _ hprev _ => hprev⟩
          · rw [WatcherRun.step_applied hsync]
            have howned : ∀ prev, r.ks.records.lookup entry.mnemonic = some prev →
                prev.sourceDid = source := by
              intro prev hprev
              by_contra hother
              exact hkeeps (takesOver_of_accepted haccepted hnew hprev hother)
            constructor
            · intro m
              have hrow := hinv entry.mnemonic
              simp only [WatcherKs.mirror, Table.lookup_insert_ite]
              by_cases hm : m = entry.mnemonic
              · subst hm
                rw [if_pos rfl, Option.map_some]
                cases hprev : r.ks.records.lookup entry.mnemonic with
                | none => exact AList.lookup_insert _
                | some prev =>
                    rw [hprev, Option.map_some, howned prev hprev] at hrow
                    exact hrow
              · rw [if_neg hm, ← hinv m]
                cases r.ks.records.lookup entry.mnemonic with
                | none => exact AList.lookup_insert_ne hm
                | some prev => rfl
            · intro m prev hprev hother
              simp only [WatcherKs.mirror, Table.lookup_insert_ite]
              by_cases hm : m = entry.mnemonic
              · subst hm
                exact absurd (howned prev hprev) hother
              · rw [if_neg hm]
                exact hprev
  | delete source mnemonic =>
      rcases hdelete : deleteRecord r.ks mnemonic source with ⟨held, ks'⟩
      cases held with
      | false =>
          rw [WatcherRun.step_absent hdelete]
          exact ⟨hinv, fun _ _ hprev _ => hprev⟩
      | true =>
          rw [WatcherRun.step_deleted hdelete]
          obtain ⟨⟨record, hrecord, hsource⟩, hrecords, -, -⟩ := deleteRecord_spec hdelete
          have hwriter : r.firstWriter.lookup mnemonic = some source := by
            rw [hinv mnemonic, hrecord, Option.map_some, hsource]
          constructor
          · intro m
            simp only [hrecords, if_pos hwriter, Table.lookup_erase_ite]
            by_cases hm : m = mnemonic
            · rw [if_pos hm, if_pos hm]
              rfl
            · rw [if_neg hm, if_neg hm]
              exact hinv m
          · intro m prev hprev hother
            simp only [hrecords, Table.lookup_erase_ite]
            by_cases hm : m = mnemonic
            · rw [hm, hrecord] at hprev
              cases hprev
              exact absurd hsource hother
            · rw [if_neg hm]
              exact hprev

theorem WriterInv.exec {r : WatcherRun} {ops : List WatcherOp} (hinv : WriterInv r)
    (hkeep : Run.Meets (WatcherRun.step L) (KeepsToItsSlots L) r ops) :
    WriterInv (r.exec L ops) := by
  have hstep : ∀ r op, KeepsToItsSlots L r op → WriterInv r → WriterInv (r.step L op) := by
    intro r op hok h
    exact (step_spec h hok).1
  exact Run.exec_invariant hstep hinv hkeep

/-- The record of a slot outlasts the calls of all sources but its writer. -/
theorem record_exec {r : WatcherRun} {ops : List WatcherOp} (hinv : WriterInv r)
    (hkeep : Run.Meets (WatcherRun.step L) (KeepsToItsSlots L) r ops) {m : String}
    {prev : WatcherRecord} (hprev : r.ks.records.lookup m = some prev)
    (hothers : ∀ op ∈ ops, op.source ≠ prev.sourceDid) :
    (r.exec L ops).ks.records.lookup m = some prev := by
  induction ops generalizing r with
  | nil => exact hprev
  | cons op ops ih =>
      obtain ⟨hinv', hkept⟩ := step_spec hinv hkeep.1
      have hsource : prev.sourceDid ≠ op.source :=
        Ne.symm (hothers op List.mem_cons_self)
      rw [WatcherRun.exec, Run.exec_cons]
      exact ih hinv' hkeep.2 (hkept m prev hprev hsource)
        fun op' hmem => hothers op' (List.mem_cons_of_mem _ hmem)

end

/-- In every run in which no source takes over the slot of another one: a slot that a
source first wrote and has not deleted is held, and whatever the other sources call then,
it holds the same DID afterwards. -/
theorem sources_isolated (L : Libs) (ops calls : List WatcherOp)
    (hkeep : Run.Meets (WatcherRun.step L) (KeepsToItsSlots L) .initial (ops ++ calls))
    {m source : String}
    (hfirst : (WatcherRun.initial.exec L ops).firstWriter.lookup m = some source)
    (hothers : ∀ op ∈ calls, op.source ≠ source) :
    ∃ record record',
      (WatcherRun.initial.exec L ops).ks.records.lookup m = some record ∧
      (WatcherRun.initial.exec L (ops ++ calls)).ks.records.lookup m = some record' ∧
      record'.didId = record.didId ∧ record'.sourceDid = source := by
  obtain ⟨hops, hcalls⟩ := Run.Meets.of_append hkeep
  have hinv : WriterInv (WatcherRun.initial.exec L ops) := WriterInv.initial.exec hops
  obtain ⟨record, hrecord, hsource⟩ := Option.map_eq_some_iff.mp ((hinv m).symm.trans hfirst)
  have hkept : ((WatcherRun.initial.exec L ops).exec L calls).ks.records.lookup m = some record :=
    record_exec hinv hcalls hrecord fun op hmem => hsource ▸ hothers op hmem
  have happend : WatcherRun.initial.exec L (ops ++ calls) =
      (WatcherRun.initial.exec L ops).exec L calls := Run.exec_append _ _ _ _
  rw [happend]
  exact ⟨record, record, hrecord, hkept, rfl, hsource⟩

/-! ## A slot that changes hands -/

section

open Text Reference

variable {ks : WatcherKs} {es : List Json} {did path scid source : String} {state : Json}

/-- The entry of a log without witness proofs. -/
def entryOf (es : List Json) (did path : String) (disabled : Bool) : SyncEntry :=
  ⟨path, did, logOf es, none, es.length, disabled⟩

/-- The reference libraries find a valid log good at the slot its DID names. -/
theorem checkEntry_entryOf {disabled : Bool} (hlog : ValidLog es did state)
    (hpath : validateMnemonic path = .ok ()) (hhost : extractDidHost libs did = .ok "h.io")
    (hbound : validateDidIdMatchesRequest libs did path "https://h.io" = .ok ())
    (hscid : webvhScid did = some scid) :
    checkEntry libs (entryOf es did path disabled) = .ok scid := by
  have hcount : ¬ (nonblankLines (logOf es)).length ≠ es.length := by
    rw [nonblankLines_logOf hlog.wellFormed, List.length_map, not_not]
  have hdid : extractDidId libs (logOf es) = some did := hlog.extractDidId_eq
  have hbound' : validateDidIdMatchesRequest libs did path
      (toString "https://" ++ toString "h.io") = .ok () := hbound
  unfold checkEntry entryOf
  simp only [hpath, if_neg hcount, hdid, hscid, hhost, if_true, hlog.verifyForSync, bind,
    Except.bind, Except.mapError, pure, Except.pure, hbound']

theorem applySync_entryOf {disabled : Bool} (now : ℕ)
    (hentry : checkEntry libs (entryOf es did path disabled) = .ok scid)
    (howner : checkOwner (ks.records.lookup path) source scid path = .ok ())
    (hhistory : checkHistory libs (logOf es)
      ((sameDidHeld (ks.records.lookup path) (ks.contentLog.lookup path) scid).toList ++
        (ks.highWater.lookup scid).toList) = .ok ())
    (hnew : alreadyMirrored ks (entryOf es did path disabled) = false) :
    applySync libs ks source (entryOf es did path disabled) now =
      .ok (.applied, ks.mirror source scid (entryOf es did path disabled) now) := by
  have hnot : ¬ alreadyMirrored ks (entryOf es did path disabled) = true := by
    rw [hnew]
    exact Bool.false_ne_true
  unfold applySync
  rw [hentry]
  simp only [bind, Except.bind]
  rw [show (entryOf es did path disabled).mnemonic = path from rfl, howner]
  simp only
  rw [show (entryOf es did path disabled).logContent = logOf es from rfl, hhistory]
  simp only
  rw [if_neg hnot]
  rfl

/-- A source's first sync of `al`. -/
def firstSync : WatcherOp := .sync "did:web:a" (entryOf [al1] didAl "al" false) 1

/-- The same log from another source, as a disabled slot. -/
def otherSync : WatcherOp := .sync "did:web:b" (entryOf [al1] didAl "al" true) 2

/-- The slot as a sync of `al` leaves it. -/
def mirrored (source : String) (disabled : Bool) (now : ℕ) (ks : WatcherKs) : WatcherKs :=
  ks.mirror source "s" (entryOf [al1] didAl "al" disabled) now

theorem checkEntry_al (disabled : Bool) :
    checkEntry libs (entryOf [al1] didAl "al" disabled) = .ok "s" :=
  checkEntry_entryOf validLog_al1 validateMnemonic_al (by decide +kernel) bound_didAl
    (by decide +kernel)

theorem applySync_first :
    applySync libs .empty "did:web:a" (entryOf [al1] didAl "al" false) 1 =
      .ok (.applied, mirrored "did:web:a" false 1 .empty) :=
  applySync_entryOf 1 (checkEntry_al false) rfl rfl rfl

/-- The run after the first sync. -/
def synced : WatcherRun where
  ks := mirrored "did:web:a" false 1 .empty
  committed := [entryOf [al1] didAl "al" false]
  firstWriter := AList.insert "al" "did:web:a" ∅

theorem step_firstSync : WatcherRun.initial.step libs firstSync = synced :=
  WatcherRun.step_applied applySync_first

theorem scid_didAl : webvhScid didAl = some "s" := by
  decide +kernel

theorem mirror_rows (ks : WatcherKs) (source scid : String) (es : List Json) (did path : String)
    (disabled : Bool) (now : ℕ) :
    let ks' := ks.mirror source scid (entryOf es did path disabled) now
    ks'.records.lookup path = some (syncedRecord source (entryOf es did path disabled) now) ∧
      ks'.contentLog.lookup path = some (logOf es) ∧
      ks'.highWater.lookup scid = some (logOf es) :=
  ⟨AList.lookup_insert _, AList.lookup_insert _, AList.lookup_insert _⟩

/-- A second source syncs the log of a slot as it is, with another `disabled`. -/
theorem applySync_disabled {ks : WatcherKs} {other : String} (now now' : ℕ)
    (hentry : checkEntry libs (entryOf es did path true) = .ok scid)
    (hscid : webvhScid did = some scid) :
    let ks' := ks.mirror source scid (entryOf es did path false) now
    applySync libs ks' other (entryOf es did path true) now' =
      .ok (.applied, ks'.mirror other scid (entryOf es did path true) now') := by
  intro ks'
  obtain ⟨hrecord, hlog, hmark⟩ := mirror_rows ks source scid es did path false now
  have hself : verifyLogExtends libs (some (logOf es)) (logOf es) = .ok () :=
    verifyLogExtends_eq_ok_iff.mpr ⟨List.prefix_refl _, fun _ => rfl⟩
  apply applySync_entryOf now' hentry
  · rw [hrecord]
    unfold checkOwner
    simp only [syncedRecord, entryOf, hscid, ne_eq, not_true_eq_false, decide_false,
      Bool.and_false, Bool.false_eq_true, if_false]
  · have hheld : sameDidHeld (some (syncedRecord source (entryOf es did path false) now))
        (some (logOf es)) scid = some (logOf es) := by
      unfold sameDidHeld
      rw [Option.filter_some, if_pos]
      exact decide_eq_true hscid
    rw [hrecord, hlog, hmark, hheld]
    simp only [Option.toList_some, List.singleton_append, checkHistory, hself, bind, Except.bind,
      Except.mapError]
  · unfold alreadyMirrored
    rw [show (entryOf es did path true).mnemonic = path from rfl, hrecord, Option.any_some]
    simp [syncedRecord, entryOf]

theorem applySync_other :
    applySync libs synced.ks "did:web:b" (entryOf [al1] didAl "al" true) 2 =
      .ok (.applied, mirrored "did:web:b" true 2 synced.ks) :=
  applySync_disabled 1 2 (checkEntry_al true) scid_didAl

/-- The run after the other source's sync. -/
def takenOver : WatcherRun where
  ks := mirrored "did:web:b" true 2 synced.ks
  committed := [entryOf [al1] didAl "al" false, entryOf [al1] didAl "al" true]
  firstWriter := AList.insert "al" "did:web:a" ∅

theorem step_otherSync : synced.step libs otherSync = takenOver := by
  have hrecord : synced.ks.records.lookup "al" =
      some (syncedRecord "did:web:a" (entryOf [al1] didAl "al" false) 1) :=
    (mirror_rows .empty "did:web:a" "s" [al1] didAl "al" false 1).1
  rw [otherSync, WatcherRun.step_applied applySync_other,
    show (entryOf [al1] didAl "al" true).mnemonic = "al" from rfl, hrecord]
  rfl

/-- A run of the condition: the source syncs its slot and another one asks for it to be
deleted. -/
theorem sources_isolated_delete :
    ∃ record, (WatcherRun.initial.exec libs
        ([firstSync] ++ [.delete "did:web:b" "al"])).ks.records.lookup "al" = some record ∧
      record.sourceDid = "did:web:a" := by
  have hfirst : WatcherRun.initial.exec libs [firstSync] = synced := by
    rw [WatcherRun.exec, Run.exec_cons, step_firstSync, Run.exec_nil]
  have hkeep : Run.Meets (WatcherRun.step libs) (KeepsToItsSlots libs) .initial
      ([firstSync] ++ [.delete "did:web:b" "al"]) := by
    refine ⟨?_, trivial, trivial⟩
    rintro ⟨prev, hprev, -⟩
    cases hprev
  have hwriter : (WatcherRun.initial.exec libs [firstSync]).firstWriter.lookup "al" =
      some "did:web:a" := by
    rw [hfirst]
    exact AList.lookup_insert _
  have hothers : ∀ op ∈ [WatcherOp.delete "did:web:b" "al"], op.source ≠ "did:web:a" := by
    decide
  obtain ⟨-, record, -, hrecord, -, hsource⟩ :=
    sources_isolated libs [firstSync] [.delete "did:web:b" "al"] hkeep hwriter hothers
  exact ⟨record, hrecord, hsource⟩

/-- A source syncs a slot, another one syncs the same log into it and deletes it: the
slot is gone, though its first writer has not deleted it. -/
theorem slot_deleted_by_other :
    ¬ ∀ (L : Libs) (ops calls : List WatcherOp) (m source : String),
      (WatcherRun.initial.exec L ops).firstWriter.lookup m = some source →
      (∀ op ∈ calls, op.source ≠ source) →
        ((WatcherRun.initial.exec L (ops ++ calls)).ks.records.lookup m).isSome = true := by
  intro hclaim
  have hfirst : WatcherRun.initial.exec libs [firstSync] = synced := by
    rw [WatcherRun.exec, Run.exec_cons, step_firstSync, Run.exec_nil]
  have hwriter : (WatcherRun.initial.exec libs [firstSync]).firstWriter.lookup "al" =
      some "did:web:a" := by
    rw [hfirst]
    exact AList.lookup_insert _
  have hothers : ∀ op ∈ [otherSync, .delete "did:web:b" "al"], op.source ≠ "did:web:a" := by
    simp [otherSync, WatcherOp.source]
  have hheld := hclaim libs [firstSync] [otherSync, .delete "did:web:b" "al"] "al" "did:web:a"
    hwriter hothers
  have hrecord : takenOver.ks.records.lookup "al" =
      some (syncedRecord "did:web:b" (entryOf [al1] didAl "al" true) 2) :=
    (mirror_rows synced.ks "did:web:b" "s" [al1] didAl "al" true 2).1
  rcases hdelete : deleteRecord takenOver.ks "al" "did:web:b" with ⟨held, ks'⟩
  have hrun : WatcherRun.initial.exec libs ([firstSync] ++ [otherSync, .delete "did:web:b" "al"]) =
      takenOver.step libs (.delete "did:web:b" "al") := by
    rw [WatcherRun.exec, List.singleton_append, Run.exec_cons, step_firstSync, Run.exec_cons,
      step_otherSync, Run.exec_cons, Run.exec_nil]
  cases held with
  | false =>
      unfold deleteRecord at hdelete
      rw [hrecord, Option.any_some, if_pos (by rfl)] at hdelete
      cases hdelete
  | true =>
      obtain ⟨-, hrecords, -, -⟩ := deleteRecord_spec hdelete
      rw [hrun, WatcherRun.step_deleted hdelete] at hheld
      simp only [hrecords, AList.lookup_erase, Option.isSome_none, Bool.false_eq_true] at hheld

end

end Watcher

end DidHosting
