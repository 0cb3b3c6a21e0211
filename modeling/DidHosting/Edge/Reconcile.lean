import DidHosting.Edge.Changes
import DidHosting.Edge.Reference

/-!
# The reconcile of an edge with the control plane's listing

An edge asks for the control plane's full listing, page by page, and compares it with
the slots it holds.  A disabled flag that differs is repaired on the spot; a slot that
is missing, behind, of another DID or not listed any more is reported.  The outcome is
clean when nothing is reported.
-/

namespace DidHosting

open Text

/-! ## The listing -/

/-- `Listed`: the control plane's view of one slot. -/
structure Listed where
  didId : Option String
  versionCount : ℕ
  disabled : Bool
deriving DecidableEq, Repr

/-- A verified reply: the slots of the page and the total of the listing, or why there
is none. -/
abbrev ListingReply := Except String (List (String × Listed) × ℕ)

/-- The listing as the edge collects it. -/
abbrev Listing := Table String Listed

/-- `HashMap::extend`. -/
def Listing.extend (listed : Listing) (page : List (String × Listed)) : Listing :=
  page.foldl (fun listed row => listed.insert row.1 row.2) listed

/-- The page loop of `reconcile_once`. -/
def collectListing (listed : Listing) (offset : ℕ) : List ListingReply → Except String Listing
  | [] => .error "no reply within the timeout"
  | .error e :: _ => .error e
  | .ok (page, total) :: replies =>
      let listed := listed.extend page
      let offset := offset + page.length
      if page.length = 0 || total ≤ offset then
        if listed.entries.length < total then
          .error s!"the listing ended at {listed.entries.length} of {total} slots"
        else
          .ok listed
      else
        collectListing listed offset replies

/-! ## The comparison -/

structure ReconcileReport where
  repaired : List String
  behind : List String
  extra : List String
deriving DecidableEq, Repr

def ReconcileReport.isClean (report : ReconcileReport) : Bool :=
  report.behind.isEmpty && report.extra.isEmpty

/-- A published record: it has versions and is not deleted. -/
def DidRecord.published (record : DidRecord) : Bool :=
  0 < record.versionCount && record.deletedAt.isNone

/-- The slots an edge compares. -/
def heldRecords (s : EdgeStore) : List DidRecord :=
  (allRecords s).filter (·.published)

/-- The listed slots the edge is missing.  A slot without versions is a reservation. -/
def missingSlots (listed : Listing) (held : List DidRecord) : List String :=
  ((Table.rows listed).filter fun row =>
    row.2.versionCount ≠ 0 && !held.any (·.mnemonic = row.1)).map Prod.fst

/-- What `apply_listing` finds about one record, and the write that repairs it. -/
def reconcileRecord (listed : Listing) (report : ReconcileReport) (record : DidRecord) :
    ReconcileReport × Option EdgeWrite :=
  match listed.lookup record.mnemonic with
  | none => ({ report with extra := report.extra ++ [record.mnemonic] }, none)
  | some want =>
      if want.versionCount = 0 then
        ({ report with extra := report.extra ++ [record.mnemonic] }, none)
      else
        let report :=
          if want.didId ≠ record.didId || record.versionCount < want.versionCount then
            { report with behind := report.behind ++ [record.mnemonic] }
          else report
        if want.disabled ≠ record.disabled then
          ({ report with repaired := report.repaired ++ [record.mnemonic] },
            some (.dids [.insertDid record.mnemonic { record with disabled := want.disabled }]))
        else (report, none)

/-- Operations of the reconcile loop, which fail with a text. -/
abbrev ReconcileM := Prog EdgeStore EdgeWrite EdgeLock String

/-- The record loop of `apply_listing`. -/
def compareLoop (listed : Listing) (report : ReconcileReport) :
    List DidRecord → ReconcileM ReconcileReport
  | [] => pure report
  | record :: records => do
      Prog.writeOpt (reconcileRecord listed report record).2
      compareLoop listed (reconcileRecord listed report record).1 records

/-- The report with its lists sorted. -/
def ReconcileReport.sorted (report : ReconcileReport) : ReconcileReport where
  repaired := report.repaired.mergeSort (· ≤ ·)
  behind := report.behind.mergeSort (· ≤ ·)
  extra := report.extra.mergeSort (· ≤ ·)

def applyListing (listed : Listing) : ReconcileM ReconcileReport := do
  let held ← (Query.read heldRecords : Query EdgeStore String _)
  let report ← compareLoop listed ⟨[], missingSlots listed held, []⟩ held
  return report.sorted

/-- `reconcile_once`, for the replies the control plane gives one after the other. -/
def reconcileOnce (replies : List ListingReply) : ReconcileM ReconcileReport := do
  let listed ← Prog.check (collectListing ∅ 0 replies)
  applyListing listed

/-! ## What the comparison leaves -/

theorem isClean_iff {report : ReconcileReport} :
    report.isClean = true ↔ report.behind = [] ∧ report.extra = [] := by
  unfold ReconcileReport.isClean
  rw [Bool.and_eq_true, List.isEmpty_iff, List.isEmpty_iff]

theorem isClean_sorted {report : ReconcileReport} :
    report.sorted.isClean = report.isClean := by
  have hempty : ∀ xs : List String, (xs.mergeSort (· ≤ ·)).isEmpty = xs.isEmpty := by
    intro xs
    rw [Bool.eq_iff_iff, List.isEmpty_iff, List.isEmpty_iff, ← List.length_eq_zero_iff,
      List.length_mergeSort, List.length_eq_zero_iff]
  unfold ReconcileReport.isClean ReconcileReport.sorted
  rw [hempty, hempty]

/-- The record agrees with what is listed, up to a version count that may be larger. -/
structure Agrees (want : Listed) (record : DidRecord) : Prop where
  didId : want.didId = record.didId
  disabled : want.disabled = record.disabled
  versionCount : want.versionCount ≤ record.versionCount

/-- The record a comparison leaves. -/
def repairedRecord (listed : Listing) (record : DidRecord) : DidRecord :=
  match listed.lookup record.mnemonic with
  | some want =>
      if want.versionCount = 0 then record else { record with disabled := want.disabled }
  | none => record

section Compare

variable (listed : Listing) (report : ReconcileReport) {record : DidRecord}

/-- A comparison reports nothing less than before. -/
theorem reconcileRecord_grows (record : DidRecord) :
    report.behind <+: (reconcileRecord listed report record).1.behind ∧
      report.extra <+: (reconcileRecord listed report record).1.extra := by
  unfold reconcileRecord
  split
  · exact ⟨List.prefix_refl _, List.prefix_append ..⟩
  · split
    · exact ⟨List.prefix_refl _, List.prefix_append ..⟩
    · simp only
      split <;> split
      all_goals first
        | exact ⟨List.prefix_append .., List.prefix_refl _⟩
        | exact ⟨List.prefix_refl _, List.prefix_refl _⟩

/-- A comparison that reports nothing leaves a record that agrees with the listing. -/
theorem reconcileRecord_clean
    (hclean : (reconcileRecord listed report record).1.isClean = true) :
    ∃ want, listed.lookup record.mnemonic = some want ∧ want.versionCount ≠ 0 ∧
      Agrees want (repairedRecord listed record) := by
  obtain ⟨hbehind, hextra⟩ := isClean_iff.mp hclean
  unfold reconcileRecord at hbehind hextra
  unfold repairedRecord
  cases hwant : listed.lookup record.mnemonic with
  | none =>
      rw [hwant] at hextra
      simp at hextra
  | some want =>
      rw [hwant] at hbehind hextra
      simp only at hbehind hextra ⊢
      by_cases hzero : want.versionCount = 0
      · rw [if_pos hzero] at hextra
        simp at hextra
      · rw [if_neg hzero] at hbehind ⊢
        refine ⟨want, rfl, hzero, ?_⟩
        by_cases hbad : (decide (want.didId ≠ record.didId) ||
            decide (record.versionCount < want.versionCount)) = true
        · rw [if_pos hbad] at hbehind
          split at hbehind <;> simp at hbehind
        · rw [Bool.or_eq_true, not_or, decide_eq_true_eq, decide_eq_true_eq, not_not,
            not_lt] at hbad
          exact ⟨hbad.1, rfl, hbad.2⟩

theorem reconcileRecord_write (s : EdgeStore) (hheld : s.record record.mnemonic = some record)
    (m : String) :
    ((Prog.writeOpt (reconcileRecord listed report record).2 : ReconcileM Unit).run s).2.record m =
      if m = record.mnemonic then some (repairedRecord listed record) else s.record m := by
  have hsame : (if m = record.mnemonic then some record else s.record m) = s.record m := by
    split
    · rename_i hm
      rw [hm, hheld]
    · rfl
  unfold reconcileRecord repairedRecord
  cases listed.lookup record.mnemonic with
  | none => exact hsame.symm
  | some want =>
      simp only
      by_cases hzero : want.versionCount = 0
      · rw [if_pos hzero, if_pos hzero]
        exact hsame.symm
      · rw [if_neg hzero, if_neg hzero]
        by_cases hdiffers : want.disabled ≠ record.disabled
        · rw [if_pos hdiffers]
          exact Table.lookup_insert_ite ..
        · have hequal : { record with disabled := want.disabled } = record := by
            rw [not_not.mp hdiffers]
          rw [if_neg hdiffers, hequal]
          exact hsame.symm

end Compare

/-- The record loop repairs the records it is given and reports what it cannot
repair. -/
theorem run_compareLoop (listed : Listing) (records : List DidRecord) (report : ReconcileReport)
    (s : EdgeStore) (hnodup : (records.map (·.mnemonic)).Nodup)
    (hheld : ∀ record ∈ records, s.record record.mnemonic = some record) :
    ∃ report' t, (compareLoop listed report records).run s = (.ok report', t) ∧
      report.behind <+: report'.behind ∧ report.extra <+: report'.extra ∧
      (report'.isClean = true → ∀ record ∈ records, ∃ want,
        listed.lookup record.mnemonic = some want ∧ want.versionCount ≠ 0 ∧
          Agrees want (repairedRecord listed record)) ∧
      (∀ record ∈ records, t.record record.mnemonic = some (repairedRecord listed record)) ∧
      ∀ m, (∀ record ∈ records, record.mnemonic ≠ m) → t.record m = s.record m := by
  induction records generalizing report s with
  | nil =>
      exact ⟨report, s, rfl, List.prefix_refl _, List.prefix_refl _,
        fun _ _ h => absurd h List.not_mem_nil, fun _ h => absurd h List.not_mem_nil,
        fun _ _ => rfl⟩
  | cons record records ih =>
      obtain ⟨hfirst, hrest⟩ := List.nodup_cons.mp hnodup
      have hne : ∀ rec ∈ records, rec.mnemonic ≠ record.mnemonic :=
        fun rec hrec heq => hfirst (List.mem_map.mpr ⟨rec, hrec, heq⟩)
      have hwrite := reconcileRecord_write listed report s
        (hheld record List.mem_cons_self)
      obtain ⟨report', t, hrun, hbehind, hextra, hclean, hrepaired, hother⟩ :=
        ih (reconcileRecord listed report record).1
          ((Prog.writeOpt (reconcileRecord listed report record).2 : ReconcileM Unit).run s).2
          hrest (by
            intro rec hrec
            rw [hwrite, if_neg (hne rec hrec)]
            exact hheld rec (List.mem_cons_of_mem _ hrec))
      obtain ⟨hgrow, hgrow'⟩ :=
        reconcileRecord_grows listed report record
      refine ⟨report', t, ?_, hgrow.trans hbehind, hgrow'.trans hextra, ?_, ?_, ?_⟩
      · unfold compareLoop
        rw [Prog.run_bind_ok (Prog.run_writeOpt _ s)]
        exact hrun
      · intro hc rec hrec
        rcases List.mem_cons.mp hrec with rfl | hmem
        · refine reconcileRecord_clean listed report (isClean_iff.mpr ?_)
          obtain ⟨hb, he⟩ := isClean_iff.mp hc
          exact ⟨List.prefix_nil.mp (hb ▸ hbehind), List.prefix_nil.mp (he ▸ hextra)⟩
        · exact hclean hc rec hmem
      · intro rec hrec
        rcases List.mem_cons.mp hrec with rfl | hmem
        · rw [hother _ hne, hwrite, if_pos rfl]
        · exact hrepaired rec hmem
      · intro m hm
        have hm' : m ≠ record.mnemonic := (hm record List.mem_cons_self).symm
        rw [hother m fun rec hrec => hm rec (List.mem_cons_of_mem _ hrec), hwrite, if_neg hm']

theorem repairedRecord_published (listed : Listing) (record : DidRecord) :
    (repairedRecord listed record).published = record.published := by
  unfold repairedRecord
  split
  · split <;> rfl
  · rfl

section Held

variable {s : EdgeStore} (hkeyed : s.Keyed)

theorem mem_heldRecords {record : DidRecord} :
    record ∈ heldRecords s ↔ (∃ m, s.record m = some record) ∧ record.published = true := by
  unfold heldRecords
  rw [List.mem_filter, mem_allRecords]

include hkeyed

theorem nodup_heldRecords : ((heldRecords s).map (·.mnemonic)).Nodup :=
  (List.filter_sublist.map _).nodup (nodup_allRecords hkeyed)

theorem record_of_held {record : DidRecord} (h : record ∈ heldRecords s) :
    s.record record.mnemonic = some record := by
  obtain ⟨⟨m, hm⟩, -⟩ := mem_heldRecords.mp h
  rw [hkeyed m record hm]
  exact hm

end Held

theorem held_of_missingSlots {listed : Listing} {held : List DidRecord} {m : String}
    {want : Listed} (hnone : missingSlots listed held = [])
    (hwant : listed.lookup m = some want) (hversions : want.versionCount ≠ 0) :
    ∃ record ∈ held, record.mnemonic = m := by
  by_contra hnot
  have hmissing : m ∈ missingSlots listed held := by
    refine List.mem_map.mpr ⟨(m, want), List.mem_filter.mpr ⟨Table.mem_rows.mpr hwant, ?_⟩, rfl⟩
    have hany : held.any (fun r => decide (r.mnemonic = m)) = false := by
      rw [List.any_eq_false]
      intro record hmem heq
      exact hnot ⟨record, hmem, by simpa using heq⟩
    simp [hversions, hany]
  rw [hnone] at hmissing
  exact absurd hmissing List.not_mem_nil

/-- The comparison of a store: what it reports, and the records it leaves. -/
theorem run_applyListing {s : EdgeStore} (hkeyed : s.Keyed) (listed : Listing) :
    ∃ (report : ReconcileReport) (t : EdgeStore),
      (applyListing listed).run s = (.ok report.sorted, t) ∧
      missingSlots listed (heldRecords s) <+: report.behind ∧
      (report.isClean = true → ∀ record ∈ heldRecords s, ∃ want,
        listed.lookup record.mnemonic = some want ∧ want.versionCount ≠ 0 ∧
          Agrees want (repairedRecord listed record)) ∧
      (∀ record ∈ heldRecords s,
        t.record record.mnemonic = some (repairedRecord listed record)) ∧
      ∀ m, (∀ record ∈ heldRecords s, record.mnemonic ≠ m) → t.record m = s.record m := by
  obtain ⟨report, t, hloop, hbehind, -, hagree, hrepaired, hother⟩ :=
    run_compareLoop listed (heldRecords s) ⟨[], missingSlots listed (heldRecords s), []⟩ s
      (nodup_heldRecords hkeyed) fun _ h => record_of_held hkeyed h
  refine ⟨report, t, ?_, hbehind, hagree, hrepaired, hother⟩
  unfold applyListing
  rw [Prog.run_bind, Prog.run_liftM]
  simp only [Query.read, Query.eval]
  rw [Prog.run_bind_ok hloop]
  rfl

/-! ## Reachable stores -/

/-- The stores an edge reaches, with reconciles between its operations. -/
inductive EdgeStore.Reachable (E : EdgeState) : EdgeStore → Prop where
  | initial (assignments : Table String AssignmentEntry)
      (pendingPurges : Table String PendingPurge) (domains : Table String DomainEntry)
      (defaultDomain : Option String) :
      Reachable E (EdgeRun.initial assignments pendingPurges domains defaultDomain).store
  | step (r : EdgeRun) (op : EdgeOp) (h : Reachable E r.store) :
      Reachable E (r.step E op).store
  | reconcile (s : EdgeStore) (replies : List ListingReply) (h : Reachable E s) :
      Reachable E ((reconcileOnce replies).run s).2

theorem repairedRecord_mnemonic (listed : Listing) (record : DidRecord) :
    (repairedRecord listed record).mnemonic = record.mnemonic := by
  unfold repairedRecord
  split
  · split <;> rfl
  · rfl

theorem keyed_reconcileOnce {s : EdgeStore} (hkeyed : s.Keyed) (replies : List ListingReply) :
    ((reconcileOnce replies).run s).2.Keyed := by
  unfold reconcileOnce
  cases hlisted : collectListing ∅ 0 replies with
  | error e => exact hkeyed
  | ok listed =>
      rw [Prog.run_check_bind_ok _ listed rfl]
      obtain ⟨report, t, hrun, -, -, hrepaired, hother⟩ := run_applyListing hkeyed listed
      rw [hrun]
      intro m record hrec
      by_cases hheld : ∃ old ∈ heldRecords s, old.mnemonic = m
      · obtain ⟨old, hmem, rfl⟩ := hheld
        rw [hrepaired old hmem] at hrec
        cases hrec
        exact repairedRecord_mnemonic listed old
      · rw [hother m fun old hmem heq => hheld ⟨old, hmem, heq⟩] at hrec
        exact hkeyed m record hrec

theorem EdgeStore.Reachable.keyed {E : EdgeState} {s : EdgeStore} (h : s.Reachable E) :
    s.Keyed := by
  induction h with
  | initial => exact fun _ _ hrec => nomatch hrec
  | step r op _ ih => exact keyed_history ih (EdgeRun.step_history E r op)
  | reconcile s replies _ ih => exact keyed_reconcileOnce ih replies

/-- After a clean reconcile the edge holds, as published, exactly the slots that the
whole listing publishes, each with the listed DID and disabled flag and at least the
listed version count. -/
theorem clean_reconcile_agrees (E : EdgeState) {s t : EdgeStore} (hreach : s.Reachable E)
    {replies : List ListingReply} {report : ReconcileReport}
    (hrun : (reconcileOnce replies).run s = (.ok report, t)) (hclean : report.isClean = true) :
    ∃ listed, collectListing ∅ 0 replies = .ok listed ∧ ∀ m,
      ((∃ record, t.record m = some record ∧ record.published = true) ↔
        ∃ want, listed.lookup m = some want ∧ want.versionCount ≠ 0) ∧
      ∀ record, t.record m = some record → record.published = true →
        ∃ want, listed.lookup m = some want ∧ want.didId = record.didId ∧
          want.disabled = record.disabled ∧ want.versionCount ≤ record.versionCount := by
  have hkeyed := hreach.keyed
  unfold reconcileOnce at hrun
  cases hlisted : collectListing ∅ 0 replies with
  | error e =>
      rw [hlisted] at hrun
      exact nomatch congrArg Prod.fst hrun
  | ok listed =>
      rw [hlisted, Prog.run_check_bind_ok _ listed rfl] at hrun
      obtain ⟨report', t', hall, hbehind, hagree, hrepaired, hother⟩ :=
        run_applyListing hkeyed listed
      rw [hall] at hrun
      cases hrun
      rw [isClean_sorted] at hclean
      have hmissing : missingSlots listed (heldRecords s) = [] := by
        rw [(isClean_iff.mp hclean).1] at hbehind
        exact List.prefix_nil.mp hbehind
      -- what is published afterwards was held, and was compared
      have hpublished : ∀ m record, t.record m = some record → record.published = true →
          ∃ old ∈ heldRecords s, old.mnemonic = m ∧ record = repairedRecord listed old := by
        intro m record hrec hpub
        by_cases hheld : ∃ old ∈ heldRecords s, old.mnemonic = m
        · obtain ⟨old, hmem, rfl⟩ := hheld
          rw [hrepaired old hmem] at hrec
          exact ⟨old, hmem, rfl, (Option.some.inj hrec).symm⟩
        · have hsame := hother m fun old hmem heq => hheld ⟨old, hmem, heq⟩
          rw [hsame] at hrec
          exact absurd ⟨record, mem_heldRecords.mpr ⟨⟨m, hrec⟩, hpub⟩, hkeyed m record hrec⟩ hheld
      refine ⟨listed, rfl, fun m => ⟨⟨?_, ?_⟩, ?_⟩⟩
      · rintro ⟨record, hrec, hpub⟩
        obtain ⟨old, hmem, rfl, -⟩ := hpublished m record hrec hpub
        obtain ⟨want, hwant, hversions, -⟩ := hagree hclean old hmem
        exact ⟨want, hwant, hversions⟩
      · rintro ⟨want, hwant, hversions⟩
        obtain ⟨old, hmem, rfl⟩ := held_of_missingSlots hmissing hwant hversions
        refine ⟨_, hrepaired old hmem, ?_⟩
        rw [repairedRecord_published]
        exact (mem_heldRecords.mp hmem).2
      · intro record hrec hpub
        obtain ⟨old, hmem, rfl, rfl⟩ := hpublished m record hrec hpub
        obtain ⟨want, hwant, -, hfields⟩ := hagree hclean old hmem
        exact ⟨want, hwant, hfields.didId, hfields.disabled, hfields.versionCount⟩

/-! ## An edge that was unassigned, and is ahead -/

namespace ReconcileSample

open Reference

/-- An edge without a URL of its own. -/
def unnamedEdge : EdgeState :=
  ⟨libs, none⟩

/-- It serves `h.io`. -/
def assigned : Table String AssignmentEntry :=
  AList.singleton "h.io" ⟨"h.io", 1, "did:c"⟩

/-- It was told two versions of `al`. -/
def told : EdgeRun :=
  EdgeRun.step unnamedEdge (EdgeRun.initial assigned ∅ ∅ none)
    (.syncUpdate 2 (updateOf [al1, al2] didAl "al" false))

/-- The domain was taken away, and is not purged yet. -/
def unassigned : EdgeRun :=
  EdgeRun.step unnamedEdge told (.domainUnassign 5 60 "did:c" "h.io")

def recordAl2 : DidRecord := syncedRecordOf [al1, al2] didAl "al" false 2

/-- A listing of the slot `al` alone. -/
def listingOf (versionCount : ℕ) : List ListingReply :=
  [.ok ([("al", ⟨some didAl, versionCount, false⟩)], 1)]

theorem told_eq : told.store = EdgeStore.commit
    (.dids (syncedBatch [al1, al2] didAl "al" "s" false 2 none))
    (EdgeRun.initial assigned ∅ ∅ none).store := by
  have hbound : boundAt libs .webvh (updateOf [al1, al2] didAl "al" false)
      (servedBases unnamedEdge assigned) = true := by
    decide +kernel
  have hrun : (applySyncEntry unnamedEdge 2 (updateOf [al1, al2] didAl "al" false)).run
      (EdgeRun.initial assigned ∅ ∅ none).store = _ :=
    run_firstSync 2 validLog_al2 hbound scid_didAl rfl rfl rfl rfl
  rw [told, EdgeRun.step, EdgeRun.entry_store, hrun]

theorem told_dids : told.store.ks.dids = AList.insert "al" recordAl2 ∅ := by
  have hcommit := commit_updateBatch libs (updateOf [al1, al2] didAl "al" false) .webvh none
    recordAl2 "s" DidsKs.empty
  rw [told_eq]
  exact hcommit.1

theorem told_assignments : told.store.assignments = assigned := by
  rw [told_eq]
  rfl

theorem run_unassign {s : EdgeStore} (hassigned : s.assignments = assigned) :
    ((doDomainUnassign unnamedEdge.libs 5 60 "did:c" "h.io").run s).2.ks = s.ks ∧
      ((doDomainUnassign unnamedEdge.libs 5 60 "did:c" "h.io").run s).2.assignments.lookup
        "h.io" = none := by
  have hcanonical : checkCanonical unnamedEdge.libs "h.io" "replica/domain/unassign" =
      .ok () := by
    decide +kernel
  have hheld : (s.assignments.lookup "h.io").isSome = true := by
    rw [hassigned]
    rfl
  rw [run_doDomainUnassign, hcanonical]
  simp only [hheld, if_true, true_and]
  exact AList.lookup_erase ..

theorem step_unassign (E : EdgeState) (r : EdgeRun) (now grace : ℕ) (assigner domain : String) :
    (r.step E (.domainUnassign now grace assigner domain)).store =
      ((doDomainUnassign E.libs now grace assigner domain).run r.store).2 := rfl

theorem unassigned_eq :
    unassigned.store.ks.dids = AList.insert "al" recordAl2 ∅ ∧
      unassigned.store.assignments.lookup "h.io" = none := by
  have hrun : unassigned.store =
      ((doDomainUnassign unnamedEdge.libs 5 60 "did:c" "h.io").run told.store).2 := by
    rw [unassigned, step_unassign]
  obtain ⟨hks, hnone⟩ := run_unassign told_assignments
  rw [hrun, hks]
  exact ⟨told_dids, hnone⟩

theorem reachable_unassigned : unassigned.store.Reachable unnamedEdge :=
  .step told _ (.step _ _ (.initial assigned ∅ ∅ none))

/-- One held slot, against a listing of it with no more versions. -/
theorem reconcile_listingOf {s : EdgeStore} {record : DidRecord} {k : ℕ}
    (hheld : heldRecords s = [record]) (hname : record.mnemonic = "al")
    (hdid : record.didId = some didAl) (hdisabled : record.disabled = false) (hzero : k ≠ 0)
    (hle : k ≤ record.versionCount) :
    (reconcileOnce (listingOf k)).run s = (.ok ⟨[], [], []⟩, s) := by
  have hcollect : collectListing ∅ 0 (listingOf k) =
      .ok (AList.insert "al" ⟨some didAl, k, false⟩ ∅) := rfl
  have hlookup : (AList.insert "al" ⟨some didAl, k, false⟩ ∅ : Listing).lookup
      record.mnemonic = some ⟨some didAl, k, false⟩ := by
    rw [hname]
    exact AList.lookup_insert _
  have hmissing : missingSlots (AList.insert "al" ⟨some didAl, k, false⟩ ∅) [record] = [] := by
    have hrows : Table.rows (AList.insert "al" ⟨some didAl, k, false⟩ ∅ : Listing) =
        [("al", ⟨some didAl, k, false⟩)] := rfl
    unfold missingSlots
    rw [hrows]
    simp [hname]
  have hsame : reconcileRecord (AList.insert "al" ⟨some didAl, k, false⟩ ∅) ⟨[], [], []⟩ record =
      (⟨[], [], []⟩, none) := by
    unfold reconcileRecord
    rw [hlookup]
    simp [hzero, hdid, hdisabled, hle]
  have hloop : (compareLoop (AList.insert "al" ⟨some didAl, k, false⟩ ∅) ⟨[], [], []⟩
      [record]).run s = (.ok ⟨[], [], []⟩, s) := by
    unfold compareLoop
    rw [hsame]
    rfl
  have hsorted : ReconcileReport.sorted ⟨[], [], []⟩ = ⟨[], [], []⟩ := by
    unfold ReconcileReport.sorted
    simp only [List.mergeSort_nil]
  unfold reconcileOnce
  rw [hcollect, Prog.run_check_bind_ok _ _ rfl]
  unfold applyListing
  rw [Prog.run_bind, Prog.run_liftM]
  simp only [Query.read, Query.eval, hheld, hmissing]
  rw [Prog.run_bind_ok hloop, hsorted]
  rfl

theorem heldRecords_single {s : EdgeStore} {record : DidRecord}
    (hdids : s.ks.dids = AList.insert "al" record ∅) (hpublished : record.published = true) :
    heldRecords s = [record] := by
  have hall : allRecords s = [record] := by
    unfold allRecords
    rw [hdids]
    rfl
  unfold heldRecords
  rw [hall]
  simp [hpublished]

theorem reconcile_unassigned {k : ℕ} (hzero : k ≠ 0) (hle : k ≤ 2) :
    (reconcileOnce (listingOf k)).run unassigned.store = (.ok ⟨[], [], []⟩, unassigned.store) :=
  reconcile_listingOf (heldRecords_single unassigned_eq.1 rfl) rfl rfl rfl hzero hle

theorem unassigned_record : unassigned.store.record "al" = some recordAl2 := by
  unfold EdgeStore.record
  rw [unassigned_eq.1]
  exact AList.lookup_insert _

end ReconcileSample

open ReconcileSample Reference in
/-- An edge that holds what is listed is in agreement with the listing. -/
theorem clean_reconcile_agrees_al :
    ∃ listed, collectListing ∅ 0 (listingOf 2) = .ok listed ∧
      ∃ want, listed.lookup "al" = some want ∧ want.versionCount ≠ 0 := by
  obtain ⟨listed, hlisted, hagree⟩ := clean_reconcile_agrees unnamedEdge reachable_unassigned
    (reconcile_unassigned (k := 2) (by decide) (by decide)) rfl
  exact ⟨listed, hlisted, (hagree "al").1.mp ⟨recordAl2, unassigned_record, rfl⟩⟩

open ReconcileSample Reference in
/-- A clean reconcile of an edge that serves a slot outside its domains, with a version
more than the listed one. -/
theorem clean_reconcile_ahead :
    unassigned.store.Reachable unnamedEdge ∧
      (reconcileOnce (listingOf 1)).run unassigned.store =
        (.ok ⟨[], [], []⟩, unassigned.store) ∧
      ReconcileReport.isClean ⟨[], [], []⟩ = true ∧
      (∃ listed, collectListing ∅ 0 (listingOf 1) = .ok listed ∧
        listed.lookup "al" = some ⟨some didAl, 1, false⟩) ∧
      unassigned.store.assignments.lookup "h.io" = none ∧ unnamedEdge.publicUrl = none ∧
      ∃ record, unassigned.store.record "al" = some record ∧ record.published = true ∧
        record.domain = "h.io" ∧ record.versionCount = 2 := by
  refine ⟨reachable_unassigned, reconcile_unassigned (by decide) (by decide), rfl,
    ⟨_, rfl, AList.lookup_insert _⟩, unassigned_eq.2, rfl, recordAl2, unassigned_record, rfl, ?_, rfl⟩
  rw [recordAl2, syncedRecordOf_domain, host_didAl]

end DidHosting
