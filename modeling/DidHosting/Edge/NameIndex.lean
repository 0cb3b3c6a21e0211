import DidHosting.Edge.Changes
import DidHosting.Edge.Reference

/-!
# The agent-name index of an edge

An edge derives the names of a slot from the log it was sent, and keeps an index row
for each of them on the host of the DID.  An update retires the rows of names that are
gone, on the host of the new DID, and points the rows of its names at the slot, whoever
held them.  The index therefore agrees with the records as long as a slot with names
keeps its host and no name is claimed that another slot holds.
-/

namespace DidHosting

open Text

/-! ## Agreement -/

/-- The names a record lists. -/
def DidRecord.names (record : DidRecord) : List String :=
  record.agentNames.map (·.name)

/-- The index rows are those of the names the records list, on the hosts of their
DIDs. -/
def NamesAgree (L : Libs) (s : EdgeStore) : Prop :=
  ∀ h n m, s.ks.agentName.lookup (h, n) = some m ↔
    ∃ record, s.record m = some record ∧ n ∈ record.names ∧ hostOfDidId L record.didId = h

theorem mem_rowKeys {names : List String} {host h n : String} :
    (h, n) ∈ names.map (fun n => (host, n)) ↔ h = host ∧ n ∈ names := by
  simp only [List.mem_map, Prod.mk.injEq]
  constructor
  · rintro ⟨x, hx, rfl, rfl⟩
    exact ⟨rfl, hx⟩
  · rintro ⟨rfl, hn⟩
    exact ⟨n, hn, rfl, rfl⟩

namespace NamesAgree

variable {L : Libs} {s t : EdgeStore}

theorem congr (h : NamesAgree L s) (hks : t.ks = s.ks) : NamesAgree L t := by
  intro host n m
  rw [EdgeStore.record, hks]
  exact h host n m

/-- Dropping a slot with its current record takes exactly its own rows. -/
theorem drop (h : NamesAgree L s) {m : String} {record : DidRecord}
    (hrecord : s.record m = some record)
    (hks : t.ks = DidsKs.commit (dropSlot L m record) s.ks) : NamesAgree L t := by
  have hown : ∀ host n, host = hostOfDidId L record.didId ∧ n ∈ record.names →
      s.ks.agentName.lookup (host, n) = some m := by
    rintro host n ⟨hhost, hn⟩
    exact (h host n m).mpr ⟨record, hrecord, hn, hhost.symm⟩
  have hindex : ∀ host n, t.ks.agentName.lookup (host, n) =
      if host = hostOfDidId L record.didId ∧ n ∈ record.names then none
      else s.ks.agentName.lookup (host, n) := by
    intro host n
    have hkeys : (record.agentNames.map fun n => (hostOfDidId L record.didId, n.name)) =
        record.names.map fun n => (hostOfDidId L record.didId, n) := by
      rw [DidRecord.names, List.map_map]
      rfl
    rw [hks, commit_dropSlot, hkeys, Table.lookup_eraseAll]
    simp only [mem_rowKeys]
  have hrec : ∀ m', t.record m' = if m' = m then none else s.record m' := by
    intro m'
    rw [EdgeStore.record, hks, commit_dropSlot]
    exact Table.lookup_erase_ite _ _ _
  intro host n m'
  rw [hindex, hrec]
  constructor
  · intro hrow
    split at hrow
    · contradiction
    · rename_i hnot
      obtain ⟨record', hrec', hn, hhost⟩ := (h host n m').mp hrow
      have hne : m' ≠ m := by
        rintro rfl
        rw [hrecord] at hrec'
        cases hrec'
        exact hnot ⟨hhost.symm, hn⟩
      rw [if_neg hne]
      exact ⟨record', hrec', hn, hhost⟩
  · rintro ⟨record', hrec', hn, hhost⟩
    split at hrec'
    · contradiction
    · rename_i hne
      have hrow := (h host n m').mpr ⟨record', hrec', hn, hhost⟩
      rw [if_neg, hrow]
      intro hmem
      rw [hown host n hmem] at hrow
      exact hne (Option.some.inj hrow).symm

theorem slotDrop (h : NamesAgree L s) (hdrop : SlotDrop L s t) : NamesAgree L t := by
  cases hdrop with
  | same hks => exact h.congr hks
  | dropped m record hrecord hks => exact h.drop hrecord hks

theorem slotDrops (h : NamesAgree L s) (hdrops : SlotDrops L s t) : NamesAgree L t := by
  induction hdrops with
  | refl => exact h
  | tail _ hstep ih => exact ih.slotDrop hstep

end NamesAgree

/-! ## Updates -/

/-- The names an update claims for its slot: those of the current document that the
slot may bind. -/
def updateNames (L : Libs) (update : DidSyncUpdate) : List String :=
  match verifyContent L (syncedMethod L update.logContent) update with
  | .ok document =>
      (syncedFacts L document update.logContent (didHostOrEmpty L update.didId)).2.filter
        fun name => (validateAgentNameBinding name update.mnemonic).isOk
  | .error _ => []

/-- The update claims no name that the index holds for another slot, and a slot with
names keeps its host. -/
def KeepsNames (L : Libs) (s : EdgeStore) (update : DidSyncUpdate) : Prop :=
  (∀ n ∈ updateNames L update, ∀ m,
    s.ks.agentName.lookup (didHostOrEmpty L update.didId, n) = some m → m = update.mnemonic) ∧
  ∀ previous, s.record update.mnemonic = some previous → previous.names ≠ [] →
    hostOfDidId L previous.didId = didHostOrEmpty L update.didId

/-- The names of the previous record that the new one does not list. -/
def retired (previous : Option DidRecord) (record : DidRecord) : List String :=
  match previous with
  | some prev =>
      (prev.agentNames.filter fun old =>
        !record.agentNames.any fun n => n.name = old.name).map (·.name)
  | none => []

theorem mem_retired {prev record : DidRecord} {n : String} :
    n ∈ retired (some prev) record ↔ n ∈ prev.names ∧ n ∉ record.names := by
  simp only [retired, DidRecord.names, List.mem_map, List.mem_filter, Bool.not_eq_true',
    List.any_eq_false, decide_eq_true_eq]
  constructor
  · rintro ⟨old, ⟨hold, hnot⟩, rfl⟩
    refine ⟨⟨old, hold, rfl⟩, ?_⟩
    rintro ⟨e, he, heq⟩
    exact hnot e he heq
  · rintro ⟨⟨old, hold, rfl⟩, hnot⟩
    exact ⟨old, ⟨hold, fun e he heq => hnot ⟨e, he, heq⟩⟩, rfl⟩

section Update

variable (L : Libs) (update : DidSyncUpdate) (method : Method) (previous : Option DidRecord)
  (record : DidRecord) (identity : String) (ks : DidsKs)

theorem retiredNames_eq (host : String) :
    retiredNames previous record host = (retired previous record).map (.removeName host ·) := by
  cases previous with
  | none => rfl
  | some prev =>
      simp only [retiredNames, retired, List.map_map]
      rfl

theorem commit_updateBatch_names :
    (DidsKs.commit (updateBatch L update method previous record identity) ks).agentName =
      Table.insertAll (record.names.map fun n => (didHostOrEmpty L update.didId, n))
        update.mnemonic
        (Table.eraseAll ((retired previous record).map fun n =>
          (didHostOrEmpty L update.didId, n)) ks.agentName) := by
  have hclaimed : (record.agentNames.map fun e =>
      BatchOp.insertName (didHostOrEmpty L update.didId) e.name update.mnemonic) =
      record.names.map fun n => .insertName (didHostOrEmpty L update.didId) n update.mnemonic := by
    rw [DidRecord.names, List.map_map]
    rfl
  unfold updateBatch
  simp only
  rw [retiredNames_eq, hclaimed]
  cases hw : update.witnessContent <;>
    simp [stageHighWater, witnessWrite, hw, DidsKs.apply]

end Update

theorem syncedRecord_names {L : Libs} {update : DidSyncUpdate} {document : Option Json}
    (now : ℕ)
    (hcontent : verifyContent L (syncedMethod L update.logContent) update = .ok document) :
    (syncedRecord L update (syncedMethod L update.logContent) document now).names =
      updateNames L update := by
  unfold updateNames DidRecord.names syncedRecord
  rw [hcontent]
  simp only [List.map_map]
  exact List.map_id _

/-- An update that meets the condition keeps the agreement. -/
theorem NamesAgree.update {E : EdgeState} {now : ℕ} {update : DidSyncUpdate} {s t : EdgeStore}
    {document : Option Json} {identity : String} (h : NamesAgree E.libs s)
    (hupdate : SlotUpdate E now update s t document identity)
    (hkeeps : KeepsNames E.libs s update) : NamesAgree E.libs t := by
  obtain ⟨hfree, hhost⟩ := hkeeps
  let record := syncedRecord E.libs update (syncedMethod E.libs update.logContent) document now
  let host := didHostOrEmpty E.libs update.didId
  have hnames : record.names = updateNames E.libs update := syncedRecord_names now hupdate.content
  have hrec : ∀ m, t.record m =
      if m = update.mnemonic then some record else s.record m := by
    intro m
    rw [EdgeStore.record, hupdate.ks, (commit_updateBatch ..).1]
    exact Table.lookup_insert_ite ..
  have hindex : ∀ h n, t.ks.agentName.lookup (h, n) =
      if h = host ∧ n ∈ record.names then some update.mnemonic
      else if h = host ∧ n ∈ retired (s.record update.mnemonic) record then none
      else s.ks.agentName.lookup (h, n) := by
    intro h n
    rw [hupdate.ks, commit_updateBatch_names, Table.lookup_insertAll, Table.lookup_eraseAll]
    simp only [mem_rowKeys]
    rfl
  -- a retired name was the slot's own on this host
  have hretired : ∀ n, n ∈ retired (s.record update.mnemonic) record →
      s.ks.agentName.lookup (host, n) = some update.mnemonic := by
    intro n hn
    cases hprev : s.record update.mnemonic with
    | none =>
        rw [hprev] at hn
        exact absurd hn List.not_mem_nil
    | some prev =>
        rw [hprev] at hn
        have hold : n ∈ prev.names := (mem_retired.mp hn).1
        exact (h host n update.mnemonic).mpr
          ⟨prev, hprev, hold, hhost prev hprev (List.ne_nil_of_mem hold)⟩
  intro h' n m
  rw [hindex, hrec]
  constructor
  · intro hrow
    split at hrow
    · rename_i hclaimed
      obtain ⟨hh, hn⟩ := hclaimed
      cases hrow
      rw [if_pos rfl]
      exact ⟨record, rfl, hn, hh.symm⟩
    · rename_i hnew
      split at hrow
      · contradiction
      · rename_i hkept
        obtain ⟨record', hrec', hn, hh⟩ := (h h' n m).mp hrow
        have hne : m ≠ update.mnemonic := by
          rintro rfl
          have hsame : h' = host := hh.symm.trans
            (hhost record' hrec' (List.ne_nil_of_mem hn))
          have hgone : n ∉ record.names := fun hmem => hnew ⟨hsame, hmem⟩
          refine hkept ⟨hsame, ?_⟩
          rw [hrec']
          exact mem_retired.mpr ⟨hn, hgone⟩
        rw [if_neg hne]
        exact ⟨record', hrec', hn, hh⟩
  · rintro ⟨record', hrec', hn, hh⟩
    split at hrec'
    · rename_i hm
      cases hrec'
      have hhost' : h' = host := hh.symm
      rw [if_pos ⟨hhost', hn⟩, hm]
    · rename_i hne
      have hrow := (h h' n m).mpr ⟨record', hrec', hn, hh⟩
      have hother : ∀ hh : h' = host, s.ks.agentName.lookup (host, n) ≠ some update.mnemonic := by
        rintro rfl hown
        rw [hrow] at hown
        exact hne (Option.some.inj hown)
      rw [if_neg, if_neg, hrow]
      · rintro ⟨hh', hret⟩
        exact hother hh' (hretired n hret)
      · rintro ⟨hh', hclaimed⟩
        subst hh'
        exact hne (hfree n (hnames ▸ hclaimed) m hrow)

/-! ## Runs -/

/-- The condition on an operation.  The clean-up of empty slots is not among the
operations considered. -/
def EdgeRun.NamesKept (E : EdgeState) (r : EdgeRun) : EdgeOp → Prop
  | .syncUpdate _ update => KeepsNames E.libs r.store update
  | .syncBatch updates =>
      Run.Meets (EdgeRun.entry E) (fun r e => KeepsNames E.libs r.store e.2) r updates
  | .cleanup _ _ => False
  | _ => True

section Runs

variable {E : EdgeState}

theorem namesAgree_entry (r : EdgeRun) (e : ℕ × DidSyncUpdate)
    (hkeeps : KeepsNames E.libs r.store e.2) (h : NamesAgree E.libs r.store) :
    NamesAgree E.libs (r.entry E e).store := by
  rw [EdgeRun.entry_store]
  rcases run_applySyncEntry E e.1 e.2 r.store with hsame | ⟨document, identity, hupdate⟩
  · rw [hsame]
    exact h
  · exact h.update hupdate hkeeps

/-- Every operation that meets the condition keeps the agreement. -/
theorem namesAgree_step (r : EdgeRun) (op : EdgeOp) (hok : r.NamesKept E op)
    (hkeyed : r.store.Keyed) (h : NamesAgree E.libs r.store) :
    NamesAgree E.libs (r.step E op).store := by
  cases op with
  | syncUpdate now update => exact namesAgree_entry r (now, update) hok h
  | syncBatch updates =>
      exact Run.exec_invariant (fun r e hok h => namesAgree_entry r e hok h) h hok
  | cleanup now ttl => exact absurd hok id
  | _ => exact h.slotDrops (slotDrops_step E r trivial hkeyed)

/-- A row belongs to a slot whose record did not change, and stays. -/
theorem NamesAgree.row_kept {L : Libs} {s t : EdgeStore} (hs : NamesAgree L s)
    (ht : NamesAgree L t) {h n m : String} (hrec : t.record m = s.record m)
    (hrow : s.ks.agentName.lookup (h, n) = some m) : t.ks.agentName.lookup (h, n) = some m := by
  obtain ⟨record, hheld, hn, hhost⟩ := (hs h n m).mp hrow
  exact (ht h n m).mpr ⟨record, hrec.trans hheld, hn, hhost⟩

end Runs

/-- In every run of operations that meet the condition the index and the records of the
edge agree, and an update or a delete of one slot leaves the index rows of the other
slots alone. -/
theorem edge_names_agree (E : EdgeState) (assignments : Table String AssignmentEntry)
    (pendingPurges : Table String PendingPurge) (domains : Table String DomainEntry)
    (defaultDomain : Option String) (ops : List EdgeOp)
    (hok : Run.Meets (EdgeRun.step E) (EdgeRun.NamesKept E)
      (EdgeRun.initial assignments pendingPurges domains defaultDomain) ops) :
    let r := Run.exec (EdgeRun.step E)
      (EdgeRun.initial assignments pendingPurges domains defaultDomain) ops
    (∀ h n m, r.store.ks.agentName.lookup (h, n) = some m ↔
      ∃ record, r.store.record m = some record ∧ n ∈ record.names ∧
        hostOfDidId E.libs record.didId = h) ∧
    (∀ now update h n m, KeepsNames E.libs r.store update → m ≠ update.mnemonic →
      r.store.ks.agentName.lookup (h, n) = some m →
      (r.step E (.syncUpdate now update)).store.ks.agentName.lookup (h, n) = some m) ∧
    ∀ m' h n m, m ≠ m' → r.store.ks.agentName.lookup (h, n) = some m →
      (r.step E (.syncDelete m')).store.ks.agentName.lookup (h, n) = some m := by
  intro r
  have hstart : (EdgeRun.initial assignments pendingPurges domains defaultDomain).store.Keyed ∧
      NamesAgree E.libs
        (EdgeRun.initial assignments pendingPurges domains defaultDomain).store := by
    refine ⟨fun _ _ h => (nomatch h), fun h n m => ⟨fun hrow => (nomatch hrow), ?_⟩⟩
    rintro ⟨_, hrec, -⟩
    exact nomatch hrec
  have hstep : ∀ (r : EdgeRun) (op : EdgeOp), r.NamesKept E op →
      r.store.Keyed ∧ NamesAgree E.libs r.store →
      (r.step E op).store.Keyed ∧ NamesAgree E.libs (r.step E op).store :=
    fun r op hok h => ⟨keyed_history h.1 (EdgeRun.step_history E r op),
      namesAgree_step r op hok h.1 h.2⟩
  obtain ⟨hkeyed, hagree⟩ := Run.exec_invariant hstep hstart hok
  refine ⟨hagree, ?_, ?_⟩
  · intro now update h n m hkeeps hm hrow
    refine hagree.row_kept (namesAgree_step r (.syncUpdate now update) hkeeps hkeyed hagree) ?_
      hrow
    change (r.entry E (now, update)).store.record m = _
    rw [EdgeRun.entry_store]
    rcases run_applySyncEntry E now update r.store with hsame | ⟨document, identity, hupdate⟩
    · rw [hsame]
    · rw [EdgeStore.record, hupdate.ks, (commit_updateBatch ..).1]
      exact AList.lookup_insert_ne hm
  · intro m' h n m hm hrow
    refine hagree.row_kept (namesAgree_step r (.syncDelete m') trivial hkeyed hagree) ?_ hrow
    change ((doSyncDelete E m').run r.store).2.record m = r.store.record m
    rw [run_doSyncDelete]
    split
    · rw [EdgeStore.record, EdgeStore.commit, commit_dropSlot]
      exact AList.lookup_erase_ne hm
    · rfl

/-- The first update an edge is told meets the condition. -/
theorem keepsNames_initial (L : Libs) (update : DidSyncUpdate)
    (assignments : Table String AssignmentEntry) (pendingPurges : Table String PendingPurge)
    (domains : Table String DomainEntry) (defaultDomain : Option String) :
    KeepsNames L (EdgeRun.initial assignments pendingPurges domains defaultDomain).store update :=
  ⟨fun _ _ _ h => (nomatch h), fun _ h => (nomatch h)⟩

namespace NameSample

open Reference

/-- The DID of slot `al` after a move to the host `g.io`. -/
def didMoved : String := "did:webvh:s:g.io:al"

/-- The version that moves it; its document claims the name `al` on the new host. -/
def movedHost2 : Json := entry "2-b" didMoved ["https://g.io/@al"]

/-- What the libraries read in the moved DID and its version, evaluated. -/
theorem moved_evaluated :
    (('\n' ∉ printValue movedHost2 ∧ '\r' ∉ printValue movedHost2) ∧
      trimChars (printValue movedHost2) = printValue movedHost2) ∧
    startsWith "did:webvh:" didMoved = true ∧ didHostOrEmpty libs didMoved = "g.io" ∧
      webvhScid didMoved = some "s" := by
  decide +kernel

theorem wellFormed_movedHost2 : WellFormed movedHost2 :=
  ⟨moved_evaluated.1.1, moved_evaluated.1.2, rfl⟩

theorem validLog_movedHost : ValidLog [named1, movedHost2] didMoved
    (document didMoved ["https://g.io/@al"]) where
  wellFormed := by simpa using ⟨wellFormed_named1, wellFormed_movedHost2⟩
  short := by decide
  chain := rfl
  last := rfl
  did_eq := rfl
  webvh := moved_evaluated.2.1

theorem host_didMoved : didHostOrEmpty libs didMoved = "g.io" :=
  moved_evaluated.2.2.1

theorem scid_didMoved : webvhScid didMoved = some "s" :=
  moved_evaluated.2.2.2

/-- The edge also serves `g.io`. -/
def assigned : Table String AssignmentEntry :=
  AList.singleton "g.io" ⟨"g.io", 1, "did:c"⟩

/-- The slot `al`, whose document claims the name `al`. -/
def updateNamed : DidSyncUpdate := updateOf [named1] didAl "al" false

/-- The slot after the move. -/
def updateMoved : DidSyncUpdate := updateOf [named1, movedHost2] didMoved "al" false

/-- An edge that was told about the slot. -/
def held : EdgeRun :=
  EdgeRun.step edge (EdgeRun.initial assigned ∅ ∅ none) (.syncUpdate 2 updateNamed)

def recordNamed : DidRecord := syncedRecordOf [named1] didAl "al" false 2

/-- Its record after the move. -/
def recordMoved : DidRecord := syncedRecordOf [named1, movedHost2] didMoved "al" false 3

theorem recordMoved_host : hostOfDidId edge.libs recordMoved.didId = "g.io" := by
  change didHostOrEmpty libs didMoved = "g.io"
  exact host_didMoved

theorem names_syncedRecordOf {es : List Json} {did path : String} {state : Json}
    {disabled : Bool} (now : ℕ) (hlog : ValidLog es did state) :
    (syncedRecordOf es did path disabled now).names =
      (agentNamesFromDocument libs state (didHostOrEmpty libs did)).filter fun name =>
        (validateAgentNameBinding name path).isOk := by
  have hfacts : (syncedFacts libs none (logOf es) (didHostOrEmpty libs did)).2 =
      agentNamesFromDocument libs state (didHostOrEmpty libs did) := by
    unfold syncedFacts
    rw [hlog.extractAgentNames_eq]
  have hnames : ∀ (L : Libs) (u : DidSyncUpdate), (syncedRecord L u .webvh none now).names =
      (((syncedFacts L none u.logContent (didHostOrEmpty L u.didId)).2.filter fun name =>
        (validateAgentNameBinding name u.mnemonic).isOk).map fun name =>
          (⟨name, true, now⟩ : AgentNameEntry)).map (·.name) := fun _ _ => rfl
  rw [syncedRecordOf, hnames]
  change (((syncedFacts libs none (logOf es) (didHostOrEmpty libs did)).2.filter _).map _).map _ = _
  rw [hfacts, List.map_map]
  exact List.map_id _

theorem recordNamed_names : recordNamed.names = ["al"] := by
  rw [recordNamed, names_syncedRecordOf 2 validLog_named1, agentNames_named1]
  decide +kernel

theorem held_eq : held.store = EdgeStore.commit
    (.dids (syncedBatch [named1] didAl "al" "s" false 2 none))
    (EdgeRun.initial assigned ∅ ∅ none).store := by
  rw [held, updateNamed]
  exact step_initialSync assigned ∅ ∅ none 2 validLog_named1 bound_didAl scid_didAl

/-- The rows of the edge that was told about the slot. -/
theorem held_rows :
    held.store.record "al" = some recordNamed ∧ held.store.log "al" = some (logOf [named1]) ∧
      held.store.slotMark "al" = some ⟨"s", didAl, .webvh⟩ ∧
      held.store.highWater "s" = some (logOf [named1]) ∧ held.store.assignments = assigned := by
  obtain ⟨hrec, hlog, hmark, hhigh⟩ :=
    @syncedBatch_rows [named1] didAl "s" "al" false 2 none (EdgeRun.initial assigned ∅ ∅ none).store
  rw [held_eq]
  exact ⟨hrec, hlog, hmark, hhigh, rfl⟩

theorem held_row : held.store.ks.agentName.lookup ("h.io", "al") = some "al" := by
  have hindex := commit_updateBatch_names libs (updateOf [named1] didAl "al" false) .webvh none
    recordNamed "s" DidsKs.empty
  rw [recordNamed_names] at hindex
  rw [held_eq]
  refine (congrArg (AList.lookup ("h.io", "al")) hindex).trans ?_
  rw [Table.lookup_insertAll, if_pos]
  · rfl
  · exact mem_rowKeys.mpr ⟨host_didAl.symm, List.mem_cons_self⟩

theorem bound_moved : boundAt libs .webvh updateMoved (servedBases edge assigned) = true := by
  decide +kernel

theorem run_updateMoved : (EdgeRun.step edge held (.syncUpdate 3 updateMoved)).store =
    EdgeStore.commit (.dids (syncedBatch [named1, movedHost2] didMoved "al" "s" false 3
      (some recordNamed))) held.store := by
  obtain ⟨hrec, -, -, -, hassigned⟩ := held_rows
  have hallows : Allows held.store [named1, movedHost2] "al" "s" := by
    rw [held_eq]
    exact allows_append (by simpa using wellFormed_named1) (by simpa using wellFormed_movedHost2)
      (by
        intro e he
        cases List.mem_singleton.mp he
        rfl)
  have hnew : alreadyHeld (updateOf [named1, movedHost2] didMoved "al" false)
      (held.store.record "al") (held.store.log "al") (held.store.witness "al") = false := by
    have hdid : ¬ recordNamed.didId = some didMoved := by
      change ¬ some didAl = some didMoved
      decide
    rw [hrec]
    exact alreadyHeld_of_ne hdid
  have hrun := run_syncEntry 3 validLog_movedHost (by rw [hassigned]; exact bound_moved)
    scid_didMoved hallows hnew
  rw [hrec] at hrun
  rw [EdgeRun.step, EdgeRun.entry_store, updateMoved, edge, hrun]

theorem moved_record : (EdgeRun.step edge held (.syncUpdate 3 updateMoved)).store.record "al" =
    some recordMoved := by
  rw [run_updateMoved]
  exact (syncedBatch_rows 3 (some recordNamed) held.store).1

/-- The update touches rows on the new host only. -/
theorem moved_row : (EdgeRun.step edge held (.syncUpdate 3 updateMoved)).store.ks.agentName.lookup
    ("h.io", "al") = some "al" := by
  have hindex := commit_updateBatch_names libs (updateOf [named1, movedHost2] didMoved "al" false)
    .webvh (some recordNamed) recordMoved "s" held.store.ks
  have hother : ¬ "h.io" = didHostOrEmpty libs (updateOf [named1, movedHost2] didMoved "al"
      false).didId := by
    change ¬ "h.io" = didHostOrEmpty libs didMoved
    rw [host_didMoved]
    decide
  rw [run_updateMoved]
  refine (congrArg (AList.lookup ("h.io", "al")) hindex).trans ?_
  rw [Table.lookup_insertAll, if_neg, Table.lookup_eraseAll, if_neg]
  · exact held_row
  · exact fun hmem => hother (mem_rowKeys.mp hmem).1
  · exact fun hmem => hother (mem_rowKeys.mp hmem).1

end NameSample

open NameSample Reference in
/-- The agreement after the update of one slot with a name. -/
theorem edge_names_agree_named :
    held.store.ks.agentName.lookup ("h.io", "al") = some "al" ∧
      ∃ record, held.store.record "al" = some record ∧ "al" ∈ record.names ∧
        hostOfDidId edge.libs record.didId = "h.io" := by
  have hok : Run.Meets (EdgeRun.step edge) (EdgeRun.NamesKept edge)
      (EdgeRun.initial assigned ∅ ∅ none) [.syncUpdate 2 updateNamed] :=
    ⟨keepsNames_initial edge.libs updateNamed assigned ∅ ∅ none, trivial⟩
  have hagree := (edge_names_agree edge assigned ∅ ∅ none [.syncUpdate 2 updateNamed] hok).1
    "h.io" "al" "al"
  rw [Run.exec_cons, Run.exec_nil, ← held] at hagree
  exact ⟨held_row, hagree.mp held_row⟩

open NameSample Reference in
/-- A slot whose DID moves to another host leaves its row on the old one. -/
theorem moved_slot_leaves_row :
    (EdgeRun.step edge held (.syncUpdate 3 updateMoved)).store.ks.agentName.lookup ("h.io", "al") =
        some "al" ∧
      ¬ ∃ record, (EdgeRun.step edge held (.syncUpdate 3 updateMoved)).store.record "al" =
        some record ∧ "al" ∈ record.names ∧ hostOfDidId edge.libs record.didId = "h.io" := by
  refine ⟨moved_row, ?_⟩
  rintro ⟨record, hrec, -, hhost⟩
  rw [moved_record] at hrec
  cases hrec
  rw [recordMoved_host] at hhost
  revert hhost
  decide

end DidHosting
