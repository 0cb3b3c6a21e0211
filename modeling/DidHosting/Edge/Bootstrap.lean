import DidHosting.Common.Reference
import DidHosting.Common.Store
import DidHosting.Support.Faults

/-!
# The own DID of a service

Setup files the DID it has minted for the service at a path of the service's own store.  What
it imports is one batch behind the checks.  A replacement deletes the slot in a batch of its
own, before anything is checked, and both leave the rows that no record names.
-/

namespace DidHosting

namespace Bootstrap

open Text

/-! ## The code -/

structure BootstrapResult where
  scid : String
  didId : String
  jsonl : String
  mnemonic : String
deriving DecidableEq, Repr

inductive OwnDidImport where
  | imported (result : BootstrapResult)
  | alreadyPresent (didId : String)
  | heldByAnother (existing : Option String) (minted : String)
deriving DecidableEq, Repr

/-- Operations on the keyspace during setup, which takes no lock. -/
abbrev BootM := Prog DidsKs Batch Unit AppError

/-- `dids_ks.get` of a slot. -/
def getRecord (mnemonic : String) : Query DidsKs AppError (Option DidRecord) :=
  Query.read fun s => s.dids.lookup mnemonic

section

variable (L : Libs) (now : ℕ) (mnemonic jsonl : String) (witness : Option String)

/-- The DID of a log, or the refusal of a log that establishes none. -/
def mintedDid : Except AppError String :=
  match extractDidId L jsonl with
  | some id => .ok id
  | none => .error (.validation "could not extract DID id from did.jsonl")

def mintedScid (didId : String) : Except AppError String :=
  match stripPrefix "did:webvh:" didId with
  | some rest => .ok (before ':' rest)
  | none => .error (.validation "could not extract SCID from DID id")

/-- The witness file of an import is JSON. -/
def checkWitnessText : Except AppError Unit :=
  match witness with
  | none => .ok ()
  | some text =>
      match L.fromStr text with
      | .ok _ => .ok ()
      | .error e => .error (.validation s!"did-witness.json must be valid JSON: {e}")

/-- The checks of `import_did_at_path` on its texts: the DID and its SCID. -/
def checkImport : Except AppError (String × String) := do
  (validateDidJsonl L jsonl).mapError .validation
  let didId ← mintedDid L jsonl
  let scid ← mintedScid didId
  checkWitnessText L witness
  return (didId, scid)

/-- The record of an imported DID. -/
def importedRecord (didId : String) : DidRecord where
  owner := "system"
  mnemonic := mnemonic
  createdAt := now
  updatedAt := now
  versionCount := entryCount jsonl
  didId := some didId
  contentSize := jsonl.utf8ByteSize
  disabled := false
  deletedAt := none
  method := .webvh
  domain := ""
  services := extractServiceTypes L jsonl
  agentNames := []

def importBatch (didId : String) : Batch :=
  [.insertDid mnemonic (importedRecord L now mnemonic jsonl didId), .insertLog mnemonic jsonl,
    .insertOwner "system" mnemonic] ++ witness.toList.map (.insertWitness mnemonic)

def importDidAtPath : BootM BootstrapResult := do
  let row ← getRecord mnemonic
  Prog.check (if row.isSome then .error (.conflict s!"DID at path '{mnemonic}' already exists")
    else .ok ())
  let (didId, scid) ← Prog.check (checkImport L jsonl witness)
  Prog.write (importBatch L now mnemonic jsonl witness didId)
  return ⟨scid, didId, jsonl, mnemonic⟩

def importOwnDid : BootM OwnDidImport := do
  let minted ← Prog.check (mintedDid L jsonl)
  let row ← getRecord mnemonic
  match row with
  | some existing =>
      if existing.didId = some minted then return .alreadyPresent minted
      else return .heldByAnother existing.didId minted
  | none =>
      let result ← importDidAtPath L now mnemonic jsonl none
      return .imported result

/-- The batch that deletes the slot of a record. -/
def deleteBatch (existing : DidRecord) : Batch :=
  [.removeDid mnemonic, .removeLog mnemonic, .removeWitness mnemonic,
    .removeOwner existing.owner mnemonic]

def replaceOwnDid : BootM BootstrapResult := do
  let row ← getRecord mnemonic
  Prog.writeOpt (row.map (deleteBatch mnemonic))
  importDidAtPath L now mnemonic jsonl none

end

/-! ## All or nothing -/

/-- The rows of the other slots are the same. -/
def SameElsewhere (mnemonic : String) (s t : DidsKs) : Prop :=
  ∀ other ≠ mnemonic, t.dids.lookup other = s.dids.lookup other ∧
    t.contentLog.lookup other = s.contentLog.lookup other ∧
    t.contentWitness.lookup other = s.contentWitness.lookup other ∧
    (∀ owner, t.ownerIndex.lookup (owner, other) = s.ownerIndex.lookup (owner, other)) ∧
    ∀ key, t.agentName.lookup key = some other ↔ s.agentName.lookup key = some other

/-- The slot holds exactly the DID of a log, and the other slots' rows are those of `s`. -/
structure HoldsExactly (L : Libs) (mnemonic jsonl : String) (witness : Option String)
    (s t : DidsKs) : Prop where
  log : t.contentLog.lookup mnemonic = some jsonl
  record : ∃ record, t.dids.lookup mnemonic = some record ∧
    record.mnemonic = mnemonic ∧ record.owner = "system" ∧ record.didId = extractDidId L jsonl ∧
      record.versionCount = entryCount jsonl ∧ record.contentSize = jsonl.utf8ByteSize
  witness : t.contentWitness.lookup mnemonic = witness
  owners : ∀ owner, t.ownerIndex.lookup (owner, mnemonic) =
    if owner = "system" then some mnemonic else none
  names : ∀ key, t.agentName.lookup key ≠ some mnemonic
  elsewhere : SameElsewhere mnemonic s t

/-- An operation that imports leaves exactly the new DID, and one that does not leaves every
row as it was. -/
def AllOrNothing (L : Libs) (mnemonic jsonl : String) (witness : Option String) (s t : DidsKs)
    (imported : Prop) : Prop :=
  (imported → HoldsExactly L mnemonic jsonl witness s t) ∧ (¬ imported → t = s)

/-- No row of the slot is left that no record names. -/
structure NoLeftovers (mnemonic : String) (witness : Option String) (s : DidsKs) : Prop where
  witness : witness = none → s.contentWitness.lookup mnemonic = none
  owners : ∀ owner ≠ "system", s.ownerIndex.lookup (owner, mnemonic) = none
  names : ∀ key, s.agentName.lookup key ≠ some mnemonic

/-- The path is free, the checks pass, and neither the read nor the commit fails, which are
the accesses `n` and `n + 1`. -/
def Imports (L : Libs) (mnemonic jsonl : String) (witness : Option String)
    (fault : ℕ → Option AppError) (n : ℕ) (s : DidsKs) : Prop :=
  fault n = none ∧ s.dids.lookup mnemonic = none ∧
    (checkImport L jsonl witness).isOk = true ∧ fault (n + 1) = none

section

variable {L : Libs} {now : ℕ} {mnemonic jsonl : String} {witness : Option String}
  {fault : ℕ → Option AppError} {n : ℕ} {s : DidsKs}

theorem extractDidId_of_checkImport {didId scid : String}
    (h : checkImport L jsonl witness = .ok (didId, scid)) :
    extractDidId L jsonl = some didId := by
  unfold checkImport at h
  obtain ⟨_, -, h⟩ := bind_eq_ok h
  obtain ⟨id, hminted, h⟩ := bind_eq_ok h
  obtain ⟨_, -, h⟩ := bind_eq_ok h
  obtain ⟨_, -, h⟩ := bind_eq_ok h
  cases h
  unfold mintedDid at hminted
  split at hminted
  · cases hminted
    assumption
  · contradiction

theorem getRecord_run (m : String) :
    Prog.runFaulty fault (Prog.ofQuery (getRecord m) : BootM (Option DidRecord)) n s =
      match fault n with
      | some e => (.error e, s, n)
      | none => (.ok (s.dids.lookup m), s, n + 1) := by
  refine (Prog.runFaulty_ask fault _ n s).trans ?_
  cases fault n with
  | some e => rfl
  | none => rfl

theorem importDidAtPath_run (L : Libs) (now : ℕ) (mnemonic jsonl : String)
    (witness : Option String) (fault : ℕ → Option AppError) (n : ℕ) (s : DidsKs) :
    let ran := Prog.runFaulty fault (importDidAtPath L now mnemonic jsonl witness) n s
    (Imports L mnemonic jsonl witness fault n s ∧ ∃ result, ran.1 = .ok result ∧
        extractDidId L jsonl = some result.didId ∧
        ran.2.1 = DidsKs.commit (importBatch L now mnemonic jsonl witness result.didId) s) ∨
      (¬ Imports L mnemonic jsonl witness fault n s ∧ (∃ e, ran.1 = .error e) ∧ ran.2.1 = s) := by
  intro ran
  have hran : ran = Prog.runFaulty fault (Prog.ofQuery (getRecord mnemonic) >>= fun row =>
      Prog.check (if row.isSome then
        .error (.conflict s!"DID at path '{mnemonic}' already exists") else .ok ()) >>= fun _ =>
        Prog.check (checkImport L jsonl witness) >>= fun minted =>
          Prog.commit (importBatch L now mnemonic jsonl witness minted.1)
            (Prog.ret ⟨minted.2, minted.1, jsonl, mnemonic⟩) : BootM BootstrapResult) n s := rfl
  rw [Prog.runFaulty_bind, getRecord_run] at hran
  cases hread : fault n with
  | some e =>
      rw [hread] at hran
      refine .inr ⟨fun himports => ?_, ⟨e, by rw [hran]⟩, by rw [hran]⟩
      rw [himports.1] at hread
      contradiction
  | none =>
      rw [hread] at hran
      cases hrow : s.dids.lookup mnemonic with
      | some record =>
          rw [hrow] at hran
          refine .inr ⟨fun himports => ?_, ⟨_, congrArg (·.1) hran⟩, congrArg (·.2.1) hran⟩
          rw [himports.2.1] at hrow
          contradiction
      | none =>
          rw [hrow] at hran
          cases hcheck : checkImport L jsonl witness with
          | error e =>
              rw [hcheck] at hran
              refine .inr ⟨fun himports => ?_, ⟨_, congrArg (·.1) hran⟩, congrArg (·.2.1) hran⟩
              have hok := himports.2.2.1
              rw [hcheck] at hok
              contradiction
          | ok minted =>
              rw [hcheck] at hran
              replace hran : ran = Prog.runFaulty fault (Prog.commit
                  (importBatch L now mnemonic jsonl witness minted.1)
                  (Prog.ret ⟨minted.2, minted.1, jsonl, mnemonic⟩) : BootM BootstrapResult)
                  (n + 1) s := hran
              rw [Prog.runFaulty_commit] at hran
              cases hwrite : fault (n + 1) with
              | some e =>
                  rw [hwrite] at hran
                  refine .inr ⟨fun himports => ?_, ⟨e, by rw [hran]⟩, by rw [hran]⟩
                  rw [himports.2.2.2] at hwrite
                  contradiction
              | none =>
                  rw [hwrite] at hran
                  exact .inl ⟨⟨hread, hrow, by rw [hcheck]; rfl, hwrite⟩, _,
                    congrArg (·.1) hran, extractDidId_of_checkImport hcheck,
                    congrArg (·.2.1) hran⟩

theorem importBatch_rows (L : Libs) (now : ℕ) (mnemonic jsonl : String)
    (witness : Option String) (didId : String) (s : DidsKs) :
    let t := DidsKs.commit (importBatch L now mnemonic jsonl witness didId) s
    t.dids = s.dids.insert mnemonic (importedRecord L now mnemonic jsonl didId) ∧
      t.contentLog = s.contentLog.insert mnemonic jsonl ∧
      t.contentWitness = (match witness with
        | none => s.contentWitness
        | some text => s.contentWitness.insert mnemonic text) ∧
      t.ownerIndex = s.ownerIndex.insert ("system", mnemonic) mnemonic ∧
      t.agentName = s.agentName := by
  cases witness with
  | none => exact ⟨rfl, rfl, rfl, rfl, rfl⟩
  | some text => exact ⟨rfl, rfl, rfl, rfl, rfl⟩

/-- The rows that the deletion of a slot leaves. -/
theorem sameElsewhere_deleteBatch (mnemonic : String) (existing : DidRecord) (s : DidsKs) :
    SameElsewhere mnemonic s (DidsKs.commit (deleteBatch mnemonic existing) s) := by
  intro other hother
  refine ⟨AList.lookup_erase_ne hother, AList.lookup_erase_ne hother, AList.lookup_erase_ne hother,
    fun owner => AList.lookup_erase_ne fun h => hother (Prod.mk.inj h).2, fun _ => Iff.rfl⟩

/-- A batch that imports leaves exactly the new DID where no row was left over. -/
theorem holdsExactly_import_iff (now : ℕ) (witness : Option String) {s₀ : DidsKs}
    {didId : String} (hsame : SameElsewhere mnemonic s₀ s)
    (hdid : extractDidId L jsonl = some didId) :
    HoldsExactly L mnemonic jsonl witness s₀
        (DidsKs.commit (importBatch L now mnemonic jsonl witness didId) s) ↔
      NoLeftovers mnemonic witness s := by
  obtain ⟨hdids, hlog, hwitness, howners, hnames⟩ :=
    importBatch_rows L now mnemonic jsonl witness didId s
  generalize DidsKs.commit (importBatch L now mnemonic jsonl witness didId) s = t at *
  constructor
  · intro h
    refine ⟨fun hnone => ?_, fun owner howner => ?_, fun key => ?_⟩
    · have hfile := h.witness
      subst hnone
      rwa [hwitness] at hfile
    · have hrow := h.owners owner
      rwa [howners, AList.lookup_insert_ne fun hkey => howner (Prod.mk.inj hkey).1,
        if_neg howner] at hrow
    · exact hnames ▸ h.names key
  · intro h
    refine ⟨?_, ⟨importedRecord L now mnemonic jsonl didId, ?_, rfl, rfl, hdid.symm, rfl, rfl⟩, ?_,
      fun owner => ?_, fun key => ?_, ?_⟩
    · rw [hlog, AList.lookup_insert]
    · rw [hdids, AList.lookup_insert]
    · cases witness with
      | none => rw [hwitness]; exact h.witness rfl
      | some text => rw [hwitness, AList.lookup_insert]
    · by_cases howner : owner = "system"
      · rw [howners, howner, AList.lookup_insert, if_pos rfl]
      · rw [howners, AList.lookup_insert_ne fun hkey => howner (Prod.mk.inj hkey).1,
          if_neg howner, h.owners owner howner]
    · rw [hnames]
      exact h.names key
    · intro other hother
      obtain ⟨hdids', hlog', hwitness', howners', hnames'⟩ := hsame other hother
      refine ⟨?_, ?_, ?_, fun owner => ?_, fun key => ?_⟩
      · rw [hdids, AList.lookup_insert_ne hother, hdids']
      · rw [hlog, AList.lookup_insert_ne hother, hlog']
      · cases witness with
        | none => rw [hwitness, hwitness']
        | some text => rw [hwitness, AList.lookup_insert_ne hother, hwitness']
      · rw [howners, AList.lookup_insert_ne fun hkey => hother (Prod.mk.inj hkey).2, howners']
      · rw [hnames, hnames']

/-- Behind a deletion, the witness file and the row of the record's owner are gone. -/
theorem noLeftovers_deleteBatch_iff (existing : DidRecord) :
    NoLeftovers mnemonic none (DidsKs.commit (deleteBatch mnemonic existing) s) ↔
      (∀ owner ≠ "system", owner ≠ existing.owner →
        s.ownerIndex.lookup (owner, mnemonic) = none) ∧
      ∀ key, s.agentName.lookup key ≠ some mnemonic := by
  have howners : ∀ owner, (DidsKs.commit (deleteBatch mnemonic existing) s).ownerIndex.lookup
      (owner, mnemonic) = if owner = existing.owner then none
        else s.ownerIndex.lookup (owner, mnemonic) := by
    intro owner
    refine (Table.lookup_erase_ite _ _ _).trans ?_
    simp only [Prod.mk.injEq, and_true]
    rfl
  constructor
  · intro h
    refine ⟨fun owner hsystem howner => ?_, h.names⟩
    have hrow := h.owners owner hsystem
    rwa [howners, if_neg howner] at hrow
  · rintro ⟨hrows, hnames⟩
    refine ⟨fun _ => AList.lookup_erase _ _, fun owner hsystem => ?_, hnames⟩
    rw [howners]
    split
    · rfl
    · rename_i howner
      exact hrows owner hsystem howner

/-! ## The three operations -/

theorem sameElsewhere_refl (mnemonic : String) (s : DidsKs) : SameElsewhere mnemonic s s :=
  fun _ _ => ⟨rfl, rfl, rfl, fun _ => rfl, fun _ => Iff.rfl⟩

/-- An import is all or nothing where no row of the slot is left over. -/
theorem importDidAtPath_iff (L : Libs) (now : ℕ) (mnemonic jsonl : String)
    (witness : Option String) (fault : ℕ → Option AppError) (n : ℕ) (s : DidsKs) :
    let ran := Prog.runFaulty fault (importDidAtPath L now mnemonic jsonl witness) n s
    AllOrNothing L mnemonic jsonl witness s ran.2.1 (∃ result, ran.1 = .ok result) ↔
      (Imports L mnemonic jsonl witness fault n s → NoLeftovers mnemonic witness s) := by
  intro ran
  rcases importDidAtPath_run L now mnemonic jsonl witness fault n s with
    ⟨himports, result, hok, hdid, hstore⟩ | ⟨himports, ⟨e, herr⟩, hstore⟩
  · have hexact := holdsExactly_import_iff now witness (sameElsewhere_refl mnemonic s) hdid
    rw [← hstore] at hexact
    have himported : ∃ result, ran.1 = .ok result := ⟨result, hok⟩
    constructor
    · exact fun h _ => hexact.mp (h.1 himported)
    · exact fun h => ⟨fun _ => hexact.mpr (h himports), fun hnot => absurd himported hnot⟩
  · have hnot : ¬ ∃ result, ran.1 = .ok result := by
      rintro ⟨result, hok⟩
      rw [herr] at hok
      contradiction
    exact ⟨fun _ h => absurd h himports, fun _ => ⟨fun h => absurd h hnot, fun _ => hstore⟩⟩

theorem mintedDid_of_imports (h : Imports L mnemonic jsonl witness fault n s) :
    ∃ didId, mintedDid L jsonl = .ok didId := by
  have hok := h.2.2.1
  cases hcheck : checkImport L jsonl witness with
  | error e =>
      rw [hcheck] at hok
      contradiction
  | ok minted =>
      refine ⟨minted.1, ?_⟩
      unfold mintedDid
      rw [extractDidId_of_checkImport hcheck]

theorem allOrNothing_of_unchanged {t : DidsKs} {imported P : Prop} (ht : t = s)
    (hnot : ¬ imported) (hP : P) :
    AllOrNothing L mnemonic jsonl witness s t imported ↔ P :=
  ⟨fun _ => hP, fun _ => ⟨fun h => absurd h hnot, fun _ => ht⟩⟩

/-- An operation that fails before it writes is all or nothing. -/
theorem allOrNothing_of_error {α β : Type} {ran : Except AppError α × DidsKs × ℕ} {f : β → α}
    {e : AppError} {n : ℕ} {P : Prop} (hran : ran = (.error e, s, n)) (hP : P) :
    AllOrNothing L mnemonic jsonl witness s ran.2.1 (∃ result, ran.1 = .ok (f result)) ↔ P := by
  refine allOrNothing_of_unchanged (congrArg (·.2.1) hran) ?_ hP
  rintro ⟨result, hok⟩
  rw [hran] at hok
  contradiction

theorem importOwnDid_iff (L : Libs) (now : ℕ) (mnemonic jsonl : String)
    (fault : ℕ → Option AppError) (s : DidsKs) :
    let ran := Prog.runFaulty fault (importOwnDid L now mnemonic jsonl) 0 s
    AllOrNothing L mnemonic jsonl none s ran.2.1 (∃ result, ran.1 = .ok (.imported result)) ↔
      (fault 0 = none → Imports L mnemonic jsonl none fault 1 s → NoLeftovers mnemonic none s) := by
  intro ran
  have hran : ran = Prog.runFaulty fault (Prog.check (mintedDid L jsonl) >>= fun minted =>
      Prog.ofQuery (getRecord mnemonic) >>= fun row =>
        match row with
        | some existing =>
            if existing.didId = some minted then pure (.alreadyPresent minted)
            else pure (.heldByAnother existing.didId minted)
        | none => importDidAtPath L now mnemonic jsonl none >>= fun result =>
            pure (.imported result) : BootM OwnDidImport) 0 s := rfl
  cases hminted : mintedDid L jsonl with
  | error e =>
      rw [hminted] at hran
      refine allOrNothing_of_error hran fun _ himports => ?_
      obtain ⟨didId, hdid⟩ := mintedDid_of_imports himports
      rw [hminted] at hdid
      contradiction
  | ok minted =>
      rw [hminted] at hran
      have hread := hran.trans (Prog.runFaulty_bind fault
        (Prog.ofQuery (getRecord mnemonic) : BootM (Option DidRecord)) _ 0 s)
      rw [getRecord_run] at hread
      cases hfault : fault 0 with
      | some e =>
          rw [hfault] at hread
          exact allOrNothing_of_error hread fun h _ => nomatch h
      | none =>
          rw [hfault] at hread
          cases hrow : s.dids.lookup mnemonic with
          | some existing =>
              rw [hrow] at hread
              have hkept : ∃ outcome, ran = (.ok outcome, s, 1) ∧
                  ∀ result, outcome ≠ .imported result := by
                replace hread : ran = Prog.runFaulty fault
                    (if existing.didId = some minted then pure (.alreadyPresent minted)
                    else pure (.heldByAnother existing.didId minted) : BootM OwnDidImport) 1 s :=
                  hread
                split at hread
                · exact ⟨_, hread, fun _ => by simp⟩
                · exact ⟨_, hread, fun _ => by simp⟩
              obtain ⟨outcome, houtcome, hnot⟩ := hkept
              refine allOrNothing_of_unchanged (congrArg (·.2.1) houtcome) ?_ fun _ himports => ?_
              · rintro ⟨result, hok⟩
                rw [houtcome] at hok
                exact hnot result (Except.ok.inj hok)
              · rw [himports.2.1] at hrow
                contradiction
          | none =>
              rw [hrow] at hread
              have himport := hread.trans (Prog.runFaulty_bind fault
                (importDidAtPath L now mnemonic jsonl none) _ 1 s)
              have hiff := importDidAtPath_iff L now mnemonic jsonl none fault 1 s
              generalize Prog.runFaulty fault (importDidAtPath L now mnemonic jsonl none) 1 s =
                inner at himport hiff
              obtain ⟨outcome, t, k⟩ := inner
              have hsame : ran.2.1 = t ∧ ((∃ result, ran.1 = .ok (.imported result)) ↔
                  ∃ result, outcome = .ok result) := by
                cases outcome with
                | ok result =>
                    rw [himport]
                    exact ⟨rfl, fun _ => ⟨result, rfl⟩, fun _ => ⟨result, rfl⟩⟩
                | error e =>
                    rw [himport]
                    refine ⟨rfl, ?_, ?_⟩
                    · rintro ⟨result, hok⟩
                      cases hok
                    · rintro ⟨result, hok⟩
                      cases hok
              rw [hsame.1, hsame.2]
              exact hiff.trans ⟨fun h _ => h, fun h => h rfl⟩

/-- The import behind the deletion of a record: a refusal or a failure leaves the slot empty. -/
theorem importBehindDelete_iff {existing : DidRecord}
    (hrow : s.dids.lookup mnemonic = some existing) :
    let ran := Prog.runFaulty fault (importDidAtPath L now mnemonic jsonl none) n
      (DidsKs.commit (deleteBatch mnemonic existing) s)
    AllOrNothing L mnemonic jsonl none s ran.2.1 (∃ result, ran.1 = .ok result) ↔
      (fault n = none ∧ (checkImport L jsonl none).isOk = true ∧ fault (n + 1) = none) ∧
      (∀ owner ≠ "system", owner ≠ existing.owner →
        s.ownerIndex.lookup (owner, mnemonic) = none) ∧
      ∀ key, s.agentName.lookup key ≠ some mnemonic := by
  intro ran
  have hgone : (DidsKs.commit (deleteBatch mnemonic existing) s).dids.lookup mnemonic = none :=
    AList.lookup_erase _ _
  rcases importDidAtPath_run L now mnemonic jsonl none fault n
    (DidsKs.commit (deleteBatch mnemonic existing) s) with
    ⟨himports, result, hok, hdid, hstore⟩ | ⟨himports, ⟨e, herr⟩, hstore⟩
  · have hexact := holdsExactly_import_iff now none
      (sameElsewhere_deleteBatch mnemonic existing s) hdid
    rw [← hstore, noLeftovers_deleteBatch_iff] at hexact
    have himported : ∃ result, ran.1 = .ok result := ⟨result, hok⟩
    constructor
    · exact fun h => ⟨⟨himports.1, himports.2.2⟩, hexact.mp (h.1 himported)⟩
    · exact fun h => ⟨fun _ => hexact.mpr h.2, fun hnot => absurd himported hnot⟩
  · constructor
    · intro h
      have hkept : ran.2.1 = s := by
        refine h.2 ?_
        rintro ⟨result, hok⟩
        rw [herr] at hok
        contradiction
      rw [hstore] at hkept
      rw [hkept, hrow] at hgone
      contradiction
    · rintro ⟨⟨hread, hcheck, hwrite⟩, -⟩
      exact absurd ⟨hread, hgone, hcheck, hwrite⟩ himports

/-- A replacement is all or nothing where the import behind the deletion goes through, and
the other rows of the slot were none. -/
theorem replaceOwnDid_iff (L : Libs) (now : ℕ) (mnemonic jsonl : String)
    (fault : ℕ → Option AppError) (s : DidsKs) :
    let ran := Prog.runFaulty fault (replaceOwnDid L now mnemonic jsonl) 0 s
    AllOrNothing L mnemonic jsonl none s ran.2.1 (∃ result, ran.1 = .ok result) ↔
      match s.dids.lookup mnemonic with
      | none =>
          fault 0 = none → Imports L mnemonic jsonl none fault 1 s → NoLeftovers mnemonic none s
      | some existing => fault 0 = none → fault 1 = none →
          (fault 2 = none ∧ (checkImport L jsonl none).isOk = true ∧ fault 3 = none) ∧
          (∀ owner ≠ "system", owner ≠ existing.owner →
            s.ownerIndex.lookup (owner, mnemonic) = none) ∧
          ∀ key, s.agentName.lookup key ≠ some mnemonic := by
  intro ran
  have hran : ran = Prog.runFaulty fault (Prog.ofQuery (getRecord mnemonic) >>= fun row =>
      Prog.writeOpt (row.map (deleteBatch mnemonic)) >>= fun _ =>
        importDidAtPath L now mnemonic jsonl none : BootM BootstrapResult) 0 s := rfl
  rw [Prog.runFaulty_bind, getRecord_run] at hran
  cases hrow : s.dids.lookup mnemonic with
  | none =>
      cases hfault : fault 0 with
      | some e =>
          rw [hfault] at hran
          exact allOrNothing_of_error hran fun h _ => nomatch h
      | none =>
          rw [hfault, hrow] at hran
          have hiff := importDidAtPath_iff L now mnemonic jsonl none fault 1 s
          have hsame : ran = Prog.runFaulty fault (importDidAtPath L now mnemonic jsonl none) 1 s :=
            hran
          rw [hsame]
          exact hiff.trans ⟨fun h _ => h, fun h => h rfl⟩
  | some existing =>
      cases hfault : fault 0 with
      | some e =>
          rw [hfault] at hran
          exact allOrNothing_of_error hran fun h _ => nomatch h
      | none =>
          rw [hfault, hrow] at hran
          have hdelete : ran = Prog.runFaulty fault (Prog.commit (deleteBatch mnemonic existing)
              (importDidAtPath L now mnemonic jsonl none)) 1 s := hran
          rw [Prog.runFaulty_commit] at hdelete
          cases hfault' : fault 1 with
          | some e =>
              rw [hfault'] at hdelete
              exact allOrNothing_of_error hdelete fun _ h => nomatch h
          | none =>
              rw [hfault'] at hdelete
              replace hdelete : ran = Prog.runFaulty fault
                  (importDidAtPath L now mnemonic jsonl none) 2
                  (DidsKs.commit (deleteBatch mnemonic existing) s) := hdelete
              rw [hdelete]
              exact (importBehindDelete_iff hrow).trans ⟨fun h _ _ => h, fun h => h rfl rfl⟩

end

end Bootstrap

open Bootstrap

/-- Where the three operations are all or nothing. -/
theorem own_did_all_or_nothing_iff (L : Libs) (now : ℕ) (mnemonic jsonl : String)
    (fault : ℕ → Option AppError) (s : DidsKs) :
    (∀ witness,
      let ran := Prog.runFaulty fault (importDidAtPath L now mnemonic jsonl witness) 0 s
      AllOrNothing L mnemonic jsonl witness s ran.2.1 (∃ result, ran.1 = .ok result) ↔
        (Imports L mnemonic jsonl witness fault 0 s → NoLeftovers mnemonic witness s)) ∧
    (let ran := Prog.runFaulty fault (importOwnDid L now mnemonic jsonl) 0 s
     AllOrNothing L mnemonic jsonl none s ran.2.1 (∃ result, ran.1 = .ok (.imported result)) ↔
       (fault 0 = none → Imports L mnemonic jsonl none fault 1 s →
         NoLeftovers mnemonic none s)) ∧
    let ran := Prog.runFaulty fault (replaceOwnDid L now mnemonic jsonl) 0 s
    AllOrNothing L mnemonic jsonl none s ran.2.1 (∃ result, ran.1 = .ok result) ↔
      match s.dids.lookup mnemonic with
      | none =>
          fault 0 = none → Imports L mnemonic jsonl none fault 1 s → NoLeftovers mnemonic none s
      | some existing => fault 0 = none → fault 1 = none →
          (fault 2 = none ∧ (checkImport L jsonl none).isOk = true ∧ fault 3 = none) ∧
          (∀ owner ≠ "system", owner ≠ existing.owner →
            s.ownerIndex.lookup (owner, mnemonic) = none) ∧
          ∀ key, s.agentName.lookup key ≠ some mnemonic :=
  ⟨fun witness => importDidAtPath_iff L now mnemonic jsonl witness fault 0 s,
    importOwnDid_iff L now mnemonic jsonl fault s, replaceOwnDid_iff L now mnemonic jsonl fault s⟩

/-- A replacement by a text that is refused leaves no DID. -/
theorem refused_replacement_deletes :
    ¬ ∀ (L : Libs) (now : ℕ) (mnemonic jsonl : String) (fault : ℕ → Option AppError) (s : DidsKs),
      let ran := Prog.runFaulty fault (replaceOwnDid L now mnemonic jsonl) 0 s
      AllOrNothing L mnemonic jsonl none s ran.2.1 (∃ result, ran.1 = .ok result) := by
  intro hclaim
  let record : DidRecord := ⟨"system", ".well-known", 0, 0, 1, some "did:webvh:s:old.io", 2, false,
    none, .webvh, "", none, []⟩
  let s : DidsKs := { DidsKs.empty with dids := AList.insert ".well-known" record ∅ }
  have hrefused : (checkImport Reference.libs "" none).isOk = false := by decide +kernel
  have hall := (replaceOwnDid_iff Reference.libs 0 ".well-known" "" (fun _ => none) s).mp
    (hclaim Reference.libs 0 ".well-known" "" (fun _ => none) s)
  have hcheck : (checkImport Reference.libs "" none).isOk = true := (hall rfl rfl).1.2.1
  rw [hrefused] at hcheck
  contradiction

end DidHosting
