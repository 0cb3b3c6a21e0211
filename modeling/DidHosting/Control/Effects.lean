import DidHosting.Control.Run

/-!
# What a request does to the store

A request leaves the store as it is or commits one batch: `OpBatch` lists the
batches with what was checked before each of them, and `step_batch` is the
inversion lemma.  The effect of a batch on a slot follows from the effect of
its operations on the tables: `step_slot`.
-/

namespace DidHosting

open Text

/-! ## Batches -/

section Batches

variable (ks : DidsKs) (auth : AuthClaims) (path didLog domain : String)
  (existing : Option DidRecord) (ownerChanged : Bool) (record : DidRecord)
  (changes : NameChanges)

/-- The name index after the claims and releases of a publish. -/
def reindex (changes : NameChanges) (domain mnemonic : String)
    (index : Table (String × String) String) : Table (String × String) String :=
  Table.eraseAll (changes.released.map fun n => (domain, n))
    (Table.insertAll (changes.claimed.map fun n => (domain, n)) mnemonic index)

@[simp] theorem commit_nameBatch :
    DidsKs.commit (nameBatch changes domain path) ks =
      { ks with agentName := reindex changes domain path ks.agentName } := by
  simp [nameBatch, reindex]

theorem commit_registerBatch :
    (DidsKs.commit (registerBatch auth path didLog existing ownerChanged record changes
        domain) ks).dids = ks.dids.insert path record ∧
      (DidsKs.commit (registerBatch auth path didLog existing ownerChanged record changes
        domain) ks).contentLog = ks.contentLog.insert path didLog ∧
      (DidsKs.commit (registerBatch auth path didLog existing ownerChanged record changes
        domain) ks).agentName = reindex changes domain path ks.agentName := by
  cases existing with
  | none => simp [registerBatch, takeoverBatch, DidsKs.apply]
  | some prev => cases ownerChanged <;> simp [registerBatch, takeoverBatch, DidsKs.apply]

theorem commit_publishBatch :
    DidsKs.commit (publishBatch path didLog record changes domain) ks =
      { ks with
        dids := ks.dids.insert path record
        contentLog := ks.contentLog.insert path didLog
        agentName := reindex changes domain path ks.agentName } := by
  simp [publishBatch, DidsKs.apply]

theorem commit_forceReplaceBatch :
    (DidsKs.commit (forceReplaceBatch auth path record) ks).dids = ks.dids ∧
      (DidsKs.commit (forceReplaceBatch auth path record) ks).contentLog =
        ks.contentLog.erase path ∧
      (DidsKs.commit (forceReplaceBatch auth path record) ks).agentName = ks.agentName := by
  unfold forceReplaceBatch
  split <;> simp [DidsKs.apply]

end Batches

/-- The batch of an agent-name operation writes the record, the log and the name index. -/
theorem commit_namedBatch {op : AgentNameOp} {names : List AgentNameEntry}
    {mnemonic domain name : String} {now : ℕ} {holder : Option String}
    {effect : List AgentNameEntry × Batch}
    (h : agentNameEffect op names mnemonic domain name now holder = .ok effect)
    (didLog : String) (record : DidRecord) (ks : DidsKs) :
    DidsKs.commit ([.insertLog mnemonic didLog, .insertDid mnemonic record] ++ effect.2) ks =
      { ks with
        dids := ks.dids.insert mnemonic record
        contentLog := ks.contentLog.insert mnemonic didLog
        agentName := (DidsKs.commit effect.2 ks).agentName } := by
  rcases agentNameEffect_cases h with ⟨-, -, rfl⟩ | ⟨-, rfl⟩ | ⟨-, -, rfl⟩
  all_goals rfl

/-! ## Reads of a single store -/

section

variable {A : AppState} {s : ControlStore} {auth : AuthClaims} {now : ℕ}

theorem read_singleton {P : ControlStore → Prop}
    (h : ∃ t ∈ ({s} : Set ControlStore), P t) : P s := by
  obtain ⟨t, ht, hP⟩ := h
  rwa [Set.mem_singleton_iff.mp ht] at hP

theorem Registers.verified_at {path didLog : String} {force : Bool} {domain : Option String}
    {existing : Option DidRecord} {ownerChanged : Bool} {p : Publication} {did base : String}
    {names : List AgentNameEntry} {changes : NameChanges}
    (h : Registers A {s} auth now path didLog force domain existing ownerChanged p did base
      names changes) :
    verifyPublication A.libs (domain.getD "") path didLog (s.log path) (s.witness path) =
      .ok p :=
  read_singleton (read_singleton h.verified)

theorem Republishes.verified_at {m didLog : String} {r : DidRecord} {p : Publication}
    (h : Republishes A {s} auth m didLog r p) :
    verifyPublication A.libs r.domain m didLog (s.log m) (s.witness m) = .ok p :=
  read_singleton (read_singleton h.verified)

end

/-! ## The batch of a request -/

/-- The first batch of a create: nothing, or the removal of what is replaced. -/
def replaceBatch (auth : AuthClaims) (mnemonic : String) (existing : Option DidRecord) :
    Batch :=
  match existing with
  | some r => forceReplaceBatch auth mnemonic r
  | none => []

/-- `OpBatch A V op w` says that request `op`, whose reads were answered by
stores of `V`, commits the batch `w`.  The two commits of a create count as
one batch. -/
inductive OpBatch (A : AppState) (V : Set ControlStore) : Op → Batch → Prop where
  | created {auth now path force domain draws m existing} :
      (∃ s ∈ V, s.record m = existing) →
      (∀ r, existing = some r → path = some m ∧ force = true ∧ authorized auth r = true) →
      OpBatch A V (.create auth now path force domain draws)
        (replaceBatch auth m existing ++ createBatch auth m domain now)
  | registered {auth now path didLog force domain existing ownerChanged publication didId
      base names changes} :
      registerPrecheck A auth path didLog = .ok () →
      Registers A V auth now path didLog force domain existing ownerChanged publication
        didId base names changes →
      OpBatch A V (.register auth now path didLog force domain)
        (registerBatch auth path didLog existing ownerChanged
          (registerRecord A auth path didLog publication didId existing ownerChanged
            names now)
          changes (didHostOrEmpty A.libs didId))
  | published {auth now m didLog requestDomain record publication names changes} :
      Republishes A V auth m didLog record publication →
      Reconciled V record.agentNames m
        (publication.agentNames A.libs
          (slotDomain A.libs (republished A.libs record publication didLog now)))
        (slotDomain A.libs (republished A.libs record publication didLog now)) now
        names changes →
      OpBatch A V (.publish auth now m didLog requestDomain)
        (publishBatch m didLog
          { republished A.libs record publication didLog now with agentNames := names }
          changes (slotDomain A.libs (republished A.libs record publication didLog now)))
  | named {auth now m name didLog requestDomain op record publication holder effect} :
      Republishes A V auth m didLog record publication →
      ((publication.agentNames A.libs
          (slotDomain A.libs (republished A.libs record publication didLog now))).contains
        (bareName name) = op.requiresClaim) →
      (op = .activate → ∃ s ∈ V, s.nameHolder
        (slotDomain A.libs (republished A.libs record publication didLog now))
          (bareName name) = holder) →
      agentNameEffect op record.agentNames m
        (slotDomain A.libs (republished A.libs record publication didLog now))
        (bareName name) now holder = .ok effect →
      OpBatch A V (.agentName auth now m name didLog requestDomain op)
        ([.insertLog m didLog, .insertDid m
          { republished A.libs record publication didLog now with agentNames := effect.1 }] ++
          effect.2)
  | witnessed {auth m witnessEntry content} :
      OpBatch A V (.uploadWitness auth m witnessEntry) [.insertWitness m content]
  | deleted {auth m requestDomain record} :
      (∃ s ∈ V, s.record m = some record) → authorized auth record = true →
      ensureSlotDomainMatches A.libs record requestDomain = .ok () →
      OpBatch A V (.delete auth m requestDomain) (deleteBatch m record.owner)
  | transferred {auth now m newOwner record owner} :
      (∃ s ∈ V, s.record m = some record) → authorized auth record = true →
      OpBatch A V (.changeOwner auth now m newOwner) (changeOwnerBatch m owner record now)
  | disabled {auth m disabled record} :
      (∃ s ∈ V, s.record m = some record) → authorized auth record = true →
      OpBatch A V (.setDisabled auth m disabled)
        [.insertDid m { record with disabled := disabled }]
  | rolledBack {auth now m targetVersion record content keep} :
      (∃ s ∈ V, s.record m = some record) → authorized auth record = true →
      (∃ s ∈ V, s.log m = some content) →
      rollbackKeep (entryCount content) targetVersion = .ok keep →
      keep < entryCount content →
      OpBatch A V (.rollback auth now m targetVersion)
        [.insertLog m (truncateLog content keep),
          .insertDid m (rolledBack A.libs record (truncateLog content keep) keep now),
          .removeWitness m]

section

variable {A : AppState} {s : ControlStore}

theorem commit_create (auth : AuthClaims) (m : String) (domain : Option String) (now : ℕ)
    (existing : Option DidRecord) (s : ControlStore) :
    WriteBatch.commit (createBatch auth m domain now) (afterReplace auth m existing s) =
      WriteBatch.commit (replaceBatch auth m existing ++ createBatch auth m domain now) s := by
  cases existing with
  | none => rfl
  | some r =>
      change ControlStore.mk (DidsKs.commit _ (DidsKs.commit _ s.ks)) _ _ =
        ControlStore.mk (DidsKs.commit (_ ++ _) s.ks) _ _
      rw [DidsKs.commit_append]
      rfl

/-- A request leaves the store as it is, or commits one of the batches
`OpBatch` lists. -/
theorem step_batch (op : Op) (s : ControlStore) :
    ((op.prog A).run s).2 = s ∨
      ∃ w, OpBatch A {s} op w ∧ ((op.prog A).run s).2 = WriteBatch.commit w s := by
  cases op with
  | create auth now path force domain draws =>
      simp only [Op.prog]
      rw [run_ignore]
      rcases createDid_run A auth now s path force domain draws with
        ⟨e, he⟩ | ⟨m, existing, r, hrec, hauth, hrun⟩
      · rw [he]
        exact Or.inl rfl
      · rw [hrun]
        exact Or.inr ⟨_, .created ⟨s, rfl, hrec⟩ hauth,
          commit_create auth m domain now existing s⟩
  | register auth now path didLog force domain =>
      simp only [Op.prog]
      rw [run_ignore]
      rcases Prog.run_check_planned (registerPrecheck A auth path didLog) (some path)
        (registerPlan A auth now path didLog force domain) s with
        h | ⟨w, a, ⟨u, hpre⟩, hplan, h⟩
      · exact Or.inl h
      · obtain ⟨existing, ownerChanged, publication, didId, base, names, changes, hreg, hw⟩ :=
          registerPlan_spec hplan
        cases hw
        exact Or.inr ⟨_, .registered hpre hreg, h⟩
  | publish auth now mnemonic didLog requestDomain =>
      simp only [Op.prog]
      rcases publish_run A auth now s mnemonic didLog requestDomain with h | ⟨w, hplan, h⟩
      · exact Or.inl h
      · obtain ⟨record, publication, names, changes, hrep, hnames, hw⟩ := publishPlan_spec hplan
        cases hw
        exact Or.inr ⟨_, .published hrep hnames, h⟩
  | agentName auth now mnemonic name didLog requestDomain op =>
      simp only [Op.prog]
      rw [run_ignore]
      rcases Prog.run_check_planned (validateAgentNameBinding name mnemonic) (some mnemonic)
        (agentNamePlan A auth now mnemonic (bareName name) didLog requestDomain op) s with
        h | ⟨w, a, -, hplan, h⟩
      · exact Or.inl h
      · obtain ⟨record, publication, holder, effect, hrep, hclaim, hholder, heffect, hw⟩ :=
          agentNamePlan_spec hplan
        cases hw
        exact Or.inr ⟨_, .named hrep hclaim hholder heffect, h⟩
  | uploadWitness auth mnemonic witnessEntry =>
      simp only [Op.prog]
      rcases Prog.run_check_planned (validateMnemonic mnemonic) (some mnemonic)
        (uploadWitnessPlan A auth mnemonic witnessEntry) s with h | ⟨w, a, -, hplan, h⟩
      · exact Or.inl h
      · obtain ⟨content, hw⟩ := uploadWitnessPlan_spec hplan
        cases hw
        exact Or.inr ⟨_, .witnessed, h⟩
  | delete auth mnemonic requestDomain =>
      simp only [Op.prog]
      rw [run_ignore]
      rcases Prog.run_check_planned (validateMnemonic mnemonic) none
        (deletePlan A auth mnemonic requestDomain) s with h | ⟨w, a, -, hplan, h⟩
      · exact Or.inl h
      · obtain ⟨record, hread, hauth, hdomain, hw⟩ := deletePlan_spec hplan
        cases hw
        exact Or.inr ⟨_, .deleted hread hauth hdomain, h⟩
  | changeOwner auth now mnemonic newOwner =>
      simp only [Op.prog]
      rw [run_ignore]
      rcases Prog.run_check_planned (validateMnemonic mnemonic) (some mnemonic)
        (changeOwnerPlan A auth now mnemonic newOwner) s with h | ⟨w, a, -, hplan, h⟩
      · exact Or.inl h
      · obtain ⟨record, hread, hauth, hw | ⟨owner, hw⟩⟩ := changeOwnerPlan_spec hplan
        · cases hw
        · cases hw
          exact Or.inr ⟨_, .transferred hread hauth, h⟩
  | setDisabled auth mnemonic disabled =>
      simp only [Op.prog]
      rcases Prog.run_check_planned (validateMnemonic mnemonic) none
        (setDisabledPlan A auth mnemonic disabled) s with h | ⟨w, a, -, hplan, h⟩
      · exact Or.inl h
      · obtain ⟨record, hread, hauth, hw⟩ := setDisabledPlan_spec hplan
        cases hw
        exact Or.inr ⟨_, .disabled hread hauth, h⟩
  | rollback auth now mnemonic targetVersion =>
      simp only [Op.prog]
      rw [run_ignore]
      rcases Prog.run_check_planned (validateMnemonic mnemonic) none
        (rollbackPlan A auth now mnemonic targetVersion) s with h | ⟨w, a, -, hplan, h⟩
      · exact Or.inl h
      · obtain ⟨record, content, keep, hread, hauth, hcontent, hkeep, hw⟩ :=
          rollbackPlan_spec hplan
        unfold rollbackResult at hw
        simp only at hw
        split at hw
        · cases hw
        · rename_i hremoved
          cases hw
          exact Or.inr ⟨_, .rolledBack hread hauth hcontent hkeep (by omega), h⟩

end

/-! ## Slots -/

/-- The changes of a record that keep what it says about the log. -/
structure SameContent (r r' : DidRecord) : Prop where
  mnemonic : r'.mnemonic = r.mnemonic
  versionCount : r'.versionCount = r.versionCount
  didId : r'.didId = r.didId
  contentSize : r'.contentSize = r.contentSize
  method : r'.method = r.method
  domain : r'.domain = r.domain
  services : r'.services = r.services
  agentNames : r'.agentNames = r.agentNames

/-- The ways a request can change the record and the log of the slot it
addresses: `SlotChange A s op m record log` says that request `op`, served in
store `s`, leaves slot `m` with `record` and `log`. -/
inductive SlotChange (A : AppState) (s : ControlStore) :
    Op → String → Option DidRecord → Option String → Prop where
  | created {auth now path force domain draws m} :
      (∀ r, s.record m = some r → path = some m ∧ force = true ∧ authorized auth r = true) →
      SlotChange A s (.create auth now path force domain draws) m
        (some (emptyRecord auth m domain now))
        (if (s.record m).isSome then none else s.log m)
  | registered {auth now path didLog force domain existing ownerChanged publication didId
      base names changes} :
      registerPrecheck A auth path didLog = .ok () →
      Registers A {s} auth now path didLog force domain existing ownerChanged publication
        didId base names changes →
      SlotChange A s (.register auth now path didLog force domain) path
        (some (registerRecord A auth path didLog publication didId existing ownerChanged
          names now))
        (some didLog)
  | published {auth now m didLog requestDomain record publication names changes} :
      Republishes A {s} auth m didLog record publication →
      Reconciled {s} record.agentNames m
        (publication.agentNames A.libs
          (slotDomain A.libs (republished A.libs record publication didLog now)))
        (slotDomain A.libs (republished A.libs record publication didLog now)) now
        names changes →
      SlotChange A s (.publish auth now m didLog requestDomain) m
        (some { republished A.libs record publication didLog now with agentNames := names })
        (some didLog)
  | named {auth now m name didLog requestDomain op record publication holder effect} :
      Republishes A {s} auth m didLog record publication →
      ((publication.agentNames A.libs
          (slotDomain A.libs (republished A.libs record publication didLog now))).contains
        (bareName name) = op.requiresClaim) →
      agentNameEffect op record.agentNames m
        (slotDomain A.libs (republished A.libs record publication didLog now))
        (bareName name) now holder = .ok effect →
      SlotChange A s (.agentName auth now m name didLog requestDomain op) m
        (some { republished A.libs record publication didLog now with
          agentNames := effect.1 })
        (some didLog)
  | deleted {auth m requestDomain record} :
      s.record m = some record → authorized auth record = true →
      SlotChange A s (.delete auth m requestDomain) m none none
  | rolledBack {auth now m targetVersion record content keep} :
      s.record m = some record → authorized auth record = true → s.log m = some content →
      rollbackKeep (entryCount content) targetVersion = .ok keep →
      keep < entryCount content →
      SlotChange A s (.rollback auth now m targetVersion) m
        (some (rolledBack A.libs record (truncateLog content keep) keep now))
        (some (truncateLog content keep))
  | touched {op m r r'} :
      s.record m = some r → SameContent r r' →
      SlotChange A s op m (some r') (s.log m)

/-- Two stores agree on the record and the log of slot `m`. -/
def SameSlot (s t : ControlStore) (m : String) : Prop :=
  t.record m = s.record m ∧ t.log m = s.log m

/-- A batch that writes record and log of slot `m` leaves the other slots. -/
theorem write_slot {w : Batch} {s : ControlStore} {m : String} {r : DidRecord} {c : String}
    (hdids : (DidsKs.commit w s.ks).dids = s.ks.dids.insert m r)
    (hlog : (DidsKs.commit w s.ks).contentLog = s.ks.contentLog.insert m c) :
    (∀ m', m' ≠ m → SameSlot s (WriteBatch.commit w s) m') ∧
      (WriteBatch.commit w s).record m = some r ∧
      (WriteBatch.commit w s).log m = some c := by
  refine ⟨?_, ?_, ?_⟩
  · intro m' hne
    constructor
    · change (DidsKs.commit w s.ks).dids.lookup m' = _
      rw [hdids, AList.lookup_insert_ne hne]
      rfl
    · change (DidsKs.commit w s.ks).contentLog.lookup m' = _
      rw [hlog, AList.lookup_insert_ne hne]
      rfl
  · change (DidsKs.commit w s.ks).dids.lookup m = _
    rw [hdids, AList.lookup_insert]
  · change (DidsKs.commit w s.ks).contentLog.lookup m = _
    rw [hlog, AList.lookup_insert]

theorem commit_createBatches (ks : DidsKs) (auth : AuthClaims) (m : String)
    (existing : Option DidRecord) (domain : Option String) (now : ℕ) :
    (DidsKs.commit (replaceBatch auth m existing ++ createBatch auth m domain now) ks).dids =
        ks.dids.insert m (emptyRecord auth m domain now) ∧
      (DidsKs.commit (replaceBatch auth m existing ++ createBatch auth m domain now)
        ks).contentLog = (if existing.isSome then ks.contentLog.erase m else ks.contentLog) ∧
      (DidsKs.commit (replaceBatch auth m existing ++ createBatch auth m domain now)
        ks).agentName = ks.agentName := by
  rw [DidsKs.commit_append]
  cases existing with
  | none => exact ⟨rfl, rfl, rfl⟩
  | some r =>
      obtain ⟨hdids, hlog, hname⟩ := commit_forceReplaceBatch ks auth m r
      refine ⟨?_, hlog, hname⟩
      change ((DidsKs.commit (forceReplaceBatch auth m r) ks).dids).insert m _ = _
      rw [hdids]

section

variable {A : AppState} {s : ControlStore}

/-- A batch changes record and log of at most one slot, in one of the ways
`SlotChange` lists. -/
theorem OpBatch.slot {op : Op} {w : Batch} (h : OpBatch A {s} op w) :
    (∀ m, SameSlot s (WriteBatch.commit w s) m) ∨
      ∃ m, (∀ m', m' ≠ m → SameSlot s (WriteBatch.commit w s) m') ∧
        SlotChange A s op m ((WriteBatch.commit w s).record m)
          ((WriteBatch.commit w s).log m) := by
  cases h with
  | @created auth now path force domain draws m existing hread hauth =>
      obtain ⟨hdids, hlog, -⟩ := commit_createBatches s.ks auth m existing domain now
      have hrec := read_singleton hread
      refine Or.inr ⟨m, ?_, ?_⟩
      · intro m' hne
        constructor
        · refine (congrArg (AList.lookup m') hdids).trans ?_
          exact AList.lookup_insert_ne hne
        · refine (congrArg (AList.lookup m') hlog).trans ?_
          split
          · exact AList.lookup_erase_ne hne
          · rfl
      · have h₁ : (WriteBatch.commit (replaceBatch auth m existing ++
            createBatch auth m domain now) s).record m =
            some (emptyRecord auth m domain now) :=
          (congrArg (AList.lookup m) hdids).trans (AList.lookup_insert _)
        have h₂ : (WriteBatch.commit (replaceBatch auth m existing ++
            createBatch auth m domain now) s).log m =
            if (s.record m).isSome then none else s.log m := by
          refine (congrArg (AList.lookup m) hlog).trans ?_
          rw [hrec]
          split
          · exact AList.lookup_erase _ _
          · rfl
        rw [h₁, h₂]
        exact .created (hrec ▸ hauth)
  | @registered auth now path didLog force domain existing ownerChanged publication didId base
      names changes hpre hreg =>
      obtain ⟨hdids, hlog, -⟩ := commit_registerBatch s.ks auth path didLog
        (didHostOrEmpty A.libs didId) existing ownerChanged
        (registerRecord A auth path didLog publication didId existing ownerChanged names now)
        changes
      obtain ⟨hframe, h₁, h₂⟩ := write_slot hdids hlog
      refine Or.inr ⟨path, hframe, ?_⟩
      rw [h₁, h₂]
      exact .registered hpre hreg
  | @published auth now m didLog requestDomain record publication names changes hrep hnames =>
      have heff := commit_publishBatch s.ks m didLog
        (slotDomain A.libs (republished A.libs record publication didLog now))
        { republished A.libs record publication didLog now with agentNames := names } changes
      obtain ⟨hframe, h₁, h₂⟩ :=
        write_slot (congrArg DidsKs.dids heff) (congrArg DidsKs.contentLog heff)
      refine Or.inr ⟨m, hframe, ?_⟩
      rw [h₁, h₂]
      exact .published hrep hnames
  | @named auth now m name didLog requestDomain op record publication holder effect hrep hclaim
      hholder heffect =>
      have heff := commit_namedBatch heffect didLog
        { republished A.libs record publication didLog now with agentNames := effect.1 } s.ks
      obtain ⟨hframe, h₁, h₂⟩ :=
        write_slot (congrArg DidsKs.dids heff) (congrArg DidsKs.contentLog heff)
      refine Or.inr ⟨m, hframe, ?_⟩
      rw [h₁, h₂]
      exact .named hrep hclaim heffect
  | witnessed => exact Or.inl fun m => ⟨rfl, rfl⟩
  | @deleted auth m requestDomain record hread hauth =>
      refine Or.inr ⟨m, ?_, ?_⟩
      · intro m' hne
        exact ⟨AList.lookup_erase_ne hne, AList.lookup_erase_ne hne⟩
      · have h₁ : (WriteBatch.commit (deleteBatch m record.owner) s).record m = none :=
          AList.lookup_erase _ _
        have h₂ : (WriteBatch.commit (deleteBatch m record.owner) s).log m = none :=
          AList.lookup_erase _ _
        rw [h₁, h₂]
        exact .deleted (read_singleton hread) hauth
  | @transferred auth now m newOwner record owner hread hauth =>
      refine Or.inr ⟨m, fun m' hne => ⟨AList.lookup_insert_ne hne, rfl⟩, ?_⟩
      have h₁ : (WriteBatch.commit (changeOwnerBatch m owner record now) s).record m =
          some { record with owner := owner, updatedAt := now } := AList.lookup_insert _
      rw [h₁]
      exact .touched (read_singleton hread) ⟨rfl, rfl, rfl, rfl, rfl, rfl, rfl, rfl⟩
  | @disabled auth m disabled record hread hauth =>
      refine Or.inr ⟨m, fun m' hne => ⟨AList.lookup_insert_ne hne, rfl⟩, ?_⟩
      have h₁ : (WriteBatch.commit
          [BatchOp.insertDid m { record with disabled := disabled }] s).record m =
          some { record with disabled := disabled } := AList.lookup_insert _
      rw [h₁]
      exact .touched (read_singleton hread) ⟨rfl, rfl, rfl, rfl, rfl, rfl, rfl, rfl⟩
  | @rolledBack auth now m targetVersion record content keep hread hauth hcontent hkeep hlt =>
      refine Or.inr ⟨m, fun m' hne => ⟨AList.lookup_insert_ne hne, AList.lookup_insert_ne hne⟩,
        ?_⟩
      have h₁ : (WriteBatch.commit
          [BatchOp.insertLog m (truncateLog content keep),
            .insertDid m (DidHosting.rolledBack A.libs record (truncateLog content keep) keep now),
            .removeWitness m] s).record m =
          some (DidHosting.rolledBack A.libs record (truncateLog content keep) keep now) :=
        AList.lookup_insert _
      have h₂ : (WriteBatch.commit
          [BatchOp.insertLog m (truncateLog content keep),
            .insertDid m (DidHosting.rolledBack A.libs record (truncateLog content keep) keep now),
            .removeWitness m] s).log m =
          some (truncateLog content keep) := AList.lookup_insert _
      rw [h₁, h₂]
      exact .rolledBack (read_singleton hread) hauth (read_singleton hcontent) hkeep hlt

/-- A request changes record and log of at most one slot, in one of the ways
`SlotChange` lists. -/
theorem step_slot (op : Op) :
    (∀ m, SameSlot s ((op.prog A).run s).2 m) ∨
      ∃ m, (∀ m', m' ≠ m → SameSlot s ((op.prog A).run s).2 m') ∧
        SlotChange A s op m (((op.prog A).run s).2.record m)
          (((op.prog A).run s).2.log m) := by
  rcases step_batch op s with h | ⟨w, hw, h⟩
  · rw [h]
    exact Or.inl fun m => ⟨rfl, rfl⟩
  · rw [h]
    exact hw.slot

/-- The rule for properties of single slots: what every change of a slot keeps,
every request keeps. -/
theorem slotwise_step {P : String → Option DidRecord → Option String → Prop} {op : Op}
    (hchange : ∀ m record log, SlotChange A s op m record log →
      P m (s.record m) (s.log m) → P m record log)
    (h : ∀ m, P m (s.record m) (s.log m)) (m : String) :
    P m (((op.prog A).run s).2.record m) (((op.prog A).run s).2.log m) := by
  have hkeep : ∀ m, SameSlot s ((op.prog A).run s).2 m →
      P m (((op.prog A).run s).2.record m) (((op.prog A).run s).2.log m) := by
    intro m hsame
    rw [hsame.1, hsame.2]
    exact h m
  rcases step_slot op with hsame | ⟨m', hother, hslot⟩
  · exact hkeep m (hsame m)
  · by_cases hm : m = m'
    · subst hm
      exact hchange m _ _ hslot (h m)
    · exact hkeep m (hother m hm)

end

end DidHosting
