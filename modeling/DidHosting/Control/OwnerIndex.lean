import DidHosting.Control.Effects

/-!
# The owner index

A slot has a row under its owner's DID.  The requests move the row together with the
record, so that the rows lead to every slot, each from its owner only.
-/

namespace DidHosting

/-! ## The invariant -/

/-- The record and the index rows of slot `m`: the record carries the mnemonic, and there is
a row for its owner and for no other. -/
structure SlotIndexed (m : String) (record : Option DidRecord) (row : String → Option String) :
    Prop where
  keyed : ∀ r, record = some r → r.mnemonic = m
  rows : ∀ owner, row owner =
    if record.map DidRecord.owner = some owner then some m else none

/-- The owner index leads to every slot, through one row. -/
def OwnersIndexed (s : ControlStore) : Prop :=
  ∀ m, SlotIndexed m (s.record m) fun owner => s.ks.ownerIndex.lookup (owner, m)

section

variable {s t : ControlStore} {m : String} {r : DidRecord}

theorem OwnersIndexed.owned (h : OwnersIndexed s) (hread : s.record m = some r) :
    s.ks.ownerIndex.lookup (r.owner, m) = some m := by
  have hrow := (h m).rows r.owner
  rw [hread] at hrow
  simpa using hrow

/-- A row of another owner than the record's is not there. -/
theorem OwnersIndexed.no_row (h : OwnersIndexed s) {owner : String}
    (hne : (s.record m).map DidRecord.owner ≠ some owner) :
    s.ks.ownerIndex.lookup (owner, m) = none :=
  ((h m).rows owner).trans (if_neg hne)

theorem OwnersIndexed.of_row (h : OwnersIndexed s) {owner v : String}
    (hrow : s.ks.ownerIndex.lookup (owner, m) = some v) :
    v = m ∧ (s.record m).map DidRecord.owner = some owner := by
  have hrows := (h m).rows owner
  rw [hrow] at hrows
  split at hrows
  · rename_i howner
    exact ⟨Option.some.inj hrows, howner⟩
  · contradiction

/-! ## Changes of one slot -/

/-- A record is stored, and the row of its owner is the slot's only one. -/
theorem OwnersIndexed.store (h : OwnersIndexed s) (hdids : t.ks.dids = s.ks.dids.insert m r)
    (hkeyed : r.mnemonic = m)
    (hrows : ∀ owner m', t.ks.ownerIndex.lookup (owner, m') =
      if m' = m then if r.owner = owner then some m else none
      else s.ks.ownerIndex.lookup (owner, m')) : OwnersIndexed t := by
  have hrecord : ∀ m', t.record m' = if m' = m then some r else s.record m' := by
    intro m'
    unfold ControlStore.record
    rw [hdids, Table.lookup_insert_ite]
  intro m'
  by_cases hm : m' = m
  · subst hm
    constructor
    · intro r' hr'
      rw [hrecord, if_pos rfl] at hr'
      cases hr'
      exact hkeyed
    · intro owner
      rw [hrows, hrecord, if_pos rfl, if_pos rfl]
      simp
  · constructor
    · rw [hrecord, if_neg hm]
      exact (h m').keyed
    · intro owner
      rw [hrows, hrecord, if_neg hm, if_neg hm]
      exact (h m').rows owner

theorem OwnersIndexed.touch (h : OwnersIndexed s) {r' : DidRecord} (hread : s.record m = some r)
    (hdids : t.ks.dids = s.ks.dids.insert m r') (hindex : t.ks.ownerIndex = s.ks.ownerIndex)
    (hmnemonic : r'.mnemonic = r.mnemonic) (howner : r'.owner = r.owner) : OwnersIndexed t := by
  refine h.store hdids (hmnemonic.trans ((h m).keyed r hread)) ?_
  intro owner m'
  rw [hindex]
  split
  · rename_i hm
    subst hm
    have hrow := (h m').rows owner
    rw [hread] at hrow
    rw [hrow, howner]
    simp
  · rfl

/-- A record is stored and its owner gets a row, where no other owner has one. -/
theorem OwnersIndexed.replace (h : OwnersIndexed s) {index : Table (String × String) String}
    (hdids : t.ks.dids = s.ks.dids.insert m r) (hkeyed : r.mnemonic = m)
    (hindex : t.ks.ownerIndex = index.insert (r.owner, m) m)
    (hfree : ∀ owner, owner ≠ r.owner → index.lookup (owner, m) = none)
    (hother : ∀ owner m', m' ≠ m →
      index.lookup (owner, m') = s.ks.ownerIndex.lookup (owner, m')) : OwnersIndexed t := by
  refine h.store hdids hkeyed ?_
  intro owner m'
  rw [hindex, Table.lookup_insert_ite]
  by_cases hm : m' = m
  · subst hm
    by_cases howner : owner = r.owner
    · simp [howner]
    · have hne : ¬ r.owner = owner := fun heq => howner heq.symm
      simp [howner, hne, hfree owner howner]
  · simp [hm, hother owner m' hm]

/-- Without the row of its record a slot has none. -/
theorem OwnersIndexed.erase_lookup (h : OwnersIndexed s) (hread : s.record m = some r)
    (owner : String) : (s.ks.ownerIndex.erase (r.owner, m)).lookup (owner, m) = none := by
  rw [Table.lookup_erase_ite]
  by_cases howner : owner = r.owner
  · simp [howner]
  · have hne : (s.record m).map DidRecord.owner ≠ some owner := by
      rw [hread]
      exact fun heq => howner (Option.some.inj heq).symm
    simp [howner, h.no_row hne]

theorem erase_lookup_other {owner owner' m' : String} (hm : m' ≠ m) :
    (s.ks.ownerIndex.erase (owner, m)).lookup (owner', m') =
      s.ks.ownerIndex.lookup (owner', m') := by
  rw [Table.lookup_erase_ite]
  simp [hm]

theorem OwnersIndexed.remove (h : OwnersIndexed s) (hread : s.record m = some r)
    (hdids : t.ks.dids = s.ks.dids.erase m)
    (hindex : t.ks.ownerIndex = s.ks.ownerIndex.erase (r.owner, m)) : OwnersIndexed t := by
  have hrecord : ∀ m', t.record m' = if m' = m then none else s.record m' := by
    intro m'
    unfold ControlStore.record
    rw [hdids, Table.lookup_erase_ite]
  intro m'
  constructor
  · intro r' hr'
    rw [hrecord] at hr'
    split at hr'
    · contradiction
    · exact (h m').keyed r' hr'
  · intro owner
    have hrow := (h m').rows owner
    rw [hindex, hrecord, Table.lookup_erase_ite]
    by_cases hm : m' = m
    · subst hm
      rw [hread] at hrow
      by_cases howner : owner = r.owner
      · simp [howner]
      · have hne : ¬ r.owner = owner := fun heq => howner heq.symm
        simp [howner, hrow, hne]
    · simp [hm, hrow]

/-! ## Requests -/

variable {A : AppState} {auth : AuthClaims}

/-- The index without the row of a previous owner. -/
def displaceRow (owner m : String) (existing : Option DidRecord)
    (index : Table (String × String) String) : Table (String × String) String :=
  match existing with
  | some prev => if prev.owner = owner then index else index.erase (prev.owner, m)
  | none => index

/-- A record takes the place of the one that is there. -/
theorem OwnersIndexed.takeover (h : OwnersIndexed s)
    (hdids : t.ks.dids = s.ks.dids.insert m r) (hkeyed : r.mnemonic = m)
    (hindex : t.ks.ownerIndex =
      (displaceRow r.owner m (s.record m) s.ks.ownerIndex).insert (r.owner, m) m) :
    OwnersIndexed t := by
  cases hread : s.record m with
  | none =>
      rw [hread] at hindex
      refine h.replace hdids hkeyed hindex (fun owner howner => h.no_row ?_) fun _ _ _ => rfl
      rw [hread]
      exact nofun
  | some prev =>
      rw [hread] at hindex
      simp only [displaceRow] at hindex
      split at hindex
      · rename_i hsame
        refine h.replace hdids hkeyed hindex (fun owner howner => h.no_row ?_) fun _ _ _ => rfl
        rw [hread]
        exact fun heq => howner ((Option.some.inj heq).symm.trans hsame)
      · exact h.replace hdids hkeyed hindex (fun owner _ => h.erase_lookup hread owner)
          fun owner m' hm => erase_lookup_other hm

/-! ## Requests -/

section

variable (ks : DidsKs) (auth : AuthClaims) (m : String)

theorem commit_createBatch_index (existing : Option DidRecord) (domain : Option String)
    (now : ℕ) :
    let ks' := DidsKs.commit (replaceBatch auth m existing ++ createBatch auth m domain now) ks
    ks'.dids = ks.dids.insert m (emptyRecord auth m domain now) ∧
      ks'.ownerIndex =
        (displaceRow auth.did m existing ks.ownerIndex).insert (auth.did, m) m := by
  cases existing with
  | none => exact ⟨rfl, rfl⟩
  | some prev =>
      by_cases hsame : prev.owner = auth.did
      · simp [replaceBatch, forceReplaceBatch, createBatch, displaceRow, hsame, DidsKs.apply]
      · simp [replaceBatch, forceReplaceBatch, createBatch, displaceRow, hsame, DidsKs.apply]

/-- A takeover displaces the row of the previous owner: the ownership check has found
whether it is another one. -/
theorem commit_registerBatch_index {force ownerChanged : Bool} {existing : Option DidRecord}
    (howner : registerOwnership auth force existing = .ok ownerChanged) (didLog domain : String)
    (changes : NameChanges) (record : DidRecord) :
    (DidsKs.commit (registerBatch auth m didLog existing ownerChanged record changes domain)
        ks).ownerIndex =
      (displaceRow auth.did m existing ks.ownerIndex).insert (auth.did, m) m := by
  unfold registerOwnership at howner
  cases existing with
  | none => simp [registerBatch, takeoverBatch, displaceRow, DidsKs.apply]
  | some prev =>
      simp only at howner
      split at howner
      · rename_i hsame
        cases howner
        simp [registerBatch, takeoverBatch, displaceRow, hsame, DidsKs.apply]
      · rename_i hother
        split at howner
        · contradiction
        · split at howner
          · contradiction
          · cases howner
            simp [registerBatch, takeoverBatch, displaceRow, hother, DidsKs.apply]

end

/-- The index part of an agent-name operation is on the name index. -/
theorem agentNameEffect_onNames {op : AgentNameOp} {names : List AgentNameEntry}
    {mnemonic domain name : String} {now : ℕ} {holder : Option String}
    {effect : List AgentNameEntry × Batch}
    (h : agentNameEffect op names mnemonic domain name now holder = .ok effect) :
    ∀ o ∈ effect.2, o.onNames = true := by
  rcases agentNameEffect_cases h with ⟨-, -, rfl⟩ | ⟨-, rfl⟩ | ⟨-, -, rfl⟩
  all_goals simp [BatchOp.onNames]

variable {A : AppState}

theorem OpBatch.ownersIndexed {op : Op} {w : Batch} (hw : OpBatch A {s} op w)
    (h : OwnersIndexed s) : OwnersIndexed (WriteBatch.commit w s) := by
  cases hw with
  | @created auth now path force domain draws m existing hread hauth =>
      obtain rfl := read_singleton hread
      obtain ⟨hdids, hindex⟩ := commit_createBatch_index s.ks auth m (s.record m) domain now
      exact h.takeover hdids rfl hindex
  | @registered auth now path didLog force domain existing ownerChanged p did base names
      changes hpre hreg =>
      obtain rfl := read_singleton hreg.existing_read
      exact h.takeover (commit_registerBatch ..).1 rfl
        (commit_registerBatch_index s.ks auth path hreg.ownership ..)
  | @published auth now m didLog requestDomain record p names changes hrep hnames =>
      have hks := commit_publishBatch s.ks m didLog
        (slotDomain A.libs (republished A.libs record p didLog now))
        { republished A.libs record p didLog now with agentNames := names } changes
      exact h.touch (read_singleton hrep.record_read) (congrArg DidsKs.dids hks :)
        (congrArg DidsKs.ownerIndex hks :) rfl rfl
  | @named auth now m name didLog requestDomain op record p holder effect hrep hclaim hholder
      heffect =>
      have hks := commit_namedBatch heffect didLog
        { republished A.libs record p didLog now with agentNames := effect.1 } s.ks
      exact h.touch (read_singleton hrep.record_read) (congrArg DidsKs.dids hks :)
        (congrArg DidsKs.ownerIndex hks :) rfl rfl
  | witnessed => exact h
  | deleted hread hauth => exact h.remove (read_singleton hread) rfl rfl
  | @transferred auth now m newOwner record owner hread hauth =>
      have hread := read_singleton hread
      exact h.replace (r := { record with owner := owner, updatedAt := now }) rfl
        ((h m).keyed record hread) rfl (fun o _ => h.erase_lookup hread o)
        fun o m' hm => erase_lookup_other hm
  | disabled hread hauth => exact h.touch (read_singleton hread) rfl rfl rfl rfl
  | rolledBack hread hauth hcontent hkeep hlt =>
      exact h.touch (read_singleton hread) rfl rfl rfl rfl

theorem ownersIndexed_step (e : Event) (h : OwnersIndexed s) : OwnersIndexed (e.step A s) := by
  cases e with
  | administer acl domains => exact h
  | serve op =>
      rcases step_batch (A := A) op s with hsame | ⟨w, hw, hcommit⟩
      · exact (congrArg OwnersIndexed hsame).mpr h
      · exact (congrArg OwnersIndexed hcommit).mpr (hw.ownersIndexed h)

end

/-- The index leads to every slot after any run of requests. -/
theorem ownersIndexed_run (A : AppState) (acl : Table String AclEntry)
    (domains : Table String DomainEntry) (events : List Event) :
    OwnersIndexed (Run.exec (Event.step A) (ControlStore.initial acl domains) events) :=
  Run.exec_invariant_of_step (fun _ e h => ownersIndexed_step e h) events
    fun _ => ⟨nofun, fun _ => rfl⟩

end DidHosting
