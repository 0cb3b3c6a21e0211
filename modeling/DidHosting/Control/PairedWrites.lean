import DidHosting.Control.Reference
import DidHosting.Support.Interleaving

/-!
# Records and logs in the writes of requests

A request stores a log together with its record, and a record without a log leaves the log
of the slot as it is.  This is said of every batch a request can commit, whatever its reads
are answered by, so it holds of requests between whose steps others commit.
-/

namespace DidHosting

open Text

/-! ## Paired batches -/

/-- What a batch may do to a slot: no empty record is stored together with a log, and no log
is stored without a record. -/
structure PairedAt (w : Batch) (s : ControlStore) (m : String) : Prop where
  empty : ∀ r, (WriteBatch.commit w s).record m = some r → r.versionCount = 0 →
    (s.record m = some r ∨ BatchOp.insertDid m r ∈ w) ∧
      ((WriteBatch.commit w s).log m = none ∨ (WriteBatch.commit w s).log m = s.log m)
  absent : (WriteBatch.commit w s).record m = none →
    (WriteBatch.commit w s).log m = none ∨
      s.record m = none ∧ (WriteBatch.commit w s).log m = s.log m

/-- The batch is paired at every slot of every store. -/
def Paired (w : Batch) : Prop :=
  ∀ s m, PairedAt w s m

section Batches

variable {w : Batch} {m c : String} {r : DidRecord}

theorem PairedAt.same {s : ControlStore} (h : SameSlot s (WriteBatch.commit w s) m) :
    PairedAt w s m :=
  ⟨fun _ hr _ => ⟨Or.inl (h.1.symm.trans hr), Or.inr h.2⟩,
    fun hr => Or.inr ⟨h.1.symm.trans hr, h.2⟩⟩

theorem paired_of_published
    (h : ∀ ks : DidsKs, (DidsKs.commit w ks).dids = ks.dids.insert m r ∧
      (DidsKs.commit w ks).contentLog = ks.contentLog.insert m c)
    (hcount : r.versionCount ≠ 0) : Paired w := by
  intro s m'
  obtain ⟨hothers, hrecord, -⟩ := write_slot (h s.ks).1 (h s.ks).2
  by_cases hm : m' = m
  · subst hm
    refine ⟨?_, ?_⟩
    · intro r' hr' hzero
      cases hrecord.symm.trans hr'
      exact absurd hzero hcount
    · intro hnone
      cases hrecord.symm.trans hnone
  · exact .same (hothers m' hm)

theorem paired_of_record (hmem : BatchOp.insertDid m r ∈ w)
    (h : ∀ ks : DidsKs, (DidsKs.commit w ks).dids = ks.dids.insert m r ∧
      (DidsKs.commit w ks).contentLog = ks.contentLog) : Paired w := by
  intro s m'
  have hlog : (WriteBatch.commit w s).log m' = s.log m' :=
    congrArg (AList.lookup m') (h s.ks).2
  have hdids : (WriteBatch.commit w s).record m' = (s.ks.dids.insert m r).lookup m' :=
    congrArg (AList.lookup m') (h s.ks).1
  by_cases hm : m' = m
  · subst hm
    rw [AList.lookup_insert] at hdids
    refine ⟨?_, ?_⟩
    · intro r' hr' _
      cases hdids.symm.trans hr'
      exact ⟨Or.inr hmem, Or.inr hlog⟩
    · intro hnone
      cases hdids.symm.trans hnone
  · rw [AList.lookup_insert_ne hm] at hdids
    exact .same ⟨hdids, hlog⟩

theorem paired_of_clear
    (h : ∀ ks : DidsKs, (DidsKs.commit w ks).dids = ks.dids ∧
      ∀ m, (DidsKs.commit w ks).contentLog.lookup m = none ∨
        (DidsKs.commit w ks).contentLog.lookup m = ks.contentLog.lookup m) : Paired w := by
  intro s m
  have hrecord : (WriteBatch.commit w s).record m = s.record m :=
    congrArg (AList.lookup m) (h s.ks).1
  have hlog : (WriteBatch.commit w s).log m = none ∨
      (WriteBatch.commit w s).log m = s.log m := (h s.ks).2 m
  refine ⟨fun r hr _ => ⟨Or.inl (hrecord ▸ hr), hlog⟩, fun hnone => ?_⟩
  rcases hlog with hgone | hkept
  · exact Or.inl hgone
  · exact Or.inr ⟨hrecord ▸ hnone, hkept⟩

theorem paired_forceReplaceBatch (auth : AuthClaims) (m : String) (existing : DidRecord) :
    Paired (forceReplaceBatch auth m existing) := by
  refine paired_of_clear fun ks => ?_
  obtain ⟨hdids, hlog, -⟩ := commit_forceReplaceBatch ks auth m existing
  refine ⟨hdids, fun m' => ?_⟩
  rw [hlog]
  by_cases hm : m' = m
  · subst hm
    exact Or.inl (AList.lookup_erase _ _)
  · exact Or.inr (AList.lookup_erase_ne hm)

theorem paired_deleteBatch (m owner : String) : Paired (deleteBatch m owner) := by
  intro s m'
  by_cases hm : m' = m
  · subst hm
    have hrecord : (WriteBatch.commit (deleteBatch m' owner) s).record m' = none :=
      AList.lookup_erase _ _
    have hlog : (WriteBatch.commit (deleteBatch m' owner) s).log m' = none :=
      AList.lookup_erase _ _
    refine ⟨?_, fun _ => Or.inl hlog⟩
    intro r hr _
    cases hrecord.symm.trans hr
  · exact .same ⟨AList.lookup_erase_ne hm, AList.lookup_erase_ne hm⟩

theorem paired_registerBatch (auth : AuthClaims) (path didLog domain : String)
    (existing : Option DidRecord) (ownerChanged : Bool) (changes : NameChanges)
    (hcount : r.versionCount ≠ 0) :
    Paired (registerBatch auth path didLog existing ownerChanged r changes domain) := by
  refine paired_of_published (m := path) (c := didLog) (fun ks => ?_) hcount
  obtain ⟨hdids, hlog, -⟩ :=
    commit_registerBatch ks auth path didLog domain existing ownerChanged r changes
  exact ⟨hdids, hlog⟩

theorem paired_publishBatch (m didLog domain : String) (changes : NameChanges)
    (hcount : r.versionCount ≠ 0) : Paired (publishBatch m didLog r changes domain) := by
  refine paired_of_published (m := m) (c := didLog) (fun ks => ?_) hcount
  have heff := commit_publishBatch ks m didLog domain r changes
  exact ⟨congrArg DidsKs.dids heff, congrArg DidsKs.contentLog heff⟩

theorem paired_namedBatch {op : AgentNameOp} {names : List AgentNameEntry}
    {domain name : String} {now : ℕ} {holder : Option String}
    {effect : List AgentNameEntry × Batch} (didLog : String)
    (heffect : agentNameEffect op names m domain name now holder = .ok effect)
    (hcount : r.versionCount ≠ 0) :
    Paired ([.insertLog m didLog, .insertDid m r] ++ effect.2) := by
  refine paired_of_published (m := m) (c := didLog) (fun ks => ?_) hcount
  have heff := commit_namedBatch heffect didLog r ks
  exact ⟨congrArg DidsKs.dids heff, congrArg DidsKs.contentLog heff⟩

end Batches

/-! ## The batches of requests -/

section Requests

variable {A : AppState} {auth : AuthClaims} {now : ℕ}

theorem registerRecord_versionCount {path didLog didId : String} {p : Publication}
    {existing : Option DidRecord} {ownerChanged : Bool} {names : List AgentNameEntry} :
    (registerRecord A auth path didLog p didId existing ownerChanged names now).versionCount
      ≠ 0 := by
  change (registerVersion existing ownerChanged now).2 ≠ 0
  unfold registerVersion
  split
  · exact Nat.succ_ne_zero _
  · exact Nat.one_ne_zero

theorem rollbackKeep_ne_zero {count keep : ℕ} {targetVersion : Option ℕ}
    (h : rollbackKeep count targetVersion = .ok keep) : keep ≠ 0 := by
  unfold rollbackKeep at h
  split at h
  · split at h
    · contradiction
    · cases h
      omega
  · split at h
    · contradiction
    · rename_i hvalid
      cases h
      simp only [Bool.or_eq_true, decide_eq_true_eq, not_or] at hvalid
      omega

theorem createPath_paired (auth : AuthClaims) (path : Option String) (force : Bool)
    (draws : List String) : (createPath auth path force draws).Writes Paired := by
  have hresolve : ∀ p msg, (resolvePathForCreate auth p force msg).Writes Paired := by
    intro p msg
    refine Prog.writes_bind (Prog.writes_liftM _) fun existing =>
      Prog.writes_bind (Prog.writes_writeOpt fun w hw => ?_) fun _ => trivial
    obtain ⟨r, -, rfl⟩ := Option.map_eq_some_iff.mp hw
    exact paired_forceReplaceBatch auth p r
  cases path with
  | none => exact Prog.writes_ofQuery _
  | some p =>
      rw [createPath]
      split
      · exact Prog.writes_bind (Prog.writes_check _) fun _ => hresolve p _
      · exact Prog.writes_bind (Prog.writes_check _) fun _ => hresolve p _

/-- Every request, whatever its reads answer, commits paired batches only. -/
theorem Op.writes_paired (A : AppState) (op : Op) : (op.prog A).Writes Paired := by
  have hchecked : ∀ {α γ : Type} (pre : Except AppError γ) (key : Option String)
      (plan : ControlQ (Option Batch × α)),
      (∀ w a, plan.Yields Set.univ (some w, a) → Paired w) →
        (Prog.check pre >>= fun _ => Prog.planned key plan : ControlM α).Writes Paired :=
    fun pre key plan h => Prog.writes_bind (Prog.writes_check pre) fun _ =>
      Prog.writes_planned h
  have hignore : ∀ {α : Type} {p : ControlM α}, p.Writes Paired → (ignore p).Writes Paired :=
    fun h => Prog.writes_bind h fun _ => trivial
  cases op with
  | create auth now path force domain draws =>
      refine hignore (Prog.writes_bind (createPath_paired auth path force draws) fun m =>
        Prog.writes_bind (Prog.writes_liftM _) fun _ => Prog.writes_bind ⟨?_, trivial⟩
          fun _ => trivial)
      exact paired_of_record List.mem_cons_self fun ks => ⟨rfl, rfl⟩
  | register auth now path didLog force domain =>
      refine hignore (hchecked _ _ _ fun w a hplan => ?_)
      obtain ⟨existing, ownerChanged, publication, didId, base, names, changes, -, hw⟩ :=
        registerPlan_spec hplan
      cases hw
      exact paired_registerBatch auth path didLog _ existing ownerChanged changes
        registerRecord_versionCount
  | publish auth now m didLog requestDomain =>
      have hplanned : (Prog.planned (some m)
          (publishPlan A auth now m didLog requestDomain)).Writes Paired := by
        refine Prog.writes_planned fun w a hplan => ?_
        obtain ⟨record, publication, names, changes, -, -, hw⟩ := publishPlan_spec hplan
        cases hw
        exact paired_publishBatch m didLog _ changes (Nat.succ_ne_zero record.versionCount)
      exact hplanned
  | agentName auth now m name didLog requestDomain op =>
      refine hignore (hchecked _ _ _ fun w a hplan => ?_)
      obtain ⟨record, publication, holder, effect, -, -, -, heffect, hw⟩ :=
        agentNamePlan_spec hplan
      cases hw
      exact paired_namedBatch didLog heffect (Nat.succ_ne_zero record.versionCount)
  | uploadWitness auth m witnessEntry =>
      refine hchecked _ _ _ fun w a hplan => ?_
      obtain ⟨content, hw⟩ := uploadWitnessPlan_spec hplan
      cases hw
      exact paired_of_clear fun ks => ⟨rfl, fun _ => Or.inr rfl⟩
  | delete auth m requestDomain =>
      refine hignore (hchecked _ _ _ fun w a hplan => ?_)
      obtain ⟨record, -, -, -, hw⟩ := deletePlan_spec hplan
      cases hw
      exact paired_deleteBatch m record.owner
  | changeOwner auth now m newOwner =>
      refine hignore (hchecked _ _ _ fun w a hplan => ?_)
      obtain ⟨record, -, -, hw | ⟨owner, hw⟩⟩ := changeOwnerPlan_spec hplan
      · cases hw
      · cases hw
        exact paired_of_record List.mem_cons_self fun ks => ⟨rfl, rfl⟩
  | setDisabled auth m disabled =>
      refine hchecked _ _ _ fun w a hplan => ?_
      obtain ⟨record, -, -, hw⟩ := setDisabledPlan_spec hplan
      cases hw
      exact paired_of_record List.mem_cons_self fun ks => ⟨rfl, rfl⟩
  | rollback auth now m targetVersion =>
      refine hignore (hchecked _ _ _ fun w a hplan => ?_)
      obtain ⟨record, content, keep, -, -, -, hkeep, hw⟩ := rollbackPlan_spec hplan
      unfold rollbackResult at hw
      simp only at hw
      split at hw
      · cases hw
      · cases hw
        exact paired_of_published (r := rolledBack A.libs record _ keep now)
          (fun ks => ⟨rfl, rfl⟩) (rollbackKeep_ne_zero hkeep)

end Requests

end DidHosting
