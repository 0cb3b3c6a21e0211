import DidHosting.Control.Run

/-!
# Requests that succeed

The specifications of the plans say what a request has checked when it
succeeds.  Here is the other direction, for the caller on whom the access
checks are vacuous: an administrator of a deployment without configured
domains.  Quotas and the host check do not apply to such a caller, and what
remains are the checks on the submitted content and on the slot.
-/

namespace DidHosting

open Text

/-- An administrator, on a deployment without configured domains. -/
structure Unrestricted (auth : AuthClaims) (s : ControlStore) : Prop where
  admin : auth.role = .admin
  no_domains : s.domains.entries = []

section

variable {A : AppState} {auth : AuthClaims} {s : ControlStore} {now : ℕ}

theorem Unrestricted.commit (h : Unrestricted auth s) (w : Batch) :
    Unrestricted auth (WriteBatch.commit w s) :=
  ⟨h.admin, h.no_domains⟩

theorem Unrestricted.authorized (h : Unrestricted auth s) (record : DidRecord) :
    authorized auth record = true := by
  simp [DidHosting.authorized, h.admin]

variable (h : Unrestricted auth s)
include h

theorem checkDidHostSafety_yields (did : String) :
    (checkDidHostSafety A auth did).Yields {s} () := by
  unfold checkDidHostSafety getAclEntry
  simp [h.no_domains]

theorem checkPublishedHost_yields (did : Option String) :
    (checkPublishedHost A auth did).Yields {s} () := by
  cases did with
  | none => exact Query.Yields.ret ()
  | some did => exact checkDidHostSafety_yields h did

theorem checkDidCountLimit_yields : (checkDidCountLimit auth).Yields {s} () := by
  unfold checkDidCountLimit
  simp [h.admin]

theorem checkTotalSizeLimit_yields (oldSize newSize : ℕ) :
    (checkTotalSizeLimit auth oldSize newSize).Yields {s} () := by
  unfold checkTotalSizeLimit
  simp [h.admin]

theorem getAuthorizedRecord_yields {mnemonic : String} {record : DidRecord}
    (hrec : s.record mnemonic = some record) :
    (getAuthorizedRecord mnemonic auth).Yields {s} record :=
  yields_getAuthorizedRecord.mpr ⟨⟨s, rfl, hrec⟩, h.authorized record⟩

/-! ## Registration -/

omit h in
theorem registerBinding_bound {publication : Publication} {didId path base : String}
    (hbound : validateDidIdMatchesRequest A.libs didId path base = .ok ()) :
    registerBinding A publication didId path base = .ok () := by
  unfold registerBinding
  rw [hbound]
  split <;> rfl

theorem registerPlan_yields {path didLog didId base : String} {force : Bool}
    {domain : Option String} {publication : Publication} {ownerChanged : Bool}
    {names : List AgentNameEntry} {changes : NameChanges}
    (hpub : verifyPublication A.libs (domain.getD "") path didLog (s.log path)
      (s.witness path) = .ok publication)
    (hbase : A.config.hostingUrl = some base)
    (hdid : publication.didId = some didId)
    (hbinding : registerBinding A publication didId path base = .ok ())
    (howner : registerOwnership auth force (s.record path) = .ok ownerChanged)
    (hnames : (reconcileAgentNames (existingNames (s.record path)) path
      (publication.agentNames A.libs (didHostOrEmpty A.libs didId))
      (didHostOrEmpty A.libs didId) now).Yields {s} (names, changes)) :
    ∃ response, (registerPlan A auth now path didLog force domain).Yields {s}
      (some (registerBatch auth path didLog (s.record path) ownerChanged
        (registerRecord A auth path didLog publication didId (s.record path) ownerChanged
          names now)
        changes (didHostOrEmpty A.libs didId)), response) := by
  have hpub' : verifiedPublication A.libs (domain.getD "") path didLog (s.log path)
      (s.witness path) = .ok publication := by
    rw [verifiedPublication, hpub]
  have hquota : (checkNewSlot auth (s.record path)).Yields {s} () := by
    unfold checkNewSlot
    split
    · exact checkDidCountLimit_yields h
    · exact Query.Yields.ret ()
  refine ⟨⟨path, trimEndMatches '/' base ++ "/" ++ path ++ "/did.jsonl"⟩, ?_⟩
  unfold registerPlan
  simp only [Query.yields_bind, Query.yields_read, Query.yields_ofExcept,
    Query.yields_okOr, Query.yields_pure]
  exact ⟨_, ⟨s, rfl, rfl⟩, _, ⟨s, rfl, rfl⟩, _, hpub', _, hbase, _, hdid, _,
    checkDidHostSafety_yields h didId, _, hbinding, _, ⟨s, rfl, rfl⟩, _, howner, _, hquota, _,
    checkTotalSizeLimit_yields h _ _, _, hnames, rfl⟩

/-! ## Publishing -/

theorem prepareRepublish_yields {mnemonic didLog : String} {record : DidRecord}
    {publication : Publication}
    (hrec : s.record mnemonic = some record)
    (hpath : validateSlotPath (some record.method) mnemonic = .ok ())
    (hpub : verifyPublication A.libs record.domain mnemonic didLog (s.log mnemonic)
      (s.witness mnemonic) = .ok publication)
    (hmethod : publication.method = record.method) :
    (prepareRepublish A auth now mnemonic didLog none).Yields {s}
      (republished A.libs record publication didLog now,
        slotDomain A.libs (republished A.libs record publication didLog now),
        publication) := by
  have hpub' : verifiedPublication A.libs record.domain mnemonic didLog (s.log mnemonic)
      (s.witness mnemonic) = .ok publication := by
    rw [verifiedPublication, hpub]
  have hsame : checkSameMethod A.libs mnemonic didLog record = .ok () := by
    unfold checkSameMethod
    rw [verifyPublication_method hpub]
    simp [hmethod]
  have hdomain : checkRequestDomain A.libs none publication.didId = .ok () := rfl
  unfold prepareRepublish
  simp only [Query.yields_bind, Query.yields_read, Query.yields_ofExcept,
    Query.yields_pure]
  refine ⟨_, ⟨s, rfl, rfl⟩, (), ?_, record, getAuthorizedRecord_yields h hrec, _, hsame, _,
    ⟨s, rfl, rfl⟩, _, ⟨s, rfl, rfl⟩, _, hpub', _, checkTotalSizeLimit_yields h _ _, _,
    checkPublishedHost_yields h _, _, hdomain, rfl⟩
  rw [hrec]
  exact hpath

end

/-! ## Names -/

section Names

variable {s : ControlStore} {mnemonic domain : String}

theorem claimNames_yields {claims : List String}
    (hfree : ∀ n ∈ claims, validateAgentNameBinding n mnemonic = .ok () ∧
      (s.nameHolder domain n = none ∨ s.nameHolder domain n = some mnemonic)) :
    (claimNames mnemonic domain claims).Yields {s} claims := by
  induction claims with
  | nil => exact Query.Yields.ret []
  | cons n claims ih =>
      obtain ⟨hbind, hholder⟩ := hfree n List.mem_cons_self
      have ih := ih fun x hx => hfree x (List.mem_cons_of_mem _ hx)
      rw [claimNames, hbind]
      simp only [Query.yields_bind, Query.yields_read, Query.yields_require,
        Query.yields_pure]
      refine ⟨_, ⟨s, rfl, rfl⟩, (), ?_, claims, ih, rfl⟩
      rcases hholder with h | h <;> simp [h]

theorem releaseNames_yields (names : List String) :
    (releaseNames mnemonic domain names).Yields {s}
      (names.filter fun n => s.nameHolder domain n = some mnemonic) := by
  induction names with
  | nil => exact Query.Yields.ret []
  | cons n names ih =>
      rw [releaseNames]
      simp only [Query.yields_bind, Query.yields_read, Query.yields_pure]
      refine ⟨_, ⟨s, rfl, rfl⟩, _, ih, ?_⟩
      rw [List.filter_cons]
      simp

theorem reconcileAgentNames_yields (names : List AgentNameEntry) {claims : List String}
    (now : ℕ)
    (hfree : ∀ n ∈ claims, validateAgentNameBinding n mnemonic = .ok () ∧
      (s.nameHolder domain n = none ∨ s.nameHolder domain n = some mnemonic)) :
    (reconcileAgentNames names mnemonic claims domain now).Yields {s}
      (reconciledNames names claims now,
        ⟨claims, (droppedNames names claims).filter fun n =>
          s.nameHolder domain n = some mnemonic⟩) := by
  unfold reconcileAgentNames
  simp only [Query.yields_bind, Query.yields_pure]
  exact ⟨claims, claimNames_yields hfree, _, releaseNames_yields _, rfl⟩

end Names

/-! ## Steps -/

section Steps

variable {A : AppState} {auth : AuthClaims} {s : ControlStore} {now : ℕ}
  {mnemonic didLog : String}

theorem step_register {path : String} {force : Bool} {domain : Option String} {w : Batch}
    {response : RequestUriResponse}
    (hpre : registerPrecheck A auth path didLog = .ok ())
    (hplan : (registerPlan A auth now path didLog force domain).Yields {s}
      (some w, response)) :
    Event.step A s (.serve (.register auth now path didLog force domain)) =
      WriteBatch.commit w s := by
  change (((ignore (registerDidAtomic A auth now path didLog force domain))).run s).2 = _
  rw [run_ignore, registerDidAtomic, Prog.run_check_bind_ok _ () hpre,
    Prog.run_planned_ok hplan]

theorem step_publish {requestDomain : Option String} {w : Batch}
    (hplan : (publishPlan A auth now mnemonic didLog requestDomain).Yields {s}
      (some w, ())) :
    Event.step A s (.serve (.publish auth now mnemonic didLog requestDomain)) =
      WriteBatch.commit w s := by
  change ((publishDid A auth now mnemonic didLog requestDomain).run s).2 = _
  rw [publishDid, Prog.run_planned_ok hplan]

theorem deletePlan_yields (h : Unrestricted auth s) {record : DidRecord}
    (hrec : s.record mnemonic = some record) :
    (deletePlan A auth mnemonic none).Yields {s}
      (some (deleteBatch mnemonic record.owner), record.didId) := by
  have hdomain : ensureSlotDomainMatches A.libs record none = .ok () := rfl
  unfold deletePlan
  simp only [Query.yields_bind, Query.yields_ofExcept, Query.yields_pure]
  exact ⟨record, getAuthorizedRecord_yields h hrec, (), checkPublishedHost_yields h _, _,
    hdomain, rfl⟩

theorem step_delete (h : Unrestricted auth s) {record : DidRecord}
    (hpath : validateMnemonic mnemonic = .ok ()) (hrec : s.record mnemonic = some record) :
    Event.step A s (.serve (.delete auth mnemonic none)) =
      WriteBatch.commit (deleteBatch mnemonic record.owner) s := by
  change ((ignore (deleteDid A auth mnemonic none)).run s).2 = _
  rw [run_ignore, deleteDid, Prog.run_check_bind_ok _ () hpath,
    Prog.run_planned_ok (deletePlan_yields h hrec)]

theorem setDisabledPlan_yields (h : Unrestricted auth s) {record : DidRecord}
    (hrec : s.record mnemonic = some record) (disabled : Bool) :
    (setDisabledPlan A auth mnemonic disabled).Yields {s}
      (some [.insertDid mnemonic { record with disabled := disabled }], ()) := by
  unfold setDisabledPlan
  simp only [Query.yields_bind, Query.yields_pure]
  exact ⟨record, getAuthorizedRecord_yields h hrec, (), checkPublishedHost_yields h _, rfl⟩

theorem rollbackPlan_yields (h : Unrestricted auth s) {record : DidRecord} {content : String}
    {targetVersion : Option ℕ} {keep : ℕ}
    (hrec : s.record mnemonic = some record) (hlog : s.log mnemonic = some content)
    (hkeep : rollbackKeep (entryCount content) targetVersion = .ok keep) :
    (rollbackPlan A auth now mnemonic targetVersion).Yields {s}
      (rollbackResult A now mnemonic content record keep) := by
  unfold rollbackPlan
  simp only [Query.yields_bind, Query.yields_read, Query.yields_okOr, Query.yields_ofExcept,
    Query.yields_pure]
  exact ⟨record, getAuthorizedRecord_yields h hrec, (), checkPublishedHost_yields h _, _,
    ⟨s, rfl, rfl⟩, content, hlog, keep, hkeep, rfl⟩

theorem step_rollback (h : Unrestricted auth s) {record : DidRecord} {content : String}
    {targetVersion : Option ℕ} {keep : ℕ} (hpath : validateMnemonic mnemonic = .ok ())
    (hrec : s.record mnemonic = some record) (hlog : s.log mnemonic = some content)
    (hkeep : rollbackKeep (entryCount content) targetVersion = .ok keep)
    (hlt : keep < entryCount content) :
    Event.step A s (.serve (.rollback auth now mnemonic targetVersion)) =
      WriteBatch.commit [BatchOp.insertLog mnemonic (truncateLog content keep),
        .insertDid mnemonic (rolledBack A.libs record (truncateLog content keep) keep now),
        .removeWitness mnemonic] s := by
  have hplan : (rollbackPlan A auth now mnemonic targetVersion).Yields {s} _ :=
    rollbackPlan_yields h hrec hlog hkeep
  unfold rollbackResult at hplan
  rw [if_neg (by omega)] at hplan
  change ((ignore (rollbackDidTo A auth now mnemonic targetVersion)).run s).2 = _
  rw [run_ignore, rollbackDidTo, Prog.run_check_bind_ok _ () hpath,
    Prog.run_planned_ok hplan]

end Steps

end DidHosting
