import DidHosting.Support.Within
import DidHosting.Control.Reference
import DidHosting.Control.Quotas

/-!
# Slots of other owners

A request is authorised by the record it reads.  While a slot's record is that of another
owner, a caller who is no administrator cannot change a row of the slot, whatever the order
in which the reads and commits of concurrent requests are made.
-/

namespace DidHosting

open Text

/-! ## The rows of a slot -/

/-- The slot whose record, log, witness file or owner row an operation is on. -/
def BatchOp.rowsOf : BatchOp → Option String
  | .insertOwner _ m => some m
  | .removeOwner _ m => some m
  | op => op.slot

/-- A batch on the rows of slot `m`, and on names. -/
def OnSlot (m : String) (batch : Batch) : Prop :=
  ∀ op ∈ batch, op.rowsOf = none ∨ op.rowsOf = some m

/-- A batch that leaves the rows of slot `m`. -/
def SparesSlot (m : String) (batch : Batch) : Prop :=
  ∀ op ∈ batch, op.rowsOf ≠ some m

/-- Two stores have the same rows of slot `m`. -/
structure SameRows (m : String) (s t : ControlStore) : Prop where
  record : t.record m = s.record m
  log : t.log m = s.log m
  witness : t.witness m = s.witness m
  owners : ∀ owner, t.ks.ownerIndex.lookup (owner, m) = s.ks.ownerIndex.lookup (owner, m)

section

variable {m m' : String} {s t u : ControlStore} {w w' : Batch}

theorem OnSlot.spares (h : OnSlot m' w) (hne : m' ≠ m) : SparesSlot m w := by
  intro op hop hm
  rcases h op hop with hnone | hsome
  · rw [hnone] at hm
    contradiction
  · rw [hsome] at hm
    exact hne (Option.some.inj hm)

theorem onSlot_nil : OnSlot m [] := by
  intro op hop
  contradiction

theorem onSlot_cons {op : BatchOp} (hop : op.rowsOf = none ∨ op.rowsOf = some m)
    (h : OnSlot m w) : OnSlot m (op :: w) := by
  intro o ho
  rcases List.mem_cons.mp ho with rfl | ho
  · exact hop
  · exact h o ho

theorem onSlot_append (h : OnSlot m w) (h' : OnSlot m w') : OnSlot m (w ++ w') := by
  intro op hop
  exact (List.mem_append.mp hop).elim (h op) (h' op)

theorem onSlot_of_onNames (h : ∀ op ∈ w, op.onNames = true) : OnSlot m w := by
  intro op hop
  have hnames := h op hop
  cases op with
  | insertName d n m' => exact Or.inl rfl
  | removeName d n => exact Or.inl rfl
  | _ => contradiction

theorem onSlot_nameBatch (changes : NameChanges) (domain : String) :
    OnSlot m (nameBatch changes domain m) := by
  apply onSlot_of_onNames
  intro op hop
  unfold nameBatch at hop
  rcases List.mem_append.mp hop with hop | hop
  · obtain ⟨n, -, rfl⟩ := List.mem_map.mp hop
    rfl
  · obtain ⟨n, -, rfl⟩ := List.mem_map.mp hop
    rfl

theorem SameRows.refl (m : String) (s : ControlStore) : SameRows m s s :=
  ⟨rfl, rfl, rfl, fun _ => rfl⟩

theorem SameRows.trans (h : SameRows m s t) (h' : SameRows m t u) : SameRows m s u :=
  ⟨h'.record.trans h.record, h'.log.trans h.log, h'.witness.trans h.witness,
    fun owner => (h'.owners owner).trans (h.owners owner)⟩

theorem lookup_owner_commit (h : SparesSlot m w) (ks : DidsKs) (owner : String) :
    (DidsKs.commit w ks).ownerIndex.lookup (owner, m) = ks.ownerIndex.lookup (owner, m) := by
  induction w generalizing ks with
  | nil => rfl
  | cons op w ih =>
      have hop : op.rowsOf ≠ some m := h op List.mem_cons_self
      rw [DidsKs.commit_cons, ih fun o ho => h o (List.mem_cons_of_mem _ ho)]
      cases op with
      | insertOwner o m' =>
          apply AList.lookup_insert_ne
          rintro ⟨⟩
          exact hop rfl
      | removeOwner o m' =>
          apply AList.lookup_erase_ne
          rintro ⟨⟩
          exact hop rfl
      | _ => rfl

/-- A batch on other slots leaves the rows of slot `m`. -/
theorem SparesSlot.sameRows (h : SparesSlot m w) (s : ControlStore) :
    SameRows m s (WriteBatch.commit w s) := by
  have hslot : ∀ op ∈ w, op.slot ≠ some m := by
    intro op hop
    have hrows := h op hop
    cases op with
    | insertOwner o m' => exact (Option.some_ne_none m).symm
    | removeOwner o m' => exact (Option.some_ne_none m).symm
    | _ => exact hrows
  obtain ⟨hrecord, hlog, hwitness⟩ := DidsKs.commit_other_slot hslot s.ks
  exact ⟨hrecord, hlog, hwitness, lookup_owner_commit h s.ks⟩

end

/-! ## Requests of bystanders -/

section

variable {A : AppState} {m : String} {s : ControlStore} {r : DidRecord} {auth : AuthClaims}

/-- An authorised read of a slot that is another owner's fails. -/
theorem ne_of_authorized {V : Set ControlStore} (hV : ∀ t ∈ V, t.record m = some r)
    (hother : authorized auth r = false) {m' : String} {r' : DidRecord}
    (hread : ∃ t ∈ V, t.record m' = some r') (hauth : authorized auth r' = true) : m' ≠ m := by
  rintro rfl
  obtain ⟨t, ht, hr'⟩ := hread
  rw [hV t ht] at hr'
  cases hr'
  rw [hother] at hauth
  contradiction

theorem uploadWitnessPlan_authorized {V : Set ControlStore} {m' : String} {witnessEntry : Json}
    {x : Option Batch × Unit} (h : (uploadWitnessPlan A auth m' witnessEntry).Yields V x) :
    ∃ record, (∃ t ∈ V, t.record m' = some record) ∧ authorized auth record = true := by
  unfold uploadWitnessPlan at h
  simp only [Query.yields_bind, yields_getAuthorizedRecord] at h
  obtain ⟨record, ⟨hread, hauth⟩, _⟩ := h
  exact ⟨record, hread, hauth⟩

theorem onSlot_forceReplaceBatch (auth : AuthClaims) (m' : String) (r' : DidRecord) :
    OnSlot m' (forceReplaceBatch auth m' r') := by
  unfold forceReplaceBatch
  refine onSlot_cons (Or.inr rfl) (onSlot_cons (Or.inr rfl) ?_)
  change OnSlot m' (if r'.owner ≠ auth.did then [.removeOwner r'.owner m'] else [])
  split
  · exact onSlot_cons (Or.inr rfl) onSlot_nil
  · exact onSlot_nil

theorem onSlot_createBatch (auth : AuthClaims) (m' : String) (domain : Option String)
    (now : ℕ) : OnSlot m' (createBatch auth m' domain now) :=
  onSlot_cons (Or.inr rfl) (onSlot_cons (Or.inr rfl) onSlot_nil)

theorem onSlot_registerBatch (auth : AuthClaims) (m' didLog : String)
    (existing : Option DidRecord) (ownerChanged : Bool) (record : DidRecord)
    (changes : NameChanges) (domain : String) :
    OnSlot m' (registerBatch auth m' didLog existing ownerChanged record changes domain) := by
  have htakeover : OnSlot m' (takeoverBatch m' existing ownerChanged) := by
    unfold takeoverBatch
    split
    · exact onSlot_cons (Or.inr rfl) (onSlot_cons (Or.inr rfl) onSlot_nil)
    · exact onSlot_nil
  unfold registerBatch
  refine onSlot_append (onSlot_append (onSlot_append ?_ htakeover) ?_)
    (onSlot_nameBatch changes domain)
  · exact onSlot_cons (Or.inr rfl) onSlot_nil
  · exact onSlot_cons (Or.inr rfl) (onSlot_cons (Or.inr rfl) onSlot_nil)

theorem onSlot_publishBatch (m' didLog : String) (record : DidRecord) (changes : NameChanges)
    (domain : String) : OnSlot m' (publishBatch m' didLog record changes domain) :=
  onSlot_append (onSlot_cons (Or.inr rfl) (onSlot_cons (Or.inr rfl) onSlot_nil))
    (onSlot_nameBatch changes domain)

variable {V : Set ControlStore}

/-- What is asked of the operation of a request that names slot `m'`. -/
abbrev SparesOther {α : Type} (V : Set ControlStore) (m m' : String) (p : ControlM α) : Prop :=
  p.Within V (SparesSlot m) fun _ => some m' ≠ some m

/-- A plan for a slot of its caller commits nothing on the slot of another owner. -/
theorem sparesOther_planned {α : Type} {m' : String} {key : Option String}
    {plan : ControlQ (Option Batch × α)}
    (hplan : ∀ w a, plan.Yields V (w, a) → m' ≠ m ∧ ∀ v, w = some v → OnSlot m' v) :
    SparesOther V m m' (Prog.planned key plan) := by
  apply Prog.within_planned
  intro w a hyields
  obtain ⟨hne, hslot⟩ := hplan w a hyields
  exact ⟨fun v hv => (hslot v hv).spares hne, fun heq => hne (Option.some.inj heq)⟩

theorem sparesOther_check {α β : Type} {m' : String} {pre : Except AppError β} {p : ControlM α}
    (h : SparesOther V m m' p) : SparesOther V m m' (Prog.check pre >>= fun _ => p) :=
  Prog.within_bind (Prog.within_check (Q := fun _ => True) fun _ _ => trivial) fun _ _ => h

theorem sparesOther_ignore {α : Type} {m' : String} {p : ControlM α}
    (h : SparesOther V m m' p) : SparesOther V m m' (ignore p) :=
  Prog.within_bind h fun _ h => h

/-- A registration over the slot of another owner is refused. -/
theorem not_registerOwnership {force ownerChanged : Bool} (hother : authorized auth r = false) :
    registerOwnership auth force (some r) ≠ .ok ownerChanged := by
  unfold authorized at hother
  rw [Bool.or_eq_false_iff, decide_eq_false_iff_not, decide_eq_false_iff_not] at hother
  unfold registerOwnership
  simp only
  rw [if_neg hother.1, if_pos hother.2]
  intro h
  cases h

/-- A slot is chosen for a create that the caller may take. -/
theorem within_createPath (hV : ∀ t ∈ V, t.record m = some r)
    (hother : authorized auth r = false) (path : Option String) (force : Bool)
    (draws : List String) :
    (createPath auth path force draws).Within V (SparesSlot m)
      fun m' => m' ≠ m ∧ ∀ p, path = some p → p = m' := by
  have hreplaced : ∀ (p msg : String) (existing : Option DidRecord),
      (replacedRecord auth p force msg).Yields V existing → p ≠ m := by
    rintro p msg existing h rfl
    unfold replacedRecord at h
    simp only [Query.yields_bind, Query.yields_read] at h
    obtain ⟨row, ⟨t, ht, rfl⟩, h⟩ := h
    rw [hV t ht, Option.isNone_some, if_neg Bool.false_ne_true] at h
    simp only [Query.yields_bind, Query.yields_require, Query.yields_read,
      Query.yields_okOr, Query.yields_pure] at h
    obtain ⟨_, _, row, ⟨u, hu, rfl⟩, r', hr', _, hauth, _⟩ := h
    exact ne_of_authorized hV hother ⟨u, hu, hr'⟩ hauth rfl
  have hresolve : ∀ p msg : String,
      (resolvePathForCreate auth p force msg).Within V (SparesSlot m)
        fun m' => m' ≠ m ∧ ∀ q, some p = some q → q = m' := by
    intro p msg
    unfold resolvePathForCreate
    refine Prog.within_bind
      (Prog.within_ofQuery (Q := fun _ => p ≠ m) (hreplaced p msg)) ?_
    intro existing hne
    refine Prog.within_bind (Prog.within_writeOpt (Q := fun _ => True) ?_ trivial) ?_
    · intro v hv
      obtain ⟨r', -, rfl⟩ := Option.map_eq_some_iff.mp hv
      exact (onSlot_forceReplaceBatch auth p r').spares hne
    · intro _ _
      exact ⟨hne, fun q hq => (Option.some.inj hq).symm⟩
  have hfresh : ∀ (draws : List String) m', (generateUniqueMnemonic draws).Yields V m' →
      m' ≠ m := by
    intro draws
    induction draws with
    | nil =>
        intro m' h
        cases h
    | cons d draws ih =>
        intro m' h
        rw [generateUniqueMnemonic] at h
        simp only [Query.yields_bind, Query.yields_read] at h
        obtain ⟨row, ⟨t, ht, rfl⟩, h⟩ := h
        by_cases hnone : (t.record d).isNone = true
        · rw [if_pos hnone, Query.yields_pure] at h
          rintro rfl
          subst h
          rw [hV t ht] at hnone
          contradiction
        · rw [if_neg hnone] at h
          exact ih m' h
  cases path with
  | none =>
      apply Prog.within_ofQuery
      intro m' h
      exact ⟨hfresh _ m' h, fun p hp => by contradiction⟩
  | some p =>
      unfold createPath
      simp only
      split
      · exact Prog.within_bind (Prog.within_check (Q := fun _ => True) fun _ _ => trivial)
          fun _ _ => hresolve p _
      · exact Prog.within_bind (Prog.within_check (Q := fun _ => True) fun _ _ => trivial)
          fun _ _ => hresolve p _

/-- A request of a bystander commits nothing on the slot, and is not answered with success if
it names the slot. -/
theorem within_prog (A : AppState) (hV : ∀ t ∈ V, t.record m = some r) (op : Op)
    (hother : authorized op.auth r = false) :
    (op.prog A).Within V (SparesSlot m) fun _ => op.mnemonic ≠ some m := by
  cases op with
  | create auth now path force domain draws =>
      refine Prog.within_bind (Q := fun _ => path ≠ some m) ?_ fun _ h => h
      refine Prog.within_bind (within_createPath hV hother path force draws) ?_
      rintro m' ⟨hne, hpath⟩
      refine Prog.within_bind (Prog.within_ofQuery (Q := fun _ => True) fun _ _ => trivial) ?_
      intro _ _
      refine ⟨(onSlot_createBatch auth m' domain now).spares hne, ?_⟩
      rintro rfl
      exact hne (hpath m rfl).symm
  | register auth now path didLog force domain =>
      refine sparesOther_ignore (sparesOther_check (sparesOther_planned ?_))
      intro w a h
      obtain ⟨existing, ownerChanged, p, did, base, names, changes, hreg, hw⟩ :=
        registerPlan_spec h
      refine ⟨?_, ?_⟩
      · rintro rfl
        obtain ⟨t, ht, hread⟩ := hreg.existing_read
        have howner := hreg.ownership
        rw [← hread, hV t ht] at howner
        exact not_registerOwnership hother howner
      · rintro v rfl
        cases hw
        exact onSlot_registerBatch _ _ _ _ _ _ _ _
  | publish auth now m' didLog requestDomain =>
      change SparesOther V m m'
        (Prog.planned (some m') (publishPlan A auth now m' didLog requestDomain))
      refine sparesOther_planned ?_
      intro w a h
      obtain ⟨record, p, names, changes, hrep, -, hw⟩ := publishPlan_spec h
      refine ⟨ne_of_authorized hV hother hrep.record_read hrep.allowed, ?_⟩
      rintro v rfl
      cases hw
      exact onSlot_publishBatch _ _ _ _ _
  | agentName auth now m' name didLog requestDomain nameOp =>
      refine sparesOther_ignore (sparesOther_check (sparesOther_planned ?_))
      intro w a h
      obtain ⟨record, p, holder, effect, hrep, -, -, heffect, hw⟩ := agentNamePlan_spec h
      refine ⟨ne_of_authorized hV hother hrep.record_read hrep.allowed, ?_⟩
      rintro v rfl
      cases hw
      exact onSlot_append (onSlot_cons (Or.inr rfl) (onSlot_cons (Or.inr rfl) onSlot_nil))
        (onSlot_of_onNames (agentNameEffect_onNames heffect))
  | uploadWitness auth m' witnessEntry =>
      refine sparesOther_check (sparesOther_planned ?_)
      intro w a h
      obtain ⟨record, hread, hauth⟩ := uploadWitnessPlan_authorized h
      obtain ⟨content, hw⟩ := uploadWitnessPlan_spec h
      refine ⟨ne_of_authorized hV hother hread hauth, ?_⟩
      rintro v rfl
      cases hw
      exact onSlot_cons (Or.inr rfl) onSlot_nil
  | delete auth m' requestDomain =>
      refine sparesOther_ignore (sparesOther_check (sparesOther_planned ?_))
      intro w a h
      obtain ⟨record, hread, hauth, -, hw⟩ := deletePlan_spec h
      refine ⟨ne_of_authorized hV hother hread hauth, ?_⟩
      rintro v rfl
      cases hw
      exact onSlot_cons (Or.inr rfl) (onSlot_cons (Or.inr rfl)
        (onSlot_cons (Or.inr rfl) (onSlot_cons (Or.inr rfl) onSlot_nil)))
  | changeOwner auth now m' newOwner =>
      refine sparesOther_ignore (sparesOther_check (sparesOther_planned ?_))
      intro w a h
      obtain ⟨record, hread, hauth, hnone | ⟨owner, hw⟩⟩ := changeOwnerPlan_spec h
      · refine ⟨ne_of_authorized hV hother hread hauth, ?_⟩
        rintro v rfl
        cases hnone
      · refine ⟨ne_of_authorized hV hother hread hauth, ?_⟩
        rintro v rfl
        cases hw
        exact onSlot_cons (Or.inr rfl) (onSlot_cons (Or.inr rfl)
          (onSlot_cons (Or.inr rfl) onSlot_nil))
  | setDisabled auth m' disabled =>
      refine sparesOther_check (sparesOther_planned ?_)
      intro w a h
      obtain ⟨record, hread, hauth, hw⟩ := setDisabledPlan_spec h
      refine ⟨ne_of_authorized hV hother hread hauth, ?_⟩
      rintro v rfl
      cases hw
      exact onSlot_cons (Or.inr rfl) onSlot_nil
  | rollback auth now m' targetVersion =>
      refine sparesOther_ignore (sparesOther_check (sparesOther_planned ?_))
      intro w a h
      obtain ⟨record, content, keep, hread, hauth, -, -, hw⟩ := rollbackPlan_spec h
      refine ⟨ne_of_authorized hV hother hread hauth, ?_⟩
      rintro v rfl
      unfold rollbackResult at hw
      simp only at hw
      split at hw
      · cases hw
      · cases hw
        exact onSlot_cons (Or.inr rfl) (onSlot_cons (Or.inr rfl)
          (onSlot_cons (Or.inr rfl) onSlot_nil))

end

/-- Requests of callers who neither own a slot nor are administrators, whatever their reads and
commits see of one another: the slot's rows stay as they are, and none of the requests that
names the slot succeeds. -/
theorem bystanders_run {ι : Type} [DecidableEq ι] (A : AppState) (s : ControlStore) (m : String)
    (r : DidRecord) (hread : s.record m = some r) (ops : ι → Op)
    (hother : ∀ i, authorized (ops i).auth r = false) (schedule : List ι) :
    let end_ := Run.exec Machine.step (Machine.start s fun i => (ops i).prog A) schedule
    SameRows m s end_.store ∧
      ∀ i, (ops i).mnemonic = some m → ∀ a, (end_.thread i).prog ≠ .ret a := by
  intro end_
  have hend := Machine.allWithin_exec (V := {t | SameRows m s t}) (P := SparesSlot m)
    (fun w t hw ht => SameRows.trans ht (hw.sameRows t))
    (fun i => within_prog A (fun t ht => ht.record.trans hread) (ops i) (hother i))
    (SameRows.refl m s) schedule
  refine ⟨hend.store, ?_⟩
  intro i hnames a hret
  exact hend.returned hret hnames

section Samples

open Reference

/-- Another owner asks to disable a slot and to have it, the two requests alternating. -/
theorem bystanders_run_two :
    let schedule := [true, false, false, true, true, false]
    let owner : AuthClaims := ⟨"did:example:owner", .owner⟩
    let other : AuthClaims := ⟨"did:example:other", .owner⟩
    let r := emptyRecord owner "al" none 1
    let s : ControlStore := ⟨{ DidsKs.empty with dids := AList.singleton "al" r }, ∅, ∅⟩
    let ops : Bool → Op := fun second =>
      if second then .changeOwner other 2 "al" "did:example:other" else .setDisabled other "al" true
    let end_ := Run.exec Machine.step (Machine.start s fun i => (ops i).prog control) schedule
    SameRows "al" s end_.store ∧
      ∀ i, (ops i).mnemonic = some "al" → ∀ a, (end_.thread i).prog ≠ .ret a := by
  intro schedule owner other r s ops
  have hother : ∀ i, authorized (ops i).auth r = false := by
    intro i
    cases i <;> decide
  exact bystanders_run control s "al" r rfl ops hother schedule

end Samples

end DidHosting
