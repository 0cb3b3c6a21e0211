import DidHosting.Acl.Changes
import DidHosting.Support.Interleaving

/-!
# The last administrator

The tasks run under one lock, so between what a task has read and its write
only redemptions write.  A redemption that replaces no Admin by another role
leaves every Admin in place, and a task writes over an Admin only if it has seen another one, with
one exception: a scope reduction that leaves no domain deletes the entry
without looking.
-/

namespace DidHosting.Acl

/-- An Admin's entry. -/
def IsAdmin (s : AclKs) (did : String) : Prop :=
  ∃ row, s.get did = some row ∧ row.role = .admin

def HasAdmin (s : AclKs) : Prop :=
  ∃ did, IsAdmin s did

/-- The list has an Admin other than `subject`. -/
def OtherAdmin (s : AclKs) (subject : String) : Prop :=
  ∃ did, did ≠ subject ∧ IsAdmin s did

/-- The library guard refuses exactly when removing the target leaves no
privileged entry. -/
def Framework.GuardsLast (F : Framework) : Prop :=
  ∀ entries privileged target, (F.rejectLastAuthority entries privileged target).isSome ↔
    ∀ e ∈ entries, privileged e = true → target e = true

/-- Every Admin of `t` is one in `s`. -/
def KeepsAdmins (t s : AclKs) : Prop :=
  ∀ did, IsAdmin t did → IsAdmin s did

section

variable {F : Framework} {s t : AclKs} {did : String} {row : AclRow}

theorem isAdmin_store : IsAdmin (s.store row) did ↔
    if did = row.did then row.role = .admin else IsAdmin s did := by
  unfold IsAdmin
  rw [AclKs.get_store]
  split
  · simp
  · exact Iff.rfl

theorem isAdmin_delete {subject : String} : IsAdmin (s.delete subject) did ↔
    did ≠ subject ∧ IsAdmin s did := by
  unfold IsAdmin
  rw [AclKs.get_delete]
  split
  · rename_i heq
    simp [heq]
  · rename_i hne
    simp [hne]

theorem hasAdmin_store (h : row.role = .admin ∨ OtherAdmin s row.did) :
    HasAdmin (s.store row) := by
  rcases h with hadmin | ⟨did, hne, hother⟩
  · exact ⟨row.did, isAdmin_store.mpr (by rw [if_pos rfl]; exact hadmin)⟩
  · exact ⟨did, isAdmin_store.mpr (by rw [if_neg hne]; exact hother)⟩

theorem hasAdmin_delete {subject : String} (h : OtherAdmin s subject) :
    HasAdmin (s.delete subject) := by
  obtain ⟨did, hne, hother⟩ := h
  exact ⟨did, isAdmin_delete.mpr ⟨hne, hother⟩⟩

theorem OtherAdmin.mono {subject : String} (hkeep : KeepsAdmins t s)
    (h : OtherAdmin t subject) : OtherAdmin s subject := by
  obtain ⟨did, hne, hadmin⟩ := h
  exact ⟨did, hne, hkeep did hadmin⟩

/-- An Admin is another one where the subject is none. -/
theorem HasAdmin.other {subject : String} (h : HasAdmin t) (hnot : ¬ IsAdmin t subject) :
    OtherAdmin t subject := by
  obtain ⟨did, hadmin⟩ := h
  refine ⟨did, ?_, hadmin⟩
  rintro rfl
  exact hnot hadmin

theorem not_isAdmin_of_none (h : t.get did = none) : ¬ IsAdmin t did := by
  rintro ⟨row, hrow, -⟩
  rw [h] at hrow
  cases hrow

theorem not_isAdmin_of_role (h : t.get did = some row) (hrole : row.role ≠ .admin) :
    ¬ IsAdmin t did := by
  rintro ⟨row', hrow', hadmin⟩
  rw [h] at hrow'
  cases hrow'
  exact hrole hadmin

theorem otherAdmin_of_mem {subject : String} {e : AclRow} (hmem : e ∈ t.list)
    (hadmin : e.role = .admin) (hne : e.did ≠ subject) : OtherAdmin t subject :=
  ⟨e.did, hne, e, AclKs.mem_list.mp hmem, hadmin⟩

theorem otherAdmin_of_otherAdmins {subject : String} (h : otherAdmins subject t.list ≠ []) :
    OtherAdmin t subject := by
  obtain ⟨did, hdid⟩ := List.exists_mem_of_ne_nil _ h
  obtain ⟨e, he, rfl⟩ := List.mem_map.mp hdid
  obtain ⟨hmem, hcond⟩ := List.mem_filter.mp he
  rw [Bool.and_eq_true, decide_eq_true_iff, decide_eq_true_iff] at hcond
  exact otherAdmin_of_mem hmem hcond.1 hcond.2

theorem otherAdmin_of_guard (hguard : F.GuardsLast) {subject : String}
    (h : F.rejectLastAuthority t.list (fun e => e.role = .admin) (fun e => e.did = subject) =
      none) : OtherAdmin t subject := by
  have hnot : ¬ ∀ e ∈ t.list, decide (e.role = .admin) = true →
      decide (e.did = subject) = true := by
    intro hall
    have hsome := (hguard t.list _ _).mpr hall
    rw [h] at hsome
    cases hsome
  push Not at hnot
  obtain ⟨e, hmem, hadmin, hne⟩ := hnot
  exact otherAdmin_of_mem hmem (of_decide_eq_true hadmin) (by simpa using hne)

end

/-! ## One write -/

/-- The write spares the last Admin.  A scope reduction that leaves no domain
does not delete the only Admin, and a redemption replaces no Admin by another
role.  `V` are the stores the operation has read, `s` the one it writes to. -/
def Spares (F : Framework) (task : AclTask) (V : Set AclKs) (s : AclKs) : Prop :=
  match task with
  | .revoke r => ∀ t ∈ V, ∀ existing names, t.get r.subject = some existing →
      parseDomainScopes F r.scopes = .ok names →
      applyScopeReduction existing.domains names = .entryRemoved →
      existing.role = .admin → OtherAdmin s r.subject
  | .redeem r => IsAdmin s r.subject →
      ∀ role, r.role = some role → parseRole role = .ok .admin
  | _ => True

section

variable {F : Framework} {task : AclTask} {V : Set AclKs} {w : AclWrite} {s : AclKs}

theorem Change.hasAdmin (hguard : F.GuardsLast) (h : Change F V task w)
    (hspares : Spares F task V s) (hs : HasAdmin s)
    (hread : task.lock = .aclWrite → ∀ t ∈ V, HasAdmin t ∧ KeepsAdmins t s) :
    HasAdmin (AclKs.commit w s) := by
  have hother : task.lock = .aclWrite → ∀ t ∈ V, ∀ subject, ¬ IsAdmin t subject →
      OtherAdmin s subject :=
    fun hlock t ht subject hnot => ((hread hlock t ht).1.other hnot).mono (hread hlock t ht).2
  cases h with
  | @granted r proposed t hlocal ht hnone =>
      apply hasAdmin_store
      exact Or.inr (hother rfl t ht _ (not_isAdmin_of_none hnone))
  | @regranted r proposed t current hlocal ht hcurrent hrole =>
      apply hasAdmin_store
      by_cases hadmin : current.role = .admin
      · exact Or.inl hadmin
      · have hdid : current.did = proposed.did := AclKs.did_of_get hcurrent
        have hnot : ¬ IsAdmin t current.did := by
          rw [hdid]
          exact not_isAdmin_of_role hcurrent hadmin
        exact Or.inr (hother rfl t ht _ hnot)
  | @removed r t hscopes ht hrefuses =>
      apply hasAdmin_delete
      exact (otherAdmin_of_guard hguard hrefuses).mono (hread rfl t ht).2
  | @emptied r t existing names hscopes ht hexisting hnames hremoved =>
      apply hasAdmin_delete
      by_cases hadmin : existing.role = .admin
      · exact hspares t ht existing names hexisting hnames hremoved hadmin
      · exact hother rfl t ht _ (not_isAdmin_of_role hexisting hadmin)
  | @narrowed r t existing names scope hscopes ht hexisting hnames hnarrowed =>
      apply hasAdmin_store
      by_cases hadmin : existing.role = .admin
      · exact Or.inl hadmin
      · have hdid : existing.did = r.subject := AclKs.did_of_get hexisting
        have hnot : ¬ IsAdmin t existing.did := by
          rw [hdid]
          exact not_isAdmin_of_role hexisting hadmin
        exact Or.inr (hother rfl t ht _ hnot)
  | @changed r t entry toRole ht hentry hto hne hdemotion =>
      apply hasAdmin_store
      have hdid : entry.did = r.subject := AclKs.did_of_get hentry
      by_cases hadmin : entry.role = .admin
      · obtain ⟨u, hu, hothers⟩ := hdemotion hadmin
        have hseen : OtherAdmin u entry.did := by
          rw [hdid]
          exact otherAdmin_of_otherAdmins hothers
        exact Or.inr (hseen.mono (hread rfl u hu).2)
      · have hnot : ¬ IsAdmin t entry.did := by
          rw [hdid]
          exact not_isAdmin_of_role hentry hadmin
        exact Or.inr (hother rfl t ht _ hnot)
  | @redeemed r role t newRole hrole ht hnone hnew =>
      apply hasAdmin_store
      by_cases hadmin : IsAdmin s r.subject
      · have hsame := hspares hadmin role hrole
        rw [hnew] at hsame
        exact Or.inl (Except.ok.inj hsame)
      · exact Or.inr (hs.other hadmin)

/-- A redemption that spares the last Admin leaves every Admin in place. -/
theorem Change.keepsAdmins (h : Change F V task w) (hspares : Spares F task V s)
    (hlock : task.lock ≠ .aclWrite) : KeepsAdmins s (AclKs.commit w s) := by
  cases h with
  | @redeemed r role t newRole hrole ht hnone hnew =>
      intro did hadmin
      refine isAdmin_store.mpr ?_
      split
      · rename_i heq
        rw [heq] at hadmin
        have hsame := hspares hadmin role hrole
        rw [hnew] at hsame
        exact Except.ok.inj hsame
      · exact hadmin
  | granted | regranted | removed | emptied | narrowed | changed => exact absurd rfl hlock

end

/-! ## The guarantee -/

section

variable {ι : Type} [DecidableEq ι] (F : Framework) (tasks : ι → AclTask)

/-- The operations at their start, one for each thread. -/
def started (acl : AclKs) : Machine ι AclKs AclWrite AclLock Refusal (Option AclRow) :=
  Machine.start acl fun i => (tasks i).prog F

/-- Whatever operations run, in any number and with any interleaving of their
reads and writes: if every write spares the last Admin, the list has an Admin at
every point. -/
theorem last_admin_protected (hguard : F.GuardsLast) (acl : AclKs) (hadmin : HasAdmin acl)
    (schedule : List ι)
    (hspares : Run.Meets Machine.step
      (Machine.CommitMeets fun i V s => Spares F (tasks i) V s) (started F tasks acl) schedule) :
    HasAdmin (Run.exec Machine.step (started F tasks acl) schedule).store := by
  -- what a task has read has an Admin, and its Admins are still there
  let agree : ι → AclKs → AclKs → Prop := fun i t s =>
    (tasks i).lock = .aclWrite → (HasAdmin s → HasAdmin t) ∧ KeepsAdmins t s
  have hrefl : ∀ i s, agree i s s := fun i s _ => ⟨id, fun _ h => h⟩
  have hcommit : ∀ i w a s (V : Set AclKs), HasAdmin s → (∀ t ∈ V, agree i t s) →
      ((tasks i).plan F).Yields V (some w, a) → Spares F (tasks i) V s →
      HasAdmin (WriteBatch.commit w s) ∧
        ∀ j, (tasks j).lock ≠ (tasks i).lock → ∀ t, agree j t s →
          agree j t (WriteBatch.commit w s) := by
    intro i w a s V hs hread hplan hok
    have hchange := AclTask.plan_change hplan
    constructor
    · apply hchange.hasAdmin hguard hok hs
      intro hlock t ht
      exact ⟨(hread t ht hlock).1 hs, (hread t ht hlock).2⟩
    · intro j hne t ht hlock
      have hother : (tasks i).lock ≠ .aclWrite := by
        intro heq
        exact hne (hlock.trans heq.symm)
      have hkeep := hchange.keepsAdmins hok hother
      exact ⟨fun _ => (ht hlock).1 hs, fun did h => hkeep did ((ht hlock).2 did h)⟩
  have hstart : Machine.Guarded (fun i => (tasks i).lock) (fun i => (tasks i).plan F) HasAdmin
      agree (started F tasks acl) :=
    Machine.guarded_start hadmin fun i => Or.inl rfl
  exact (Run.exec_invariant
    (fun _ _ hok hbefore => Machine.guarded_step hrefl hcommit hbefore hok) hstart hspares).inv

end

/-! ## Runs on small lists -/

theorem hasAdmin_iff {s : AclKs} :
    HasAdmin s ↔ s.list.any (fun e => e.role = .admin) = true := by
  rw [List.any_eq_true]
  constructor
  · rintro ⟨did, row, hrow, hadmin⟩
    have hdid : row.did = did := AclKs.did_of_get hrow
    rw [← hdid] at hrow
    exact ⟨row, AclKs.mem_list.mpr hrow, decide_eq_true hadmin⟩
  · rintro ⟨row, hmem, hadmin⟩
    exact ⟨row.did, row, AclKs.mem_list.mp hmem, of_decide_eq_true hadmin⟩

instance (s : AclKs) : Decidable (HasAdmin s) :=
  decidable_of_iff _ hasAdmin_iff.symm

theorem applyScopeReduction_nil (scope : DomainScope) :
    applyScopeReduction scope [] ≠ .entryRemoved := by
  have hnone : ∀ domains : List String, domains.filter (fun d => ([] : List String).contains d) =
      [] := by
    intro domains
    rw [List.filter_eq_nil_iff]
    intro d _
    simp
  cases scope with
  | all => exact nofun
  | allowed domains =>
      simp only [applyScopeReduction, hnone, if_true]
      exact nofun
  | allowedWithDefault domains default =>
      simp only [applyScopeReduction, hnone, if_true]
      exact nofun

namespace Sample

open Text

/-- A framework: it quotes texts, takes what starts with `did:` for a DID, and
guards the last privileged entry. -/
def framework : Framework where
  debug text := "\"" ++ text ++ "\""
  parsesAsDid text := startsWith "did:" text
  rejectLastAuthority entries privileged target :=
    if entries.all (fun e => !privileged e || target e) then
      some "acl/revoke:last_authority_protected"
    else none

theorem guardsLast_framework : framework.GuardsLast := by
  intro entries privileged target
  have hall : (entries.all fun e => !privileged e || target e) = true ↔
      ∀ e ∈ entries, privileged e = true → target e = true := by
    rw [List.all_eq_true]
    constructor
    · intro h e he hprivileged
      simpa [hprivileged] using h e he
    · intro h e he
      cases hprivileged : privileged e with
      | true => simp [h e he hprivileged]
      | false => rfl
  rw [← hall]
  simp only [framework]
  split <;> simp_all

def entry (did : String) (role : Role) (domains : DomainScope) : AclRow where
  did := did
  role := role
  label := none
  createdAt := 0
  maxTotalSize := none
  maxDidCount := none
  domains := domains

def twoAdmins : AclKs :=
  (AclKs.empty.store (entry "did:a" .admin .all)).store (entry "did:b" .admin .all)

/-- One Admin removes itself; the other one is to become an Owner. -/
def departures : Bool → AclTask
  | true => .revoke ⟨some "did:a", "did:a", []⟩
  | false => .changeRole ⟨some "did:b", "did:b", "admin", "owner"⟩

end Sample

open DidHosting.Acl.Sample in
/-- The guarantee when both Admins try to leave. -/
theorem last_admin_protected_departures :
    HasAdmin (Run.exec Machine.step (started framework departures twoAdmins)
      [true, true, false, true, true, false, false, false, false, false]).store := by
  apply last_admin_protected framework departures guardsLast_framework twoAdmins
  · decide +kernel
  · apply Run.meets_of_forall
    rintro m i w next -
    cases i with
    | false => trivial
    | true =>
        intro t ht existing names hexisting hnames hremoved
        cases hnames
        exact absurd hremoved (applyScopeReduction_nil _)

namespace Sample

/-- One Admin, whose scope names a domain. -/
def oneAdmin : AclKs :=
  AclKs.empty.store (entry "did:a" .admin (.allowed ["h.io"]))

/-- The Admin gives the domain up. -/
def giveUp : Unit → AclTask :=
  fun _ => .revoke ⟨some "did:a", "did:a", ["domain:h.io"]⟩

/-- An invite of an Owner is redeemed while its subject is made an Admin and the
other Admin leaves. -/
def succession : Fin 3 → AclTask
  | 0 => .redeem ⟨.session, "did:b", some "owner", 1⟩
  | 1 => .grant ⟨some "did:a", ⟨"did:b", "admin", [], none, none, none⟩, 1⟩
  | 2 => .revoke ⟨some "did:a", "did:a", []⟩

end Sample

open DidHosting.Acl.Sample in
/-- The only Admin disappears: by a scope reduction, and under a redemption. -/
theorem last_admin_lost :
    (∃ schedule, ¬ HasAdmin (Run.exec Machine.step (started framework giveUp oneAdmin)
      schedule).store) ∧
    HasAdmin oneAdmin ∧ framework.GuardsLast ∧
    ∃ schedule, ¬ HasAdmin (Run.exec Machine.step (started framework succession oneAdmin)
      schedule).store := by
  refine ⟨⟨[(), (), ()], ?_⟩, ?_, guardsLast_framework,
    ⟨[0, 0, 1, 1, 1, 1, 2, 2, 2, 2, 0], ?_⟩⟩
  · decide +kernel
  · decide +kernel
  · decide +kernel

end DidHosting.Acl
