import DidHosting.Acl.Tasks

/-!
# What an operation writes

`Change` lists the writes an operation can come to, with what it has read
before each of them: the reads of an operation that runs among others are
answered by several stores.
-/

namespace DidHosting.Acl

open Text

/-- The entry of a redeemed invite. -/
def redeemedRow (r : RedeemRequest) (role : Role) : AclRow where
  did := r.subject
  role := role
  label := some "enrolled via passkey invite"
  createdAt := r.now
  maxTotalSize := none
  maxDidCount := none
  domains := .all

/-- `Change F V task w` says that the operation, its reads answered by stores of
`V`, writes `w`. -/
inductive Change (F : Framework) (V : Set AclKs) : AclTask → AclWrite → Prop where
  | granted {r proposed t} : r.entry.intoLocal 0 = .ok proposed → t ∈ V →
      t.get proposed.did = none →
      Change F V (.grant r) (.store { proposed with createdAt := r.now })
  | regranted {r proposed t current} : r.entry.intoLocal 0 = .ok proposed → t ∈ V →
      t.get proposed.did = some current → current.role = proposed.role →
      Change F V (.grant r) (.store (mergedRow current proposed))
  | removed {r t} : r.scopes = [] → t ∈ V →
      F.rejectLastAuthority t.list (fun e => e.role = .admin) (fun e => e.did = r.subject) =
        none →
      Change F V (.revoke r) (.delete r.subject)
  | emptied {r t existing names} : r.scopes ≠ [] → t ∈ V → t.get r.subject = some existing →
      parseDomainScopes F r.scopes = .ok names →
      applyScopeReduction existing.domains names = .entryRemoved →
      Change F V (.revoke r) (.delete r.subject)
  | narrowed {r t existing names scope} : r.scopes ≠ [] → t ∈ V →
      t.get r.subject = some existing → parseDomainScopes F r.scopes = .ok names →
      applyScopeReduction existing.domains names = .narrowed scope →
      Change F V (.revoke r) (.store { existing with domains := scope })
  | changed {r t entry toRole} : t ∈ V → t.get r.subject = some entry →
      parseRole r.toRole = .ok toRole → entry.role ≠ toRole →
      (entry.role = .admin → ∃ u ∈ V, otherAdmins r.subject u.list ≠ []) →
      Change F V (.changeRole r) (.store { entry with role := toRole })
  | redeemed {r role t newRole} : r.role = some role → t ∈ V → t.get r.subject = none →
      parseRole role = .ok newRole →
      Change F V (.redeem r) (.store (redeemedRow r newRole))

section

variable {F : Framework} {V : Set AclKs} {w : AclWrite} {a : Option AclRow}

theorem yields_reject {α : Type} {code : TrustTaskCode} {message : String}
    {details : Option Json} {b : α} :
    (reject code message details : AclQ α).Yields V b ↔ False :=
  Query.yields_fail

theorem proposedRow_spec {r : GrantRequest} {proposed : AclRow}
    (h : (proposedRow F r).Yields V proposed) : r.entry.intoLocal 0 = .ok proposed := by
  unfold proposedRow at h
  split at h
  · cases yields_reject.mp h
  · rename_i row hrow
    split_ifs at h
    · cases yields_reject.mp h
    · cases yields_reject.mp h
    · rw [Query.yields_pure.mp h, hrow]

theorem grantPlan_change {r : GrantRequest} (h : (grantPlan F r).Yields V (some w, a)) :
    Change F V (.grant r) w := by
  unfold grantPlan at h
  simp only [Query.yields_bind, Query.yields_read] at h
  obtain ⟨_, -, _, -, proposed, hproposed, _, ⟨t, ht, rfl⟩, h⟩ := h
  have hlocal := proposedRow_spec hproposed
  split at h
  · rename_i current hcurrent
    split_ifs at h with hrole hsame
    · cases Query.yields_pure.mp h
    · cases Query.yields_pure.mp h
      exact .regranted hlocal ht hcurrent hrole
    · cases yields_reject.mp h
  · rename_i hnone
    cases Query.yields_pure.mp h
    exact .granted hlocal ht hnone

theorem revokePlan_change {r : RevokeRequest} (h : (revokePlan F r).Yields V (some w, a)) :
    Change F V (.revoke r) w := by
  unfold revokePlan at h
  simp only [Query.yields_bind, Query.yields_read] at h
  obtain ⟨_, -, _, -, _, ⟨t, ht, rfl⟩, h⟩ := h
  split at h
  · cases yields_reject.mp h
  · rename_i existing hexisting
    split_ifs at h with hscopes
    · unfold removalPlan at h
      simp only [Query.yields_bind, Query.yields_read] at h
      obtain ⟨_, ⟨u, hu, rfl⟩, h⟩ := h
      split at h
      · cases yields_reject.mp h
      · rename_i hguard
        cases Query.yields_pure.mp h
        exact .removed hscopes hu hguard
    · unfold reductionPlan at h
      split at h
      · cases yields_reject.mp h
      · rename_i names hnames
        split at h
        · rename_i hremoved
          cases Query.yields_pure.mp h
          exact .emptied hscopes ht hexisting hnames hremoved
        · rename_i scope hnarrowed
          cases Query.yields_pure.mp h
          exact .narrowed hscopes ht hexisting hnames hnarrowed
        · cases Query.yields_pure.mp h
        · cases yields_reject.mp h

theorem recognizedRole_spec {field text : String} {role : Role}
    (h : (recognizedRole F field text).Yields V role) : parseRole text = .ok role := by
  unfold recognizedRole at h
  split at h
  · rename_i parsed hparsed
    rw [hparsed, Query.yields_pure.mp h]
  · cases yields_reject.mp h

theorem guardDemotion_spec {subject : String} {fromRole toRole : Role} {u : Unit}
    (h : (guardDemotion subject fromRole toRole).Yields V u) (hfrom : fromRole = .admin)
    (hto : toRole ≠ .admin) : ∃ t ∈ V, otherAdmins subject t.list ≠ [] := by
  unfold guardDemotion at h
  rw [if_pos ⟨hfrom, hto⟩] at h
  simp only [Query.yields_bind, Query.yields_read] at h
  obtain ⟨_, ⟨t, ht, rfl⟩, h⟩ := h
  split_ifs at h with hnone
  · cases yields_reject.mp h
  · exact ⟨t, ht, hnone⟩

theorem changeRolePlan_change {r : ChangeRoleRequest}
    (h : (changeRolePlan F r).Yields V (some w, a)) : Change F V (.changeRole r) w := by
  unfold changeRolePlan at h
  simp only [Query.yields_bind] at h
  obtain ⟨_, -, _, -, fromRole, -, toRole, hto, h⟩ := h
  split at h
  · cases yields_reject.mp h
  · simp only [Query.yields_bind, Query.yields_read] at h
    obtain ⟨_, ⟨t, ht, rfl⟩, h⟩ := h
    split at h
    · cases yields_reject.mp h
    · rename_i entry hentry
      split_ifs at h with hmismatch
      · cases yields_reject.mp h
      · cases Query.yields_pure.mp h
      · have hfrom : entry.role = fromRole := not_not.mp hmismatch
        simp only [Query.yields_bind] at h
        obtain ⟨_, hguard, h⟩ := h
        cases Query.yields_pure.mp h
        have hne : entry.role ≠ toRole := by rwa [hfrom]
        apply Change.changed ht hentry (recognizedRole_spec hto) hne
        intro hadmin
        have hnot : toRole ≠ .admin := by
          rw [hadmin] at hne
          exact hne.symm
        exact guardDemotion_spec hguard (hfrom.symm.trans hadmin) hnot

theorem redeemPlan_change {r : RedeemRequest} (h : (redeemPlan r).Yields V (some w, a)) :
    Change F V (.redeem r) w := by
  unfold redeemPlan at h
  split at h
  · rename_i role _ hrole
    simp only [Query.yields_bind, Query.yields_read] at h
    obtain ⟨_, ⟨t, ht, rfl⟩, h⟩ := h
    split at h
    · cases Query.yields_pure.mp h
    · rename_i hnone
      split at h
      · cases Query.yields_fail.mp h
      · rename_i newRole hnew
        cases Query.yields_pure.mp h
        exact .redeemed hrole ht hnone hnew
  · cases Query.yields_pure.mp h

/-- Every write an operation comes to is listed. -/
theorem AclTask.plan_change {task : AclTask} (h : (task.plan F).Yields V (some w, a)) :
    Change F V task w := by
  cases task with
  | grant r => exact grantPlan_change h
  | revoke r => exact revokePlan_change h
  | changeRole r => exact changeRolePlan_change h
  | redeem r => exact redeemPlan_change h

end

end DidHosting.Acl
