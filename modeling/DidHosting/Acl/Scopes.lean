import DidHosting.Acl.LastAdmin

/-!
# Domain scopes

What the scope of an entry says about how it came about.  A grant is checked on
its way in: an Owner has to name a scope.  A role change and a redeemed invite
write an entry without that check, and a scope read from a request need not
contain its default.
-/

namespace DidHosting.Acl

/-- The list during a run, with the grants accepted so far, oldest first. -/
structure AclRun where
  acl : AclKs
  granted : List GrantRequest

namespace AclRun

/-- An empty list. -/
def initial : AclRun :=
  ⟨AclKs.empty, []⟩

/-- The accepted grants after an operation with this outcome. -/
def recorded (granted : List GrantRequest) (task : AclTask)
    (outcome : Except Refusal (Option AclRow)) : List GrantRequest :=
  match task, outcome with
  | .grant r, .ok _ => granted ++ [r]
  | _, _ => granted

/-- One operation, run to its end. -/
def step (F : Framework) (r : AclRun) (task : AclTask) : AclRun where
  acl := ((task.prog F).run r.acl).2
  granted := recorded r.granted task ((task.prog F).run r.acl).1

end AclRun

/-- An accepted grant of the subject as Owner names the scope All. -/
def NamesAll (granted : List GrantRequest) (subject : String) : Prop :=
  ∃ g ∈ granted, g.entry.subject = subject ∧ parseRole g.entry.role = .ok .owner ∧
    ∃ w, g.entry.webvh = some (.ok w) ∧ w.domains = .all

/-- The default of a scope is one of its domains. -/
def WellFormedScope : DomainScope → Prop
  | .allowedWithDefault domains default => default ∈ domains
  | _ => True

instance (scope : DomainScope) : Decidable (WellFormedScope scope) := by
  cases scope <;> (simp only [WellFormedScope]; infer_instance)

/-- The operation is deliberate about scopes: a grant names a well-formed one,
and no role change and no invite makes an Owner with the scope All whom no grant
has given it. -/
def Deliberate (r : AclRun) : AclTask → Prop
  | .grant g => ∀ w, g.entry.webvh = some (.ok w) → WellFormedScope w.domains
  | .changeRole c => parseRole c.toRole = .ok .owner → ∀ row, r.acl.get c.subject = some row →
      row.role ≠ .owner → row.domains = .all → NamesAll r.granted c.subject
  | .redeem d => ∀ role, d.role = some role → parseRole role = .ok .owner →
      r.acl.get d.subject = none → NamesAll r.granted d.subject
  | .revoke _ => True

/-! ## Reduced scopes -/

theorem applyScopeReduction_spec {current scope : DomainScope} {names : List String}
    (h : applyScopeReduction current names = .narrowed scope) :
    scope ≠ .all ∧ (WellFormedScope current → WellFormedScope scope) ∧
      ∀ d, scope.allows d = true ↔ current.allows d = true ∧ d ∉ names := by
  have hkept : ∀ (domains : List String) (d : String),
      (domains.filter fun x => !names.contains x).contains d = true ↔
        domains.contains d = true ∧ d ∉ names := by
    intro domains d
    rw [List.contains_iff_mem, List.contains_iff_mem, List.mem_filter]
    simp
  cases current with
  | all => cases h
  | allowed domains =>
      simp only [applyScopeReduction] at h
      split_ifs at h
      cases h
      exact ⟨by simp, fun _ => trivial, fun d => hkept domains d⟩
  | allowedWithDefault domains default =>
      simp only [applyScopeReduction] at h
      split_ifs at h with hdropped hempty hdefault
      · cases h
        exact ⟨by simp, fun _ => List.contains_iff_mem.mp hdefault, fun d => hkept domains d⟩
      · cases h
        exact ⟨by simp, fun _ => trivial, fun d => hkept domains d⟩

/-- A reduction that finds none of the domains leaves the scope without them. -/
theorem applyScopeReduction_noOp {current : DomainScope} {names : List String}
    (h : applyScopeReduction current names = .noOp) :
    ∀ d, current.allows d = true ↔ current.allows d = true ∧ d ∉ names := by
  have hnone : ∀ domains : List String, (domains.filter fun x => names.contains x) = [] →
      ∀ d, domains.contains d = true ↔ domains.contains d = true ∧ d ∉ names := by
    intro domains hdropped d
    constructor
    · intro hmem
      refine ⟨hmem, fun hname => ?_⟩
      have hfilter := List.filter_eq_nil_iff.mp hdropped d (List.contains_iff_mem.mp hmem)
      exact hfilter (List.contains_iff_mem.mpr hname)
    · exact And.left
  cases current with
  | all => cases h
  | allowed domains =>
      simp only [applyScopeReduction] at h
      split_ifs at h with hdropped
      exact hnone domains hdropped
  | allowedWithDefault domains default =>
      simp only [applyScopeReduction] at h
      split_ifs at h with hdropped
      exact hnone domains hdropped

/-! ## One operation -/

section

variable {F : Framework}

/-- An operation leaves the list, or makes one of the changes listed for it and
succeeds. -/
theorem AclTask.run_cases (task : AclTask) (s : AclKs) :
    ((task.prog F).run s).2 = s ∨
      ∃ w a, Change F {s} task w ∧ (task.prog F).run s = (.ok a, AclKs.commit w s) := by
  unfold AclTask.prog
  rw [Prog.run_planned]
  rcases hplan : (task.plan F).eval s with e | ⟨_ | w, a⟩
  · exact Or.inl rfl
  · exact Or.inl rfl
  · exact Or.inr ⟨w, a, AclTask.plan_change (Query.eval_eq_ok_iff.mp hplan), rfl⟩

/-- An accepted scope reduction leaves the entry, if any, with exactly the
domains it had and that were not named. -/
theorem reduction_exact {s : AclKs} {r : RevokeRequest} {a : Option AclRow}
    (hscopes : r.scopes ≠ []) (hrun : (((AclTask.revoke r).prog F).run s).1 = .ok a)
    {before after : AclRow} (hbefore : s.get r.subject = some before)
    (hafter : (((AclTask.revoke r).prog F).run s).2.get r.subject = some after) :
    ∃ names, parseDomainScopes F r.scopes = .ok names ∧
      ∀ d, after.domains.allows d = true ↔ before.domains.allows d = true ∧ d ∉ names := by
  unfold AclTask.prog at hrun hafter
  rw [Prog.run_planned] at hrun hafter
  cases hplan : ((AclTask.revoke r).plan F).eval s with
  | error e =>
      rw [hplan] at hrun
      cases hrun
  | ok result =>
      rw [hplan] at hafter
      have hyields : (revokePlan F r).Yields {s} result := Query.eval_eq_ok_iff.mp hplan
      unfold revokePlan at hyields
      simp only [Query.yields_bind, Query.yields_read] at hyields
      obtain ⟨_, -, _, -, _, ⟨t, ht, rfl⟩, hyields⟩ := hyields
      rw [Set.mem_singleton_iff.mp ht, hbefore] at hyields
      simp only [if_neg hscopes] at hyields
      unfold reductionPlan at hyields
      split at hyields
      · cases yields_reject.mp hyields
      · rename_i names hnames
        refine ⟨names, hnames, ?_⟩
        split at hyields
        · cases Query.yields_pure.mp hyields
          change (s.delete r.subject).get r.subject = some after at hafter
          rw [AclKs.get_delete, if_pos rfl] at hafter
          cases hafter
        · rename_i scope hnarrowed
          cases Query.yields_pure.mp hyields
          change (s.store { before with domains := scope }).get r.subject = some after at hafter
          have hdid : before.did = r.subject := AclKs.did_of_get hbefore
          rw [AclKs.get_store, if_pos hdid.symm] at hafter
          cases hafter
          exact (applyScopeReduction_spec hnarrowed).2.2
        · rename_i hnoOp
          cases Query.yields_pure.mp hyields
          change s.get r.subject = some after at hafter
          rw [hbefore] at hafter
          cases hafter
          exact applyScopeReduction_noOp hnoOp
        · cases yields_reject.mp hyields

/-- The scope of a granted Owner is the one the request names. -/
theorem intoLocal_spec {e : SpecAclEntry} {fallback : ℕ} {row : AclRow}
    (h : e.intoLocal fallback = .ok row) :
    row.did = e.subject ∧ parseRole e.role = .ok row.role ∧
      ((∃ w, e.webvh = some (.ok w) ∧ row.domains = w.domains) ∨
        (row.role ≠ .owner ∧ row.domains = .all)) := by
  unfold SpecAclEntry.intoLocal at h
  obtain ⟨role, hrole, h⟩ := bind_eq_ok h
  obtain ⟨w, hw, h⟩ := bind_eq_ok h
  cases h
  refine ⟨rfl, hrole, ?_⟩
  unfold SpecAclEntry.webvhExt at hw
  split at hw
  · rename_i named hnamed
    cases hw
    exact Or.inl ⟨w, hnamed, rfl⟩
  · cases hw
  · split_ifs at hw with howner
    cases hw
    exact Or.inr ⟨howner, rfl⟩

end

/-! ## The invariant -/

/-- What holds of the entry of `subject`. -/
structure ScopeOk (granted : List GrantRequest) (subject : String) (row : AclRow) : Prop where
  owner_all : row.role = .owner → row.domains = .all → NamesAll granted subject
  well_formed : WellFormedScope row.domains

/-- What holds of the list at every point of a run. -/
def ScopesOk (r : AclRun) : Prop :=
  ∀ subject row, r.acl.get subject = some row → ScopeOk r.granted subject row

section

variable {F : Framework} {r : AclRun} {task : AclTask}

theorem NamesAll.recorded {granted : List GrantRequest} {subject : String}
    (h : NamesAll granted subject) (task : AclTask)
    (outcome : Except Refusal (Option AclRow)) :
    NamesAll (AclRun.recorded granted task outcome) subject := by
  obtain ⟨g, hg, hrest⟩ := h
  refine ⟨g, ?_, hrest⟩
  unfold AclRun.recorded
  split
  · exact List.mem_append_left _ hg
  · exact hg

theorem scopeOk_granted {granted : List GrantRequest} {g : GrantRequest} {proposed row : AclRow}
    (hlocal : g.entry.intoLocal 0 = .ok proposed) (hmem : g ∈ granted)
    (hnamed : ∀ w, g.entry.webvh = some (.ok w) → WellFormedScope w.domains)
    (hrole : row.role = proposed.role) (hdomains : row.domains = proposed.domains) :
    ScopeOk granted proposed.did row := by
  obtain ⟨hsubject, hparsed, hscope⟩ := intoLocal_spec hlocal
  constructor
  · intro howner hall
    rw [hrole] at howner
    rw [hdomains] at hall
    rcases hscope with ⟨w, hw, hnames⟩ | ⟨hnot, -⟩
    · rw [howner] at hparsed
      exact ⟨g, hmem, hsubject.symm, hparsed, w, hw, hnames.symm.trans hall⟩
    · exact absurd howner hnot
  · rw [hdomains]
    rcases hscope with ⟨w, hw, hnames⟩ | ⟨-, hall⟩
    · rw [hnames]
      exact hnamed w hw
    · rw [hall]
      trivial

/-- One deliberate operation keeps the scopes in order. -/
theorem ScopesOk.step (hinv : ScopesOk r) (hok : Deliberate r task) :
    ScopesOk (r.step F task) := by
  have hkept : ∀ subject row, r.acl.get subject = some row →
      ScopeOk (r.step F task).granted subject row := by
    intro subject row hrow
    have hbefore := hinv subject row hrow
    exact ⟨fun howner hall => (hbefore.owner_all howner hall).recorded task _,
      hbefore.well_formed⟩
  rcases AclTask.run_cases (F := F) task r.acl with hsame | ⟨w, a, hchange, hrun⟩
  · intro subject row hrow
    change ((task.prog F).run r.acl).2.get subject = some row at hrow
    rw [hsame] at hrow
    exact hkept subject row hrow
  · have hgranted : (r.step F task).granted = AclRun.recorded r.granted task (.ok a) := by
      change AclRun.recorded r.granted task ((task.prog F).run r.acl).1 = _
      rw [hrun]
    have hacl : (r.step F task).acl = AclKs.commit w r.acl := by
      change ((task.prog F).run r.acl).2 = _
      rw [hrun]
    -- a write of one entry, and a removal
    have hstored : ∀ new : AclRow, w = .store new →
        ScopeOk (r.step F task).granted new.did new → ScopesOk (r.step F task) := by
      intro new hw hnew subject row hrow
      rw [hacl, hw] at hrow
      change (r.acl.store new).get subject = some row at hrow
      rw [AclKs.get_store] at hrow
      split at hrow
      · rename_i hsubject
        cases hrow
        rw [hsubject]
        exact hnew
      · exact hkept subject row hrow
    have hdeleted : ∀ did, w = .delete did → ScopesOk (r.step F task) := by
      intro did hw subject row hrow
      rw [hacl, hw] at hrow
      change (r.acl.delete did).get subject = some row at hrow
      rw [AclKs.get_delete] at hrow
      split at hrow
      · cases hrow
      · exact hkept subject row hrow
    cases hchange with
    | @granted g proposed t hlocal ht hnone =>
        apply hstored _ rfl
        change ScopeOk _ proposed.did _
        refine scopeOk_granted hlocal ?_ hok rfl rfl
        rw [hgranted]
        exact List.mem_append_right _ List.mem_cons_self
    | @regranted g proposed t current hlocal ht hcurrent hrole =>
        apply hstored _ rfl
        have hdid : current.did = proposed.did := AclKs.did_of_get hcurrent
        change ScopeOk _ current.did _
        rw [hdid]
        refine scopeOk_granted hlocal ?_ hok hrole rfl
        rw [hgranted]
        exact List.mem_append_right _ List.mem_cons_self
    | removed => exact hdeleted _ rfl
    | emptied => exact hdeleted _ rfl
    | @narrowed c t existing names scope hscopes ht hexisting hnames hnarrowed =>
        apply hstored _ rfl
        rw [Set.mem_singleton_iff.mp ht] at hexisting
        obtain ⟨hnot, hformed, -⟩ := applyScopeReduction_spec hnarrowed
        have hbefore := hinv _ _ hexisting
        exact ⟨fun _ hall => absurd hall hnot, hformed hbefore.well_formed⟩
    | @changed c t entry toRole ht hentry hto hne hdemotion =>
        apply hstored _ rfl
        rw [Set.mem_singleton_iff.mp ht] at hentry
        have hdid : entry.did = c.subject := AclKs.did_of_get hentry
        have hbefore := hkept _ _ hentry
        constructor
        · intro howner hall
          change toRole = .owner at howner
          rw [howner] at hto hne
          rw [hgranted]
          change NamesAll _ entry.did
          rw [hdid]
          exact (hok hto entry hentry hne hall).recorded _ _
        · exact hbefore.well_formed
    | @redeemed d role t newRole hrole ht hnone hnew =>
        apply hstored _ rfl
        rw [Set.mem_singleton_iff.mp ht] at hnone
        constructor
        · intro howner hall
          change newRole = .owner at howner
          rw [howner] at hnew
          rw [hgranted]
          exact (hok role hrole hnew hnone).recorded _ _
        · trivial

end

/-! ## The guarantee -/

/-- In every list reachable from an empty one by deliberate operations, an Owner
has the scope All only if a grant named it, and every default is one of its
domains.  Whatever operations led to a list, an accepted scope reduction there
leaves exactly the domains that were not named. -/
theorem owner_scopes_deliberate (F : Framework) (tasks : List AclTask) :
    let r := Run.exec (AclRun.step F) AclRun.initial tasks
    (Run.Meets (AclRun.step F) Deliberate AclRun.initial tasks →
      (∀ subject row, r.acl.get subject = some row → row.role = .owner → row.domains = .all →
        NamesAll r.granted subject) ∧
      ∀ subject row domains default, r.acl.get subject = some row →
        row.domains = .allowedWithDefault domains default → default ∈ domains ∧ domains ≠ []) ∧
    ∀ (c : RevokeRequest) (a : Option AclRow) (before after : AclRow), c.scopes ≠ [] →
      (((AclTask.revoke c).prog F).run r.acl).1 = .ok a →
      r.acl.get c.subject = some before →
      (((AclTask.revoke c).prog F).run r.acl).2.get c.subject = some after →
      ∃ names, parseDomainScopes F c.scopes = .ok names ∧
        ∀ d, after.domains.allows d = true ↔ before.domains.allows d = true ∧ d ∉ names := by
  intro r
  constructor
  · intro hmeets
    have hinitial : ScopesOk AclRun.initial := by
      intro subject row hrow
      cases hrow
    have hinv : ScopesOk r :=
      Run.exec_invariant (fun _ _ hok hbefore => hbefore.step hok) hinitial hmeets
    constructor
    · intro subject row hrow
      exact (hinv subject row hrow).owner_all
    · intro subject row domains default hrow hdomains
      have hformed := (hinv subject row hrow).well_formed
      rw [hdomains] at hformed
      exact ⟨hformed, List.ne_nil_of_mem hformed⟩
  · intro c a before after hscopes hrun hbefore hafter
    exact reduction_exact hscopes hrun hbefore hafter

namespace Sample

/-- The first Admin is enrolled, and grants an Owner a scope with a default. -/
def founding (default : String) : List AclTask :=
  [.redeem ⟨.session, "did:a", some "admin", 1⟩,
    .grant ⟨some "did:a", ⟨"did:o", "owner", [], none, none,
      some (.ok ⟨none, none, .allowedWithDefault ["h.io"] default⟩)⟩, 2⟩]

end Sample

open DidHosting.Acl.Sample in
/-- The guarantee for a deliberate founding. -/
theorem owner_scopes_deliberate_founding :
    ¬ ∃ domains default, ((Run.exec (AclRun.step framework) AclRun.initial
        (founding "h.io")).acl.get "did:o").map (·.domains) =
      some (.allowedWithDefault domains default) ∧ default ∉ domains := by
  have hmeets : Run.Meets (AclRun.step framework) Deliberate AclRun.initial (founding "h.io") := by
    refine ⟨?_, ?_, trivial⟩
    · rintro role ⟨⟩ hadmin
      cases hadmin
    · rintro w ⟨⟩
      exact List.mem_cons_self
  rintro ⟨domains, default, hscope, hnot⟩
  obtain ⟨row, hrow, hdomains⟩ := Option.map_eq_some_iff.mp hscope
  exact hnot (((owner_scopes_deliberate framework (founding "h.io")).1 hmeets).2
    "did:o" row domains default hrow hdomains).1

open DidHosting.Acl.Sample in
/-- An invite makes an Owner of all domains whom no grant names, and a grant
stores a scope whose default is none of its domains. -/
theorem owner_scopes_broken :
    (∃ row, (Run.exec (AclRun.step framework) AclRun.initial
        [.redeem ⟨.session, "did:o", some "owner", 1⟩]).acl.get "did:o" = some row ∧
      row.role = .owner ∧ row.domains = .all ∧
      ¬ NamesAll (Run.exec (AclRun.step framework) AclRun.initial
        [.redeem ⟨.session, "did:o", some "owner", 1⟩]).granted "did:o") ∧
    ∃ row, (Run.exec (AclRun.step framework) AclRun.initial (founding "x.io")).acl.get "did:o" =
      some row ∧ ¬ WellFormedScope row.domains := by
  constructor
  · refine ⟨redeemedRow ⟨.session, "did:o", some "owner", 1⟩ .owner, ?_, rfl, rfl, ?_⟩
    · decide +kernel
    · have hgranted : (Run.exec (AclRun.step framework) AclRun.initial
          [.redeem ⟨.session, "did:o", some "owner", 1⟩]).granted = [] := rfl
      rw [hgranted]
      rintro ⟨g, hg, -⟩
      cases hg
  · refine ⟨{ entry "did:o" .owner (.allowedWithDefault ["h.io"] "x.io") with createdAt := 2 },
      ?_, ?_⟩
    · decide +kernel
    · decide +kernel

end DidHosting.Acl
