import DidHosting.Control.NameIndex

/-!
# Served names are claimed names

`resolve_agent_name_to_did` answers from the index and the registry of the
record; the authority for a name is the `alsoKnownAs` of the slot's current
document.  A publish reconciles the two.  An agent-name operation changes one
name and leaves the rest of the registry, and a rollback leaves all of it, so
both can keep a name enabled that the document they store does not claim.
-/

namespace DidHosting

open Text

/-- The names that the current document of a slot claims on `domain`. -/
def claimedNames (L : Libs) (r : DidRecord) (content domain : String) : List String :=
  match currentDocument L r.method r.didId content with
  | none => []
  | some document => agentNamesFromDocument L document domain

theorem claimedNames_webvh {L : Libs} {r : DidRecord} {content domain : String}
    (h : r.method = .webvh) :
    claimedNames L r content domain = extractAgentNames L content domain := by
  unfold claimedNames extractAgentNames
  rw [h]
  rfl

/-- What a verified publication claims, the current document of its content
claims. -/
theorem mem_claimedNames {L : Libs} {r : DidRecord} {p : Publication}
    {domain mnemonic content host n : String} {existing witness : Option String}
    (h : verifyPublication L domain mnemonic content existing witness = .ok p)
    (hmethod : r.method = p.method) (hdid : r.didId = p.didId)
    (hn : n ∈ p.agentNames L host) : n ∈ claimedNames L r content host := by
  unfold claimedNames
  unfold Publication.agentNames at hn
  rw [hmethod, hdid, ← verifyPublication_document h]
  cases hdoc : p.document with
  | none =>
      rw [hdoc] at hn
      contradiction
  | some document =>
      rw [hdoc] at hn
      exact hn

/-! ## The condition -/

/-- The event keeps no name enabled that the content it stores does not claim. -/
def KeepsClaims (A : AppState) (s : ControlStore) : Event → Prop
  | .serve (.agentName auth now m name didLog _ _) =>
      ∀ r p, s.record m = some r → authorized auth r = true →
        verifyPublication A.libs r.domain m didLog (s.log m) (s.witness m) = .ok p →
        ∀ e ∈ r.agentNames, e.enabled = true → e.name ≠ bareName name →
          e.name ∈ p.agentNames A.libs (slotDomain A.libs (republished A.libs r p didLog now))
  | .serve (.rollback auth now m targetVersion) =>
      ∀ r c keep, s.record m = some r → authorized auth r = true → s.log m = some c →
        rollbackKeep (entryCount c) targetVersion = .ok keep →
        ∀ e ∈ r.agentNames, e.enabled = true →
          e.name ∈ claimedNames A.libs (rolledBack A.libs r (truncateLog c keep) keep now)
            (truncateLog c keep)
            (slotDomain A.libs (rolledBack A.libs r (truncateLog c keep) keep now))
  | _ => True

/-! ## The invariant -/

/-- Every enabled name of the registry is claimed on the slot's domain. -/
def ServesClaimed (L : Libs) (r : DidRecord) (content : String) : Prop :=
  ∀ e ∈ r.agentNames, e.enabled = true →
    e.name ∈ claimedNames L r content (slotDomain L r)

/-- A slot without enabled names may lack a log. -/
def SlotClaims (L : Libs) : Option DidRecord → Option String → Prop
  | some r, some content => ServesClaimed L r content
  | some r, none => ∀ e ∈ r.agentNames, e.enabled = false
  | none, _ => True

section Registry

variable {name : String} {names : List AgentNameEntry} {e : AgentNameEntry}

theorem mem_setEnabled {b : Bool} (h : e ∈ setEnabled name b names) :
    e.name = name ∨ e ∈ names := by
  induction names with
  | nil => contradiction
  | cons x names ih =>
      rw [setEnabled] at h
      split at h
      · rename_i hx
        rcases List.mem_cons.mp h with rfl | hmem
        · exact Or.inl hx
        · exact Or.inr (List.mem_cons_of_mem _ hmem)
      · rcases List.mem_cons.mp h with rfl | hmem
        · exact Or.inr List.mem_cons_self
        · exact (ih hmem).imp id (List.mem_cons_of_mem _)

/-- In a registry without duplicates, a parked name has no enabled entry. -/
theorem enabled_setEnabled_false (hnodup : (names.map (·.name)).Nodup)
    (h : e ∈ setEnabled name false names) (hon : e.enabled = true) :
    e ∈ names ∧ e.name ≠ name := by
  induction names with
  | nil => contradiction
  | cons x names ih =>
      rw [List.map_cons, List.nodup_cons] at hnodup
      rw [setEnabled] at h
      split at h
      · rename_i hx
        rcases List.mem_cons.mp h with rfl | hmem
        · contradiction
        · refine ⟨List.mem_cons_of_mem _ hmem, ?_⟩
          intro he
          apply hnodup.1
          rw [hx, ← he]
          exact List.mem_map_of_mem hmem
      · rename_i hx
        rcases List.mem_cons.mp h with rfl | hmem
        · exact ⟨List.mem_cons_self, hx⟩
        · obtain ⟨hin, hne⟩ := ih hnodup.2 hmem
          exact ⟨List.mem_cons_of_mem _ hin, hne⟩

theorem mem_upsertAgentName {now : ℕ} (h : e ∈ upsertAgentName names name now) :
    e.name = name ∨ e ∈ names := by
  unfold upsertAgentName at h
  split at h
  · exact mem_setEnabled h
  · rcases List.mem_append.mp h with hmem | hnew
    · exact Or.inr hmem
    · rw [List.mem_singleton.mp hnew]
      exact Or.inl rfl

/-- What is enabled after an agent-name operation: the activated name, and the
other names that were. -/
theorem enabled_agentNameEffect {op : AgentNameOp} {m domain : String} {now : ℕ}
    {holder : Option String} {effect : List AgentNameEntry × Batch}
    (hnodup : (names.map (·.name)).Nodup)
    (h : agentNameEffect op names m domain name now holder = .ok effect)
    (he : e ∈ effect.1) (hon : e.enabled = true) :
    (op = .activate ∧ e.name = name) ∨ (e ∈ names ∧ e.name ≠ name) := by
  rcases agentNameEffect_cases h with ⟨rfl, -, rfl⟩ | ⟨-, rfl⟩ | ⟨-, -, rfl⟩
  · by_cases hname : e.name = name
    · exact Or.inl ⟨rfl, hname⟩
    · exact Or.inr ⟨(mem_upsertAgentName he).resolve_left hname, hname⟩
  · exact Or.inr (enabled_setEnabled_false hnodup he hon)
  · obtain ⟨hmem, hne⟩ := List.mem_filter.mp he
    exact Or.inr ⟨hmem, by simpa using hne⟩

end Registry

section

variable {A : AppState} {s : ControlStore}

/-- A reconciled registry serves what the publication claims. -/
theorem enabled_reconciled {V : Set ControlStore} {names next : List AgentNameEntry}
    {m domain : String} {claims : List String} {now : ℕ} {changes : NameChanges}
    (h : Reconciled V names m claims domain now next changes) {e : AgentNameEntry}
    (he : e ∈ next) (hon : e.enabled = true) : e.name ∈ claims := by
  rw [h.next_eq] at he
  have hclaimed := enabled_reconciledNames he hon
  rw [h.claimed_eq] at hclaimed
  exact List.mem_of_mem_filter hclaimed

theorem slotClaims_change {op : Op} {m : String} {record : Option DidRecord}
    {log : Option String}
    (hnodup : ∀ r, s.record m = some r → (r.agentNames.map (·.name)).Nodup)
    (hok : KeepsClaims A s (.serve op)) (h : SlotChange A s op m record log)
    (hold : SlotClaims A.libs (s.record m) (s.log m)) : SlotClaims A.libs record log := by
  cases h with
  | created =>
      have hnone : ∀ log : Option String, ∀ r : DidRecord, r.agentNames = [] →
          SlotClaims A.libs (some r) log := by
        intro log r hr
        cases log with
        | none =>
            intro e he
            rw [hr] at he
            contradiction
        | some c =>
            intro e he
            rw [hr] at he
            contradiction
      exact hnone _ _ rfl
  | registered hpre hreg =>
      intro e he hon
      rw [slotDomain_registerRecord]
      exact mem_claimedNames hreg.verified_at rfl hreg.didId_eq.symm
        (enabled_reconciled hreg.reconciled he hon)
  | published hrep hrec =>
      intro e he hon
      exact mem_claimedNames hrep.verified_at hrep.same_method.symm rfl
        (enabled_reconciled hrec he hon)
  | @named auth now m name didLog requestDomain op r p holder effect hrep hclaim heffect =>
      intro e he hon
      have hread := read_singleton hrep.record_read
      refine mem_claimedNames hrep.verified_at hrep.same_method.symm rfl ?_
      rcases enabled_agentNameEffect (hnodup r hread) heffect he hon with ⟨rfl, hname⟩ | ⟨hmem, hne⟩
      · rw [hname]
        exact List.contains_iff_mem.mp hclaim
      · exact hok r p hread hrep.allowed hrep.verified_at e hmem hon hne
  | deleted => trivial
  | rolledBack hrecord hauth hlog hkeep hlt =>
      intro e he hon
      exact hok _ _ _ hrecord hauth hlog hkeep e he hon
  | @touched op m r r' hr hsame =>
      rw [hr] at hold
      cases hlog : s.log m with
      | none =>
          rw [hlog] at hold
          intro e he
          rw [hsame.agentNames] at he
          exact hold e he
      | some c =>
          rw [hlog] at hold
          intro e he hon
          rw [hsame.agentNames] at he
          have hclaimed := hold e he hon
          unfold claimedNames slotDomain at *
          rwa [hsame.method, hsame.didId, hsame.domain]

/-- The invariant of a run: the index agrees with the records, and the records
with the stored content. -/
def ClaimInv (L : Libs) (s : ControlStore) : Prop :=
  NameInv L s ∧ ∀ m, SlotClaims L (s.record m) (s.log m)

theorem claimInv_step (e : Event) (hok : KeepsIndex A s e ∧ KeepsClaims A s e)
    (hinv : ClaimInv A.libs s) : ClaimInv A.libs (e.step A s) := by
  refine ⟨nameInv_step e hok.1 hinv.1, ?_⟩
  cases e with
  | administer acl domains => exact hinv.2
  | serve op =>
      refine slotwise_step (P := fun _ record log => SlotClaims A.libs record log) ?_ hinv.2
      intro m record log hchange hold
      refine slotClaims_change ?_ hok.2 hchange hold
      intro r hr
      have hslot := hinv.1 m
      rw [hr] at hslot
      exact hslot.2

end

theorem claimInv_initial (L : Libs) (acl : Table String AclEntry)
    (domains : Table String DomainEntry) : ClaimInv L (ControlStore.initial acl domains) :=
  ⟨nameInv_initial L acl domains, fun _ => trivial⟩

/-- A name that resolves has an index row, and its record serves it. -/
theorem resolveAgentNameToDid_eq {A : AppState} {s : ControlStore} {domain name did : String}
    (h : (resolveAgentNameToDid A domain name).eval s = .ok (some did)) :
    ∃ m r, s.nameHolder domain (bareName name) = some m ∧ s.record m = some r ∧
      r.didId = some did ∧ ∃ e ∈ r.agentNames, e.name = bareName name ∧ e.enabled = true := by
  rw [Query.eval_eq_ok_iff] at h
  unfold resolveAgentNameToDid at h
  split at h
  · simp at h
  · simp only [Query.yields_bind, Query.yields_read, Set.mem_singleton_iff,
      exists_eq_left] at h
    cases hholder : s.nameHolder domain (bareName name) with
    | none => simp [hholder] at h
    | some m =>
        simp only [hholder, Query.yields_bind, Query.yields_read, Set.mem_singleton_iff,
          exists_eq_left] at h
        cases hrow : s.record m with
        | none => simp [hrow] at h
        | some r =>
            simp only [hrow] at h
            split at h
            · rename_i hserves
              have hany : ∃ e ∈ r.agentNames, e.name = bareName name ∧ e.enabled = true := by
                simpa [servesName, List.any_eq_true] using (Bool.and_eq_true_iff.mp hserves).2
              exact ⟨m, r, rfl, hrow, (Query.yields_pure.mp h).symm, hany⟩
            · simp at h

/-- A name with an index row resolves when its record serves it. -/
theorem resolveAgentNameToDid_of_served {A : AppState} {s : ControlStore}
    {domain name m : String} {r : DidRecord} (hon : A.config.agentNames = true)
    (hholder : s.nameHolder domain (bareName name) = some m) (hrecord : s.record m = some r)
    (hserves : servesName r (bareName name) = true) :
    (resolveAgentNameToDid A domain name).eval s = .ok r.didId := by
  rw [Query.eval_eq_ok_iff]
  unfold resolveAgentNameToDid
  rw [hon]
  simp only [Bool.not_true, Bool.false_eq_true, if_false, Query.yields_bind,
    Query.yields_read, Set.mem_singleton_iff, exists_eq_left, hholder, hrecord, hserves,
    if_true, Query.yields_pure]

/-! ## The guarantee -/

/-- In every run that meets the condition, a name that resolves to a DID is
claimed, on that domain, by the current document of the DID's slot. -/
theorem resolved_names_claimed (A : AppState) (acl : Table String AclEntry)
    (domains : Table String DomainEntry) (events : List Event)
    (hok : Run.Meets (Event.step A) (fun s e => KeepsIndex A s e ∧ KeepsClaims A s e)
      (ControlStore.initial acl domains) events) :
    let s := Run.exec (Event.step A) (ControlStore.initial acl domains) events
    ∀ domain name did, (resolveAgentNameToDid A domain name).eval s = .ok (some did) →
      ∃ m r c, s.nameHolder domain (bareName name) = some m ∧ s.record m = some r ∧
        r.didId = some did ∧ s.log m = some c ∧
        bareName name ∈ claimedNames A.libs r c domain ∧
        (r.method = .webvh → bareName name ∈ extractAgentNames A.libs c domain) := by
  intro s domain name did hres
  have hinv : ClaimInv A.libs s :=
    Run.exec_invariant (fun _ e => claimInv_step e) (claimInv_initial A.libs acl domains) hok
  obtain ⟨m, r, hholder, hrecord, hdid, e, he, hname, hon⟩ := resolveAgentNameToDid_eq hres
  have hdomain : slotDomain A.libs r = domain := by
    obtain ⟨r', hr', -, hd⟩ := (hinv.1.nameHolder_iff _ _ _).mp hholder
    rw [hrecord] at hr'
    cases hr'
    exact hd
  have hslot := hinv.2 m
  rw [hrecord] at hslot
  cases hlog : s.log m with
  | none =>
      rw [hlog] at hslot
      rw [hslot e he] at hon
      contradiction
  | some c =>
      rw [hlog] at hslot
      have hclaimed := hslot e he hon
      rw [hname, hdomain] at hclaimed
      refine ⟨m, r, c, hholder, hrecord, hdid, hlog, hclaimed, ?_⟩
      intro hwebvh
      rwa [claimedNames_webvh hwebvh] at hclaimed

section Samples

open Reference

theorem bareName_al : bareName "al" = "al" := by decide +kernel

theorem servesName_namedAl : servesName namedAl (bareName "al") = true := by
  rw [bareName_al]
  unfold namedAl publishedRecord
  rw [publishedClaims_named2]
  rfl

/-- The guarantee along a run in which the second version of slot `al` claims the
name. -/
theorem resolved_names_claimed_publish :
    let s := Run.exec (Event.step control) fresh claimRun
    Run.Meets (Event.step control)
        (fun s e => KeepsIndex control s e ∧ KeepsClaims control s e) fresh claimRun ∧
      (resolveAgentNameToDid control "h.io" "al").eval s = .ok (some didAl) ∧
      ∃ m r c, s.nameHolder "h.io" "al" = some m ∧ s.record m = some r ∧
        r.didId = some didAl ∧ s.log m = some c ∧ "al" ∈ claimedNames libs r c "h.io" := by
  intro s
  have hclaims : Run.Meets (Event.step control) (KeepsClaims control) fresh claimRun :=
    ⟨trivial, trivial, trivial⟩
  have hresolve : (resolveAgentNameToDid control "h.io" "al").eval s = .ok (some didAl) := by
    refine resolveAgentNameToDid_of_served rfl ?_ stored_named2.record servesName_namedAl
    rw [bareName_al]
    exact nameHolder_named2
  obtain ⟨m, r, c, hholder, hrecord, hdid, hlog, hclaimed, -⟩ :=
    resolved_names_claimed control ∅ ∅ claimRun (keepsIndex_claimRun.and hclaims) "h.io" "al"
      didAl hresolve
  rw [bareName_al] at hholder hclaimed
  exact ⟨keepsIndex_claimRun.and hclaims, hresolve, m, r, c, hholder, hrecord, hdid, hlog,
    hclaimed⟩

/-- After a rollback to a version that did not claim it, a name still
resolves. -/
theorem rolled_back_name_resolves :
    let s := Run.exec (Event.step control) fresh
      [.serve (.register admin 1 "al" (logOf [al1]) false none),
        .serve (.publish admin 2 "al" (logOf [al1, named2]) none),
        .serve (.rollback admin 3 "al" (some 1))]
    (resolveAgentNameToDid control "h.io" "al").eval s = .ok (some didAl) ∧
      s.log "al" = some (logOf [al1]) ∧ extractAgentNames libs (logOf [al1]) "h.io" = [] := by
  intro s
  have hdid : (rolledBack libs namedAl (logOf [al1]) 1 3).didId = some didAl :=
    (rolledBack_didId libs namedAl (logOf [al1]) 1 3).trans validLog_al1.extractDidId_eq
  have hs : s = Event.step control (Run.exec (Event.step control) fresh claimRun)
      (.serve (.rollback admin 3 "al" (some 1))) :=
    Run.exec_concat (Event.step control) fresh claimRun _
  rw [hs]
  refine ⟨?_, stored_rolledBack.log, ?_⟩
  · rw [← hdid]
    refine resolveAgentNameToDid_of_served rfl ?_ stored_rolledBack.record servesName_namedAl
    rw [bareName_al]
    exact nameHolder_rolledBack
  · rw [validLog_al1.extractAgentNames_eq]
    exact agentNames_document didAl "h.io" []

end Samples

end DidHosting
