import DidHosting.Common.DomainStore
import DidHosting.Edge.Domains

/-!
# What the domain operations do

Each operation run alone, as an equation on stores.  The purge of a domain is
stated on stores that file every record under its own mnemonic, which is how the
sync path files them.
-/

namespace DidHosting

open Text

namespace EdgeStore

/-- Every record is filed under its mnemonic. -/
def Keyed (s : EdgeStore) : Prop :=
  ∀ m record, s.record m = some record → record.mnemonic = m

/-- No slot of `domain` is held. -/
def Vacated (s : EdgeStore) (domain : String) : Prop :=
  ∀ m record, s.record m = some record → record.domain ≠ domain

/-- The store without the pending purge of `domain`. -/
def cancelled (s : EdgeStore) (domain : String) : EdgeStore :=
  if (s.pendingPurges.lookup domain).isSome then
    { s with pendingPurges := s.pendingPurges.erase domain }
  else s

@[simp] theorem cancelled_ks (s : EdgeStore) (domain : String) :
    (s.cancelled domain).ks = s.ks := by
  unfold cancelled
  split <;> rfl

@[simp] theorem cancelled_record (s : EdgeStore) (domain m : String) :
    (s.cancelled domain).record m = s.record m := by
  unfold record
  rw [cancelled_ks]

@[simp] theorem cancelled_assignments (s : EdgeStore) (domain : String) :
    (s.cancelled domain).assignments = s.assignments := by
  unfold cancelled
  split <;> rfl

@[simp] theorem cancelled_domains (s : EdgeStore) (domain : String) :
    (s.cancelled domain).domains = s.domains := by
  unfold cancelled
  split <;> rfl

theorem cancelled_pendingPurges (s : EdgeStore) (domain d : String) :
    (s.cancelled domain).pendingPurges.lookup d =
      if d = domain then none else s.pendingPurges.lookup d := by
  unfold cancelled
  split
  · exact Table.lookup_erase_ite ..
  · rename_i hnone
    split
    · rename_i hd
      rw [hd]
      simpa using hnone
    · rfl

end EdgeStore

theorem run_cancelPurge (domain : String) (s : EdgeStore) :
    (cancelPurge domain).run s = (.ok (), s.cancelled domain) := by
  unfold cancelPurge EdgeStore.cancelled
  rw [Prog.run_bind, Prog.run_liftM]
  simp only [Query.read, Query.eval]
  split <;> rfl

/-! ## Purging -/

theorem commit_dropSlot (L : Libs) (m : String) (record : DidRecord) (ks : DidsKs) :
    DidsKs.commit (dropSlot L m record) ks =
      { ks with
        dids := ks.dids.erase m
        contentLog := ks.contentLog.erase m
        contentWitness := ks.contentWitness.erase m
        ownerIndex := ks.ownerIndex.erase (record.owner, m)
        watcherSync := ks.watcherSync.erase m
        agentName := Table.eraseAll (record.agentNames.map fun n =>
          (hostOfDidId L record.didId, n.name)) ks.agentName } := by
  have hnames : (record.agentNames.map fun n =>
      BatchOp.removeName (hostOfDidId L record.didId) n.name) =
      (record.agentNames.map (·.name)).map fun n =>
        .removeName (hostOfDidId L record.didId) n := by
    rw [List.map_map]
    rfl
  unfold dropSlot
  rw [DidsKs.commit_append, hnames, DidsKs.commit_map_removeName, List.map_map]
  rfl

/-- From `s` to `t` the slot keeps its record and its log. -/
def SlotKept (s t : EdgeStore) (m : String) : Prop :=
  t.record m = s.record m ∧ t.log m = s.log m

/-- The batch of a purged slot takes its record and its log, and no other. -/
theorem commit_purgeBatch (L : Libs) (record : DidRecord) (s : EdgeStore) (m : String) :
    (EdgeStore.commit (.dids (purgeBatch L record)) s).record m =
        (if m = record.mnemonic then none else s.record m) ∧
      (EdgeStore.commit (.dids (purgeBatch L record)) s).log m =
        if m = record.mnemonic then none else s.log m := by
  have hks := commit_dropSlot L record.mnemonic record s.ks
  constructor
  · have hdids := congrArg (fun ks => ks.dids.lookup m) hks
    exact hdids.trans (Table.lookup_erase_ite ..)
  · have hlogs := congrArg (fun ks => ks.contentLog.lookup m) hks
    exact hlogs.trans (Table.lookup_erase_ite ..)

/-- From `s` to `t` only rows of the `dids` keyspace have changed. -/
structure DidsOnly (s t : EdgeStore) : Prop where
  assignments : t.assignments = s.assignments
  pendingPurges : t.pendingPurges = s.pendingPurges
  domains : t.domains = s.domains
  defaultDomain : t.defaultDomain = s.defaultDomain

theorem DidsOnly.refl (s : EdgeStore) : DidsOnly s s :=
  ⟨rfl, rfl, rfl, rfl⟩

theorem DidsOnly.trans {s t u : EdgeStore} (h : DidsOnly s t) (h' : DidsOnly t u) :
    DidsOnly s u :=
  ⟨h'.assignments.trans h.assignments, h'.pendingPurges.trans h.pendingPurges,
    h'.domains.trans h.domains, h'.defaultDomain.trans h.defaultDomain⟩

/-- The record loop removes the listed slots of the domain and no other record. -/
theorem run_purgeLoop (L : Libs) (target : String) (records : List DidRecord)
    (report : PurgeReport) (s : EdgeStore) :
    ∃ report' t, (purgeLoop L target report records).run s = (.ok report', t) ∧ DidsOnly s t ∧
      ∀ m, t.record m =
        if ∃ record ∈ records, record.mnemonic = m ∧ record.domain = target ∧ record.domain ≠ ""
        then none else s.record m := by
  induction records generalizing report s with
  | nil => exact ⟨report, s, rfl, DidsOnly.refl s, fun m => by simp⟩
  | cons record records ih =>
      have hskip : (record.domain ≠ target ∨ record.domain = "") → ∀ m,
          (∃ r ∈ record :: records, r.mnemonic = m ∧ r.domain = target ∧ r.domain ≠ "") ↔
            ∃ r ∈ records, r.mnemonic = m ∧ r.domain = target ∧ r.domain ≠ "" := by
        intro hother m
        rw [List.exists_mem_cons_iff, or_iff_right]
        rintro ⟨-, htarget, hne⟩
        exact hother.elim (fun h => h htarget) hne
      unfold purgeLoop
      split
      · rename_i hempty
        obtain ⟨report', t, hrun, hsame, hrec⟩ := ih _ s
        refine ⟨report', t, hrun, hsame, fun m => ?_⟩
        rw [hrec, if_congr (hskip (Or.inr hempty) m) rfl rfl]
      · rename_i hdomain
        split
        · rename_i hne
          obtain ⟨report', t, hrun, hsame, hrec⟩ := ih _ s
          refine ⟨report', t, hrun, hsame, fun m => ?_⟩
          rw [hrec, if_congr (hskip (Or.inl hne) m) rfl rfl]
        · rename_i heq
          have htarget : record.domain = target := by simpa using heq
          let s₁ := EdgeStore.commit (.dids (purgeBatch L record)) s
          obtain ⟨report', t, hrun, hsame, hrec⟩ := ih _ s₁
          have hdrop : ∀ m, s₁.record m = if m = record.mnemonic then none else s.record m :=
            fun m => (commit_purgeBatch L record s m).1
          have hfirst : DidsOnly s s₁ := ⟨rfl, rfl, rfl, rfl⟩
          refine ⟨report', t, hrun, hfirst.trans hsame, fun m => ?_⟩
          rw [hrec, hdrop]
          by_cases hm : m = record.mnemonic
          · have hlisted : ∃ r ∈ record :: records, r.mnemonic = m ∧ r.domain = target ∧
                r.domain ≠ "" := ⟨record, List.mem_cons_self, hm.symm, htarget, hdomain⟩
            rw [if_pos hlisted, if_pos hm, ite_self]
          · have hiff : (∃ r ∈ record :: records, r.mnemonic = m ∧ r.domain = target ∧
                r.domain ≠ "") ↔ ∃ r ∈ records, r.mnemonic = m ∧ r.domain = target ∧
                  r.domain ≠ "" := by
              rw [List.exists_mem_cons_iff, or_iff_right]
              rintro ⟨hm', -⟩
              exact hm hm'.symm
            rw [if_neg hm, if_congr hiff rfl rfl]

theorem mem_allRecords {s : EdgeStore} {record : DidRecord} :
    record ∈ allRecords s ↔ ∃ m, s.record m = some record := by
  unfold allRecords
  rw [List.mem_map]
  constructor
  · rintro ⟨⟨m, r⟩, hmem, rfl⟩
    exact ⟨m, Table.mem_rows.mp hmem⟩
  · rintro ⟨m, hrec⟩
    exact ⟨(m, record), Table.mem_rows.mpr hrec, rfl⟩

/-- A purge leaves the other records and no slot of the domain. -/
theorem run_purgeDomainDids (L : Libs) {target : String} (htarget : target ≠ "")
    {s : EdgeStore} (hkeyed : s.Keyed) :
    ∃ report t, (purgeDomainDids L target).run s = (.ok report, t) ∧ DidsOnly s t ∧
      ∀ m record, t.record m = some record ↔
        s.record m = some record ∧ record.domain ≠ target := by
  obtain ⟨report, t, hrun, hsame, hrec⟩ :=
    run_purgeLoop L target (allRecords s) ⟨0, 0, 0⟩ s
  refine ⟨report, t, hrun, hsame, ?_⟩
  intro m record
  have hlisted : s.record m = some record →
      ((∃ r ∈ allRecords s, r.mnemonic = m ∧ r.domain = target ∧ r.domain ≠ "") ↔
        record.domain = target) := by
    intro hs
    constructor
    · rintro ⟨r, hmem, hm, hdomain, -⟩
      obtain ⟨m', hr⟩ := mem_allRecords.mp hmem
      have hm' : m' = m := (hkeyed m' r hr).symm.trans hm
      rw [hm', hs] at hr
      cases hr
      exact hdomain
    · intro hdomain
      exact ⟨record, mem_allRecords.mpr ⟨m, hs⟩, hkeyed m record hs, hdomain,
        hdomain ▸ htarget⟩
  rw [hrec]
  constructor
  · intro h
    split at h
    · contradiction
    · rename_i hnot
      exact ⟨h, fun hdomain => hnot ((hlisted h).mpr hdomain)⟩
  · rintro ⟨hs, hdomain⟩
    rw [if_neg (fun hl => hdomain ((hlisted hs).mp hl)), hs]

/-! ## Directives -/

theorem ne_empty_of_normalize {L : Libs} {name canonical : String}
    (h : normalizeDomainName L name = .ok canonical) : name ≠ "" := by
  rintro rfl
  simp [normalizeDomainName] at h

/-- A directive's domain is canonical, and not empty. -/
theorem checkCanonical_eq_ok {L : Libs} {name what : String}
    (h : checkCanonical L name what = .ok ()) :
    normalizeDomainName L name = .ok name ∧ name ≠ "" := by
  unfold checkCanonical at h
  cases hn : normalizeDomainName L name with
  | error e => simp [hn] at h
  | ok canonical => exact ⟨by rw [normalizeDomainName_eq_ok hn], ne_empty_of_normalize hn⟩

/-- An assign records the assignment and lifts the pending purge. -/
theorem run_doDomainAssign (L : Libs) (now : ℕ) (assigner domain : String) (s : EdgeStore) :
    ((doDomainAssign L now assigner domain).run s).2 =
      match checkCanonical L domain "replica/domain/assign" with
      | .ok _ =>
          EdgeStore.cancelled
            { s with assignments := s.assignments.insert domain ⟨domain, now, assigner⟩ } domain
      | .error _ => s := by
  unfold doDomainAssign
  cases checkCanonical L domain "replica/domain/assign" with
  | error e => rfl
  | ok u =>
      rw [Prog.run_check_bind_ok _ u rfl, Prog.run_bind_ok (Prog.run_write _ s),
        run_cancelPurge]
      rfl

theorem run_doDomainUnassign (L : Libs) (now grace : ℕ) (assigner domain : String)
    (s : EdgeStore) :
    ((doDomainUnassign L now grace assigner domain).run s).2 =
      match checkCanonical L domain "replica/domain/unassign" with
      | .ok _ =>
          if (s.assignments.lookup domain).isSome then
            { s with
              assignments := s.assignments.erase domain
              pendingPurges := s.pendingPurges.insert domain
                ⟨domain, now, grace, "grace-expired", assigner⟩ }
          else s
      | .error _ => s := by
  unfold doDomainUnassign
  cases checkCanonical L domain "replica/domain/unassign" with
  | error e => rfl
  | ok u =>
      rw [Prog.run_check_bind_ok _ u rfl, Prog.run_bind, Prog.run_liftM]
      simp only [Query.read, Query.eval]
      split <;> rfl

/-- The freshness check of a purge. -/
def checkFresh (issuedAt : ℕ) : Option AssignmentEntry → Except OpError Unit
  | some current =>
      if issuedAt < current.assignedAt then
        .error (.declared .stalePurge
          "the purge predates this server's current assignment of the domain; nothing was deleted")
      else .ok ()
  | none => .ok ()

/-- A purge that is not stale removes the slots and the pending purge. -/
theorem run_doDomainPurge (L : Libs) (issuedAt : ℕ) (domain : String) (s : EdgeStore) :
    ((doDomainPurge L issuedAt domain).run s).2 =
      match checkCanonical L domain "replica/domain/purge" with
      | .ok _ =>
          match checkFresh issuedAt (s.assignments.lookup domain) with
          | .ok _ => ((purgeDomainDids L domain).run s).2.cancelled domain
          | .error _ => s
      | .error _ => s := by
  have hprog : doDomainPurge L issuedAt domain = (do
      Prog.check (checkCanonical L domain "replica/domain/purge")
      let row ← (Query.read (·.assignments.lookup domain) : Query EdgeStore OpError _)
      Prog.check (checkFresh issuedAt row)
      let report ← purgeDomainDids L domain
      cancelPurge domain
      return report.deleted : EdgeM ℕ) := by
    unfold doDomainPurge checkFresh
    rfl
  rw [hprog]
  cases checkCanonical L domain "replica/domain/purge" with
  | error e => rfl
  | ok u =>
      rw [Prog.run_check_bind_ok _ u rfl, Prog.run_bind, Prog.run_liftM]
      simp only [Query.read, Query.eval]
      cases checkFresh issuedAt (s.assignments.lookup domain) with
      | error e => rfl
      | ok u =>
          rw [Prog.run_check_bind_ok _ u rfl]
          obtain ⟨report, t, hrun, -⟩ := run_purgeLoop L domain (allRecords s) ⟨0, 0, 0⟩ s
          have hpurge : (purgeDomainDids L domain).run s = (.ok report, t) := hrun
          rw [Prog.run_bind_ok hpurge, Prog.run_bind_ok (run_cancelPurge domain t), hpurge]
          rfl

/-- The store an upserted entry's schedule leaves. -/
def EdgeStore.rescheduled (s : EdgeStore) (scheduledBy : String) (entry : DomainEntry) :
    EdgeStore :=
  ((upsertSchedule scheduledBy entry).run s).2

/-- An upsert cancels the pending purge, schedules one, or leaves it. -/
theorem rescheduled_cases (s : EdgeStore) (scheduledBy : String) (entry : DomainEntry) :
    (entry.status = .active ∧ s.rescheduled scheduledBy entry = s.cancelled entry.name) ∨
      (∃ disabledAt purgeAt, entry.disabledAt = some disabledAt ∧ entry.purgeAt = some purgeAt ∧
        s.rescheduled scheduledBy entry =
          { s with
            pendingPurges := s.pendingPurges.insert entry.name
              ⟨entry.name, disabledAt, purgeAt - disabledAt, disablePurgeReason, scheduledBy⟩ }) ∨
      s.rescheduled scheduledBy entry = s := by
  unfold EdgeStore.rescheduled upsertSchedule
  cases hstatus : entry.status with
  | active =>
      rw [run_cancelPurge]
      exact Or.inl ⟨rfl, rfl⟩
  | disabled =>
      right
      cases hdisabled : entry.disabledAt with
      | none => exact Or.inr rfl
      | some disabledAt =>
          cases hpurge : entry.purgeAt with
          | none => exact Or.inr rfl
          | some purgeAt => exact Or.inl ⟨disabledAt, purgeAt, rfl, rfl, rfl⟩

theorem checkUpsertName_eq_ok {L : Libs} {name : String}
    (h : checkUpsertName L name = .ok ()) :
    normalizeDomainName L name = .ok name ∧ name ≠ "" := by
  unfold checkUpsertName at h
  cases hn : normalizeDomainName L name with
  | error e => simp [hn] at h
  | ok canonical => exact ⟨by rw [normalizeDomainName_eq_ok hn], ne_empty_of_normalize hn⟩

/-- An upsert under a canonical name stores the entry and sets its schedule. -/
theorem run_doDomainUpsert (L : Libs) (scheduledBy : String) (entry : DomainEntry)
    (s : EdgeStore) :
    ((doDomainUpsert L scheduledBy entry).run s).2 =
      match checkUpsertName L entry.name with
      | .ok _ =>
          EdgeStore.rescheduled { s with domains := s.domains.insert entry.name entry }
            scheduledBy entry
      | .error _ => s := by
  unfold doDomainUpsert
  cases hname : checkUpsertName L entry.name with
  | error e => rfl
  | ok u =>
      have hnormal := (checkUpsertName_eq_ok hname).1
      have hmap : (normalizeDomainName L entry.name).mapError OpError.ofApp = .ok entry.name := by
        rw [hnormal]
        rfl
      let s₁ := EdgeStore.commit (.insertDomain entry) s
      rw [Prog.run_check_bind_ok _ u rfl, Prog.run_bind, Prog.run_liftM]
      simp only [Query.read, Query.eval]
      cases hrow : s.domains.lookup entry.name with
      | none =>
          have hcreate : (createDomain L entry).run s = (.ok (), s₁) := by
            unfold createDomain
            rw [Prog.run_check_bind_ok _ _ hmap, Prog.run_bind, Prog.run_liftM]
            simp only [Query.read, Query.eval, hrow]
            rfl
          simp only [Option.isSome_none, Bool.false_eq_true, if_false]
          rw [Prog.run_bind_ok hcreate]
          rfl
      | some held =>
          have hupdate : (updateDomain L entry.name entry).run s = (.ok (), s₁) := by
            unfold updateDomain
            rw [Prog.run_check_bind_ok _ _ hmap]
            simp only [ne_eq, not_true, if_false]
            rw [Prog.run_check_bind_ok _ () rfl, Prog.run_bind, Prog.run_liftM]
            simp only [Query.read, Query.eval, hrow]
            rfl
          simp only [Option.isSome_some, if_true]
          rw [Prog.run_bind_ok hupdate]
          rfl

end DidHosting
