import DidHosting.Common.Reference
import DidHosting.Edge.DomainSpec
import DidHosting.Edge.History

/-!
# Pending purges

One row per domain says when the domain's slots are due for deletion.  Two reasons
share it: an unassign, and the grace of a disabled domain.  Along every run the row
an unassign wrote belongs to a domain that is not assigned, so a second unassign
leaves it as it is; it goes with an assign, with a purge, or with an upsert of the
domain, which sets the schedule of its own entry.
-/

namespace DidHosting

open Text

/-! ## Stores of a run -/

/-- What the pending purges of a run satisfy. -/
structure PurgeInv (s : EdgeStore) : Prop where
  keyed : s.Keyed
  named : ∀ d p, s.pendingPurges.lookup d = some p → p.domain = d ∧ d ≠ ""
  unassigned : ∀ d p, s.pendingPurges.lookup d = some p → p.reason = "grace-expired" →
    s.assignments.lookup d = none

/-- What an operation does to the pending purge `p` of the domain `d`: the row stays,
or it goes in one of the ways below. -/
inductive PurgeFate (op : EdgeOp) (d : String) (p : PendingPurge) (s' : EdgeStore) : Prop where
  | kept (hrow : s'.pendingPurges.lookup d = some p)
  | assigned {now : ℕ} {assigner : String} (hop : op = .domainAssign now assigner d)
  | purged (hop : (∃ issuedAt, op = .domainPurge issuedAt d) ∨ ∃ now, op = .sweep now)
      (hgone : s'.Vacated d)
  | upserted {scheduledBy : String} {entry : DomainEntry}
      (hop : op = .domainUpsert scheduledBy entry) (hname : entry.name = d)
      (hsets : entry.status = .active ∨
        (entry.disabledAt.isSome = true ∧ entry.purgeAt.isSome = true))

section Sweep

variable {L : Libs} {s : EdgeStore}

/-- From `s` to `t` no record has come, and a pending purge that has gone has left no
slot of its domain. -/
structure Swept (s t : EdgeStore) : Prop where
  assignments : t.assignments = s.assignments
  record : ∀ m record, t.record m = some record → s.record m = some record
  pending : ∀ d, t.pendingPurges.lookup d = s.pendingPurges.lookup d ∨
    (t.pendingPurges.lookup d = none ∧ t.Vacated d)

theorem Swept.refl (s : EdgeStore) : Swept s s :=
  ⟨rfl, fun _ _ h => h, fun _ => Or.inl rfl⟩

theorem EdgeStore.Vacated.mono {t : EdgeStore} {d : String} (h : s.Vacated d)
    (hrec : ∀ m record, t.record m = some record → s.record m = some record) : t.Vacated d :=
  fun m record ht => h m record (hrec m record ht)

theorem Swept.trans {t u : EdgeStore} (h : Swept s t) (h' : Swept t u) : Swept s u where
  assignments := h'.assignments.trans h.assignments
  record := fun m record hu => h.record m record (h'.record m record hu)
  pending := by
    intro d
    rcases h'.pending d with hsame | hgone
    · rcases h.pending d with hsame' | ⟨hnone, hvacated⟩
      · exact Or.inl (hsame.trans hsame')
      · exact Or.inr ⟨hsame.trans hnone, hvacated.mono h'.record⟩
    · exact Or.inr hgone

theorem keyed_of_record {t : EdgeStore} (h : s.Keyed)
    (hrec : ∀ m record, t.record m = some record → s.record m = some record) : t.Keyed :=
  fun m record ht => h m record (hrec m record ht)

/-- The end of a due entry: the domain's record may go, nothing else. -/
theorem run_finishPurge (L : Libs) (entry : PendingPurge) (s : EdgeStore) :
    ∃ done t, (finishPurge L entry).run s = (.ok done, t) ∧ t.ks = s.ks ∧
      t.assignments = s.assignments ∧ t.pendingPurges = s.pendingPurges := by
  unfold finishPurge
  split
  · unfold deleteDomainRecord
    split
    · exact ⟨false, s, rfl, rfl, rfl, rfl⟩
    · rename_i canonical hcanonical
      rw [Prog.run_bind, Prog.run_liftM]
      simp only [Query.read, Query.eval]
      rw [Prog.run_bind, Prog.run_liftM]
      simp only [Query.eval]
      by_cases hdel : (s.defaultDomain ≠ some canonical &&
          (s.domains.lookup canonical).isSome) = true
      · simp only [hdel, if_true]
        exact ⟨true, _, rfl, rfl, rfl, rfl⟩
      · have hfalse := Bool.eq_false_iff.mpr hdel
        simp only [hfalse, Bool.false_eq_true, if_false]
        exact ⟨false, s, rfl, rfl, rfl, rfl⟩
  · exact ⟨true, s, rfl, rfl, rfl, rfl⟩

/-- A sweep takes the rows whose slots it has deleted. -/
theorem run_sweepLoop (now : ℕ) (entries : List PendingPurge)
    (hnames : ∀ p ∈ entries, p.domain ≠ "") (hkeyed : s.Keyed) (purged : ℕ) :
    ∃ n t, (sweepLoop L now purged entries).run s = (.ok n, t) ∧ Swept s t := by
  induction entries generalizing s purged with
  | nil => exact ⟨purged, s, rfl, Swept.refl s⟩
  | cons entry entries ih =>
      have hrest : ∀ p ∈ entries, p.domain ≠ "" :=
        fun p hp => hnames p (List.mem_cons_of_mem _ hp)
      unfold sweepLoop
      split
      · exact ih hrest hkeyed _
      · obtain ⟨report, s₁, hpurge, hsame, hrec⟩ :=
          run_purgeDomainDids L (hnames entry List.mem_cons_self) hkeyed
        obtain ⟨done, s₂, hfinish, hks, hassign, hpending⟩ := run_finishPurge L entry s₁
        have hrecord : ∀ m record, s₂.record m = some record → s.record m = some record := by
          intro m record h
          rw [EdgeStore.record, hks] at h
          exact ((hrec m record).mp h).1
        have hvacated : s₂.Vacated entry.domain := by
          intro m record h
          rw [EdgeStore.record, hks] at h
          exact ((hrec m record).mp h).2
        rw [Prog.run_bind_ok hpurge, Prog.run_bind_ok hfinish]
        split
        · -- the row goes with its slots
          have hswept : Swept s (s₂.cancelled entry.domain) := by
            refine ⟨?_, ?_, ?_⟩
            · rw [EdgeStore.cancelled_assignments, hassign, hsame.assignments]
            · intro m record h
              rw [EdgeStore.cancelled_record] at h
              exact hrecord m record h
            · intro d
              rw [EdgeStore.cancelled_pendingPurges, hpending, hsame.pendingPurges]
              split
              · rename_i hd
                rw [hd]
                refine Or.inr ⟨rfl, ?_⟩
                intro m record h
                rw [EdgeStore.cancelled_record] at h
                exact hvacated m record h
              · exact Or.inl rfl
          obtain ⟨n, t, hrun, hswept'⟩ :=
            ih (s := s₂.cancelled entry.domain) hrest (keyed_of_record hkeyed hswept.record)
              (purged + 1)
          refine ⟨n, t, ?_, hswept.trans hswept'⟩
          rw [Prog.run_bind_ok (run_cancelPurge entry.domain s₂)]
          exact hrun
        · have hswept : Swept s s₂ :=
            ⟨hassign.trans hsame.assignments, hrecord,
              fun d => Or.inl (by rw [hpending, hsame.pendingPurges])⟩
          obtain ⟨n, t, hrun, hswept'⟩ := ih (s := s₂) hrest (keyed_of_record hkeyed hrecord) purged
          exact ⟨n, t, hrun, hswept.trans hswept'⟩

theorem run_runSweepOnce (now : ℕ) (h : PurgeInv s) :
    ∃ n t, (runSweepOnce L now).run s = (.ok n, t) ∧ Swept s t := by
  refine run_sweepLoop now _ ?_ h.keyed 0
  intro p hp
  obtain ⟨⟨d, p'⟩, hmem, rfl⟩ := List.mem_map.mp hp
  obtain ⟨hname, hne⟩ := h.named d p' (Table.mem_rows.mp hmem)
  rw [hname]
  exact hne

end Sweep

/-! ## Operations on slots -/

/-- The write is on the `dids` keyspace. -/
def EdgeWrite.OnDids (w : EdgeWrite) : Prop :=
  ∃ batch, w = .dids batch

theorem didsOnly_run {α : Type} {p : EdgeM α} (hp : p.Writes EdgeWrite.OnDids) (s : EdgeStore) :
    DidsOnly s (p.run s).2 := by
  refine hp.run_invariant ?_ (DidsOnly.refl s)
  rintro w t ⟨batch, rfl⟩ ht
  exact ht.trans ⟨rfl, rfl, rfl, rfl⟩

theorem applySyncEntry_onDids (E : EdgeState) (now : ℕ) (update : DidSyncUpdate) :
    (applySyncEntry E now update).Writes EdgeWrite.OnDids := by
  refine Prog.writes_bind (Prog.writes_check _) fun _ => Prog.writes_planned ?_
  intro w a hw
  rw [Query.yields_mapError] at hw
  rcases updatePlan_spec hw with heq | ⟨document, identity, previous, -, -, -, -, -, heq⟩
  · cases heq
  · cases heq
    exact ⟨_, rfl⟩

theorem doSyncDelete_onDids (E : EdgeState) (mnemonic : String) :
    (doSyncDelete E mnemonic).Writes EdgeWrite.OnDids := by
  refine Prog.writes_planned ?_
  intro w a hw
  unfold syncDeletePlan at hw
  simp only [Query.yields_bind, Query.yields_read] at hw
  obtain ⟨row, -, hw⟩ := hw
  cases row with
  | none => simp at hw
  | some record =>
      simp only [Query.yields_pure, Prod.mk.injEq, Option.some.injEq] at hw
      exact ⟨_, hw.1⟩

theorem cleanupLoop_onDids (now ttlSeconds : ℕ) (records : List DidRecord) :
    (cleanupLoop now ttlSeconds records).Writes EdgeWrite.OnDids := by
  have hone : ∀ op : BatchOp, (Prog.write (.dids [op]) : EdgeM Unit).Writes EdgeWrite.OnDids :=
    fun op => ⟨⟨[op], rfl⟩, trivial⟩
  induction records with
  | nil => trivial
  | cons record records ih =>
      unfold cleanupLoop
      split
      · exact Prog.writes_bind (hone _) fun _ => Prog.writes_bind (hone _) fun _ =>
          Prog.writes_bind (hone _) fun _ => Prog.writes_bind (hone _) fun _ => ih
      · exact ih

theorem entry_didsOnly (E : EdgeState) (r : EdgeRun) (e : ℕ × DidSyncUpdate) :
    DidsOnly r.store (r.entry E e).store := by
  rw [EdgeRun.entry_store]
  exact didsOnly_run (applySyncEntry_onDids E e.1 e.2) r.store

theorem entries_didsOnly (E : EdgeState) (r : EdgeRun) (updates : List (ℕ × DidSyncUpdate)) :
    DidsOnly r.store (updates.foldl (EdgeRun.entry E) r).store := by
  induction updates generalizing r with
  | nil => exact DidsOnly.refl _
  | cons e updates ih => exact (entry_didsOnly E r e).trans (ih (r.entry E e))

/-! ## One operation -/

theorem keyed_history {E : EdgeState} {r r' : EdgeRun} (h : r.store.Keyed)
    (hsteps : Relation.ReflTransGen (HistoryStep E) r r') : r'.store.Keyed := by
  induction hsteps with
  | refl => exact h
  | tail _ hstep ih =>
      cases hstep with
      | kept hmarks _ => exact keyed_of_record ih hmarks.record
      | applied update identity happlied _ =>
          obtain ⟨document, now, hrecord⟩ := happlied.record
          intro m record hrec
          rw [hrecord] at hrec
          split at hrec
          · rename_i hm
            cases hrec
            exact hm.symm
          · exact ih m record hrec

section Step

variable {E : EdgeState} {s s' : EdgeStore} {op : EdgeOp}

/-- The invariant and the fate of every row an unassign wrote. -/
structure Fated (op : EdgeOp) (s s' : EdgeStore) : Prop where
  named : ∀ d p, s'.pendingPurges.lookup d = some p → p.domain = d ∧ d ≠ ""
  unassigned : ∀ d p, s'.pendingPurges.lookup d = some p → p.reason = "grace-expired" →
    s'.assignments.lookup d = none
  fate : ∀ d p, s.pendingPurges.lookup d = some p → p.reason = "grace-expired" →
    PurgeFate op d p s'

/-- Nothing about assignments or pending purges has changed. -/
theorem Fated.same (h : PurgeInv s) (hassign : s'.assignments = s.assignments)
    (hpending : s'.pendingPurges = s.pendingPurges) : Fated op s s' where
  named := fun d p hrow => h.named d p (hpending ▸ hrow)
  unassigned := fun d p hrow hreason => by
    rw [hassign]
    exact h.unassigned d p (hpending ▸ hrow) hreason
  fate := fun d p hrow _ => .kept (by rw [hpending]; exact hrow)

theorem Fated.didsOnly (h : PurgeInv s) (hsame : DidsOnly s s') : Fated op s s' :=
  Fated.same h hsame.assignments hsame.pendingPurges

theorem Fated.cancelled (h : PurgeInv s) {domain : String}
    (hpending : s'.pendingPurges = s.pendingPurges)
    (hassign : ∀ d, d ≠ domain → s'.assignments.lookup d = s.assignments.lookup d)
    (hfate : ∀ p, PurgeFate op domain p (s'.cancelled domain)) :
    Fated op s (s'.cancelled domain) where
  named := by
    intro d p hrow
    rw [EdgeStore.cancelled_pendingPurges, hpending] at hrow
    split at hrow
    · contradiction
    · exact h.named d p hrow
  unassigned := by
    intro d p hrow hreason
    rw [EdgeStore.cancelled_pendingPurges, hpending] at hrow
    split at hrow
    · contradiction
    · rename_i hd
      rw [EdgeStore.cancelled_assignments, hassign d hd]
      exact h.unassigned d p hrow hreason
  fate := by
    intro d p hrow _
    by_cases hd : d = domain
    · rw [hd]
      exact hfate p
    · refine .kept ?_
      rw [EdgeStore.cancelled_pendingPurges, if_neg hd, hpending]
      exact hrow

theorem fated_assign (h : PurgeInv s) (L : Libs) (now : ℕ) (assigner domain : String) :
    Fated (.domainAssign now assigner domain) s
      ((doDomainAssign L now assigner domain).run s).2 := by
  rw [run_doDomainAssign]
  cases checkCanonical L domain "replica/domain/assign" with
  | error e => exact Fated.same h rfl rfl
  | ok u =>
      simp only
      refine Fated.cancelled h ?_ ?_ ?_
      · rfl
      · intro d hd
        exact AList.lookup_insert_ne hd
      · exact fun p => .assigned rfl

theorem fated_unassign (h : PurgeInv s) (L : Libs) (now grace : ℕ) (assigner domain : String) :
    Fated (.domainUnassign now grace assigner domain) s
      ((doDomainUnassign L now grace assigner domain).run s).2 := by
  rw [run_doDomainUnassign]
  cases hcheck : checkCanonical L domain "replica/domain/unassign" with
  | error e => exact Fated.same h rfl rfl
  | ok u =>
      simp only
      split
      · rename_i hassigned
        refine ⟨?_, ?_, ?_⟩
        · intro d p hrow
          have hrow := (Table.lookup_insert_ite ..).symm.trans hrow
          split at hrow
          · rename_i hd
            cases hrow
            exact ⟨hd.symm, hd ▸ (checkCanonical_eq_ok hcheck).2⟩
          · exact h.named d p hrow
        · intro d p hrow hreason
          have hrow := (Table.lookup_insert_ite ..).symm.trans hrow
          refine (Table.lookup_erase_ite ..).trans ?_
          split at hrow
          · rename_i hd
            rw [if_pos hd]
          · rename_i hd
            rw [if_neg hd]
            exact h.unassigned d p hrow hreason
        · intro d p hrow hreason
          refine .kept ((Table.lookup_insert_ite ..).trans ?_)
          rw [if_neg, hrow]
          -- the domain is assigned, so its row is not one of an unassign
          rintro rfl
          rw [h.unassigned d p hrow hreason] at hassigned
          contradiction
      · exact Fated.same h rfl rfl

theorem fated_purge (h : PurgeInv s) (L : Libs) (issuedAt : ℕ) (domain : String) :
    Fated (.domainPurge issuedAt domain) s ((doDomainPurge L issuedAt domain).run s).2 := by
  rw [run_doDomainPurge]
  cases hcheck : checkCanonical L domain "replica/domain/purge" with
  | error e => exact Fated.same h rfl rfl
  | ok u =>
      simp only
      cases checkFresh issuedAt (s.assignments.lookup domain) with
      | error e => exact Fated.same h rfl rfl
      | ok u =>
          obtain ⟨report, t, hrun, hsame, hrec⟩ :=
            run_purgeDomainDids L (checkCanonical_eq_ok hcheck).2 h.keyed
          simp only [hrun]
          refine Fated.cancelled h hsame.pendingPurges ?_ ?_
          · intro d _
            rw [hsame.assignments]
          · intro p
            refine .purged (Or.inl ⟨issuedAt, rfl⟩) ?_
            intro m record hr
            rw [EdgeStore.cancelled_record] at hr
            exact ((hrec m record).mp hr).2

theorem fated_upsert (h : PurgeInv s) (L : Libs) (scheduledBy : String) (entry : DomainEntry) :
    Fated (.domainUpsert scheduledBy entry) s
      ((doDomainUpsert L scheduledBy entry).run s).2 := by
  rw [run_doDomainUpsert]
  cases hcheck : checkUpsertName L entry.name with
  | error e => exact Fated.same h rfl rfl
  | ok u =>
      simp only
      let s₁ : EdgeStore := { s with domains := s.domains.insert entry.name entry }
      rcases rescheduled_cases s₁ scheduledBy entry with
        ⟨hstatus, heq⟩ | ⟨disabledAt, purgeAt, hdisabled, hpurge, heq⟩ | heq
      · rw [heq]
        refine Fated.cancelled h ?_ ?_ ?_
        · rfl
        · exact fun _ _ => rfl
        · exact fun p => .upserted rfl rfl (Or.inl hstatus)
      · rw [heq]
        refine ⟨?_, ?_, ?_⟩
        · intro d p hrow
          have hrow := (Table.lookup_insert_ite ..).symm.trans hrow
          split at hrow
          · rename_i hd
            cases hrow
            exact ⟨hd.symm, hd ▸ (checkUpsertName_eq_ok hcheck).2⟩
          · exact h.named d p hrow
        · intro d p hrow hreason
          have hrow := (Table.lookup_insert_ite ..).symm.trans hrow
          split at hrow
          · -- the row of a disabled domain gives another reason
            cases hrow
            have hne : disablePurgeReason ≠ "grace-expired" := by decide
            exact absurd hreason hne
          · exact h.unassigned d p hrow hreason
        · intro d p hrow hreason
          by_cases hd : d = entry.name
          · refine .upserted rfl hd.symm (Or.inr ⟨?_, ?_⟩)
            · rw [hdisabled]
              rfl
            · rw [hpurge]
              rfl
          · exact .kept ((Table.lookup_insert_ite ..).trans ((if_neg hd).trans hrow))
      · rw [heq]
        exact Fated.same h rfl rfl

theorem fated_sweep (h : PurgeInv s) (L : Libs) (now : ℕ) :
    Fated (.sweep now) s ((runSweepOnce L now).run s).2 := by
  obtain ⟨n, t, hrun, hswept⟩ := run_runSweepOnce (L := L) now h
  rw [hrun]
  have hrow : ∀ d p, t.pendingPurges.lookup d = some p → s.pendingPurges.lookup d = some p := by
    intro d p hp
    rcases hswept.pending d with hsame | ⟨hnone, -⟩
    · rwa [hsame] at hp
    · rw [hnone] at hp
      contradiction
  refine ⟨?_, ?_, ?_⟩
  · exact fun d p hp => h.named d p (hrow d p hp)
  · intro d p hp hreason
    rw [hswept.assignments]
    exact h.unassigned d p (hrow d p hp) hreason
  · intro d p hp hreason
    rcases hswept.pending d with hsame | ⟨-, hvacated⟩
    · exact .kept (hsame.trans hp)
    · exact .purged (Or.inr ⟨now, rfl⟩) hvacated

/-- Every operation keeps the invariant, and a row of an unassign goes only in the
listed ways. -/
theorem step_fated (r : EdgeRun) (h : PurgeInv r.store) (op : EdgeOp) :
    Fated op r.store (r.step E op).store := by
  cases op with
  | syncUpdate now update => exact Fated.didsOnly h (entry_didsOnly E r (now, update))
  | syncBatch updates => exact Fated.didsOnly h (entries_didsOnly E r updates)
  | syncDelete m => exact Fated.didsOnly h (didsOnly_run (doSyncDelete_onDids E m) r.store)
  | domainAssign now assigner d => exact fated_assign h E.libs now assigner d
  | domainUnassign now grace assigner d => exact fated_unassign h E.libs now grace assigner d
  | domainPurge issuedAt d => exact fated_purge h E.libs issuedAt d
  | domainUpsert scheduledBy entry => exact fated_upsert h E.libs scheduledBy entry
  | sweep now => exact fated_sweep h E.libs now
  | cleanup now ttl =>
      refine Fated.didsOnly h (didsOnly_run ?_ r.store)
      exact Prog.writes_bind (Prog.writes_liftM _) fun _ => cleanupLoop_onDids now ttl _

theorem purgeInv_step (r : EdgeRun) (op : EdgeOp) (h : PurgeInv r.store) :
    PurgeInv (r.step E op).store := by
  have hfated := step_fated (E := E) r h op
  exact ⟨keyed_history h.keyed (EdgeRun.step_history E r op), hfated.named, hfated.unassigned⟩

end Step

/-- From a start without pending purges the invariant holds after every run. -/
theorem purgeInv_exec (E : EdgeState) (assignments : Table String AssignmentEntry)
    (domains : Table String DomainEntry) (defaultDomain : Option String) (ops : List EdgeOp) :
    PurgeInv (Run.exec (EdgeRun.step E)
      (EdgeRun.initial assignments ∅ domains defaultDomain) ops).store := by
  have hstart : PurgeInv (EdgeRun.initial assignments ∅ domains defaultDomain).store :=
    ⟨fun _ _ h => (nomatch h), fun _ _ h => (nomatch h), fun _ _ h => (nomatch h)⟩
  have hstep : ∀ (r : EdgeRun) (op : EdgeOp), PurgeInv r.store → PurgeInv (r.step E op).store :=
    fun r op h => purgeInv_step r op h
  induction ops using List.reverseRecOn with
  | nil => exact hstart
  | append_singleton ops op ih =>
      rw [Run.exec_append, Run.exec_cons, Run.exec_nil]
      exact hstep _ op ih

/-! ## The guarantee -/

namespace PurgeSample

/-- An edge with the reference libraries. -/
def edge : EdgeState := ⟨Reference.libs, none⟩

/-- A run from an edge that `h.io` is assigned to. -/
def after (ops : List EdgeOp) : EdgeStore :=
  (Run.exec (EdgeRun.step edge)
    (EdgeRun.initial (AList.singleton "h.io" ⟨"h.io", 1, "did:c"⟩) ∅ ∅ none) ops).store

/-- The control plane takes the domain back. -/
def unassign : EdgeOp := .domainUnassign 5 7200 "did:c" "h.io"

def row : PendingPurge := ⟨"h.io", 5, 7200, "grace-expired", "did:c"⟩

end PurgeSample

end DidHosting
