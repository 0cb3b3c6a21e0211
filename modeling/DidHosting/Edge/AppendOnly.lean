import DidHosting.Common.Reference
import DidHosting.Edge.History

/-!
# The append-only invariant

Along a run of an edge the high-water row of a SCID is the last log committed
for it, and the logs committed for it are pairwise successors.  The two hold
together: an update is checked against the high-water row, hence against the
last committed log, hence by transitivity against all earlier ones.

Rows of other methods share the high-water table.  They are keyed by whole
identifiers, which contain a `:`, and so are never the row of a SCID.
-/

namespace DidHosting

open Text

/-- The logs committed for a did:webvh identity, oldest first. -/
def logsOf (L : Libs) (scid : String) (committed : List DidSyncUpdate) : List String :=
  (committed.filter fun u =>
    syncedMethod L u.logContent = .webvh ∧ webvhScid u.didId = some scid).map (·.logContent)

/-- The logs of the updates of a kind, with one update more. -/
theorem contents_append (kind : DidSyncUpdate → Prop) [DecidablePred kind]
    (committed : List DidSyncUpdate) (update : DidSyncUpdate) :
    ((committed ++ [update]).filter kind).map (·.logContent) =
      if kind update then (committed.filter kind).map (·.logContent) ++ [update.logContent]
      else (committed.filter kind).map (·.logContent) := by
  rw [List.filter_append, List.map_append]
  split
  · rename_i hcond
    simp [hcond]
  · rename_i hcond
    rw [List.filter_cons_of_neg (by simpa using hcond)]
    simp

theorem logsOf_append (L : Libs) (scid : String) (committed : List DidSyncUpdate)
    (update : DidSyncUpdate) :
    logsOf L scid (committed ++ [update]) =
      if syncedMethod L update.logContent = .webvh ∧ webvhScid update.didId = some scid then
        logsOf L scid committed ++ [update.logContent]
      else logsOf L scid committed := by
  rw [logsOf]
  exact contents_append (fun u =>
    syncedMethod L u.logContent = .webvh ∧ webvhScid u.didId = some scid) committed update

/-! ## The row an update writes -/

section Identity

variable {E : EdgeState} {update : DidSyncUpdate} {identity : String} {s t : EdgeStore}

/-- An identifier of another method that resolves at a slot contains a `:`. -/
theorem colon_mem_of_boundAt {L : Libs} {method : Method} {bases : List String}
    (hmethod : method ≠ .webvh) (h : boundAt L method update bases = true) :
    ':' ∈ update.didId.toList := by
  have hend : endsWith (":" ++ replaceChar '/' ":" update.mnemonic) update.didId = true := by
    unfold boundAt at h
    split at h
    · exact absurd rfl hmethod
    · exact (Bool.and_eq_true_iff.mp h).1
  obtain ⟨start, hstart⟩ := endsWith_iff.mp hend
  rw [← hstart]
  simp

theorem Applied.identity_eq_iff (h : Applied E update identity s t) {scid : String}
    (hscid : ':' ∉ scid.toList) :
    identity = scid ↔
      syncedMethod E.libs update.logContent = .webvh ∧ webvhScid update.didId = some scid := by
  have hid := h.identity_eq
  by_cases hmethod : syncedMethod E.libs update.logContent = .webvh
  · rw [hmethod] at hid
    unfold didIdentity at hid
    cases hs : webvhScid update.didId with
    | none => simp [hs] at hid
    | some scid' =>
        simp only [hs, Except.ok.injEq] at hid
        simp [hmethod, hid]
  · have hdid : identity = update.didId := by
      cases hm : syncedMethod E.libs update.logContent with
      | webvh => exact absurd hm hmethod
      | web => simpa [hm, didIdentity, eq_comm] using hid
      | webs => simpa [hm, didIdentity, eq_comm] using hid
    constructor
    · intro heq
      have hcolon := colon_mem_of_boundAt hmethod h.bound
      rw [← hdid, heq] at hcolon
      exact absurd hcolon hscid
    · intro hw
      exact absurd hw.1 hmethod

/-- A did:webvh update succeeds the high-water log of its SCID. -/
theorem Applied.succeeds (h : Applied E update identity s t)
    (hmethod : syncedMethod E.libs update.logContent = .webvh) {previous : String}
    (hprev : s.highWater identity = some previous) :
    LogSucceeds E.libs previous update.logContent := by
  have hsucc := h.successor previous hprev
  rw [hmethod] at hsucc
  have hext : verifyLogExtends E.libs (some previous) update.logContent = .ok () := by
    unfold checkSuccessor at hsucc
    cases hv : verifyLogExtends E.libs (some previous) update.logContent with
    | ok u => rfl
    | error e => simp [hv] at hsucc
  exact verifyLogExtends_eq_ok_iff.mp hext

/-- The slot an update is applied to held no other method. -/
theorem Applied.mark_method (h : Applied E update identity s t) {mark : SlotHighWater}
    (hmark : s.slotMark update.mnemonic = some mark) :
    mark.method = syncedMethod E.libs update.logContent := by
  have hslot := h.slot_method
  unfold checkSlotMethod at hslot
  split at hslot
  · contradiction
  · rename_i hnone
    have hall := List.find?_eq_none.mp hnone mark.method (by simp [hmark])
    simpa using hall

end Identity

/-! ## The invariant -/

/-- What holds of an edge at every point of a run. -/
structure HistoryInv (E : EdgeState) (r : EdgeRun) : Prop where
  highWater : ∀ scid : String, ':' ∉ scid.toList →
    r.store.highWater scid = (logsOf E.libs scid r.committed).getLast?
  chain : ∀ scid : String, ':' ∉ scid.toList →
    (logsOf E.libs scid r.committed).Pairwise (LogSucceeds E.libs)
  record_mark : ∀ m record, r.store.record m = some record →
    ∃ mark, r.store.slotMark m = some mark ∧ mark.method = record.method

theorem HistoryInv.initial (E : EdgeState) (assignments : Table String AssignmentEntry)
    (pendingPurges : Table String PendingPurge) (domains : Table String DomainEntry)
    (defaultDomain : Option String) :
    HistoryInv E (EdgeRun.initial assignments pendingPurges domains defaultDomain) where
  highWater _ _ := rfl
  chain _ _ := List.Pairwise.nil
  record_mark _ _ h := by contradiction

theorem HistoryInv.step {E : EdgeState} {r r' : EdgeRun} (hinv : HistoryInv E r)
    (h : HistoryStep E r r') : HistoryInv E r' := by
  cases h with
  | kept hmarks hlogs =>
      refine ⟨?_, ?_, ?_⟩
      · intro scid hscid
        rw [hmarks.highWater, hlogs, hinv.highWater scid hscid]
      · intro scid hscid
        rw [hlogs]
        exact hinv.chain scid hscid
      · intro m record hrec
        rw [hmarks.slotMark]
        exact hinv.record_mark m record (hmarks.record m record hrec)
  | applied update identity happlied hlogs =>
      refine ⟨?_, ?_, ?_⟩
      · intro scid hscid
        have hiff := happlied.identity_eq_iff hscid
        rw [happlied.highWater, hlogs, logsOf_append]
        by_cases heq : identity = scid
        · rw [if_pos heq.symm, if_pos (hiff.mp heq), List.getLast?_concat]
        · rw [if_neg (Ne.symm heq), if_neg (fun hw => heq (hiff.mpr hw)),
            hinv.highWater scid hscid]
      · intro scid hscid
        rw [hlogs, logsOf_append]
        split
        · rename_i hcond
          have heq := (happlied.identity_eq_iff hscid).mpr hcond
          refine LogSucceeds.pairwise_append_singleton (hinv.chain scid hscid) ?_
          intro last hlast
          rw [← hinv.highWater scid hscid, ← heq] at hlast
          exact happlied.succeeds hcond.1 hlast
        · exact hinv.chain scid hscid
      · intro m record hrec
        obtain ⟨document, now, hrecord⟩ := happlied.record
        rw [hrecord] at hrec
        rw [happlied.slotMark]
        split at hrec
        · rename_i hm
          cases hrec
          exact ⟨_, if_pos hm, rfl⟩
        · rename_i hm
          rw [if_neg hm]
          exact hinv.record_mark m record hrec

/-- What a later point of a run keeps of an earlier one: a high-water row stays
and moves to a successor, a slot's mark stays and keeps its method. -/
structure MarksPersist (L : Libs) (s t : EdgeStore) : Prop where
  highWater : ∀ scid : String, ':' ∉ scid.toList → ∀ log, s.highWater scid = some log →
    ∃ log', t.highWater scid = some log' ∧ LogSucceeds L log log'
  slotMark : ∀ m mark, s.slotMark m = some mark →
    ∃ mark', t.slotMark m = some mark' ∧ mark'.method = mark.method

namespace MarksPersist

variable {L : Libs} {s t u : EdgeStore}

theorem refl : MarksPersist L s s where
  highWater _ _ log h := ⟨log, h, List.prefix_refl _, fun _ => rfl⟩
  slotMark _ mark h := ⟨mark, h, rfl⟩

theorem trans (hst : MarksPersist L s t) (htu : MarksPersist L t u) : MarksPersist L s u where
  highWater scid hscid log h := by
    obtain ⟨log', h', hsucc⟩ := hst.highWater scid hscid log h
    obtain ⟨log'', h'', hsucc'⟩ := htu.highWater scid hscid log' h'
    exact ⟨log'', h'', hsucc.trans hsucc'⟩
  slotMark m mark h := by
    obtain ⟨mark', h', hmethod⟩ := hst.slotMark m mark h
    obtain ⟨mark'', h'', hmethod'⟩ := htu.slotMark m mark' h'
    exact ⟨mark'', h'', hmethod'.trans hmethod⟩

theorem ofStep {E : EdgeState} {r r' : EdgeRun} (h : HistoryStep E r r') :
    MarksPersist E.libs r.store r'.store := by
  cases h with
  | kept hmarks hlogs =>
      refine ⟨?_, ?_⟩
      · intro scid hscid log hlog
        exact ⟨log, (hmarks.highWater scid).trans hlog, List.prefix_refl _, fun _ => rfl⟩
      · intro m mark hmark
        exact ⟨mark, (hmarks.slotMark m).trans hmark, rfl⟩
  | applied update identity happlied hlogs =>
      refine ⟨?_, ?_⟩
      · intro scid hscid log hlog
        rw [happlied.highWater]
        split
        · rename_i heq
          have hw := (happlied.identity_eq_iff hscid).mp heq.symm
          exact ⟨_, rfl, happlied.succeeds hw.1 (heq ▸ hlog)⟩
        · exact ⟨log, hlog, List.prefix_refl _, fun _ => rfl⟩
      · intro m mark hmark
        rw [happlied.slotMark]
        split
        · rename_i hm
          subst hm
          exact ⟨_, rfl, (happlied.mark_method hmark).symm⟩
        · exact ⟨mark, hmark, rfl⟩

end MarksPersist

theorem HistoryInv.run {E : EdgeState} {r r' : EdgeRun} (hinv : HistoryInv E r)
    (h : Relation.ReflTransGen (HistoryStep E) r r') : HistoryInv E r' := by
  induction h with
  | refl => exact hinv
  | tail _ hstep ih => exact ih.step hstep

theorem MarksPersist.run {E : EdgeState} {r r' : EdgeRun}
    (h : Relation.ReflTransGen (HistoryStep E) r r') :
    MarksPersist E.libs r.store r'.store := by
  induction h with
  | refl => exact .refl
  | tail _ hstep ih => exact ih.trans (.ofStep hstep)

/-! ## The guarantee -/

/-- Whatever an edge is told, first by `ops` and then by `more`: the high-water
row of a SCID is the last log committed for it and is never removed, each log
committed for the SCID extends every earlier one, a deactivated one is followed
only by itself, and a slot keeps its method. -/
theorem edge_history_append_only (E : EdgeState)
    (assignments : Table String AssignmentEntry) (pendingPurges : Table String PendingPurge)
    (domains : Table String DomainEntry) (defaultDomain : Option String)
    (ops more : List EdgeOp) {did scid : String} (hscid : webvhScid did = some scid) :
    let r := Run.exec (EdgeRun.step E)
      (EdgeRun.initial assignments pendingPurges domains defaultDomain) ops
    let r' := Run.exec (EdgeRun.step E) r more
    r.store.highWater scid = (logsOf E.libs scid r.committed).getLast? ∧
      (logsOf E.libs scid r.committed).Pairwise (fun earlier later =>
        verifyLogExtends E.libs (some earlier) later = .ok () ∧
          (logDeactivated E.libs earlier = true →
            logEntries later = logEntries earlier)) ∧
      (∀ log, r.store.highWater scid = some log →
        ∃ log', r'.store.highWater scid = some log' ∧
          verifyLogExtends E.libs (some log) log' = .ok ()) ∧
      ∀ m record record', r.store.record m = some record →
        r'.store.record m = some record' → record'.method = record.method := by
  intro r r'
  have hcolon := colon_not_mem_webvhScid hscid
  have hinv : HistoryInv E r :=
    (HistoryInv.initial E _ _ _ _).run (EdgeRun.exec_history E _ ops)
  have hmore := EdgeRun.exec_history E r more
  have hpersist := MarksPersist.run hmore
  refine ⟨hinv.highWater scid hcolon, ?_, ?_, ?_⟩
  · refine (hinv.chain scid hcolon).imp ?_
    intro earlier later hsucc
    exact ⟨verifyLogExtends_eq_ok_iff.mpr hsucc, hsucc.2⟩
  · intro log hlog
    obtain ⟨log', hlog', hsucc⟩ := hpersist.highWater scid hcolon log hlog
    exact ⟨log', hlog', verifyLogExtends_eq_ok_iff.mpr hsucc⟩
  · intro m record record' hrec hrec'
    obtain ⟨mark, hmark, hmethod⟩ := hinv.record_mark m record hrec
    obtain ⟨mark', hmark', hkept⟩ := hpersist.slotMark m mark hmark
    obtain ⟨mark'', hmark'', hmethod'⟩ := (hinv.run hmore).record_mark m record' hrec'
    rw [hmark'] at hmark''
    cases hmark''
    rw [← hmethod', hkept, hmethod]

/-- The guarantee for the SCID of a sample identifier. -/
theorem edge_history_append_only_sample :
    webvhScid Reference.didAl = some "s" ∧
      ∀ (E : EdgeState) (ops : List EdgeOp),
        let r := Run.exec (EdgeRun.step E) (EdgeRun.initial ∅ ∅ ∅ none) ops
        r.store.highWater "s" = (logsOf E.libs "s" r.committed).getLast? := by
  have hscid : webvhScid Reference.didAl = some "s" := by decide +kernel
  exact ⟨hscid, fun E ops => (edge_history_append_only E ∅ ∅ ∅ none ops [] hscid).1⟩

end DidHosting
