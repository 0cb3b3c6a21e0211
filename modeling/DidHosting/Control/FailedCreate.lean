import DidHosting.Control.Reference
import DidHosting.Support.Faults

/-!
# Creates and registrations that fail

A registration commits once, at its end.  A create that replaces the slot at its path
commits twice: the old content is removed first, and the store is read and written again
after that.  If that second part fails, the old content is gone and the error is
returned.
-/

namespace DidHosting

open Prog

section

variable {A : AppState} {auth : AuthClaims} {now : ℕ} {domain : Option String}
  {fault : ℕ → Option AppError} {n : ℕ} {s : ControlStore} {p : String} {force : Bool}
  {conflictMsg : String}

/-! ## Registration -/

theorem commitsLast_registerDidAtomic (A : AppState) (auth : AuthClaims) (now : ℕ)
    (path didLog : String) (force : Bool) (domain : Option String) :
    (registerDidAtomic A auth now path didLog force domain).CommitsLast :=
  commitsLast_check_bind fun _ => commitsLast_planned _ _

/-! ## Create -/

/-- The part of `create_did` after the path is resolved. -/
def createAt (A : AppState) (auth : AuthClaims) (now : ℕ) (domain : Option String)
    (mnemonic : String) : ControlM RequestUriResponse := do
  (checkAddedSlot auth mnemonic : ControlQ Unit)
  Prog.write (createBatch auth mnemonic domain now)
  let base := A.config.hostingUrl.getD "http://localhost"
  return ⟨mnemonic, s!"{base}/{mnemonic}/did.jsonl"⟩

theorem createDid_eq (A : AppState) (auth : AuthClaims) (now : ℕ) (path : Option String)
    (force : Bool) (domain : Option String) (draws : List String) :
    createDid A auth now path force domain draws =
      createPath auth path force draws >>= createAt A auth now domain :=
  rfl

theorem commitsLast_createAt (A : AppState) (auth : AuthClaims) (now : ℕ)
    (domain : Option String) (mnemonic : String) :
    (createAt A auth now domain mnemonic).CommitsLast :=
  commitsLast_ofQuery_bind fun _ => ⟨_, rfl⟩

/-- What resolving a path comes to: a read, and for a taken path the read of its record and
the commit that displaces the content. -/
theorem resolvePathForCreate_faulty (fault : ℕ → Option AppError) (n : ℕ) :
    runFaulty fault (resolvePathForCreate auth p force conflictMsg) n s =
      match fault n with
      | some e => (.error e, s, n)
      | none =>
          match s.record p with
          | none => (.ok p, s, n + 1)
          | some r =>
              if force then
                match fault (n + 1) with
                | some e => (.error e, s, n + 1)
                | none =>
                    if authorized auth r then
                      match fault (n + 2) with
                      | some e => (.error e, s, n + 2)
                      | none => (.ok p, WriteBatch.commit (forceReplaceBatch auth p r) s, n + 3)
                    else (.error (.forbidden "force replace requires admin or current owner"), s,
                      n + 2)
              else (.error (.conflict conflictMsg), s, n + 1) := by
  change runFaulty fault (ofQuery (replacedRecord auth p force conflictMsg) >>= fun existing =>
    (Prog.writeOpt (existing.map (forceReplaceBatch auth p)) >>= fun _ => pure p : ControlM String))
      n s = _
  rw [runFaulty_bind, replacedRecord, runFaulty_read]
  cases fault n with
  | some e => rfl
  | none =>
      cases hrec : s.record p with
      | none => rfl
      | some r =>
          cases force with
          | false => rfl
          | true =>
              have hread : runFaulty fault (ofQuery (if (some r).isNone then pure none else do
                    Query.require true (.conflict conflictMsg)
                    let row ← Query.read (·.record p)
                    let existing ← Query.okOr (.internal "path conflict but record missing") row
                    Query.require (authorized auth existing)
                      (.forbidden "force replace requires admin or current owner")
                    return some existing) : ControlM _) (n + 1) s =
                  match fault (n + 1) with
                  | some e => (.error e, s, n + 1)
                  | none =>
                      if authorized auth r then (.ok (some r), s, n + 2)
                      else (.error (.forbidden "force replace requires admin or current owner"), s,
                        n + 2) := by
                change runFaulty fault (ofQuery (Query.read (·.record p) >>= _)) (n + 1) s = _
                rw [runFaulty_read, hrec]
                cases fault (n + 1) with
                | some e => rfl
                | none =>
                    change runFaulty fault (ofQuery (Query.require (authorized auth r) _ >>=
                      fun _ => Query.ret (some r)) : ControlM _) (n + 2) s =
                        if authorized auth r = true then _ else _
                    cases authorized auth r <;> rfl
              simp only [hread, if_true]
              cases fault (n + 1) with
              | some e => rfl
              | none =>
                  cases authorized auth r with
                  | false => rfl
                  | true =>
                      refine (runFaulty_commit fault (forceReplaceBatch auth p r)
                        (Prog.ret p : ControlM String) (n + 2) s).trans ?_
                      cases fault (n + 2) <;> rfl

/-- The slot a create replaces: the path is one the caller may create at, a record is
there, and it is the caller's or the caller is an administrator. -/
structure Replaces (auth : AuthClaims) (path : Option String) (force : Bool) (s : ControlStore)
    (p : String) (r : DidRecord) : Prop where
  path_eq : path = some p
  allowed : if p = rootDidMnemonic then auth.role = .admin else validateCustomPath p = .ok ()
  forced : force = true
  record : s.record p = some r
  authorized : authorized auth r = true

/-- Unless it displaces a record, a create commits last. -/
theorem resolved_unchanged {f : String → ControlM RequestUriResponse} (hf : ∀ m, (f m).CommitsLast)
    (hnot : ¬ ∃ r, force = true ∧ s.record p = some r ∧ authorized auth r = true) {e : AppError}
    (h : (runFaulty fault (resolvePathForCreate auth p force conflictMsg >>= f) n s).1 =
      .error e) :
    (runFaulty fault (resolvePathForCreate auth p force conflictMsg >>= f) n s).2.1 = s := by
  rw [runFaulty_bind, resolvePathForCreate_faulty] at h ⊢
  cases hfault : fault n with
  | some e' => rfl
  | none =>
      cases hrec : s.record p with
      | none =>
          simp only [hfault, hrec] at h ⊢
          exact (hf p).unchanged h
      | some r =>
          cases force with
          | false => rfl
          | true =>
              have hauth : authorized auth r = false := by
                rw [← Bool.not_eq_true]
                exact fun hauth => hnot ⟨r, rfl, hrec, hauth⟩
              simp only [hauth]
              cases fault (n + 1) <;> rfl

/-- A create that displaces nothing has changed nothing when it fails. -/
theorem createDid_unchanged {path : Option String} {draws : List String}
    (hnot : ¬ ∃ p r, Replaces auth path force s p r) {e : AppError}
    (h : (runFaulty fault (createDid A auth now path force domain draws) 0 s).1 = .error e) :
    (runFaulty fault (createDid A auth now path force domain draws) 0 s).2.1 = s := by
  have hlast := commitsLast_createAt A auth now domain
  rw [createDid_eq] at h ⊢
  unfold createPath at h ⊢
  cases path with
  | none => exact (commitsLast_ofQuery_bind hlast).unchanged h
  | some p =>
      simp only at h ⊢
      by_cases hroot : p = rootDidMnemonic
      · rw [if_pos hroot] at h ⊢
        by_cases hadmin : auth.role = .admin
        · rw [if_pos hadmin] at h ⊢
          refine resolved_unchanged hlast ?_ h
          rintro ⟨r, hforce, hrec, hauth⟩
          exact hnot ⟨p, r, rfl, by rw [if_pos hroot]; exact hadmin, hforce, hrec, hauth⟩
        · rw [if_neg hadmin]
          rfl
      · rw [if_neg hroot] at h ⊢
        cases hpath : validateCustomPath p with
        | error e' => rfl
        | ok u =>
            rw [hpath] at h
            refine resolved_unchanged hlast ?_ h
            rintro ⟨r, hforce, hrec, hauth⟩
            exact hnot ⟨p, r, rfl, by rw [if_neg hroot]; exact hpath, hforce, hrec, hauth⟩

/-- What follows the displacing commit: a read and a second commit. -/
theorem createAt_faulty {r : DidRecord} (hrec : s.record p = some r)
    (hauth : authorized auth r = true) :
    runFaulty fault (createAt A auth now domain p) n s =
      match fault n with
      | some e => (.error e, s, n)
      | none =>
          match fault (n + 1) with
          | some e => (.error e, s, n + 1)
          | none =>
              let base := A.config.hostingUrl.getD "http://localhost"
              (.ok ⟨p, s!"{base}/{p}/did.jsonl"⟩,
                WriteBatch.commit (createBatch auth p domain now) s, n + 2) := by
  have hquota : (if r.owner ≠ auth.did then checkDidCountLimit auth else pure () : ControlQ Unit) =
      Query.ret () := by
    by_cases howner : r.owner = auth.did
    · rw [if_neg (by simpa using howner)]
      rfl
    · have hadmin : auth.role = .admin := by
        unfold authorized at hauth
        simpa [howner] using hauth
      rw [if_pos howner, checkDidCountLimit, if_pos hadmin]
      rfl
  change runFaulty fault (ofQuery (Query.read (·.record p) >>= _) >>= _) n s = _
  rw [runFaulty_bind, runFaulty_read]
  cases fault n with
  | some e => rfl
  | none =>
      simp only [hrec, hquota]
      refine (runFaulty_commit fault (createBatch auth p domain now)
        (Prog.ret _ : ControlM RequestUriResponse) (n + 1) s).trans ?_
      cases fault (n + 1) <;> rfl

/-- A create that displaces a record: three accesses up to the commit that displaces it, and
two after it. -/
theorem createDid_faulty {path : Option String} {draws : List String} {r : DidRecord}
    (h : Replaces auth path force s p r) :
    runFaulty fault (createDid A auth now path force domain draws) 0 s =
      match fault 0, fault 1, fault 2 with
      | some e, _, _ => (.error e, s, 0)
      | none, some e, _ => (.error e, s, 1)
      | none, none, some e => (.error e, s, 2)
      | none, none, none =>
          runFaulty fault (createAt A auth now domain p) 3
            (WriteBatch.commit (forceReplaceBatch auth p r) s) := by
  obtain ⟨rfl, hallowed, rfl, hrec, hauth⟩ := h
  have hpath : ∃ msg, createPath auth (some p) true draws =
      resolvePathForCreate auth p true msg := by
    unfold createPath
    by_cases hroot : p = rootDidMnemonic
    · rw [if_pos hroot] at hallowed
      simp only [if_pos hroot, if_pos hallowed]
      exact ⟨_, rfl⟩
    · rw [if_neg hroot] at hallowed
      simp only [if_neg hroot, hallowed]
      exact ⟨_, rfl⟩
  obtain ⟨msg, hpath⟩ := hpath
  rw [createDid_eq, hpath, runFaulty_bind, resolvePathForCreate_faulty]
  simp only [hrec, hauth, if_true]
  cases fault 0 with
  | some e => rfl
  | none =>
      cases fault 1 with
      | some e => rfl
      | none => cases fault 2 <;> rfl

/-- The displacing commit leaves the record for the second one to overwrite. -/
theorem forceReplace_record {r : DidRecord} (h : s.record p = some r) :
    (WriteBatch.commit (forceReplaceBatch auth p r) s).record p = some r :=
  (@afterReplace_record auth s p p (some r)).trans h

/-- The first commit of the replacement removes a row. -/
def RemovesRow (auth : AuthClaims) (p : String) (r : DidRecord) (s : ControlStore) : Prop :=
  (s.log p).isSome ∨ (s.witness p).isSome ∨
    r.owner ≠ auth.did ∧ (s.ks.ownerIndex.lookup (r.owner, p)).isSome

theorem forceReplace_eq_self_iff {r : DidRecord} :
    WriteBatch.commit (forceReplaceBatch auth p r) s = s ↔ ¬ RemovesRow auth p r s := by
  unfold RemovesRow
  simp only [not_or, Bool.not_eq_true, not_and]
  constructor
  · intro h
    have hlog := congrArg (fun t : ControlStore => t.ks.contentLog) h
    have hwitness := congrArg (fun t : ControlStore => t.ks.contentWitness) h
    have howner := congrArg (fun t : ControlStore => t.ks.ownerIndex) h
    by_cases hsame : r.owner = auth.did
    · simp only [forceReplaceBatch, hsame, ne_eq, not_true_eq_false, if_false] at hlog hwitness
      exact ⟨Table.erase_eq_self_iff.mp hlog, Table.erase_eq_self_iff.mp hwitness, fun hne => absurd hsame hne⟩
    · simp only [forceReplaceBatch, hsame, ne_eq, not_false_eq_true, if_true]
        at hlog hwitness howner
      exact ⟨Table.erase_eq_self_iff.mp hlog, Table.erase_eq_self_iff.mp hwitness,
        fun _ => Table.erase_eq_self_iff.mp howner⟩
  · rintro ⟨hlog, hwitness, howner⟩
    obtain ⟨⟨_, contentLog, contentWitness, ownerIndex, _, _, _, _⟩, _, _⟩ := s
    have hlog' : contentLog.erase p = contentLog := Table.erase_eq_self_iff.mpr hlog
    have hwitness' : contentWitness.erase p = contentWitness := Table.erase_eq_self_iff.mpr hwitness
    by_cases hsame : r.owner = auth.did
    · simp [forceReplaceBatch, hsame, WriteBatch.commit, DidsKs.commit, DidsKs.apply, hlog',
        hwitness']
    · have howner' : ownerIndex.erase (r.owner, p) = ownerIndex :=
        Table.erase_eq_self_iff.mpr (howner hsame)
      simp [forceReplaceBatch, hsame, WriteBatch.commit, DidsKs.commit, DidsKs.apply, hlog',
        hwitness', howner']

/-- One of the two accesses after the displacing commit fails. -/
def FailsLate (fault : ℕ → Option AppError) : Prop :=
  fault 0 = none ∧ fault 1 = none ∧ fault 2 = none ∧ (fault 3 ≠ none ∨ fault 4 ≠ none)

end

/-- On a store any of whose accesses can fail: a registration that fails has changed
nothing, and so has a create, exactly unless it replaces a record, removes a row of it and
fails on the store after that. -/
theorem failed_requests_change_nothing_iff (A : AppState) (auth : AuthClaims) (now : ℕ)
    (force : Bool) (domain : Option String) (fault : ℕ → Option AppError) (s : ControlStore) :
    (∀ path didLog e,
      (runFaulty fault (registerDidAtomic A auth now path didLog force domain) 0 s).1 = .error e →
        (runFaulty fault (registerDidAtomic A auth now path didLog force domain) 0 s).2.1 = s) ∧
      ∀ path draws,
        (∀ e, (runFaulty fault (createDid A auth now path force domain draws) 0 s).1 = .error e →
          (runFaulty fault (createDid A auth now path force domain draws) 0 s).2.1 = s) ↔
        ∀ p r, Replaces auth path force s p r → RemovesRow auth p r s → ¬ FailsLate fault := by
  refine ⟨fun path didLog e h => (commitsLast_registerDidAtomic A auth now path didLog force
    domain).unchanged h, ?_⟩
  intro path draws
  constructor
  · intro hsame p r hrep hrow ⟨h0, h1, h2, hlate⟩
    have hrun := @createDid_faulty A auth now domain fault s p force path draws r hrep
    simp only [h0, h1, h2] at hrun
    rw [createAt_faulty (forceReplace_record hrep.record) hrep.authorized] at hrun
    have hne := mt forceReplace_eq_self_iff.mp (not_not.mpr hrow)
    cases h3 : fault 3 with
    | some e =>
        simp only [h3] at hrun
        have hback := hsame e (by rw [hrun])
        rw [hrun] at hback
        exact hne hback
    | none =>
        cases h4 : fault 4 with
        | some e =>
            simp only [h3, h4] at hrun
            have hback := hsame e (by rw [hrun])
            rw [hrun] at hback
            exact hne hback
        | none => simp [h3, h4] at hlate
  · intro hcond e he
    by_cases hrep : ∃ p r, Replaces auth path force s p r
    · obtain ⟨p, r, hrep⟩ := hrep
      have hrun := @createDid_faulty A auth now domain fault s p force path draws r hrep
      rw [createAt_faulty (forceReplace_record hrep.record) hrep.authorized] at hrun
      cases h0 : fault 0 with
      | some e => rw [hrun, h0]
      | none =>
          cases h1 : fault 1 with
          | some e => rw [hrun, h0, h1]
          | none =>
              cases h2 : fault 2 with
              | some e => rw [hrun, h0, h1, h2]
              | none =>
                  have hlate : fault 3 ≠ none ∨ fault 4 ≠ none := by
                    by_contra hnone
                    push Not at hnone
                    simp only [h0, h1, h2, hnone.1, hnone.2] at hrun
                    rw [hrun] at he
                    cases he
                  have hnorow := fun hrow => hcond p r hrep hrow ⟨h0, h1, h2, hlate⟩
                  have hself := forceReplace_eq_self_iff.mpr hnorow
                  simp only [h0, h1, h2, hself] at hrun
                  rcases hlate with h3 | h4
                  · obtain ⟨e', h3⟩ := Option.ne_none_iff_exists'.mp h3
                    rw [hrun, h3]
                  · obtain ⟨e', h4⟩ := Option.ne_none_iff_exists'.mp h4
                    cases h3 : fault 3 with
                    | some e'' => rw [hrun, h3]
                    | none => rw [hrun, h3, h4]
    · exact createDid_unchanged hrep he

section Samples

open Reference

/-- The record of slot `al`, which another owner holds. -/
def occupant : DidRecord :=
  { emptyRecord admin "al" none 1 with owner := "did:key:y" }

/-- Slot `al` with its log. -/
def occupiedAl : ControlStore :=
  WriteBatch.commit ([.insertDid "al" occupant, .insertLog "al" "log",
    .insertOwner "did:key:y" "al"] : Batch) fresh

/-- The store refuses the second commit of a create. -/
def secondCommitFails (n : ℕ) : Option AppError :=
  if n = 4 then some (.internal "storage unavailable") else none

/-- A create that replaces slot `al` and fails at its second commit has removed the log. -/
theorem failed_create_loses_log :
    let create : ControlM RequestUriResponse := createDid control admin 2 (some "al") true none []
    let outcome := runFaulty secondCommitFails create 0 occupiedAl
    outcome.1 = .error (.internal "storage unavailable") ∧ occupiedAl.log "al" = some "log" ∧
      outcome.2.1.log "al" = none := by
  intro create outcome
  have hpath : validateCustomPath "al" = .ok () := by
    decide +kernel
  have hrep : Replaces admin (some "al") true occupiedAl "al" occupant :=
    ⟨rfl, by rw [if_neg (by decide)]; exact hpath, rfl, AList.lookup_insert _, rfl⟩
  have hrun : outcome = _ :=
    @createDid_faulty control admin 2 none secondCommitFails occupiedAl "al" true (some "al") [] _
      hrep
  rw [createAt_faulty (forceReplace_record hrep.record) hrep.authorized] at hrun
  rw [hrun]
  refine ⟨rfl, AList.lookup_insert _, ?_⟩
  exact AList.lookup_erase _ _

end Samples

end DidHosting
