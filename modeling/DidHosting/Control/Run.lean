import DidHosting.Support.Run
import DidHosting.Control.Lifecycle

/-!
# Runs of the control plane

The requests the control plane serves, as one type, and what each of them can
do to a slot.  `step_slot` is the inversion lemma the slot invariants are
derived from: a request changes the record and the log of at most one slot, in
one of the ways `SlotChange` lists.
-/

namespace DidHosting

open Text

/-! ## Requests -/

/-- A request to the control plane, with the time it is served at. -/
inductive Op where
  | create (auth : AuthClaims) (now : ℕ) (path : Option String) (force : Bool)
      (domain : Option String) (draws : List String)
  | register (auth : AuthClaims) (now : ℕ) (path didLog : String) (force : Bool)
      (domain : Option String)
  | publish (auth : AuthClaims) (now : ℕ) (mnemonic didLog : String)
      (requestDomain : Option String)
  | agentName (auth : AuthClaims) (now : ℕ) (mnemonic name didLog : String)
      (requestDomain : Option String) (op : AgentNameOp)
  | uploadWitness (auth : AuthClaims) (mnemonic : String) (witnessEntry : Json)
  | delete (auth : AuthClaims) (mnemonic : String) (requestDomain : Option String)
  | changeOwner (auth : AuthClaims) (now : ℕ) (mnemonic newOwner : String)
  | setDisabled (auth : AuthClaims) (mnemonic : String) (disabled : Bool)
  | rollback (auth : AuthClaims) (now : ℕ) (mnemonic : String) (targetVersion : Option ℕ)

/-- The slot of a request that stores a new log. -/
def Op.publishes : Op → Option String
  | .register _ _ path _ _ _ => some path
  | .publish _ _ mnemonic _ _ => some mnemonic
  | .agentName _ _ mnemonic _ _ _ _ => some mnemonic
  | _ => none

/-- The slot a request names. -/
def Op.mnemonic : Op → Option String
  | .create _ _ path _ _ _ => path
  | .register _ _ path _ _ _ => some path
  | .publish _ _ mnemonic _ _ => some mnemonic
  | .agentName _ _ mnemonic _ _ _ _ => some mnemonic
  | .uploadWitness _ mnemonic _ => some mnemonic
  | .delete _ mnemonic _ => some mnemonic
  | .changeOwner _ _ mnemonic _ => some mnemonic
  | .setDisabled _ mnemonic _ => some mnemonic
  | .rollback _ _ mnemonic _ => some mnemonic

/-- The requests that run under the path guard of their slot. -/
def Op.guarded : Op → Bool
  | .register .. => true
  | .publish .. => true
  | .agentName .. => true
  | .uploadWitness .. => true
  | .changeOwner .. => true
  | .create .. => false
  | .delete .. => false
  | .setDisabled .. => false
  | .rollback .. => false

/-- Drop the answer of an operation. -/
def ignore {α : Type} (p : ControlM α) : ControlM Unit :=
  p >>= fun _ => pure ()

/-- The operation a request runs. -/
def Op.prog (A : AppState) : Op → ControlM Unit
  | .create auth now path force domain draws =>
      ignore (createDid A auth now path force domain draws)
  | .register auth now path didLog force domain =>
      ignore (registerDidAtomic A auth now path didLog force domain)
  | .publish auth now mnemonic didLog requestDomain =>
      publishDid A auth now mnemonic didLog requestDomain
  | .agentName auth now mnemonic name didLog requestDomain op =>
      ignore (applyAgentNameOp A auth now mnemonic name didLog requestDomain op)
  | .uploadWitness auth mnemonic witnessEntry =>
      DidHosting.uploadWitness A auth mnemonic witnessEntry
  | .delete auth mnemonic requestDomain =>
      ignore (deleteDid A auth mnemonic requestDomain)
  | .changeOwner auth now mnemonic newOwner =>
      ignore (changeDidOwner A auth now mnemonic newOwner)
  | .setDisabled auth mnemonic disabled => setDidDisabled A auth mnemonic disabled
  | .rollback auth now mnemonic targetVersion =>
      ignore (rollbackDidTo A auth now mnemonic targetVersion)

/-- What happens to the control plane: it serves a request, or an
administrator changes the access control and the domains. -/
inductive Event where
  | serve (op : Op)
  | administer (acl : Table String AclEntry) (domains : Table String DomainEntry)

/-- The store after an event.  A request runs to completion. -/
def Event.step (A : AppState) (s : ControlStore) : Event → ControlStore
  | .serve op => ((op.prog A).run s).2
  | .administer acl domains => { s with acl := acl, domains := domains }

/-- A store without slots. -/
def ControlStore.initial (acl : Table String AclEntry)
    (domains : Table String DomainEntry) : ControlStore :=
  ⟨DidsKs.empty, acl, domains⟩

theorem run_ignore {α : Type} (p : ControlM α) (s : ControlStore) :
    ((ignore p).run s).2 = (p.run s).2 := by
  unfold ignore
  rw [Prog.run_bind]
  rcases p.run s with ⟨e | a, t⟩ <;> rfl

/-! ## Plans without their answers -/

/-- The batch of a plan, without its answer. -/
def dropAnswer {α : Type} (plan : ControlQ (Option Batch × α)) :
    ControlQ (Option Batch × Unit) :=
  plan.bind fun r => .ret (r.1, ())

theorem yields_dropAnswer {α : Type} {plan : ControlQ (Option Batch × α)}
    {V : Set ControlStore} {w : Option Batch} {u : Unit}
    (h : (dropAnswer plan).Yields V (w, u)) : ∃ a, plan.Yields V (w, a) := by
  change (plan >>= fun r => pure (r.1, ())).Yields V (w, u) at h
  simp only [Query.yields_bind, Query.yields_pure] at h
  obtain ⟨⟨w', a⟩, hplan, heq⟩ := h
  cases heq
  exact ⟨a, hplan⟩

theorem dropAnswer_yields {α : Type} {plan : ControlQ (Option Batch × α)}
    {V : Set ControlStore} {w : Option Batch} {a : α} (h : plan.Yields V (w, a)) :
    (dropAnswer plan).Yields V (w, ()) := by
  change (plan >>= fun r => pure (r.1, ())).Yields V (w, ())
  simp only [Query.yields_bind, Query.yields_pure]
  exact ⟨_, h, rfl⟩

theorem ignore_commitPlan {α : Type} (plan : ControlQ (Option Batch × α)) :
    ignore (Prog.commitPlan plan) = Prog.commitPlan (dropAnswer plan) := by
  induction plan with
  | ret r =>
      rcases r with ⟨_ | w, a⟩
      · rfl
      · rfl
  | fail e => rfl
  | ask k ih => exact congrArg Prog.ask (funext ih)

theorem ignore_planned {α : Type} (key : Option String)
    (plan : ControlQ (Option Batch × α)) :
    ignore (Prog.planned key plan) = Prog.planned key (dropAnswer plan) := by
  cases key with
  | none => exact ignore_commitPlan plan
  | some k => exact congrArg (Prog.lock k) (ignore_commitPlan plan)

/-! ## Outcomes of the operations that take a batch -/

section Outcomes

variable {A : AppState} {auth : AuthClaims} {now : ℕ} {s : ControlStore}

/-- A planned request leaves the store as it is, or commits a batch its plan
computed from that store. -/
theorem publish_run (A : AppState) (auth : AuthClaims) (now : ℕ) (s : ControlStore)
    (mnemonic didLog : String) (requestDomain : Option String) :
    ((publishDid A auth now mnemonic didLog requestDomain).run s).2 = s ∨
      ∃ w, (publishPlan A auth now mnemonic didLog requestDomain).Yields {s} (some w, ()) ∧
        ((publishDid A auth now mnemonic didLog requestDomain).run s).2 =
          WriteBatch.commit w s := by
  unfold publishDid
  rw [Prog.run_planned]
  rcases hplan : (publishPlan A auth now mnemonic didLog requestDomain).eval s with
    e | ⟨_ | w, a⟩
  · exact Or.inl rfl
  · exact Or.inl rfl
  · exact Or.inr ⟨w, Query.eval_eq_ok_iff.mp hplan, rfl⟩

/-- An administrator is exempt from the slot-count quota. -/
theorem checkDidCountLimit_admin (h : auth.role = .admin) :
    (checkDidCountLimit auth).eval s = .ok () := by
  unfold checkDidCountLimit
  rw [if_pos h]
  rfl

/-- What `replacedRecord` returns is the slot's record, which the caller may
replace. -/
theorem replacedRecord_eval {customPath conflictMsg : String} {force : Bool}
    {existing : Option DidRecord}
    (h : (replacedRecord auth customPath force conflictMsg).eval s = .ok existing) :
    s.record customPath = existing ∧
      ∀ r, existing = some r → force = true ∧ authorized auth r = true := by
  rw [Query.eval_eq_ok_iff] at h
  unfold replacedRecord at h
  simp only [Query.yields_bind, Query.yields_read, Set.mem_singleton_iff,
    exists_eq_left] at h
  split at h
  · rename_i hnone
    rw [Query.yields_pure] at h
    subst h
    exact ⟨Option.isNone_iff_eq_none.mp hnone, by simp⟩
  · simp only [Query.yields_bind, Query.yields_require, Query.yields_read,
      Query.yields_okOr, Query.yields_pure, Set.mem_singleton_iff, exists_eq_left] at h
    obtain ⟨_, hforce, r, hr, _, hauth, rfl⟩ := h
    refine ⟨hr, ?_⟩
    rintro r' ⟨⟩
    exact ⟨hforce, hauth⟩

/-- The store after the first half of a create. -/
def afterReplace (auth : AuthClaims) (mnemonic : String) (existing : Option DidRecord)
    (s : ControlStore) : ControlStore :=
  match existing with
  | some r => WriteBatch.commit (forceReplaceBatch auth mnemonic r) s
  | none => s

theorem afterReplace_record (mnemonic m : String) (existing : Option DidRecord) :
    (afterReplace auth mnemonic existing s).record m = s.record m := by
  cases existing with
  | none => rfl
  | some r =>
      by_cases h : r.owner = auth.did
      · simp [afterReplace, forceReplaceBatch, h]
        rfl
      · simp [afterReplace, forceReplaceBatch, h]
        rfl

theorem createPath_run (auth : AuthClaims) (s : ControlStore) (path : Option String) (force : Bool) (draws : List String) :
    (∃ e, (createPath auth path force draws).run s = (.error e, s)) ∨
      ∃ mnemonic existing, (createPath auth path force draws).run s =
          (.ok mnemonic, afterReplace auth mnemonic existing s) ∧
        s.record mnemonic = existing ∧
        ∀ r, existing = some r →
          path = some mnemonic ∧ force = true ∧ authorized auth r = true := by
  have hresolve : ∀ (p msg : String),
      (∃ e, (resolvePathForCreate auth p force msg).run s = (.error e, s)) ∨
        ∃ mnemonic existing, (resolvePathForCreate auth p force msg).run s =
            (.ok mnemonic, afterReplace auth mnemonic existing s) ∧
          s.record mnemonic = existing ∧
          ∀ r, existing = some r →
            some p = some mnemonic ∧ force = true ∧ authorized auth r = true := by
    intro p msg
    unfold resolvePathForCreate
    rw [Prog.run_bind, Prog.run_liftM]
    cases hrep : (replacedRecord auth p force msg).eval s with
    | error e => exact Or.inl ⟨e, rfl⟩
    | ok existing =>
        obtain ⟨hrec, hauth⟩ := replacedRecord_eval hrep
        refine Or.inr ⟨p, existing, ?_, hrec, fun r hr => ⟨rfl, hauth r hr⟩⟩
        cases existing with
        | none => rfl
        | some r => rfl
  unfold createPath
  cases path with
  | some p =>
      simp only
      split
      · split
        · exact hresolve p _
        · exact Or.inl ⟨_, rfl⟩
      · cases hv : validateCustomPath p with
        | error e => exact Or.inl ⟨e, rfl⟩
        | ok u => exact hresolve p _
  | none =>
      simp only
      rw [Prog.run_ofQuery]
      have hgen : ∀ draws : List String, ∀ mnemonic,
          (generateUniqueMnemonic draws).eval s = .ok mnemonic →
            s.record mnemonic = none := by
        intro draws
        induction draws with
        | nil =>
            intro mnemonic h
            simp [generateUniqueMnemonic, Query.eval] at h
        | cons d draws ih =>
            intro mnemonic h
            rw [Query.eval_eq_ok_iff, generateUniqueMnemonic] at h
            simp only [Query.yields_bind, Query.yields_read, Set.mem_singleton_iff,
              exists_eq_left] at h
            split at h
            · rename_i hnone
              rw [Query.yields_pure] at h
              subst h
              exact Option.isNone_iff_eq_none.mp hnone
            · exact ih mnemonic (Query.eval_eq_ok_iff.mpr h)
      cases hg : (generateUniqueMnemonic (draws.take 100)).eval s with
      | error e => exact Or.inl ⟨e, rfl⟩
      | ok mnemonic =>
          exact Or.inr ⟨mnemonic, none, rfl, hgen _ _ hg, by simp⟩

/-- A create fails and changes nothing, or it replaces the slot by an empty
one.  Once the first batch of a force-replace is committed nothing can fail:
the caller holds the slot, or is an administrator and exempt from the quota. -/
theorem createDid_run (A : AppState) (auth : AuthClaims) (now : ℕ) (s : ControlStore) (path : Option String) (force : Bool) (domain : Option String)
    (draws : List String) :
    (∃ e, (createDid A auth now path force domain draws).run s = (.error e, s)) ∨
      ∃ mnemonic existing r, s.record mnemonic = existing ∧
        (∀ rec, existing = some rec →
          path = some mnemonic ∧ force = true ∧ authorized auth rec = true) ∧
        (createDid A auth now path force domain draws).run s =
          (.ok r, WriteBatch.commit (createBatch auth mnemonic domain now)
            (afterReplace auth mnemonic existing s)) := by
  unfold createDid
  rw [Prog.run_bind]
  rcases createPath_run auth s path force draws with
    ⟨e, he⟩ | ⟨mnemonic, existing, hrun, hrec, hauth⟩
  · rw [he]
    exact Or.inl ⟨e, rfl⟩
  · rw [hrun]
    simp only
    rw [Prog.run_bind, Prog.run_liftM]
    cases hq : (checkAddedSlot auth mnemonic).eval (afterReplace auth mnemonic existing s) with
    | ok u => exact Or.inr ⟨mnemonic, existing, _, hrec, hauth, rfl⟩
    | error e =>
        -- only a fresh slot can still fail, and there nothing was written
        cases existing with
        | none => exact Or.inl ⟨e, rfl⟩
        | some rec =>
            exfalso
            have hrow : (afterReplace auth mnemonic (some rec) s).record mnemonic =
                some rec := by
              rw [afterReplace_record, hrec]
            have hok : (checkAddedSlot auth mnemonic).eval
                (afterReplace auth mnemonic (some rec) s) = .ok () := by
              have hstep : (checkAddedSlot auth mnemonic).eval
                  (afterReplace auth mnemonic (some rec) s) =
                  (if rec.owner ≠ auth.did then checkDidCountLimit auth
                    else pure ()).eval (afterReplace auth mnemonic (some rec) s) := by
                unfold checkAddedSlot
                change (match (afterReplace auth mnemonic (some rec) s).record mnemonic with
                  | some record =>
                      if record.owner ≠ auth.did then checkDidCountLimit auth else pure ()
                  | none => checkDidCountLimit auth).eval _ = _
                rw [hrow]
              rw [hstep]
              by_cases howner : rec.owner = auth.did
              · simp [howner, pure, Query.eval]
              · have hadmin : auth.role = .admin := by
                  simpa [authorized, howner] using (hauth rec rfl).2.2
                rw [if_pos howner]
                exact checkDidCountLimit_admin hadmin
            rw [hok] at hq
            cases hq

end Outcomes

end DidHosting
