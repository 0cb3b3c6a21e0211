import DidHosting.Support.Serial
import DidHosting.Control.Described

/-!
# Requests on one slot

Registration, publish, agent-name operations, witness upload and change of owner
run under the path guard of the slot; create, delete, disable and rollback read
and write without it.  If the latter overlap no other request on the slot, every
interleaving ends like a sequential execution of the requests that succeeded, and
the records describe the logs in every state on the way.
-/

namespace DidHosting

open Text

/-! ## Requests as threads -/

/-- A guarded request takes the lock of its slot first, unless its check fails
at once. -/
theorem guarded_prog (A : AppState) {op : Op} {m : String} (hop : op.mnemonic = some m)
    (hguarded : op.guarded = true) :
    (∃ next, op.prog A = .lock m next ∧ next.Keeps m) ∨ (op.prog A).isDone = true := by
  have hignore : ∀ {α : Type} (plan : ControlQ (Option Batch × α)),
      ∃ next, ignore (Prog.planned (some m) plan) = .lock m next ∧ next.Keeps m := by
    intro α plan
    rw [ignore_planned]
    exact ⟨_, rfl, Prog.commitPlan_keeps _ m⟩
  cases op with
  | register auth now path didLog force domain =>
      cases hop
      simp only [Op.prog, registerDidAtomic]
      cases registerPrecheck A auth m didLog with
      | error e => exact Or.inr rfl
      | ok u => exact Or.inl (hignore _)
  | publish auth now mnemonic didLog requestDomain =>
      cases hop
      exact Or.inl ⟨_, rfl, Prog.commitPlan_keeps _ m⟩
  | agentName auth now mnemonic name didLog requestDomain nameOp =>
      cases hop
      simp only [Op.prog, applyAgentNameOp]
      cases validateAgentNameBinding name m with
      | error e => exact Or.inr rfl
      | ok u => exact Or.inl (hignore _)
  | uploadWitness auth mnemonic witnessEntry =>
      cases hop
      simp only [Op.prog, uploadWitness]
      cases validateMnemonic m with
      | error e => exact Or.inr rfl
      | ok u => exact Or.inl ⟨_, rfl, Prog.commitPlan_keeps _ m⟩
  | changeOwner auth now mnemonic newOwner =>
      cases hop
      simp only [Op.prog, changeDidOwner]
      cases validateMnemonic m with
      | error e => exact Or.inr rfl
      | ok u => exact Or.inl (hignore _)
  | _ => contradiction

theorem run_ignore_error {α : Type} {p : ControlM α} {s t : ControlStore} {e : AppError}
    (h : (ignore p).run s = (.error e, t)) : p.run s = (.error e, t) := by
  unfold ignore at h
  rw [Prog.run_bind] at h
  rcases hrun : p.run s with ⟨e' | a, u⟩
  · rw [hrun] at h
    cases h
    rfl
  · rw [hrun] at h
    cases h

theorem failed_unchanged (A : AppState) (op : Op) (s : ControlStore) (e : AppError)
    (t : ControlStore) (h : (op.prog A).run s = (.error e, t)) : t = s := by
  cases op with
  | create auth now path force domain draws =>
      have hrun := run_ignore_error h
      rcases createDid_run A auth now s path force domain draws with
        ⟨e', he⟩ | ⟨m, existing, r, -, -, hok⟩
      · rw [he] at hrun
        exact (congrArg Prod.snd hrun).symm
      · rw [hok] at hrun
        cases hrun
  | publish auth now mnemonic didLog requestDomain =>
      have hrun : (Prog.check (Except.ok ()) >>= fun _ => Prog.planned (some mnemonic)
          (publishPlan A auth now mnemonic didLog requestDomain)).run s = (.error e, t) := h
      exact Prog.run_check_planned_error hrun
  | uploadWitness auth mnemonic witnessEntry => exact Prog.run_check_planned_error h
  | setDisabled auth mnemonic disabled => exact Prog.run_check_planned_error h
  | register auth now path didLog force domain =>
      exact Prog.run_check_planned_error (run_ignore_error h)
  | agentName auth now mnemonic name didLog requestDomain nameOp =>
      exact Prog.run_check_planned_error (run_ignore_error h)
  | delete auth mnemonic requestDomain =>
      exact Prog.run_check_planned_error (run_ignore_error h)
  | changeOwner auth now mnemonic newOwner =>
      exact Prog.run_check_planned_error (run_ignore_error h)
  | rollback auth now mnemonic targetVersion =>
      exact Prog.run_check_planned_error (run_ignore_error h)

theorem sequential_eq_exec {ι : Type} (A : AppState) (ops : ι → Op) (s : ControlStore)
    (order : List ι) :
    Machine.sequential (fun i => (ops i).prog A) s order =
      Run.exec (Event.step A) s (order.map fun i => .serve (ops i)) := by
  induction order generalizing s with
  | nil => rfl
  | cons i order ih =>
      unfold Machine.sequential at ih ⊢
      rw [List.map_cons, Run.exec_cons, Run.exec_cons, ih]
      rfl

/-- A forced create commits the removal of the old content before its record. -/
def Op.commitsTwice : Op → Bool
  | .create .. => true
  | _ => false

theorem prog_commitsLast (A : AppState) {op : Op} (hop : op.commitsTwice = false) :
    (op.prog A).CommitsLast := by
  have hignore : ∀ {α : Type} {p : ControlM α}, p.CommitsLast → (ignore p).CommitsLast :=
    fun h => Prog.commitsLast_map h fun _ => ()
  cases op with
  | create => contradiction
  | publish auth now mnemonic didLog requestDomain =>
      exact Prog.commitsLast_planned (some mnemonic)
        (publishPlan A auth now mnemonic didLog requestDomain)
  | uploadWitness auth mnemonic witnessEntry =>
      exact Prog.commitsLast_check_bind fun _ => Prog.commitsLast_planned ..
  | setDisabled auth mnemonic disabled =>
      exact Prog.commitsLast_check_bind fun _ => Prog.commitsLast_planned ..
  | _ => exact hignore (Prog.commitsLast_check_bind fun _ => Prog.commitsLast_planned ..)

/-- Requests on one slot, interleaved in any way after any sequence of requests, where
those that take no lock overlap no other.  The store of every state in which none is
under way is that of a sequential execution of those that succeeded.  If what each
request stores is described by the record it stores, then in every state in which no
create is under way every record describes its log. -/
theorem slot_requests_linearise {ι : Type} [DecidableEq ι] (A : AppState)
    (acl : Table String AclEntry) (domains : Table String DomainEntry) (events : List Event)
    (slot : String) (ops : ι → Op) (hslot : ∀ i, (ops i).mnemonic = some slot)
    (schedule : List ι) :
    let s₀ := Run.exec (Event.step A) (ControlStore.initial acl domains) events
    let m₀ := Machine.start s₀ fun i => (ops i).prog A
    Run.Meets Machine.step (Machine.Separate fun i => (ops i).guarded = true) m₀ schedule →
    let m := Run.exec Machine.step m₀ schedule
    ((∀ i, ¬ m.Active i) →
      ∃ order : List ι, order.Nodup ∧ (∀ i, i ∈ order ↔ m.Succeeded i) ∧
        m.store = Run.exec (Event.step A) s₀ (order.map fun i => .serve (ops i))) ∧
    (Run.Meets (Event.step A) (KeepsDescribed A) (ControlStore.initial acl domains) events →
      Run.Meets Machine.step
        (fun m i => m.Begins i → KeepsDescribed A m.store (.serve (ops i))) m₀ schedule →
      (∀ i, m.Active i → (ops i).commitsTwice = false) →
      ∀ p, SlotDescribed A.libs (m.store.record p) (m.store.log p)) := by
  intro s₀ m₀ hok m
  have hlocked := fun i hg => guarded_prog A (hslot i) hg
  have hfailed := fun i => failed_unchanged A (ops i)
  constructor
  · intro hidle
    obtain ⟨order, hserial⟩ := Machine.serial_exec hlocked hfailed hok
    refine ⟨order, hserial.nodup, hserial.succeeded, ?_⟩
    rw [hserial.idle hidle, sequential_eq_exec]
  · intro hevents hbegins honce p
    have hs₀ : Described A.libs s₀ := Run.exec_invariant (fun _ e => described_step e)
      (described_initial A.libs acl domains) hevents
    have hkeeps : ∀ i s, KeepsDescribed A s (.serve (ops i)) → Described A.libs s →
        Described A.libs (((ops i).prog A).run s).2 :=
      fun i s h => described_step (.serve (ops i)) h
    obtain ⟨order, hserial⟩ :=
      Machine.serial_exec_inv hlocked hfailed hkeeps hs₀ hok hbegins
    have hstore : m.store = Machine.sequential (fun i => (ops i).prog A) s₀ order := by
      by_cases hidle : ∀ i, ¬ m.Active i
      · exact hserial.serial.idle hidle
      · -- what is under way has not committed yet
        obtain ⟨i, hi⟩ := not_forall_not.mp hidle
        exact (hserial.uncommitted i hi (prog_commitsLast A (honce i hi))).2
    rw [hstore]
    exact (hserial.inv p).described

section Samples

open Reference

/-- A registration, a publish that has to wait for it, and a disable. -/
def slotOps : Fin 3 → Op
  | 0 => .register admin 1 "al" (logOf [al1]) false none
  | 1 => .publish admin 2 "al" (logOf [al1, named2]) none
  | 2 => .setDisabled admin "al" true

theorem keepsDescribed_register :
    KeepsDescribed control fresh (.serve (slotOps 0)) := by
  refine ⟨?_, trivial, trivial⟩
  intro p _ _ _ _
  rw [entryCount_logOf validLog_al1.wellFormed]
  rfl

theorem keepsDescribed_publish {s : ControlStore} (h : s.record "al" = some plainAl) :
    KeepsDescribed control s (.serve (slotOps 1)) := by
  refine ⟨?_, trivial, trivial⟩
  intro r p hr _ _ _
  rw [h] at hr
  cases hr
  exact entryCount_logOf validLog_named2.wellFormed

theorem setDisabled_thread : setDidDisabled control admin "al" true =
    Prog.planned none (setDisabledPlan control admin "al" true) := by
  rw [setDidDisabled, validateMnemonic_al]
  rfl

/-- The guarantee for the three requests, the second of which asks for the lock while
the first is under way. -/
theorem slot_requests_linearise_three :
    let m₀ := Machine.start fresh fun i => (slotOps i).prog control
    ∃ rest, let schedule := 0 :: 1 :: rest
      let m := Run.exec Machine.step m₀ schedule
      Run.Meets Machine.step (Machine.Separate fun i => (slotOps i).guarded = true) m₀
        schedule ∧
      Run.Meets Machine.step
        (fun m i => m.Begins i → KeepsDescribed control m.store (.serve (slotOps i))) m₀
        schedule ∧
      (m₀.step 0).Active 0 ∧ (∃ next, ((m₀.step 0).thread 1).prog = .lock "al" next) ∧
      (∀ i, m.Succeeded i) ∧ m.store.record "al" = some { namedAl with disabled := true } ∧
      (∃ order : List (Fin 3), order.Nodup ∧ (∀ i, i ∈ order ↔ m.Succeeded i) ∧
        m.store = Run.exec (Event.step control) fresh
          (order.map fun i => .serve (slotOps i))) ∧
      ∀ p, SlotDescribed libs (m.store.record p) (m.store.log p) := by
  intro m₀
  have hidle : ∀ j, ¬ m₀.Active j := fun j hj => Bool.false_ne_true hj.1
  let R := fun (m : Machine (Fin 3) ControlStore Batch String AppError Unit) i =>
    (∀ j, ¬ m.Active j) ∧ KeepsDescribed control m.store (.serve (slotOps i))
  -- the registration, which the publish waits for
  obtain ⟨hprog, hplan⟩ := register_thread 1 unrestricted_fresh validLog_al1
    validateMnemonic_al bound_didAl rfl (by rw [agentNames_plain]; simp)
  have hprog₁ : (m₀.thread 1).prog = Prog.planned (some "al")
      (publishPlan control admin 2 "al" (logOf [al1, named2]) none) := rfl
  obtain ⟨first, hreg, hactive, hwaits, hmeets⟩ :=
    Machine.exec_contended (m := m₀) (i := 0) (j := 1) (by decide) hprog hprog₁
      (fun _ => rfl) hplan
  replace hmeets := hmeets R fun _ => ⟨hidle, keepsDescribed_register⟩
  generalize hm₁ : Run.exec Machine.step m₀ (0 :: 1 :: first) = m₁ at hreg
  have hidle₁ : ∀ j, ¬ m₁.Active j := hreg.idle fun j _ => hidle j
  have hplain : Stored fresh m₁.store "al" (logOf [al1]) plainAl ⟨[], []⟩
      (didHostOrEmpty libs didAl) := by
    have hstored := stored_registeredBatch unrestricted_fresh [al1] didAl (document didAl [])
      "al" 1
    rw [agentNames_plain] at hstored
    rw [hreg.store]
    exact hstored
  -- the publish
  have hpublish := publishPlan_yields hplain.unrestricted hplain.record rfl validLog_named2
    validateMnemonic_al 2 (bindable_named2 hplain.names)
  rw [← hreg.others 1 (by decide)] at hprog₁
  obtain ⟨second, hpub, hmeets₁⟩ := Machine.exec_alone hprog₁ hreg.free hpublish
  replace hmeets₁ := hmeets₁ R fun _ => ⟨hidle₁, keepsDescribed_publish hplain.record⟩
  generalize hm₂ : Run.exec Machine.step m₁ second = m₂ at hpub
  have hidle₂ : ∀ j, ¬ m₂.Active j := hpub.idle fun j _ => hidle₁ j
  have hnamed := stored_publish hplain.unrestricted hplain.record rfl validLog_named2
    validateMnemonic_al 2 (bindable_named2 hplain.names)
  rw [step_publish hpublish, ← hpub.store] at hnamed
  -- the disable
  obtain ⟨third, hdis, hmeets₂⟩ := Machine.exec_alone (i := 2)
    (by rw [hpub.others 2 (by decide), hreg.others 2 (by decide)]; exact setDisabled_thread)
    hpub.free (setDisabledPlan_yields hnamed.unrestricted hnamed.record true)
  replace hmeets₂ := hmeets₂ R fun _ => ⟨hidle₂, trivial, trivial, trivial⟩
  generalize hm₃ : Run.exec Machine.step m₂ third = m₃ at hdis
  have hidle₃ : ∀ j, ¬ m₃.Active j := hdis.idle fun j _ => hidle₂ j
  have hexec : Run.exec Machine.step m₀ (0 :: 1 :: first ++ second ++ third) = m₃ := by
    rw [Run.exec_append, Run.exec_append, hm₁, hm₂, hm₃]
  have hall : Run.Meets Machine.step (fun m i => m.Begins i → R m i) m₀
      (0 :: 1 :: first ++ second ++ third) := by
    refine (hmeets.append ?_).append ?_
    · rw [hm₁]
      exact hmeets₁
    · rw [Run.exec_append, hm₁, hm₂]
      exact hmeets₂
  have hsep : Run.Meets Machine.step
      (Machine.Separate fun i => (slotOps i).guarded = true) m₀
      (0 :: 1 :: first ++ second ++ third) :=
    hall.mono fun m i h hbegins j hj => absurd hj ((h hbegins).1 j)
  have hkeeps : Run.Meets Machine.step
      (fun m i => m.Begins i → KeepsDescribed control m.store (.serve (slotOps i))) m₀
      (0 :: 1 :: first ++ second ++ third) :=
    hall.mono fun m i h hbegins => (h hbegins).2
  obtain ⟨horder, hdescribed⟩ := slot_requests_linearise control ∅ ∅ [] "al" slotOps
    (fun | 0 => rfl | 1 => rfl | 2 => rfl) _ hsep
  rw [← hexec] at hidle₃
  refine ⟨first ++ second ++ third, hsep, hkeeps, hactive, hwaits, ?_, ?_, horder hidle₃,
    hdescribed trivial hkeeps fun i hi => absurd hi (hidle₃ i)⟩
  · intro i
    change (Run.exec Machine.step m₀ (0 :: 1 :: first ++ second ++ third)).Succeeded i
    rw [hexec]
    match i with
    | 0 =>
        unfold Machine.Succeeded
        rw [hdis.others 0 (by decide), hpub.others 0 (by decide)]
        exact hreg.succeeded
    | 1 =>
        unfold Machine.Succeeded
        rw [hdis.others 1 (by decide)]
        exact hpub.succeeded
    | 2 => exact hdis.succeeded
  · change (Run.exec Machine.step m₀ (0 :: 1 :: first ++ second ++ third)).store.record "al" = _
    rw [hexec, hdis.store]
    exact AList.lookup_insert _

/-- Deletes and disables leave a slot without a record or with its log. -/
theorem record_or_log {s : ControlStore} {m c : String} {op : Op}
    (hop : (∃ auth domain, op = .delete auth m domain) ∨
      ∃ auth b, op = .setDisabled auth m b)
    (h : s.record m = none ∨ s.log m = some c) :
    let t := Event.step control s (.serve op)
    t.record m = none ∨ t.log m = some c := by
  refine slotwise_step (P := fun m' record log => m' = m → record = none ∨ log = some c)
    ?_ (fun m' hm => by rw [hm]; exact h) m rfl
  intro m' record log hchange hold hm
  cases hchange with
  | deleted => exact Or.inl rfl
  | touched hr hsame =>
      rcases hold hm with hnone | hlog
      · rw [hr] at hnone
        cases hnone
      · exact Or.inr hlog
  | _ => rcases hop with ⟨_, _, hop⟩ | ⟨_, _, hop⟩ <;> cases hop

/-- The requests of the race: a delete, and a disable. -/
def raceOps (disable : Bool) : Op :=
  if disable then .setDisabled admin "al" true else .delete admin "al" none

theorem record_or_log_race {s : ControlStore} {c : String} (order : List Bool)
    (h : s.record "al" = none ∨ s.log "al" = some c) :
    let t := Run.exec (Event.step control) s (order.map fun i => .serve (raceOps i))
    t.record "al" = none ∨ t.log "al" = some c := by
  induction order generalizing s with
  | nil => exact h
  | cons i order ih =>
      rw [List.map_cons, Run.exec_cons]
      refine ih (record_or_log ?_ h)
      cases i with
      | false => exact Or.inl ⟨admin, none, rfl⟩
      | true => exact Or.inr ⟨admin, true, rfl⟩

/-- On a slot with a record, both can plan before the delete commits; the disable
then writes the record back. -/
theorem race_on_slot {s : ControlStore} {r : DidRecord} (h : Unrestricted admin s)
    (hrec : s.record "al" = some r) :
    ∃ schedule,
      let m := Run.exec Machine.step
        (Machine.start s fun i => (raceOps i).prog control) schedule
      m.Succeeded false ∧ m.Succeeded true ∧
        m.store.record "al" = some { r with disabled := true } ∧ m.store.log "al" = none := by
  have hdelete : (raceOps false).prog control =
      Prog.planned none (dropAnswer (deletePlan control admin "al" none)) := by
    change ignore (deleteDid control admin "al" none) = _
    rw [deleteDid, validateMnemonic_al]
    exact ignore_planned none _
  obtain ⟨both, -, -, -, hstore, hfirst, hsecond, -⟩ :=
    Machine.exec_race (m := Machine.start s fun i => (raceOps i).prog control)
      (i := false) (j := true) (by decide) hdelete setDisabled_thread (fun _ => rfl) (by simp)
      (dropAnswer_yields (deletePlan_yields h hrec)) (setDisabledPlan_yields h hrec true)
  refine ⟨both ++ [false] ++ [true], hfirst, hsecond, ?_, ?_⟩
  · rw [hstore]
    exact AList.lookup_insert _
  · rw [hstore]
    exact AList.lookup_erase _ _

/-- A disable that has read the record of slot `al` before a delete writes it
back afterwards: the slot is there again, without its log.  No sequence of the
two requests ends so. -/
theorem deleted_slot_returns :
    let s₀ := Event.step control fresh
      (.serve (.register admin 1 "al" (logOf [al1]) false none))
    ∃ schedule,
      let m := Run.exec Machine.step
        (Machine.start s₀ fun i => (raceOps i).prog control) schedule
      m.Succeeded false ∧ m.Succeeded true ∧
      ∀ order : List Bool,
        let s := Run.exec (Event.step control) s₀ (order.map fun i => .serve (raceOps i))
        ¬ (s.record "al" = m.store.record "al" ∧ s.log "al" = m.store.log "al") := by
  have hreg := registered_plain unrestricted_fresh validLog_al1 validateMnemonic_al
    bound_didAl rfl 1
  obtain ⟨schedule, hfirst, hsecond, hrecord, hlog⟩ :=
    race_on_slot hreg.unrestricted hreg.record
  refine ⟨schedule, hfirst, hsecond, ?_⟩
  intro order s hsame
  rcases record_or_log_race order (Or.inr hreg.log) with hnone | hsome
  · have hboth := hnone.symm.trans (hsame.1.trans hrecord)
    cases hboth
  · have hboth := hsome.symm.trans (hsame.2.trans hlog)
    cases hboth

end Samples

end DidHosting
