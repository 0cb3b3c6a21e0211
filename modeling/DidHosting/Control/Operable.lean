import DidHosting.Control.Effects
import DidHosting.Control.Reference

/-!
# Operating a registered slot

Every operation on a slot validates the slot's path first.  A registration and
a publish choose the grammar by method; the other operations ask for a mnemonic.
The operations and the grammars meet on a did:webs slot only if its AID is an
ordinary path segment.
-/

namespace DidHosting

open Text

/-! ## Reading a slot -/

def getDidInfo (A : AppState) (auth : AuthClaims) (mnemonic : String) :
    ControlQ (DidRecord × Option LogMetadata) := do
  Query.ofExcept (validateMnemonic mnemonic)
  let record ← getAuthorizedRecord mnemonic auth
  let content ← Query.read (·.log mnemonic)
  return (record, content.map (extractLogMetadata A.libs))

def getRawLog (auth : AuthClaims) (mnemonic : String) : ControlQ String := do
  Query.ofExcept (validateMnemonic mnemonic)
  let _ ← getAuthorizedRecord mnemonic auth
  let content ← Query.read (·.log mnemonic)
  Query.okOr (.notFound "no log content for this DID") content

def getDidLog (A : AppState) (auth : AuthClaims) (mnemonic : String) :
    ControlQ (List LogEntryInfo) := do
  Query.ofExcept (validateMnemonic mnemonic)
  let _ ← getAuthorizedRecord mnemonic auth
  let content ← Query.read (·.log mnemonic)
  let text ← Query.okOr (.notFound "no log content for this DID") content
  return parseLogEntries A.libs text

def listAgentNames (A : AppState) (auth : AuthClaims) (mnemonic : String)
    (requestDomain : Option String) : ControlQ (String × List AgentNameEntry) := do
  Query.ofExcept (validateMnemonic mnemonic)
  let record ← getAuthorizedRecord mnemonic auth
  Query.ofExcept (ensureSlotDomainMatches A.libs record requestDomain)
  return (slotDomain A.libs record, record.agentNames)

/-! ## The operations on a slot -/

/-- The operations keyed by a slot's path. -/
inductive SlotOp where
  | publish (now : ℕ) (didLog : String) (requestDomain : Option String)
  | agentName (now : ℕ) (name didLog : String) (requestDomain : Option String)
      (op : AgentNameOp)
  | uploadWitness (witnessEntry : Json)
  | delete (requestDomain : Option String)
  | changeOwner (now : ℕ) (newOwner : String)
  | setDisabled (disabled : Bool)
  | rollback (now : ℕ) (targetVersion : Option ℕ)
  | info
  | log
  | rawLog
  | agentNames (requestDomain : Option String)

namespace SlotOp

/-- The operation, without its answer. -/
def prog (A : AppState) (auth : AuthClaims) (mnemonic : String) : SlotOp → ControlM Unit
  | publish now didLog requestDomain => publishDid A auth now mnemonic didLog requestDomain
  | agentName now name didLog requestDomain op =>
      ignore (applyAgentNameOp A auth now mnemonic name didLog requestDomain op)
  | uploadWitness witnessEntry => DidHosting.uploadWitness A auth mnemonic witnessEntry
  | delete requestDomain => ignore (deleteDid A auth mnemonic requestDomain)
  | changeOwner now newOwner => ignore (changeDidOwner A auth now mnemonic newOwner)
  | setDisabled disabled => setDidDisabled A auth mnemonic disabled
  | rollback now targetVersion => ignore (rollbackDidTo A auth now mnemonic targetVersion)
  | info => ignore (Prog.ofQuery (getDidInfo A auth mnemonic))
  | log => ignore (Prog.ofQuery (getDidLog A auth mnemonic))
  | rawLog => ignore (Prog.ofQuery (getRawLog auth mnemonic))
  | agentNames requestDomain =>
      ignore (Prog.ofQuery (listAgentNames A auth mnemonic requestDomain))

/-- The path validation of the operation; `method` is the method of the slot's
record. -/
def validatePath (method : Option Method) (mnemonic : String) :
    SlotOp → Except AppError Unit
  | publish .. => validateSlotPath method mnemonic
  | agentName .. => validateSlotPath method mnemonic
  | _ => validateMnemonic mnemonic

/-- The path of slot `m` passes the validation of the operation. -/
def Passes (s : ControlStore) (m : String) (op : SlotOp) : Prop :=
  op.validatePath ((s.record m).map (·.method)) m = .ok ()

end SlotOp

theorem ignore_run_error {α : Type} {p : ControlM α} {s t : ControlStore} {e : AppError}
    (h : p.run s = (.error e, t)) : (ignore p).run s = (.error e, t) := by
  unfold ignore
  rw [Prog.run_bind, h]

section

variable {A : AppState} {s : ControlStore} {auth : AuthClaims} {m : String} {e : AppError}

/-- A plan that yields nothing fails and changes nothing. -/
theorem run_planned_refused {α : Type} {key : Option String}
    {plan : ControlQ (Option Batch × α)} (h : ∀ r, ¬ plan.Yields {s} r) :
    ∃ e, (Prog.planned key plan : ControlM α).run s = (.error e, s) := by
  cases hplan : plan.eval s with
  | error e =>
      refine ⟨e, ?_⟩
      rw [Prog.run_planned, hplan]
  | ok r => exact absurd (Query.eval_eq_ok_iff.mp hplan) (h r)

theorem not_republishes {didLog : String} {r : DidRecord} {p : Publication}
    (h : validateSlotPath ((s.record m).map (·.method)) m ≠ .ok ()) :
    ¬ Republishes A {s} auth m didLog r p := by
  intro hrep
  exact h (read_singleton hrep.path_valid)

/-- An operation on a path that does not pass fails, for every caller, and
changes nothing. -/
theorem SlotOp.run_refused (A : AppState) (auth : AuthClaims) {op : SlotOp}
    (h : ¬ op.Passes s m) : ∃ e, (op.prog A auth m).run s = (.error e, s) := by
  have hcheck : validateMnemonic m ≠ .ok () → ∃ e, validateMnemonic m = .error e := by
    intro hne
    cases hm : validateMnemonic m with
    | error e => exact ⟨e, rfl⟩
    | ok u => exact absurd hm hne
  cases op with
  | publish now didLog requestDomain =>
      have hplan : ∀ r, ¬ (publishPlan A auth now m didLog requestDomain).Yields {s} r := by
        intro r hr
        obtain ⟨record, publication, names, changes, hrep, -⟩ := publishPlan_spec hr
        exact not_republishes h hrep
      change ∃ e, (Prog.planned (some m)
        (publishPlan A auth now m didLog requestDomain)).run s = (.error e, s)
      exact run_planned_refused hplan
  | agentName now name didLog requestDomain op =>
      have hplan : ∃ e, (Prog.planned (some m)
          (agentNamePlan A auth now m (bareName name) didLog requestDomain op)).run s =
            (.error e, s) := by
        refine run_planned_refused ?_
        intro r hr
        obtain ⟨record, publication, holder, effect, hrep, -⟩ := agentNamePlan_spec hr
        exact not_republishes h hrep
      simp only [prog, applyAgentNameOp]
      cases validateAgentNameBinding name m with
      | error e => exact ⟨e, rfl⟩
      | ok u =>
          obtain ⟨e, he⟩ := hplan
          exact ⟨e, ignore_run_error he⟩
  | uploadWitness witnessEntry =>
      obtain ⟨e, he⟩ := hcheck h
      simp only [prog, DidHosting.uploadWitness, he]
      exact ⟨e, rfl⟩
  | delete requestDomain =>
      obtain ⟨e, he⟩ := hcheck h
      simp only [prog, deleteDid, he]
      exact ⟨e, rfl⟩
  | changeOwner now newOwner =>
      obtain ⟨e, he⟩ := hcheck h
      simp only [prog, changeDidOwner, he]
      exact ⟨e, rfl⟩
  | setDisabled disabled =>
      obtain ⟨e, he⟩ := hcheck h
      simp only [prog, setDidDisabled, he]
      exact ⟨e, rfl⟩
  | rollback now targetVersion =>
      obtain ⟨e, he⟩ := hcheck h
      simp only [prog, rollbackDidTo, he]
      exact ⟨e, rfl⟩
  | info =>
      obtain ⟨e, he⟩ := hcheck h
      simp only [prog, getDidInfo, he]
      exact ⟨e, rfl⟩
  | log =>
      obtain ⟨e, he⟩ := hcheck h
      simp only [prog, getDidLog, he]
      exact ⟨e, rfl⟩
  | rawLog =>
      obtain ⟨e, he⟩ := hcheck h
      simp only [prog, getRawLog, he]
      exact ⟨e, rfl⟩
  | agentNames requestDomain =>
      obtain ⟨e, he⟩ := hcheck h
      simp only [prog, listAgentNames, he]
      exact ⟨e, rfl⟩

end

/-! ## The path of a slot that holds a log -/

/-- The path of slot `m` follows the grammar of the method of its record, once
the slot holds a log. -/
structure PathInv (m : String) (record : Option DidRecord) (log : Option String) :
    Prop where
  no_record : record = none → log = none
  path_valid : ∀ r c, record = some r → log = some c →
    validateSlotPath (some r.method) m = .ok ()

section

variable {A : AppState} {s : ControlStore}

/-- A registration validates the path by the method it publishes. -/
theorem registerPrecheck_slotPath {auth : AuthClaims} {path didLog domain : String}
    {existing existingWitness : Option String} {p : Publication}
    (hpre : registerPrecheck A auth path didLog = .ok ())
    (hverified : verifyPublication A.libs domain path didLog existing existingWitness = .ok p) :
    validateSlotPath (some p.method) path = .ok () := by
  have hmethod := verifyPublication_method hverified
  unfold registerPrecheck at hpre
  rw [hmethod] at hpre
  split at hpre
  · cases hpre
  · exact hpre

theorem Republishes.slotPath {auth : AuthClaims} {m didLog : String} {r : DidRecord}
    {p : Publication} (h : Republishes A {s} auth m didLog r p) :
    validateSlotPath (some r.method) m = .ok () := by
  have hpath := read_singleton h.path_valid
  rwa [read_singleton h.record_read] at hpath

theorem SlotChange.pathInv {op : Op} {m : String} {record : Option DidRecord}
    {log : Option String} (h : SlotChange A s op m record log)
    (hinv : PathInv m (s.record m) (s.log m)) : PathInv m record log := by
  cases h with
  | created hauth =>
      refine ⟨by simp, ?_⟩
      intro r c hr hc
      split at hc
      · cases hc
      · rename_i hnone
        rw [hinv.no_record (Option.not_isSome_iff_eq_none.mp hnone)] at hc
        cases hc
  | registered hpre hreg =>
      refine ⟨by simp, ?_⟩
      rintro r c ⟨⟩ ⟨⟩
      exact registerPrecheck_slotPath hpre hreg.verified_at
  | published hrep hnames =>
      refine ⟨by simp, ?_⟩
      rintro r c ⟨⟩ ⟨⟩
      exact hrep.slotPath
  | named hrep hclaim heffect =>
      refine ⟨by simp, ?_⟩
      rintro r c ⟨⟩ ⟨⟩
      exact hrep.slotPath
  | deleted hread hauth => exact ⟨fun _ => rfl, by simp⟩
  | rolledBack hread hauth hlog hkeep hlt =>
      refine ⟨by simp, ?_⟩
      rintro r c ⟨⟩ ⟨⟩
      have hpath := hinv.path_valid _ _ hread hlog
      exact hpath
  | touched hread hsame =>
      refine ⟨by simp, ?_⟩
      rintro r c ⟨⟩ hc
      rw [hsame.method]
      exact hinv.path_valid _ c hread hc

theorem pathInv_step {m : String} (s : ControlStore) (e : Event)
    (h : PathInv m (s.record m) (s.log m)) :
    PathInv m ((e.step A s).record m) ((e.step A s).log m) := by
  cases e with
  | administer acl domains => exact h
  | serve op =>
      have hslots : ∀ n, n = m → PathInv n (s.record n) (s.log n) := by
        rintro n rfl
        exact h
      have hchange : ∀ n record log, SlotChange A s op n record log →
          (n = m → PathInv n (s.record n) (s.log n)) → n = m → PathInv n record log :=
        fun n record log hslot hold hn => hslot.pathInv (hold hn)
      exact slotwise_step (P := fun n record log => n = m → PathInv n record log) hchange
        hslots m rfl

/-- The grammar of a slot's method decides which operations pass: all of them,
unless an AID is no ordinary segment. -/
theorem passes_iff_of_slotPath {m : String} {r : DidRecord} (hr : s.record m = some r)
    (hpath : validateSlotPath (some r.method) m = .ok ()) :
    (∀ op : SlotOp, op.Passes s m) ↔
      (r.method = .webs → validateSegment (aidSegment m) = .ok ()) := by
  constructor
  · intro hall hwebs
    rw [hwebs] at hpath
    exact (validateMnemonic_of_webs hpath).mp (hall .info)
  · intro hsegment op
    have hmnemonic : validateMnemonic m = .ok () := by
      by_cases hwebs : r.method = .webs
      · rw [hwebs] at hpath
        exact (validateMnemonic_of_webs hpath).mpr (hsegment hwebs)
      · unfold validateSlotPath at hpath
        rwa [if_neg (by simpa using hwebs)] at hpath
    have hslot : validateSlotPath ((s.record m).map (·.method)) m = .ok () := by
      rw [hr]
      exact hpath
    cases op with
    | publish now didLog requestDomain => exact hslot
    | agentName now name didLog requestDomain op => exact hslot
    | _ => exact hmnemonic

end

/-- After a registration has committed a record, whatever its reads saw, and as
long as the slot holds a log, every operation on the slot passes its path
validation if and only if the slot is not did:webs or its AID is an ordinary
path segment. -/
theorem registered_slot_operable_iff (A : AppState) {V : Set ControlStore}
    {auth : AuthClaims} {now : ℕ} {m didLog : String} {force : Bool}
    {domain : Option String} {w : Batch} {response : RequestUriResponse}
    (hpre : registerPrecheck A auth m didLog = .ok ())
    (hplan : (registerPlan A auth now m didLog force domain).Yields V (some w, response))
    (s : ControlStore) (events : List Event) :
    let t := Run.exec (Event.step A) (WriteBatch.commit w s) events
    ∀ r c, t.record m = some r → t.log m = some c →
      ((∀ op : SlotOp, op.Passes t m) ↔
        (r.method = .webs → validateSegment (aidSegment m) = .ok ())) := by
  intro t r c hr hc
  obtain ⟨existing, ownerChanged, publication, didId, base, names, changes, hreg, hw⟩ :=
    registerPlan_spec hplan
  cases hw
  obtain ⟨hdids, hlog, -⟩ := commit_registerBatch s.ks auth m didLog
    (didHostOrEmpty A.libs didId) existing ownerChanged
    (registerRecord A auth m didLog publication didId existing ownerChanged names now) changes
  obtain ⟨-, hrecord, hcontent⟩ := write_slot hdids hlog
  have hinv : PathInv m (t.record m) (t.log m) := by
    refine Run.exec_invariant_of_step pathInv_step events ?_
    rw [hrecord, hcontent]
    refine ⟨by simp, ?_⟩
    rintro r c ⟨⟩ ⟨⟩
    obtain ⟨s, -, u, -, hverified⟩ := hreg.verified
    exact registerPrecheck_slotPath hpre hverified
  exact passes_iff_of_slotPath hr (hinv.path_valid r c hr hc)

/-- The guarantee for a did:webvh registration of slot `al`. -/
theorem registered_slot_operable_iff_al :
    ∃ w response, (registerPlan Reference.control Reference.admin 1 "al"
        (Reference.logOf [Reference.al1]) false none).Yields {Reference.fresh}
        (some w, response) ∧
      ∀ r c, (WriteBatch.commit w Reference.fresh).record "al" = some r →
        (WriteBatch.commit w Reference.fresh).log "al" = some c →
        ((∀ op : SlotOp, op.Passes (WriteBatch.commit w Reference.fresh) "al") ↔
          (r.method = .webs → validateSegment (aidSegment "al") = .ok ())) := by
  have hpre := Reference.registerPrecheck_valid Reference.validLog_al1
    Reference.validateMnemonic_al
  obtain ⟨response, hplan⟩ := Reference.registerPlan_free 1 Reference.unrestricted_fresh
    Reference.validLog_al1 Reference.bound_didAl rfl
    (by rw [Reference.agentNames_plain]; simp)
  exact ⟨_, response, hplan, registered_slot_operable_iff Reference.control hpre hplan
    Reference.fresh []⟩

/-! ## A did:webs slot -/

namespace Reference

def aid : String := "ENro7uf0ePmiK3jdTo2YCdXLqW7z7xoP6qhhBou6gBLe"

/-- The key event stream of `aid`, shortened. -/
def websStream : String := "icp ENro7uf0ePmiK3jdTo2YCdXLqW7z7xoP6qhhBou6gBLe -VA"

/-- The identifier of the slot. -/
def websDid : String := websDidId "h.io" aid

/-- The reference libraries with the did:webs feature, for the stream of
`aid`. -/
def websLibs : Libs :=
  { libs with
    methodWebs := true
    didWebsParse := fun _ => .ok ⟨[], aid⟩
    kelsParse := fun text => .ok (startsWith "icp " text)
    kelsKeyState := fun _ pre => .ok ⟨pre, 0⟩
    resolveFromArtifacts := fun _ _ => .ok (print (document websDid [])) }

/-- A control plane with the did:webs feature. -/
def websControl : AppState :=
  ⟨websLibs, ⟨some "https://h.io", none, true⟩⟩

/-- The registration of the stream at its AID. -/
def registerAid : Event :=
  .serve (.register admin 1 aid websStream false (some "h.io"))

/-- What is read in the stream, its path and its document, evaluated. -/
theorem aid_evaluated :
    (detectMethod websLibs websStream = some .webs ∧ validateWebsMnemonic aid = .ok () ∧
      validateSegment (aidSegment aid) ≠ .ok ()) ∧
    ('\n' ∉ printValue (document websDid []) ∧ '\r' ∉ printValue (document websDid [])) ∧
      trimChars (printValue (document websDid [])) = printValue (document websDid []) := by
  decide +kernel

theorem detectMethod_webs : detectMethod websLibs websStream = some .webs :=
  aid_evaluated.1.1

theorem validateWebsMnemonic_aid : validateWebsMnemonic aid = .ok () :=
  aid_evaluated.1.2.1

theorem validateSegment_aid : validateSegment (aidSegment aid) ≠ .ok () :=
  aid_evaluated.1.2.2

theorem wellFormed_websDocument : WellFormed (document websDid []) :=
  ⟨aid_evaluated.2.1, aid_evaluated.2.2, rfl⟩

theorem agentNames_nil (L : Libs) (did domain : String) :
    agentNamesFromDocument L (document did []) domain = [] :=
  rfl

/-- The publication the stream is verified as. -/
def websPublication : Publication :=
  ⟨.webs, some websDid, some (document websDid []), websStream⟩

/-- The first stream of a slot is accepted if its artifacts resolve. -/
theorem verifyPublication_firstWebs {L : Libs} {domain mnemonic content derived : String}
    {parsed : DidWebs} {document : Json} {witness : Option String}
    (hdet : detectMethod L content = some .webs) (hdomain : domain ≠ "")
    (hparse : L.didWebsParse (websDidId domain mnemonic) = .ok parsed)
    (hresolve : L.resolveFromArtifacts parsed content = .ok derived)
    (hdoc : L.fromStr derived = .ok document) :
    verifyPublication L domain mnemonic content none witness =
      .ok ⟨.webs, some (websDidId domain mnemonic), some document, content⟩ := by
  have hartifacts : verifyArtifacts L (websDidId domain mnemonic) content = .ok derived := by
    simp only [verifyArtifacts, hparse, hresolve]
  unfold verifyPublication
  rw [hdet]
  simp only [verifyWebs, if_neg hdomain, hartifacts, checkContinuation, Option.filter_none,
    bind, Except.bind, hdoc]

theorem fromStr_webs (text : String) : websLibs.fromStr text = parse text :=
  rfl

theorem parse_webs (did : String) : websLibs.didWebsParse did = .ok ⟨[], aid⟩ :=
  rfl

theorem resolve_webs (parsed : DidWebs) (content : String) :
    websLibs.resolveFromArtifacts parsed content = .ok (print (document websDid [])) :=
  rfl

theorem verifyPublication_webs :
    verifyPublication websLibs "h.io" aid websStream none none = .ok websPublication := by
  have hdoc : websLibs.fromStr (print (document websDid [])) = .ok (document websDid []) := by
    rw [fromStr_webs]
    exact wellFormed_websDocument.parse_print
  exact verifyPublication_firstWebs detectMethod_webs (by decide) (parse_webs _)
    (resolve_webs _ _) hdoc

end Reference

open Reference in
/-- The stream registers at its AID, a slot with a mixed-case path.  Nobody can
delete it, disable it or look at it: the path is no mnemonic. -/
theorem registered_aid_inoperable :
    let s := (registerAid).step websControl fresh
    (∃ r c, s.record aid = some r ∧ s.log aid = some c ∧ r.owner = admin.did ∧
      r.method = .webs) ∧
    (∀ requestDomain, ¬ (SlotOp.delete requestDomain).Passes s aid) ∧
    (∀ auth requestDomain, ∃ e,
      ((SlotOp.delete requestDomain).prog websControl auth aid).run s = (.error e, s)) ∧
    (∀ auth disabled, ∃ e,
      ((SlotOp.setDisabled disabled).prog websControl auth aid).run s = (.error e, s)) := by
  intro s
  have hpre : registerPrecheck websControl admin aid websStream = .ok () := by
    have hdet : detectMethod websControl.libs websStream = some .webs := detectMethod_webs
    have hroot : ¬ (decide (aid = rootDidMnemonic) && decide (admin.role ≠ .admin)) := by
      simp [admin]
    unfold registerPrecheck
    rw [if_neg hroot, if_pos hdet]
    exact validateWebsMnemonic_aid
  have hpub : verifyPublication websControl.libs ((some "h.io").getD "") aid websStream
      (fresh.log aid) (fresh.witness aid) = .ok websPublication :=
    verifyPublication_webs
  have hbinding : registerBinding websControl websPublication websDid aid "https://h.io" =
      .ok () := by
    unfold registerBinding
    exact if_pos rfl
  have howner : registerOwnership admin false (fresh.record aid) = .ok false := rfl
  have hclaims : ∀ host, websPublication.agentNames websControl.libs host = [] :=
    agentNames_nil websLibs websDid
  have hnames : (reconcileAgentNames (existingNames (fresh.record aid)) aid
      (websPublication.agentNames websControl.libs (didHostOrEmpty websControl.libs websDid))
      (didHostOrEmpty websControl.libs websDid) 1).Yields {fresh}
      (reconciledNames [] [] 1, ⟨[], []⟩) := by
    rw [hclaims]
    exact reconcileAgentNames_yields [] 1 (by simp)
  obtain ⟨response, hplan⟩ := registerPlan_yields unrestricted_fresh hpub rfl rfl hbinding
    howner hnames
  have hstep : s = _ := step_register hpre hplan
  obtain ⟨hdids, hlog, -⟩ := commit_registerBatch fresh.ks admin aid websStream
    (didHostOrEmpty websControl.libs websDid) (fresh.record aid) false
    (registerRecord websControl admin aid websStream websPublication websDid
      (fresh.record aid) false (reconciledNames [] [] 1) 1) ⟨[], []⟩
  obtain ⟨-, hrecord, hcontent⟩ := write_slot hdids hlog
  rw [← hstep] at hrecord hcontent
  have hpath : validateMnemonic aid ≠ .ok () := fun h =>
    validateSegment_aid ((validateMnemonic_of_webs validateWebsMnemonic_aid).mp h)
  refine ⟨⟨_, _, hrecord, hcontent, rfl, rfl⟩, fun _ => hpath, ?_, ?_⟩
  · intro auth requestDomain
    exact SlotOp.run_refused websControl auth hpath
  · intro auth disabled
    exact SlotOp.run_refused websControl auth hpath

end DidHosting
