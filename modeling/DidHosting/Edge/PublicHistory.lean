import DidHosting.Edge.Committed
import DidHosting.Edge.PublicAlone

/-!
# What public requests show

Requests read the store and the cache step by step while directives are applied, and an
entry of the cache may be older than the row it was read from.  What is known of a row when
it is read, that it belongs to an update committed for the slot, is never lost; it is the
invariant of the store, of the cache and of the requests under way.
-/

namespace DidHosting

open Text

/-! ## What an answer shows -/

section Shown

variable (P : PublicState) (committed : List DidSyncUpdate)

/-- The text is what is served of the log without a witness file or with one that was
committed for the slot.  A did:webs log may also be shown as it is. -/
def Shows (m log text : String) : Prop :=
  (syncedMethod P.edge.libs log = .webs ∧ text = log) ∨
    ∃ witness, (∀ file, witness = some file → CommittedWitness committed m file) ∧
      servableDidLog P.libs log witness = some text

/-- What the cache holds under a key is from an update committed for the slot. -/
def CachedFrom : RowKey → String → Prop
  | .contentLog m, data =>
      ∃ log, CommittedLog committed m log ∧ Shows P committed m log data
  | .contentWitness m, data => CommittedWitness committed m data
  | _, _ => True

/-- The answer shows something that was committed for the slot the request asks for. -/
inductive ShowsCommitted (request : PublicRequest P) (answer : PublicAnswer) : Prop where
  | jsonl (m log : String) (hslot : slotOf "/did.jsonl" request.path = some m)
      (hlog : CommittedLog committed m log) (hbody : Shows P committed m log answer.body)
  | witness (m : String) (hslot : slotOf "/did-witness.json" request.path = some m)
      (hbody : CommittedWitness committed m answer.body)
  | cesr (m log : String) (hslot : slotOf "/keri.cesr" request.path = some m)
      (hlog : CommittedLog committed m log) (hbody : Shows P committed m log answer.body)
  | derived (m log content : String) (update : DidSyncUpdate)
      (hslot : slotOf "/did.json" request.path = some m)
      (hlog : CommittedLog committed m log) (hcontent : Shows P committed m log content)
      (hupdate : update ∈ committed) (hm : update.mnemonic = m)
      (hbody : verifyArtifacts P.libs.toLibs update.didId content = .ok answer.body)
  | bridged (m log : String) (hslot : slotOf "/did.json" request.path = some m)
      (hlog : CommittedLog committed m log) (hbody : bridgedDocument P m log = .ok answer.body)

/-- What every answer to a request shows; a request for something else has none. -/
def AnswerShown (request : PublicRequest P) : Option PublicAnswer → Prop
  | none => True
  | some answer => ShowsCommitted P committed request answer

end Shown

section Mono

variable {P : PublicState} {committed committed' : List DidSyncUpdate}

theorem Shows.mono (hsub : committed ⊆ committed') {m log text : String}
    (h : Shows P committed m log text) : Shows P committed' m log text := by
  rcases h with hraw | ⟨witness, hwitness, hserved⟩
  · exact Or.inl hraw
  · exact Or.inr ⟨witness, fun file hfile => (hwitness file hfile).mono hsub, hserved⟩

theorem CachedFrom.mono (hsub : committed ⊆ committed') {key : RowKey} {data : String}
    (h : CachedFrom P committed key data) : CachedFrom P committed' key data := by
  cases key with
  | contentLog m =>
      obtain ⟨log, hlog, hshows⟩ := h
      exact ⟨log, hlog.mono hsub, hshows.mono hsub⟩
  | contentWitness m => exact CommittedWitness.mono hsub h
  | _ => trivial

theorem ShowsCommitted.mono (hsub : committed ⊆ committed') {request : PublicRequest P}
    {answer : PublicAnswer} (h : ShowsCommitted P committed request answer) :
    ShowsCommitted P committed' request answer := by
  cases h with
  | jsonl m log hslot hlog hbody => exact .jsonl m log hslot (hlog.mono hsub) (hbody.mono hsub)
  | witness m hslot hbody => exact .witness m hslot (hbody.mono hsub)
  | cesr m log hslot hlog hbody => exact .cesr m log hslot (hlog.mono hsub) (hbody.mono hsub)
  | derived m log content update hslot hlog hcontent hupdate hm hbody =>
      exact .derived m log content update hslot (hlog.mono hsub) (hcontent.mono hsub)
        (hsub hupdate) hm hbody
  | bridged m log hslot hlog hbody => exact .bridged m log hslot (hlog.mono hsub) hbody

theorem AnswerShown.mono (hsub : committed ⊆ committed') {request : PublicRequest P}
    {answer : Option PublicAnswer} (h : AnswerShown P committed request answer) :
    AnswerShown P committed' request answer := by
  cases answer with
  | none => trivial
  | some answer => exact ShowsCommitted.mono hsub h

end Mono

/-! ## The protocol of the node -/

section Protocol

variable (P : PublicState)

/-- What holds of a node in every state it reaches. -/
structure NodeInv (n : Node) : Prop where
  rows : RowsCommitted P.edge.libs n.edge.committed n.edge.store
  history : HistoryInv P.edge n.edge
  methods : SlotMethods P.edge.libs n.edge
  read : LogsRead P.edge.libs n.edge.committed
  cache : n.cache.Holds (CachedFrom P n.edge.committed)

/-- While a request waits, updates are committed. -/
def nodeProtocol : Protocol Node (NodeAccess P.edge) where
  Inv := NodeInv P
  Grows n n' := n.edge.committed ⊆ n'.edge.committed
  Meets _ _ := True
  grows_refl _ := List.Subset.refl _
  grows_trans _ _ _ := List.Subset.trans

theorem NodeInv.initial (assignments : Table String AssignmentEntry)
    (pendingPurges : Table String PendingPurge) (domains : Table String DomainEntry)
    (defaultDomain : Option String) (ttl now : ℕ) :
    NodeInv P (Node.initial assignments pendingPurges domains defaultDomain ttl now) where
  rows := ⟨fun _ _ h => by contradiction, fun _ _ h => by contradiction,
    fun _ _ h => by contradiction⟩
  history := HistoryInv.initial P.edge _ _ _ _
  methods _ h := by contradiction
  read _ h := by contradiction
  cache := TtlCache.holds_new ttl

/-- The handler keeps to the protocol of the node, and answers as `Q` says. -/
abbrev Promises {α : Type} (Q : α → Node → Prop) (p : NodeM P.edge α) (n : Node) : Prop :=
  p.Safe (nodeProtocol P) Q (fun _ _ => True) n

end Protocol

/-! ## Single steps -/

section Steps

variable {P : PublicState} {n : Node} {α β : Type} {Q : α → Node → Prop}

theorem committed_perform (o : NodeAccess P.edge) (n : Node) :
    n.edge.committed ⊆ (n.perform o).edge.committed := by
  cases o with
  | directive op => exact committed_history (EdgeRun.step_history P.edge n.edge op)
  | _ => exact List.Subset.refl _

/-- Every access keeps the invariant; an insertion has to show what was committed. -/
theorem NodeInv.perform (h : NodeInv P n) {o : NodeAccess P.edge}
    (ho : ∀ key data, o = .insert key data → CachedFrom P n.edge.committed key data) :
    NodeInv P (n.perform o) := by
  have hcached : ∀ key data, CachedFrom P n.edge.committed key data →
      CachedFrom P (n.perform o).edge.committed key data :=
    fun _ _ => CachedFrom.mono (committed_perform o n)
  cases o with
  | read => exact h
  | directive op =>
      have hrun := EdgeRun.step_history P.edge n.edge op
      exact ⟨rowsCommitted_step h.rows op, h.history.run hrun, h.methods.run hrun,
        logsRead_step h.read op, h.cache.imp hcached⟩
  | reconcile replies =>
      obtain ⟨hrepaired, hrows⟩ := reconcileOnce_repairs h.rows replies
      exact ⟨hrows, h.history.repaired hrepaired, h.methods.repaired hrepaired, h.read, h.cache⟩
  | insert key data =>
      exact ⟨h.rows, h.history, h.methods, h.read, h.cache.insert (ho key data rfl)⟩
  | invalidate key => exact ⟨h.rows, h.history, h.methods, h.read, h.cache.invalidate key⟩
  | clear => exact ⟨h.rows, h.history, h.methods, h.read, TtlCache.holds_clear _⟩
  | evictExpired => exact ⟨h.rows, h.history, h.methods, h.read, h.cache.evictExpired _⟩
  | pass elapsed => exact ⟨h.rows, h.history, h.methods, h.read, h.cache⟩

theorem promises_bind {R : β → Node → Prop} {p : NodeM P.edge α} {f : α → NodeM P.edge β}
    (hp : Promises P Q p n) (hf : ∀ a t, Q a t → Promises P R (f a) t) :
    Promises P R (p >>= f) n :=
  Atomic.safe_bind (hp.mono hf fun _ _ h => h)

theorem promises_pure {a : α} (h : Q a n) : Promises P Q (pure a : NodeM P.edge α) n :=
  h

theorem promises_fail (e : ResolutionError) : Promises P Q (.fail e : NodeM P.edge α) n :=
  trivial

theorem promises_readStore {f : EdgeStore → α}
    (h : ∀ t, (nodeProtocol P).Grows n t → NodeInv P t → Q (f t.edge.store) t) :
    Promises P Q (readStore f : NodeM P.edge α) n :=
  Atomic.safe_call fun t hgrows hinv _ =>
    ⟨hinv, List.Subset.refl _, h t hgrows hinv⟩

theorem promises_readCache {key : RowKey} :
    Promises P (fun cached t => ∀ data, cached = some data →
      CachedFrom P t.edge.committed key data) (readCache key : NodeM P.edge _) n :=
  Atomic.safe_call fun _ _ hinv _ =>
    ⟨hinv, List.Subset.refl _, fun _ hdata => hinv.cache.get hdata⟩

theorem promises_orFail {e : ResolutionError} {o : Option α} (h : ∀ a, o = some a → Q a n) :
    Promises P Q (orFail e o : NodeM P.edge α) n := by
  cases o with
  | some a => exact h a rfl
  | none => exact promises_fail e

theorem promises_check {x : Except ResolutionError α} (h : ∀ a, x = .ok a → Q a n) :
    Promises P Q (Atomic.check x : NodeM P.edge α) n :=
  Atomic.safe_check h fun _ _ => trivial

/-- An access that inserts nothing tells no more than the node is. -/
theorem promises_call {o : NodeAccess P.edge} {f : Node → α}
    (ho : ∀ key data, o ≠ .insert key data) :
    Promises P (fun _ _ => True) (Atomic.call o f : NodeM P.edge α) n :=
  Atomic.safe_call fun t _ hinv _ =>
    ⟨hinv.perform fun key data heq => absurd heq (ho key data), committed_perform o t, trivial⟩

end Steps

/-! ## Requests -/

section Requests

variable {P : PublicState} {n : Node}

/-- A check of the record is no access but reads. -/
theorem promises_servedCheck (m : String) (host : Option String) (record : DidRecord) :
    Promises P (fun _ _ => True) (servedCheck P m host record) n := by
  have hallowed : ∀ did t, Promises P (fun _ _ => True) (resolutionAllowed P host did) t := by
    intro did t
    refine promises_bind (Q := fun _ _ => True) (promises_readStore fun _ _ _ => trivial) ?_
    intro unconfigured u _
    split
    · exact promises_pure trivial
    · split
      · exact promises_fail _
      · refine promises_bind (Q := fun _ _ => True) (promises_check fun _ _ => trivial) ?_
        intro _ v _
        exact promises_bind (Q := fun _ _ => True) (promises_readStore fun _ _ _ => trivial)
          fun domains w _ => promises_check fun _ _ => trivial
  unfold servedCheck
  split
  · exact promises_fail _
  · split
    · exact hallowed _ n
    · exact promises_pure trivial

/-- What `throughCache` returns has been inserted under the key. -/
theorem promises_throughCache {key : RowKey} {fetch : NodeM P.edge String}
    (hfetch : ∀ t, (nodeProtocol P).Grows n t →
      Promises P (fun data u => CachedFrom P u.edge.committed key data) fetch t) :
    Promises P (fun data t => CachedFrom P t.edge.committed key data)
      (throughCache key fetch) n := by
  have hlater : (nodeProtocol P).Lasting ((nodeProtocol P).Grows n) :=
    fun s t hst hns => (nodeProtocol P).grows_trans n s t hns hst
  refine promises_bind (promises_readCache.keeps hlater ((nodeProtocol P).grows_refl n)) ?_
  rintro cached t ⟨hcached, hgrown⟩
  cases cached with
  | some content => exact promises_pure (hcached content rfl)
  | none =>
      refine promises_bind (hfetch t hgrown) fun data u hdata => ?_
      refine promises_bind (Q := fun _ v => CachedFrom P v.edge.committed key data)
        (Atomic.safe_call fun v hgrows hinv _ => ?_) fun _ v hv => promises_pure hv
      have hlater : CachedFrom P v.edge.committed key data := hdata.mono hgrows
      refine ⟨hinv.perform fun key' data' heq => ?_, List.Subset.refl _, hlater⟩
      cases heq
      exact hlater

theorem promises_readLog (m : String) :
    Promises P (fun log t => ∀ text, log = some text → CommittedLog t.edge.committed m text)
      (readStore fun s => s.log m : NodeM P.edge _) n :=
  promises_readStore fun _ _ hinv text htext => hinv.rows.log m text htext

theorem promises_readContent (m : String) (contentType : ContentType) :
    Promises P (fun data t => CachedFrom P t.edge.committed (contentKey m contentType) data)
      (readContent P m contentType) n := by
  cases contentType with
  | jsonl =>
      refine promises_bind (promises_readLog m) fun log t hlog => ?_
      refine promises_bind (Q := fun text u => CommittedLog u.edge.committed m text)
        (promises_orFail hlog) fun text u htext => ?_
      refine promises_bind (Q := fun witness v => CommittedLog v.edge.committed m text ∧
          ∀ file, witness = some file → CommittedWitness v.edge.committed m file)
        (promises_readStore fun v hgrows hinv => ?_) fun witness v hv => ?_
      · exact ⟨htext.mono hgrows, fun file hfile => hinv.rows.witness m file hfile⟩
      · exact promises_orFail fun data hdata => ⟨text, hv.1, Or.inr ⟨witness, hv.2, hdata⟩⟩
  | json =>
      refine promises_bind (Q := fun witness t => ∀ text, witness = some text →
          CommittedWitness t.edge.committed m text)
        (promises_readStore fun t _ hinv text htext => hinv.rows.witness m text htext) ?_
      exact fun witness t hwitness => promises_orFail hwitness

theorem promises_serveContentNode (m : String) (contentType : ContentType) (trackStats : Bool)
    (host : Option String) :
    Promises P (fun answer t =>
      CachedFrom P t.edge.committed (contentKey m contentType) answer.body)
      (serveContentNode P m contentType trackStats host) n := by
  refine promises_bind (Q := fun _ _ => True) (promises_readStore fun _ _ _ => trivial) ?_
  intro row t _
  refine promises_bind (Q := fun _ _ => True) (promises_orFail fun _ _ => trivial) ?_
  intro record u _
  refine promises_bind (promises_servedCheck m host record) fun _ v _ => ?_
  exact promises_bind (promises_throughCache fun w _ => promises_readContent m contentType)
    fun content w hcontent => promises_pure hcontent

theorem promises_webvhDispatch (request : PublicRequest P) :
    Promises P (fun answer t => AnswerShown P t.edge.committed request answer)
      (webvhDispatch P request) n := by
  unfold webvhDispatch
  split
  · rename_i m hslot
    refine promises_bind (Q := fun _ _ => True) (promises_check fun _ _ => trivial) ?_
    intro _ t _
    refine promises_bind (promises_serveContentNode m .jsonl true _) ?_
    rintro answer u ⟨log, hlog, hshows⟩
    exact promises_pure (.jsonl m log hslot hlog hshows)
  · split
    · rename_i m hslot
      refine promises_bind (Q := fun _ _ => True) (promises_check fun _ _ => trivial) ?_
      intro _ t _
      refine promises_bind (promises_serveContentNode m .json false _) ?_
      intro answer u hanswer
      exact promises_pure (.witness m hslot hanswer)
    · exact promises_pure trivial

/-- The record `webs_record` returns is that of a did:webs update committed for the slot. -/
theorem promises_websRecord (m : String) (host : Option String) :
    Promises P (fun held t => ∀ record, held = some record →
      CommittedRecord P.edge.libs t.edge.committed m record ∧ record.method = .webs)
      (websRecord P m host) n := by
  refine promises_bind (Q := fun row t => ∀ record, row = some record →
      CommittedRecord P.edge.libs t.edge.committed m record)
    (promises_readStore fun t _ hinv record hrecord => hinv.rows.record m record hrecord) ?_
  intro row t hrow
  cases row with
  | none => exact promises_pure fun record hrecord => by contradiction
  | some record =>
      rw [websRow]
      split
      · rename_i hmethod
        have hlasts : (nodeProtocol P).Lasting fun u =>
            CommittedRecord P.edge.libs u.edge.committed m record :=
          fun _ _ hgrows h => h.mono hgrows
        refine promises_bind ((promises_servedCheck m host record).keeps hlasts
          (hrow record rfl)) fun _ u hu => promises_pure fun record' hrecord' => ?_
        rw [← Option.some.inj hrecord']
        exact ⟨hu.2, hmethod⟩
      · exact promises_pure fun record' hrecord' => by contradiction

/-- Some update committed for the slot is of did:webs. -/
def HeldByWebs (P : PublicState) (m : String) (n : Node) : Prop :=
  ∃ update ∈ n.edge.committed, update.mnemonic = m ∧
    syncedMethod P.edge.libs update.logContent = .webs

theorem CommittedRecord.heldByWebs {m : String} {record : DidRecord}
    (h : CommittedRecord P.edge.libs n.edge.committed m record) (hmethod : record.method = .webs) :
    HeldByWebs P m n := by
  obtain ⟨-, update, hmem, hm, -, hsynced⟩ := h
  exact ⟨update, hmem, hm, hsynced.symm.trans hmethod⟩

theorem lasting_heldByWebs (m : String) : (nodeProtocol P).Lasting (HeldByWebs P m) := by
  rintro s t hgrows ⟨update, hmem, hupdate⟩
  exact ⟨update, hgrows hmem, hupdate⟩

/-- The log of a did:webs slot is shown as it is. -/
theorem promises_readKeriCesr {m : String} (hwebs : HeldByWebs P m n) :
    Promises P (fun data t => CachedFrom P t.edge.committed (.contentLog m) data)
      (readKeriCesr m) n := by
  refine promises_bind (Q := fun log t => ∀ text, log = some text →
      CachedFrom P t.edge.committed (.contentLog m) text)
    (promises_readStore fun t hgrows hinv text htext => ?_) fun log t hlog => promises_orFail hlog
  obtain ⟨update, hmem, hm, hmethod⟩ := lasting_heldByWebs m _ _ hgrows hwebs
  obtain ⟨held, hheld, hslot, rfl⟩ := hinv.rows.log m text htext
  refine ⟨held.logContent, ⟨held, hheld, hslot, rfl⟩, Or.inl ⟨?_, rfl⟩⟩
  rw [← hmethod]
  exact hinv.methods.eq hheld hmem (hslot.trans hm.symm)

theorem promises_loadKeriCesr {m : String} (hwebs : HeldByWebs P m n) :
    Promises P (fun data t => CachedFrom P t.edge.committed (.contentLog m) data)
      (loadKeriCesr m) n :=
  promises_throughCache fun t hgrows =>
    promises_readKeriCesr (lasting_heldByWebs m n t hgrows hwebs)

theorem promises_serveKeriCesr (m : String) (host : Option String) :
    Promises P (fun answer t => CachedFrom P t.edge.committed (.contentLog m) answer.body)
      (serveKeriCesr P m host) n := by
  refine promises_bind (promises_websRecord m host) fun held t hheld => ?_
  refine promises_bind (Q := fun _ u => HeldByWebs P m u) (promises_orFail fun record hrecord => ?_)
    fun _ u hwebs => ?_
  · obtain ⟨hcommitted, hmethod⟩ := hheld record hrecord
    exact hcommitted.heldByWebs hmethod
  · exact promises_bind (promises_loadKeriCesr hwebs)
      fun content v hcontent => promises_pure hcontent

theorem derivedDocument_eq_ok {record : DidRecord} {content document did : String}
    (h : derivedDocument P record content = .ok document) (hdid : record.didId = some did) :
    verifyArtifacts P.libs.toLibs did content = .ok document := by
  unfold derivedDocument at h
  rw [hdid] at h
  cases hverify : verifyArtifacts P.libs.toLibs did content with
  | error e =>
      simp only [hverify] at h
      contradiction
  | ok derived =>
      simp only [hverify, Except.ok.injEq] at h
      rw [h]

theorem promises_websDidJson {request : PublicRequest P} {m : String}
    (hslot : slotOf "/did.json" request.path = some m) {held : Option DidRecord}
    (hheld : ∀ record, held = some record →
      CommittedRecord P.edge.libs n.edge.committed m record ∧ record.method = .webs) :
    Promises P (fun answer t => AnswerShown P t.edge.committed request answer)
      (websDidJson P held) n := by
  cases held with
  | none => exact promises_pure trivial
  | some record =>
      obtain ⟨hcommitted, hmethod⟩ := hheld record rfl
      have hwebs : HeldByWebs P m n := hcommitted.heldByWebs hmethod
      obtain ⟨rfl, update, hupdate, hm, hdid, -⟩ := hcommitted
      have hlasts : (nodeProtocol P).Lasting fun u => update ∈ u.edge.committed :=
        fun _ _ hgrows h => hgrows h
      have hderived : Promises P (fun answer t => ShowsCommitted P t.edge.committed request answer)
          (serveDidJson P record) n := by
        refine promises_bind ((promises_loadKeriCesr hwebs).keeps hlasts hupdate) ?_
        rintro content t ⟨⟨log, hlog, hcontent⟩, hmem⟩
        refine promises_bind (Q := fun document u => ShowsCommitted P u.edge.committed request
            ⟨"application/did+json", some "public, max-age=300", document, true⟩)
          (promises_check fun document hdocument => ?_) fun document u hu => promises_pure hu
        exact .derived record.mnemonic log content update hslot hlog hcontent hmem hm
          (derivedDocument_eq_ok hdocument hdid)
      exact promises_bind hderived fun answer t hanswer => promises_pure hanswer

theorem promises_websDispatch (request : PublicRequest P) :
    Promises P (fun answer t => AnswerShown P t.edge.committed request answer)
      (websDispatch P request) n := by
  unfold websDispatch
  split
  · rename_i m hslot
    refine promises_bind (Q := fun _ _ => True) (promises_check fun _ _ => trivial) ?_
    intro _ t _
    refine promises_bind (promises_serveKeriCesr m _) ?_
    rintro answer u ⟨log, hlog, hshows⟩
    exact promises_pure (.cesr m log hslot hlog hshows)
  · split
    · rename_i m hslot
      split
      · exact promises_bind (promises_websRecord m _)
          fun held t hheld => promises_websDidJson hslot hheld
      · exact promises_pure trivial
    · exact promises_pure trivial

theorem promises_serveDidWebNode (m : String) (host : Option String) :
    Promises P (fun answer t => ∃ log, CommittedLog t.edge.committed m log ∧
      bridgedDocument P m log = .ok answer.body) (serveDidWebNode P m host) n := by
  refine promises_bind (Q := fun _ _ => True) (promises_readStore fun _ _ _ => trivial) ?_
  intro row t _
  have hcheck : Promises P (fun _ _ => True) (bridgedCheck P m host row) t := by
    cases row with
    | some record => exact promises_servedCheck m host record
    | none => exact promises_pure trivial
  refine promises_bind hcheck fun _ u _ => ?_
  refine promises_bind (promises_readLog m) fun log v hlog => ?_
  refine promises_bind (Q := fun text w => CommittedLog w.edge.committed m text)
    (promises_orFail hlog) fun text w htext => ?_
  refine promises_bind (Q := fun document x => CommittedLog x.edge.committed m text ∧
      bridgedDocument P m text = .ok document)
    (promises_check fun document hdocument => ⟨htext, hdocument⟩) fun document x hx => ?_
  exact promises_pure ⟨text, hx⟩

theorem promises_webDispatch (request : PublicRequest P) :
    Promises P (fun answer t => AnswerShown P t.edge.committed request answer)
      (webDispatch P request) n := by
  unfold webDispatch
  split
  · rename_i m hslot
    refine promises_bind (Q := fun _ _ => True) (promises_check fun _ _ => trivial) ?_
    intro _ t _
    refine promises_bind (promises_serveDidWebNode m _) ?_
    rintro answer u ⟨log, hlog, hbody⟩
    exact promises_pure (.bridged m log hslot hlog hbody)
  · exact promises_pure trivial

theorem promises_orNext {Q : Option PublicAnswer → Node → Prop}
    {first next : NodeM P.edge (Option PublicAnswer)} (hfirst : Promises P Q first n)
    (hnext : ∀ t, Promises P Q next t) : Promises P Q (orNext first next) n := by
  refine promises_bind hfirst fun answer t hanswer => ?_
  cases answer with
  | some answer => exact promises_pure hanswer
  | none => exact hnext t

/-- Every answer to a public request shows something committed for its slot. -/
theorem promises_servePublic (request : PublicRequest P) :
    Promises P (fun answer t => AnswerShown P t.edge.committed request answer)
      (servePublic P request) n := by
  refine promises_orNext (promises_webvhDispatch request) fun t => ?_
  split
  · exact promises_orNext (promises_websDispatch request) fun u => promises_webDispatch request
  · exact promises_webDispatch request

end Requests

/-! ## Directives and tasks -/

section Directives

variable {P : PublicState} {n : Node}

theorem promises_change {o : NodeAccess P.edge} (ho : ∀ key data, o ≠ .insert key data) :
    Promises P (fun _ _ => True) (change o) n :=
  promises_call ho

theorem promises_entryNode (now : ℕ) (update : DidSyncUpdate) :
    Promises P (fun _ _ => True) (entryNode P.edge now update) n := by
  refine promises_bind (promises_call fun _ _ h => by contradiction) fun applied t _ => ?_
  split
  · exact promises_change fun _ _ h => by contradiction
  · exact promises_pure trivial

theorem promises_entriesNode (updates : List (ℕ × DidSyncUpdate)) :
    ∀ t, Promises P (fun _ _ => True) (entriesNode P.edge updates) t := by
  induction updates with
  | nil => exact fun t => promises_pure trivial
  | cons e rest ih =>
      exact fun t => promises_bind (promises_entryNode e.1 e.2) fun _ u _ => ih u

theorem promises_invalidateAll (slots : List String) :
    ∀ t, Promises P (fun _ _ => True) (invalidateAll P.edge slots) t := by
  induction slots with
  | nil => exact fun t => promises_pure trivial
  | cons m rest ih =>
      exact fun t => promises_bind (promises_change fun _ _ h => by contradiction)
        fun _ u _ => ih u

theorem promises_directiveNode (op : EdgeOp) :
    Promises P (fun _ _ => True) (directiveNode P.edge op) n := by
  cases op with
  | syncUpdate now update => exact promises_entryNode now update
  | syncBatch updates => exact promises_entriesNode updates n
  | syncDelete m =>
      refine promises_bind (promises_call fun _ _ h => by contradiction) fun held t _ => ?_
      split
      · exact promises_change fun _ _ h => by contradiction
      · exact promises_pure trivial
  | domainPurge issuedAt domain =>
      refine promises_bind (promises_call fun _ _ h => by contradiction) fun purged t _ => ?_
      split
      · exact promises_change fun _ _ h => by contradiction
      · exact promises_pure trivial
  | _ => exact promises_change fun _ _ h => by contradiction

/-- What a handler promises: a request, that its answer shows what was committed. -/
def NodeOp.Shown {P : PublicState} : NodeOp P → Option PublicAnswer → Node → Prop
  | .get request, answer, n => AnswerShown P n.edge.committed request answer
  | _, _, _ => True

theorem promises_handler (op : NodeOp P) : Promises P op.Shown op.handler n := by
  have hquiet : ∀ {p : NodeM P.edge Unit} {Q : Option PublicAnswer → Node → Prop},
      (∀ t, Q none t) → Promises P (fun _ _ => True) p n →
        Promises P Q (p >>= fun _ => pure none) n :=
    fun hQ hp => promises_bind hp fun _ t _ => promises_pure (hQ t)
  cases op with
  | get request => exact promises_servePublic request
  | directive op => exact hquiet (fun _ => trivial) (promises_directiveNode op)
  | reconcile replies =>
      refine hquiet (fun _ => trivial) ?_
      exact promises_bind (promises_call fun _ _ h => by contradiction)
        fun repaired t _ => promises_invalidateAll repaired t
  | evictExpired =>
      exact hquiet (fun _ => trivial) (promises_change fun _ _ h => by contradiction)
  | pass elapsed =>
      exact hquiet (fun _ => trivial) (promises_change fun _ _ h => by contradiction)

theorem lasting_shown (op : NodeOp P) (answer : Option PublicAnswer) :
    (nodeProtocol P).Lasting (op.Shown answer) := by
  intro s t hgrows h
  cases op with
  | get request => exact AnswerShown.mono hgrows h
  | _ => trivial

end Directives

/-! ## Every run -/

section Runs

variable {ι : Type} [DecidableEq ι]

/-- A node that starts with the handlers of `ops`. -/
abbrev Node.startPool {P : PublicState} (n : Node) (ops : ι → NodeOp P) :
    Pool ι Node (NodeAccess P.edge) Unit Empty ResolutionError (Option PublicAnswer) :=
  Pool.start n fun i => (ops i).handler

/-- What holds after any steps of the handlers. -/
theorem Node.safe_run {P : PublicState} {n : Node} (h : NodeInv P n) (ops : ι → NodeOp P)
    (events : List (PoolEvent ι Unit)) :
    Pool.Safe (nodeProtocol P) (fun i => (ops i).Shown) (fun _ _ _ => True)
      ((n.startPool ops).exec events) := by
  have hstart : Pool.Safe (nodeProtocol P) (fun i => (ops i).Shown) (fun _ _ _ => True)
      (n.startPool ops) :=
    Pool.Safe.start h fun i => promises_handler (ops i)
  have hmeets : ∀ (m : Pool ι Node (NodeAccess P.edge) Unit Empty ResolutionError
      (Option PublicAnswer)) (event : PoolEvent ι Unit), m.Meets (nodeProtocol P) event := by
    intro m event
    cases event with
    | run i x => exact fun _ _ _ => trivial
    | drop i => trivial
  exact (hstart.exec (Run.meets_of_forall hmeets) (fun i answer => lasting_shown (ops i) answer)
    fun _ _ _ _ _ _ => trivial).1

/-- Whatever directives, tasks and requests an edge handles, in any interleaving of their
steps: every answer to a public request shows what was committed for the slot it asks for. -/
theorem answers_show_committed (P : PublicState) (assignments : Table String AssignmentEntry)
    (pendingPurges : Table String PendingPurge) (domains : Table String DomainEntry)
    (defaultDomain : Option String) (ttl now : ℕ) (ops : ι → NodeOp P)
    (events : List (PoolEvent ι Unit)) (i : ι) (request : PublicRequest P)
    (answer : PublicAnswer) (hget : ops i = .get request) :
    let node := Node.initial assignments pendingPurges domains defaultDomain ttl now
    let pool := (node.startPool ops).exec events
    pool.handler i = .ret (some answer) →
      ShowsCommitted P pool.store.edge.committed request answer := by
  intro node pool hanswer
  have hsafe := Node.safe_run (NodeInv.initial P assignments pendingPurges domains defaultDomain
    ttl now) ops events
  have hshown := hsafe.answered hanswer
  rw [hget] at hshown
  exact hshown

end Runs

namespace PublicSample

/-- An update and a request. -/
def ops : Bool → NodeOp server
  | false => .directive (.syncUpdate 1 update)
  | true => .get request

/-- The request is answered when the update has been applied. -/
theorem exists_answered :
    ∃ events, ((node.startPool ops).exec events).handler true = .ret (some answer) := by
  have hhandler : (node.startPool ops).handler false =
      (NodeOp.directive (.syncUpdate 1 update) : NodeOp server).handler := rfl
  have hupdate := congrArg Prod.fst alone_update
  obtain ⟨before, hstore, -, hothers⟩ := Pool.exec_alone hhandler hupdate
  have hsynced : ((node.startPool ops).exec before).store = synced := by
    rw [hstore, Atomic.effect]
    change ((NodeOp.directive (.syncUpdate 1 update) : NodeOp server).handler.alone
      noInputs node).2 = synced
    rw [alone_update]
  have hwaits : ((node.startPool ops).exec before).handler true =
      (NodeOp.get request).handler := hothers true (by decide)
  have hrequest : ((NodeOp.get request).handler.alone noInputs
      ((node.startPool ops).exec before).store).1 = some (.ok (some answer)) := by
    rw [hsynced]
    exact alone_request rfl rfl
  obtain ⟨after, -, hanswer, -⟩ := Pool.exec_alone hwaits hrequest
  refine ⟨before ++ after, ?_⟩
  rw [Pool.exec, Run.exec_append]
  exact hanswer

end PublicSample

/-- The answer to a request after an update. -/
theorem answers_show_committed_update :
    ∃ events, ShowsCommitted PublicSample.server
      ((PublicSample.node.startPool PublicSample.ops).exec events).store.edge.committed
      PublicSample.request PublicSample.answer := by
  obtain ⟨events, hanswer⟩ := PublicSample.exists_answered
  exact ⟨events, answers_show_committed PublicSample.server ∅ ∅ ∅ none 60 0 PublicSample.ops events
    true PublicSample.request PublicSample.answer rfl hanswer⟩

end DidHosting
