import DidHosting.Edge.Public
import DidHosting.Edge.Reference

/-!
# Requests that nothing overlaps

A request reads the store and then, at most once, looks content up in the cache, reads it
where it is not there, and inserts it.  What it only reads leaves the node as it is.
-/

namespace DidHosting

open Text

/-! ## Reading the store -/

/-- The inputs of a handler that asks for none. -/
abbrev noInputs : ℕ → Unit :=
  fun _ => ()

section Alone

variable {E : EdgeState} {n : Node} {α β : Type}

/-- The handler's answer depends on the store alone. -/
def ReadsStore (p : NodeM E α) (f : EdgeStore → Except ResolutionError α) : Prop :=
  p.Reads fun n => f n.edge.store

theorem alone_bind {p : NodeM E α} {g : α → NodeM E β} {t : Node} {a : α}
    (h : p.alone noInputs n = (some (.ok a), t)) :
    (p >>= g).alone noInputs n = (g a).alone noInputs t := by
  obtain ⟨ys, hrest⟩ := Atomic.alone_bind_ok (f := g) h
  exact hrest

section OrNext

variable {first next : NodeM E (Option PublicAnswer)} {t : Node}

theorem alone_orNext_some {answer : PublicAnswer}
    (h : first.alone noInputs n = (some (.ok (some answer)), t)) :
    (orNext first next).alone noInputs n = (some (.ok (some answer)), t) :=
  alone_bind h

theorem alone_orNext_none (h : first.alone noInputs n = (some (.ok none), t)) :
    (orNext first next).alone noInputs n = next.alone noInputs t :=
  alone_bind h

theorem alone_orNext_fail {e : ResolutionError}
    (h : first.alone noInputs n = (some (.error e), t)) :
    (orNext first next).alone noInputs n = (some (.error e), t) :=
  Atomic.alone_bind_fail h

end OrNext

section Reading

variable {f : EdgeStore → Except ResolutionError α}

theorem readsStore_pure (a : α) : ReadsStore (pure a : NodeM E α) fun _ => .ok a :=
  fun _ _ => rfl

theorem readsStore_fail (e : ResolutionError) :
    ReadsStore (.fail e : NodeM E α) fun _ => .error e :=
  fun _ _ => rfl

theorem readsStore_check (x : Except ResolutionError α) :
    ReadsStore (Atomic.check x : NodeM E α) fun _ => x :=
  Atomic.reads_check x

theorem readsStore_readStore (g : EdgeStore → α) :
    ReadsStore (readStore g : NodeM E α) fun s => .ok (g s) :=
  fun _ _ => rfl

theorem readsStore_orFail (e : ResolutionError) (o : Option α) :
    ReadsStore (orFail e o : NodeM E α) fun _ => o.elim (.error e) .ok := by
  cases o with
  | some a => exact readsStore_pure a
  | none => exact readsStore_fail e

theorem readsStore_bind {p : NodeM E α} {g : α → NodeM E β}
    {h : α → EdgeStore → Except ResolutionError β} (hp : ReadsStore p f)
    (hg : ∀ a, ReadsStore (g a) (h a)) :
    ReadsStore (p >>= g) fun s => f s >>= fun a => h a s :=
  Atomic.reads_bind hp hg

theorem ReadsStore.congr {p : NodeM E α} {g : EdgeStore → Except ResolutionError α}
    (h : ReadsStore p f) (hfg : ∀ s, f s = g s) : ReadsStore p g := by
  rw [← funext hfg]
  exact h

theorem readsStore_ite {c : Prop} [Decidable c] {p q : NodeM E α}
    {g : EdgeStore → Except ResolutionError α} (hp : ReadsStore p f) (hq : ReadsStore q g) :
    ReadsStore (if c then p else q) fun s => if c then f s else g s := by
  by_cases hc : c
  · simp only [if_pos hc]
    exact hp
  · simp only [if_neg hc]
    exact hq

end Reading

section ThroughCache

variable {key : RowKey} {fetch : NodeM E String}
  {f : EdgeStore → Except ResolutionError String} {t : Node} {data : String}

theorem alone_throughCache_hit (hget : t.cache.get t.now key = some data) :
    (throughCache key fetch).alone noInputs t = (some (.ok data), t) := by
  have hlookup : (readCache key : NodeM E _).alone noInputs t = (some (.ok (some data)), t) := by
    rw [← hget]
    rfl
  exact alone_bind hlookup

theorem alone_throughCache_miss (hfetch : ReadsStore fetch f)
    (hget : t.cache.get t.now key = none) (hdata : f t.edge.store = .ok data) :
    (throughCache key fetch).alone noInputs t =
      (some (.ok data), { t with cache := t.cache.insert t.now key data }) := by
  have hlookup : (readCache key : NodeM E _).alone noInputs t = (some (.ok none), t) := by
    rw [← hget]
    rfl
  have hread : fetch.alone noInputs t = (some (.ok data), t) := by
    rw [← hdata]
    exact hfetch noInputs t
  exact (alone_bind hlookup).trans (alone_bind hread)

theorem alone_throughCache_fail (hfetch : ReadsStore fetch f) {e : ResolutionError}
    (hget : t.cache.get t.now key = none) (hdata : f t.edge.store = .error e) :
    (throughCache key fetch).alone noInputs t = (some (.error e), t) := by
  have hlookup : (readCache key : NodeM E _).alone noInputs t = (some (.ok none), t) := by
    rw [← hget]
    rfl
  have hread : fetch.alone noInputs t = (some (.error e), t) := by
    rw [← hdata]
    exact hfetch noInputs t
  exact (alone_bind hlookup).trans (Atomic.alone_bind_fail hread)

end ThroughCache

end Alone

/-! ## Reading what is served -/

section Served

variable {P : PublicState}

theorem readsStore_servedCheck (m : String) (host : Option String) (record : DidRecord) :
    ∃ f, ReadsStore (servedCheck P m host record : NodeM P.edge Unit) f := by
  have hallowed : ∀ did, ∃ f, ReadsStore (resolutionAllowed P host did : NodeM P.edge Unit) f := by
    intro did
    cases host with
    | none =>
        exact ⟨_, readsStore_bind (readsStore_readStore _) fun _ =>
          readsStore_ite (readsStore_pure _) (readsStore_fail _)⟩
    | some host =>
        exact ⟨_, readsStore_bind (readsStore_readStore _) fun _ =>
          readsStore_ite (readsStore_pure _) (readsStore_bind (readsStore_check _) fun _ =>
            readsStore_bind (readsStore_readStore _) fun _ => readsStore_check _)⟩
  unfold servedCheck
  split
  · exact ⟨_, readsStore_fail _⟩
  · split
    · exact hallowed _
    · exact ⟨_, readsStore_pure _⟩

theorem elim_eq_ok {α : Type} {e : ResolutionError} {o : Option α} {a : α}
    (h : o.elim (.error e) Except.ok = .ok a) : o = some a := by
  cases o with
  | none => contradiction
  | some b => exact congrArg some (Except.ok.inj h)

/-- What `serve_content` makes of the log of a slot. -/
def servedLogOf (P : PublicState) (m : String) (s : EdgeStore) : Except ResolutionError String :=
  ((s.log m).bind fun log => servableDidLog P.libs log (s.witness m)).elim
    (.error (contentNotFound m)) .ok

theorem readsStore_readContent (m : String) :
    ReadsStore (readContent P m .jsonl : NodeM P.edge _) (servedLogOf P m) := by
  have hread := readsStore_bind (readsStore_readStore (E := P.edge) fun s => s.log m) fun log =>
    readsStore_bind (readsStore_orFail (contentNotFound m) log) fun text =>
      readsStore_bind (readsStore_readStore fun s => s.witness m) fun witness =>
        readsStore_orFail (contentNotFound m) (servableDidLog P.libs text witness)
  refine hread.congr fun s => ?_
  unfold servedLogOf
  cases s.log m <;> rfl

theorem readsStore_readKeriCesr (m : String) :
    ReadsStore (readKeriCesr m : NodeM P.edge _)
      fun s => .ok (s.log m) >>= fun log => log.elim (.error (contentNotFound m)) .ok :=
  readsStore_bind (readsStore_readStore _) fun log => readsStore_orFail _ log

/-- An edge without domains answers a request for a log that it holds. -/
theorem alone_didJsonl {n : Node} {request : PublicRequest P} {m log text : String}
    {record : DidRecord} (hslot : slotOf "/did.jsonl" request.path = some m)
    (hvalid : validateMnemonic m = .ok ()) (hrecord : n.edge.store.record m = some record)
    (hserves : (record.disabled || record.deletedAt.isSome) = false)
    (hdomains : (Table.rows n.edge.store.domains).isEmpty = true)
    (hget : n.cache.get n.now (.contentLog m) = none) (hlog : n.edge.store.log m = some log)
    (htext : servableDidLog P.libs log (n.edge.store.witness m) = some text) :
    ((NodeOp.get request).handler.alone noInputs n).1 = some (.ok (some
      ⟨"application/jsonl+json", some "public, max-age=300", text, true⟩)) := by
  have hchecked : (servedCheck P m request.requestHost record : NodeM P.edge Unit).alone noInputs n =
      (some (.ok ()), n) := by
    unfold servedCheck
    rw [hserves]
    cases record.didId with
    | none => rfl
    | some did =>
        have hunconfigured : (readStore fun s => (Table.rows s.domains).isEmpty :
            NodeM P.edge Bool).alone noInputs n = (some (.ok true), n) := by
          rw [← hdomains]
          rfl
        exact alone_bind hunconfigured
  have hrow : (readStore fun s => s.record m : NodeM P.edge _).alone noInputs n =
      (some (.ok (some record)), n) := by
    rw [← hrecord]
    rfl
  have hcontent : servedLogOf P m n.edge.store = .ok text := by
    unfold servedLogOf
    rw [hlog, Option.bind_some, htext]
    rfl
  have hthrough := alone_throughCache_miss (readsStore_readContent m) hget hcontent
  have hserved : ((serveContentNode P m .jsonl true request.requestHost :
      NodeM P.edge _).alone noInputs n).1 =
        some (.ok ⟨"application/jsonl+json", some "public, max-age=300", text, true⟩) := by
    unfold serveContentNode
    rw [alone_bind hrow]
    have hsame : ∀ {t : Node} {p : DidRecord → NodeM P.edge PublicAnswer},
        (orFail (contentNotFound m) (some record) >>= p).alone noInputs t =
          (p record).alone noInputs t := fun {_ _} => rfl
    rw [hsame, alone_bind hchecked, contentKey, alone_bind hthrough]
    rfl
  have hanswer : ((webvhDispatch P request : NodeM P.edge _).alone noInputs n).1 =
      some (.ok (some ⟨"application/jsonl+json", some "public, max-age=300", text, true⟩)) := by
    have hvalidated : (Atomic.check ((validateMnemonic m).mapError ResolutionError.app) :
        NodeM P.edge Unit).alone noInputs n = (some (.ok ()), n) := by
      rw [hvalid]
      rfl
    unfold webvhDispatch
    simp only [hslot]
    rw [alone_bind hvalidated, Atomic.alone_bind_pure, hserved]
    rfl
  exact congrArg Prod.fst (alone_orNext_some (Prod.ext hanswer rfl))

end Served

theorem witness_updateBatch (L : Libs) (update : DidSyncUpdate) (method : Method)
    (previous : Option DidRecord) (record : DidRecord) (identity : String) (s : EdgeStore) :
    (EdgeStore.commit (.dids (updateBatch L update method previous record identity))
      s).witness update.mnemonic = update.witnessContent := by
  change (DidsKs.commit (updateBatch L update method previous record identity)
    s.ks).contentWitness.lookup update.mnemonic = update.witnessContent
  unfold updateBatch DidsKs.commit
  rw [List.foldl_append, List.foldl_append]
  cases hfile : update.witnessContent <;>
    simp [stageHighWater, witnessWrite, hfile, DidsKs.apply]

/-! ## A served slot -/

namespace PublicSample

open Reference

/-- A server at `https://h.io`, with the reference libraries. -/
abbrev server : PublicState where
  libs := { libs with
    failedProofs := fun proofs _ => proofs
    entryToString := fun e => .ok (print e) }
  fromUtf8Lossy bytes := (String.fromUTF8? bytes).getD ""
  utf8Error _ := "invalid utf-8 sequence"
  publicUrl := some "https://h.io"
  serverHost := "0.0.0.0"
  serverPort := 8530
  IpAddr := Unit
  IpNetwork := Unit
  contains _ _ := true
  trustedProxyCidrs := []

/-- A request for the log of the sample DID. -/
def request : PublicRequest server :=
  ⟨"/al/did.jsonl", ⟨some "h.io", none, none⟩, none⟩

/-- The update with a log of the sample DID. -/
def updateAl (es : List Json) : DidSyncUpdate :=
  updateOf es didAl "al" false

/-- The answer that shows the log. -/
def answerAl (es : List Json) : PublicAnswer :=
  ⟨"application/jsonl+json", some "public, max-age=300", logOf es, true⟩

/-- The update with the first log of the sample DID. -/
def update : DidSyncUpdate :=
  updateAl [al1]

/-- The answer to the request. -/
def answer : PublicAnswer :=
  answerAl [al1]

/-- A node that has served nothing yet. -/
def node : Node :=
  Node.initial ∅ ∅ ∅ none 60 0

/-- The node after the update. -/
def synced : Node :=
  ⟨⟨EdgeStore.commit (.dids (syncedBatch [al1] didAl "al" "s" false 1 none)) node.edge.store,
    [update]⟩, node.cache.invalidate (.contentLog "al"), 0⟩

theorem slot_request : slotOf "/did.jsonl" request.path = some "al" := by
  unfold slotOf
  decide +kernel

theorem servableDidLog_valid {es : List Json} {state : Json} (h : ValidLog es didAl state) :
    servableDidLog server.libs (logOf es) none = some (logOf es) := by
  obtain ⟨states, hchain⟩ := h.parseAndVerifyChain_ok
  have hne : states ≠ [] := by
    rintro rfl
    obtain ⟨hvalid, -, hread⟩ := parseAndVerifyChain_ok_iff.mp hchain
    obtain ⟨hlines, -⟩ := validateDidJsonl_ok_iff.mp hvalid
    exact hlines (List.length_eq_zero_iff.mp hread.length_eq)
  have hall : ∀ proofs highest, witnessedPrefix libs proofs highest states = states :=
    fun proofs highest => List.takeWhile_eq_self_iff.mpr fun _ _ => rfl
  have hserved : servableDidLog server.libs (logOf es) none = _ :=
    servableDidLog_of_chain hchain (List.getLast?_eq_some_getLast hne)
  rw [hall] at hserved
  exact hserved.trans (if_pos rfl)

/-- An update that is applied is committed, and the log in the cache is dropped. -/
theorem alone_applied {n : Node} {now : ℕ} {u : DidSyncUpdate} {t : EdgeStore}
    (hrun : (applySyncEntry edge now u).run n.edge.store = (.ok .applied, t)) :
    (NodeOp.directive (.syncUpdate now u) : NodeOp server).handler.alone noInputs n =
      (some (.ok none), ⟨⟨t, n.edge.committed ++ [u]⟩,
        n.cache.invalidate (.contentLog u.mnemonic), n.now⟩) := by
  have happlied : entryApplied edge now u n.edge.store = true := by
    unfold entryApplied
    rw [hrun]
  have hentry : n.edge.step edge (.syncUpdate now u) = ⟨t, n.edge.committed ++ [u]⟩ := by
    change EdgeRun.entry edge n.edge (now, u) = _
    unfold EdgeRun.entry
    rw [hrun]
  have hcall : (Atomic.call (.directive (.syncUpdate now u)) fun n =>
      entryApplied edge now u n.edge.store : NodeM edge Bool).alone noInputs n =
        (some (.ok true), { n with edge := ⟨t, n.edge.committed ++ [u]⟩ }) := by
    change (some (Except.ok (entryApplied edge now u n.edge.store)),
      { n with edge := n.edge.step edge (.syncUpdate now u) }) = _
    rw [happlied, hentry]
  have hnode : (entryNode edge now u).alone noInputs n = (some (.ok ()),
      ⟨⟨t, n.edge.committed ++ [u]⟩, n.cache.invalidate (.contentLog u.mnemonic), n.now⟩) :=
    alone_bind hcall
  exact alone_bind hnode

theorem alone_update : (NodeOp.directive (.syncUpdate 1 update) : NodeOp server).handler.alone
    noInputs node = (some (.ok none), synced) :=
  alone_applied (run_firstSync 1 validLog_al1 (boundAt_updateOf bound_didAl) scid_didAl rfl rfl
    rfl rfl)

/-- The request is answered with the log of the last update, unless another one is cached. -/
theorem alone_requestAl {n : Node} {s : EdgeStore} {es : List Json} {state : Json} {now : ℕ}
    {previous : Option DidRecord} (hlog : ValidLog es didAl state)
    (hstore : n.edge.store = EdgeStore.commit
      (.dids (syncedBatch es didAl "al" "s" false now previous)) s)
    (hdomains : (Table.rows s.domains).isEmpty = true)
    (hget : n.cache.get n.now (.contentLog "al") = none) :
    ((NodeOp.get request).handler.alone noInputs n).1 = some (.ok (some (answerAl es))) := by
  obtain ⟨hrecord, hcontent, -⟩ :
      (EdgeStore.commit (.dids (syncedBatch es didAl "al" "s" false now previous)) s).record
        "al" = some (syncedRecordOf es didAl "al" false now) ∧ _ ∧ _ :=
    syncedBatch_rows now previous s
  have hwitness := witness_updateBatch libs (updateAl es) .webvh previous
    (syncedRecordOf es didAl "al" false now) "s" s
  refine alone_didJsonl slot_request validateMnemonic_al (hstore ▸ hrecord) rfl ?_ hget
    (hstore ▸ hcontent) ?_
  · rw [hstore]
    exact hdomains
  · have hnone : n.edge.store.witness "al" = none := hstore ▸ hwitness
    rw [hnone]
    exact servableDidLog_valid hlog

theorem alone_request {n : Node} (hedge : n.edge = synced.edge)
    (hget : n.cache.get n.now (.contentLog "al") = none) :
    ((NodeOp.get request).handler.alone noInputs n).1 = some (.ok (some answer)) :=
  alone_requestAl validLog_al1 (congrArg EdgeRun.store hedge) rfl hget

end PublicSample

end DidHosting
