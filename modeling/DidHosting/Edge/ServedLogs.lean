import DidHosting.Edge.CacheCoherence

/-!
# Served logs do not fork

An answer may be older than the log the edge holds, because of the cache and of requests
that were overtaken, and it may end before the log does.  Still it shows the first entries
of a log that was committed, and the logs committed for one SCID are a chain.  So of any two
answers for a SCID, whenever they were given, one shows the beginning of the other.
-/

namespace DidHosting

open Text

/-! ## The slot of a request -/

theorem suffix_of_slotOf {artifact path m : String} (h : slotOf artifact path = some m) :
    artifact.toList <:+ (trimStartMatches '/' path).toList := by
  unfold slotOf stripSuffix at h
  split at h
  · rename_i hends
    exact endsWith_iff.mp hends
  · contradiction

theorem slotOf_comparable {artifact artifact' path m m' : String}
    (h : slotOf artifact path = some m) (h' : slotOf artifact' path = some m') :
    artifact.toList <:+ artifact'.toList ∨ artifact'.toList <:+ artifact.toList :=
  List.suffix_or_suffix_of_suffix (suffix_of_slotOf h) (suffix_of_slotOf h')

theorem ShowsCommitted.of_jsonl {P : PublicState} {committed : List DidSyncUpdate}
    {request : PublicRequest P} {answer : PublicAnswer} {m : String}
    (h : ShowsCommitted P committed request answer)
    (hslot : slotOf "/did.jsonl" request.path = some m) :
    ∃ update ∈ committed, update.mnemonic = m ∧
      Shows P committed m update.logContent answer.body := by
  cases h with
  | jsonl m' log hslot' hlog hbody =>
      obtain rfl := Option.some.inj (hslot.symm.trans hslot')
      obtain ⟨update, hmem, hm, rfl⟩ := hlog
      exact ⟨update, hmem, hm, hbody⟩
  | witness m' hslot' => exact absurd (slotOf_comparable hslot hslot') (by decide)
  | cesr m' log hslot' => exact absurd (slotOf_comparable hslot hslot') (by decide)
  | derived m' log content update hslot' =>
      exact absurd (slotOf_comparable hslot hslot') (by decide)
  | bridged m' log hslot' => exact absurd (slotOf_comparable hslot hslot') (by decide)

/-! ## The first entries of a log -/

section Beginnings

variable {L : ServeLibs} {log log' text text' : String}
  {shown shown' : List (L.LogEntry × ℕ)}

/-- The text shows the first entries of the log: it is the log itself, or these entries
written out. -/
structure ShowsFirst (L : ServeLibs) (log text : String) (shown : List (L.LogEntry × ℕ)) :
    Prop where
  first : ∃ entries, parseEntries L.toLibs 0 none (lines log) = .ok entries ∧ shown <+: entries ∧
    (shown = entries ∧ text = log ∨ text = writeEntries L (shown.map Prod.fst))
  ne_nil : shown ≠ []

theorem LogRead.entries_ne_nil {entries : List (L.LogEntry × ℕ)}
    (hvalid : validateDidJsonl L.toLibs log = .ok ())
    (hparse : parseEntries L.toLibs 0 none (lines log) = .ok entries) : entries ≠ [] := by
  rintro rfl
  have hlength := (parseEntries_iff_readsAs.mp hparse).length_eq
  obtain ⟨hlines, -⟩ := validateDidJsonl_ok_iff.mp hvalid
  exact hlines (List.length_eq_zero_iff.mp hlength)

theorem LogRead.showsFirst (hread : LogRead L.toLibs log) {witness : Option String}
    (hserved : servableDidLog L log witness = some text) : ∃ shown, ShowsFirst L log text shown := by
  obtain ⟨hvalid, entries, hparse⟩ := hread
  have hne : entries ≠ [] := LogRead.entries_ne_nil hvalid hparse
  have hwhole : text = log → ∃ shown, ShowsFirst L log text shown :=
    fun htext => ⟨entries, ⟨entries, hparse, List.prefix_rfl, Or.inl ⟨rfl, htext⟩⟩, hne⟩
  have hlast : entries.getLast? = some (entries.getLast hne) := List.getLast?_eq_some_getLast hne
  rw [servableDidLog_of_parsed witness hvalid hparse hlast] at hserved
  split at hserved
  · exact hwhole (Option.some.inj hserved).symm
  · rename_i servable hcount
    split at hserved
    · exact hwhole (Option.some.inj hserved).symm
    · split at hserved
      · contradiction
      · rename_i hpositive
        refine ⟨entries.take servable, ⟨entries, hparse, List.take_prefix _ _, Or.inr ?_⟩, ?_⟩
        · exact (Option.some.inj hserved).symm
        · rw [Ne, List.take_eq_nil_iff]
          simp [hpositive, hne]

/-- The entries of a log are the first ones of any log that extends it. -/
theorem entries_isPrefix {entries entries' : List (L.LogEntry × ℕ)}
    (hparse : parseEntries L.toLibs 0 none (lines log) = .ok entries)
    (hparse' : parseEntries L.toLibs 0 none (lines log') = .ok entries')
    (hextends : logEntries log <+: logEntries log') : entries <+: entries' := by
  have hread := (parseEntries_iff_readsAs.mp hparse').take (logEntries log).length
  have hlines : trimmedLines log = (trimmedLines log').take (logEntries log).length :=
    List.prefix_iff_eq_take.mp hextends
  rw [← hlines] at hread
  have hsame := hparse.symm.trans (parseEntries_iff_readsAs.mpr hread)
  rw [Except.ok.inj hsame]
  exact List.take_prefix _ _

/-- Of two beginnings of logs one of which extends the other, one is the beginning of the
other. -/
theorem ShowsFirst.comparable (h : ShowsFirst L log text shown)
    (h' : ShowsFirst L log' text' shown') (hextends : logEntries log <+: logEntries log') :
    shown <+: shown' ∨ shown' <+: shown := by
  obtain ⟨entries, hparse, hfirst, -⟩ := h.first
  obtain ⟨entries', hparse', hfirst', -⟩ := h'.first
  have hshown : shown <+: entries' := hfirst.trans (entries_isPrefix hparse hparse' hextends)
  exact List.prefix_or_prefix_of_prefix hshown hfirst'

end Beginnings

/-! ## Two answers -/

/-- One of the logs extends the other. -/
def ComparableLogs (log log' : String) : Prop :=
  logEntries log <+: logEntries log' ∨ logEntries log' <+: logEntries log

instance : Std.Symm ComparableLogs := ⟨fun _ _ => Or.symm⟩

/-- Of two logs that were committed for a SCID, one extends the other. -/
theorem HistoryInv.comparable {E : EdgeState} {r : EdgeRun} (h : HistoryInv E r)
    {update update' : DidSyncUpdate} {scid : String} (hmem : update ∈ r.committed)
    (hmem' : update' ∈ r.committed) (hmethod : syncedMethod E.libs update.logContent = .webvh)
    (hmethod' : syncedMethod E.libs update'.logContent = .webvh)
    (hscid : webvhScid update.didId = some scid) (hscid' : webvhScid update'.didId = some scid) :
    ComparableLogs update.logContent update'.logContent := by
  have hlogs : ∀ u ∈ r.committed, syncedMethod E.libs u.logContent = .webvh →
      webvhScid u.didId = some scid → u.logContent ∈ logsOf E.libs scid r.committed := by
    intro u hu hwebvh hu'
    exact List.mem_map.mpr ⟨u, List.mem_filter.mpr ⟨hu, decide_eq_true ⟨hwebvh, hu'⟩⟩, rfl⟩
  have hchain : (logsOf E.libs scid r.committed).Pairwise ComparableLogs :=
    (h.chain scid (colon_not_mem_webvhScid hscid)).imp fun hsucc => Or.inl hsucc.1
  have hself : ∀ log ∈ logsOf E.libs scid r.committed, ComparableLogs log log :=
    fun _ _ => Or.inl List.prefix_rfl
  exact hchain.forall_of_forall hself (hlogs update hmem hmethod hscid)
    (hlogs update' hmem' hmethod' hscid')

/-- Whatever requests an edge handles, in any interleaving of their steps, and whatever
directives, tasks and reconciles beside them, each at once: every answer with a log shows a
log that was committed for the slot, and of any two answers that show did:webvh logs of one
SCID, one shows the beginning of the other. -/
theorem served_logs_never_fork {ι : Type} [DecidableEq ι] (P : PublicState)
    (assignments : Table String AssignmentEntry) (pendingPurges : Table String PendingPurge)
    (domains : Table String DomainEntry) (defaultDomain : Option String) (ttl now : ℕ)
    (ops : ι → NodeOp P) (events : List (PoolEvent ι Unit)) (i j : ι)
    (request request' : PublicRequest P) (answer answer' : PublicAnswer) (m m' : String)
    (hget : ops i = .get request) (hget' : ops j = .get request')
    (hslot : slotOf "/did.jsonl" request.path = some m)
    (hslot' : slotOf "/did.jsonl" request'.path = some m') :
    let node := Node.initial assignments pendingPurges domains defaultDomain ttl now
    let pool := (node.startPool ops).exec events
    let committed := pool.store.edge.committed
    pool.handler i = .ret (some answer) → pool.handler j = .ret (some answer') →
      (∃ update ∈ committed, update.mnemonic = m ∧
        Shows P committed m update.logContent answer.body) ∧
      (∃ update' ∈ committed, update'.mnemonic = m' ∧
        Shows P committed m' update'.logContent answer'.body) ∧
      ∀ update ∈ committed, ∀ update' ∈ committed,
        Shows P committed m update.logContent answer.body →
        Shows P committed m' update'.logContent answer'.body →
        syncedMethod P.edge.libs update.logContent = .webvh →
        syncedMethod P.edge.libs update'.logContent = .webvh →
        ∀ scid, webvhScid update.didId = some scid → webvhScid update'.didId = some scid →
          ∃ shown shown', ShowsFirst P.libs update.logContent answer.body shown ∧
            ShowsFirst P.libs update'.logContent answer'.body shown' ∧
            (shown <+: shown' ∨ shown' <+: shown) := by
  intro node pool committed hanswer hanswer'
  have hsafe := Node.safe_run (NodeInv.initial P assignments pendingPurges domains defaultDomain
    ttl now) ops events
  have hshown : ShowsCommitted P committed request answer := by
    have h := hsafe.answered hanswer
    rw [hget] at h
    exact h
  have hshown' : ShowsCommitted P committed request' answer' := by
    have h := hsafe.answered hanswer'
    rw [hget'] at h
    exact h
  refine ⟨hshown.of_jsonl hslot, hshown'.of_jsonl hslot', ?_⟩
  intro update hmem update' hmem' hbody hbody' hmethod hmethod' scid hscid hscid'
  have hfirst : ∀ {u : DidSyncUpdate} {slot text : String}, u ∈ committed →
      syncedMethod P.edge.libs u.logContent = .webvh →
      Shows P committed slot u.logContent text → ∃ shown, ShowsFirst P.libs u.logContent text shown := by
    intro u slot text hu hwebvh hshows
    rcases hshows with ⟨hwebs, -⟩ | ⟨witness, -, hserved⟩
    · rw [hwebvh] at hwebs
      contradiction
    · exact LogRead.showsFirst (hsafe.inv.read u hu hwebvh) hserved
  obtain ⟨shown, hshows⟩ := hfirst hmem hmethod hbody
  obtain ⟨shown', hshows'⟩ := hfirst hmem' hmethod' hbody'
  refine ⟨shown, shown', hshows, hshows', ?_⟩
  rcases hsafe.inv.history.comparable hmem hmem' hmethod hmethod' hscid hscid' with hext | hext
  · exact hshows.comparable hshows' hext
  · exact (hshows'.comparable hshows hext).symm

section Sample

open PublicSample Reference

/-- Two updates of the sample DID, and two requests. -/
def versionOps : Fin 4 → NodeOp server
  | 0 => .directive (.syncUpdate 1 update)
  | 1 => .get request
  | 2 => .directive (.syncUpdate 2 (updateAl [al1, al2]))
  | 3 => .get request

/-- The node that has applied the second update after all that. -/
def extended : Node :=
  ⟨⟨EdgeStore.commit (.dids (syncedBatch [al1, al2] didAl "al" "s" false 2
      (some (recordAl 1)))) synced.edge.store, [update, updateAl [al1, al2]]⟩,
    warm.cache.invalidate (.contentLog "al"), warm.now⟩

theorem logOf_al2_ne : logOf [al1] ≠ logOf [al1, al2] := by
  intro h
  have hcount := (entryCount_logOf validLog_al1.wellFormed).symm.trans
    ((congrArg entryCount h).trans (entryCount_logOf validLog_al2.wellFormed))
  exact absurd hcount (by decide)

theorem alone_extending :
    (NodeOp.directive (.syncUpdate 2 (updateAl [al1, al2])) : NodeOp server).handler.alone
      noInputs warm = (some (.ok none), extended) := by
  have hrows := @syncedBatch_rows [al1] didAl "s" "al" false 1 none node.edge.store
  have hrecord : synced.edge.store.record "al" = some (recordAl 1) := hrows.1
  have hlog : synced.edge.store.log "al" = some (logOf [al1]) := hrows.2.1
  have hallows : Allows synced.edge.store [al1, al2] "al" "s" :=
    allows_append (by simpa using wellFormed_al1) (by simpa using wellFormed_al2) (by
      intro e he
      cases List.mem_singleton.mp he
      rfl)
  have hnew : alreadyHeld (updateAl [al1, al2]) (some (recordAl 1)) (some (logOf [al1]))
      (synced.edge.store.witness "al") = false := by
    simp only [alreadyHeld, Bool.and_eq_false_iff, decide_eq_false_iff_not]
    exact Or.inl (Or.inr fun h => logOf_al2_ne (Option.some.inj h))
  rw [← hrecord, ← hlog] at hnew
  have hrun : (applySyncEntry edge 2 (updateAl [al1, al2])).run warm.edge.store =
      (.ok .applied, extended.edge.store) := by
    have happlied :=
      run_syncEntry 2 validLog_al2 (boundAt_updateOf bound_didAl) scid_didAl hallows hnew
    rw [hrecord] at happlied
    rw [edge_warm]
    exact happlied
  have hcommitted : warm.edge.committed = [update] := by
    rw [edge_warm]
    rfl
  rw [alone_applied hrun, hcommitted]
  rfl

theorem after_extending :
    warm.after (.directive (.syncUpdate 2 (updateAl [al1, al2])) : NodeOp server) = extended :=
  Node.after_eq alone_extending

theorem edge_extended : (extended.after (.get request)).edge = extended.edge := by
  have hinv : NodeInv server node := NodeInv.initial server ∅ ∅ ∅ none 60 0
  have hcoherent : node.Coherent server := TtlCache.holds_new 60
  obtain ⟨hwarm, hcoherent₁⟩ := coherent_run hinv hcoherent
    [.directive (.syncUpdate 1 update), .get request]
  have hinv₁ : NodeInv server warm := hwarm
  have hextended := hinv₁.after (.directive (.syncUpdate 2 (updateAl [al1, al2])))
  have hcoherent₂ := coherent_after hinv₁ hcoherent₁
    (.directive (.syncUpdate 2 (updateAl [al1, al2])))
  rw [after_extending] at hextended
  exact edge_after_get hextended (after_extending ▸ hcoherent₂) request

/-- Both requests are answered, before and after the second update. -/
theorem exists_two_answers :
    ∃ events, let pool := (node.startPool versionOps).exec events
      pool.handler 1 = .ret (some (answerAl [al1])) ∧
      pool.handler 3 = .ret (some (answerAl [al1, al2])) ∧
      pool.store.edge.committed = [update, updateAl [al1, al2]] := by
  -- the update
  have hhandler : (node.startPool versionOps).handler 0 =
      (NodeOp.directive (.syncUpdate 1 update) : NodeOp server).handler := rfl
  obtain ⟨first, hstore, -, hothers⟩ := Pool.exec_alone hhandler (congrArg Prod.fst alone_update)
  generalize hpool : (node.startPool versionOps).exec first = pool at hstore hothers
  have hsynced : pool.store = synced :=
    hstore.trans (Node.after_eq alone_update : node.after _ = synced)
  -- the first request
  have hwaits : pool.handler 1 = (NodeOp.get request).handler := hothers 1 (by decide)
  have hrequest : ((NodeOp.get request).handler.alone noInputs pool.store).1 =
      some (.ok (some (answerAl [al1]))) := by
    rw [hsynced]
    exact alone_request rfl rfl
  obtain ⟨second, hstore₁, hanswer, hothers₁⟩ := Pool.exec_alone hwaits hrequest
  generalize hpool₁ : pool.exec second = pool₁ at hstore₁ hanswer hothers₁
  have hwarm : pool₁.store = warm := by
    rw [hstore₁, hsynced, warm, Run.exec_cons, Run.exec_cons, Run.exec_nil, after_update]
    rfl
  -- the second update
  have hwaits₁ : pool₁.handler 2 =
      (NodeOp.directive (.syncUpdate 2 (updateAl [al1, al2])) : NodeOp server).handler :=
    (hothers₁ 2 (by decide)).trans (hothers 2 (by decide))
  obtain ⟨third, hstore₂, -, hothers₂⟩ := Pool.exec_alone hwaits₁
    (hwarm ▸ congrArg Prod.fst alone_extending)
  generalize hpool₂ : pool₁.exec third = pool₂ at hstore₂ hothers₂
  have hextended : pool₂.store = extended := by
    rw [hstore₂, hwarm]
    exact after_extending
  -- the second request
  have hwaits₂ : pool₂.handler 3 = (NodeOp.get request).handler :=
    (hothers₂ 3 (by decide)).trans ((hothers₁ 3 (by decide)).trans (hothers 3 (by decide)))
  have hrequest₂ : ((NodeOp.get request).handler.alone noInputs pool₂.store).1 =
      some (.ok (some (answerAl [al1, al2]))) := by
    rw [hextended]
    exact alone_requestAl validLog_al2 rfl rfl (TtlCache.get_invalidate ..)
  obtain ⟨fourth, hstore₃, hanswer₂, hothers₃⟩ := Pool.exec_alone hwaits₂ hrequest₂
  have hexec : (node.startPool versionOps).exec (first ++ second ++ third ++ fourth) =
      pool₂.exec fourth := by
    rw [Pool.exec, Run.exec_append, Run.exec_append, Run.exec_append]
    exact congrArg (Pool.exec · fourth)
      ((congrArg (fun m => (Pool.exec (Pool.exec m second) third)) hpool).trans
        ((congrArg (Pool.exec · third) hpool₁).trans hpool₂))
  refine ⟨first ++ second ++ third ++ fourth, ?_⟩
  rw [hexec]
  refine ⟨?_, hanswer₂, ?_⟩
  · rw [hothers₃ 1 (by decide), hothers₂ 1 (by decide)]
    exact hanswer
  · rw [hstore₃, hextended]
    exact congrArg EdgeRun.committed edge_extended

/-- The guarantee for the answers before and after the second update. -/
theorem served_logs_never_fork_versions :
    ∃ events, let pool := (node.startPool versionOps).exec events
      pool.handler 1 = .ret (some (answerAl [al1])) ∧
      pool.handler 3 = .ret (some (answerAl [al1, al2])) ∧
      answerAl [al1] ≠ answerAl [al1, al2] ∧
      ∃ shown shown', ShowsFirst server.libs (logOf [al1]) (logOf [al1]) shown ∧
        ShowsFirst server.libs (logOf [al1, al2]) (logOf [al1, al2]) shown' ∧
        (shown <+: shown' ∨ shown' <+: shown) := by
  obtain ⟨events, hanswer, hanswer', hcommitted⟩ := exists_two_answers
  have hshows : ∀ committed, Shows server committed "al" (logOf [al1]) (logOf [al1]) :=
    fun _ => Or.inr ⟨none, nofun, servableDidLog_valid validLog_al1⟩
  have hshows' : ∀ committed, Shows server committed "al" (logOf [al1, al2])
      (logOf [al1, al2]) :=
    fun _ => Or.inr ⟨none, nofun, servableDidLog_valid validLog_al2⟩
  obtain ⟨-, -, hall⟩ := served_logs_never_fork server ∅ ∅ ∅ none 60 0 versionOps events 1 3
    request request (answerAl [al1]) (answerAl [al1, al2]) "al" "al" rfl rfl slot_request
    slot_request hanswer hanswer'
  refine ⟨events, hanswer, hanswer',
    fun h => logOf_al2_ne (congrArg PublicAnswer.body h), ?_⟩
  have hmem : update ∈ ((node.startPool versionOps).exec events).store.edge.committed := by
    rw [hcommitted]
    exact List.mem_cons_self
  have hmem' : updateAl [al1, al2] ∈
      ((node.startPool versionOps).exec events).store.edge.committed := by
    rw [hcommitted]
    exact List.mem_cons_of_mem _ List.mem_cons_self
  exact hall update hmem (updateAl [al1, al2]) hmem' (hshows _) (hshows' _)
    (syncedMethod_updateOf validLog_al1) (syncedMethod_updateOf validLog_al2) "s" scid_didAl
    scid_didAl

end Sample

end DidHosting
