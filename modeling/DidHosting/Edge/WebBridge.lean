import DidHosting.Edge.Resolve

/-!
# The did:web bridge and the did:webvh route

The did:webvh route cuts a log at its first entry that verifies in the chain without
being witnessed, and serves no slot without a record.  The did:web bridge does neither:
it serves the document of the last line of the stored log.  The two agree on the slots
that have a record and a log that is not cut, and on those whose log is cut behind the
same document.
-/

namespace DidHosting

open Text

/-! ## Where a log is cut -/

section Cut

variable {L : ServeLibs} {text : String} {witness : Option String}
  {states : List (LogEntryState L.toLibs)}

/-- The entries behind `states` are not served: the first of them verifies in the chain
without being witnessed. -/
structure CutBehind (L : ServeLibs) (text : String) (witness : Option String)
    (states : List (LogEntryState L.toLibs)) : Prop where
  valid : validateDidJsonl L.toLibs text = .ok ()
  cut : ∃ entries last, parseEntries L.toLibs 0 none (lines text) = .ok entries ∧
    entries.getLast? = some last ∧
    ServableBeginning L (storedProofs L witness last.2) last.2 none entries states ∧
    UnwitnessedAfter L (storedProofs L witness last.2) last.2 none entries states

theorem servableDidLog_of_cut (h : CutBehind L text witness states) :
    servableDidLog L text witness =
      if states = [] then none else some (writeEntries L (states.map fun e => e.logEntry)) := by
  obtain ⟨entries, last, hparse, hlast, hbeginning, hunwitnessed⟩ := h.cut
  obtain ⟨last', states', hlast', hlongest, hserved⟩ :=
    servableDidLog_cases witness h.valid hparse
  cases hlast.symm.trans hlast'
  have hmine : LongestServable L (storedProofs L witness last.2) last.2 entries states :=
    ⟨hbeginning, fun other hother => hbeginning.length_le hother (Or.inr (Or.inr hunwitnessed))⟩
  obtain rfl := hlongest.unique hmine
  have hgoes : ¬BreaksAfter L none entries states' := not_breaksAfter (Or.inr hunwitnessed)
  have hshort : states'.length ≠ entries.length := by
    obtain ⟨e, rest, params, hentries, -⟩ := hunwitnessed
    rw [hentries, List.length_append, List.length_map, List.length_cons]
    omega
  obtain ⟨hbreaks, -⟩ | ⟨-, hcut⟩ := hserved
  · exact absurd hbreaks hgoes
  · rw [hcut, if_neg hshort]
    simp only [List.length_eq_zero_iff]

theorem servableDidLog_of_not_cut (h : ∀ states, ¬CutBehind L text witness states) :
    servableDidLog L text witness = some text := by
  cases hvalid : validateDidJsonl L.toLibs text with
  | error e =>
      unfold servableDidLog
      rw [hvalid]
  | ok u =>
      cases hparse : parseEntries L.toLibs 0 none (lines text) with
      | error e =>
          unfold servableDidLog
          rw [hvalid]
          dsimp only
          rw [hparse]
      | ok entries =>
          obtain ⟨last, -, hlast, -⟩ := servableDidLog_cases (L := L) witness hvalid hparse
          obtain ⟨states, hbeginning, hend⟩ :=
            servableCount_spec (L := L) (storedProofs L witness last.2) last.2 none entries
          rw [servableDidLog_of_parsed witness hvalid hparse hlast]
          obtain ⟨hcount, -⟩ | ⟨hcount, hall | hunwitnessed⟩ := hend
          · rw [hcount]
          · rw [hcount, hall, List.length_map]
            exact if_pos rfl
          · exact absurd ⟨hvalid, entries, last, hparse, hlast, hbeginning, hunwitnessed⟩ (h states)

end Cut

/-! ## What the routes serve -/

section Bridge

variable {R : ResolveState} {domains : Table String DomainEntry} {mnemonic : String}
  {requestHost : Option String} {rows : SlotRows}

/-- The rows of a slot give a did:web document: the checks on the record pass, and the last
line of the log lists the slot's did:web identifier. -/
structure HasWebDocument (R : ResolveState) (domains : Table String DomainEntry)
    (mnemonic : String) (requestHost : Option String) (rows : SlotRows)
    (text didWeb document : String) : Prop where
  checked : checkBridged R domains mnemonic requestHost rows.record = .ok ()
  log : ∃ bytes, rows.log = some bytes ∧ String.fromUTF8? bytes = some text
  did : buildDidWebId R.libs.toLibs R.publicBaseUrl mnemonic = .ok didWeb
  document : extractDidWebDocument R.libs.toLibs text didWeb = some document

theorem serveDidWeb_ok_iff {answer : Resolved} :
    serveDidWeb R domains mnemonic requestHost rows = .ok answer ↔
      ∃ text didWeb document,
        HasWebDocument R domains mnemonic requestHost rows text didWeb document ∧
          answer = webResponse document := by
  constructor
  · intro h
    unfold serveDidWeb at h
    cases hchecked : checkBridged R domains mnemonic requestHost rows.record with
    | error e =>
        rw [hchecked] at h
        cases h
    | ok u =>
        rw [hchecked] at h
        cases hlog : rows.log with
        | none =>
            simp only [hlog] at h
            cases h
        | some bytes =>
            cases htext : String.fromUTF8? bytes with
            | none =>
                simp only [hlog, logText, htext] at h
                cases h
            | some text =>
                cases hdid : buildDidWebId R.libs.toLibs R.publicBaseUrl mnemonic with
                | error e =>
                    simp only [hlog, logText, htext, hdid] at h
                    cases h
                | ok didWeb =>
                    cases hdocument : extractDidWebDocument R.libs.toLibs text didWeb with
                    | none =>
                        simp only [hlog, logText, htext, hdid, bind, Except.bind, hdocument] at h
                        cases h
                    | some document =>
                        simp only [hlog, logText, htext, hdid, bind, Except.bind, hdocument] at h
                        cases h
                        exact ⟨text, didWeb, document,
                          ⟨hchecked, ⟨bytes, hlog, htext⟩, hdid, hdocument⟩, rfl⟩
  · rintro ⟨text, didWeb, document, h, rfl⟩
    obtain ⟨bytes, hlog, htext⟩ := h.log
    unfold serveDidWeb
    rw [h.checked]
    simp only [hlog, logText, htext, h.did, h.document, bind, Except.bind]

/-- What the did:webvh route serves of a slot whose record passes the checks. -/
theorem didJsonl_of_cached {record : DidRecord} {cached : ByteArray}
    (hrecord : rows.record = some record)
    (hchecked : checkServed R domains mnemonic requestHost record = .ok ()) :
    didJsonl R domains mnemonic requestHost rows (some cached) =
      .ok (contentResponse .jsonl true cached none) := by
  unfold didJsonl serveContent
  simp only [hrecord, hchecked]

theorem didJsonl_of_stored {record : DidRecord} {bytes : ByteArray} {text : String}
    (hrecord : rows.record = some record)
    (hchecked : checkServed R domains mnemonic requestHost record = .ok ())
    (hlog : rows.log = some bytes) (htext : String.fromUTF8? bytes = some text) :
    didJsonl R domains mnemonic requestHost rows none =
      match servableDidLog R.libs text (rows.witness.map R.fromUtf8Lossy) with
      | none => .error (contentNotFound mnemonic)
      | some served =>
          .ok (contentResponse .jsonl true served.toUTF8 (some served.toUTF8)) := by
  unfold didJsonl serveContent storedContent
  simp only [hrecord, hchecked, hlog, logText, htext]
  cases servableDidLog R.libs text (rows.witness.map R.fromUtf8Lossy) with
  | none => rfl
  | some served => rfl

theorem didJsonl_of_no_record {cached : Option ByteArray} (hrecord : rows.record = none) :
    didJsonl R domains mnemonic requestHost rows cached = .error (contentNotFound mnemonic) := by
  unfold didJsonl serveContent
  rw [hrecord]

/-! ## Where the two agree -/

/-- What the bridge serves is the did:web document of the last line of what the did:webvh
route serves; it serves nothing where that route serves nothing. -/
def BridgeFaithful (R : ResolveState) (domains : Table String DomainEntry) (mnemonic : String)
    (requestHost : Option String) (rows : SlotRows) (cached : Option ByteArray) : Prop :=
  ∀ answer, serveDidWeb R domains mnemonic requestHost rows = .ok answer →
    ∃ served log didWeb document,
      didJsonl R domains mnemonic requestHost rows cached = .ok served ∧
        served.body = log.toUTF8 ∧
        buildDidWebId R.libs.toLibs R.publicBaseUrl mnemonic = .ok didWeb ∧
        extractDidWebDocument R.libs.toLibs log didWeb = some document ∧
        answer.body = document.toUTF8

/-- The log with the did:web document is served with it: a cached log has the same
document, and so has what stands before the place where the log is cut. -/
def KeepsDocument (R : ResolveState) (rows : SlotRows) (text didWeb document : String) :
    Option ByteArray → Prop
  | some cached => ∃ log, cached = log.toUTF8 ∧
      extractDidWebDocument R.libs.toLibs log didWeb = some document
  | none => ∀ states, CutBehind R.libs text (rows.witness.map R.fromUtf8Lossy) states →
      states ≠ [] ∧ extractDidWebDocument R.libs.toLibs
        (writeEntries R.libs (states.map fun e => e.logEntry)) didWeb = some document

theorem document_of_body {a b : String} (h : (webResponse a).body = b.toUTF8) : a = b :=
  String.toByteArray_inj.mp h

section Faithful

variable {cached : Option ByteArray} {text didWeb document : String}

/-- Where the two agree, the document is the one at the end of what is served. -/
theorem BridgeFaithful.keepsDocument
    (h : BridgeFaithful R domains mnemonic requestHost rows cached)
    (hweb : HasWebDocument R domains mnemonic requestHost rows text didWeb document) :
    rows.record.isSome ∧ KeepsDocument R rows text didWeb document cached := by
  obtain ⟨served, log, didWeb', document', hserved, hbody, hdid, hlog, hsame⟩ :=
    h _ (serveDidWeb_ok_iff.mpr ⟨text, didWeb, document, hweb, rfl⟩)
  cases hdid.symm.trans hweb.did
  obtain rfl := document_of_body hsame
  cases hrecord : rows.record with
  | none =>
      rw [didJsonl_of_no_record hrecord] at hserved
      cases hserved
  | some record =>
      refine ⟨rfl, ?_⟩
      have hchecked := hweb.checked
      rw [hrecord] at hchecked
      cases cached with
      | some bytes =>
          rw [didJsonl_of_cached hrecord hchecked] at hserved
          cases hserved
          exact ⟨log, hbody, hlog⟩
      | none =>
          obtain ⟨bytes, hbytes, htext⟩ := hweb.log
          rw [didJsonl_of_stored hrecord hchecked hbytes htext] at hserved
          intro states hcut
          rw [servableDidLog_of_cut hcut] at hserved
          by_cases hnil : states = []
          · rw [if_pos hnil] at hserved
            cases hserved
          · rw [if_neg hnil] at hserved
            cases hserved
            obtain rfl := String.toByteArray_inj.mp hbody
            exact ⟨hnil, hlog⟩

theorem KeepsDocument.served
    (hweb : HasWebDocument R domains mnemonic requestHost rows text didWeb document)
    (hrecord : rows.record.isSome) (h : KeepsDocument R rows text didWeb document cached) :
    ∃ served log, didJsonl R domains mnemonic requestHost rows cached = .ok served ∧
      served.body = log.toUTF8 ∧
      extractDidWebDocument R.libs.toLibs log didWeb = some document := by
  obtain ⟨record, hrecord⟩ := Option.isSome_iff_exists.mp hrecord
  have hchecked := hweb.checked
  rw [hrecord] at hchecked
  cases cached with
  | some bytes =>
      obtain ⟨log, rfl, hlog⟩ := h
      exact ⟨_, log, didJsonl_of_cached hrecord hchecked, rfl, hlog⟩
  | none =>
      obtain ⟨bytes, hbytes, htext⟩ := hweb.log
      have hserved := didJsonl_of_stored hrecord hchecked hbytes htext
      by_cases hcut : ∃ states, CutBehind R.libs text (rows.witness.map R.fromUtf8Lossy) states
      · obtain ⟨states, hcut⟩ := hcut
        obtain ⟨hnil, hlog⟩ := h states hcut
        rw [servableDidLog_of_cut hcut, if_neg hnil] at hserved
        exact ⟨_, _, hserved, rfl, hlog⟩
      · rw [servableDidLog_of_not_cut (not_exists.mp hcut)] at hserved
        exact ⟨_, _, hserved, rfl, hweb.document⟩

end Faithful

/-- The bridge exposes what the did:webvh route exposes exactly on the slots with a did:web
document that have a record and keep this document where the log is cut. -/
theorem bridge_faithful_iff (R : ResolveState) (domains : Table String DomainEntry)
    (mnemonic : String) (requestHost : Option String) (rows : SlotRows)
    (cached : Option ByteArray) :
    BridgeFaithful R domains mnemonic requestHost rows cached ↔
      ∀ text didWeb document,
        HasWebDocument R domains mnemonic requestHost rows text didWeb document →
          rows.record.isSome ∧ KeepsDocument R rows text didWeb document cached := by
  constructor
  · intro h text didWeb document hweb
    exact h.keepsDocument hweb
  · intro h answer hanswer
    obtain ⟨text, didWeb, document, hweb, rfl⟩ := serveDidWeb_ok_iff.mp hanswer
    obtain ⟨hrecord, hkeeps⟩ := h text didWeb document hweb
    obtain ⟨served, log, hserved, hbody, hlog⟩ := hkeeps.served hweb hrecord
    exact ⟨served, log, didWeb, document, hserved, hbody, hweb.did, hlog, rfl⟩

end Bridge

/-! ## A document that the log does not show -/

namespace BridgeSample

open Reference ServableSample

/-- A server for the sample DID. -/
abbrev server : ResolveState where
  libs := witnessLibs
  fromUtf8Lossy bytes := (String.fromUTF8? bytes).getD ""
  utf8Error _ := "invalid utf-8 sequence"
  publicUrl := some "https://h.io"
  serverHost := "0.0.0.0"
  serverPort := 8530

/-- The second version of the sample DID lists its did:web form. -/
def aliased2 : Json := entry "2-b" didAl [webAl]

def record : DidRecord where
  owner := "did:key:o"
  mnemonic := "al"
  createdAt := 1
  updatedAt := 2
  versionCount := 2
  didId := some didAl
  contentSize := 100
  disabled := false
  deletedAt := none
  method := .webvh
  domain := "h.io"
  services := none
  agentNames := []

/-- The rows of the slot with the log `text`, of which the first version is witnessed. -/
def rowsWith (text : String) : SlotRows where
  record := some record
  log := some text.toUTF8
  witness := some "1-a".toUTF8

/-- The rows with a second version that no witness has proved. -/
def rows : SlotRows :=
  rowsWith (logOf [al1, aliased2])

theorem fromUTF8?_bytesOf (s : String) : String.fromUTF8? s.toUTF8 = some s := by
  unfold String.fromUTF8?
  exact dif_pos s.isValidUTF8

set_option maxRecDepth 2000 in
theorem wellFormed_aliased2 : WellFormed aliased2 := by
  have hlines : ('\n' ∉ printValue aliased2 ∧ '\r' ∉ printValue aliased2) ∧
      trimChars (printValue aliased2) = printValue aliased2 := by
    decide +kernel
  exact ⟨hlines.1, hlines.2, rfl⟩

theorem validLog : ValidLog [al1, aliased2] didAl (document didAl [webAl]) where
  wellFormed := by simpa using ⟨wellFormed_al1, wellFormed_aliased2⟩
  short := by decide
  chain := rfl
  last := rfl
  did_eq := rfl
  webvh := webvh_dids.1

theorem witness_eq (text : String) :
    (rowsWith text).witness.map server.fromUtf8Lossy = witness := by
  change some ((String.fromUTF8? "1-a".toUTF8).getD "") = some "1-a"
  rw [fromUTF8?_bytesOf]
  rfl

/-- The log is cut behind its first version. -/
theorem cut : CutBehind witnessLibs (logOf [al1, aliased2]) witness [⟨al1, 1, .obj []⟩] := by
  have hlines : trimmedLines (logOf [al1, aliased2]) = [print al1, print aliased2] :=
    logEntries_logOf validLog.wellFormed
  have hnumber : versionNumber aliased2 = .ok 2 := by decide +kernel
  have hunproved : checkEntry ["1-a"] aliased2 = .error "witness threshold not met" := by
    decide +kernel
  refine ⟨?_, [(al1, 1), (aliased2, 2)], (aliased2, 2), ?_, rfl, ?_, ?_⟩
  · rw [validateDidJsonl_eq]
    exact validLog.validateDidJsonl_eq
  · rw [parseEntries_iff_readsAs, hlines]
    exact ⟨deserializeString_print wellFormed_al1 none, numbers.1,
      deserializeString_print wellFormed_aliased2 (some ()), hnumber, trivial⟩
  · refine ⟨⟨links.1, trivial⟩, ?_, ⟨[(aliased2, 2)], rfl⟩⟩
    rw [List.forall_mem_singleton, storedProofs_eq]
    exact (isWitnessed_eq 1 2 (.obj [])).1
  · refine ⟨(aliased2, 2), [], .obj [], rfl, rfl, ?_⟩
    rw [storedProofs_eq]
    change (checkEntry ["1-a"] aliased2).isOk = false
    rw [hunproved]
    rfl

theorem servableDidLog_eq :
    servableDidLog witnessLibs (logOf [al1, aliased2]) witness = some (logOf [al1]) := by
  rw [servableDidLog_of_cut cut, if_neg (List.cons_ne_nil _ _), List.map_singleton,
    writeEntries_eq]

theorem didJsonl_rowsWith {text served : String}
    (h : servableDidLog witnessLibs text witness = some served) :
    didJsonl server ∅ "al" none (rowsWith text) none =
      .ok (contentResponse .jsonl true served.toUTF8 (some served.toUTF8)) := by
  have hstored := @didJsonl_of_stored server ∅ "al" none (rowsWith text) _ _ text rfl rfl rfl
    (fromUTF8?_bytesOf text)
  rw [witness_eq, h] at hstored
  exact hstored

theorem extract_logOf {es : List Json} (hes : ∀ e ∈ es, WellFormed e) (didWeb : String) :
    extractDidWebDocument libs (logOf es) didWeb =
      es.getLast?.bind fun e => webDocument libs e didWeb := by
  unfold extractDidWebDocument
  rw [lines_logOf hes, List.getLast?_map]
  cases hlast : es.getLast? with
  | none => rfl
  | some e =>
      have hparse : libs.fromStr (print e) = .ok e :=
        (hes e (List.mem_of_getLast? hlast)).parse_print
      rw [Option.map_some, Option.bind_some, Option.bind_some, hparse]
      rfl

/-- What the bridge makes of an entry that lists `names`. -/
theorem webDocument_entry (version : String) (names : List String) :
    webDocument libs (entry version didAl names) webAl =
      if (names.map Json.str).any (fun v => v.asStr == some webAl) then
        some (replaceText didAl webAl (print (document didAl names)))
      else none := by
  change (if !startsWith "did:webvh:" didAl then none else
    if (names.map Json.str).any (fun v => v.asStr == some webAl) then
      some (replaceText didAl webAl (print (document didAl names))) else none) = _
  rw [webvh_dids.1]
  rfl

theorem extract_logOf_al1 : extractDidWebDocument libs (logOf [al1]) webAl = none := by
  have hwellFormed : ∀ e ∈ [al1], WellFormed e := by simpa using wellFormed_al1
  rw [extract_logOf hwellFormed, List.getLast?_singleton, Option.bind_some, al1,
    webDocument_entry]
  rfl

theorem extract_logOf_aliased2 :
    extractDidWebDocument libs (logOf [al1, aliased2]) webAl =
      some (replaceText didAl webAl (print (document didAl [webAl]))) := by
  have hlisted : ([webAl].map Json.str).any (fun v => v.asStr == some webAl) = true := by
    simp [Json.asStr]
  rw [extract_logOf validLog.wellFormed]
  change webDocument libs (entry "2-b" didAl [webAl]) webAl = _
  rw [webDocument_entry, if_pos hlisted]

theorem extractDidWebDocument_eq (text didWeb : String) :
    extractDidWebDocument witnessLibs.toLibs text didWeb = extractDidWebDocument libs text didWeb :=
  rfl

theorem buildDidWebId_eq (serverUrl mnemonic : String) :
    buildDidWebId witnessLibs.toLibs serverUrl mnemonic = buildDidWebId libs serverUrl mnemonic :=
  rfl

theorem buildDidWebId_al : buildDidWebId libs "https://h.io" "al" = .ok webAl := by
  decide +kernel

theorem hasWebDocument :
    HasWebDocument server ∅ "al" none rows (logOf [al1, aliased2]) webAl
      (replaceText didAl webAl (print (document didAl [webAl]))) where
  checked := rfl
  log := ⟨_, rfl, fromUTF8?_bytesOf _⟩
  did := (buildDidWebId_eq "https://h.io" "al").trans buildDidWebId_al
  document := (extractDidWebDocument_eq _ _).trans extract_logOf_aliased2

end BridgeSample

open BridgeSample ServableSample Reference in
/-- The did:webvh route serves the first version, and the bridge the document of the
second. -/
theorem unwitnessed_document_exposed :
    didJsonl server ∅ "al" none rows none =
        .ok (contentResponse .jsonl true (logOf [al1]).toUTF8 (some (logOf [al1]).toUTF8)) ∧
      (serveDidWeb server ∅ "al" none rows).isOk = true ∧
      ¬BridgeFaithful server ∅ "al" none rows none := by
  refine ⟨?_, ?_, ?_⟩
  · exact didJsonl_rowsWith servableDidLog_eq
  · rw [serveDidWeb_ok_iff.mpr ⟨_, _, _, hasWebDocument, rfl⟩]
    rfl
  · intro h
    obtain ⟨-, hkeeps⟩ := h.keepsDocument hasWebDocument
    rw [rows, KeepsDocument, witness_eq] at hkeeps
    obtain ⟨-, hdocument⟩ := hkeeps _ cut
    rw [List.map_singleton, writeEntries_eq, extractDidWebDocument_eq, extract_logOf_al1]
      at hdocument
    cases hdocument

end DidHosting
