import DidHosting.Common.Publication
import DidHosting.Common.Mnemonic

/-!
# A reference instance of the libraries

A small implementation of the third-party interface of `Common.Libs`: compact
JSON without escapes, did:webvh identifiers and `https` URLs, and a chain
verifier that accepts entries numbered 1, 2, 3, … without witnesses.  It
computes what the real libraries compute on such input, and serves to run the
services on concrete stores.

Printing and parsing work on lists of characters, which evaluate fast, and
strings appear only at the leaves.
-/

namespace DidHosting.Reference

open Text

/-! ## JSON -/

mutual

/-- The compact text of a value. -/
def printValue : Json → List Char
  | .null => ['n', 'u', 'l', 'l']
  | .bool true => ['t', 'r', 'u', 'e']
  | .bool false => ['f', 'a', 'l', 's', 'e']
  | .num (.posInt n) => (Nat.repr n).toList
  | .num (.negInt n) => '-' :: (Nat.repr n).toList
  | .num (.float text) => text.toList
  | .str s => '\"' :: s.toList ++ ['\"']
  | .arr items => '[' :: printItems items
  | .obj members => '\x7b' :: printMembers members

/-- The rest of an array after its bracket. -/
def printItems : List Json → List Char
  | [] => [']']
  | [v] => printValue v ++ [']']
  | v :: rest => printValue v ++ ',' :: printItems rest

def printMember : String × Json → List Char
  | (k, v) => '\"' :: k.toList ++ '\"' :: ':' :: printValue v

/-- The rest of an object after its brace. -/
def printMembers : List (String × Json) → List Char
  | [] => ['\x7d']
  | [m] => printMember m ++ ['\x7d']
  | m :: rest => printMember m ++ ',' :: printMembers rest

end

/-- `serde_json::to_string`. -/
def print (v : Json) : String :=
  String.ofList (printValue v)

/-- A string body up to its closing quote, and what follows the quote. -/
def stringBody : List Char → Option (List Char × List Char)
  | [] => none
  | '\"' :: rest => some ([], rest)
  | c :: rest => (stringBody rest).map fun r => (c :: r.1, r.2)

/-- The value of a sequence of digits. -/
def digitsValue (ds : List Char) : ℕ :=
  ds.foldl (fun n d => 10 * n + (d.toNat - 48)) 0

mutual

/-- Read a value; `fuel` bounds the nesting. -/
def parseValue (fuel : ℕ) : List Char → Option (Json × List Char)
  | '\"' :: rest => (stringBody rest).map fun r => (.str (String.ofList r.1), r.2)
  | 'n' :: 'u' :: 'l' :: 'l' :: rest => some (.null, rest)
  | 't' :: 'r' :: 'u' :: 'e' :: rest => some (.bool true, rest)
  | 'f' :: 'a' :: 'l' :: 's' :: 'e' :: rest => some (.bool false, rest)
  | '[' :: ']' :: rest => some (.arr [], rest)
  | '[' :: rest =>
      match fuel with
      | 0 => none
      | fuel + 1 => (parseItems fuel rest).map fun r => (.arr r.1, r.2)
  | '\x7b' :: '\x7d' :: rest => some (.obj [], rest)
  | '\x7b' :: rest =>
      match fuel with
      | 0 => none
      | fuel + 1 => (parseMembers fuel rest).map fun r => (.obj r.1, r.2)
  | cs =>
      match cs.takeWhile Char.isDigit with
      | [] => none
      | ds => some (.num (.posInt (digitsValue ds)), cs.drop ds.length)

/-- Read the items of an array up to its closing bracket. -/
def parseItems (fuel : ℕ) (cs : List Char) : Option (List Json × List Char) :=
  match fuel with
  | 0 => none
  | fuel + 1 =>
      match parseValue fuel cs with
      | some (v, ']' :: rest) => some ([v], rest)
      | some (v, ',' :: rest) => (parseItems fuel rest).map fun r => (v :: r.1, r.2)
      | _ => none

/-- Read the members of an object up to its closing brace. -/
def parseMembers (fuel : ℕ) (cs : List Char) : Option (List (String × Json) × List Char) :=
  match fuel, cs with
  | fuel + 1, '\"' :: cs =>
      match stringBody cs with
      | some (k, ':' :: cs) =>
          match parseValue fuel cs with
          | some (v, '\x7d' :: rest) => some ([(String.ofList k, v)], rest)
          | some (v, ',' :: rest) =>
              (parseMembers fuel rest).map fun r => ((String.ofList k, v) :: r.1, r.2)
          | _ => none
      | _ => none
  | _, _ => none

end

/-- `serde_json::from_str`. -/
def parse (text : String) : Except String Json :=
  match parseValue text.toList.length text.toList with
  | some (v, []) => .ok v
  | _ => .error "expected value"

/-! ## Log entries -/

/-- The number in front of a `versionId`. -/
def versionNumber (entry : Json) : Except String ℕ :=
  match (entry.get "versionId").bind Json.asStr with
  | some v => .ok (digitsValue (v.toList.takeWhile Char.isDigit))
  | none => .error "missing versionId"

/-- The number the entry after `previous` has to carry. -/
def nextNumber : Option (Json × Json) → Except String ℕ
  | some (p, _) => (versionNumber p).map (· + 1)
  | none => .ok 1

/-- Verify an entry after the one before it: the version numbers count up. -/
def verifyLogEntry (entry : Json) (previous : Option (Json × Json)) : Except String Json := do
  let number ← versionNumber entry
  let expected ← nextNumber previous
  if number = expected then .ok ((entry.get "parameters").getD .null)
  else .error "versionId out of sequence"

/-- Verify entries in order, with the parameters of each. -/
def validateFrom (previous : Option (Json × Json)) : List Json → Except String (List Json)
  | [] => .ok []
  | entry :: rest => do
      let params ← verifyLogEntry entry previous
      let others ← validateFrom (some (entry, params)) rest
      return params :: others

/-! ## Identifiers and URLs -/

/-- The host and the port of an authority whose port follows `sep`. -/
def hostPort (sep : Char) (skip : ℕ) (authority : String) : String × Option ℕ :=
  match splitOnce sep authority with
  | some (host, port) => (host, some (digitsValue (port.toList.drop skip)))
  | none => (authority, none)

/-- `WebVHURL::parse_did_url`. -/
def parseDidUrl (did : String) : Except String WebVHURL :=
  match split ':' did with
  | "did" :: "webvh" :: _ :: authority :: segments =>
      let host := hostPort '%' 2 authority
      let path := if segments = [] then ".well-known" else "/".intercalate segments
      .ok ⟨host.1, host.2, "/" ++ path ++ "/"⟩
  | _ => .error "not a did:webvh identifier"

/-- `url::Url::parse` for `https` URLs. -/
def urlParse (text : String) : Except String Url :=
  match stripPrefix "https://" text with
  | some rest =>
      let host := hostPort ':' 0 (before '/' rest)
      .ok ⟨some host.1, host.2, text⟩
  | none => .error "relative URL without a base"

/-- `WebVHURL::parse_url`. -/
def parseUrl (u : Url) : Except String WebVHURL :=
  match (stripPrefix "https://" u.text).bind (rsplitOnce '/') with
  | some (rest, _) =>
      .ok ⟨u.hostStr.getD "", u.port,
        String.ofList (rest.toList.dropWhile (· ≠ '/')) ++ "/"⟩
  | none => .error "not an https URL"

/-- `AgentName::parse` of `https://{authority}/@{name}`. -/
def agentNameParse (text : String) : Except String AgentName :=
  match (stripPrefix "https://" text).bind (splitOnce '/') with
  | some (authority, rest) =>
      match stripPrefix "@" rest with
      | some name => .ok ⟨authority, name, authority ++ "/@" ++ name⟩
      | none => .error "not an agent name"
  | none => .error "not an agent name"

/-- The reference libraries, without the did:webs feature. -/
abbrev libs : Libs where
  methodWebs := false
  fromStr := parse
  toJsonString := print
  LogEntry := Json
  Version := Unit
  Parameters := Json
  WitnessProofs := Unit
  deserializeString text _ := parse text
  webvhVersion _ := ()
  versionNumber := versionNumber
  versionId entry := ((entry.get "versionId").bind Json.asStr).getD ""
  verifyLogEntry := verifyLogEntry
  activeWitnesses _ := none
  witnessThreshold _ := none
  parseWitnessProofs _ := .error "no witness proofs"
  noProofs := ()
  generateProofState _ _ := .ok ()
  validateLogEntry _ _ _ _ := .ok ()
  validate entries _ := (validateFrom none entries).map fun params => (params, .ok ())
  proofVerificationMethod _ := .error "not a proof"
  validateWitnessProof _ _ := .error "not a proof"
  parseDidUrl := parseDidUrl
  urlParse := urlParse
  parseUrl := parseUrl
  hostParse text := .ok (.domain text)
  agentNameParse := agentNameParse
  looksLikeAgentName text := (agentNameParse text).isOk
  didWebsParse _ := .error "did:webs is not compiled in"
  kelsParse _ := .error "did:webs is not compiled in"
  kelsKeyState _ _ := .error "did:webs is not compiled in"
  resolveFromArtifacts _ _ := .error "did:webs is not compiled in"

/-! ## Sample logs -/

/-- A DID document that claims the names `names`. -/
def document (did : String) (names : List String) : Json :=
  .obj [("id", .str did), ("alsoKnownAs", .arr (names.map .str))]

/-- A log entry: its version, the DID it establishes and the names its document
claims. -/
def entry (version did : String) (names : List String) : Json :=
  .obj [("versionId", .str version), ("parameters", .obj []), ("state", document did names)]

/-- The log of the given entries. -/
def logOf (entries : List Json) : String :=
  joinLines (entries.map print)

/-- The text of an entry is one trimmed line, and it is read back. -/
structure WellFormed (e : Json) : Prop where
  one_line : '\n' ∉ printValue e ∧ '\r' ∉ printValue e
  trimmed : trimChars (printValue e) = printValue e
  parses : parseValue (printValue e).length (printValue e) = some (e, [])

namespace WellFormed

variable {e : Json} (h : WellFormed e)
include h

theorem parse_print : parse (print e) = .ok e := by
  unfold parse print
  rw [String.toList_ofList, h.parses]

theorem trim_print : trim (print e) = print e := by
  unfold trim print
  rw [String.toList_ofList, h.trimmed]

theorem isBlank_print : isBlank (print e) = false := by
  unfold isBlank
  rw [h.trim_print, print, String.toList_ofList]
  cases hp : printValue e with
  | nil =>
      have hparses := h.parses
      rw [hp] at hparses
      simp [parseValue] at hparses
  | cons c cs => rfl

end WellFormed

section Logs

variable {es : List Json} (hes : ∀ e ∈ es, WellFormed e)
include hes

theorem lines_logOf : lines (logOf es) = es.map print := by
  refine lines_joinLines ?_
  intro l hl
  obtain ⟨e, he, rfl⟩ := List.mem_map.mp hl
  refine ⟨?_, ?_, ne_nil_of_not_isBlank (hes e he).isBlank_print⟩
  · rw [print, String.toList_ofList]
    exact (hes e he).one_line.1
  · rw [print, String.toList_ofList]
    exact (hes e he).one_line.2

theorem nonblankLines_logOf : nonblankLines (logOf es) = es.map print := by
  unfold nonblankLines
  rw [lines_logOf hes]
  apply List.filter_eq_self.mpr
  intro l hl
  obtain ⟨e, he, rfl⟩ := List.mem_map.mp hl
  simp [(hes e he).isBlank_print]

theorem logEntries_logOf : logEntries (logOf es) = es.map print := by
  rw [logEntries, trimmedLines_eq_map, nonblankLines_logOf hes, List.map_map]
  apply List.map_congr_left
  intro e he
  exact (hes e he).trim_print

theorem entryCount_logOf : entryCount (logOf es) = es.length := by
  rw [entryCount, nonblankLines_logOf hes, List.length_map]

theorem lastValue_logOf : lastValue libs (logOf es) = es.getLast? := by
  unfold lastValue lastEntry
  rw [nonblankLines_logOf hes, List.getLast?_map]
  cases hlast : es.getLast? with
  | none => rfl
  | some e =>
      have hparse := (hes e (List.mem_of_getLast? hlast)).parse_print
      simp only [Option.map_some]
      change (parse (print e)).toOption = some e
      rw [hparse]
      rfl

end Logs

/-! ## Accepted logs -/

/-- A log the reference libraries verify: its latest document is `state`, whose
identifier is `did`. -/
structure ValidLog (es : List Json) (did : String) (state : Json) : Prop where
  wellFormed : ∀ e ∈ es, WellFormed e
  short : es.length ≤ maxLogEntries
  chain : (validateFrom none es).isOk = true
  last : es.getLast?.bind (Json.get "state") = some state
  did_eq : (state.get "id").bind Json.asStr = some did
  webvh : startsWith "did:webvh:" did = true

theorem validateFrom_cons {previous : Option (Json × Json)} {e : Json} {es : List Json}
    (h : (validateFrom previous (e :: es)).isOk = true) :
    ∃ n params, versionNumber e = .ok n ∧ verifyLogEntry e previous = .ok params ∧
      (validateFrom (some (e, params)) es).isOk = true := by
  rw [validateFrom] at h
  cases hv : verifyLogEntry e previous with
  | error err => simp [hv, bind, Except.bind, Except.isOk, Except.toBool] at h
  | ok params =>
      cases hrest : validateFrom (some (e, params)) es with
      | error err => simp [hv, hrest, bind, Except.bind, Except.isOk, Except.toBool] at h
      | ok others =>
          cases hn : versionNumber e with
          | error err => simp [verifyLogEntry, hn, bind, Except.bind] at hv
          | ok n => exact ⟨n, params, rfl, rfl, by rw [hrest]; rfl⟩

theorem parseEntries_map_print {es : List Json} (hes : ∀ e ∈ es, WellFormed e) :
    ∀ (idx : ℕ) (version : Option libs.Version)
      (previous : Option (libs.LogEntry × libs.Parameters)),
      (validateFrom previous es).isOk = true →
      ∃ pairs states, parseEntries libs idx version (es.map print) = .ok pairs ∧
        pairs.map Prod.fst = es ∧ verifyChain libs previous pairs = .ok states := by
  induction es with
  | nil => exact fun _ _ _ _ => ⟨[], [], rfl, rfl, rfl⟩
  | cons e es ih =>
      intro idx version previous hchain
      obtain ⟨n, params, hn, hv, hrest⟩ := validateFrom_cons hchain
      have hwf := hes e List.mem_cons_self
      obtain ⟨pairs, states, hpairs, hfst, hstates⟩ :=
        ih (fun x hx => hes x (List.mem_cons_of_mem _ hx)) (idx + 1) (some ())
          (some (e, params)) hrest
      have hde : libs.deserializeString (print e) version = .ok e := hwf.parse_print
      refine ⟨(e, n) :: pairs, ⟨e, n, params⟩ :: states, ?_, ?_, ?_⟩
      · rw [List.map_cons, parseEntries, hwf.isBlank_print, hwf.trim_print, hde]
        simp only [Bool.false_eq_true, if_false, hn]
        change (parseEntries libs (idx + 1) (some ()) (es.map print) >>= _) = _
        rw [hpairs]
        rfl
      · exact congrArg (e :: ·) hfst
      · rw [verifyChain]
        simp only [hv]
        change (verifyChain libs (some (e, params)) pairs >>= _) = _
        rw [hstates]
        rfl

theorem validateLines_map_print {es : List Json} (hes : ∀ e ∈ es, WellFormed e) (idx : ℕ) :
    validateLines libs idx (es.map print) = .ok () := by
  induction es generalizing idx with
  | nil => rfl
  | cons e es ih =>
      have hwf := hes e List.mem_cons_self
      have hde : libs.deserializeString (print e) none = .ok e := hwf.parse_print
      rw [List.map_cons, validateLines, hwf.isBlank_print, hwf.trim_print, hde]
      exact ih (fun x hx => hes x (List.mem_cons_of_mem _ hx)) (idx + 1)

namespace ValidLog

variable {es : List Json} {did : String} {state : Json} (h : ValidLog es did state)
include h

theorem ne_nil : es ≠ [] := by
  rintro rfl
  have hlast := h.last
  simp at hlast

theorem extractDidId_eq : extractDidId libs (logOf es) = some did := by
  unfold extractDidId
  rw [lastValue_logOf h.wellFormed]
  have hlast := h.last
  cases hget : es.getLast? with
  | none => simp [hget] at hlast
  | some e =>
      have hstate : e.get "state" = some state := by simpa [hget] using hlast
      have hdid : (state.get "id").bind Json.asStr = some did := h.did_eq
      simp only [hstate, Option.bind_some, hdid, h.webvh, if_true]

theorem document_eq :
    (lastValue libs (logOf es)).bind (Json.get "state") = some state := by
  rw [lastValue_logOf h.wellFormed, h.last]

theorem extractAgentNames_eq (domain : String) :
    extractAgentNames libs (logOf es) domain = agentNamesFromDocument libs state domain := by
  unfold extractAgentNames
  rw [h.document_eq]

theorem validateDidJsonl_eq : validateDidJsonl libs (logOf es) = .ok () := by
  have hcount := entryCount_logOf h.wellFormed
  have hpos : 0 < es.length := List.length_pos_iff.mpr h.ne_nil
  have hempty : logOf es ≠ "" := by
    intro heq
    rw [heq] at hcount
    have hzero : entryCount "" = 0 := rfl
    omega
  have hshort := h.short
  unfold validateDidJsonl
  rw [if_neg hempty, if_neg (by omega), if_neg (by omega), lines_logOf h.wellFormed,
    validateLines_map_print h.wellFormed, h.extractDidId_eq]
  simp [h.webvh, bind, Except.bind]

theorem parseAndVerifyChain_ok :
    ∃ states, parseAndVerifyChain libs (logOf es) = .ok states := by
  obtain ⟨pairs, states, hpairs, -, hstates⟩ :=
    parseEntries_map_print h.wellFormed 0 none none h.chain
  refine ⟨states, ?_⟩
  unfold parseAndVerifyChain
  rw [h.validateDidJsonl_eq, lines_logOf h.wellFormed]
  change (parseEntries libs 0 none (es.map print) >>= _) = _
  rw [hpairs]
  exact hstates

/-- Such a log passes the verification of a publish. -/
theorem verifyForPublish (witness : Option String) (k : ℕ) :
    verifyDidLogForPublish libs (logOf es) witness k = .ok () := by
  obtain ⟨states, hstates⟩ := h.parseAndVerifyChain_ok
  unfold verifyDidLogForPublish
  simp only [hstates, bind, Except.bind]
  split
  · rfl
  · have hnone : (states.take k).any (witnessedHere libs) = false := by
      rw [List.any_eq_false]
      intro e he
      exact Bool.false_ne_true
    rw [hnone]
    rfl

/-- Such a log passes the verification of an edge, without witness proofs. -/
theorem verifyForSync : verifyDidLogAndWitnessProofs libs (logOf es) none = .ok () := by
  obtain ⟨pairs, -, hpairs, hfst, -⟩ :=
    parseEntries_map_print h.wellFormed 0 none none h.chain
  obtain ⟨params, hparams⟩ : ∃ params, validateFrom none (pairs.map Prod.fst) = .ok params := by
    have hchain := h.chain
    rw [hfst]
    cases hv : validateFrom none es with
    | error e => simp [hv, Except.isOk, Except.toBool] at hchain
    | ok params => exact ⟨params, rfl⟩
  have hwit : verifyDidLogChain libs (logOf es) none = .ok false := by
    unfold verifyDidLogChain
    rw [h.validateDidJsonl_eq, lines_logOf h.wellFormed]
    change (parseEntries libs 0 none (es.map print) >>= _) = _
    rw [hpairs]
    simp only [suppliedProofs, presentWitness, hparams, bind, Except.bind, mapErr, Except.map,
      Option.filter_none]
    cases params.getLast? <;> rfl
  unfold verifyDidLogAndWitnessProofs
  rw [hwit]
  rfl

/-- Such a log is recognised as a did:webvh log. -/
theorem detectMethod_eq : detectMethod libs (logOf es) = some .webvh := by
  have hlooks : looksLikeWebvh libs (logOf es) = true := by
    unfold looksLikeWebvh
    rw [nonblankLines_logOf h.wellFormed]
    cases hes : es with
    | nil => exact absurd hes h.ne_nil
    | cons e rest =>
        have hmem : e ∈ es := hes ▸ List.mem_cons_self
        have hchain := h.chain
        rw [hes] at hchain
        obtain ⟨n, -, hn, -, -⟩ := validateFrom_cons hchain
        simp only [List.map_cons, List.head?_cons, (h.wellFormed e hmem).parse_print]
        unfold versionNumber at hn
        cases hget : e.get "versionId" with
        | none => simp [hget] at hn
        | some v => rfl
  unfold detectMethod
  rw [hlooks]
  rfl

theorem verifyPublication_eq (domain mnemonic : String) (existing witness : Option String) :
    verifyPublication libs domain mnemonic (logOf es) existing witness =
      .ok ⟨.webvh, some did, some state, logOf es⟩ := by
  unfold verifyPublication verifyWebvh
  rw [h.detectMethod_eq]
  simp only
  rw [h.verifyForPublish, h.extractDidId_eq, h.document_eq]

end ValidLog

theorem agentNames_document (did domain : String) (names : List String) :
    agentNamesFromDocument libs (document did names) domain =
      ((names.map Json.str).filterMap (claimedName libs domain)).foldl pushNew [] :=
  rfl

theorem agentNames_plain (did domain : String) :
    agentNamesFromDocument libs (document did []) domain = [] :=
  agentNames_document did domain []

/-- A log that goes on from another one is accepted as its successor. -/
theorem verifyLogExtends_append {es more : List Json} (hes : ∀ e ∈ es, WellFormed e)
    (hmore : ∀ e ∈ more, WellFormed e)
    (hactive : ∀ e ∈ es, ((e.get "parameters").bind (Json.get "deactivated")).bind Json.asBool =
      none) :
    verifyLogExtends libs (some (logOf es)) (logOf (es ++ more)) = .ok () := by
  have hall : ∀ e ∈ es ++ more, WellFormed e := by
    intro e he
    rcases List.mem_append.mp he with hold | hnew
    · exact hes e hold
    · exact hmore e hnew
  rw [verifyLogExtends_eq_ok_iff, logEntries_logOf hes, logEntries_logOf hall, List.map_append]
  refine ⟨List.prefix_append .., fun hdeactivated => ?_⟩
  unfold logDeactivated at hdeactivated
  rw [logEntries_logOf hes, List.any_eq_true] at hdeactivated
  obtain ⟨line, hline, hset⟩ := hdeactivated
  obtain ⟨e, he, rfl⟩ := List.mem_map.mp hline
  have hparse : libs.fromStr (print e) = .ok e := (hes e he).parse_print
  unfold entryDeactivates at hset
  rw [hparse] at hset
  simp only [hactive e he, Option.getD_none, Bool.false_eq_true] at hset

/-! ## Sample entries -/

/-- A DID hosted at `https://h.io/al`. -/
def didAl : String := "did:webvh:s:h.io:al"

/-- A DID hosted at `https://h.io/bo`, with the SCID of `didAl`. -/
def didBo : String := "did:webvh:s:h.io:bo"

/-- The first version of `didAl`, without names. -/
def al1 : Json := entry "1-a" didAl []

/-- Its second version. -/
def al2 : Json := entry "2-b" didAl []

/-- A first version whose document claims the name `al`. -/
def named1 : Json := entry "1-a" didAl ["https://h.io/@al"]

/-- A second version whose document claims the name `al`. -/
def named2 : Json := entry "2-b" didAl ["https://h.io/@al"]

/-- A first version of `didBo` whose document claims the name `al` as well. -/
def rival1 : Json := entry "1-a" didBo ["https://h.io/@al"]

/-- A second version of the log of slot `al` that moves the DID to slot `bo`. -/
def moved2 : Json := entry "2-b" didBo []

/-- A log of slot `bo` that claims a name of its own. -/
def bo1 : Json := entry "1-a" didBo ["https://h.io/@bo"]

def samples : List Json := [al1, al2, named1, named2, rival1, moved2, bo1]

/-- The entries are written on one line and read back. -/
theorem wellFormed_samples : ∀ e ∈ samples, WellFormed e := by
  have hlines : ∀ e ∈ samples, ('\n' ∉ printValue e ∧ '\r' ∉ printValue e) ∧
      trimChars (printValue e) = printValue e := by
    decide +kernel
  have hparses : ∀ e ∈ samples,
      parseValue (printValue e).length (printValue e) = some (e, []) := by
    simp only [samples, List.forall_mem_cons, List.not_mem_nil]
    exact ⟨rfl, rfl, rfl, rfl, rfl, rfl, rfl, nofun⟩
  exact fun e he => ⟨(hlines e he).1, (hlines e he).2, hparses e he⟩

theorem wellFormed_al1 : WellFormed al1 :=
  wellFormed_samples al1 (by simp [samples])

theorem wellFormed_al2 : WellFormed al2 :=
  wellFormed_samples al2 (by simp [samples])

theorem wellFormed_named1 : WellFormed named1 :=
  wellFormed_samples named1 (by simp [samples])

theorem webvh_dids :
    startsWith "did:webvh:" didAl = true ∧ startsWith "did:webvh:" didBo = true := by
  decide +kernel

/-- The samples make a valid log when they are a chain that ends in the DID's document. -/
theorem validLog_of_samples {es : List Json} {did : String} {state : Json}
    (hes : ∀ e ∈ es, e ∈ samples) (hshort : es.length ≤ maxLogEntries)
    (hchain : (validateFrom none es).isOk = true)
    (hlast : es.getLast?.bind (Json.get "state") = some state)
    (hdid : (state.get "id").bind Json.asStr = some did)
    (hwebvh : startsWith "did:webvh:" did = true) : ValidLog es did state :=
  ⟨fun e he => wellFormed_samples e (hes e he), hshort, hchain, hlast, hdid, hwebvh⟩

/-! ## The DID of slot `al` -/

theorem validLog_al1 : ValidLog [al1] didAl (document didAl []) :=
  validLog_of_samples (by simp [samples]) (by decide) rfl rfl rfl webvh_dids.1

theorem validLog_al2 : ValidLog [al1, al2] didAl (document didAl []) :=
  validLog_of_samples (by simp [samples]) (by decide) rfl rfl rfl webvh_dids.1

theorem validLog_named1 : ValidLog [named1] didAl (document didAl ["https://h.io/@al"]) :=
  validLog_of_samples (by simp [samples]) (by decide) rfl rfl rfl webvh_dids.1

theorem validLog_named2 :
    ValidLog [al1, named2] didAl (document didAl ["https://h.io/@al"]) :=
  validLog_of_samples (by simp [samples]) (by decide) rfl rfl rfl webvh_dids.1

/-- The host of the DID, its address and its path are what a publication needs. -/
theorem request_al : didHostOrEmpty libs didAl = "h.io" ∧
    validateDidIdMatchesRequest libs didAl "al" "https://h.io" = .ok () ∧
    validateMnemonic "al" = .ok () := by
  decide +kernel

theorem host_didAl : didHostOrEmpty libs didAl = "h.io" :=
  request_al.1

theorem bound_didAl : validateDidIdMatchesRequest libs didAl "al" "https://h.io" = .ok () :=
  request_al.2.1

theorem validateMnemonic_al : validateMnemonic "al" = .ok () :=
  request_al.2.2

example : (validateMnemonic "-al").isOk = false := by decide +kernel

/-- The name that the documents of the samples claim. -/
theorem agentNames_al (did : String) :
    agentNamesFromDocument libs (document did ["https://h.io/@al"]) "h.io" = ["al"] := by
  rw [agentNames_document]
  decide +kernel

example : (agentNameParse "https://h.io/al").isOk = false := by decide +kernel

theorem agentNames_named1 :
    agentNamesFromDocument libs (document didAl ["https://h.io/@al"])
      (didHostOrEmpty libs didAl) = ["al"] := by
  rw [host_didAl, agentNames_al]

/-! ## The DID of slot `bo` -/

theorem validLog_rival1 : ValidLog [rival1] didBo (document didBo ["https://h.io/@al"]) :=
  validLog_of_samples (by simp [samples]) (by decide) rfl rfl rfl webvh_dids.2

theorem validLog_moved : ValidLog [al1, moved2] didBo (document didBo []) :=
  validLog_of_samples (by simp [samples]) (by decide) rfl rfl rfl webvh_dids.2

theorem request_bo : didHostOrEmpty libs didBo = "h.io" ∧
    validateDidIdMatchesRequest libs didBo "bo" "https://h.io" = .ok () ∧
    validateMnemonic "bo" = .ok () := by
  decide +kernel

theorem host_didBo : didHostOrEmpty libs didBo = "h.io" :=
  request_bo.1

theorem bound_didBo : validateDidIdMatchesRequest libs didBo "bo" "https://h.io" = .ok () :=
  request_bo.2.1

theorem validateMnemonic_bo : validateMnemonic "bo" = .ok () :=
  request_bo.2.2

theorem agentNames_rival1 :
    agentNamesFromDocument libs (document didBo ["https://h.io/@al"])
      (didHostOrEmpty libs didBo) = ["al"] := by
  rw [host_didBo, agentNames_al]

theorem validLog_bo1 : ValidLog [bo1] didBo (document didBo ["https://h.io/@bo"]) :=
  validLog_of_samples (by simp [samples]) (by decide) rfl rfl rfl webvh_dids.2

theorem claimedName_bo (domain : String) :
    claimedName libs domain (.str "https://h.io/@bo") =
      if "h.io" = domain then some "bo" else none :=
  rfl

/-- The name is claimed on its own domain only. -/
theorem agentNames_bo (domain : String) :
    agentNamesFromDocument libs (document didBo ["https://h.io/@bo"]) domain =
      if "h.io" = domain then ["bo"] else [] := by
  rw [agentNames_document, List.map_cons, List.map_nil, List.filterMap_cons, claimedName_bo]
  by_cases hd : "h.io" = domain
  · rw [if_pos hd, if_pos hd]
    rfl
  · rw [if_neg hd, if_neg hd]
    rfl

theorem agentNames_bo1 :
    agentNamesFromDocument libs (document didBo ["https://h.io/@bo"])
      (didHostOrEmpty libs didBo) = ["bo"] := by
  rw [host_didBo, agentNames_bo, if_pos rfl]

end DidHosting.Reference
