import Mathlib.Algebra.GroupWithZero.Nat
import DidHosting.Common.Method

/-!
# did:webvh logs

The checks and readers of `did.jsonl` content that the control plane and the
edges share: structural validation, chain and witness verification, the
append-only comparison of two logs, the binding of an identifier to a slot, and
what is read out of the latest entry.

Two texts count as the same log when their trimmed, non-blank lines agree
(`logEntries`); that is the comparison `verifyLogExtends` makes.
-/

namespace DidHosting

open Text

/-! ## Messages -/

/-- `map_err(|e| format!("{text}: {e}"))`. -/
def mapErr {α : Type} (text : String) : Except String α → Except String α
  | .ok a => .ok a
  | .error e => .error s!"{text}: {e}"

theorem mapErr_eq_ok {α : Type} {text : String} {x : Except String α} {a : α}
    (h : mapErr text x = .ok a) : x = .ok a := by
  cases x with
  | error e => cases h
  | ok b => exact h

/-- `{:?}` of an optional port. -/
def debugPort : Option ℕ → String
  | some p => s!"Some({p})"
  | none => "None"

/-- `s.trim_matches(c)`. -/
def trimMatches (c : Char) (s : String) : String :=
  trimEndMatches c (String.ofList (s.toList.dropWhile (· == c)))

/-! ## Structure -/

/-- The entry limit of a single log. -/
def maxLogEntries : ℕ := 10000

/-- The number of entries of a log: its non-blank lines. -/
def entryCount (content : String) : ℕ :=
  (nonblankLines content).length

/-- The latest entry of a log: its last non-blank line. -/
def lastEntry (content : String) : Option String :=
  (nonblankLines content).getLast?

/-- The latest entry, parsed. -/
def lastValue (L : Libs) (content : String) : Option Json :=
  match lastEntry content with
  | none => none
  | some line => (L.fromStr line).toOption

/-- `extract_did_id`: the `state.id` of the latest entry, when it is a
did:webvh identifier. -/
def extractDidId (L : Libs) (content : String) : Option String :=
  match lastValue L content with
  | none => none
  | some value =>
      match ((value.get "state").bind (Json.get "id")).bind Json.asStr with
      | some id => if startsWith "did:webvh:" id then some id else none
      | none => none

/-- The parse loop of `validate_did_jsonl`, from line number `idx` on. -/
def validateLines (L : Libs) (idx : ℕ) : List String → Except String Unit
  | [] => .ok ()
  | line :: rest =>
      if isBlank line then validateLines L (idx + 1) rest
      else
        match L.deserializeString (trim line) none with
        | .error e => .error s!"invalid log entry at line {idx + 1}: {e}"
        | .ok _ => validateLines L (idx + 1) rest

def validateDidJsonl (L : Libs) (content : String) : Except String Unit :=
  if content = "" then .error "did.jsonl content cannot be empty"
  else if entryCount content = 0 then .error "did.jsonl content has no entries"
  else if maxLogEntries < entryCount content then
    .error s!"did.jsonl has too many log entries (limit {maxLogEntries})"
  else do
    validateLines L 0 (lines content)
    match extractDidId L content with
    | some id =>
        if startsWith "did:webvh:" id then .ok ()
        else .error s!"did.jsonl latest entry must encode a did:webvh identifier (got {id})"
    | none => .error "did.jsonl latest entry has no resolvable state.id"

/-! ## Chain and witness proofs -/

/-- `LogEntryState` after verification. -/
structure LogEntryState (L : Libs) where
  logEntry : L.LogEntry
  versionNumber : ℕ
  validatedParameters : L.Parameters

/-- The parse loop shared by the verifiers: each entry is read under the
version its predecessor declares. -/
def parseEntries (L : Libs) (idx : ℕ) (version : Option L.Version) :
    List String → Except String (List (L.LogEntry × ℕ))
  | [] => .ok []
  | line :: rest =>
      if isBlank line then parseEntries L (idx + 1) version rest
      else
        match L.deserializeString (trim line) version with
        | .error e => .error s!"invalid log entry at line {idx + 1}: {e}"
        | .ok entry =>
            match L.versionNumber entry with
            | .error e => .error s!"invalid versionId at line {idx + 1}: {e}"
            | .ok n => do
                let entries ←
                  parseEntries L (idx + 1) (some (L.webvhVersion entry)) rest
                return (entry, n) :: entries

/-- The verification loop: each entry after the one before it. -/
def verifyChain (L : Libs) (previous : Option (L.LogEntry × L.Parameters)) :
    List (L.LogEntry × ℕ) → Except String (List (LogEntryState L))
  | [] => .ok []
  | (entry, n) :: rest =>
      match L.verifyLogEntry entry previous with
      | .error e =>
          .error s!"proof verification failed: entry {L.versionId entry} does not verify: {e}"
      | .ok params => do
          let states ← verifyChain L (some (entry, params)) rest
          return ⟨entry, n, params⟩ :: states

def parseAndVerifyChain (L : Libs) (content : String) :
    Except String (List (LogEntryState L)) := do
  validateDidJsonl L content
  let entries ← parseEntries L 0 none (lines content)
  verifyChain L none entries

/-- The entry configures an active witness. -/
def witnessedHere (L : Libs) (e : LogEntryState L) : Bool :=
  (L.activeWitnesses e.validatedParameters).isSome

/-- The threshold loop of `verify_did_log_for_publish`. -/
def checkThresholds (L : Libs) (proofs : L.WitnessProofs) (highest : ℕ) :
    List (LogEntryState L) → Except String Unit
  | [] => .ok ()
  | e :: rest =>
      match L.validateLogEntry proofs e.logEntry e.validatedParameters highest with
      | .error err => .error s!"proof verification failed: {err}"
      | .ok () => checkThresholds L proofs highest rest

/-- `witness_content.filter(|w| !w.trim().is_empty())`. -/
def presentWitness (witness : Option String) : Option String :=
  witness.filter fun w => !isBlank w

/-- The witness proofs a publish is checked against. -/
def publishProofs (L : Libs) (witness : Option String) :
    Except String L.WitnessProofs :=
  match presentWitness witness with
  | some raw => mapErr "invalid witness proofs" (L.parseWitnessProofs raw)
  | none => .ok L.noProofs

/-- `verify_did_log_for_publish`: the whole chain, and the witness threshold
of the entries that were published before. -/
def verifyDidLogForPublish (L : Libs) (content : String)
    (witness : Option String) (previouslyPublished : ℕ) : Except String Unit := do
  let states ← parseAndVerifyChain L content
  let published := states.take previouslyPublished
  match published.getLast? with
  | none => .ok ()
  | some last =>
      if published.any (witnessedHere L) then do
        let proofs ← publishProofs L witness
        let proofs ← mapErr "invalid witness proofs"
          (L.generateProofState proofs last.versionNumber)
        checkThresholds L proofs last.versionNumber published
      else
        .ok ()

/-- The witness proofs supplied with a log, parsed. -/
def suppliedProofs (L : Libs) (witness : Option String) :
    Except String (Option L.WitnessProofs) :=
  match presentWitness witness with
  | some raw => mapErr "invalid witness proofs" ((L.parseWitnessProofs raw).map some)
  | none => .ok none

/-- `verify_did_log_chain`: whether the current parameters configure
witnesses. -/
def verifyDidLogChain (L : Libs) (content : String) (witness : Option String) :
    Except String Bool := do
  validateDidJsonl L content
  let entries ← parseEntries L 0 none (lines content)
  let proofs ← suppliedProofs L witness
  let report ← mapErr "proof verification failed"
    (L.validate (entries.map Prod.fst) proofs)
  mapErr "proof verification failed (chain incomplete)" report.2
  return match report.1.getLast?.bind L.witnessThreshold with
    | some t => decide (0 < t)
    | none => false

def verifyDidLogAndWitnessProofs (L : Libs) (content : String)
    (witness : Option String) : Except String Unit := do
  let witnessed ← verifyDidLogChain L content witness
  if witnessed && (presentWitness witness).isNone then
    .error "the DID log configures witnesses but no witness proofs were supplied; refusing to serve it unwitnessed"
  else
    .ok ()

def verifyWitnessProofForVersion (L : Libs) (content versionId : String)
    (proof : Json) : Except String Unit := do
  let verificationMethod ← mapErr "invalid witness proof shape"
    (L.proofVerificationMethod proof)
  let states ← parseAndVerifyChain L content
  match states.find? fun e => L.versionId e.logEntry == versionId with
  | none =>
      .error s!"witness proof names versionId {versionId.quote}, which is not in this DID's published log"
  | some entry =>
      match L.activeWitnesses entry.validatedParameters with
      | none =>
          .error s!"versionId {versionId.quote} does not configure an active witness"
      | some witnesses =>
          if !witnesses.contains verificationMethod then
            .error s!"witness proof's verificationMethod ({verificationMethod}) does not name a witness configured for versionId {versionId.quote}"
          else
            mapErr "witness proof failed verification"
              (L.validateWitnessProof entry.logEntry proof)

/-! ## Append-only history -/

/-- The entries `verify_log_extends` compares: trimmed, non-blank lines. -/
def logEntries (log : String) : List String :=
  trimmedLines log

/-- The entry sets `parameters.deactivated`. -/
def entryDeactivates (L : Libs) (line : String) : Bool :=
  match L.fromStr line with
  | .ok v =>
      (((v.get "parameters").bind (Json.get "deactivated")).bind Json.asBool).getD
        false
  | .error _ => false

/-- Some entry of the log deactivates the DID. -/
def logDeactivated (L : Libs) (log : String) : Bool :=
  (logEntries log).any (entryDeactivates L)

def verifyLogExtends (L : Libs) (previous : Option String) (next : String) :
    Except String Unit :=
  match previous with
  | none => .ok ()
  | some previous =>
      let old := logEntries previous
      let new := logEntries next
      if new.length < old.length || new.take old.length != old then
        .error s!"did.jsonl is not an extension of the hosted log ({old.length} entries held, {new.length} received, or the shared history differs); refusing a rollback or fork"
      else if logDeactivated L previous && new.length != old.length then
        .error "the hosted DID is deactivated; refusing entries appended after deactivation"
      else
        .ok ()

/-- What `verifyLogExtends` accepts: the held entries are a prefix of the new
ones, and a deactivated log only by itself. -/
theorem verifyLogExtends_eq_ok_iff {L : Libs} {previous next : String} :
    verifyLogExtends L (some previous) next = .ok () ↔
      logEntries previous <+: logEntries next ∧
        (logDeactivated L previous = true →
          logEntries next = logEntries previous) := by
  have hpre : (¬ ((logEntries next).length < (logEntries previous).length ∨
      (logEntries next).take (logEntries previous).length ≠ logEntries previous)) ↔
      logEntries previous <+: logEntries next := by
    rw [List.prefix_iff_eq_take]
    constructor
    · intro h
      push Not at h
      exact h.2.symm
    · rintro h (hlt | hne)
      · have := congrArg List.length h
        rw [List.length_take] at this
        omega
      · exact hne h.symm
  unfold verifyLogExtends
  simp only
  split
  · rename_i hbad
    have hbad' : ¬ logEntries previous <+: logEntries next := by
      rw [← hpre, not_not]
      simpa using hbad
    simp [hbad']
  · rename_i hgood
    have hgood' : logEntries previous <+: logEntries next := by
      rw [← hpre]
      simpa using hgood
    have hlen : (logEntries next).length = (logEntries previous).length ↔
        logEntries next = logEntries previous := by
      constructor
      · intro h
        exact (hgood'.eq_of_length h.symm).symm
      · intro h
        rw [h]
    split
    · rename_i hdead
      simp only [Bool.and_eq_true, bne_iff_ne, ne_eq, hlen] at hdead
      simp [hdead]
    · rename_i hlive
      simp only [Bool.and_eq_true, bne_iff_ne, ne_eq, hlen, not_and, not_not] at hlive
      simpa [hgood'] using hlive

/-- `next` is an acceptable successor of `previous`: it extends its entries,
and equals them when the DID was deactivated. -/
def LogSucceeds (L : Libs) (previous next : String) : Prop :=
  logEntries previous <+: logEntries next ∧
    (logDeactivated L previous = true → logEntries next = logEntries previous)

namespace LogSucceeds

variable {L : Libs}

theorem trans {a b c : String} (hab : LogSucceeds L a b) (hbc : LogSucceeds L b c) :
    LogSucceeds L a c := by
  refine ⟨hab.1.trans hbc.1, ?_⟩
  intro hdead
  have hb := hab.2 hdead
  have hdead' : logDeactivated L b = true := by
    unfold logDeactivated at hdead ⊢
    rwa [hb]
  rw [hbc.2 hdead', hb]

/-- A chain stays a chain when a successor of its last element is appended. -/
theorem pairwise_append_singleton {logs : List String} {next : String}
    (hchain : logs.Pairwise (LogSucceeds L))
    (hlast : ∀ last, logs.getLast? = some last → LogSucceeds L last next) :
    (logs ++ [next]).Pairwise (LogSucceeds L) := by
  rw [List.pairwise_append]
  refine ⟨hchain, List.pairwise_singleton _ _, ?_⟩
  intro a ha b hb
  rw [List.mem_singleton.mp hb]
  rcases List.eq_nil_or_concat logs with rfl | ⟨init, last, rfl⟩
  · simp at ha
  · rw [List.concat_eq_append] at *
    have hsucc : LogSucceeds L last next := hlast last (by simp)
    rcases List.mem_append.mp ha with ha | ha
    · exact ((List.pairwise_append.mp hchain).2.2 a ha last (by simp)).trans hsucc
    · rw [List.mem_singleton.mp ha]
      exact hsucc

end LogSucceeds

/-! ## Binding to a slot -/

def validateDidIdMatchesRequest (L : Libs) (didId requestPath serverBaseUrl : String) :
    Except String Unit :=
  match L.parseDidUrl didId with
  | .error e =>
      .error s!"did_log's DID identifier {didId} is not a valid did:webvh: {e}"
  | .ok idParsed =>
      let base := trimEndMatches '/' serverBaseUrl
      let expectedStr := s!"{base}/{requestPath}/did.jsonl"
      match L.urlParse expectedStr with
      | .error e =>
          .error s!"internal: server_base_url {serverBaseUrl} cannot form a valid URL when combined with the requested path: {e}"
      | .ok expectedUrl =>
          match L.parseUrl expectedUrl with
          | .error e =>
              .error s!"internal: the URL this server would publish at ({expectedStr}) cannot be expressed as a webvh URL: {e}"
          | .ok expected =>
              if idParsed.domain != expected.domain || idParsed.port != expected.port then
                .error s!"did_log's DID host (domain={idParsed.domain}, port={debugPort idParsed.port}) does not match this server's host (domain={expected.domain}, port={debugPort expected.port})"
              else if idParsed.path != expected.path then
                let idPath := trimMatches '/' idParsed.path
                let publishPath := trimMatches '/' expected.path
                .error s!"did_log's DID path '{idPath}' does not resolve at the requested path '{requestPath}' on this server (server would publish at '{publishPath}')"
              else
                .ok ()

/-! ## What the latest entry says -/

def isImplicitWebvhService (serviceId : String) : Bool :=
  endsWith "#whois" serviceId || endsWith "#files" serviceId

/-- Add a value that is not there yet. -/
def pushNew (out : List String) (t : String) : List String :=
  if out.contains t then out else out ++ [t]

/-- The types one service entry declares. -/
def serviceTypes (svc : Json) : List String :=
  if isImplicitWebvhService (((svc.get "id").bind Json.asStr).getD "") then []
  else
    match svc.get "type" with
    | some (.str t) => [t]
    | some (.arr types) => types.filterMap Json.asStr
    | _ => []

def serviceTypesFromDoc (doc : Json) : List String :=
  match (doc.get "service").bind Json.asArray with
  | none => []
  | some services =>
      ((services.flatMap serviceTypes).filter (· ≠ "")).foldl pushNew []

def extractServiceTypes (L : Libs) (content : String) : Option (List String) :=
  match lastValue L content with
  | none => none
  | some value => (value.get "state").map serviceTypesFromDoc

/-- The local name an `alsoKnownAs` entry claims on `domain`. -/
def claimedName (L : Libs) (domain : String) (entry : Json) : Option String :=
  match entry.asStr with
  | none => none
  | some text =>
      match L.agentNameParse text with
      | .error _ => none
      | .ok parsed =>
          if parsed.authority = domain then some parsed.localName else none

def agentNamesFromDocument (L : Libs) (document : Json) (domain : String) :
    List String :=
  match (document.get "alsoKnownAs").bind Json.asArray with
  | none => []
  | some entries => (entries.filterMap (claimedName L domain)).foldl pushNew []

def extractAgentNames (L : Libs) (content domain : String) : List String :=
  match (lastValue L content).bind (Json.get "state") with
  | none => []
  | some state => agentNamesFromDocument L state domain

theorem nodup_foldl_pushNew (xs : List String) :
    ∀ out : List String, out.Nodup → (xs.foldl pushNew out).Nodup := by
  induction xs with
  | nil =>
      intro out hout
      exact hout
  | cons x xs ih =>
      intro out hout
      apply ih
      unfold pushNew
      split
      · exact hout
      · rename_i hx
        have hx' : x ∉ out := by simpa using hx
        rw [List.nodup_append]
        refine ⟨hout, List.pairwise_singleton _ x, ?_⟩
        intro a ha b hb
        rw [List.mem_singleton.mp hb]
        exact fun e => hx' (e ▸ ha)

theorem nodup_agentNamesFromDocument (L : Libs) (document : Json) (domain : String) :
    (agentNamesFromDocument L document domain).Nodup := by
  unfold agentNamesFromDocument
  split
  · exact List.nodup_nil
  · exact nodup_foldl_pushNew _ [] List.nodup_nil

/-! ## Metadata -/

structure LogMetadata where
  logEntryCount : ℕ := 0
  latestVersionId : Option String := none
  latestVersionTime : Option String := none
  method : Option String := none
  portable : Bool := false
  preRotation : Bool := false
  deactivated : Bool := false
  ttl : Option ℕ := none
  witnesses : Bool := false
  witnessCount : ℕ := 0
  witnessThreshold : ℕ := 0
  watchers : Bool := false
  watcherCount : ℕ := 0
  watcherUrls : List String := []
deriving DecidableEq, Repr

def asU32 (n : ℕ) : ℕ := n % 2 ^ 32

/-- The witness fields of `extract_log_metadata`. -/
def witnessMetadata (params : Json) (md : LogMetadata) : LogMetadata :=
  match params.get "witness" with
  | none => md
  | some witness =>
      let threshold := asU32 (((witness.get "threshold").bind Json.asU64).getD 0)
      let count := asU32
        ((((witness.get "witnesses").bind Json.asArray).map List.length).getD 0)
      if 0 < count then
        { md with witnesses := true, witnessCount := count, witnessThreshold := threshold }
      else md

/-- The watcher fields of `extract_log_metadata`. -/
def watcherMetadata (params : Json) (md : LogMetadata) : LogMetadata :=
  match (params.get "watchers").bind Json.asArray with
  | none => md
  | some [] => md
  | some arr =>
      { md with
        watchers := true
        watcherCount := asU32 arr.length
        watcherUrls := arr.filterMap Json.asStr }

/-- The fields `extract_log_metadata` reads from `parameters`. -/
def parametersMetadata (params : Json) (md : LogMetadata) : LogMetadata :=
  watcherMetadata params <| witnessMetadata params
    { md with
      method := (params.get "method").bind Json.asStr
      portable := ((params.get "portable").bind Json.asBool).getD false
      preRotation :=
        (((params.get "nextKeyHashes").bind Json.asArray).map
          fun a => !a.isEmpty).getD false
      deactivated := ((params.get "deactivated").bind Json.asBool).getD false
      ttl := ((params.get "ttl").bind Json.asU64).map asU32 }

def extractLogMetadata (L : Libs) (content : String) : LogMetadata :=
  let md : LogMetadata := { logEntryCount := (lines content).length }
  match (lines content).getLast?.bind fun line => (L.fromStr line).toOption with
  | none => md
  | some entry =>
      let md :=
        { md with
          latestVersionId := (entry.get "versionId").bind Json.asStr
          latestVersionTime := (entry.get "versionTime").bind Json.asStr }
      match entry.get "parameters" with
      | none => md
      | some params => parametersMetadata params md

structure LogEntryInfo where
  versionId : Option String
  versionTime : Option String
  state : Option Json
  parameters : Option Json
deriving Repr

/-- One entry of `parse_log_entries`. -/
def logEntryInfo (value : Json) : LogEntryInfo where
  versionId := (value.get "versionId").bind Json.asStr
  versionTime := (value.get "versionTime").bind Json.asStr
  state := value.get "state"
  parameters := value.get "parameters"

/-- `parse_log_entries`: the lines that parse. -/
def parseLogEntries (L : Libs) (content : String) : List LogEntryInfo :=
  (nonblankLines content).filterMap fun line => ((L.fromStr line).toOption).map logEntryInfo

end DidHosting
