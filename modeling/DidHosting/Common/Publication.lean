import DidHosting.Common.DidLog

/-!
# Publications

Verification of a submitted payload by the method it belongs to, and the facts
the write path takes from it.
-/

namespace DidHosting

open Text

structure Publication where
  method : Method
  didId : Option String
  document : Option Json
  content : String

namespace Publication

def services (p : Publication) : Option (List String) :=
  p.document.map serviceTypesFromDoc

/-- `Publication::agent_names`. -/
def agentNames (L : Libs) (p : Publication) (domain : String) : List String :=
  match p.document with
  | none => []
  | some doc => agentNamesFromDocument L doc domain

theorem nodup_agentNames (L : Libs) (p : Publication) (domain : String) :
    (p.agentNames L domain).Nodup := by
  unfold agentNames
  split
  · exact List.nodup_nil
  · exact nodup_agentNamesFromDocument L _ domain

end Publication

def verifyWebvh (L : Libs) (content : String) (existing existingWitness : Option String) :
    Except MethodError Publication :=
  let previouslyPublished := (existing.map entryCount).getD 0
  match verifyDidLogForPublish L content existingWitness previouslyPublished with
  | .error e => .error (.validation e)
  | .ok () =>
      .ok
        { method := .webvh
          didId := extractDidId L content
          document := (lastValue L content).bind (Json.get "state")
          content := content }

def webValidate (L : Libs) (data : String) : Except MethodError Unit :=
  match L.fromStr data with
  | .error e => .error (.validation s!"did.json is not valid JSON: {e}")
  | .ok v =>
      match (v.get "id").bind Json.asStr with
      | none => .error (.validation "did.json missing `id` field")
      | some id =>
          if !startsWith "did:web:" id then
            .error (.validation s!"did.json `id` is not a did:web identifier: '{id}'")
          else
            (parseWebIdentifier id).map fun _ => ()

def verifyWeb (L : Libs) (content : String) : Except MethodError Publication := do
  webValidate L content
  match L.fromStr content with
  | .error e => .error (.validation s!"did.json is not valid JSON: {e}")
  | .ok document =>
      .ok
        { method := .web
          didId := (document.get "id").bind Json.asStr
          document := some document
          content := content }

/-- `Webs::verify_continuation`. -/
def verifyContinuation (L : Libs) (did existing newData : String) :
    Except MethodError Unit :=
  match L.didWebsParse did with
  | .error e => .error (.malformed s!"{did}: {e}")
  | .ok parsed =>
      if !(L.kelsParse existing).isOk then .ok ()
      else
        match L.kelsKeyState existing parsed.aid with
        | .error _ => .ok ()
        | .ok old =>
            match L.kelsParse newData with
            | .error e => .error (.validation s!"keri.cesr could not be read: {e}")
            | .ok _ =>
                match L.kelsKeyState newData parsed.aid with
                | .error e =>
                    .error (.validation s!"key event log did not verify: {e}")
                | .ok new =>
                    if new.pre ≠ old.pre then
                      .error (.validation
                        s!"update establishes {new.pre} but the hosted log is for {old.pre}")
                    else if new.sn < old.sn then
                      .error (.validation
                        s!"update rewinds the key event log: hosted is at sequence {old.sn}, update is at {new.sn}")
                    else
                      .ok ()

/-- `Webs::verify_artifacts` without a submitted document. -/
def verifyArtifacts (L : Libs) (did keriCesr : String) : Except MethodError String :=
  match L.didWebsParse did with
  | .error e => .error (.malformed s!"{did}: {e}")
  | .ok parsed =>
      match L.resolveFromArtifacts parsed keriCesr with
      | .error e => .error (.validation s!"{did}: {e}")
      | .ok document => .ok document

/-- The identifier a did:webs slot publishes. -/
def websDidId (domain mnemonic : String) : String :=
  "did:webs:" ++ replaceChar ':' "%3A" domain ++ ":" ++ replaceChar '/' ":" mnemonic

/-- The continuity check of `verify_webs` against the stored stream. -/
def checkContinuation (L : Libs) (didId : String) (existing : Option String)
    (content : String) : Except MethodError Unit :=
  match existing.filter (· ≠ "") with
  | some old => verifyContinuation L didId old content
  | none => .ok ()

def verifyWebs (L : Libs) (domain mnemonic content : String) (existing : Option String) :
    Except MethodError Publication :=
  if domain = "" then
    .error (.validation "did:webs requires a hosting domain: the key event log establishes an AID, not a DID, so the domain cannot be recovered from the content")
  else do
    let didId := websDidId domain mnemonic
    checkContinuation L didId existing content
    let derived ← verifyArtifacts L didId content
    match L.fromStr derived with
    | .error e => .error (.validation s!"derived document is not valid JSON: {e}")
    | .ok document =>
        .ok
          { method := .webs
            didId := some didId
            document := some document
            content := content }

def verifyPublication (L : Libs) (domain mnemonic content : String)
    (existing existingWitness : Option String) : Except MethodError Publication :=
  match detectMethod L content with
  | none =>
      .error (.malformed "content matches no DID method enabled on this deployment — expected a did:webvh log, a did:web document, or a did:webs keri.cesr stream")
  | some .webvh => verifyWebvh L content existing existingWitness
  | some .web => verifyWeb L content
  | some .webs => verifyWebs L domain mnemonic content existing

/-- The current document of stored content, wherever its method keeps it: the
latest entry of a did:webvh log, the content itself for did:web, and the
derivation from the key event log for did:webs. -/
def currentDocument (L : Libs) (method : Method) (didId : Option String)
    (content : String) : Option Json :=
  match method with
  | .webvh => (lastValue L content).bind (Json.get "state")
  | .web => (L.fromStr content).toOption
  | .webs =>
      match didId with
      | none => none
      | some did =>
          match verifyArtifacts L did content with
          | .error _ => none
          | .ok derived => (L.fromStr derived).toOption

/-! ## What an accepted publication is -/

section

variable {L : Libs} {domain mnemonic content : String}
  {existing existingWitness : Option String} {p : Publication}

theorem verifyWebvh_spec (h : verifyWebvh L content existing existingWitness = .ok p) :
    verifyDidLogForPublish L content existingWitness
        ((existing.map entryCount).getD 0) = .ok () ∧
      p = { method := .webvh
            didId := extractDidId L content
            document := (lastValue L content).bind (Json.get "state")
            content := content } := by
  unfold verifyWebvh at h
  simp only at h
  split at h
  · contradiction
  · rename_i hok
    exact ⟨hok, (Except.ok.inj h).symm⟩

theorem verifyWeb_spec (h : verifyWeb L content = .ok p) :
    p.method = .web ∧ ∃ document, L.fromStr content = .ok document ∧
      p.document = some document ∧
      p.didId = (document.get "id").bind Json.asStr := by
  unfold verifyWeb at h
  cases hv : webValidate L content with
  | error e => simp [hv, bind, Except.bind] at h
  | ok u =>
      simp only [hv, bind, Except.bind] at h
      split at h
      · contradiction
      · rename_i document hdoc
        cases h
        exact ⟨rfl, document, hdoc, rfl, rfl⟩

theorem verifyWebs_spec (h : verifyWebs L domain mnemonic content existing = .ok p) :
    p.method = .webs ∧ p.didId = some (websDidId domain mnemonic) ∧ domain ≠ "" ∧
      p.document = currentDocument L .webs p.didId content := by
  unfold verifyWebs at h
  split at h
  · contradiction
  · rename_i hdomain
    cases hc : checkContinuation L (websDidId domain mnemonic) existing content with
    | error e => simp [hc, bind, Except.bind] at h
    | ok u =>
        cases ha : verifyArtifacts L (websDidId domain mnemonic) content with
        | error e => simp [hc, ha, bind, Except.bind] at h
        | ok derived =>
            simp only [hc, ha, bind, Except.bind] at h
            split at h
            · contradiction
            · rename_i document hdoc
              cases h
              refine ⟨rfl, rfl, hdomain, ?_⟩
              simp only [currentDocument, ha, hdoc]
              rfl

/-- An accepted key event log derives a document. -/
theorem verifyWebs_isSome (h : verifyWebs L domain mnemonic content existing = .ok p) :
    p.document.isSome := by
  unfold verifyWebs at h
  split at h
  · contradiction
  · obtain ⟨u, -, h⟩ := bind_eq_ok h
    obtain ⟨derived, -, h⟩ := bind_eq_ok h
    split at h
    · contradiction
    · cases h
      rfl

/-- The verifier that accepted a payload is the one its shape selects. -/
theorem verifyPublication_method
    (h : verifyPublication L domain mnemonic content existing existingWitness = .ok p) :
    detectMethod L content = some p.method := by
  unfold verifyPublication at h
  split at h
  · contradiction
  · rename_i hm
    rw [hm, (verifyWebvh_spec h).2]
  · rename_i hm
    rw [hm, (verifyWeb_spec h).1]
  · rename_i hm
    rw [hm, (verifyWebs_spec h).1]

/-- An accepted did:webvh publication is a verified log, and its identifier and
document are read from the latest entry. -/
theorem verifyPublication_webvh
    (h : verifyPublication L domain mnemonic content existing existingWitness = .ok p)
    (hm : p.method = .webvh) :
    verifyDidLogForPublish L content existingWitness
        ((existing.map entryCount).getD 0) = .ok () ∧
      p.didId = extractDidId L content ∧
      p.document = (lastValue L content).bind (Json.get "state") := by
  have hdet := verifyPublication_method h
  rw [hm] at hdet
  unfold verifyPublication at h
  rw [hdet] at h
  obtain ⟨hok, rfl⟩ := verifyWebvh_spec h
  exact ⟨hok, rfl, rfl⟩

theorem verifyPublication_document
    (h : verifyPublication L domain mnemonic content existing existingWitness = .ok p) :
    p.document = currentDocument L p.method p.didId content := by
  unfold verifyPublication at h
  split at h
  · contradiction
  · rw [(verifyWebvh_spec h).2]
    rfl
  · obtain ⟨hmethod, document, hdoc, hp, -⟩ := verifyWeb_spec h
    rw [hmethod, hp]
    simp only [currentDocument, hdoc]
    rfl
  · obtain ⟨hmethod, -, -, hp⟩ := verifyWebs_spec h
    rw [hmethod, hp]

end

end DidHosting
