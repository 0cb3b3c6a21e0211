import DidHosting.Support.Text
import DidHosting.Common.Libs

/-!
# DID identifiers and methods

Parsing of `did:{method}:…` identifiers, the host an identifier names, and the
method a published payload belongs to.

An identifier's host is read in one place, `extractDidHost`, and everything
scoped to a domain (agent names, domain safety, purges) goes through it.
-/

namespace DidHosting

open Text

/-! ## Identifiers -/

structure ParsedDid where
  method : Method
  scid : Option String
  domain : String
  path : String
deriving DecidableEq, Repr

/-- The characters of a method name in the DID grammar. -/
def isMethodChar (c : Char) : Bool :=
  c.isLower || c.isDigit

def parseDidMethod (did : String) : Except MethodError String :=
  match stripPrefix "did:" did with
  | none => .error (.malformed did)
  | some afterDid =>
      match splitOnce ':' afterDid with
      | none => .error (.malformed did)
      | some (method, rest) =>
          if method = "" || rest = "" then .error (.malformed did)
          else if !method.toList.all isMethodChar then .error (.malformed did)
          else .ok method

/-- The method a mismatch error reports for `did`. -/
def foundMethod (did : String) : String :=
  match parseDidMethod did with
  | .ok m => m
  | .error _ => "<malformed>"

/-- The non-empty text before the first `:`, and what follows the `:`. -/
def nextLabel (s : String) : Option (String × String) :=
  match splitOnce ':' s with
  | some (label, rest) => if label = "" then none else some (label, rest)
  | none => if s = "" then none else some (s, "")

def parseWebvhIdentifier (did : String) : Except MethodError ParsedDid :=
  match stripPrefix "did:webvh:" did with
  | none => .error (.methodMismatch "webvh" (foundMethod did))
  | some rest =>
      match nextLabel rest with
      | none => .error (.malformed did)
      | some (scid, rest) =>
          match nextLabel rest with
          | none => .error (.malformed did)
          | some (domain, path) => .ok ⟨.webvh, some scid, domain, path⟩

def parseWebIdentifier (did : String) : Except MethodError ParsedDid :=
  match stripPrefix "did:web:" did with
  | none => .error (.methodMismatch "web" (foundMethod did))
  | some rest =>
      match nextLabel rest with
      | none => .error (.malformed did)
      | some (domain, path) => .ok ⟨.web, none, domain, path⟩

/-- `r.split(['?', '#']).next()`. -/
def beforeQuery (s : String) : String :=
  String.ofList (s.toList.takeWhile fun c => c != '?' && c != '#')

def parseWebsIdentifier (L : Libs) (did : String) :
    Except MethodError ParsedDid :=
  match L.didWebsParse did with
  | .error e =>
      if startsWith "did:webs:" did then .error (.malformed s!"{did}: {e}")
      else .error (.methodMismatch "webs" (foundMethod did))
  | .ok parsed =>
      let rest := match stripPrefix "did:webs:" did with
        | some r => beforeQuery r
        | none => ""
      let domain := before ':' rest
      if domain = "" then .error (.malformed did)
      else
        .ok ⟨.webs, some parsed.aid, domain,
          ":".intercalate (parsed.path ++ [parsed.aid])⟩

/-- `method_by_name`: the methods compiled in.  `webvh` and `web` are part of
every build of the services, `webs` is an optional feature. -/
def methodByName (L : Libs) (name : String) : Option Method :=
  if name = "webvh" then some .webvh
  else if name = "web" then some .web
  else if name = "webs" then (if L.methodWebs then some .webs else none)
  else none

/-- `DidMethod::parse_identifier`. -/
def parseIdentifier (L : Libs) (m : Method) (did : String) :
    Except MethodError ParsedDid :=
  match m with
  | .webvh => parseWebvhIdentifier did
  | .web => parseWebIdentifier did
  | .webs => parseWebsIdentifier L did

/-! ## The host of an identifier -/

/-- The value of an ASCII hexadecimal digit. -/
def hexDigit (b : UInt8) : Option UInt8 :=
  if 48 ≤ b ∧ b ≤ 57 then some (b - 48)
  else if 97 ≤ b ∧ b ≤ 102 then some (b - 87)
  else if 65 ≤ b ∧ b ≤ 70 then some (b - 55)
  else none

/-- The byte loop of `percent_decode_to_string`. -/
def percentDecodeBytes : List UInt8 → Option (List UInt8)
  | [] => some []
  | b :: rest =>
      if b = 37 then
        match rest with
        | h :: l :: rest => do
            let hi ← hexDigit h
            let lo ← hexDigit l
            let out ← percentDecodeBytes rest
            return (hi * 16 + lo) :: out
        | _ => none
      else do
        let out ← percentDecodeBytes rest
        return b :: out

def percentDecodeToString (s : String) : Option String := do
  let out ← percentDecodeBytes s.toUTF8.data.toList
  String.fromUTF8? ⟨out.toArray⟩

/-- `extract_did_host`: the host an identifier names, percent-decoded. -/
def extractDidHost (L : Libs) (did : String) : Except AppError String :=
  match parseDidMethod did with
  | .error e =>
      .error (.validation s!"malformed DID identifier '{did}': {e.toText}")
  | .ok name =>
      match methodByName L name with
      | none =>
          .error (.validation
            s!"DID method '{name}' is not supported by this server")
      | some m =>
          match parseIdentifier L m did with
          | .error e =>
              .error (.validation
                s!"could not parse DID identifier '{did}': {e.toText}")
          | .ok parsed =>
              .ok ((percentDecodeToString parsed.domain).getD parsed.domain)

/-- `extract_did_host(did).unwrap_or_default()`. -/
def didHostOrEmpty (L : Libs) (did : String) : String :=
  match extractDidHost L did with
  | .ok host => host
  | .error _ => ""

/-- `did_id.and_then(|d| extract_did_host(d).ok()).unwrap_or_default()`. -/
def hostOfDidId (L : Libs) (didId : Option String) : String :=
  match didId with
  | some did => didHostOrEmpty L did
  | none => ""

/-- `webvh_scid`: the SCID of a `did:webvh:{scid}:…` identifier. -/
def webvhScid (didId : String) : Option String :=
  match stripPrefix "did:webvh:" didId with
  | none => none
  | some rest => if before ':' rest = "" then none else some (before ':' rest)

theorem colon_not_mem_webvhScid {didId scid : String}
    (h : webvhScid didId = some scid) : ':' ∉ scid.toList := by
  unfold webvhScid at h
  split at h
  · contradiction
  · split at h
    · contradiction
    · cases h
      exact not_mem_before ':' _

/-! ## The method of a payload -/

/-- `Webs::validate`: the stream carries an inception event. -/
def websValidate (L : Libs) (data : String) : Except MethodError Unit :=
  if data.toUTF8.data.toList.all (fun b => b = 32 ∨ (9 ≤ b ∧ b ≤ 13 ∧ b ≠ 11))
  then .error (.validation "keri.cesr is empty / whitespace-only")
  else
    match L.kelsParse data with
    | .error e => .error (.validation s!"keri.cesr could not be read: {e}")
    | .ok false =>
        .error (.validation
          "keri.cesr carries no inception event — not a key event log")
    | .ok true => .ok ()

/-- The first non-blank line is a JSON object with a `versionId`. -/
def looksLikeWebvh (L : Libs) (data : String) : Bool :=
  match (nonblankLines data).head? with
  | none => false
  | some line =>
      match L.fromStr line with
      | .ok v => (v.get "versionId").isSome
      | .error _ => false

/-- The payload is one JSON object with a `did:web` identifier. -/
def looksLikeWeb (L : Libs) (data : String) : Bool :=
  match L.fromStr data with
  | .ok v =>
      match (v.get "id").bind Json.asStr with
      | some id => startsWith "did:web:" id
      | none => false
  | .error _ => false

/-- `detect_method`: which method a payload belongs to, from its shape. -/
def detectMethod (L : Libs) (data : String) : Option Method :=
  if looksLikeWebvh L data then some .webvh
  else if L.methodWebs && (websValidate L data).isOk then some .webs
  else if looksLikeWeb L data then some .web
  else none

end DidHosting
