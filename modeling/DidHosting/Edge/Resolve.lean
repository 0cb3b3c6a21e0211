import DidHosting.Common.ServedPrefix
import DidHosting.Common.Store
import DidHosting.Common.WebDocument
import DidHosting.Edge.HostSpelling

/-!
# Resolution routes

A slot is resolved on two routes.  The did:webvh route serves the log up to its last
witnessed entry, or what the content cache holds of it; the did:web bridge serves the
document of the last line of the stored log, under the slot's did:web identifier.
-/

namespace DidHosting

open Text

structure SlotRows where
  record : Option DidRecord
  log : Option ByteArray
  witness : Option ByteArray

/-- The fixed part of a server that resolves. -/
structure ResolveState where
  libs : ServeLibs
  /-- `String::from_utf8_lossy`. -/
  fromUtf8Lossy : ByteArray → String
  /-- The text of the error of `String::from_utf8`. -/
  utf8Error : ByteArray → String
  /-- `config.public_url`. -/
  publicUrl : Option String
  /-- `config.server.host`. -/
  serverHost : String
  /-- `config.server.port`. -/
  serverPort : ℕ

def ResolveState.publicBaseUrl (R : ResolveState) : String :=
  R.publicUrl.getD s!"http://{R.serverHost}:{R.serverPort}"

/-- The two files of the did:webvh route. -/
inductive ContentType where
  | jsonl
  | json
deriving DecidableEq, Repr

/-- The `content-type` header. -/
def ContentType.text : ContentType → String
  | .jsonl => "application/jsonl+json"
  | .json => "application/json"

/-- An answer of a route. -/
structure Resolved where
  contentType : String
  cacheControl : Option String
  body : ByteArray
  /-- What is put into the content cache. -/
  inserted : Option ByteArray
  /-- Whether the resolution is counted. -/
  counted : Bool

/-! ## The did:webvh route -/

section Routes

variable (R : ResolveState) (domains : Table String DomainEntry) (mnemonic : String)
  (requestHost : Option String)

/-- The answer for a slot without content. -/
def contentNotFound : ResolutionError :=
  .app (.notFound s!"content not found: {mnemonic}")

/-- The checks of both routes on the record of the slot. -/
def checkServed (record : DidRecord) : Except ResolutionError Unit :=
  if record.disabled || record.deletedAt.isSome then .error (contentNotFound mnemonic)
  else
    match record.didId with
    | some didId => assertResolutionAllowed R.libs.toLibs domains requestHost didId
    | none => .ok ()

/-- `String::from_utf8` of stored bytes. -/
def logText (bytes : ByteArray) : Except ResolutionError String :=
  match String.fromUTF8? bytes with
  | some text => .ok text
  | none => .error (.app (.internal s!"invalid log bytes: {R.utf8Error bytes}"))

/-- What `serve_content` reads from the store when the cache holds nothing. -/
def storedContent (rows : SlotRows) : ContentType → Except ResolutionError ByteArray
  | .jsonl =>
      match rows.log with
      | none => .error (contentNotFound mnemonic)
      | some data =>
          match logText R data with
          | .error e => .error e
          | .ok text =>
              match servableDidLog R.libs text (rows.witness.map R.fromUtf8Lossy) with
              | none => .error (contentNotFound mnemonic)
              | some served => .ok served.toUTF8
  | .json =>
      match rows.witness with
      | none => .error (contentNotFound mnemonic)
      | some data => .ok data

/-- The response headers and body of `serve_content`. -/
def contentResponse (contentType : ContentType) (trackStats : Bool) (body : ByteArray)
    (inserted : Option ByteArray) : Resolved where
  contentType := contentType.text
  cacheControl := some "public, max-age=300"
  body := body
  inserted := inserted
  counted := trackStats

/-- `serve_content`; `cached` is what the content cache holds under the key. -/
def serveContent (rows : SlotRows) (cached : Option ByteArray) (contentType : ContentType)
    (trackStats : Bool) : Except ResolutionError Resolved :=
  match rows.record with
  | none => .error (contentNotFound mnemonic)
  | some record =>
      match checkServed R domains mnemonic requestHost record with
      | .error e => .error e
      | .ok () =>
          match cached with
          | some content => .ok (contentResponse contentType trackStats content none)
          | none =>
              (storedContent R mnemonic rows contentType).map fun data =>
                contentResponse contentType trackStats data (some data)

/-- `GET /{mnemonic}/did.jsonl`. -/
def didJsonl (rows : SlotRows) (cached : Option ByteArray) : Except ResolutionError Resolved :=
  serveContent R domains mnemonic requestHost rows cached .jsonl true

/-- `GET /{mnemonic}/did-witness.json`. -/
def didWitness (rows : SlotRows) (cached : Option ByteArray) : Except ResolutionError Resolved :=
  serveContent R domains mnemonic requestHost rows cached .json false

/-! ## The did:web bridge -/

def encodeHost (L : Libs) (serverUrl : String) : Except String String :=
  match L.urlParse serverUrl with
  | .error e => .error s!"DIDComm error: invalid server URL: {e}"
  | .ok parsed =>
      match parsed.hostStr with
      | none => .error "DIDComm error: server URL has no host"
      | some host =>
          match parsed.port with
          | some port => .ok s!"{host}%3A{port}"
          | none => .ok host

def buildDidWebId (L : Libs) (serverUrl mnemonic : String) : Except String String :=
  (encodeHost L serverUrl).map fun host =>
    if mnemonic = ".well-known" then "did:web:" ++ host
    else "did:web:" ++ host ++ ":" ++ replaceChar '/' ":" mnemonic

/-- The check of `serve_did_web` on the record, when the slot has one. -/
def checkBridged : Option DidRecord → Except ResolutionError Unit
  | some record => checkServed R domains mnemonic requestHost record
  | none => .ok ()

/-- The response headers and body of `serve_did_web`. -/
def webResponse (document : String) : Resolved where
  contentType := "application/did+json"
  cacheControl := none
  body := document.toUTF8
  inserted := none
  counted := true

def serveDidWeb (rows : SlotRows) : Except ResolutionError Resolved := do
  checkBridged R domains mnemonic requestHost rows.record
  match rows.log with
  | none => .error (contentNotFound mnemonic)
  | some bytes => do
      let jsonl ← logText R bytes
      match buildDidWebId R.libs.toLibs R.publicBaseUrl mnemonic with
      | .error e => .error (.app (.internal s!"failed to build did:web id: {e}"))
      | .ok expected =>
          match extractDidWebDocument R.libs.toLibs jsonl expected with
          | none => .error (.app (.notFound s!"no did:web document for: {mnemonic}"))
          | some document => .ok (webResponse document)

end Routes

end DidHosting
