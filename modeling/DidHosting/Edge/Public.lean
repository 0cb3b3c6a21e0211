import DidHosting.Support.Alone
import DidHosting.Support.TtlCache
import DidHosting.Edge.Reconcile
import DidHosting.Edge.Resolve

/-!
# Public requests

The fallback handler of an edge tries the resolvers of did:webvh, did:webs and did:web in
this order.  A request reads the store and the content cache one after the other and makes at
most one insertion into the cache.  Between two of its steps a directive may be applied, and
the request may be dropped.
-/

namespace DidHosting

namespace Text

/-- `s.strip_suffix(p)`. -/
def stripSuffix (p s : String) : Option String :=
  if endsWith p s then
    some (String.ofList (s.toList.take (s.toList.length - p.toList.length)))
  else
    none

/-- `s.trim_start_matches(c)`. -/
def trimStartMatches (c : Char) (s : String) : String :=
  String.ofList (s.toList.dropWhile (· == c))

end Text

open Text

/-! ## The host of a request -/

structure HostHeaders where
  host : Option String
  forwarded : Option String
  xForwardedHost : Option String

def firstXffValue (header : String) : Option String :=
  let first := trim (before ',' header)
  if first = "" then none else some first

/-- The value of a parameter without the quotes around it. -/
def unquoted (value : String) : String :=
  ((stripPrefix "\"" value).bind (stripSuffix "\"")).getD value

/-- The loop of `parse_forwarded_host` over the parameters of the first group. -/
def forwardedHost : List String → Option String
  | [] => none
  | rawPair :: rest =>
      match splitOnce '=' (trim rawPair) with
      | none => none
      | some (name, value) =>
          if eqIgnoreAsciiCase (trim name) "host" then
            let stripped := unquoted (trim value)
            if stripped = "" then none else some stripped
          else
            forwardedHost rest

def parseForwardedHost (header : String) : Option String :=
  forwardedHost (split ';' (before ',' header))

/-- The fixed part of an edge that serves public requests. -/
structure PublicState extends ResolveState where
  /-- `std::net::IpAddr`. -/
  IpAddr : Type
  /-- `ipnetwork::IpNetwork`. -/
  IpNetwork : Type
  /-- `IpNetwork::contains`. -/
  contains : IpNetwork → IpAddr → Bool
  /-- `config.trusted_proxy_cidrs`. -/
  trustedProxyCidrs : List IpNetwork

/-- What the edge verifies sync updates with. -/
def PublicState.edge (P : PublicState) : EdgeState :=
  ⟨P.libs.toLibs, P.publicUrl⟩

structure PublicRequest (P : PublicState) where
  path : String
  headers : HostHeaders
  peerIp : Option P.IpAddr

def peerIsTrusted (P : PublicState) : Option P.IpAddr → Bool
  | none => false
  | some ip => P.trustedProxyCidrs.any fun cidr => P.contains cidr ip

def resolveRequestHost (P : PublicState) (headers : HostHeaders) (peerIp : Option P.IpAddr) :
    Option String :=
  if peerIsTrusted P peerIp then
    match headers.forwarded.bind parseForwardedHost with
    | some host => some host
    | none =>
        match headers.xForwardedHost.bind firstXffValue with
        | some first => some first
        | none => headers.host
  else
    headers.host

/-- The host that a request asks for. -/
def PublicRequest.requestHost {P : PublicState} (request : PublicRequest P) : Option String :=
  resolveRequestHost P request.headers request.peerIp

/-! ## The node -/

abbrev ContentCache := TtlCache RowKey String

/-- An edge that serves: its store with the updates committed so far, its content cache and
the clock. -/
structure Node where
  edge : EdgeRun
  cache : ContentCache
  now : ℕ

/-- A node that has served nothing yet. -/
def Node.initial (assignments : Table String AssignmentEntry)
    (pendingPurges : Table String PendingPurge) (domains : Table String DomainEntry)
    (defaultDomain : Option String) (ttl now : ℕ) : Node :=
  ⟨EdgeRun.initial assignments pendingPurges domains defaultDomain, TtlCache.new ttl, now⟩

/-- An access of a node.  A directive, a background task and a reconcile access the store
once, as a whole. -/
inductive NodeAccess (E : EdgeState) where
  | read
  | directive (op : EdgeOp)
  | reconcile (replies : List ListingReply)
  | insert (key : RowKey) (data : String)
  | invalidate (key : RowKey)
  | clear
  | evictExpired
  | pass (elapsed : ℕ)

/-- The node after an access. -/
def Node.perform {E : EdgeState} : NodeAccess E → Node → Node
  | .read, n => n
  | .directive op, n => { n with edge := n.edge.step E op }
  | .reconcile replies, n =>
      { n with edge := { n.edge with store := ((reconcileOnce replies).run n.edge.store).2 } }
  | .insert key data, n => { n with cache := n.cache.insert n.now key data }
  | .invalidate key, n => { n with cache := n.cache.invalidate key }
  | .clear, n => { n with cache := n.cache.clear }
  | .evictExpired, n => { n with cache := n.cache.evictExpired n.now }
  | .pass elapsed, n => { n with now := n.now + elapsed }

instance (E : EdgeState) : Access Node (NodeAccess E) := ⟨Node.perform⟩

abbrev NodeM (E : EdgeState) := Atomic Node (NodeAccess E) Unit Empty ResolutionError

section Steps

variable {E : EdgeState} {α : Type}

def readStore (f : EdgeStore → α) : NodeM E α :=
  Atomic.call .read fun n => f n.edge.store

def readCache (key : RowKey) : NodeM E (Option String) :=
  Atomic.call .read fun n => n.cache.get n.now key

/-- An access whose answer is not looked at. -/
def change (o : NodeAccess E) : NodeM E Unit :=
  Atomic.call o fun _ => ()

/-- `Option::ok_or`. -/
def orFail (e : ResolutionError) : Option α → NodeM E α
  | some a => pure a
  | none => .fail e

end Steps

/-- A successful response of a resolver. -/
structure PublicAnswer where
  contentType : String
  cacheControl : Option String
  body : String
  /-- Whether the resolution is counted. -/
  counted : Bool
deriving DecidableEq, Repr

/-! ## The record of the slot -/

section Routes

variable (P : PublicState) {E : EdgeState}

/-- `assert_resolution_allowed`, which reads the domains twice. -/
def resolutionAllowed (requestHost : Option String) (didId : String) : NodeM E Unit := do
  let unconfigured ← readStore fun s => (Table.rows s.domains).isEmpty
  if unconfigured then pure ()
  else
    match requestHost with
    | none => .fail (.app (.notFound s!"no resolvable request host for {didId}"))
    | some host => do
        Atomic.check (assertRequestHostMatchesDid P.libs.toLibs host didId)
        let domains ← readStore fun s => s.domains
        Atomic.check (assertDomainActiveForResolution P.libs.toLibs domains host)

/-- The checks of all routes on the record of the slot. -/
def servedCheck (mnemonic : String) (requestHost : Option String) (record : DidRecord) :
    NodeM E Unit :=
  if record.disabled || record.deletedAt.isSome then .fail (contentNotFound mnemonic)
  else
    match record.didId with
    | some didId => resolutionAllowed P requestHost didId
    | none => pure ()

/-! ## did:webvh -/

/-- The row a file of the did:webvh route is read from. -/
def contentKey (mnemonic : String) : ContentType → RowKey
  | .jsonl => .contentLog mnemonic
  | .json => .contentWitness mnemonic

/-- What `serve_content` reads from the store when the cache holds nothing. -/
def readContent (mnemonic : String) : ContentType → NodeM E String
  | .jsonl => do
      let log ← readStore fun s => s.log mnemonic
      let text ← orFail (contentNotFound mnemonic) log
      let witness ← readStore fun s => s.witness mnemonic
      orFail (contentNotFound mnemonic) (servableDidLog P.libs text witness)
  | .json => do
      let witness ← readStore fun s => s.witness mnemonic
      orFail (contentNotFound mnemonic) witness

/-- The content under a key of the cache, or else from the store and into the cache. -/
def throughCache (key : RowKey) (fetch : NodeM E String) : NodeM E String := do
  match ← readCache key with
  | some content => pure content
  | none => do
      let data ← fetch
      change (.insert key data)
      pure data

def serveContentNode (mnemonic : String) (contentType : ContentType) (trackStats : Bool)
    (requestHost : Option String) : NodeM E PublicAnswer := do
  let row ← readStore fun s => s.record mnemonic
  let record ← orFail (contentNotFound mnemonic) row
  servedCheck P mnemonic requestHost record
  let content ← throughCache (contentKey mnemonic contentType)
    (readContent P mnemonic contentType)
  pure ⟨contentType.text, some "public, max-age=300", content, trackStats⟩

/-- The slot of a path that ends in an artifact. -/
def slotOf (artifact path : String) : Option String :=
  (stripSuffix artifact (trimStartMatches '/' path)).filter (· ≠ "")

-- a path is read only where a statement says what it is
attribute [irreducible] slotOf

/-- `resolve_webvh::dispatch`. -/
def webvhDispatch (request : PublicRequest P) : NodeM E (Option PublicAnswer) :=
  match slotOf "/did.jsonl" request.path with
  | some mnemonic => do
      Atomic.check ((validateMnemonic mnemonic).mapError .app)
      let answer ← serveContentNode P mnemonic .jsonl true request.requestHost
      pure (some answer)
  | none =>
      match slotOf "/did-witness.json" request.path with
      | some mnemonic => do
          Atomic.check ((validateMnemonic mnemonic).mapError .app)
          let answer ← serveContentNode P mnemonic .json false request.requestHost
          pure (some answer)
      | none => pure none

/-! ## did:webs -/

/-- What `webs_record` makes of the row of the slot. -/
def websRow (mnemonic : String) (requestHost : Option String) :
    Option DidRecord → NodeM E (Option DidRecord)
  | none => pure none
  | some record =>
      if record.method = .webs then do
        servedCheck P mnemonic requestHost record
        pure (some record)
      else
        pure none

def websRecord (mnemonic : String) (requestHost : Option String) :
    NodeM E (Option DidRecord) := do
  let row ← readStore fun s => s.record mnemonic
  websRow P mnemonic requestHost row

/-- What `load_keri_cesr` reads from the store when the cache holds nothing. -/
def readKeriCesr (mnemonic : String) : NodeM E String := do
  let log ← readStore fun s => s.log mnemonic
  orFail (contentNotFound mnemonic) log

def loadKeriCesr (mnemonic : String) : NodeM E String :=
  throughCache (.contentLog mnemonic) (readKeriCesr mnemonic)

def serveKeriCesr (mnemonic : String) (requestHost : Option String) :
    NodeM E PublicAnswer := do
  let held ← websRecord P mnemonic requestHost
  let _record ← orFail (contentNotFound mnemonic) held
  let content ← loadKeriCesr mnemonic
  pure ⟨"application/cesr", some "public, max-age=300", content, true⟩

/-- The document `serve_did_json` derives from a stream. -/
def derivedDocument (record : DidRecord) (content : String) : Except ResolutionError String :=
  match record.didId with
  | none =>
      .error (.app (.internal
        s!"did:webs record {record.mnemonic} has no did_id; cannot derive did.json"))
  | some didId =>
      match verifyArtifacts P.libs.toLibs didId content with
      | .error _ =>
          .error (.app (.internal
            s!"stored key event log for {record.mnemonic} does not verify"))
      | .ok document => .ok document

def serveDidJson (record : DidRecord) : NodeM E PublicAnswer := do
  let content ← loadKeriCesr record.mnemonic
  let document ← Atomic.check (derivedDocument P record content)
  pure ⟨"application/did+json", some "public, max-age=300", document, true⟩

/-- The answer of `resolve_webs::dispatch` to a request for `did.json`. -/
def websDidJson : Option DidRecord → NodeM E (Option PublicAnswer)
  | none => pure none
  | some record => do
      let answer ← serveDidJson P record
      pure (some answer)

/-- `resolve_webs::dispatch`. -/
def websDispatch (request : PublicRequest P) : NodeM E (Option PublicAnswer) :=
  match slotOf "/keri.cesr" request.path with
  | some mnemonic => do
      Atomic.check ((validateWebsMnemonic mnemonic).mapError .app)
      let answer ← serveKeriCesr P mnemonic request.requestHost
      pure (some answer)
  | none =>
      match slotOf "/did.json" request.path with
      | some mnemonic =>
          -- a path of another form is left to did:web
          if (validateWebsMnemonic mnemonic).isOk then do
            let held ← websRecord P mnemonic request.requestHost
            websDidJson P held
          else
            pure none
      | none => pure none

/-! ## did:web -/

/-- The check of `serve_did_web` on the record, when the slot has one. -/
def bridgedCheck (mnemonic : String) (requestHost : Option String) :
    Option DidRecord → NodeM E Unit
  | some record => servedCheck P mnemonic requestHost record
  | none => pure ()

/-- The document `serve_did_web` finds in a log. -/
def bridgedDocument (mnemonic log : String) : Except ResolutionError String :=
  match buildDidWebId P.libs.toLibs P.publicBaseUrl mnemonic with
  | .error e => .error (.app (.internal s!"failed to build did:web id: {e}"))
  | .ok expected =>
      match extractDidWebDocument P.libs.toLibs log expected with
      | none => .error (.app (.notFound s!"no did:web document for: {mnemonic}"))
      | some document => .ok document

def serveDidWebNode (mnemonic : String) (requestHost : Option String) :
    NodeM E PublicAnswer := do
  let row ← readStore fun s => s.record mnemonic
  bridgedCheck P mnemonic requestHost row
  let log ← readStore fun s => s.log mnemonic
  let text ← orFail (contentNotFound mnemonic) log
  let document ← Atomic.check (bridgedDocument P mnemonic text)
  pure ⟨"application/did+json", none, document, true⟩

def webDispatch (request : PublicRequest P) : NodeM E (Option PublicAnswer) :=
  match slotOf "/did.json" request.path with
  | some mnemonic => do
      Atomic.check ((validateMnemonic mnemonic).mapError .app)
      let answer ← serveDidWebNode P mnemonic request.requestHost
      pure (some answer)
  | none => pure none

/-- The answer of the first resolver, or else that of the next. -/
def orNext (first next : NodeM E (Option PublicAnswer)) : NodeM E (Option PublicAnswer) := do
  match ← first with
  | some answer => pure (some answer)
  | none => next

def servePublic (request : PublicRequest P) : NodeM E (Option PublicAnswer) :=
  orNext (webvhDispatch P request)
    (if P.libs.methodWebs then orNext (websDispatch P request) (webDispatch P request)
    else webDispatch P request)

end Routes

/-! ## Directives and their invalidations -/

section Directives

variable (E : EdgeState)

/-- Whether a sync entry is applied. -/
def entryApplied (now : ℕ) (update : DidSyncUpdate) (s : EdgeStore) : Bool :=
  match ((applySyncEntry E now update).run s).1 with
  | .ok .applied => true
  | _ => false

/-- `apply_sync_entry`, with the invalidation that follows its commit. -/
def entryNode (now : ℕ) (update : DidSyncUpdate) : NodeM E Unit := do
  let applied ← Atomic.call (.directive (.syncUpdate now update)) fun n =>
    entryApplied E now update n.edge.store
  if applied then change (.invalidate (.contentLog update.mnemonic)) else pure ()

/-- The entries of `do_sync_batch`. -/
def entriesNode : List (ℕ × DidSyncUpdate) → NodeM E Unit
  | [] => pure ()
  | e :: rest => do
      entryNode E e.1 e.2
      entriesNode rest

/-- A directive or a background task, with the invalidations it makes. -/
def directiveNode : EdgeOp → NodeM E Unit
  | .syncUpdate now update => entryNode E now update
  | .syncBatch updates => entriesNode E updates
  | .syncDelete mnemonic => do
      let held ← Atomic.call (.directive (.syncDelete mnemonic)) fun n =>
        (n.edge.store.record mnemonic).isSome
      if held then change (.invalidate (.contentLog mnemonic)) else pure ()
  | .domainPurge issuedAt domain => do
      let purged ← Atomic.call (.directive (.domainPurge issuedAt domain)) fun n =>
        ((doDomainPurge E.libs issuedAt domain).run n.edge.store).1.isOk
      if purged then change .clear else pure ()
  | op => change (.directive op)

/-- The invalidations of `apply_listing`. -/
def invalidateAll : List String → NodeM E Unit
  | [] => pure ()
  | mnemonic :: rest => do
      change (.invalidate (.contentLog mnemonic))
      invalidateAll rest

/-- The slots a reconcile repairs. -/
def repairedSlots (replies : List ListingReply) (s : EdgeStore) : List String :=
  match ((reconcileOnce replies).run s).1 with
  | .ok report => report.repaired
  | .error _ => []

/-- `reconcile_once`, with the invalidations it makes. -/
def reconcileNode (replies : List ListingReply) : NodeM E Unit := do
  let repaired ← Atomic.call (.reconcile replies) fun n => repairedSlots replies n.edge.store
  invalidateAll E repaired

end Directives

/-- What the handlers and tasks of an edge do. -/
inductive NodeOp (P : PublicState) where
  | get (request : PublicRequest P)
  | directive (op : EdgeOp)
  | reconcile (replies : List ListingReply)
  | evictExpired
  | pass (elapsed : ℕ)

/-- The steps of a handler.  Only a request has an answer. -/
def NodeOp.handler {P : PublicState} : NodeOp P → NodeM P.edge (Option PublicAnswer)
  | .get request => servePublic P request
  | .directive op => do
      directiveNode P.edge op
      pure none
  | .reconcile replies => do
      reconcileNode P.edge replies
      pure none
  | .evictExpired => do
      change .evictExpired
      pure none
  | .pass elapsed => do
      change (.pass elapsed)
      pure none

end DidHosting
