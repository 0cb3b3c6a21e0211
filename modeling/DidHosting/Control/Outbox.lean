import DidHosting.Control.State
import DidHosting.Support.Scan
import Mathlib.Data.List.Dedup
import Mathlib.Data.String.Basic

/-!
# The outbox

Messages from the control plane to its servers wait in one keyspace until the
server has acknowledged them.  A row is found by its key,
`outbox:{target}:{micros}:{uuid}`: the rows of a target are those whose key
starts with `outbox:{target}:`, in key order.

The worker reads a row, sends it and writes it back with the outcome.  The
write-back and the removals run under one lock; the removal of a row past its
retry budget does not take it.
-/

namespace DidHosting

open Text

/-! ## Rows and keys -/

structure OutboxEntry where
  targetDid : String
  msgType : String
  body : Json
  enqueuedAt : ℕ
  attempts : ℕ
  nextAttemptAt : ℕ
  lastError : Option String
  awaitingAck : Option String

def maxAttempts : ℕ := 50

def maxAgeSecs : ℕ := 7 * 24 * 60 * 60

def maxBackoffSecs : ℕ := 5 * 60

def ackTimeoutSecs : ℕ := 60

/-- The first twelve characters of a random UUID in its simple form. -/
structure ShortUuid where
  text : String
  length_eq : text.toList.length = 12
  hex : ∀ c ∈ text.toList, c.isDigit = true ∨ c ∈ ['a', 'b', 'c', 'd', 'e', 'f']

def padMicros (micros : ℕ) : String :=
  String.ofList ((Nat.toDigits 10 micros).leftpad 20 '0')

def outboxKey (targetDid : String) (enqueueMicros : ℕ) (uuidShort : ShortUuid) : String :=
  "outbox:" ++ targetDid ++ ":" ++ padMicros enqueueMicros ++ ":" ++ uuidShort.text

def targetPrefix (targetDid : String) : String :=
  "outbox:" ++ targetDid ++ ":"

/-- The target a key names: what stands before its last two chunks. -/
def targetOfKey (key : String) : Option String :=
  (stripPrefix "outbox:" key).bind fun afterPrefix =>
    (rsplitOnce ':' afterPrefix).bind fun p => (rsplitOnce ':' p.1).map Prod.fst

/-! ## Store -/

/-- A document that was handed to the transport for a row. -/
structure Delivery where
  key : String
  targetDid : String
  docId : String
deriving DecidableEq, Repr

/-- The outbound keyspace, and the documents handed to the transport so far,
oldest first. -/
structure OutboxStore where
  rows : Table String OutboxEntry
  deliveries : List Delivery

/-- One effect of an outbox operation. -/
inductive OutboxWrite where
  | insert (key : String) (entry : OutboxEntry)
  | remove (key : String)
  | deliver (delivery : Delivery)

namespace OutboxStore

/-- The store after a write. -/
def commit : OutboxWrite → OutboxStore → OutboxStore
  | .insert key entry, s => { s with rows := s.rows.insert key entry }
  | .remove key, s => { s with rows := s.rows.erase key }
  | .deliver d, s => { s with deliveries := s.deliveries ++ [d] }

instance : WriteBatch OutboxStore OutboxWrite := ⟨commit⟩

/-- The row under a key. -/
def row (s : OutboxStore) (key : String) : Option OutboxEntry :=
  s.rows.lookup key

end OutboxStore

inductive OutboxLock where
  | row
deriving DecidableEq, Repr

abbrev OutboxQ := Query OutboxStore AppError

/-- Operations on the outbox. -/
abbrev OutboxM := Prog OutboxStore OutboxWrite OutboxLock AppError

/-! ## Operations on rows -/

/-- The row `enqueue` stores. -/
def newEntry (targetDid msgType : String) (body : Json) (now : ℕ) : OutboxEntry where
  targetDid := targetDid
  msgType := msgType
  body := body
  enqueuedAt := now
  attempts := 0
  nextAttemptAt := now
  lastError := none
  awaitingAck := none

def enqueue (targetDid msgType : String) (body : Json) (now micros : ℕ)
    (uuidShort : ShortUuid) : OutboxM Unit :=
  Prog.write (.insert (outboxKey targetDid micros uuidShort)
    (newEntry targetDid msgType body now))

def listTargets : OutboxQ (List String) :=
  Query.read fun s =>
    (((s.rows.scan (startsWith "outbox:")).filterMap fun r => targetOfKey r.1).insertionSort
      (· ≤ ·)).dedup

/-- `list_pending_for_target`.  Every stored row parses. -/
def listPendingForTarget (targetDid : String) : OutboxQ (List (String × OutboxEntry)) :=
  Query.read fun s => s.rows.scan (startsWith (targetPrefix targetDid))

def rewriteIfPresent (key : String) (next : OutboxEntry) : OutboxM Unit :=
  Prog.locked .row do
    let held ← (Query.read (·.row key) : OutboxQ _)
    Prog.writeOpt (if held.isSome then some (.insert key next) else none)

def retire (key : String) : OutboxM Unit :=
  Prog.locked .row (Prog.write (.remove key))

/-- The characters that make up the first `n` bytes, unless they end inside a
character. -/
def bytePrefix : ℕ → List Char → Option (List Char)
  | 0, _ => some []
  | _ + 1, [] => none
  | n + 1, c :: cs =>
      if c.utf8Size ≤ n + 1 then (bytePrefix (n + 1 - c.utf8Size) cs).map (c :: ·) else none

/-- `truncated`: slicing a text inside a character panics. -/
def truncated (err : String) : Except AppError String :=
  if err.utf8ByteSize ≤ 200 then .ok err
  else
    match bytePrefix 200 err.toList with
    | some cs => .ok (String.ofList cs ++ "…")
    | none => .error (.internal "end byte index 200 is not a char boundary")

def computeBackoff (attempts : ℕ) : ℕ :=
  min (2 ^ min attempts 10) maxBackoffSecs

/-- `attempts.saturating_add(1)`. -/
def nextAttempts (attempts : ℕ) : ℕ :=
  min (attempts + 1) (2 ^ 32 - 1)

/-- The row `record_failure` writes. -/
def failedEntry (entry : OutboxEntry) (err : String) (now : ℕ) : OutboxEntry :=
  { entry with
    attempts := nextAttempts entry.attempts
    lastError := some err
    nextAttemptAt := saturatingAdd now (computeBackoff (entry.attempts + 1))
    awaitingAck := none }

def recordFailure (key : String) (entry : OutboxEntry) (err : String) (now : ℕ) :
    OutboxM Unit := do
  let text ← Prog.check (truncated err)
  rewriteIfPresent key (failedEntry entry text now)

/-- The row `record_sent` writes. -/
def sentEntry (entry : OutboxEntry) (docId : String) (now : ℕ) : OutboxEntry :=
  { entry with
    attempts := nextAttempts entry.attempts
    nextAttemptAt := saturatingAdd now ackTimeoutSecs
    awaitingAck := some docId }

def recordSent (key : String) (entry : OutboxEntry) (docId : String) (now : ℕ) :
    OutboxM Unit :=
  rewriteIfPresent key (sentEntry entry docId now)

/-- The loop of `drop_queued`. -/
def dropLoop (msgType : String) (superseded : Json → Bool) (dropped : ℕ) :
    List (String × OutboxEntry) → OutboxM ℕ
  | [] => pure dropped
  | (key, entry) :: rest =>
      if entry.msgType = msgType && superseded entry.body then do
        retire key
        dropLoop msgType superseded (dropped + 1) rest
      else
        dropLoop msgType superseded dropped rest

def dropQueued (targetDid msgType : String) (superseded : Json → Bool) : OutboxM ℕ := do
  let pending ← (listPendingForTarget targetDid : OutboxQ _)
  dropLoop msgType superseded 0 pending

/-- The loop of `acknowledge`. -/
def ackLoop (docId : String) : List (String × OutboxEntry) → OutboxM Bool
  | [] => pure false
  | (key, entry) :: rest =>
      if entry.awaitingAck = some docId then do
        retire key
        return true
      else
        ackLoop docId rest

def acknowledge (signer docId : String) : OutboxM Bool := do
  let pending ← (listPendingForTarget signer : OutboxQ _)
  ackLoop docId pending

/-! ## The worker -/

inductive PeerTransport where
  | tsp
  | didcomm
  | https
deriving DecidableEq, Repr

/-- What `deliver` returns. -/
inductive SendOutcome where
  | sent (docId : String) (transport : PeerTransport)
  | failed (err : String)
deriving DecidableEq, Repr

/-- The outcome of a send and the clock when it is recorded. -/
structure Send where
  outcome : SendOutcome
  recordedAt : ℕ
deriving DecidableEq, Repr

structure TickReport where
  sent : ℕ
  deferred : ℕ
  dropped : ℕ
deriving DecidableEq, Repr

/-- The row is past its retry budget. -/
def exhausted (entry : OutboxEntry) (now : ℕ) : Bool :=
  maxAttempts ≤ entry.attempts || maxAgeSecs ≤ now - entry.enqueuedAt

inductive HeadAction where
  | send
  | wait
deriving DecidableEq, Repr

def headAction (entry : OutboxEntry) (now : ℕ) : HeadAction :=
  if now < entry.nextAttemptAt then .wait else .send

/-- The reply to a send over HTTPS is its acknowledgement. -/
def selfAcknowledge (target docId : String) (transport : PeerTransport) : OutboxM Unit :=
  if transport = .https then do
    let _ ← acknowledge target docId
    pure ()
  else
    pure ()

/-- The row loop of `run_tick` for one target: rows past their budget are
dropped, and at most one row is sent. -/
def tickRows (now : ℕ) (send : Send) (target : String) (report : TickReport) :
    List (String × OutboxEntry) → OutboxM TickReport
  | [] => pure report
  | (key, entry) :: rest =>
      if exhausted entry now then do
        Prog.write (.remove key)
        tickRows now send target { report with dropped := report.dropped + 1 } rest
      else if headAction entry now = .wait then
        pure { report with deferred := report.deferred + 1 }
      else
        match send.outcome with
        | .sent docId transport => do
            Prog.write (.deliver ⟨key, entry.targetDid, docId⟩)
            recordSent key entry docId send.recordedAt
            selfAcknowledge target docId transport
            return { report with sent := report.sent + 1 }
        | .failed err => do
            recordFailure key entry err send.recordedAt
            return { report with deferred := report.deferred + 1 }

/-- The target loop of `run_tick`.  Each target is sent to at most once, so the
sends of a tick are given by target. -/
def tickTargets (now : ℕ) (sends : String → Send) (report : TickReport) :
    List String → OutboxM TickReport
  | [] => pure report
  | target :: rest => do
      let pending ← (listPendingForTarget target : OutboxQ _)
      let report ← tickRows now (sends target) target report pending
      tickTargets now sends report rest

/-- `run_tick`, once the service and its key are configured. -/
def runTick (now : ℕ) (sends : String → Send) : OutboxM TickReport := do
  let targets ← (listTargets : OutboxQ _)
  tickTargets now sends ⟨0, 0, 0⟩ targets

end DidHosting
