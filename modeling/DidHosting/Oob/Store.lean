import DidHosting.Support.Atomic
import DidHosting.Support.Table
import DidHosting.Common.TrustTask

/-!
# The store of out-of-band sign-in requests

A request is one record, and every change of it is a compare-and-set on the record's
version.  The store also remembers the ids of accepted documents.

Beside what the service keeps, the model's store has a log of the changes made so far.
No handler reads it.
-/

namespace DidHosting

namespace Oob

/-! ## Requests -/

inductive OobState where
  | pending
  | claimed
  | identified
  | approved
  | consumed
  | declined
  | cancelled
  | expired
deriving DecidableEq, Repr

namespace OobState

def asStr : OobState → String
  | pending => "pending"
  | claimed => "claimed"
  | identified => "identified"
  | approved => "approved"
  | consumed => "consumed"
  | declined => "declined"
  | cancelled => "cancelled"
  | expired => "expired"

def isFinal : OobState → Bool
  | consumed | declined | cancelled | expired => true
  | _ => false

def inDecisionWindow : OobState → Bool
  | claimed | identified | approved => true
  | _ => false

end OobState

def finishedRetentionSecs : ℕ := 300

def maxOpenRequests : ℕ := 10000

def maxSeenDocuments : ℕ := 50000

/-- `OobRecord`.  Times are in seconds since the epoch. -/
structure OobRecord where
  requestId : String
  state : OobState
  version : ℕ
  purpose : String
  origin : String
  startKey : String
  startNetwork : Option String
  location : String
  browser : String
  os : String
  createdAt : ℕ
  approverKey : Option String
  matchNumber : Option String
  matchNumberDelivered : Bool
  identifiedDid : Option String
  step2Digest : Option String
  claimDeadline : ℕ
  decisionDeadline : Option ℕ
  grant : Option Json
  grantNotAfter : Option ℕ
  finishedAt : Option ℕ
deriving Repr

namespace OobRecord

def lapsed (r : OobRecord) (now : ℕ) : Bool :=
  if r.state = .pending then r.claimDeadline < now
  else if r.state.inDecisionWindow then r.decisionDeadline.getD 0 < now
  else false

/-- `next`: the next version of a record. -/
def next (r : OobRecord) (state : OobState) (now : ℕ) : OobRecord :=
  { r with
    state := state
    version := r.version + 1
    startNetwork := if state.isFinal then none else r.startNetwork
    finishedAt := if state.isFinal then some now else r.finishedAt }

/-- The record is of the past for a sweep. -/
def stale (cutoff : ℕ) (r : OobRecord) : Bool :=
  (r.finishedAt.getD (r.decisionDeadline.getD r.claimDeadline)) < cutoff

end OobRecord

/-! ## Documents -/

/-- A document with the thread it belongs to. -/
structure OobDocument extends TrustTask where
  parentThreadId : Option String
deriving Repr

/-- Why a request changed. -/
inductive Move where
  | claimed
  | delivered
  /-- `prove` accepted the `identify` document and answers with `step2`. -/
  | identified (identify : OobDocument) (step2 : Json)
  /-- `respond` accepted the grant, whose request it found in its decision window at
  `checkedAt`. -/
  | decided (grant : OobDocument) (checkedAt : ℕ)
  | declined
  | cancelled
  | expired
  /-- The `redeem` of handler `by'` found the request approved at `checkedAt`. -/
  | consumed (by' : ℕ) (checkedAt : ℕ)
deriving Repr

/-- An entry of the log. -/
inductive Fact where
  | opened (r : OobRecord)
  | moved (before after : OobRecord) (why : Move)
deriving Repr

namespace Fact

/-- The record a change left. -/
def written : Fact → OobRecord
  | opened r => r
  | moved _ after _ => after

/-- The request and version a change left. -/
def key (f : Fact) : String × ℕ := (f.written.requestId, f.written.version)

end Fact

/-! ## The store -/

/-- `Inner`, without the polls, and the log. -/
structure OobStore where
  records : Table String OobRecord
  /-- `(issuer, id)` of accepted documents, and until when they are remembered. -/
  seen : List ((String × String) × ℕ)
  log : List Fact

namespace OobStore

/-- `OobStore::new`. -/
def new : OobStore := ⟨∅, [], []⟩

def sweep (s : OobStore) (now : ℕ) : OobStore :=
  { s with
    records := ((Table.rows s.records).filter fun row =>
      row.2.stale (now - finishedRetentionSecs)).foldl (fun t row => t.erase row.1) s.records
    seen := s.seen.filter fun e => now ≤ e.2 }

end OobStore

inductive CreateError where
  | duplicate
  | full
deriving DecidableEq, Repr

inductive SeenError where
  | replay
  | full
deriving DecidableEq, Repr

/-- The answer of `create` on a swept store. -/
def createResult (swept : OobStore) (record : OobRecord) : Except CreateError Unit :=
  if (swept.records.lookup record.requestId).isSome then .error .duplicate
  else if maxOpenRequests ≤ swept.records.entries.length then .error .full
  else .ok ()

/-- The answer of `remember_document` once old ids are dropped. -/
def rememberResult (seen : List ((String × String) × ℕ)) (key : String × String) :
    Except SeenError Unit :=
  if seen.any fun e => e.1 = key then .error .replay
  else if maxSeenDocuments ≤ seen.length then .error .full
  else .ok ()

/-- The stored record has the version a compare-and-set expects. -/
def OobStore.matchesVersion (s : OobStore) (requestId : String) (expected : ℕ) : Bool :=
  (s.records.lookup requestId).any fun cur => cur.version = expected

/-- The accesses of the store. -/
inductive OobAccess where
  | get
  | create (record : OobRecord) (now : ℕ)
  | compareAndSet (expected : ℕ) (next : OobRecord) (why : Move)
  | remember (key : String × String) (until' now : ℕ)

namespace OobStore

def perform : OobAccess → OobStore → OobStore
  | .get, s => s
  | .create record now, s =>
      match createResult (s.sweep now) record with
      | .ok () =>
          { s.sweep now with
            records := (s.sweep now).records.insert record.requestId record
            log := s.log ++ [.opened record] }
      | .error _ => s.sweep now
  | .compareAndSet expected next why, s =>
      match s.records.lookup next.requestId with
      | some cur =>
          if cur.version = expected then
            { s with
              records := s.records.insert next.requestId next
              log := s.log ++ [.moved cur next why] }
          else s
      | none => s
  | .remember key until' now, s =>
      let seen := s.seen.filter fun e => now ≤ e.2
      match rememberResult seen key with
      | .ok () => { s with seen := (key, until') :: seen }
      | .error _ => { s with seen := seen }

end OobStore

instance : Access OobStore OobAccess := ⟨OobStore.perform⟩

end Oob

end DidHosting
