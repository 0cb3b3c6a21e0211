import DidHosting.Auth.Session
import DidHosting.Support.Deadlines

/-!
# Pending challenges

The tracker of the challenges that have been issued and not yet answered.  Anyone may ask
for a challenge, so their number is capped, for each DID and in all.  A challenge leaves
when it is answered, when its slot is handed back, and when its time has passed; nothing
tells the tracker of the last, it drops what is due at the next call.

Instants and durations are in nanoseconds.
-/

namespace DidHosting

namespace Auth

open Deadlines

/-! ## State -/

structure Entry where
  did : String
  sessionId : Option String
deriving DecidableEq, Repr

/-- An instant, and the id of the entry that expires then. -/
abbrev Slot := ℕ × ℕ

structure Inner where
  nextId : ℕ
  entries : Table ℕ Entry
  bySession : Table String ℕ
  perDid : Table String (List Slot)
  /-- May hold ids already released. -/
  expiry : List Slot

def Inner.empty : Inner := ⟨0, ∅, ∅, ∅, []⟩

def insertSorted (q : List Slot) (expiresAt id : ℕ) : List Slot :=
  put Prod.fst (expiresAt, id) q

/-- One second, in nanoseconds. -/
def second : ℕ := 10 ^ 9

/-- `secs_until`: whole seconds, rounded up and never below 1. -/
def secsUntil (at_ now : ℕ) : ℕ :=
  let d := at_ - now
  max (d / second + if 0 < d % second then 1 else 0) 1

namespace Inner

/-- The queue of a DID without the id; no queue is empty. -/
def removeFromDid (did : String) (id : ℕ) (perDid : Table String (List Slot)) :
    Table String (List Slot) :=
  match perDid.lookup did with
  | none => perDid
  | some q =>
      let q := q.filter (·.2 != id)
      if q.isEmpty then perDid.erase did else perDid.insert did q

def remove (s : Inner) (id : ℕ) : Bool × Inner :=
  match s.entries.lookup id with
  | none => (false, s)
  | some entry =>
      (true,
        { s with
          entries := s.entries.erase id
          bySession := entry.sessionId.elim s.bySession s.bySession.erase
          perDid := removeFromDid entry.did id s.perDid })

/-- The loop of `Inner::prune`, on what is left of the expiry queue. -/
def pruneFrom (now : ℕ) : List Slot → Inner → Inner
  | [], s => { s with expiry := [] }
  | (expiresAt, id) :: rest, s =>
      if (s.entries.lookup id).isSome then
        if now < expiresAt then { s with expiry := (expiresAt, id) :: rest }
        else pruneFrom now rest (s.remove id).2
      else pruneFrom now rest s

def prune (s : Inner) (now : ℕ) : Inner :=
  pruneFrom now s.expiry s

def insert (s : Inner) (did : String) (expiresAt : ℕ) (sessionId : Option String) :
    ℕ × Inner :=
  (s.nextId,
    { nextId := s.nextId + 1
      entries := s.entries.insert s.nextId ⟨did, sessionId⟩
      bySession := sessionId.elim s.bySession fun sid => s.bySession.insert sid s.nextId
      perDid := s.perDid.insert did
        (insertSorted ((s.perDid.lookup did).getD []) expiresAt s.nextId)
      expiry := insertSorted s.expiry expiresAt s.nextId })

end Inner

/-! ## The tracker -/

def limiterGlobal : String := "auth-challenge-pending-global"

def limiterPendingChallengesPerDid : String := "auth-challenge-pending-per-did"

/-- `AppError::RateLimited`. -/
structure RateLimited where
  limiter : String
  message : String
  retryAfterSecs : ℕ
deriving DecidableEq, Repr

/-- What a tracker is set up with. -/
structure TrackerConfig where
  challengeTtl : ℕ
  globalCap : ℕ
deriving DecidableEq, Repr

/-- The hint of a refusal, from the queue whose front frees the next slot. -/
def retryAfter (q : List Slot) (now : ℕ) : ℕ :=
  q.head?.elim 1 fun slot => secsUntil slot.1 now

/-- `try_issue`; the reservation is the id. -/
def tryIssue (config : TrackerConfig) (s : Inner) (now : ℕ) (did : String) (perDidCap : ℕ) :
    Except RateLimited ℕ × Inner :=
  let s := s.prune now
  if config.globalCap ≤ s.entries.keys.length then
    (.error ⟨limiterGlobal, s!"global pending-challenge cap reached ({config.globalCap} concurrent); try again later",
      retryAfter s.expiry now⟩, s)
  else
    let q := s.perDid.lookup did
    if q.any (perDidCap ≤ ·.length) then
      (.error ⟨limiterPendingChallengesPerDid,
        s!"too many pending challenges for this DID (>= {perDidCap}); try again later",
        retryAfter (q.getD []) now⟩, s)
    else
      let inserted := s.insert did (now + config.challengeTtl) none
      (.ok inserted.1, inserted.2)

def bindSession (s : Inner) (reservation : ℕ) (sessionId : String) : Inner :=
  match s.entries.lookup reservation with
  | none => s
  | some entry =>
      { s with
        entries := s.entries.insert reservation { entry with sessionId := some sessionId }
        bySession := s.bySession.insert sessionId reservation }

def cancel (s : Inner) (reservation : ℕ) : Inner :=
  (s.remove reservation).2

def releaseSession (s : Inner) (now : ℕ) (sessionId : String) : Bool × Inner :=
  let s := s.prune now
  match s.bySession.lookup sessionId with
  | some id => s.remove id
  | none => (false, s)

def countFor (s : Inner) (now : ℕ) (did : String) : ℕ :=
  (((s.prune now).perDid.lookup did).getD []).length

def globalCount (s : Inner) (now : ℕ) : ℕ :=
  (s.prune now).entries.keys.length

/-! ## Boot -/

/-- When a stored session stops being redeemable, if it is: `remaining`, from now on. -/
def redeemableFor (config : TrackerConfig) (nowEpoch : ℕ) (session : Session) : Option ℕ :=
  let expiresEpoch := min (session.createdAt + config.challengeTtl / second) (2 ^ 64 - 1)
  if session.state = .challengeSent ∧ nowEpoch ≤ expiresEpoch then
    some ((expiresEpoch - nowEpoch + 1) * second)
  else none

/-- One row of `seed_from_sessions`. -/
def seedOne (config : TrackerConfig) (nowEpoch now : ℕ) (s : Inner) (session : Session) : Inner :=
  match redeemableFor config nowEpoch session with
  | none => s
  | some remaining =>
      if (s.bySession.lookup session.sessionId).isSome then s
      else (s.insert session.did (now + remaining) (some session.sessionId)).2

end Auth

end DidHosting
