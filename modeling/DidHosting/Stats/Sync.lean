import Mathlib.Algebra.GroupWithZero.Nat
import DidHosting.Stats.Collector
import DidHosting.Support.Run
import Mathlib.Logic.Function.Basic

/-!
# Stats sync

An edge drains its counters and sends them to the control plane, under a number that starts
at 0 with the process.  The link loses and repeats messages and keeps their order: the
message at its front may be handed on any number of times before it leaves.

The control plane handles the messages on threads of their own.  It remembers the last
number it accepted from each server; the comparison and the update are two sections under
the lock, and the size of the payload is checked after both.
-/

namespace DidHosting

namespace Stats

/-! ## Messages -/

/-- A stats-sync payload.  `sendNo` tells the messages of a run apart; it is not on the
wire. -/
structure SyncMessage where
  sendNo : ℕ
  serverDid : String
  seq : ℕ
  didDeltas : List DidStatsDelta
deriving DecidableEq, Repr

def maxDeltasPerSync : ℕ := 10000

/-- The numbers of `SYNC_SEQ` wrap around. -/
def seqModulus : ℕ := 2 ^ 64

/-- An edge: its counters, `SYNC_SEQ`, and what is on the way from it to the control
plane. -/
structure StatsEdge where
  collector : StatsCollector
  syncSeq : ℕ
  link : List SyncMessage

/-- A process that has come up. -/
def StatsEdge.started (link : List SyncMessage) : StatsEdge :=
  ⟨StatsCollector.new, 0, link⟩

/-- `sync_to_control_messaging`, when the edge can sign. -/
def StatsEdge.sync (serverDid : String) (sendNo : ℕ) (e : StatsEdge) :
    StatsEdge × Option SyncMessage :=
  match e.collector.drainForSync with
  | ([], collector) => ({ e with collector := collector }, none)
  | (deltas, collector) =>
      let message : SyncMessage := ⟨sendNo, serverDid, e.syncSeq, deltas⟩
      (⟨collector, (e.syncSeq + 1) % seqModulus, e.link ++ [message]⟩, some message)

/-! ## The control plane -/

/-- The first section of `accept_seq`: whether the number is stale. -/
def isStale (lastSeq : Table String ℕ) (serverDid : String) (seq : ℕ) : Bool :=
  0 < seq && match lastSeq.lookup serverDid with
    | some last => decide (seq ≤ last)
    | none => false

/-- Where the handling of a message is: before the first section of `accept_seq`, before
the second, before the check of the size, or at the deltas that are left. -/
inductive SyncPhase where
  | comparing
  | accepting
  | validating
  | recording (rest : List DidStatsDelta)
deriving DecidableEq, Repr

/-- A thread at a message.  `before` is the number that was the last accepted one when the
message was handed to it. -/
structure SyncHandler where
  message : SyncMessage
  before : Option ℕ
  phase : SyncPhase

/-- One recorded delta of a message, and when it was recorded. -/
structure Recording where
  message : SyncMessage
  delta : DidStatsDelta
  now : ℕ

/-- A refused payload: the last accepted number of its server before it was handed on and
after it was refused. -/
structure Refusal where
  serverDid : String
  before : Option ℕ
  after : Option ℕ

/-- The edges, the control plane with its threads, and the history: the messages that were
sent, the ones that were handed on and not refused at the gate, the deltas recorded, and
the refusals. -/
structure StatsRun where
  edge : String → StatsEdge
  lastSeq : Table String ℕ
  collector : StatsCollector
  thread : ℕ → Option SyncHandler
  sent : List SyncMessage
  delivered : List SyncMessage
  recorded : List Recording
  refusals : List Refusal

/-- What happens at an edge, on its link, or on a thread of the control plane.  A message is
handed to a free thread; `service` is whether the ACL has its signer as a service. -/
inductive StatsEvent where
  | resolve (server mnemonic : String) (now : ℕ)
  | update (server mnemonic : String) (now : ℕ)
  | sync (server : String)
  | restart (server : String)
  | lose (server : String)
  | deliver (server : String) (service : Bool) (thread : ℕ)
  | handle (thread now : ℕ)

namespace StatsRun

/-- Nothing has been sent. -/
def initial : StatsRun where
  edge _ := StatsEdge.started []
  lastSeq := ∅
  collector := StatsCollector.new
  thread _ := none
  sent := []
  delivered := []
  recorded := []
  refusals := []

def setEdge (r : StatsRun) (server : String) (e : StatsEdge) : StatsRun :=
  { r with edge := Function.update r.edge server e }

def setThread (r : StatsRun) (thread : ℕ) (h : Option SyncHandler) : StatsRun :=
  { r with thread := Function.update r.thread thread h }

/-- The gate of `do_stats_sync`: the signer has to be a service, and the payload its own. -/
def deliver (r : StatsRun) (signer : String) (service : Bool) (thread : ℕ)
    (message : SyncMessage) : StatsRun :=
  let before := r.lastSeq.lookup signer
  if !service || message.serverDid ≠ signer then
    { r with refusals := ⟨signer, before, before⟩ :: r.refusals }
  else
    { r with
      thread := Function.update r.thread thread (some ⟨message, before, .comparing⟩)
      delivered := message :: r.delivered }

/-- The next section of `do_stats_sync` behind the gate. -/
def handle (r : StatsRun) (thread now : ℕ) (h : SyncHandler) : StatsRun :=
  match h.phase with
  | .comparing =>
      if isStale r.lastSeq h.message.serverDid h.message.seq then r.setThread thread none
      else r.setThread thread (some { h with phase := .accepting })
  | .accepting =>
      { r.setThread thread (some { h with phase := .validating }) with
        lastSeq := r.lastSeq.insert h.message.serverDid h.message.seq }
  | .validating =>
      if maxDeltasPerSync < h.message.didDeltas.length then
        { r.setThread thread none with
          refusals := ⟨h.message.serverDid, h.before, r.lastSeq.lookup h.message.serverDid⟩ ::
            r.refusals }
      else r.setThread thread (some { h with phase := .recording h.message.didDeltas })
  | .recording [] => r.setThread thread none
  | .recording (d :: rest) =>
      if d.mnemonic = "" then r.setThread thread (some { h with phase := .recording rest })
      else
        { r.setThread thread (some { h with phase := .recording rest }) with
          collector := r.collector.recordDeltas d now
          recorded := r.recorded ++ [⟨h.message, d, now⟩] }

def step (r : StatsRun) : StatsEvent → StatsRun
  | .resolve server mnemonic now =>
      r.setEdge server
        { r.edge server with collector := (r.edge server).collector.recordResolve mnemonic now }
  | .update server mnemonic now =>
      r.setEdge server
        { r.edge server with collector := (r.edge server).collector.recordUpdate mnemonic now }
  | .sync server =>
      let (e, message) := (r.edge server).sync server r.sent.length
      { r.setEdge server e with sent := message.toList ++ r.sent }
  | .restart server => r.setEdge server (StatsEdge.started (r.edge server).link)
  | .lose server => r.setEdge server { r.edge server with link := (r.edge server).link.tail }
  | .deliver server service thread =>
      match r.thread thread, (r.edge server).link with
      | none, message :: _ => r.deliver server service thread message
      | _, _ => r
  | .handle thread now =>
      match r.thread thread with
      | some h => r.handle thread now h
      | none => r

/-! ## What the runs are about -/

/-- The deltas of a payload that the control plane records. -/
def kept (message : SyncMessage) : List DidStatsDelta :=
  message.didDeltas.filter fun d => decide (d.mnemonic ≠ "")

/-- What has been recorded of a payload. -/
def recordedOf (r : StatsRun) (message : SyncMessage) : List DidStatsDelta :=
  (r.recorded.filter fun x => decide (x.message = message)).map Recording.delta

/-- What a recording adds to a counter of the DID. -/
def addedTo (mnemonic : String) (count : DidStatsDelta → ℕ) (x : Recording) : ℕ :=
  if mnemonic = x.delta.mnemonic then count x.delta else 0

/-- A thread is at a message of the server. -/
def Busy (r : StatsRun) (server : String) : Prop :=
  ∃ i h, r.thread i = some h ∧ h.message.serverDid = server

/-- The deltas of every payload that was handed on are recorded once, and no others are; the
counters are those of the recordings, and the sums of what they add. -/
structure CountedOnce (r : StatsRun) : Prop where
  counters : r.collector =
    r.recorded.foldl (fun c x => c.recordDeltas x.delta x.now) StatsCollector.new
  resolves : ∀ mnemonic, (r.collector.entry mnemonic).resolves =
    (r.recorded.map (addedTo mnemonic DidStatsDelta.resolveDelta)).sum
  updates : ∀ mnemonic, (r.collector.entry mnemonic).updates =
    (r.recorded.map (addedTo mnemonic DidStatsDelta.updateDelta)).sum
  under_way : ∀ m, r.recordedOf m <+: kept m
  once : ∀ m ∈ r.delivered, (∀ i h, r.thread i = some h → h.message ≠ m) →
    r.recordedOf m = kept m
  no_other : ∀ m, m ∉ r.delivered → r.recordedOf m = []

/-- A refused payload has left the accepted number of its server as it was. -/
def RefusalsHarmless (r : StatsRun) : Prop :=
  ∀ x ∈ r.refusals, x.after = x.before

/-- The message may be handed on: no other of its server is being handled, it is not too
large, and its number tells whether it was handed on before.  A repeated message has not
the number of a restart, and a new one has it or a number above the last accepted one. -/
structure Acceptable (r : StatsRun) (message : SyncMessage) : Prop where
  alone : ¬r.Busy message.serverDid
  small : message.didDeltas.length ≤ maxDeltasPerSync
  repeated : message ∈ r.delivered → 0 < message.seq
  first : message ∉ r.delivered →
    message.seq = 0 ∨ ∀ last ∈ r.lastSeq.lookup message.serverDid, last < message.seq

/-- Messages of services are handed on when they may be. -/
def Orderly (r : StatsRun) : StatsEvent → Prop
  | .deliver server true _ => ∀ m rest, (r.edge server).link = m :: rest → r.Acceptable m
  | _ => True

end StatsRun

end Stats

end DidHosting
