import DidHosting.Common.Reference
import DidHosting.Control.Registry
import DidHosting.Control.ServerPush
import DidHosting.Support.Batches

/-!
# Resynchronization of a server

When a server registers, the control plane queues an update for each slot with a
published version that the server does not report to hold, and after them a delete for
each slot the server reports and the control plane does not publish.  A server that can
read batches gets the updates in batches.
-/

namespace DidHosting

/-! ## The code -/

structure ReportedDid where
  didId : Option String
  versionCount : ℕ
  disabled : Option Bool
deriving DecidableEq, Repr

def edgeIsCurrent (record : DidRecord) (reported : Option ReportedDid) : Bool :=
  match reported with
  | none => false
  | some have_ =>
      have_.didId.isSome && have_.didId == record.didId &&
        decide (record.versionCount ≤ have_.versionCount) &&
          (match have_.disabled with
          | none => true
          | some d => d == record.disabled)

/-- A message of the resynchronization, with its type. -/
inductive SyncMessage where
  | update (body : DidSyncUpdate)
  | batch (updates : List DidSyncUpdate)
  | delete (mnemonic : String)
deriving DecidableEq, Repr

def syncBatchMaxCount : ℕ := 50

def syncBatchMaxBytes : ℕ := 512 * 1024

/-- The serialization of a `DidSyncUpdate`. -/
def DidSyncUpdate.toJson (u : DidSyncUpdate) : Json :=
  .obj ([("mnemonic", .str u.mnemonic), ("didId", .str u.didId),
      ("logContent", .str u.logContent)] ++
    (match u.witnessContent with
    | some w => [("witnessContent", .str w)]
    | none => []) ++
      [("versionCount", .num (.posInt u.versionCount)), ("disabled", .bool u.disabled)])

/-- `body.to_string().len()`. -/
def DidSyncUpdate.byteSize (L : Libs) (u : DidSyncUpdate) : ℕ :=
  (L.toJsonString u.toJson).utf8ByteSize

/-- The variables of `sync_all_dids_to_server`: the slots seen so far that are published,
the messages queued so far, and the batch that is being collected. -/
structure Resync where
  published : List String
  queued : List SyncMessage
  pending : List DidSyncUpdate
  pendingBytes : ℕ

section Code

variable (L : Libs) (fits : DidSyncUpdate → Bool) (s : ControlStore)
  (reported : Table String ReportedDid) (batch : Bool)

/-- Queueing one update: by itself, or in a batch that is sent before the update would
breach a cap. -/
def Resync.queue (r : Resync) (body : DidSyncUpdate) : Resync :=
  if !batch then { r with queued := r.queued ++ [.update body] }
  else
    let sz := body.byteSize L
    let r : Resync :=
      if !r.pending.isEmpty && (decide (syncBatchMaxCount ≤ r.pending.length) ||
          decide (syncBatchMaxBytes < r.pendingBytes + sz)) then
        { r with queued := r.queued ++ [.batch r.pending], pending := [], pendingBytes := 0 }
      else r
    { r with pending := r.pending ++ [body], pendingBytes := r.pendingBytes + sz }

/-- The loop body, for one record of the store. -/
def Resync.visit (r : Resync) (record : DidRecord) : Resync :=
  if record.versionCount = 0 then r
  else
    let r : Resync := { r with published := record.mnemonic :: r.published }
    if edgeIsCurrent record (reported.lookup record.mnemonic) then r
    else
      match s.log record.mnemonic with
      | none => r
      | some logContent =>
          match syncUpdateBody fits record logContent (s.witness record.mnemonic) with
          | none => r
          | some body => r.queue L batch body

/-- The messages of `sync_all_dids_to_server`, in the order in which they are queued. -/
def resyncMessages : List SyncMessage :=
  let r := ((Table.rows s.ks.dids).map Prod.snd).foldl (Resync.visit L fits s reported batch)
    ⟨[], [], [], 0⟩
  let queued := if r.pending.isEmpty then r.queued else r.queued ++ [.batch r.pending]
  queued ++ (reported.keys.filter fun m => !r.published.contains m).map .delete

end Code

/-- `sync_all_dids_to_server`, for the registered instance of the server. -/
def syncAllDidsToServer (L : Libs) (fits : DidSyncUpdate → Bool) (s : ControlStore)
    (instance_ : Option Registry.ServiceInstance) (reported : Table String ReportedDid) :
    List SyncMessage :=
  resyncMessages L fits s reported (instance_.any (·.syncBatchCapable))

/-! ## What is to be sent -/

/-- The slots with a published version, in the order of the records. -/
def publishedSlots (records : List DidRecord) : List String :=
  records.filterMap fun record =>
    if record.versionCount = 0 then none else some record.mnemonic

section Spec

variable (fits : DidSyncUpdate → Bool) (s : ControlStore) (reported : Table String ReportedDid)

/-- The update for a slot that is published and not held as it is published. -/
def updateFor (record : DidRecord) : Option DidSyncUpdate :=
  if record.versionCount = 0 then none
  else if edgeIsCurrent record (reported.lookup record.mnemonic) then none
  else
    (s.log record.mnemonic).bind fun logContent =>
      syncUpdateBody fits record logContent (s.witness record.mnemonic)

def ControlStore.records (s : ControlStore) : List DidRecord :=
  (Table.rows s.ks.dids).map Prod.snd

/-- The pending updates, in the order of the records. -/
def pendingUpdates : List DidSyncUpdate :=
  s.records.filterMap (updateFor fits s reported)

/-- The reported slots that are not published. -/
def missedDeletes : List String :=
  reported.keys.filter fun m => !(publishedSlots s.records).contains m

end Spec

/-- The caps of a batch: the updates are not too many, and the serialized updates together
not too long, or there is only one. -/
def WithinCaps (L : Libs) (updates : List DidSyncUpdate) : Prop :=
  Batcher.Bounded (DidSyncUpdate.byteSize L) syncBatchMaxCount syncBatchMaxBytes updates

/-! ## The loop -/

section Loop

variable {L : Libs} {fits : DidSyncUpdate → Bool} {s : ControlStore}
  {reported : Table String ReportedDid} {batch : Bool}

/-- The slot is noted as published, and its update queued if there is one. -/
theorem visit_eq (r : Resync) (record : DidRecord) :
    r.visit L fits s reported batch record =
      let r : Resync := { r with published := (publishedSlots [record]) ++ r.published }
      match updateFor fits s reported record with
      | none => r
      | some body => r.queue L batch body := by
  unfold Resync.visit updateFor publishedSlots
  by_cases hzero : record.versionCount = 0
  · simp [hzero]
  · cases hcurrent : edgeIsCurrent record (reported.lookup record.mnemonic) with
    | true => simp [hzero]
    | false =>
        simp only [hzero, if_false, Bool.false_eq_true, List.filterMap_cons,
          List.filterMap_nil, List.singleton_append]
        cases s.log record.mnemonic with
        | none => rfl
        | some logContent =>
            rw [Option.bind_some]

theorem queue_published (r : Resync) (body : DidSyncUpdate) :
    (r.queue L batch body).published = r.published := by
  unfold Resync.queue
  split
  · rfl
  · simp only
    split <;> rfl

theorem foldl_published (records : List DidRecord) (r : Resync) (m : String) :
    m ∈ (records.foldl (Resync.visit L fits s reported batch) r).published ↔
      m ∈ publishedSlots records ∨ m ∈ r.published := by
  induction records generalizing r with
  | nil => simp [publishedSlots]
  | cons record records ih =>
      have hstep : (r.visit L fits s reported batch record).published =
          publishedSlots [record] ++ r.published := by
        rw [visit_eq]
        simp only
        cases updateFor fits s reported record with
        | none => rfl
        | some body => exact queue_published _ body
      have hcons : publishedSlots (record :: records) =
          publishedSlots [record] ++ publishedSlots records := by
        unfold publishedSlots
        rw [← List.filterMap_append, List.singleton_append]
      rw [List.foldl_cons, ih, hstep, hcons, List.mem_append, List.mem_append]
      tauto

/-- The variables with the batches `b` queued and collected. -/
def Resync.batched (published : List String) (b : Batcher DidSyncUpdate) : Resync :=
  ⟨published, b.sent.map .batch, b.pending, b.bytes⟩

theorem queue_batched (published : List String) (b : Batcher DidSyncUpdate)
    (body : DidSyncUpdate) :
    (Resync.batched published b).queue L true body =
      Resync.batched published
        (b.push (DidSyncUpdate.byteSize L) syncBatchMaxCount syncBatchMaxBytes body) := by
  unfold Resync.queue Batcher.push Resync.batched
  simp only [Bool.not_true, Bool.false_eq_true, if_false]
  cases hfull : Batcher.isFull (DidSyncUpdate.byteSize L) syncBatchMaxCount syncBatchMaxBytes b
      body with
  | true =>
      unfold Batcher.isFull at hfull
      rw [if_pos hfull]
      simp [Batcher.collect, Batcher.flush]
  | false =>
      unfold Batcher.isFull at hfull
      rw [if_neg (by rw [hfull]; decide)]
      rfl

/-- With batches, the loop pushes the pending updates. -/
theorem foldl_batched (records : List DidRecord) (published : List String)
    (b : Batcher DidSyncUpdate) :
    ∃ published', records.foldl (Resync.visit L fits s reported true)
        (Resync.batched published b) =
      Resync.batched published' ((records.filterMap (updateFor fits s reported)).foldl
        (Batcher.push (DidSyncUpdate.byteSize L) syncBatchMaxCount syncBatchMaxBytes) b) := by
  induction records generalizing published b with
  | nil => exact ⟨published, rfl⟩
  | cons record records ih =>
      rw [List.foldl_cons, visit_eq]
      cases hupdate : updateFor fits s reported record with
      | none =>
          rw [List.filterMap_cons_none hupdate]
          exact ih (publishedSlots [record] ++ published) b
      | some body =>
          rw [List.filterMap_cons_some hupdate, List.foldl_cons]
          have hqueue := queue_batched (L := L) (publishedSlots [record] ++ published) b body
          obtain ⟨published', htail⟩ := ih (publishedSlots [record] ++ published)
            (b.push (DidSyncUpdate.byteSize L) syncBatchMaxCount syncBatchMaxBytes body)
          refine ⟨published', ?_⟩
          rw [← htail, ← hqueue]
          rfl

/-- The last batch is queued behind the loop. -/
theorem queued_finish (published : List String) (b : Batcher DidSyncUpdate) :
    (if (Resync.batched published b).pending.isEmpty then (Resync.batched published b).queued
      else (Resync.batched published b).queued ++ [.batch (Resync.batched published b).pending]) =
      b.finish.map .batch := by
  unfold Resync.batched Batcher.finish Batcher.flush
  simp only
  split
  · rfl
  · rw [List.map_append]
    rfl

/-- Without batches, each update is queued by itself. -/
theorem foldl_single (records : List DidRecord) (published : List String)
    (queued : List SyncMessage) :
    ∃ published', records.foldl (Resync.visit L fits s reported false) ⟨published, queued, [], 0⟩ =
      ⟨published', queued ++ (records.filterMap (updateFor fits s reported)).map .update, [], 0⟩ := by
  induction records generalizing published queued with
  | nil => exact ⟨published, by simp⟩
  | cons record records ih =>
      rw [List.foldl_cons, visit_eq]
      cases hupdate : updateFor fits s reported record with
      | none =>
          rw [List.filterMap_cons_none hupdate]
          exact ih (publishedSlots [record] ++ published) queued
      | some body =>
          rw [List.filterMap_cons_some hupdate]
          obtain ⟨published', htail⟩ := ih (publishedSlots [record] ++ published)
            (queued ++ [.update body])
          refine ⟨published', ?_⟩
          rw [List.map_cons, List.append_cons, ← htail]
          rfl

end Loop

/-! ## The messages -/

section Messages

variable (L : Libs) (fits : DidSyncUpdate → Bool) (s : ControlStore)
  (reported : Table String ReportedDid)

theorem resync_deletes {batch : Bool} {r : Resync}
    (hr : s.records.foldl (Resync.visit L fits s reported batch) ⟨[], [], [], 0⟩ = r) :
    (reported.keys.filter fun m => !r.published.contains m) = missedDeletes s reported := by
  unfold missedDeletes
  refine List.filter_congr fun m _ => ?_
  have hmem := @foldl_published L fits s reported batch s.records ⟨[], [], [], 0⟩ m
  rw [hr] at hmem
  rw [Bool.eq_iff_iff]
  simp [hmem]

/-- The updates are all pending updates, in order and each once, by themselves or in
batches within the caps; the deletes follow. -/
theorem resync_sends_pending (instance_ : Option Registry.ServiceInstance) :
    ∃ updates : List SyncMessage,
      syncAllDidsToServer L fits s instance_ reported =
        updates ++ (missedDeletes s reported).map .delete ∧
      (missedDeletes s reported).Nodup ∧
      (instance_.any (·.syncBatchCapable) = false →
        updates = (pendingUpdates fits s reported).map .update) ∧
      (instance_.any (·.syncBatchCapable) = true →
        ∃ batches : List (List DidSyncUpdate), updates = batches.map .batch ∧
          batches.flatten = pendingUpdates fits s reported ∧
            ∀ batch ∈ batches, batch ≠ [] ∧ WithinCaps L batch) := by
  have hnodup : (missedDeletes s reported).Nodup := (AList.keys_nodup reported).filter _
  unfold syncAllDidsToServer
  cases instance_.any (·.syncBatchCapable) with
  | false =>
      obtain ⟨published, hloop⟩ := @foldl_single L fits s reported s.records [] []
      refine ⟨(pendingUpdates fits s reported).map .update, ?_, hnodup, fun _ => rfl, nofun⟩
      have hdeletes := resync_deletes L fits s reported hloop
      unfold resyncMessages
      rw [← ControlStore.records, hloop]
      simp only [List.isEmpty_nil, if_true, List.nil_append]
      rw [hdeletes]
      rfl
  | true =>
      obtain ⟨published, hloop⟩ := @foldl_batched L fits s reported s.records [] Batcher.empty
      have hstart : Resync.batched [] Batcher.empty = ⟨[], [], [], 0⟩ := rfl
      rw [hstart] at hloop
      have hinv : Batcher.Inv (DidSyncUpdate.byteSize L) syncBatchMaxCount syncBatchMaxBytes []
          Batcher.empty := Batcher.inv_empty
      obtain ⟨hflatten, hbounded⟩ :=
        (hinv.foldl (by decide) (pendingUpdates fits s reported)).finish
      rw [List.nil_append] at hflatten
      refine ⟨_, ?_, hnodup, nofun, fun _ => ⟨_, rfl, hflatten, hbounded⟩⟩
      have hdeletes := resync_deletes L fits s reported hloop
      unfold resyncMessages
      rw [← ControlStore.records, hloop]
      simp only
      rw [hdeletes, queued_finish]
      rfl

end Messages

/-! ## A server without domains -/

namespace ResyncSample

/-- A server that has just registered: it serves no domain yet. -/
def server : Registry.ServiceInstance where
  instanceId := "did_web_a"
  serviceType := .server
  label := none
  url := "https://a.example"
  status := .active
  lastHealthCheck := none
  registeredAt := 1000
  metadata := .obj []
  enabledMethods := ["webvh"]
  servedDomains := []
  protocolVersion := "1.0"
  advertisedServices := none
  servicesCheckedAt := none
  trustTaskCapable := true
  syncBatchCapable := false
  lastInboundTransport := none
  lastInboundAt := none
  lastOutboundTransport := none
  lastOutboundAt := none
  lastAckAt := none
  lastReconcileAt := none

/-- A slot of the domain `h.io` with one version. -/
def record (didId : Option String) : DidRecord where
  owner := "did:o"
  mnemonic := "al"
  createdAt := 1000
  updatedAt := 1000
  versionCount := 1
  didId := didId
  contentSize := 4
  disabled := false
  deletedAt := none
  method := .webvh
  domain := "h.io"
  services := none
  agentNames := []

/-- The store with that slot and its log. -/
def store (didId : Option String) : ControlStore where
  ks := { DidsKs.empty with
    dids := (∅ : Table String DidRecord).insert "al" (record didId)
    contentLog := (∅ : Table String String).insert "al" "log1" }
  acl := ∅
  domains := ∅

/-- What is sent to the server, which reports nothing. -/
def sent (didId : Option String) : List SyncMessage :=
  syncAllDidsToServer Reference.libs (fun _ => true) (store didId) (some server) ∅

end ResyncSample

open ResyncSample in
/-- The server is sent a slot of a domain it does not serve; a published slot without a
DID is not sent. -/
theorem resync_sends_other_domains :
    ((store (some "did:webvh:s:h.io:al")).records.filter
        fun r => server.servedDomains.contains r.domain) = [] ∧
      sent (some "did:webvh:s:h.io:al") =
        [.update ⟨"al", "did:webvh:s:h.io:al", "log1", none, 1, false⟩] ∧
          publishedSlots (store none).records = ["al"] ∧ sent none = [] := by
  decide +kernel

end DidHosting
