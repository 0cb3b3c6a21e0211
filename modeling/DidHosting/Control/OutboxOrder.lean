import DidHosting.Support.Fifo
import DidHosting.Control.OutboxRows

/-!
# The order of the outbox

Each target has a queue of its own: the rows whose key names it, in key order, and
the documents sent to it.  `TargetQueue` says what the operations do to one such
queue, on lists.  The store refines it, queue by queue, as long as every enqueue
draws a key beyond those queued for its target and no target's DID continues
another's.

The keys carry the clock of their enqueue.  When the clock stands still or goes
back, the key order is not the order of the enqueues.
-/

namespace DidHosting

open Text

/-! ## Keys -/

/-- The digits of a key's timestamp. -/
theorem colon_not_mem_padMicros (micros : ℕ) : ':' ∉ (padMicros micros).toList := by
  intro hmem
  rw [padMicros, String.toList_ofList, List.leftpad] at hmem
  rcases List.mem_append.mp hmem with hpad | hdigit
  · exact absurd (List.eq_of_mem_replicate hpad) (by decide)
  · have hdig := Nat.isDigit_of_mem_toDigits (by decide) (by decide) hdigit
    exact absurd hdig (by decide)

theorem colon_not_mem_shortUuid (uuid : ShortUuid) : ':' ∉ uuid.text.toList := by
  intro hmem
  rcases uuid.hex _ hmem with hdigit | hletter
  · exact absurd hdigit (by decide)
  · exact absurd hletter (by decide)

theorem targetOfKey_outboxKey (target : String) (micros : ℕ) (uuid : ShortUuid) :
    targetOfKey (outboxKey target micros uuid) = some target := by
  have hshape : outboxKey target micros uuid =
      "outbox:" ++ (target ++ String.singleton ':' ++ padMicros micros ++
        String.singleton ':' ++ uuid.text) := by
    simp only [outboxKey, String.append_assoc]
    rfl
  unfold targetOfKey
  rw [hshape, stripPrefix_append, Option.bind_some,
    rsplitOnce_append (colon_not_mem_shortUuid uuid), Option.bind_some,
    rsplitOnce_append (colon_not_mem_padMicros micros), Option.map_some]

theorem startsWith_append (p s : String) : startsWith p (p ++ s) = true := by
  simp [startsWith]

/-- A key is found under the prefix of its target. -/
theorem startsWith_outboxKey (target : String) (micros : ℕ) (uuid : ShortUuid) :
    startsWith (targetPrefix target) (outboxKey target micros uuid) = true ∧
      startsWith "outbox:" (outboxKey target micros uuid) = true := by
  constructor
  · have hshape : outboxKey target micros uuid =
        targetPrefix target ++ (padMicros micros ++ ":" ++ uuid.text) := by
      simp only [outboxKey, targetPrefix, String.append_assoc]
    rw [hshape]
    exact startsWith_append ..
  · have hshape : outboxKey target micros uuid =
        "outbox:" ++ (target ++ ":" ++ padMicros micros ++ ":" ++ uuid.text) := by
      simp only [outboxKey, String.append_assoc]
    rw [hshape]
    exact startsWith_append ..

/-! ## One queue -/

/-- The rows queued for one target and the documents sent to it. -/
@[ext]
structure TargetQueue where
  rows : List (String × OutboxEntry)
  sent : List Delivery

/-- The part of an operation that concerns one target. -/
inductive TargetOp where
  | enqueue (key : String) (entry : OutboxEntry)
  | work (ticks : List (ℕ × Send))
  | acknowledge (docId : String)
  | dropQueued (msgType : String) (superseded : Json → Bool)

/-- What of an operation concerns the target `t`. -/
def OutboxOp.at (t : String) : OutboxOp → Option TargetOp
  | .enqueue targetDid msgType body now micros uuidShort =>
      if targetDid = t then
        some (.enqueue (outboxKey targetDid micros uuidShort)
          (newEntry targetDid msgType body now))
      else none
  | .work ticks => some (.work (ticks.map fun tick => (tick.1, tick.2 t)))
  | .acknowledge signer docId => if signer = t then some (.acknowledge docId) else none
  | .dropQueued targetDid msgType superseded =>
      if targetDid = t then some (.dropQueued msgType superseded) else none

/-- The rows a drop takes. -/
def takes (msgType : String) (superseded : Json → Bool) (r : String × OutboxEntry) : Bool :=
  r.2.msgType = msgType && superseded r.2.body

/-- The text a failed send leaves on its row. -/
def failureText (err : String) : String :=
  match truncated err with
  | .ok text => text
  | .error _ => err

namespace TargetQueue

/-- One tick of a queue: rows past their budget leave the front, and the front row
is sent unless it waits.  An answer over HTTPS retires it at once. -/
def tick (now : ℕ) (send : Send) (sent : List Delivery) :
    List (String × OutboxEntry) → TargetQueue
  | [] => ⟨[], sent⟩
  | (key, entry) :: rest =>
      if exhausted entry now then tick now send sent rest
      else if headAction entry now = .wait then ⟨(key, entry) :: rest, sent⟩
      else
        match send.outcome with
        | .sent docId transport =>
            ⟨if transport = .https then rest
              else (key, sentEntry entry docId send.recordedAt) :: rest,
              sent ++ [⟨key, entry.targetDid, docId⟩]⟩
        | .failed err =>
            ⟨(key, failedEntry entry (failureText err) send.recordedAt) :: rest, sent⟩

/-- One tick after the other. -/
def ticks (q : TargetQueue) : List (ℕ × Send) → TargetQueue
  | [] => q
  | (now, send) :: rest => ticks (tick now send q.sent q.rows) rest

/-- What an operation does to a queue. -/
def step (q : TargetQueue) : TargetOp → TargetQueue
  | .enqueue key entry => { q with rows := q.rows ++ [(key, entry)] }
  | .work sends => q.ticks sends
  | .acknowledge docId => { q with rows := q.rows.eraseP fun r => r.2.awaitingAck = some docId }
  | .dropQueued msgType superseded =>
      { q with rows := q.rows.filter fun r => !takes msgType superseded r }

/-- The queue, with the history of the whole outbox. -/
def fifo (enqueued : List String) (q : TargetQueue) : Fifo String OutboxEntry :=
  ⟨enqueued, q.rows, q.sent.map Delivery.key⟩

/-- A row that awaits an acknowledgement. -/
def Awaiting (e : OutboxEntry) : Prop :=
  e.awaitingAck.isSome = true

theorem ordered_tick {enqueued : List String} (now : ℕ) (send : Send) (sent : List Delivery)
    (rows : List (String × OutboxEntry))
    (h : Fifo.Ordered Awaiting (fifo enqueued ⟨rows, sent⟩)) :
    Fifo.Ordered Awaiting (fifo enqueued (tick now send sent rows)) := by
  induction rows with
  | nil => exact h
  | cons row rest ih =>
      obtain ⟨key, entry⟩ := row
      unfold tick
      split
      · exact ih (h.shrink (List.sublist_cons_self _ _))
      · split
        · exact h
        · split
          · rename_i docId transport hsent
            have hsend : Fifo.Ordered Awaiting
                (fifo enqueued ⟨(key, entry) :: rest, sent ++ [⟨key, entry.targetDid, docId⟩]⟩) := by
              unfold fifo
              rw [List.map_append]
              exact h.send
            split
            · exact hsend.shrink (List.sublist_cons_self _ _)
            · exact hsend.rewrite _
          · exact h.rewrite _

theorem ordered_ticks {enqueued : List String} {q : TargetQueue} (sends : List (ℕ × Send))
    (h : Fifo.Ordered Awaiting (fifo enqueued q)) :
    Fifo.Ordered Awaiting (fifo enqueued (q.ticks sends)) := by
  induction sends generalizing q with
  | nil => exact h
  | cons t sends ih => exact ih (ordered_tick t.1 t.2 q.sent q.rows h)

end TargetQueue

/-! ## The queues of a store -/

namespace OutboxStore

/-- The rows queued for `t`. -/
def queued (s : OutboxStore) (t : String) : List (String × OutboxEntry) :=
  s.rows.scan fun key => targetOfKey key = some t

def targetQueue (s : OutboxStore) (t : String) : TargetQueue :=
  ⟨s.queued t, s.deliveries.filter fun d => d.targetDid = t⟩

/-- What is found under the prefix of `t` is queued for `t`. -/
def Clean (s : OutboxStore) (t : String) : Prop :=
  ∀ key e, s.row key = some e → startsWith (targetPrefix t) key = true → e.targetDid = t

/-- Every row is under a key of its target, and no queued target's DID continues
another's. -/
structure WellQueued (s : OutboxStore) : Prop where
  named : ∀ key e, s.row key = some e → targetOfKey key = some e.targetDid ∧
    startsWith (targetPrefix e.targetDid) key = true ∧ startsWith "outbox:" key = true
  apart : ∀ key e, s.row key = some e → s.Clean e.targetDid

/-- From `s` to `s'` no row has come. -/
def Shrinks (s s' : OutboxStore) : Prop :=
  ∀ key e', s'.row key = some e' → ∃ e, s.row key = some e ∧ e.targetDid = e'.targetDid

/-- From `s` to `s'` only the queue of `t` has changed, and no row has come. -/
structure Within (t : String) (s s' : OutboxStore) : Prop where
  rows : Shrinks s s'
  other : ∀ key, targetOfKey key ≠ some t → s'.row key = s.row key
  sent : ∃ ds : List Delivery, s'.deliveries = s.deliveries ++ ds ∧ ∀ d ∈ ds, d.targetDid = t

variable {s s' s'' : OutboxStore} {t : String}

theorem mem_queued {key : String} {e : OutboxEntry} :
    (key, e) ∈ s.queued t ↔ s.row key = some e ∧ targetOfKey key = some t := by
  rw [queued, Table.mem_scan, decide_eq_true_iff]
  rfl

theorem WellQueued.mem_queued (h : s.WellQueued) {key : String} {e : OutboxEntry} :
    (key, e) ∈ s.queued t ↔ s.row key = some e ∧ e.targetDid = t := by
  rw [OutboxStore.mem_queued]
  constructor
  · rintro ⟨hrow, hkey⟩
    exact ⟨hrow, Option.some.inj ((h.named key e hrow).1.symm.trans hkey)⟩
  · rintro ⟨hrow, ht⟩
    exact ⟨hrow, ht ▸ (h.named key e hrow).1⟩

/-- The rows listed for a target are those of its queue. -/
theorem WellQueued.pending_eq (h : s.WellQueued) (hclean : s.Clean t) :
    s.rows.scan (startsWith (targetPrefix t)) = s.queued t := by
  refine Table.scan_congr_range ?_
  intro key e hrow
  obtain ⟨hname, hpre, -⟩ := h.named key e hrow
  rw [Bool.eq_iff_iff, decide_eq_true_iff]
  constructor
  · intro hkey
    rw [hname, hclean key e hrow hkey]
  · intro hkey
    have ht : e.targetDid = t := Option.some.inj (hname.symm.trans hkey)
    rw [← ht]
    exact hpre

theorem Shrinks.trans (h : Shrinks s s') (h' : Shrinks s' s'') : Shrinks s s'' := by
  intro key e'' hrow
  obtain ⟨e', hrow', htarget'⟩ := h' key e'' hrow
  obtain ⟨e, hrow, htarget⟩ := h key e' hrow'
  exact ⟨e, hrow, htarget.trans htarget'⟩

theorem WellQueued.shrinks (h : s.WellQueued) (hs : Shrinks s s') : s'.WellQueued where
  named := by
    intro key e' hrow
    obtain ⟨e, hold, htarget⟩ := hs key e' hrow
    rw [← htarget]
    exact h.named key e hold
  apart := by
    intro key e' hrow key₂ e₂' hrow₂ hpre
    obtain ⟨e, hold, htarget⟩ := hs key e' hrow
    obtain ⟨e₂, hold₂, htarget₂⟩ := hs key₂ e₂' hrow₂
    rw [← htarget] at hpre ⊢
    rw [← htarget₂]
    exact h.apart key e hold key₂ e₂ hold₂ hpre

theorem Clean.shrinks {u : String} (h : s.Clean u) (hs : Shrinks s s') : s'.Clean u := by
  intro key e' hrow hpre
  obtain ⟨e, hold, htarget⟩ := hs key e' hrow
  rw [← htarget]
  exact h key e hold hpre

theorem Within.refl (t : String) (s : OutboxStore) : Within t s s where
  rows := fun _ e h => ⟨e, h, rfl⟩
  other := fun _ _ => rfl
  sent := ⟨[], (List.append_nil _).symm, fun _ h => absurd h List.not_mem_nil⟩

theorem Within.trans (h : Within t s s') (h' : Within t s' s'') : Within t s s'' where
  rows := h.rows.trans h'.rows
  other := fun key hkey => (h'.other key hkey).trans (h.other key hkey)
  sent := by
    obtain ⟨ds, heq, hds⟩ := h.sent
    obtain ⟨ds', heq', hds'⟩ := h'.sent
    refine ⟨ds ++ ds', by rw [heq', heq, List.append_assoc], ?_⟩
    intro d hd
    exact (List.mem_append.mp hd).elim (hds d) (hds' d)

theorem Within.targetQueue_ne (hw : Within t s s') {u : String} (hu : u ≠ t) :
    s'.targetQueue u = s.targetQueue u := by
  have hrows : s'.queued u = s.queued u := by
    refine Table.scan_congr ?_
    intro key hkey
    have hname : targetOfKey key = some u := of_decide_eq_true hkey
    refine hw.other key ?_
    rw [hname]
    exact fun heq => hu (Option.some.inj heq)
  obtain ⟨ds, heq, hds⟩ := hw.sent
  have hnone : ds.filter (fun d => d.targetDid = u) = [] := by
    rw [List.filter_eq_nil_iff]
    intro d hd
    rw [hds d hd, decide_eq_true_iff]
    exact hu.symm
  rw [targetQueue, targetQueue, hrows, heq, List.filter_append, hnone, List.append_nil]

theorem within_remove {key : String} (hkey : targetOfKey key = some t) :
    Within t s (commit (.remove key) s) where
  rows := by
    intro key' e' hrow
    rw [row_remove] at hrow
    split at hrow
    · contradiction
    · exact ⟨e', hrow, rfl⟩
  other := by
    intro key' hne
    rw [row_remove, if_neg]
    rintro rfl
    exact hne hkey
  sent := ⟨[], (List.append_nil _).symm, fun _ h => absurd h List.not_mem_nil⟩

theorem within_rewrite {key : String} {e e' : OutboxEntry} (hkey : targetOfKey key = some t)
    (hrow : s.row key = some e) (htarget : e.targetDid = e'.targetDid) :
    Within t s (commit (.insert key e') s) where
  rows := by
    intro key' e'' hrow'
    rw [row_insert] at hrow'
    split at hrow'
    · rename_i hk
      subst hk
      cases hrow'
      exact ⟨e, hrow, htarget⟩
    · exact ⟨e'', hrow', rfl⟩
  other := by
    intro key' hne
    rw [row_insert, if_neg]
    rintro rfl
    exact hne hkey
  sent := ⟨[], (List.append_nil _).symm, fun _ h => absurd h List.not_mem_nil⟩

theorem within_deliver {d : Delivery} (hd : d.targetDid = t) :
    Within t s (commit (.deliver d) s) where
  rows := fun _ e h => ⟨e, h, rfl⟩
  other := fun _ _ => rfl
  sent := ⟨[d], rfl, fun d' hd' => by rw [List.mem_singleton.mp hd', hd]⟩

end OutboxStore

/-! ## What the operations do to a queue -/

section Refinement

open OutboxStore

variable {s : OutboxStore} {t : String}

theorem run_rewriteIfPresent {key : String} {e : OutboxEntry} (hrow : s.row key = some e)
    (next : OutboxEntry) :
    (rewriteIfPresent key next).run s = (.ok (), commit (.insert key next) s) := by
  have hheld : (if (s.row key).isSome = true then some (OutboxWrite.insert key next)
      else none) = some (.insert key next) := by
    rw [hrow]
    rfl
  change (Prog.bind (Prog.writeOpt (if (s.row key).isSome = true then
    some (OutboxWrite.insert key next) else none)) _).run s = _
  rw [hheld]
  rfl

/-- The first row that awaits the document is retired. -/
theorem run_ackLoop (docId : String) (pending : List (String × OutboxEntry)) (s : OutboxStore) :
    ∃ found, (ackLoop docId pending).run s = (.ok found,
      match pending.find? fun r => r.2.awaitingAck = some docId with
      | some r => commit (.remove r.1) s
      | none => s) := by
  induction pending with
  | nil => exact ⟨false, rfl⟩
  | cons row pending ih =>
      obtain ⟨key, e⟩ := row
      by_cases hdoc : e.awaitingAck = some docId
      · refine ⟨true, ?_⟩
        rw [List.find?_cons_of_pos (by simpa using hdoc), ackLoop, if_pos hdoc]
        rfl
      · rw [List.find?_cons_of_neg (by simpa using hdoc), ackLoop, if_neg hdoc]
        exact ih

/-- An acknowledgement takes the row that awaits it out of the queue. -/
theorem run_acknowledge (h : s.WellQueued) (hclean : s.Clean t) (docId : String) :
    ∃ found s', (acknowledge t docId).run s = (.ok found, s') ∧ Within t s s' ∧
      s'.targetQueue t = (s.targetQueue t).step (.acknowledge docId) := by
  have hrun : (acknowledge t docId).run s = (ackLoop docId (s.queued t)).run s := by
    rw [← h.pending_eq hclean]
    rfl
  obtain ⟨found, hloop⟩ := run_ackLoop docId (s.queued t) s
  rw [hrun, hloop]
  cases hfind : (s.queued t).find? fun r => r.2.awaitingAck = some docId with
  | none =>
      refine ⟨found, s, rfl, Within.refl t s, ?_⟩
      exact TargetQueue.ext (List.eraseP_of_forall_not (List.find?_eq_none.mp hfind)).symm rfl
  | some row =>
      have hmem : (row.1, row.2) ∈ s.queued t := List.mem_of_find?_eq_some hfind
      refine ⟨found, _, rfl, within_remove (mem_queued.mp hmem).2, ?_⟩
      exact TargetQueue.ext (Table.scan_erase_of_find hfind) rfl

theorem dropLoop_cons (msgType : String) (superseded : Json → Bool) (dropped : ℕ)
    (r : String × OutboxEntry) (rest : List (String × OutboxEntry)) :
    dropLoop msgType superseded dropped (r :: rest) =
      if takes msgType superseded r = true then
        (do
          retire r.1
          dropLoop msgType superseded (dropped + 1) rest)
      else dropLoop msgType superseded dropped rest :=
  rfl

theorem run_dropLoop (msgType : String) (superseded : Json → Bool) (dropped : ℕ)
    (pending : List (String × OutboxEntry)) (hnames : ∀ r ∈ pending, targetOfKey r.1 = some t)
    (s : OutboxStore) :
    ∃ n s', (dropLoop msgType superseded dropped pending).run s = (.ok n, s') ∧ Within t s s' ∧
      s'.deliveries = s.deliveries ∧
      ∀ key, s'.row key =
        if key ∈ (pending.filter (takes msgType superseded)).map Prod.fst then none
        else s.row key := by
  induction pending generalizing s dropped with
  | nil => exact ⟨dropped, s, rfl, Within.refl t s, rfl, fun key => by simp⟩
  | cons row pending ih =>
      obtain ⟨key, e⟩ := row
      have hrest : ∀ r ∈ pending, targetOfKey r.1 = some t :=
        fun r hr => hnames r (List.mem_cons_of_mem _ hr)
      by_cases hmatch : takes msgType superseded (key, e) = true
      · obtain ⟨n, s', hrun, hwithin, hsent, hrows⟩ :=
          ih (dropped + 1) hrest (commit (.remove key) s)
        refine ⟨n, s', ?_, ?_, hsent, ?_⟩
        · rw [dropLoop_cons, if_pos hmatch]
          exact hrun
        · exact (within_remove (hnames (key, e) List.mem_cons_self)).trans hwithin
        · intro key'
          rw [hrows, row_remove, List.filter_cons_of_pos hmatch, List.map_cons]
          by_cases hk : key' = key
          · simp [hk]
          · simp only [List.mem_cons, hk, if_false, false_or]
      · obtain ⟨n, s', hrun, hwithin, hsent, hrows⟩ := ih dropped hrest s
        refine ⟨n, s', ?_, hwithin, hsent, ?_⟩
        · rw [dropLoop_cons, if_neg hmatch]
          exact hrun
        · intro key'
          rw [hrows, List.filter_cons_of_neg hmatch]

/-- A drop takes the matching rows out of the queue. -/
theorem run_dropQueued (h : s.WellQueued) (hclean : s.Clean t) (msgType : String)
    (superseded : Json → Bool) :
    ∃ n s', (dropQueued t msgType superseded).run s = (.ok n, s') ∧ Within t s s' ∧
      s'.targetQueue t = (s.targetQueue t).step (.dropQueued msgType superseded) := by
  have hrun : (dropQueued t msgType superseded).run s =
      (dropLoop msgType superseded 0 (s.queued t)).run s := by
    rw [← h.pending_eq hclean]
    rfl
  have hnames : ∀ r ∈ s.queued t, targetOfKey r.1 = some t :=
    fun r hr => (mem_queued.mp hr).2
  obtain ⟨n, s', hloop, hwithin, hsent, hrows⟩ :=
    run_dropLoop msgType superseded 0 (s.queued t) hnames s
  refine ⟨n, s', hrun.trans hloop, hwithin, TargetQueue.ext ?_ ?_⟩
  · change s'.queued t = (s.queued t).filter fun r => !takes msgType superseded r
    refine Table.scan_eq_of_mem_iff ((Table.pairwise_scan _ s.rows).filter _) ?_
    intro key e
    have hkeys : s.row key = some e →
        (key ∈ ((s.queued t).filter (takes msgType superseded)).map Prod.fst ↔
          (targetOfKey key = some t ∧ takes msgType superseded (key, e) = true)) := by
      intro hrow
      rw [List.mem_map]
      constructor
      · rintro ⟨⟨key', e'⟩, hmem, rfl⟩
        obtain ⟨hqueued, hmatch⟩ := List.mem_filter.mp hmem
        obtain ⟨hrow', hname⟩ := mem_queued.mp hqueued
        rw [hrow] at hrow'
        cases hrow'
        exact ⟨hname, hmatch⟩
      · rintro ⟨hname, hmatch⟩
        exact ⟨(key, e), List.mem_filter.mpr ⟨mem_queued.mpr ⟨hrow, hname⟩, hmatch⟩, rfl⟩
    rw [List.mem_filter]
    have hlookup : s'.rows.lookup key = _ := hrows key
    rw [hlookup]
    constructor
    · rintro ⟨hqueued, hkept⟩
      obtain ⟨hrow, hname⟩ := mem_queued.mp hqueued
      refine ⟨?_, decide_eq_true hname⟩
      rw [if_neg, hrow]
      intro hmem
      rw [((hkeys hrow).mp hmem).2] at hkept
      contradiction
    · rintro ⟨hkept, hname⟩
      split at hkept
      · contradiction
      · rename_i hnot
        have hname := of_decide_eq_true hname
        refine ⟨mem_queued.mpr ⟨hkept, hname⟩, ?_⟩
        rw [Bool.not_eq_true']
        exact Bool.eq_false_iff.mpr fun hmatch => hnot ((hkeys hkept).mpr ⟨hname, hmatch⟩)
  · rw [targetQueue, hsent]
    rfl

/-- Every failed send leaves a text that can be cut to size. -/
def Cuttable (send : Send) : Prop :=
  ∀ err, send.outcome = .failed err → ∃ text, truncated err = .ok text

theorem run_recordFailure {key err : String} {e : OutboxEntry} {now : ℕ}
    (hrow : s.row key = some e) (hcut : ∃ text, truncated err = .ok text) :
    (recordFailure key e err now).run s =
      (.ok (), commit (.insert key (failedEntry e (failureText err) now)) s) := by
  obtain ⟨text, htext⟩ := hcut
  have hfailure : failureText err = text := by
    unfold failureText
    rw [htext]
  unfold recordFailure
  rw [Prog.run_check_bind_ok _ text htext, run_rewriteIfPresent hrow, hfailure]

/-- The front row goes out, is written back, and is retired by an answer over
HTTPS. -/
theorem run_sent {key : String} {entry : OutboxEntry} {rest : List (String × OutboxEntry)}
    {now : ℕ} (h : s.WellQueued) (hclean : s.Clean t) (hqueue : s.queued t = (key, entry) :: rest)
    (docId : String) (transport : PeerTransport) (report : TickReport) :
    ∃ s', (do
        Prog.write (.deliver ⟨key, entry.targetDid, docId⟩)
        recordSent key entry docId now
        selfAcknowledge t docId transport
        return report : OutboxM TickReport).run s = (.ok report, s') ∧ Within t s s' ∧
      s'.targetQueue t =
        ⟨if transport = .https then rest else (key, sentEntry entry docId now) :: rest,
          (s.targetQueue t).sent ++ [⟨key, entry.targetDid, docId⟩]⟩ := by
  have hmem : (key, entry) ∈ s.queued t := hqueue ▸ List.mem_cons_self
  obtain ⟨hrow, hname⟩ := mem_queued.mp hmem
  have htarget : entry.targetDid = t := (h.mem_queued.mp hmem).2
  let d : Delivery := ⟨key, entry.targetDid, docId⟩
  let s₁ := commit (.deliver d) s
  let s₂ := commit (.insert key (sentEntry entry docId now)) s₁
  have hrow₁ : s₁.row key = some entry := hrow
  have hrecord : (recordSent key entry docId now).run s₁ = (.ok (), s₂) :=
    run_rewriteIfPresent hrow₁ _
  have hwithin : Within t s s₂ :=
    (within_deliver htarget).trans (within_rewrite hname hrow₁ rfl)
  have hsent : s₂.deliveries.filter (fun d => d.targetDid = t) =
      (s.targetQueue t).sent ++ [d] := by
    have hd : [d].filter (fun d => d.targetDid = t) = [d] :=
      List.filter_eq_self.mpr fun d' hd' => by
        rw [List.mem_singleton.mp hd']
        exact decide_eq_true htarget
    change (s.deliveries ++ [d]).filter (fun d => d.targetDid = t) = _
    rw [List.filter_append, hd]
    rfl
  have hrows : s₂.queued t = (key, sentEntry entry docId now) :: rest :=
    Table.scan_insert_head hqueue _
  have hdeliver : (Prog.write (.deliver d) : OutboxM Unit).run s = (.ok (), s₁) := rfl
  rw [Prog.run_bind_ok hdeliver, Prog.run_bind_ok hrecord]
  unfold selfAcknowledge
  by_cases htls : transport = .https
  · obtain ⟨found, s', hack, hwithin', hq⟩ := run_acknowledge
      (h.shrinks hwithin.rows) (hclean.shrinks hwithin.rows) docId
    refine ⟨s', ?_, hwithin.trans hwithin', ?_⟩
    · rw [if_pos htls, Prog.run_bind_ok (Prog.run_bind_ok hack)]
      rfl
    · rw [hq, if_pos htls]
      refine TargetQueue.ext ?_ hsent
      change (s₂.queued t).eraseP (fun r => r.2.awaitingAck = some docId) = rest
      rw [hrows]
      exact List.eraseP_cons_of_pos (decide_eq_true rfl)
  · refine ⟨s₂, ?_, hwithin, ?_⟩
    · rw [if_neg htls]
      rfl
    · rw [if_neg htls]
      exact TargetQueue.ext hrows hsent

theorem run_tickRows (now : ℕ) {send : Send} (hcut : Cuttable send)
    {pending : List (String × OutboxEntry)} (h : s.WellQueued) (hclean : s.Clean t)
    (hqueue : s.queued t = pending) (report : TickReport) :
    ∃ r s', (tickRows now send t report pending).run s = (.ok r, s') ∧ Within t s s' ∧
      s'.targetQueue t = TargetQueue.tick now send (s.targetQueue t).sent pending := by
  induction pending generalizing s report with
  | nil => exact ⟨report, s, rfl, Within.refl t s, TargetQueue.ext hqueue rfl⟩
  | cons row rest ih =>
      obtain ⟨key, entry⟩ := row
      have hmem : (key, entry) ∈ s.queued t := hqueue ▸ List.mem_cons_self
      obtain ⟨hrow, hname⟩ := mem_queued.mp hmem
      have htarget : entry.targetDid = t := (h.mem_queued.mp hmem).2
      by_cases hspent : exhausted entry now = true
      · have hwithin : Within t s (commit (.remove key) s) := within_remove hname
        obtain ⟨r, s', hrun, hwithin', hq⟩ := ih (h.shrinks hwithin.rows)
          (hclean.shrinks hwithin.rows) (Table.scan_erase_head hqueue)
          { report with dropped := report.dropped + 1 }
        refine ⟨r, s', ?_, hwithin.trans hwithin', ?_⟩
        · rw [tickRows, if_pos hspent]
          exact hrun
        · rw [hq, TargetQueue.tick, if_pos hspent]
          rfl
      · by_cases hwait : headAction entry now = .wait
        · refine ⟨{ report with deferred := report.deferred + 1 }, s, ?_, Within.refl t s, ?_⟩
          · rw [tickRows, if_neg hspent, if_pos hwait]
            rfl
          · rw [TargetQueue.tick, if_neg hspent, if_pos hwait]
            exact TargetQueue.ext hqueue rfl
        · rw [tickRows, if_neg hspent, if_neg hwait, TargetQueue.tick, if_neg hspent,
            if_neg hwait]
          cases houtcome : send.outcome with
          | failed err =>
              refine ⟨_, _, Prog.run_bind_ok (run_recordFailure hrow (hcut err houtcome)),
                within_rewrite hname hrow rfl, ?_⟩
              exact TargetQueue.ext (Table.scan_insert_head hqueue _) rfl
          | sent docId transport =>
              obtain ⟨s', hrun, hwithin, hq⟩ := run_sent h hclean hqueue
                docId transport { report with sent := report.sent + 1 }
              exact ⟨_, s', hrun, hwithin, hq⟩

theorem run_tickTargets (now : ℕ) {sends : String → Send} (hcut : ∀ t, Cuttable (sends t))
    (targets : List String) (hnodup : targets.Nodup) (h : s.WellQueued)
    (hclean : ∀ t ∈ targets, s.Clean t) (report : TickReport) :
    ∃ r s', (tickTargets now sends report targets).run s = (.ok r, s') ∧ Shrinks s s' ∧
      ∀ t, s'.targetQueue t =
        if t ∈ targets then
          TargetQueue.tick now (sends t) (s.targetQueue t).sent (s.targetQueue t).rows
        else s.targetQueue t := by
  induction targets generalizing s report with
  | nil => exact ⟨report, s, rfl, fun _ e h => ⟨e, h, rfl⟩, fun t => by simp⟩
  | cons target rest ih =>
      obtain ⟨hnew, hrest⟩ := List.nodup_cons.mp hnodup
      have hpending : (listPendingForTarget target : OutboxQ _).eval s = .ok (s.queued target) := by
        rw [← h.pending_eq (hclean target List.mem_cons_self)]
        rfl
      obtain ⟨r₁, s₁, hrun₁, hwithin, hq₁⟩ := run_tickRows now (hcut target) h
        (hclean target List.mem_cons_self) rfl report
      obtain ⟨r, s', hrun, hshrinks, hq⟩ := ih hrest (h.shrinks hwithin.rows)
        (fun t ht => (hclean t (List.mem_cons_of_mem _ ht)).shrinks hwithin.rows) r₁
      refine ⟨r, s', ?_, hwithin.rows.trans hshrinks, ?_⟩
      · rw [tickTargets, Prog.run_bind, Prog.run_liftM, hpending]
        exact (Prog.run_bind_ok hrun₁).trans hrun
      · intro t
        rw [hq]
        by_cases ht : t = target
        · subst ht
          rw [if_neg hnew, if_pos List.mem_cons_self, hq₁]
          rfl
        · simp only [hwithin.targetQueue_ne ht, List.mem_cons, ht, false_or]

theorem mem_listTargets_of_row (h : s.WellQueued) {key : String} {e : OutboxEntry}
    (hrow : s.row key = some e) :
    e.targetDid ∈ (((s.rows.scan (startsWith "outbox:")).filterMap
      fun r => targetOfKey r.1).insertionSort (· ≤ ·)).dedup := by
  obtain ⟨hname, -, hpre⟩ := h.named key e hrow
  rw [List.mem_dedup, List.mem_insertionSort, List.mem_filterMap]
  exact ⟨(key, e), Table.mem_scan.mpr ⟨hrow, hpre⟩, hname⟩

theorem run_runTick (now : ℕ) {sends : String → Send} (hcut : ∀ t, Cuttable (sends t))
    (h : s.WellQueued) :
    ∃ r s', (runTick now sends).run s = (.ok r, s') ∧ Shrinks s s' ∧
      ∀ t, s'.targetQueue t =
        TargetQueue.tick now (sends t) (s.targetQueue t).sent (s.targetQueue t).rows := by
  let targets := (((s.rows.scan (startsWith "outbox:")).filterMap
    fun r => targetOfKey r.1).insertionSort (· ≤ ·)).dedup
  have hclean : ∀ t ∈ targets, s.Clean t := by
    intro t ht
    obtain ⟨key, e, hrow, hname⟩ := mem_listTargets ht
    have htarget : e.targetDid = t :=
      Option.some.inj ((h.named key e hrow).1.symm.trans hname)
    exact htarget ▸ h.apart key e hrow
  obtain ⟨r, s', hrun, hshrinks, hq⟩ := run_tickTargets now hcut targets
    (List.nodup_dedup _) h hclean ⟨0, 0, 0⟩
  refine ⟨r, s', hrun, hshrinks, ?_⟩
  intro t
  rw [hq]
  by_cases ht : t ∈ targets
  · rw [if_pos ht]
  · -- nothing is queued for a target that is not listed
    have hnone : s.queued t = [] := by
      rw [List.eq_nil_iff_forall_not_mem]
      rintro ⟨key, e⟩ hmem
      obtain ⟨hrow, htarget⟩ := h.mem_queued.mp hmem
      exact ht (htarget ▸ mem_listTargets_of_row h hrow)
    rw [if_neg ht, show (s.targetQueue t).rows = [] from hnone]
    exact TargetQueue.ext hnone rfl

theorem run_runOutboxLoop (ticks : List Tick)
    (hcut : ∀ tick ∈ ticks, ∀ t, Cuttable (tick.2 t)) (h : s.WellQueued) :
    ∃ s', (runOutboxLoop ticks).run s = (.ok (), s') ∧ Shrinks s s' ∧
      ∀ t, s'.targetQueue t =
        (s.targetQueue t).ticks (ticks.map fun tick => (tick.1, tick.2 t)) := by
  induction ticks generalizing s with
  | nil => exact ⟨s, rfl, fun _ e h => ⟨e, h, rfl⟩, fun _ => rfl⟩
  | cons tick ticks ih =>
      obtain ⟨now, sends⟩ := tick
      obtain ⟨r, s₁, hrun₁, hshrinks₁, hq₁⟩ :=
        run_runTick now (hcut (now, sends) List.mem_cons_self) h
      obtain ⟨s', hrun, hshrinks, hq⟩ :=
        ih (fun tick htick => hcut tick (List.mem_cons_of_mem _ htick)) (h.shrinks hshrinks₁)
      refine ⟨s', ?_, hshrinks₁.trans hshrinks, ?_⟩
      · exact (Prog.run_bind_ok hrun₁).trans hrun
      · intro t
        rw [hq, hq₁]
        rfl

end Refinement

/-! ## Runs -/

/-- The outbox and the keys of its enqueues, oldest first. -/
structure OutboxRun where
  store : OutboxStore
  enqueued : List String

namespace OutboxRun

open OutboxStore

/-- An outbox without rows. -/
def start : OutboxRun := ⟨⟨∅, []⟩, []⟩

/-- One operation after the other. -/
def step (r : OutboxRun) (op : OutboxOp) : OutboxRun :=
  ⟨(op.prog.run r.store).2, r.enqueued ++ (op.added.map Prod.fst).toList⟩

theorem step_store (r : OutboxRun) (op : OutboxOp) :
    (r.step op).store = (op.prog.run r.store).2 :=
  rfl

/-- The state after the operations. -/
abbrev after (ops : List OutboxOp) : OutboxRun :=
  Run.exec step start ops

/-- An enqueue draws a new key beyond those queued for its target, the error texts
can be cut to size, and no DID continues that of a queued row's target. -/
def Orderly (r : OutboxRun) : OutboxOp → Prop
  | .enqueue targetDid _ _ _ micros uuidShort =>
      outboxKey targetDid micros uuidShort ∉ r.enqueued ∧
      (∀ key e, r.store.row key = some e → e.targetDid = targetDid →
        key < outboxKey targetDid micros uuidShort) ∧
      r.store.Clean targetDid ∧
      ∀ key e, r.store.row key = some e →
        startsWith (targetPrefix e.targetDid) (outboxKey targetDid micros uuidShort) = true →
        e.targetDid = targetDid
  | .work ticks => ∀ tick ∈ ticks, ∀ t, Cuttable (tick.2 t)
  | .acknowledge signer _ => r.store.Clean signer
  | .dropQueued targetDid _ _ => r.store.Clean targetDid

/-- What holds along an orderly run. -/
structure Inv (r : OutboxRun) : Prop where
  rows : r.store.WellQueued
  ordered : ∀ t, Fifo.Ordered TargetQueue.Awaiting ((r.store.targetQueue t).fifo r.enqueued)

theorem inv_start : Inv start where
  rows := ⟨fun _ _ h => (nomatch h), fun _ _ h => (nomatch h)⟩
  ordered := fun _ => Fifo.ordered_empty

variable {r : OutboxRun}

/-- An enqueue for a target whose DID continues no other, and is not continued. -/
theorem wellQueued_enqueue (h : r.store.WellQueued) {targetDid : String}
    (msgType : String) (body : Json) (now : ℕ) {micros : ℕ} {uuidShort : ShortUuid}
    (hclean : r.store.Clean targetDid)
    (hother : ∀ key e, r.store.row key = some e →
      startsWith (targetPrefix e.targetDid) (outboxKey targetDid micros uuidShort) = true →
      e.targetDid = targetDid) :
    (r.step (.enqueue targetDid msgType body now micros uuidShort)).store.WellQueued := by
  have hpre := startsWith_outboxKey targetDid micros uuidShort
  -- a row of the new store is the new one or an old one
  have hcases : ∀ key e, (commit (.insert (outboxKey targetDid micros uuidShort)
      (newEntry targetDid msgType body now)) r.store).row key = some e →
      (key = outboxKey targetDid micros uuidShort ∧ e.targetDid = targetDid) ∨
        r.store.row key = some e := by
    intro key e hrow
    rw [row_insert] at hrow
    split at hrow
    · rename_i hk
      cases hrow
      exact Or.inl ⟨hk, rfl⟩
    · exact Or.inr hrow
  refine ⟨?_, ?_⟩
  · intro key e hrow
    rcases hcases key e hrow with ⟨rfl, htarget⟩ | hold
    · rw [htarget]
      exact ⟨targetOfKey_outboxKey .., hpre⟩
    · exact h.named key e hold
  · intro key e hrow key₂ e₂ hrow₂ hkey₂
    rcases hcases key e hrow with ⟨-, htarget⟩ | hold
    · rw [htarget] at hkey₂ ⊢
      rcases hcases key₂ e₂ hrow₂ with ⟨-, htarget₂⟩ | hold₂
      · exact htarget₂
      · exact hclean key₂ e₂ hold₂ hkey₂
    · rcases hcases key₂ e₂ hrow₂ with ⟨rfl, htarget₂⟩ | hold₂
      · rw [htarget₂]
        exact (hother key e hold hkey₂).symm
      · exact h.apart key e hold key₂ e₂ hold₂ hkey₂

/-- An orderly enqueue goes to the back of its target's queue. -/
theorem targetQueue_enqueue (h : r.store.WellQueued) {targetDid msgType : String} {body : Json}
    {now micros : ℕ} {uuidShort : ShortUuid}
    (hop : r.Orderly (.enqueue targetDid msgType body now micros uuidShort)) (t : String) :
    (r.step (.enqueue targetDid msgType body now micros uuidShort)).store.targetQueue t =
      if targetDid = t then
        (r.store.targetQueue t).step (.enqueue (outboxKey targetDid micros uuidShort)
          (newEntry targetDid msgType body now))
      else r.store.targetQueue t := by
  have hname := targetOfKey_outboxKey targetDid micros uuidShort
  by_cases ht : targetDid = t
  · subst ht
    rw [if_pos rfl]
    have hlast : ∀ row ∈ r.store.queued targetDid,
        row.1 < outboxKey targetDid micros uuidShort := by
      rintro ⟨key, e⟩ hmem
      obtain ⟨hrow, htarget⟩ := h.mem_queued.mp hmem
      exact hop.2.1 key e hrow htarget
    exact TargetQueue.ext (Table.scan_insert_last
      (p := fun key => targetOfKey key = some targetDid) (decide_eq_true hname) hlast _) rfl
  · rw [if_neg ht]
    have hrows : ∀ key, decide (targetOfKey key = some t) = true →
        (commit (.insert (outboxKey targetDid micros uuidShort)
          (newEntry targetDid msgType body now)) r.store).row key = r.store.row key := by
      intro key hkey
      rw [row_insert, if_neg]
      rintro rfl
      exact ht (Option.some.inj (hname.symm.trans (of_decide_eq_true hkey)))
    exact TargetQueue.ext (Table.scan_congr hrows) rfl

/-- An orderly operation does to each queue what the part of it that concerns the
target says. -/
theorem step_refines (h : r.store.WellQueued) {op : OutboxOp} (hop : r.Orderly op) :
    (r.step op).store.WellQueued ∧ ∀ t, (r.step op).store.targetQueue t =
      (op.at t).elim (r.store.targetQueue t) (r.store.targetQueue t).step := by
  cases op with
  | enqueue targetDid msgType body now micros uuidShort =>
      refine ⟨wellQueued_enqueue h msgType body now hop.2.2.1 hop.2.2.2, ?_⟩
      intro t
      rw [targetQueue_enqueue h hop t, OutboxOp.at]
      split <;> rfl
  | work ticks =>
      obtain ⟨s', hrun, hshrinks, hq⟩ := run_runOutboxLoop ticks hop h
      have hstore : (r.step (.work ticks)).store = s' := congrArg Prod.snd hrun
      rw [hstore]
      exact ⟨h.shrinks hshrinks, hq⟩
  | acknowledge signer docId =>
      obtain ⟨found, s', hrun, hwithin, hq⟩ := run_acknowledge h hop docId
      have hstore : (r.step (.acknowledge signer docId)).store = s' :=
        congrArg Prod.snd (Prog.run_bind_ok hrun)
      rw [hstore]
      refine ⟨h.shrinks hwithin.rows, ?_⟩
      intro t
      rw [OutboxOp.at]
      by_cases ht : signer = t
      · subst ht
        rw [if_pos rfl, hq]
        rfl
      · rw [if_neg ht, hwithin.targetQueue_ne (Ne.symm ht)]
        rfl
  | dropQueued targetDid msgType superseded =>
      obtain ⟨n, s', hrun, hwithin, hq⟩ := run_dropQueued h hop msgType superseded
      have hstore : (r.step (.dropQueued targetDid msgType superseded)).store = s' :=
        congrArg Prod.snd (Prog.run_bind_ok hrun)
      rw [hstore]
      refine ⟨h.shrinks hwithin.rows, ?_⟩
      intro t
      rw [OutboxOp.at]
      by_cases ht : targetDid = t
      · subst ht
        rw [if_pos rfl, hq]
        rfl
      · rw [if_neg ht, hwithin.targetQueue_ne (Ne.symm ht)]
        rfl

/-- An orderly operation keeps the queues in order. -/
theorem inv_step {op : OutboxOp} (hop : r.Orderly op) (h : Inv r) : Inv (r.step op) := by
  obtain ⟨hrows, hq⟩ := step_refines h.rows hop
  refine ⟨hrows, ?_⟩
  intro t
  rw [hq]
  cases op with
  | enqueue targetDid msgType body now micros uuidShort =>
      have hfresh : outboxKey targetDid micros uuidShort ∉ r.enqueued := hop.1
      rw [OutboxOp.at]
      split
      · exact (h.ordered t).push hfresh (by simp [TargetQueue.Awaiting, newEntry])
      · exact (h.ordered t).pass hfresh
  | work ticks =>
      have hsame : (r.step (.work ticks)).enqueued = r.enqueued := List.append_nil _
      rw [hsame]
      exact TargetQueue.ordered_ticks _ (h.ordered t)
  | acknowledge signer docId =>
      have hsame : (r.step (.acknowledge signer docId)).enqueued = r.enqueued := List.append_nil _
      rw [hsame, OutboxOp.at]
      split
      · exact (h.ordered t).shrink List.eraseP_sublist
      · exact h.ordered t
  | dropQueued targetDid msgType superseded =>
      have hsame : (r.step (.dropQueued targetDid msgType superseded)).enqueued = r.enqueued :=
        List.append_nil _
      rw [hsame, OutboxOp.at]
      split
      · exact (h.ordered t).shrink List.filter_sublist
      · exact h.ordered t

/-- The queue of a target is that of the operations that concern it. -/
theorem exec_refines {ops : List OutboxOp} (h : r.store.WellQueued)
    (hops : Run.Meets step Orderly r ops) (t : String) :
    (Run.exec step r ops).store.targetQueue t =
      Run.exec TargetQueue.step (r.store.targetQueue t) (ops.filterMap (·.at t)) := by
  induction ops generalizing r with
  | nil => rfl
  | cons op ops ih =>
      obtain ⟨hrows, hq⟩ := step_refines h hops.1
      rw [Run.exec_cons, ih hrows hops.2, hq t]
      cases hpart : op.at t with
      | none => rw [List.filterMap_cons_none hpart, Option.elim_none]
      | some part => rw [List.filterMap_cons_some hpart, Option.elim_some, Run.exec_cons]

end OutboxRun

open OutboxRun in
/-- In every orderly run of enqueues, ticks, acknowledgements and drops, whatever
the outcome of each send: the documents of one target go out in the order of its
enqueues; once a row is sent, none that was enqueued before it is queued any more;
at most one row of a target awaits an acknowledgement; and the queue of a target,
with what was sent to it, is the one its own enqueues, sends, acknowledgements and
drops make. -/
theorem targets_served_in_order {ops : List OutboxOp} (hops : Run.Meets step Orderly start ops) :
    (∀ t, ((after ops).store.deliveries.filter fun d => d.targetDid = t).Pairwise fun a b =>
      (after ops).enqueued.idxOf a.key ≤ (after ops).enqueued.idxOf b.key) ∧
    (∀ d ∈ (after ops).store.deliveries, ∀ key e, (after ops).store.row key = some e →
      e.targetDid = d.targetDid →
      (after ops).enqueued.idxOf d.key ≤ (after ops).enqueued.idxOf key) ∧
    (∀ key e key' e', (after ops).store.row key = some e → (after ops).store.row key' = some e' →
      e.targetDid = e'.targetDid → e.awaitingAck.isSome = true → e'.awaitingAck.isSome = true →
      key = key') ∧
    ∀ t, (after ops).store.targetQueue t =
      Run.exec TargetQueue.step ⟨[], []⟩ (ops.filterMap (·.at t)) := by
  have hinv : Inv (after ops) :=
    Run.exec_invariant (fun _ _ hop h => inv_step hop h) inv_start hops
  refine ⟨?_, ?_, ?_, ?_⟩
  · intro t
    have hsent := (hinv.ordered t).sent
    exact List.Pairwise.of_map Delivery.key (fun _ _ h => h) hsent
  · intro d hd key e hrow htarget
    refine (hinv.ordered d.targetDid).ahead d.key ?_ (key, e) ?_
    · exact List.mem_map_of_mem (List.mem_filter.mpr ⟨hd, decide_eq_true rfl⟩)
    · exact hinv.rows.mem_queued.mpr ⟨hrow, htarget⟩
  · intro key e key' e' hrow hrow' htarget hawait hawait'
    have hqueued : (key, e) ∈ (after ops).store.queued e'.targetDid :=
      hinv.rows.mem_queued.mpr ⟨hrow, htarget⟩
    have hqueued' : (key', e') ∈ (after ops).store.queued e'.targetDid :=
      hinv.rows.mem_queued.mpr ⟨hrow', rfl⟩
    have hfront : ∀ k a, (k, a) ∈ (after ops).store.queued e'.targetDid →
        a.awaitingAck.isSome = true → ((after ops).store.queued e'.targetDid).head? = some (k, a) := by
      intro k a hmem hbusy
      have hidle := (hinv.ordered e'.targetDid).idle
      change ∀ row ∈ ((after ops).store.queued e'.targetDid).tail, _ at hidle
      cases hq : (after ops).store.queued e'.targetDid with
      | nil =>
          rw [hq] at hmem
          exact absurd hmem List.not_mem_nil
      | cons first rest =>
          rw [hq] at hmem hidle
          rcases List.mem_cons.mp hmem with hfirst | hrest
          · rw [hfirst]
            rfl
          · exact absurd hbusy (hidle (k, a) hrest)
    have heq := (hfront key e hqueued hawait).symm.trans (hfront key' e' hqueued' hawait')
    exact congrArg Prod.fst (Option.some.inj heq)
  · intro t
    exact exec_refines inv_start.rows hops t

/-! ### Two messages for one server -/

namespace OutboxSample

/-- A random part that sorts after `uuid`. -/
def uuid' : ShortUuid := ⟨"bbbbbbbbbbbb", by decide +kernel, hex_of_all (by decide +kernel)⟩

section TwoEnqueues

variable {t : String} {micros micros' : ℕ} {u u' : ShortUuid}

/-- The outbox after one enqueue for `t`. -/
def first (t : String) (micros : ℕ) (u : ShortUuid) : OutboxRun :=
  OutboxRun.start.step (.enqueue t "sync-update" .null 1 micros u)

/-- The outbox after a second one. -/
def second (t : String) (micros : ℕ) (u : ShortUuid) (micros' : ℕ) (u' : ShortUuid) :
    OutboxRun :=
  (first t micros u).step (.enqueue t "sync-delete" .null 1 micros' u')

/-- Two enqueues for `t`, and a tick that sends. -/
def twoEnqueues (t : String) (micros : ℕ) (u : ShortUuid) (micros' : ℕ) (u' : ShortUuid) :
    List OutboxOp :=
  [.enqueue t "sync-update" .null 1 micros u, .enqueue t "sync-delete" .null 1 micros' u',
    .work [(1, fun _ => ⟨.sent "urn:1" .didcomm, 1⟩)]]

theorem first_row {key : String} {e : OutboxEntry}
    (h : (first t micros u).store.row key = some e) :
    key = outboxKey t micros u ∧ e = newEntry t "sync-update" .null 1 := by
  have hrow := (row_insert _ _ _ _).symm.trans h
  split at hrow
  · rename_i hk
    cases hrow
    exact ⟨hk, rfl⟩
  · cases hrow

theorem first_target {key : String} {e : OutboxEntry}
    (h : (first t micros u).store.row key = some e) : e.targetDid = t := by
  rw [(first_row h).2]
  rfl

theorem cuttable_sent (t : String) :
    Cuttable ((fun _ => ⟨.sent "urn:1" .didcomm, 1⟩ : String → Send) t) :=
  fun _ herr => nomatch herr

/-- With the clock going on between them the run is orderly. -/
theorem orderly_twoEnqueues (hlt : outboxKey t micros u < outboxKey t micros' u') :
    Run.Meets OutboxRun.step OutboxRun.Orderly OutboxRun.start
      (twoEnqueues t micros u micros' u') := by
  have hnew : outboxKey t micros' u' ∉ (first t micros u).enqueued :=
    fun hmem => hlt.ne' (List.mem_singleton.mp hmem)
  refine ⟨⟨List.not_mem_nil, ?_, ?_, ?_⟩, ⟨hnew, ?_, ?_, ?_⟩, ?_, trivial⟩
  · exact fun _ _ h => nomatch h
  · exact fun _ _ h => nomatch h
  · exact fun _ _ h => nomatch h
  · intro key e h _
    rw [(first_row h).1]
    exact hlt
  · exact fun key e h _ => first_target h
  · exact fun key e h _ => first_target h
  · intro tick htick t
    rw [List.mem_singleton.mp htick]
    exact cuttable_sent t

/-- With the smaller key the second row is at the front. -/
theorem queued_second (hlt : outboxKey t micros' u' < outboxKey t micros u) :
    (second t micros u micros' u').store.queued t =
      [(outboxKey t micros' u', newEntry t "sync-delete" .null 1),
        (outboxKey t micros u, newEntry t "sync-update" .null 1)] := by
  have hname := targetOfKey_outboxKey t
  refine Table.scan_eq_of_mem_iff (List.pairwise_pair.mpr hlt) ?_
  intro key e
  have hrow : (second t micros u micros' u').store.rows.lookup key =
      if key = outboxKey t micros' u' then some (newEntry t "sync-delete" .null 1)
      else (first t micros u).store.row key := row_insert ..
  have hfirst : (first t micros u).store.row key =
      if key = outboxKey t micros u then some (newEntry t "sync-update" .null 1) else none :=
    row_insert ..
  rw [hrow, hfirst, List.mem_cons, List.mem_singleton]
  by_cases hk : key = outboxKey t micros' u'
  · simp [hk, hname, hlt.ne, @eq_comm _ e]
  · by_cases hk' : key = outboxKey t micros u
    · simp [hk', hname, hlt.ne', @eq_comm _ e]
    · simp [hk, hk']

theorem wellQueued_second : (second t micros u micros' u').store.WellQueued := by
  have hfirst : (first t micros u).store.WellQueued :=
    OutboxRun.wellQueued_enqueue OutboxRun.inv_start.rows _ _ _ (fun _ _ h => nomatch h)
      fun _ _ h => nomatch h
  exact OutboxRun.wellQueued_enqueue hfirst _ _ _ (fun _ _ h _ => first_target h)
    fun _ _ h _ => first_target h

/-- The second row is sent while the first is queued. -/
theorem second_overtakes (hlt : outboxKey t micros' u' < outboxKey t micros u) :
    ∃ d ∈ (OutboxRun.after (twoEnqueues t micros u micros' u')).store.deliveries,
      d.key = outboxKey t micros' u' ∧ d.targetDid = t ∧
      (OutboxRun.after (twoEnqueues t micros u micros' u')).store.row (outboxKey t micros u) =
        some (newEntry t "sync-update" .null 1) := by
  have hwell : (second t micros u micros' u').store.WellQueued := wellQueued_second
  obtain ⟨r, s, hrun, -, hq⟩ := run_runTick 1 cuttable_sent hwell
  have hloop : (runOutboxLoop [(1, fun _ => ⟨.sent "urn:1" .didcomm, 1⟩)]).run
      (second t micros u micros' u').store = (.ok (), s) := by
    rw [runOutboxLoop, Prog.run_bind_ok hrun]
    rfl
  have hstore : (OutboxRun.after (twoEnqueues t micros u micros' u')).store = s := by
    rw [OutboxRun.after, twoEnqueues, Run.exec_cons, Run.exec_cons, Run.exec_cons, Run.exec_nil,
      OutboxRun.step_store]
    have hprog := congrArg Prod.snd hloop
    exact hprog
  have hafter := hq t
  rw [show ((second t micros u micros' u').store.targetQueue t).rows = _ from
    queued_second hlt] at hafter
  rw [hstore]
  have hsent : (⟨outboxKey t micros' u', t, "urn:1"⟩ : Delivery) ∈ (s.targetQueue t).sent := by
    rw [hafter]
    exact List.mem_singleton_self _
  have hqueued : (outboxKey t micros u, newEntry t "sync-update" .null 1) ∈
      (s.targetQueue t).rows := by
    rw [hafter]
    exact List.mem_cons_of_mem _ (List.mem_singleton_self _)
  exact ⟨_, (List.mem_filter.mp hsent).1, rfl, rfl, (OutboxStore.mem_queued.mp hqueued).1⟩

end TwoEnqueues

end OutboxSample

open OutboxSample OutboxRun in
/-- The first of two messages goes out, and the second waits behind it. -/
theorem targets_served_in_order_two :
    ((after (twoEnqueues "did:web:h.io" 1 uuid' 2 uuid)).store.targetQueue
      "did:web:h.io").sent.map Delivery.key = [outboxKey "did:web:h.io" 1 uuid'] := by
  have hlt : outboxKey "did:web:h.io" 1 uuid' < outboxKey "did:web:h.io" 2 uuid := by
    decide +kernel
  rw [(targets_served_in_order (orderly_twoEnqueues hlt)).2.2.2 "did:web:h.io"]
  rfl

open OutboxSample OutboxRun in
/-- Two messages enqueued in the same microsecond: the second goes out while the
first is queued. -/
theorem sent_before_earlier_enqueue :
    ¬ ∀ d ∈ (after (twoEnqueues "did:web:h.io" 1 uuid' 1 uuid)).store.deliveries, ∀ key e,
      (after (twoEnqueues "did:web:h.io" 1 uuid' 1 uuid)).store.row key = some e →
      e.targetDid = d.targetDid →
        (after (twoEnqueues "did:web:h.io" 1 uuid' 1 uuid)).enqueued.idxOf d.key ≤
          (after (twoEnqueues "did:web:h.io" 1 uuid' 1 uuid)).enqueued.idxOf key := by
  intro hall
  have hlt : outboxKey "did:web:h.io" 1 uuid < outboxKey "did:web:h.io" 1 uuid' := by
    decide +kernel
  obtain ⟨d, hd, hkey, htarget, hrow⟩ := second_overtakes hlt
  have hplaces := hall d hd _ _ hrow htarget.symm
  have henqueued : (after (twoEnqueues "did:web:h.io" 1 uuid' 1 uuid)).enqueued =
      [outboxKey "did:web:h.io" 1 uuid', outboxKey "did:web:h.io" 1 uuid] := rfl
  rw [henqueued, hkey, List.idxOf_cons_self, List.idxOf_cons_ne _ hlt.ne'] at hplaces
  omega

end DidHosting
