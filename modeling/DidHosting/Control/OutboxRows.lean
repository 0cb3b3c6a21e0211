import DidHosting.Support.Wp
import DidHosting.Control.Outbox

/-!
# Concurrent outbox operations

The worker, acknowledgements, superseding drops and enqueues run interleaved on
one outbox.  Every removal goes back to a row the operation has read, with the
reason that row gave; every write-back of the worker happens under the row lock,
right after the row was found there.  The row lock is taken by every removal
except those of the worker itself.
-/

namespace DidHosting

open Text

/-! ## Operations -/

/-- What a row is about, apart from the state of its delivery. -/
structure Message where
  targetDid : String
  msgType : String
  body : Json
  enqueuedAt : ℕ

def OutboxEntry.message (e : OutboxEntry) : Message :=
  ⟨e.targetDid, e.msgType, e.body, e.enqueuedAt⟩

/-- The times and the sends of one tick. -/
abbrev Tick := ℕ × (String → Send)

/-- `run_outbox_loop`: one tick after the other. -/
def runOutboxLoop : List Tick → OutboxM Unit
  | [] => pure ()
  | (now, sends) :: rest => do
      let _ ← runTick now sends
      runOutboxLoop rest

/-- The operations on the outbox. -/
inductive OutboxOp where
  | enqueue (targetDid msgType : String) (body : Json) (now micros : ℕ)
      (uuidShort : ShortUuid)
  | work (ticks : List Tick)
  | acknowledge (signer docId : String)
  | dropQueued (targetDid msgType : String) (superseded : Json → Bool)

namespace OutboxOp

/-- The program of an operation. -/
def prog : OutboxOp → OutboxM Unit
  | .enqueue targetDid msgType body now micros uuidShort =>
      DidHosting.enqueue targetDid msgType body now micros uuidShort
  | .work ticks => runOutboxLoop ticks
  | .acknowledge signer docId => do
      let _ ← DidHosting.acknowledge signer docId
      pure ()
  | .dropQueued targetDid msgType superseded => do
      let _ ← DidHosting.dropQueued targetDid msgType superseded
      pure ()

/-- The operation is the worker. -/
def works : OutboxOp → Bool
  | .work _ => true
  | _ => false

/-- The row an enqueue adds. -/
def added : OutboxOp → Option (String × OutboxEntry)
  | .enqueue targetDid msgType body now micros uuidShort =>
      some (outboxKey targetDid micros uuidShort, newEntry targetDid msgType body now)
  | _ => none

end OutboxOp

/-! ## Reasons -/

/-- Why an operation that has read the stores `seen` may remove the row `e` it
found under `key`. -/
inductive Retires (op : OutboxOp) (seen : List OutboxStore) (key : String)
    (e : OutboxEntry) : Prop where
  | acknowledged {signer docId : String} (hop : op = .acknowledge signer docId)
      (hkey : startsWith (targetPrefix signer) key = true)
      (hdoc : e.awaitingAck = some docId)
  | superseded {targetDid msgType : String} {superseded : Json → Bool}
      (hop : op = .dropQueued targetDid msgType superseded)
      (hkey : startsWith (targetPrefix targetDid) key = true)
      (htype : e.msgType = msgType) (hbody : superseded e.body = true)
  | exhausted {ticks : List Tick} {tick : Tick} (hop : op = .work ticks)
      (htick : tick ∈ ticks) (hspent : exhausted e tick.1 = true)
  | answered {ticks : List Tick} {tick : Tick} {target docId : String}
      (hop : op = .work ticks) (htick : tick ∈ ticks)
      (htarget : ∃ s ∈ seen, ∃ k e', s.row k = some e' ∧ targetOfKey k = some target)
      (hsent : (tick.2 target).outcome = .sent docId .https)
      (hkey : startsWith (targetPrefix target) key = true)
      (hdoc : e.awaitingAck = some docId)

theorem Retires.mono {op : OutboxOp} {seen seen' : List OutboxStore} {key : String}
    {e : OutboxEntry} (hsub : seen ⊆ seen') (h : Retires op seen key e) :
    Retires op seen' key e := by
  cases h with
  | acknowledged hop hkey hdoc => exact .acknowledged hop hkey hdoc
  | superseded hop hkey htype hbody => exact .superseded hop hkey htype hbody
  | exhausted hop htick hspent => exact .exhausted hop htick hspent
  | answered hop htick htarget hsent hkey hdoc =>
      obtain ⟨s, hs, k, e', hrow⟩ := htarget
      exact .answered hop htick ⟨s, hsub hs, k, e', hrow⟩ hsent hkey hdoc

/-- What an operation may commit, given what it has learnt. -/
def Permits (op : OutboxOp) (l : Learnt OutboxStore) : OutboxWrite → Prop
  | .insert key e =>
      op.added = some (key, e) ∨
        (op.works = true ∧ (∃ s, l.held = some (some s) ∧ (s.row key).isSome = true) ∧
          ∃ s ∈ l.seen, ∃ e₀, s.row key = some e₀ ∧ e₀.message = e.message)
  | .remove key =>
      (l.held.isSome = true ∨ op.works = true) ∧
        ∃ s ∈ l.seen, ∃ e, s.row key = some e ∧ Retires op l.seen key e
  | .deliver _ => True

/-! ## What each operation commits -/

section Programs

variable {V : Set OutboxStore} {op : OutboxOp} {l : Learnt OutboxStore}

/-- Outside the lock again, having read at least what `l` has. -/
def Free (l l' : Learnt OutboxStore) : Prop :=
  l'.held = none ∧ l.seen ⊆ l'.seen

theorem Free.refl (h : l.held = none) : Free l l :=
  ⟨h, fun _ hs => hs⟩

theorem Free.trans {l' l'' : Learnt OutboxStore} (h : Free l l') (h' : Free l' l'') :
    Free l l'' :=
  ⟨h'.1, fun _ hs => h'.2 (h.2 hs)⟩

theorem wp_retire {key : String}
    (hread : ∃ s ∈ l.seen, ∃ e, s.row key = some e ∧ Retires op l.seen key e) :
    (retire key).wp .row V (Permits op) l fun _ l' => Free l l' := by
  refine Prog.wp_locked (Prog.wp_write ?_ ?_)
  · exact ⟨Or.inl rfl, hread⟩
  · exact ⟨rfl, fun _ hs => hs⟩

theorem wp_rewriteIfPresent {key : String} {e : OutboxEntry} (hop : op.works = true)
    (hread : ∃ s ∈ l.seen, ∃ e₀, s.row key = some e₀ ∧ e₀.message = e.message) :
    (rewriteIfPresent key e).wp .row V (Permits op) l fun _ l' => Free l l' := by
  obtain ⟨s, hs, e₀, hrow, hmsg⟩ := hread
  refine Prog.wp_locked (Prog.wp_bind (Prog.wp_read ?_))
  intro t ht
  cases hheld : t.row key with
  | none => exact ⟨rfl, fun _ hs => List.mem_cons_of_mem _ hs⟩
  | some e' =>
      refine Prog.wp_write ?_ ⟨rfl, fun _ hs => List.mem_cons_of_mem _ hs⟩
      refine Or.inr ⟨hop, ⟨t, rfl, ?_⟩, s, List.mem_cons_of_mem _ hs, e₀, hrow, hmsg⟩
      rw [hheld]
      rfl

theorem wp_recordFailure {key err : String} {e : OutboxEntry} {now : ℕ}
    (hop : op.works = true) (hread : ∃ s ∈ l.seen, s.row key = some e) :
    (recordFailure key e err now).wp .row V (Permits op) l fun _ l' => Free l l' := by
  obtain ⟨s, hs, hrow⟩ := hread
  unfold recordFailure
  refine Prog.wp_bind ?_
  cases truncated err with
  | error msg => trivial
  | ok text => exact wp_rewriteIfPresent hop ⟨s, hs, e, hrow, rfl⟩

/-- The rows of a scan were read in the store that was scanned. -/
theorem row_of_mem_pending {s : OutboxStore} {target key : String} {e : OutboxEntry}
    (h : (key, e) ∈ s.rows.scan (startsWith (targetPrefix target))) :
    s.row key = some e ∧ startsWith (targetPrefix target) key = true :=
  Table.mem_scan.mp h

theorem wp_ackLoop {docId : String} (pending : List (String × OutboxEntry))
    (hl : l.held = none)
    (hread : ∀ key e, (key, e) ∈ pending → e.awaitingAck = some docId →
      ∃ s ∈ l.seen, ∃ e, s.row key = some e ∧ Retires op l.seen key e) :
    (ackLoop docId pending).wp .row V (Permits op) l fun _ l' => Free l l' := by
  induction pending with
  | nil => exact Free.refl hl
  | cons row pending ih =>
      obtain ⟨key, e⟩ := row
      unfold ackLoop
      split
      · rename_i hdoc
        refine Prog.wp_bind (Prog.wp_mono
          (wp_retire (hread key e List.mem_cons_self hdoc)) ?_)
        intro _ l' hfree
        exact hfree
      · exact ih fun key e he => hread key e (List.mem_cons_of_mem _ he)

theorem wp_acknowledge {target docId : String} (hl : l.held = none)
    (hretire : ∀ seen key e, l.seen ⊆ seen → startsWith (targetPrefix target) key = true →
      e.awaitingAck = some docId → Retires op seen key e) :
    (acknowledge target docId).wp .row V (Permits op) l fun _ l' => Free l l' := by
  refine Prog.wp_bind (Prog.wp_read ?_)
  intro s hs
  have hsub : l.seen ⊆ (l.read s).seen := fun _ ht => List.mem_cons_of_mem _ ht
  have hheld : (l.read s).held = none := by simp [Learnt.read, hl]
  refine Prog.wp_mono (wp_ackLoop _ hheld ?_) fun _ l' hfree => Free.trans ⟨hheld, hsub⟩ hfree
  intro key e hmem hdoc
  obtain ⟨hrow, hkey⟩ := row_of_mem_pending hmem
  exact ⟨s, List.mem_cons_self, e, hrow, hretire _ key e hsub hkey hdoc⟩

theorem wp_dropLoop {msgType : String} {superseded : Json → Bool}
    (pending : List (String × OutboxEntry)) (hl : l.held = none)
    (hread : ∀ key e, (key, e) ∈ pending → e.msgType = msgType → superseded e.body = true →
      ∃ s ∈ l.seen, ∃ e, s.row key = some e ∧ Retires op l.seen key e) (dropped : ℕ) :
    (dropLoop msgType superseded dropped pending).wp .row V (Permits op) l
      fun _ l' => Free l l' := by
  induction pending generalizing l dropped with
  | nil => exact Free.refl hl
  | cons row pending ih =>
      obtain ⟨key, e⟩ := row
      unfold dropLoop
      split
      · rename_i hmatch
        obtain ⟨htype, hbody⟩ : e.msgType = msgType ∧ superseded e.body = true := by
          simpa using hmatch
        refine Prog.wp_bind (Prog.wp_mono
          (wp_retire (hread key e List.mem_cons_self htype hbody)) ?_)
        intro _ l' hfree
        refine Prog.wp_mono (ih hfree.1 ?_ _) fun _ _ hfree' => hfree.trans hfree'
        intro key e he htype hbody
        obtain ⟨s, hs, e', hrow, hwhy⟩ := hread key e (List.mem_cons_of_mem _ he) htype hbody
        exact ⟨s, hfree.2 hs, e', hrow, hwhy.mono hfree.2⟩
      · exact ih hl (fun key e he => hread key e (List.mem_cons_of_mem _ he)) _

/-- Every listed target is the target some queued key names. -/
theorem mem_listTargets {s : OutboxStore} {target : String}
    (h : target ∈ (((s.rows.scan (startsWith "outbox:")).filterMap
      fun r => targetOfKey r.1).insertionSort (· ≤ ·)).dedup) :
    ∃ k e, s.row k = some e ∧ targetOfKey k = some target := by
  rw [List.mem_dedup, List.mem_insertionSort, List.mem_filterMap] at h
  obtain ⟨⟨k, e⟩, hmem, htarget⟩ := h
  exact ⟨k, e, (Table.mem_scan.mp hmem).1, htarget⟩

section Worker

variable {ticks : List Tick} {now : ℕ} {sends : String → Send}

theorem wp_tickRows (htick : (now, sends) ∈ ticks) {target : String}
    (pending : List (String × OutboxEntry)) (hl : l.held = none)
    (htarget : ∃ s ∈ l.seen, ∃ k e, s.row k = some e ∧ targetOfKey k = some target)
    (hread : ∀ key e, (key, e) ∈ pending → ∃ s ∈ l.seen, s.row key = some e)
    (report : TickReport) :
    (tickRows now (sends target) target report pending).wp .row V (Permits (.work ticks)) l
      fun _ l' => Free l l' := by
  induction pending generalizing report with
  | nil => exact Free.refl hl
  | cons row pending ih =>
      obtain ⟨key, e⟩ := row
      obtain ⟨s, hs, hrow⟩ := hread key e List.mem_cons_self
      have hrest : ∀ key e, (key, e) ∈ pending → ∃ s ∈ l.seen, s.row key = some e :=
        fun key e he => hread key e (List.mem_cons_of_mem _ he)
      have hwrote : l.wrote = l := by
        obtain ⟨seen, held⟩ := l
        cases hl
        rfl
      unfold tickRows
      split
      · rename_i hspent
        refine Prog.wp_bind (Prog.wp_write ?_ ?_)
        · exact ⟨Or.inr rfl, s, hs, e, hrow, .exhausted rfl htick hspent⟩
        · rw [hwrote]
          exact ih hrest _
      · split
        · exact Free.refl hl
        · split
          · rename_i docId transport hsent
            refine Prog.wp_bind (Prog.wp_write trivial ?_)
            rw [hwrote]
            refine Prog.wp_bind (Prog.wp_mono
              (wp_rewriteIfPresent rfl ⟨s, hs, e, hrow, rfl⟩) ?_)
            intro _ l' hfree
            refine Prog.wp_bind (Prog.wp_mono (?_ : Prog.wp _ _ _ _ _ fun _ l'' => Free l' l'')
              fun _ l'' hfree' => hfree.trans hfree')
            unfold selfAcknowledge
            split
            · rename_i htls
              subst htls
              refine Prog.wp_bind (Prog.wp_mono (wp_acknowledge hfree.1 ?_)
                fun _ l'' hfree' => hfree')
              intro seen k e' hsub hkey hdoc
              obtain ⟨t, ht, k', e'', hrow', hname⟩ := htarget
              exact .answered rfl htick ⟨t, hsub (hfree.2 ht), k', e'', hrow', hname⟩ hsent hkey
                hdoc
            · exact Free.refl hfree.1
          · rename_i err hfailed
            exact Prog.wp_bind (Prog.wp_mono (wp_recordFailure rfl ⟨s, hs, hrow⟩)
              fun _ l' hfree => hfree)

theorem wp_tickTargets (htick : (now, sends) ∈ ticks) (targets : List String)
    (hl : l.held = none)
    (htargets : ∀ target ∈ targets,
      ∃ s ∈ l.seen, ∃ k e, s.row k = some e ∧ targetOfKey k = some target)
    (report : TickReport) :
    (tickTargets now sends report targets).wp .row V (Permits (.work ticks)) l
      fun _ l' => Free l l' := by
  induction targets generalizing l report with
  | nil => exact Free.refl hl
  | cons target targets ih =>
      have hlift : ∀ {l' : Learnt OutboxStore}, l.seen ⊆ l'.seen → ∀ target' ∈ target :: targets,
          ∃ s ∈ l'.seen, ∃ k e, s.row k = some e ∧ targetOfKey k = some target' := by
        intro l' hsub target' hmem
        obtain ⟨s, hs, hrow⟩ := htargets target' hmem
        exact ⟨s, hsub hs, hrow⟩
      unfold tickTargets
      refine Prog.wp_bind (Prog.wp_read ?_)
      intro s hs
      have hsub : l.seen ⊆ (l.read s).seen := fun _ ht => List.mem_cons_of_mem _ ht
      have hheld : (l.read s).held = none := by simp [Learnt.read, hl]
      refine Prog.wp_bind (Prog.wp_mono
        (wp_tickRows htick _ hheld (hlift hsub target List.mem_cons_self) ?_ report) ?_)
      · intro key e hmem
        exact ⟨s, List.mem_cons_self, (row_of_mem_pending hmem).1⟩
      · intro report' l' hfree
        have hsub' : l.seen ⊆ l'.seen := fun _ ht => hfree.2 (hsub ht)
        refine Prog.wp_mono (ih hfree.1
          (fun target' hmem => hlift hsub' target' (List.mem_cons_of_mem _ hmem)) report') ?_
        exact fun _ _ hfree' => Free.trans ⟨hfree.1, hsub'⟩ hfree'

theorem wp_runTick (htick : (now, sends) ∈ ticks) (hl : l.held = none) :
    (runTick now sends).wp .row V (Permits (.work ticks)) l fun _ l' => Free l l' := by
  refine Prog.wp_bind (Prog.wp_read ?_)
  intro s hs
  have hheld : (l.read s).held = none := by simp [Learnt.read, hl]
  refine Prog.wp_mono (wp_tickTargets htick _ hheld ?_ _)
    fun _ l' hfree => Free.trans ⟨hheld, fun _ ht => List.mem_cons_of_mem _ ht⟩ hfree
  intro target hmem
  exact ⟨s, List.mem_cons_self, mem_listTargets hmem⟩

theorem wp_runOutboxLoop {rest : List Tick} (hrest : rest ⊆ ticks) (hl : l.held = none) :
    (runOutboxLoop rest).wp .row V (Permits (.work ticks)) l fun _ _ => True := by
  induction rest generalizing l with
  | nil => trivial
  | cons tick rest ih =>
      obtain ⟨now, sends⟩ := tick
      refine Prog.wp_bind (Prog.wp_mono (wp_runTick (hrest List.mem_cons_self) hl) ?_)
      intro _ l' hfree
      exact ih (fun _ hmem => hrest (List.mem_cons_of_mem _ hmem)) hfree.1

end Worker

theorem OutboxOp.wp_prog (op : OutboxOp) :
    op.prog.wp .row V (Permits op) ⟨[], none⟩ fun _ _ => True := by
  cases op with
  | enqueue targetDid msgType body now micros uuidShort =>
      exact Prog.wp_write (Or.inl rfl) trivial
  | work ticks => exact wp_runOutboxLoop (fun _ h => h) rfl
  | acknowledge signer docId =>
      refine Prog.wp_bind (Prog.wp_mono (wp_acknowledge rfl ?_) fun _ _ _ => trivial)
      intro seen key e _ hkey hdoc
      exact .acknowledged rfl hkey hdoc
  | dropQueued targetDid msgType superseded =>
      refine Prog.wp_bind (Prog.wp_bind (Prog.wp_read ?_))
      intro s hs
      refine Prog.wp_mono (wp_dropLoop _ rfl ?_ 0) fun _ _ _ => trivial
      intro key e hmem htype hbody
      obtain ⟨hrow, hkey⟩ := row_of_mem_pending hmem
      exact ⟨s, List.mem_cons_self, e, hrow, .superseded rfl hkey htype hbody⟩

end Programs

/-! ## Interleavings -/

section Interleaved

variable {ι : Type} {s₀ : OutboxStore} {ops : ι → OutboxOp}

/-- A row with this message is, or is going to be, stored under `key`. -/
def Origin (s₀ : OutboxStore) (ops : ι → OutboxOp) (key : String) (msg : Message) : Prop :=
  (∃ e, s₀.row key = some e ∧ e.message = msg) ∨
    ∃ i e, (ops i).added = some (key, e) ∧ e.message = msg

/-- The random part of the keys does its work: no enqueue meets a key that is in
use, or that another enqueue draws. -/
structure FreshKeys (s₀ : OutboxStore) (ops : ι → OutboxOp) : Prop where
  unused : ∀ i key e, (ops i).added = some (key, e) → s₀.row key = none
  distinct : ∀ i j key e e', (ops i).added = some (key, e) →
    (ops j).added = some (key, e') → i = j

theorem FreshKeys.origin_unique (h : FreshKeys s₀ ops) {key : String} {msg msg' : Message}
    (ho : Origin s₀ ops key msg) (ho' : Origin s₀ ops key msg') : msg = msg' := by
  rcases ho with ⟨e, hrow, rfl⟩ | ⟨i, e, hadd, rfl⟩
  · rcases ho' with ⟨e', hrow', rfl⟩ | ⟨j, e', hadd', rfl⟩
    · rw [hrow] at hrow'
      cases hrow'
      rfl
    · rw [h.unused j key e' hadd'] at hrow
      contradiction
  · rcases ho' with ⟨e', hrow', rfl⟩ | ⟨j, e', hadd', rfl⟩
    · rw [h.unused i key e hadd] at hrow'
      contradiction
    · have hij := h.distinct i j key e e' hadd hadd'
      subst hij
      rw [hadd] at hadd'
      cases hadd'
      rfl

/-- The stores in which every row has a message its key stands for. -/
def KnownRows (s₀ : OutboxStore) (ops : ι → OutboxOp) : Set OutboxStore :=
  {s | ∀ key e, s.row key = some e → Origin s₀ ops key e.message}

@[simp] theorem row_insert (s : OutboxStore) (key key' : String) (e : OutboxEntry) :
    (OutboxStore.commit (.insert key e) s).row key' = if key' = key then some e else s.row key' :=
  Table.lookup_insert_ite ..

@[simp] theorem row_remove (s : OutboxStore) (key key' : String) :
    (OutboxStore.commit (.remove key) s).row key' = if key' = key then none else s.row key' :=
  Table.lookup_erase_ite ..

@[simp] theorem row_deliver (s : OutboxStore) (d : Delivery) (key : String) :
    (OutboxStore.commit (.deliver d) s).row key = s.row key :=
  rfl

theorem knownRows_start : s₀ ∈ KnownRows s₀ ops :=
  fun _ e h => Or.inl ⟨e, h, rfl⟩

theorem knownRows_commit {i : ι} {l : Learnt OutboxStore} {w : OutboxWrite} {s : OutboxStore}
    (hs : s ∈ KnownRows s₀ ops) (hseen : ∀ t ∈ l.seen, t ∈ KnownRows s₀ ops)
    (h : Permits (ops i) l w) : OutboxStore.commit w s ∈ KnownRows s₀ ops := by
  intro key e hrow
  cases w with
  | insert k e' =>
      rw [row_insert] at hrow
      split at hrow
      · rename_i hk
        subst hk
        cases hrow
        rcases h with hadd | ⟨-, -, t, ht, e₀, hrow₀, hmsg⟩
        · exact Or.inr ⟨i, e, hadd, rfl⟩
        · rw [← hmsg]
          exact hseen t ht key e₀ hrow₀
      · exact hs key e hrow
  | remove k =>
      rw [row_remove] at hrow
      split at hrow
      · contradiction
      · exact hs key e hrow
  | deliver d => exact hs key e hrow

variable [DecidableEq ι]

/-- Along every interleaving each commit is one its operation is permitted. -/
theorem watched_outbox {Agree : ι → OutboxStore → OutboxStore → Prop}
    (hrefl : ∀ i s, Agree i s s)
    (hkeep : ∀ i l w s, Permits (ops i) l w → l.held = none → ∀ j, j ≠ i → ∀ t,
      Agree j t s → Agree j t (OutboxStore.commit w s)) (schedule : List ι) :
    Machine.Watched .row (KnownRows s₀ ops) (fun i => Permits (ops i)) Agree
      (Run.exec Machine.step (Machine.start s₀ fun i => (ops i).prog) schedule) := by
  refine Run.exec_invariant_of_step ?_ schedule
    (Machine.watched_start knownRows_start fun i => (ops i).wp_prog)
  intro m i hm
  refine Machine.watched_step hrefl ?_ hm i
  intro i l w s hs hseen hok _
  exact ⟨knownRows_commit hs hseen hok, hkeep i l w s hok⟩

/-! ### Removed rows -/

/-- For the worker: a row that was there is still there. -/
def StillQueued (ops : ι → OutboxOp) (i : ι) (s t : OutboxStore) : Prop :=
  (ops i).works = true → ∀ key, (s.row key).isSome = true → (t.row key).isSome = true

theorem watched_worker
    (hone : ∀ i j, (ops i).works = true → (ops j).works = true → i = j)
    (schedule : List ι) :
    Machine.Watched .row (KnownRows s₀ ops) (fun i => Permits (ops i)) (StillQueued ops)
      (Run.exec Machine.step (Machine.start s₀ fun i => (ops i).prog) schedule) := by
  refine watched_outbox (fun i s _ key h => h) ?_ schedule
  intro i l w s hok hfree j hne t hagree hworks key hkey
  have hstill := hagree hworks key hkey
  cases w with
  | insert k e =>
      rw [row_insert]
      split
      · rfl
      · exact hstill
  | deliver d => exact hstill
  | remove k =>
      -- only the worker removes a row without the lock
      rcases hok.1 with hheld | hworker
      · rw [hfree] at hheld
        contradiction
      · exact absurd (hone j i hworks hworker) hne

theorem step_adds {m : Machine ι OutboxStore OutboxWrite OutboxLock AppError Unit}
    (hm : Machine.Watched .row (KnownRows s₀ ops) (fun i => Permits (ops i)) (StillQueued ops) m)
    {i : ι} {key : String} {e : OutboxEntry} (hbefore : m.store.row key = none)
    (hafter : (m.step i).store.row key = some e) : (ops i).added = some (key, e) := by
  rcases hm.step_store (i := i) with hsame | ⟨w, l, hknows, hok, hw⟩
  · rw [hsame, hbefore] at hafter
    contradiction
  · rw [hw] at hafter
    cases w with
    | insert k e' =>
        have hrow := (row_insert m.store k key e').symm.trans hafter
        split at hrow
        · rename_i hk
          subst hk
          cases hrow
          rcases hok with hadd | ⟨hworks, ⟨s, hs, hthere⟩, -⟩
          · exact hadd
          · have hstill := hknows.agree s hs hworks key hthere
            rw [hbefore] at hstill
            contradiction
        · rw [hbefore] at hrow
          contradiction
    | remove k =>
        have hrow := (row_remove m.store k key).symm.trans hafter
        split at hrow
        · contradiction
        · rw [hbefore] at hrow
          contradiction
    | deliver d =>
        have hrow : m.store.row key = some e := hafter
        rw [hbefore] at hrow
        contradiction

/-- The state of the machine after a schedule. -/
abbrev outboxAfter (s₀ : OutboxStore) (ops : ι → OutboxOp) (schedule : List ι) :
    Machine ι OutboxStore OutboxWrite OutboxLock AppError Unit :=
  Run.exec Machine.step (Machine.start s₀ fun i => (ops i).prog) schedule

theorem outboxAfter_append (schedule : List ι) (i : ι) :
    outboxAfter s₀ ops (schedule ++ [i]) = (outboxAfter s₀ ops schedule).step i := by
  rw [outboxAfter, Run.exec_append, Run.exec_cons, Run.exec_nil]

/-- The row of an enqueue that has not returned is not there yet. -/
theorem enqueue_pending
    (hone : ∀ i j, (ops i).works = true → (ops j).works = true → i = j)
    (hfresh : FreshKeys s₀ ops) (schedule : List ι) {i : ι} {key : String} {e : OutboxEntry}
    (hadd : (ops i).added = some (key, e)) :
    ((outboxAfter s₀ ops schedule).thread i).prog.isDone = true ∨
      (((outboxAfter s₀ ops schedule).thread i).prog = (ops i).prog ∧
        (outboxAfter s₀ ops schedule).store.row key = none) := by
  induction schedule using List.reverseRecOn with
  | nil => exact Or.inr ⟨rfl, hfresh.unused i key e hadd⟩
  | append_singleton schedule j ih =>
      rw [outboxAfter_append]
      by_cases hji : j = i
      · subst hji
        left
        rcases ih with hdone | ⟨hprog, -⟩
        · rwa [Machine.step_of_done hdone]
        · -- an enqueue is one commit
          cases hop : ops j with
          | enqueue targetDid msgType body now micros uuidShort =>
              rw [hop] at hprog
              have hcommit : ((outboxAfter s₀ ops schedule).thread j).prog =
                  .commit (.insert (outboxKey targetDid micros uuidShort)
                    (newEntry targetDid msgType body now)) (.ret ()) := hprog
              rw [Machine.step_of_commit hcommit, Machine.resume_thread_self]
              rfl
          | _ =>
              rw [hop] at hadd
              contradiction
      · rw [Machine.step_thread_ne (Ne.symm hji)]
        rcases ih with hdone | ⟨hprog, hrow⟩
        · exact Or.inl hdone
        · refine Or.inr ⟨hprog, ?_⟩
          cases hafter : ((outboxAfter s₀ ops schedule).step j).store.row key with
          | none => rfl
          | some e' =>
              have hadd' := step_adds (watched_worker hone schedule) hrow hafter
              exact absurd (hfresh.distinct i j key e e' hadd hadd') (Ne.symm hji)

/-- A thread that has returned stays so. -/
theorem done_append {schedule : List ι} {i : ι}
    (h : ((outboxAfter s₀ ops schedule).thread i).prog.isDone = true) (more : List ι) :
    ((outboxAfter s₀ ops (schedule ++ more)).thread i).prog.isDone = true := by
  induction more using List.reverseRecOn with
  | nil => rwa [List.append_nil]
  | append_singleton more j ih =>
      rw [← List.append_assoc, outboxAfter_append]
      by_cases hji : i = j
      · subst hji
        rwa [Machine.step_of_done ih]
      · rwa [Machine.step_thread_ne hji]

/-- Whatever the interleaving of one worker with acknowledgements, superseding
drops and enqueues: a row that was queued and has been removed is never queued
again, and as long as it is queued it keeps its target, type, body and enqueue
time. -/
theorem removed_rows_stay_removed
    (hone : ∀ i j, (ops i).works = true → (ops j).works = true → i = j)
    (hfresh : FreshKeys s₀ ops) (schedule more later : List ι) {key : String}
    {e : OutboxEntry} (hqueued : (outboxAfter s₀ ops schedule).store.row key = some e) :
    ((outboxAfter s₀ ops (schedule ++ more)).store.row key = none →
      (outboxAfter s₀ ops (schedule ++ more ++ later)).store.row key = none) ∧
    ∀ e', (outboxAfter s₀ ops (schedule ++ more)).store.row key = some e' →
      e'.message = e.message := by
  have hdone : ∀ i e', (ops i).added = some (key, e') →
      ((outboxAfter s₀ ops schedule).thread i).prog.isDone = true := by
    intro i e' hadd
    rcases enqueue_pending hone hfresh schedule hadd with hdone | ⟨-, hnone⟩
    · exact hdone
    · rw [hqueued] at hnone
      contradiction
  refine ⟨?_, ?_⟩
  · intro hgone
    induction later using List.reverseRecOn with
    | nil => rwa [List.append_nil]
    | append_singleton later j ih =>
        rw [← List.append_assoc, outboxAfter_append]
        cases hafter : ((outboxAfter s₀ ops (schedule ++ more ++ later)).step j).store.row key with
        | none => rfl
        | some e' =>
            -- only the enqueue of the row could add it, and that has returned
            have hadd := step_adds (watched_worker hone _) ih hafter
            have hj := done_append (done_append (hdone j e' hadd) more) later
            rw [Machine.step_of_done hj, ih] at hafter
            contradiction
  · intro e' hrow
    have hknown : KnownRows s₀ ops (outboxAfter s₀ ops schedule).store :=
      (watched_worker hone schedule).store
    have hknown' : KnownRows s₀ ops (outboxAfter s₀ ops (schedule ++ more)).store :=
      (watched_worker hone (schedule ++ more)).store
    exact hfresh.origin_unique (hknown' key e' hrow) (hknown key e hqueued)

end Interleaved

/-! ### A dropped row -/

namespace OutboxSample

/-- An outbox without rows. -/
def empty : OutboxStore := ⟨∅, []⟩

/-- The characters of a random part, tested one by one. -/
theorem hex_of_all {text : String}
    (h : text.toList.all (fun c => c.isDigit || ['a', 'b', 'c', 'd', 'e', 'f'].contains c) = true) :
    ∀ c ∈ text.toList, c.isDigit = true ∨ c ∈ ['a', 'b', 'c', 'd', 'e', 'f'] := by
  intro c hc
  rcases Bool.or_eq_true_iff.mp (List.all_eq_true.mp h c hc) with hdigit | hletter
  · exact Or.inl hdigit
  · exact Or.inr (List.contains_iff_mem.mp hletter)

/-- The random part of the sample keys. -/
def uuid : ShortUuid := ⟨"aaaaaaaaaaaa", by decide +kernel, hex_of_all (by decide +kernel)⟩

/-- What happens to a row that is dropped. -/
inductive Dropped where
  | enqueue
  | work
  | drop
deriving DecidableEq

/-- A purge queued for `target`, which the worker sends and the control plane
drops for `dropper`. -/
def ops (target dropper : String) : Dropped → OutboxOp
  | .enqueue => .enqueue target "purge" .null 1 1 uuid
  | .work => .work [(1, fun _ => ⟨.sent "urn:1" .didcomm, 1⟩)]
  | .drop => .dropQueued dropper "purge" fun _ => true

/-- The row is queued, and dropped between the worker's read of it and its send. -/
def schedule : List Dropped := [.enqueue, .work, .work, .drop, .drop, .drop, .drop]

theorem one_worker (target dropper : String) (i j : Dropped)
    (hi : (ops target dropper i).works = true) (hj : (ops target dropper j).works = true) :
    i = j := by
  have hwork : ∀ k, (ops target dropper k).works = true → k = .work := by
    intro k hk
    cases k with
    | work => rfl
    | enqueue | drop => cases hk
  rw [hwork i hi, hwork j hj]

theorem freshKeys (target dropper : String) : FreshKeys empty (ops target dropper) := by
  have henqueue : ∀ k key e, (ops target dropper k).added = some (key, e) → k = .enqueue := by
    intro k key e hk
    cases k with
    | enqueue => rfl
    | work | drop => cases hk
  refine ⟨fun _ _ _ _ => rfl, ?_⟩
  intro i j key e e' hi hj
  rw [henqueue i key e hi, henqueue j key e' hj]

end OutboxSample

open OutboxSample in
/-- The worker's late write-back of a dropped row changes nothing. -/
theorem removed_rows_stay_removed_dropped :
    (outboxAfter empty (ops "did:web:h.io" "did:web:h.io") [.enqueue]).store.row
        (outboxKey "did:web:h.io" 1 uuid) = some (newEntry "did:web:h.io" "purge" .null 1) ∧
      ∀ later, (outboxAfter empty (ops "did:web:h.io" "did:web:h.io")
        (schedule ++ later)).store.row (outboxKey "did:web:h.io" 1 uuid) = none := by
  have hqueued : (outboxAfter empty (ops "did:web:h.io" "did:web:h.io") [.enqueue]).store.row
      (outboxKey "did:web:h.io" 1 uuid) = some (newEntry "did:web:h.io" "purge" .null 1) :=
    AList.lookup_insert _
  have hgone : ((outboxAfter empty (ops "did:web:h.io" "did:web:h.io") schedule).store.row
      (outboxKey "did:web:h.io" 1 uuid)).isNone = true := by decide +kernel
  refine ⟨hqueued, fun later => ?_⟩
  exact (removed_rows_stay_removed (one_worker _ _) (freshKeys _ _) [.enqueue]
    [.work, .work, .drop, .drop, .drop, .drop] later hqueued).1
    (Option.isNone_iff_eq_none.mp hgone)

end DidHosting
