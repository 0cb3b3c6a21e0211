import DidHosting.Control.OutboxRows
import DidHosting.Support.Monitor
import Mathlib.Data.Fintype.Basic

/-!
# The document last sent for a row

The worker hands a document to the transport first, and records it in the row after that.
In between, the row still awaits the document before it.  Outside of this, with one worker, a
row awaits the document that was handed over for it last.
-/

namespace DidHosting

open Text

namespace OutboxStore

/-- The document that was handed to the transport last for the row under `key`. -/
def lastSent (s : OutboxStore) (key : String) : Option String :=
  ((s.deliveries.filter fun d => d.key = key).getLast?).map (·.docId)

/-- No row awaits a document while another one was handed over for it since. -/
def Recorded (s : OutboxStore) : Prop :=
  ∀ key e docId, s.row key = some e → e.awaitingAck = some docId → s.lastSent key = some docId

@[simp] theorem lastSent_insert (s : OutboxStore) (key key' : String) (e : OutboxEntry) :
    (commit (.insert key e) s).lastSent key' = s.lastSent key' :=
  rfl

@[simp] theorem lastSent_remove (s : OutboxStore) (key key' : String) :
    (commit (.remove key) s).lastSent key' = s.lastSent key' :=
  rfl

theorem lastSent_deliver (s : OutboxStore) (d : Delivery) (key : String) :
    (commit (.deliver d) s).lastSent key =
      if d.key = key then some d.docId else s.lastSent key := by
  unfold lastSent commit
  rw [List.filter_append]
  by_cases hkey : d.key = key
  · rw [if_pos hkey, List.filter_singleton]
    simp [hkey]
  · rw [if_neg hkey, List.filter_singleton]
    simp [hkey]

end OutboxStore

/-! ## The worker -/

/-- What is remembered of the worker: a document that it has handed over and not recorded,
and the rows it has listed since the last one. -/
structure SendState where
  pending : Option Delivery
  listed : Option OutboxStore

def SendState.start : SendState := ⟨none, none⟩

/-- Why the worker removes a row that it has listed. -/
inductive Worked (V : Set OutboxStore) (ticks : List Tick) (key : String) (e : OutboxEntry) :
    Prop where
  | exhausted {tick : Tick} (htick : tick ∈ ticks)
      (hspent : DidHosting.exhausted e tick.1 = true)
  | answered {tick : Tick} {target docId : String} (htick : tick ∈ ticks)
      (htarget : ∃ s ∈ V, ∃ k e', s.row k = some e' ∧ targetOfKey k = some target)
      (hsent : (tick.2 target).outcome = .sent docId .https)
      (hkey : startsWith (targetPrefix target) key = true)
      (hdoc : e.awaitingAck = some docId)

namespace SendState

variable {V : Set OutboxStore} {g : SendState}

/-- A document that is not recorded is looked for under its key. -/
def read (g : SendState) (s : OutboxStore) : SendState :=
  match g.pending with
  | none => ⟨none, some s⟩
  | some d => if (s.row d.key).isSome then ⟨some d, none⟩ else ⟨none, none⟩

def wrote (g : SendState) : OutboxWrite → SendState
  | .deliver d => ⟨some d, none⟩
  | .insert _ _ => if g.pending.isSome then ⟨none, none⟩ else g
  | .remove _ => g

/-- The worker records what it has handed over, and writes no other document to a row. -/
def PermitsWorker (V : Set OutboxStore) (ticks : List Tick) (g : SendState) :
    OutboxWrite → Prop
  | .deliver _ => g.pending = none
  | .insert key e =>
      match g.pending with
      | none => e.awaitingAck = none
      | some d => d.key = key ∧ e.awaitingAck = some d.docId
  | .remove key =>
      g.pending = none ∧
        ∃ t, g.listed = some t ∧ ∃ e, t.row key = some e ∧ Worked V ticks key e

/-- The other operations send nothing. -/
def PermitsOther : OutboxWrite → Prop
  | .deliver _ => False
  | .insert _ e => e.awaitingAck = none
  | .remove _ => True

end SendState

/-- What an operation may commit, as far as sending goes. -/
def OutboxOp.monitor (V : Set OutboxStore) (op : OutboxOp) :
    Monitor SendState OutboxStore OutboxWrite where
  read := SendState.read
  wrote := SendState.wrote
  permits g w :=
    match op with
    | .work ticks => g.PermitsWorker V ticks w
    | _ => SendState.PermitsOther w

section

variable {V : Set OutboxStore} {g : SendState}

/-- The worker has recorded what it has handed over. -/
abbrev Idle (g : SendState) : Prop :=
  g.pending = none

section Worker

variable {ticks : List Tick} {now : ℕ} {sends : String → Send}

theorem obeys_rewrite {key : String} {e : OutboxEntry} (hg : Idle g)
    (he : e.awaitingAck = none) :
    (rewriteIfPresent key e).Obeys (OutboxOp.monitor V (.work ticks)) V g fun _ g => Idle g := by
  obtain ⟨pending, listed⟩ := g
  cases hg
  refine Prog.obeys_locked (Prog.obeys_bind (Prog.obeys_read ?_))
  intro s hs
  cases s.row key with
  | none => exact rfl
  | some held => exact Prog.obeys_write he rfl

theorem obeys_recordFailure {key err : String} {e : OutboxEntry} (hg : Idle g) :
    (recordFailure key e err now).Obeys (OutboxOp.monitor V (.work ticks)) V g
      fun _ g => Idle g := by
  unfold recordFailure
  refine Prog.obeys_bind ?_
  cases truncated err with
  | error msg => trivial
  | ok text => exact obeys_rewrite hg rfl

/-- A document that was handed over is recorded, unless the row is gone. -/
theorem obeys_recordSent {d : Delivery} {e : OutboxEntry} {at' : ℕ} :
    (recordSent d.key e d.docId at').Obeys (OutboxOp.monitor V (.work ticks)) V ⟨some d, none⟩
      fun _ g => Idle g := by
  refine Prog.obeys_locked (Prog.obeys_bind (Prog.obeys_read ?_))
  intro s hs
  have hread : SendState.read ⟨some d, none⟩ s =
      if (s.row d.key).isSome then ⟨some d, none⟩ else ⟨none, none⟩ := rfl
  change (Prog.writeOpt _).Obeys _ _ (SendState.read ⟨some d, none⟩ s) _
  rw [hread]
  cases s.row d.key with
  | none => exact rfl
  | some held => exact Prog.obeys_write ⟨rfl, rfl⟩ rfl

theorem obeys_ackLoop {docId : String} (pending : List (String × OutboxEntry)) (hg : Idle g)
    (hread : ∀ key e, (key, e) ∈ pending → e.awaitingAck = some docId →
      ∃ t, g.listed = some t ∧ ∃ e, t.row key = some e ∧ Worked V ticks key e) :
    (ackLoop docId pending).Obeys (OutboxOp.monitor V (.work ticks)) V g fun _ g => Idle g := by
  induction pending with
  | nil => exact hg
  | cons row pending ih =>
      obtain ⟨key, e⟩ := row
      unfold ackLoop
      by_cases hdoc : e.awaitingAck = some docId
      · rw [if_pos hdoc]
        refine Prog.obeys_bind (Prog.obeys_locked (Prog.obeys_write ?_ hg))
        exact ⟨hg, hread key e List.mem_cons_self hdoc⟩
      · rw [if_neg hdoc]
        exact ih fun key e he => hread key e (List.mem_cons_of_mem _ he)

theorem obeys_selfAcknowledge (htick : (now, sends) ∈ ticks) {target docId : String}
    {transport : PeerTransport}
    (htarget : ∃ s ∈ V, ∃ k e', s.row k = some e' ∧ targetOfKey k = some target)
    (hsent : (sends target).outcome = .sent docId transport) (hg : Idle g) :
    (selfAcknowledge target docId transport).Obeys (OutboxOp.monitor V (.work ticks)) V g
      fun _ g => Idle g := by
  obtain ⟨pending, listed⟩ := g
  cases hg
  unfold selfAcknowledge
  by_cases hhttps : transport = .https
  · subst hhttps
    rw [if_pos rfl]
    refine Prog.obeys_bind (Prog.obeys_bind (Prog.obeys_read ?_))
    intro s hs
    refine Prog.obeys_mono (obeys_ackLoop _ rfl ?_) fun _ _ hidle => hidle
    intro key e hmem hdoc
    obtain ⟨hrow, hkey⟩ := row_of_mem_pending hmem
    exact ⟨s, rfl, e, hrow, .answered htick htarget hsent hkey hdoc⟩
  · rw [if_neg hhttps]
    exact rfl

theorem obeys_tickRows (htick : (now, sends) ∈ ticks) {target : String} {t : OutboxStore}
    (pending : List (String × OutboxEntry)) (hg : Idle g) (hlisted : g.listed = some t)
    (htarget : ∃ s ∈ V, ∃ k e, s.row k = some e ∧ targetOfKey k = some target)
    (hread : ∀ key e, (key, e) ∈ pending → t.row key = some e) (report : TickReport) :
    (tickRows now (sends target) target report pending).Obeys
      (OutboxOp.monitor V (.work ticks)) V g fun _ g => Idle g := by
  induction pending generalizing report with
  | nil => exact hg
  | cons row pending ih =>
      obtain ⟨key, e⟩ := row
      have hrow := hread key e List.mem_cons_self
      unfold tickRows
      by_cases hspent : exhausted e now = true
      · rw [if_pos hspent]
        refine Prog.obeys_bind (Prog.obeys_write ⟨hg, t, hlisted, e, hrow, ?_⟩ ?_)
        · exact .exhausted htick hspent
        · exact ih (fun key e he => hread key e (List.mem_cons_of_mem _ he)) _
      · rw [if_neg hspent]
        by_cases hwait : headAction e now = .wait
        · rw [if_pos hwait]
          exact hg
        · rw [if_neg hwait]
          cases hsent : (sends target).outcome with
          | sent docId transport =>
              refine Prog.obeys_bind (Prog.obeys_write hg ?_)
              refine Prog.obeys_bind (Prog.obeys_mono (obeys_recordSent
                (d := ⟨key, e.targetDid, docId⟩)) ?_)
              intro _ g' hg'
              refine Prog.obeys_bind (Prog.obeys_mono
                (obeys_selfAcknowledge htick htarget hsent hg') ?_)
              exact fun _ _ hidle => hidle
          | failed err =>
              refine Prog.obeys_bind (Prog.obeys_mono (obeys_recordFailure hg) ?_)
              exact fun _ _ hidle => hidle

theorem obeys_tickTargets (htick : (now, sends) ∈ ticks) (targets : List String) (hg : Idle g)
    (hnamed : ∀ target ∈ targets,
      ∃ s ∈ V, ∃ k e, s.row k = some e ∧ targetOfKey k = some target) (report : TickReport) :
    (tickTargets now sends report targets).Obeys (OutboxOp.monitor V (.work ticks)) V g
      fun _ g => Idle g := by
  induction targets generalizing g report with
  | nil => exact hg
  | cons target rest ih =>
      obtain ⟨pending, listed⟩ := g
      cases hg
      refine Prog.obeys_bind (Prog.obeys_read ?_)
      intro s hs
      refine Prog.obeys_bind (Prog.obeys_mono (obeys_tickRows htick _ rfl rfl
        (hnamed target List.mem_cons_self) ?_ _) ?_)
      · exact fun key e hmem => (row_of_mem_pending hmem).1
      · intro _ g' hg'
        exact ih hg' (fun t ht => hnamed t (List.mem_cons_of_mem _ ht)) _

theorem obeys_runTick (htick : (now, sends) ∈ ticks) (hg : Idle g) :
    (runTick now sends).Obeys (OutboxOp.monitor V (.work ticks)) V g fun _ g => Idle g := by
  obtain ⟨pending, listed⟩ := g
  cases hg
  refine Prog.obeys_bind (Prog.obeys_read ?_)
  intro s hs
  exact obeys_tickTargets htick _ rfl (fun target hmem => ⟨s, hs, mem_listTargets hmem⟩) _

theorem obeys_runOutboxLoop {rest : List Tick} (hrest : rest ⊆ ticks) (hg : Idle g) :
    (runOutboxLoop rest).Obeys (OutboxOp.monitor V (.work ticks)) V g fun _ _ => True := by
  induction rest generalizing g with
  | nil => trivial
  | cons tick rest ih =>
      obtain ⟨now, sends⟩ := tick
      refine Prog.obeys_bind (Prog.obeys_mono (obeys_runTick (hrest List.mem_cons_self) hg) ?_)
      intro _ g' hg'
      exact ih (fun _ hmem => hrest (List.mem_cons_of_mem _ hmem)) hg'

end Worker

theorem obeys_retire {op : OutboxOp} (hop : op.works = false) {key : String} :
    (retire key).Obeys (op.monitor V) V g fun _ _ => True := by
  refine Prog.obeys_locked (Prog.obeys_write ?_ trivial)
  cases op with
  | work ticks => cases hop
  | _ => trivial

theorem obeys_ackLoop_other {op : OutboxOp} (hop : op.works = false) {docId : String}
    (pending : List (String × OutboxEntry)) :
    (ackLoop docId pending).Obeys (op.monitor V) V g fun _ _ => True := by
  induction pending with
  | nil => trivial
  | cons row pending ih =>
      obtain ⟨key, e⟩ := row
      unfold ackLoop
      by_cases hdoc : e.awaitingAck = some docId
      · rw [if_pos hdoc]
        exact Prog.obeys_bind (obeys_retire hop)
      · rw [if_neg hdoc]
        exact ih

theorem obeys_dropLoop {op : OutboxOp} (hop : op.works = false) {msgType : String}
    {superseded : Json → Bool} (pending : List (String × OutboxEntry)) (dropped : ℕ) :
    (dropLoop msgType superseded dropped pending).Obeys (op.monitor V) V g
      fun _ _ => True := by
  induction pending generalizing g dropped with
  | nil => trivial
  | cons row pending ih =>
      obtain ⟨key, e⟩ := row
      unfold dropLoop
      by_cases hmatch : (e.msgType = msgType && superseded e.body) = true
      · rw [if_pos hmatch]
        exact Prog.obeys_bind (Prog.obeys_mono (obeys_retire hop) fun _ _ _ => ih _)
      · rw [if_neg hmatch]
        exact ih _

theorem OutboxOp.obeys_prog (op : OutboxOp) :
    op.prog.Obeys (op.monitor V) V .start fun _ _ => True := by
  cases op with
  | enqueue targetDid msgType body now micros uuidShort => exact Prog.obeys_write rfl trivial
  | work ticks => exact obeys_runOutboxLoop (fun _ h => h) rfl
  | acknowledge signer docId =>
      refine Prog.obeys_bind (Prog.obeys_bind (Prog.obeys_read ?_))
      exact fun s _ => Prog.obeys_mono (obeys_ackLoop_other rfl _) fun _ _ _ => trivial
  | dropQueued targetDid msgType superseded =>
      refine Prog.obeys_bind (Prog.obeys_bind (Prog.obeys_read ?_))
      exact fun s _ => Prog.obeys_mono (obeys_dropLoop rfl _ 0) fun _ _ _ => trivial

end

/-! ## What is remembered is true of the store -/

/-- What is remembered of the worker, against the store. -/
structure Sending (g : SendState) (s : OutboxStore) : Prop where
  handed : ∀ d, g.pending = some d → s.lastSent d.key = some d.docId
  recorded : ∀ key e docId, s.row key = some e → e.awaitingAck = some docId →
    s.lastSent key = some docId ∨ ∃ d, g.pending = some d ∧ d.key = key
  listed : ∀ t key e docId, g.listed = some t → t.row key = some e →
    e.awaitingAck = some docId → s.lastSent key = some docId

/-- What is remembered of the worker is true of what it has read and of the store. -/
def Sends (op : OutboxOp) (g : SendState) (seen : List OutboxStore) (s : OutboxStore) : Prop :=
  op.works = true → (∀ t, g.listed = some t → t ∈ seen) ∧ Sending g s

section

variable {V : Set OutboxStore} {g : SendState} {s : OutboxStore}

theorem OutboxStore.Recorded.sending (h : s.Recorded) : Sending .start s where
  handed _ hd := nomatch hd
  recorded key e docId hrow hdoc := Or.inl (h key e docId hrow hdoc)
  listed _ _ _ _ ht := nomatch ht

theorem Sending.read (h : Sending g s) : Sending (g.read s) s := by
  obtain ⟨pending, listed⟩ := g
  cases pending with
  | none =>
      have hrecorded : s.Recorded := by
        intro key e docId hrow hdoc
        rcases h.recorded key e docId hrow hdoc with hsent | ⟨d, hd, -⟩
        · exact hsent
        · cases hd
      refine ⟨fun _ hd => (nomatch hd), h.recorded, ?_⟩
      intro t key e docId ht hrow hdoc
      obtain rfl : s = t := Option.some.inj ht
      exact hrecorded key e docId hrow hdoc
  | some d =>
      have hread : SendState.read ⟨some d, listed⟩ s =
          if (s.row d.key).isSome then ⟨some d, none⟩ else ⟨none, none⟩ := rfl
      rw [hread]
      cases hheld : s.row d.key with
      | some held => exact ⟨h.handed, h.recorded, fun _ _ _ _ ht => (nomatch ht)⟩
      | none =>
          -- a row that is gone awaits nothing
          refine ⟨fun _ hd => (nomatch hd), ?_, fun _ _ _ _ ht => (nomatch ht)⟩
          intro key e docId hrow hdoc
          rcases h.recorded key e docId hrow hdoc with hsent | ⟨d', hd, hkey⟩
          · exact Or.inl hsent
          · cases hd
            rw [hkey, hrow] at hheld
            cases hheld

theorem SendState.listed_read {seen : List OutboxStore} (t : OutboxStore)
    (ht : (g.read s).listed = some t) : t ∈ s :: seen := by
  obtain ⟨pending, listed⟩ := g
  cases pending with
  | none =>
      obtain rfl : s = t := Option.some.inj ht
      exact List.mem_cons_self
  | some d =>
      have hread : SendState.read ⟨some d, listed⟩ s =
          if (s.row d.key).isSome then ⟨some d, none⟩ else ⟨none, none⟩ := rfl
      rw [hread] at ht
      split at ht
      · cases ht
      · cases ht

theorem SendState.listed_wrote {w : OutboxWrite} {t : OutboxStore}
    (ht : (g.wrote w).listed = some t) : g.listed = some t := by
  obtain ⟨pending, listed⟩ := g
  cases w with
  | deliver d => cases ht
  | remove key => exact ht
  | insert key e =>
      cases pending with
      | none => exact ht
      | some d => cases ht

/-- A commit that sends nothing and lets no further row await anything. -/
theorem Sending.keeps {t : OutboxStore} (h : Sending g s)
    (hsent : ∀ key, t.lastSent key = s.lastSent key)
    (hrow : ∀ key e docId, t.row key = some e → e.awaitingAck = some docId →
      s.row key = some e) : Sending g t where
  handed d hd := by rw [hsent, h.handed d hd]
  recorded key e docId hkey hdoc := by
    rw [hsent]
    exact h.recorded key e docId (hrow key e docId hkey hdoc) hdoc
  listed t' key e docId ht hkey hdoc := by rw [hsent, h.listed t' key e docId ht hkey hdoc]

theorem Sending.insert {key : String} {e : OutboxEntry} (h : Sending g s)
    (he : e.awaitingAck = none) : Sending g (OutboxStore.commit (.insert key e) s) := by
  refine h.keeps (fun _ => rfl) ?_
  intro key' e' docId hrow hdoc
  rw [row_insert] at hrow
  by_cases hkey : key' = key
  · rw [if_pos hkey] at hrow
    cases hrow
    rw [he] at hdoc
    cases hdoc
  · rwa [if_neg hkey] at hrow

theorem Sending.remove {key : String} (h : Sending g s) :
    Sending g (OutboxStore.commit (.remove key) s) := by
  refine h.keeps (fun _ => rfl) ?_
  intro key' e' docId hrow _
  rw [row_remove] at hrow
  by_cases hkey : key' = key
  · rw [if_pos hkey] at hrow
    cases hrow
  · rwa [if_neg hkey] at hrow

/-- A document is handed over while none is to be recorded. -/
theorem Sending.deliver {d : Delivery} (h : Sending g s) (hidle : Idle g) :
    Sending ⟨some d, none⟩ (OutboxStore.commit (.deliver d) s) := by
  refine ⟨?_, ?_, fun _ _ _ _ ht => (nomatch ht)⟩
  · intro d' hd
    obtain rfl : d = d' := Option.some.inj hd
    rw [OutboxStore.lastSent_deliver, if_pos rfl]
  · intro key e docId hrow hdoc
    rw [row_deliver] at hrow
    rw [OutboxStore.lastSent_deliver]
    by_cases hkey : d.key = key
    · exact Or.inr ⟨d, rfl, hkey⟩
    · rw [if_neg hkey]
      rcases h.recorded key e docId hrow hdoc with hsent | ⟨d', hd, -⟩
      · exact Or.inl hsent
      · rw [hidle] at hd
        cases hd

/-- The document that was handed over is recorded. -/
theorem Sending.record {d : Delivery} {e : OutboxEntry} (h : Sending g s)
    (hpending : g.pending = some d) (hdoc : e.awaitingAck = some d.docId) :
    Sending .start (OutboxStore.commit (.insert d.key e) s) := by
  refine OutboxStore.Recorded.sending ?_
  intro key' e' docId hrow hdoc'
  rw [OutboxStore.lastSent_insert]
  rw [row_insert] at hrow
  by_cases hkey : key' = d.key
  · rw [if_pos hkey] at hrow
    cases hrow
    rw [hkey, ← hdoc', hdoc]
    exact h.handed d hpending
  · rw [if_neg hkey] at hrow
    rcases h.recorded key' e' docId hrow hdoc' with hsent | ⟨d', hd, hkey'⟩
    · exact hsent
    · rw [hpending] at hd
      cases hd
      exact absurd hkey'.symm hkey

/-- A commit of the worker. -/
theorem Sending.wrote {ticks : List Tick} {w : OutboxWrite} (h : Sending g s)
    (hw : g.PermitsWorker V ticks w) : Sending (g.wrote w) (OutboxStore.commit w s) := by
  obtain ⟨pending, listed⟩ := g
  cases w with
  | deliver d => exact h.deliver hw
  | remove key => exact h.remove
  | insert key e =>
      cases pending with
      | none => exact h.insert hw
      | some d =>
          obtain ⟨rfl, hdoc⟩ : d.key = key ∧ e.awaitingAck = some d.docId := hw
          exact h.record rfl hdoc

/-- A commit of another operation. -/
theorem Sending.other {w : OutboxWrite} (h : Sending g s) (hw : SendState.PermitsOther w) :
    Sending g (OutboxStore.commit w s) := by
  cases w with
  | deliver d => cases hw
  | insert key e => exact h.insert hw
  | remove key => exact h.remove

end

section

variable {ι : Type} [DecidableEq ι] {s₀ : OutboxStore} {ops : ι → OutboxOp}

/-- In every run with one worker, what is remembered of it is true of the store. -/
theorem monitored_outbox (hone : ∀ i j, (ops i).works = true → (ops j).works = true → i = j)
    (hrecorded : s₀.Recorded) (schedule : List ι) :
    (outboxAfter s₀ ops schedule).Monitored (fun i => (ops i).monitor (KnownRows s₀ ops))
      (KnownRows s₀ ops) fun i => Sends (ops i) := by
  induction schedule using List.reverseRecOn with
  | nil =>
      refine Machine.monitored_start (fun _ => .start) (fun i => (ops i).obeys_prog) ?_
      exact fun _ _ => ⟨fun _ ht => (nomatch ht), hrecorded.sending⟩
  | append_singleton schedule i ih =>
      rw [outboxAfter_append]
      refine ih.step i (watched_worker hone schedule).store ?_ ?_
      · exact fun g seen hg hworks => ⟨SendState.listed_read, (hg hworks).2.read⟩
      · intro w g seen hg hw
        cases hop : ops i with
        | work ticks =>
            have hworks : (ops i).works = true := by
              rw [hop]
              rfl
            have hw : g.PermitsWorker (KnownRows s₀ ops) ticks w := by
              simpa only [OutboxOp.monitor, hop] using hw
            refine ⟨fun _ => ⟨?_, (hg hworks).2.wrote hw⟩, ?_⟩
            · exact fun t ht => (hg hworks).1 t (SendState.listed_wrote ht)
            · exact fun j hj g' _ _ hworks' => absurd (hone j i hworks' hworks) hj
        | _ =>
            have hw : SendState.PermitsOther w := by
              simpa only [OutboxOp.monitor, hop] using hw
            refine ⟨fun hworks => (nomatch hworks), ?_⟩
            exact fun j _ g' _ hg' hworks' => ⟨(hg' hworks').1, (hg' hworks').2.other hw⟩

end

/-! ## Acknowledgements -/

/-- The operation acknowledges the document that the row awaits. -/
def OutboxOp.acknowledges : OutboxOp → String → OutboxEntry → Bool
  | .acknowledge signer docId, key, e =>
      startsWith (targetPrefix signer) key && e.awaitingAck = some docId
  | _, _, _ => false

/-- The machine of outbox operations. -/
abbrev OutboxMachine (ι : Type) :=
  Machine ι OutboxStore OutboxWrite OutboxLock AppError Unit

section

variable {ι : Type} (ops : ι → OutboxOp)

/-- Thread `i`, with `p` left to do, keeps acknowledgements and further sends of a row apart:
an acknowledgement reads the rows when what it acknowledges is still the document that was
handed over last, and no row is handed over again under an acknowledgement that has read
it. -/
def ApartAt (m : OutboxMachine ι) (i : ι) : OutboxM Unit → Prop
  | .ask _ => ∀ r ∈ Table.rows m.store.rows, (ops i).acknowledges r.1 r.2 = true →
      m.store.lastSent r.1 = r.2.awaitingAck
  | .commit (.deliver d) _ => ∀ j, (m.thread j).prog.isDone = false →
      ∀ t ∈ (m.thread j).seen, ((t.row d.key).any ((ops j).acknowledges d.key)) = false
  | _ => True

/-- The step keeps acknowledgements and further sends of a row apart. -/
def SendsApart (m : OutboxMachine ι) (i : ι) : Prop :=
  ApartAt ops m i (m.thread i).prog

instance [Fintype ι] (m : OutboxMachine ι) (i : ι) : ∀ p, Decidable (ApartAt ops m i p)
  | .ask _ => inferInstanceAs (Decidable (∀ r ∈ Table.rows m.store.rows, _ → _))
  | .commit (.deliver d) _ =>
      inferInstanceAs (Decidable (∀ j, (m.thread j).prog.isDone = false →
        ∀ t ∈ (m.thread j).seen, ((t.row d.key).any ((ops j).acknowledges d.key)) = false))
  | .commit (.insert _ _) _ => inferInstanceAs (Decidable True)
  | .commit (.remove _) _ => inferInstanceAs (Decidable True)
  | .ret _ => inferInstanceAs (Decidable True)
  | .fail _ => inferInstanceAs (Decidable True)
  | .lock _ _ => inferInstanceAs (Decidable True)
  | .unlock _ _ => inferInstanceAs (Decidable True)

instance [Fintype ι] (m : OutboxMachine ι) (i : ι) : Decidable (SendsApart ops m i) :=
  inferInstanceAs (Decidable (ApartAt ops m i _))

variable {ops} [DecidableEq ι]

/-- What an acknowledgement under way has read awaits the document that was handed over
last. -/
def AckedLast (ops : ι → OutboxOp) (m : OutboxMachine ι) : Prop :=
  ∀ i, (m.thread i).prog.isDone = false → ∀ t ∈ (m.thread i).seen, ∀ key e,
    t.row key = some e → (ops i).acknowledges key e = true →
      m.store.lastSent key = e.awaitingAck

/-- A step hands nothing over for a row that an acknowledgement under way has read. -/
theorem lastSent_step {m : OutboxMachine ι} {i j : ι} (hok : SendsApart ops m i)
    (hj : (m.thread j).prog.isDone = false) {t : OutboxStore} (ht : t ∈ (m.thread j).seen)
    {key : String} {e : OutboxEntry} (hrow : t.row key = some e)
    (hack : (ops j).acknowledges key e = true) :
    (m.step i).store.lastSent key = m.store.lastSent key := by
  rcases m.step_store i with hsame | ⟨w, next, hp, hw⟩
  · rw [hsame]
  · rw [hw]
    cases w with
    | insert key' e' => exact OutboxStore.lastSent_insert m.store key' key e'
    | remove key' => exact OutboxStore.lastSent_remove m.store key' key
    | deliver d =>
        unfold SendsApart at hok
        rw [hp] at hok
        refine (OutboxStore.lastSent_deliver m.store d key).trans (if_neg ?_)
        rintro rfl
        have hread := hok j hj t ht
        rw [hrow, Option.any_some, hack] at hread
        cases hread

theorem ackedLast_step {m : OutboxMachine ι} {i : ι} (hok : SendsApart ops m i)
    (h : AckedLast ops m) : AckedLast ops (m.step i) := by
  intro j hj t ht key e hrow hack
  have hold : (m.thread j).prog.isDone = false → t ∈ (m.thread j).seen →
      (m.step i).store.lastSent key = e.awaitingAck := by
    intro hj ht
    rw [lastSent_step hok hj ht hrow hack]
    exact h j hj t ht key e hrow hack
  by_cases hji : j = i
  · subst hji
    cases hdone : (m.thread j).prog.isDone with
    | true =>
        rw [Machine.step_of_done hdone, hdone] at hj
        cases hj
    | false =>
        cases hp : (m.thread j).prog with
        | ask k =>
            unfold SendsApart at hok
            rw [hp] at hok
            rw [Machine.step_of_ask hp, Machine.resume_thread_self] at ht
            rcases List.mem_cons.mp ht with rfl | hseen
            · rw [Machine.step_of_ask hp, Machine.resume_store]
              exact hok (key, e) (Table.mem_rows.mpr hrow) hack
            · exact hold hdone hseen
        | commit w next =>
            rw [Machine.step_of_commit hp, Machine.resume_thread_self] at ht
            exact hold hdone ht
        | lock l next =>
            cases hlock : m.locks l with
            | some k =>
                rw [Machine.step_of_lock_held hp hlock] at ht
                exact hold hdone ht
            | none =>
                rw [Machine.step_of_lock_free hp hlock, Machine.resume_thread_self] at ht
                exact hold hdone ht
        | unlock l next =>
            rw [Machine.step_of_unlock hp, Machine.resume_thread_self] at ht
            exact hold hdone ht
        | ret a =>
            rw [hp] at hdone
            cases hdone
        | fail e =>
            rw [hp] at hdone
            cases hdone
  · rw [Machine.step_thread_ne hji] at hj ht
    exact hold hj ht

/-- In every run that keeps acknowledgements and further sends apart. -/
theorem ackedLast {s₀ : OutboxStore} {schedule : List ι}
    (h : Run.Meets Machine.step (SendsApart ops) (Machine.start s₀ fun i => (ops i).prog)
      schedule) : AckedLast ops (outboxAfter s₀ ops schedule) := by
  refine Run.exec_invariant (fun m i => ackedLast_step) ?_ h
  intro i _ t ht
  exact absurd ht List.not_mem_nil

end

end DidHosting
