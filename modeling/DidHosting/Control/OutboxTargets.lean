import DidHosting.Control.OutboxSent

/-!
# Why a row leaves the outbox

The rows of a target are found by the prefix `outbox:{target}:` of their keys.
The prefix also fits the keys of other targets, whose DID continues this one
after a `:`.  And a row that is sent again awaits its earlier document until the
new one is recorded.  Where no such pair of DIDs is in use, and no
acknowledgement overlaps a further send of its row, a row leaves the outbox only
by its own target's acknowledgement of the document last sent for it, by a drop
the control plane made for its target, or because its budget is spent.
-/

namespace DidHosting

open Text

section

variable {ι : Type}

/-- The DIDs whose rows are looked for: those that acknowledge, those rows are
dropped for, and those rows are queued for. -/
def Parties (s₀ : OutboxStore) (ops : ι → OutboxOp) : Set String :=
  {t | (∃ i docId, ops i = .acknowledge t docId) ∨
    (∃ i msgType superseded, ops i = .dropQueued t msgType superseded) ∨
    ∃ key msg, Origin s₀ ops key msg ∧ targetOfKey key = some t}

/-- A key that starts with the prefix of one of these DIDs is a key of its
rows. -/
def Separated (s₀ : OutboxStore) (ops : ι → OutboxOp) : Prop :=
  ∀ t ∈ Parties s₀ ops, ∀ key msg, Origin s₀ ops key msg →
    startsWith (targetPrefix t) key = true → msg.targetDid = t

/-- Why operation `op`, having read the stores `seen`, removes the row `e` from
under `key` of the store `before`. -/
inductive Removal (op : OutboxOp) (seen : List OutboxStore) (before : OutboxStore)
    (key : String) (e : OutboxEntry) : Prop where
  | acknowledged {docId : String} (hop : op = .acknowledge e.targetDid docId)
      (hlast : before.lastSent key = some docId)
  | superseded {superseded : Json → Bool}
      (hop : op = .dropQueued e.targetDid e.msgType superseded)
      (hbody : superseded e.body = true)
  | exhausted {ticks : List Tick} {tick : Tick} (hop : op = .work ticks)
      (htick : tick ∈ ticks)
      (hread : ∃ s ∈ seen, ∃ e₀, s.row key = some e₀ ∧ e₀.message = e.message ∧
        DidHosting.exhausted e₀ tick.1 = true)
  | answered {ticks : List Tick} {tick : Tick} {docId : String} (hop : op = .work ticks)
      (htick : tick ∈ ticks) (hsent : (tick.2 e.targetDid).outcome = .sent docId .https)
      (hlast : before.lastSent key = some docId)

variable {s₀ : OutboxStore} {ops : ι → OutboxOp}

/-- What the worker found in a row of the prefix of a target is of the row's own
target. -/
theorem Worked.removal (hsep : Separated s₀ ops) {ticks : List Tick}
    {seen : List OutboxStore} {before t : OutboxStore}
    (ht : t ∈ seen) {key : String} {e₀ e : OutboxEntry} (hrow : t.row key = some e₀)
    (hmsg : e₀.message = e.message) (horigin : Origin s₀ ops key e.message)
    (hlast : ∀ docId, e₀.awaitingAck = some docId → before.lastSent key = some docId)
    (h : Worked (KnownRows s₀ ops) ticks key e₀) :
    Removal (.work ticks) seen before key e := by
  cases h with
  | exhausted htick hspent => exact .exhausted rfl htick ⟨t, ht, e₀, hrow, hmsg, hspent⟩
  | @answered tick target docId htick htarget hsent hkey hdoc =>
      obtain ⟨s, hs, k, e', hrow', hname⟩ := htarget
      have hown : e.targetDid = target :=
        hsep target (Or.inr (Or.inr ⟨k, e'.message, hs k e' hrow', hname⟩)) key e.message
          horigin hkey
      subst hown
      exact .answered rfl htick hsent (hlast docId hdoc)

/-- What another operation found in a row of the prefix of a target is of the row's own
target. -/
theorem Retires.removal (hsep : Separated s₀ ops) {i : ι} (hworks : (ops i).works = false)
    {seen : List OutboxStore} {before : OutboxStore} {key : String} {e₀ e : OutboxEntry}
    (hmsg : e₀.message = e.message) (horigin : Origin s₀ ops key e.message)
    (hlast : (ops i).acknowledges key e₀ = true → before.lastSent key = e₀.awaitingAck)
    (h : Retires (ops i) seen key e₀) : Removal (ops i) seen before key e := by
  have htype : e₀.msgType = e.msgType := congrArg Message.msgType hmsg
  have hbodyEq : e₀.body = e.body := congrArg Message.body hmsg
  cases h with
  | @acknowledged signer docId hop hkey hdoc =>
      have hown : e.targetDid = signer :=
        hsep signer (Or.inl ⟨i, docId, hop⟩) key e.message horigin hkey
      subst hown
      have hack : (ops i).acknowledges key e₀ = true := by
        rw [hop]
        exact Bool.and_eq_true_iff.mpr ⟨hkey, decide_eq_true hdoc⟩
      exact .acknowledged hop ((hlast hack).trans hdoc)
  | @superseded targetDid msgType superseded hop hkey hty hbody =>
      have hown : e.targetDid = targetDid :=
        hsep targetDid (Or.inr (Or.inl ⟨i, msgType, superseded, hop⟩)) key e.message horigin
          hkey
      subst hown
      rw [← hty, htype] at hop
      rw [hbodyEq] at hbody
      exact .superseded hop hbody
  | exhausted hop htick hspent =>
      rw [hop] at hworks
      cases hworks
  | answered hop htick htarget hsent hkey hdoc =>
      rw [hop] at hworks
      cases hworks

variable [DecidableEq ι]

omit [DecidableEq ι] in
/-- A commit after which a row is gone is its removal. -/
theorem eq_remove_of_row {s : OutboxStore} {w : OutboxWrite} {key : String} {e : OutboxEntry}
    (hbefore : s.row key = some e) (hafter : (OutboxStore.commit w s).row key = none) :
    w = .remove key := by
  cases w with
  | insert k e' =>
      rw [row_insert] at hafter
      split at hafter
      · cases hafter
      · rw [hbefore] at hafter
        cases hafter
  | remove k =>
      rw [row_remove] at hafter
      split at hafter
      · rename_i hkey
        rw [hkey]
      · rw [hbefore] at hafter
        cases hafter
  | deliver d =>
      rw [row_deliver, hbefore] at hafter
      cases hafter

theorem eq_commit_of_row {m : OutboxMachine ι} {i : ι} {key : String} {e : OutboxEntry}
    (hbefore : m.store.row key = some e) (hafter : (m.step i).store.row key = none) :
    ∃ next, (m.thread i).prog = .commit (.remove key) next := by
  rcases m.step_store i with hsame | ⟨w, next, hp, hw⟩
  · rw [hsame, hbefore] at hafter
    cases hafter
  · rw [hw] at hafter
    rw [eq_remove_of_row hbefore hafter] at hp
    exact ⟨next, hp⟩

/-- Whatever the interleaving, with no target's DID continuing another's and no
acknowledgement overlapping a further send of its row: an operation that makes a
row disappear is its own target's acknowledgement of the document that was sent
last for the row, a drop for this target that the row matches, or the worker,
which found the budget of the row spent or was answered by the target itself, over
HTTPS, to the document it had sent last. -/
theorem removed_for_own_target (hfresh : FreshKeys s₀ ops) (hsep : Separated s₀ ops)
    (hone : ∀ i j, (ops i).works = true → (ops j).works = true → i = j)
    (hrecorded : s₀.Recorded) (schedule : List ι)
    (hapart : Run.Meets Machine.step (SendsApart ops)
      (Machine.start s₀ fun i => (ops i).prog) schedule)
    (i : ι) {key : String} {e : OutboxEntry}
    (hbefore : (outboxAfter s₀ ops schedule).store.row key = some e)
    (hafter : (outboxAfter s₀ ops (schedule ++ [i])).store.row key = none) :
    Removal (ops i) ((outboxAfter s₀ ops schedule).thread i).seen
      (outboxAfter s₀ ops schedule).store key e := by
  have hwatched := @watched_worker _ s₀ _ _ hone schedule
  rw [outboxAfter_append] at hafter
  obtain ⟨next, hp⟩ := eq_commit_of_row hbefore hafter
  have horigin : Origin s₀ ops key e.message := hwatched.store key e hbefore
  have hmessage : ∀ s ∈ ((outboxAfter s₀ ops schedule).thread i).seen, ∀ e₀,
      s.row key = some e₀ → e₀.message = e.message := by
    intro s hs e₀ hrow
    exact hfresh.origin_unique (hwatched.seen i s hs key e₀ hrow) horigin
  cases hworks : (ops i).works with
  | true =>
      obtain ⟨ticks, hop⟩ : ∃ ticks, ops i = .work ticks := by
        cases hop : ops i with
        | work ticks => exact ⟨ticks, rfl⟩
        | _ =>
            rw [hop] at hworks
            cases hworks
      obtain ⟨g, hsends, hpermits⟩ := (monitored_outbox hone hrecorded schedule).commit hp
      obtain ⟨hseen, hsending⟩ := hsends hworks
      have hpermits : g.PermitsWorker (KnownRows s₀ ops) ticks (.remove key) := by
        simpa only [OutboxOp.monitor, hop] using hpermits
      obtain ⟨-, t, hlisted, e₀, hrow, hworked⟩ := hpermits
      rw [hop]
      refine hworked.removal hsep (hseen t hlisted) hrow
        (hmessage t (hseen t hlisted) e₀ hrow) horigin ?_
      exact fun docId hdoc => hsending.listed t key e₀ docId hlisted hrow hdoc
  | false =>
      obtain ⟨l, hknows, -, s, hs, e₀, hrow, hwhy⟩ := hwatched.commit hp
      rw [hknows.seen] at hs hwhy
      refine hwhy.removal hsep hworks (hmessage s hs e₀ hrow) horigin ?_
      exact ackedLast hapart i (by rw [hp]; rfl) s hs key e₀ hrow

end

/-! ### Rows that are sent again -/

namespace OutboxSample

/-- What happens to a row that is sent twice. -/
inductive Resent where
  | enqueue
  | work
  | ackFirst
  | ackLast
  | drop
deriving DecidableEq

instance : Fintype Resent :=
  Fintype.ofList [.enqueue, .work, .ackFirst, .ackLast, .drop] fun i => by cases i <;> decide

/-- A row is queued for `target`, sent as "urn:1" and sent again as "urn:2"; `did:web:h.io`
acknowledges both documents, and its purges are dropped. -/
def resentOps (target : String) : Resent → OutboxOp
  | .enqueue => .enqueue target "purge" .null 1 1 uuid
  | .work => .work [(1, fun _ => ⟨.sent "urn:1" .didcomm, 1⟩),
      (61, fun _ => ⟨.sent "urn:2" .didcomm, 61⟩)]
  | .ackFirst => .acknowledge "did:web:h.io" "urn:1"
  | .ackLast => .acknowledge "did:web:h.io" "urn:2"
  | .drop => .dropQueued "did:web:h.io" "purge" fun _ => true

theorem one_sender (target : String) (i j : Resent) (hi : (resentOps target i).works = true)
    (hj : (resentOps target j).works = true) : i = j := by
  have hwork : ∀ k, (resentOps target k).works = true → k = .work := by
    intro k hk
    cases k with
    | work => rfl
    | enqueue | ackFirst | ackLast | drop => cases hk
  rw [hwork i hi, hwork j hj]

theorem added_resent {target key : String} {e : OutboxEntry} {k : Resent}
    (hk : (resentOps target k).added = some (key, e)) :
    k = .enqueue ∧ key = outboxKey target 1 uuid ∧ e = newEntry target "purge" .null 1 := by
  cases k with
  | enqueue =>
      cases hk
      exact ⟨rfl, rfl, rfl⟩
  | work | ackFirst | ackLast | drop => cases hk

theorem freshKeys_resent (target : String) : FreshKeys empty (resentOps target) := by
  refine ⟨fun _ _ _ _ => rfl, ?_⟩
  intro i j key e e' hi hj
  rw [(added_resent hi).1, (added_resent hj).1]

theorem origin_resent {target key : String} {msg : Message}
    (h : Origin empty (resentOps target) key msg) :
    key = outboxKey target 1 uuid ∧ msg.targetDid = target := by
  rcases h with ⟨e, hrow, -⟩ | ⟨i, e, hadd, rfl⟩
  · cases hrow
  · obtain ⟨-, hkey, rfl⟩ := added_resent hadd
    exact ⟨hkey, rfl⟩

theorem separated_resent : Separated empty (resentOps "did:web:h.io") := by
  have hname : targetOfKey (outboxKey "did:web:h.io" 1 uuid) = some "did:web:h.io" := by
    decide +kernel
  have hacks : ∀ i t docId, resentOps "did:web:h.io" i = .acknowledge t docId →
      t = "did:web:h.io" := by
    intro i t docId hop
    cases i with
    | ackFirst | ackLast => exact (OutboxOp.acknowledge.inj hop).1.symm
    | enqueue | work | drop => cases hop
  have hdrops : ∀ i t msgType superseded, resentOps "did:web:h.io" i =
      .dropQueued t msgType superseded → t = "did:web:h.io" := by
    intro i t msgType superseded hop
    cases i with
    | drop => exact (OutboxOp.dropQueued.inj hop).1.symm
    | enqueue | work | ackFirst | ackLast => cases hop
  intro t ht key msg horigin _
  rw [(origin_resent horigin).2]
  rcases ht with ⟨i, docId, hop⟩ | ⟨i, msgType, superseded, hop⟩ | ⟨key', msg', horigin', ht⟩
  · exact (hacks i t docId hop).symm
  · exact (hdrops i t msgType superseded hop).symm
  · rw [(origin_resent horigin').1, hname] at ht
    exact Option.some.inj ht

theorem recorded_empty : empty.Recorded :=
  fun _ _ _ hrow => nomatch hrow

/-- The row is sent twice.  The acknowledgement of "urn:1" finds nothing, and that of "urn:2"
is about to remove the row. -/
def acknowledging : List Resent :=
  .enqueue :: List.replicate 14 .work ++ [.ackFirst, .ackLast, .ackLast]

/-- The row is sent, and handed over again.  Before this is recorded, the acknowledgement of
"urn:1" is about to remove the row. -/
def acknowledgingLate : List Resent :=
  .enqueue :: List.replicate 10 .work ++ [.ackFirst, .ackFirst]

/-- The drop is about to remove the row, which nobody has sent. -/
def dropping : List Resent := [.enqueue, .drop, .drop]

/-- The document that the row awaits, and the one sent last for it. -/
def sentAfter (target : String) (schedule : List Resent) :
    Option (Option String × Option String) :=
  let s := (outboxAfter empty (resentOps target) schedule).store
  (s.row (outboxKey target 1 uuid)).map fun e =>
    (e.awaitingAck, s.lastSent (outboxKey target 1 uuid))

theorem row_of_sentAfter {target : String} {schedule : List Resent}
    {awaited last : Option String} (h : sentAfter target schedule = some (awaited, last)) :
    ∃ e, (outboxAfter empty (resentOps target) schedule).store.row (outboxKey target 1 uuid) =
      some e ∧ e.targetDid = target ∧
      (outboxAfter empty (resentOps target) schedule).store.lastSent (outboxKey target 1 uuid) =
        last := by
  obtain ⟨e, hrow, hsent⟩ := Option.map_eq_some_iff.mp h
  have horigin := (watched_worker (one_sender target) schedule).store _ e hrow
  exact ⟨e, hrow, (origin_resent horigin).2, (Prod.mk.inj hsent).2⟩

theorem row_of_sentAfter_eq_none {target : String} {schedule : List Resent}
    (h : sentAfter target schedule = none) :
    (outboxAfter empty (resentOps target) schedule).store.row (outboxKey target 1 uuid) =
      none :=
  Option.map_eq_none_iff.mp h

end OutboxSample

open OutboxSample in
/-- A row that was sent twice is acknowledged for the document that was sent last. -/
theorem removed_for_own_target_acknowledged :
    ∃ e, (outboxAfter empty (resentOps "did:web:h.io") acknowledging).store.row
        (outboxKey "did:web:h.io" 1 uuid) = some e ∧
      (outboxAfter empty (resentOps "did:web:h.io") (acknowledging ++ [.ackLast])).store.row
        (outboxKey "did:web:h.io" 1 uuid) = none ∧
      Removal (resentOps "did:web:h.io" .ackLast)
        ((outboxAfter empty (resentOps "did:web:h.io") acknowledging).thread .ackLast).seen
        (outboxAfter empty (resentOps "did:web:h.io") acknowledging).store
        (outboxKey "did:web:h.io" 1 uuid) e := by
  have ⟨hsent, hgone, hapart⟩ :
      sentAfter "did:web:h.io" acknowledging = some (some "urn:2", some "urn:2") ∧
      sentAfter "did:web:h.io" (acknowledging ++ [.ackLast]) = none ∧
      Run.Meets Machine.step (SendsApart (resentOps "did:web:h.io"))
        (Machine.start empty fun i => (resentOps "did:web:h.io" i).prog) acknowledging := by
    decide +kernel
  obtain ⟨e, hrow, -⟩ := row_of_sentAfter hsent
  have hnone := row_of_sentAfter_eq_none hgone
  exact ⟨e, hrow, hnone, removed_for_own_target (freshKeys_resent _) separated_resent
    (one_sender _) recorded_empty acknowledging hapart .ackLast hrow hnone⟩

open OutboxSample in
/-- A drop for `did:web:h.io` takes the purge queued for `did:web:h.io:e` with
it.  And an acknowledgement of "urn:1" removes a row that "urn:2" was sent for
since. -/
theorem dropped_for_other_target :
    (∃ e, (outboxAfter empty (resentOps "did:web:h.io:e") dropping).store.row
        (outboxKey "did:web:h.io:e" 1 uuid) = some e ∧
      (outboxAfter empty (resentOps "did:web:h.io:e") (dropping ++ [.drop])).store.row
        (outboxKey "did:web:h.io:e" 1 uuid) = none ∧
      ¬ Removal (resentOps "did:web:h.io:e" .drop)
        ((outboxAfter empty (resentOps "did:web:h.io:e") dropping).thread .drop).seen
        (outboxAfter empty (resentOps "did:web:h.io:e") dropping).store
        (outboxKey "did:web:h.io:e" 1 uuid) e) ∧
    ∃ e, (outboxAfter empty (resentOps "did:web:h.io") acknowledgingLate).store.row
        (outboxKey "did:web:h.io" 1 uuid) = some e ∧
      (outboxAfter empty (resentOps "did:web:h.io") (acknowledgingLate ++ [.ackFirst])).store.row
        (outboxKey "did:web:h.io" 1 uuid) = none ∧
      ¬ Removal (resentOps "did:web:h.io" .ackFirst)
        ((outboxAfter empty (resentOps "did:web:h.io") acknowledgingLate).thread .ackFirst).seen
        (outboxAfter empty (resentOps "did:web:h.io") acknowledgingLate).store
        (outboxKey "did:web:h.io" 1 uuid) e := by
  have ⟨hqueued, hdropped⟩ : sentAfter "did:web:h.io:e" dropping = some (none, none) ∧
      sentAfter "did:web:h.io:e" (dropping ++ [.drop]) = none := by
    decide +kernel
  have ⟨hsent, hremoved⟩ :
      sentAfter "did:web:h.io" acknowledgingLate = some (some "urn:1", some "urn:2") ∧
      sentAfter "did:web:h.io" (acknowledgingLate ++ [.ackFirst]) = none := by
    decide +kernel
  constructor
  · obtain ⟨e, hrow, htarget, -⟩ := row_of_sentAfter hqueued
    refine ⟨e, hrow, row_of_sentAfter_eq_none hdropped, ?_⟩
    have hne : "did:web:h.io" ≠ "did:web:h.io:e" := by decide
    intro h
    cases h with
    | acknowledged hop hlast => cases hop
    | superseded hop hbody => exact hne ((OutboxOp.dropQueued.inj hop).1.trans htarget)
    | exhausted hop htick hread => cases hop
    | answered hop htick hsent hlast => cases hop
  · obtain ⟨e, hrow, -, hlast⟩ := row_of_sentAfter hsent
    refine ⟨e, hrow, row_of_sentAfter_eq_none hremoved, ?_⟩
    have hne : "urn:2" ≠ "urn:1" := by decide
    intro h
    cases h with
    | acknowledged hop hlast' =>
        rw [← (OutboxOp.acknowledge.inj hop).2, hlast] at hlast'
        exact hne (Option.some.inj hlast')
    | superseded hop hbody => cases hop
    | exhausted hop htick hread => cases hop
    | answered hop htick hsent hlast => cases hop

end DidHosting
