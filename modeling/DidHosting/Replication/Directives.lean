import DidHosting.Edge.DomainSpec
import DidHosting.Edge.Reference
import DidHosting.Support.Run

/-!
# Domain directives from the control plane to an edge

The control plane records an intent for each domain operation, drops the queued
purges of a domain it assigns, and enqueues a row.  The worker signs a row each time
it sends it, with the second of the signature, and the network delivers signed
documents late, twice or out of order.  The edge compares the second of a purge with
the second in which it recorded its assignment of the domain.

Every operation has an issue number.  A row and a document carry the number of the
operation they come from, however often it is sent again.
-/

namespace DidHosting

/-! ## Control plane, network and edge -/

inductive DomainOp where
  | assign
  | unassign
  | purge
deriving DecidableEq, Repr

/-- `DomainIntent`, with the number of the operation in place of its time. -/
structure DomainIntent where
  op : DomainOp
  issue : ℕ
deriving DecidableEq, Repr

/-- A row of the outbox for the edge. -/
structure DirectiveRow where
  domain : String
  op : DomainOp
  issue : ℕ
deriving DecidableEq, Repr

/-- A signed document. -/
structure Directive where
  row : DirectiveRow
  issuedAt : ℕ
deriving DecidableEq, Repr

/-- The directives an intent is sent as: a purge is preceded by its unassign. -/
def DomainIntent.ops (intent : DomainIntent) : List DomainOp :=
  match intent.op with
  | .assign => [.assign]
  | .unassign => [.unassign]
  | .purge => [.unassign, .purge]

/-- The control plane, the documents under way and the edge.  `intended`, `rows` and
`signed` hold every intent, row and document there has been; `recorded` holds the
assignments the edge has recorded, by domain and issue number. -/
structure Replication where
  issued : ℕ
  intents : Table String DomainIntent
  queued : List DirectiveRow
  intended : List (String × DomainIntent)
  rows : List DirectiveRow
  signed : List Directive
  edge : EdgeStore
  recorded : List (String × ℕ)

/-- A write that leaves the assignments of an edge alone. -/
def EdgeWrite.OffAssignments : EdgeWrite → Prop
  | .insertAssignment _ => False
  | .removeAssignment _ => False
  | _ => True

/-- The single steps of `send_domain_assign`, `send_domain_unassign`,
`send_domain_purge` and `resend_domain_intents`, of the worker, of the network and of
other operations of the edge. -/
inductive DirectiveEvent where
  | intend (op : DomainOp) (domain : String)
  | drop (domain : String)
  | enqueue (row : DirectiveRow)
  | sign (row : DirectiveRow) (issuedAt : ℕ)
  | settle (row : DirectiveRow)
  | deliver (doc : Directive) (now : ℕ)
  | write (w : EdgeWrite) (off : w.OffAssignments)

namespace Replication

/-- `record_domain_intent`. -/
def intend (r : Replication) (op : DomainOp) (domain : String) : Replication :=
  { r with
    issued := r.issued + 1
    intents := r.intents.insert domain ⟨op, r.issued + 1⟩
    intended := (domain, ⟨op, r.issued + 1⟩) :: r.intended }

/-- A row comes from an intent recorded at some time: the sender may have read it
before the intent was replaced. -/
def Intended (r : Replication) (row : DirectiveRow) : Prop :=
  ∃ intent, (row.domain, intent) ∈ r.intended ∧ row.op ∈ intent.ops ∧ row.issue = intent.issue

instance (r : Replication) (row : DirectiveRow) : Decidable (r.Intended row) :=
  decidable_of_iff
    (∃ x ∈ r.intended, x.1 = row.domain ∧ row.op ∈ x.2.ops ∧ row.issue = x.2.issue) (by
      constructor
      · rintro ⟨⟨d, intent⟩, hmem, rfl, hop, hissue⟩
        exact ⟨intent, hmem, hop, hissue⟩
      · rintro ⟨intent, hmem, hop, hissue⟩
        exact ⟨(row.domain, intent), hmem, rfl, hop, hissue⟩)

def settleIntent (intents : Table String DomainIntent) (row : DirectiveRow) :
    Table String DomainIntent :=
  if row.op = .assign then intents
  else
    match intents.lookup row.domain with
    | some intent => if intent.op = row.op then intents.erase row.domain else intents
    | none => intents

/-- The edge applies a document at `now`, on its own clock. -/
def apply (L : Libs) (control : String) (grace : ℕ) (r : Replication) (doc : Directive)
    (now : ℕ) : Replication :=
  match doc.row.op with
  | .assign =>
      { r with
        edge := ((doDomainAssign L now control doc.row.domain).run r.edge).2
        recorded :=
          match checkCanonical L doc.row.domain "replica/domain/assign" with
          | .ok _ => (doc.row.domain, doc.row.issue) :: r.recorded
          | .error _ => r.recorded }
  | .unassign =>
      { r with edge := ((doDomainUnassign L now grace control doc.row.domain).run r.edge).2 }
  | .purge =>
      { r with edge := ((doDomainPurge L doc.issuedAt doc.row.domain).run r.edge).2 }

/-- One step.  The worker signs a row it has read at some time, and the network
delivers a document signed at some time. -/
def step (L : Libs) (control : String) (grace : ℕ) (r : Replication) :
    DirectiveEvent → Replication
  | .intend op domain => r.intend op domain
  | .drop domain =>
      { r with queued := r.queued.filter fun row => !(row.op = .purge && row.domain = domain) }
  | .enqueue row =>
      if r.Intended row then { r with queued := r.queued ++ [row], rows := row :: r.rows } else r
  | .sign row issuedAt =>
      if row ∈ r.rows then { r with signed := ⟨row, issuedAt⟩ :: r.signed } else r
  | .settle row =>
      { r with queued := r.queued.erase row, intents := settleIntent r.intents row }
  | .deliver doc now => if doc ∈ r.signed then r.apply L control grace doc now else r
  | .write w _ => { r with edge := EdgeStore.commit w r.edge }

section Steps

variable (L : Libs) (control : String) (grace : ℕ) (r : Replication)

theorem step_enqueue (row : DirectiveRow) :
    r.step L control grace (.enqueue row) =
      if r.Intended row then { r with queued := r.queued ++ [row], rows := row :: r.rows }
      else r := rfl

theorem step_sign (row : DirectiveRow) (issuedAt : ℕ) :
    r.step L control grace (.sign row issuedAt) =
      if row ∈ r.rows then { r with signed := ⟨row, issuedAt⟩ :: r.signed } else r := rfl

theorem step_deliver (doc : Directive) (now : ℕ) :
    r.step L control grace (.deliver doc now) =
      if doc ∈ r.signed then r.apply L control grace doc now else r := rfl

end Steps

/-- Nothing has been issued yet. -/
def initial (edge : EdgeStore) : Replication :=
  ⟨0, ∅, [], [], [], [], edge, []⟩

/-- The edge has recorded an assignment of the domain issued after the operation of
the document. -/
def Overtaken (r : Replication) (doc : Directive) : Prop :=
  ∃ n, (doc.row.domain, n) ∈ r.recorded ∧ doc.row.issue < n

/-- The conditions on a step.  A purge is enqueued while its intent is the current
one, an assignment while no earlier purge of the domain is queued, and a row is signed
while it is queued.  The edge records an assignment in a later second than that of
every purge signed so far that the assignment or one before it overtakes, and an
overtaken purge reaches it while it holds an assignment of the domain. -/
def Orderly (r : Replication) : DirectiveEvent → Prop
  | .enqueue row =>
      (row.op = .purge → r.intents.lookup row.domain = some ⟨.purge, row.issue⟩) ∧
      (row.op = .assign → ∀ q ∈ r.queued, q.op = .purge → q.domain = row.domain →
        ¬ q.issue < row.issue)
  | .sign row _ => row ∈ r.queued
  | .deliver doc now =>
      (doc.row.op = .assign → ∀ p ∈ r.signed, p.row.op = .purge →
        p.row.domain = doc.row.domain → (p.row.issue < doc.row.issue ∨ r.Overtaken p) →
        p.issuedAt < now) ∧
      (doc.row.op = .purge → r.Overtaken doc →
        (r.edge.assignments.lookup doc.row.domain).isSome = true)
  | _ => True

end Replication

/-! ## Invariant -/

/-- What holds of an orderly run. -/
structure DirectiveInv (r : Replication) : Prop where
  bound : ∀ x ∈ r.intended, x.2.issue ≤ r.issued
  latest : ∀ x ∈ r.intended, ∀ current, r.intents.lookup x.1 = some current →
    x.2.issue ≤ current.issue
  intended : ∀ row ∈ r.rows, r.Intended row
  /-- No purge that an enqueued assignment overtakes is still queued. -/
  ahead : ∀ q ∈ r.queued, q.op = .purge → ∀ a ∈ r.rows, a.op = .assign →
    a.domain = q.domain → ¬ q.issue < a.issue
  source : ∀ doc ∈ r.signed, doc.row ∈ r.rows
  recorded : ∀ d n, (d, n) ∈ r.recorded → ⟨d, .assign, n⟩ ∈ r.rows
  /-- The edge's assignment is of a later second than every overtaken purge. -/
  stale : ∀ p ∈ r.signed, p.row.op = .purge → r.Overtaken p →
    ∀ a, r.edge.assignments.lookup p.row.domain = some a → p.issuedAt < a.assignedAt

namespace DirectiveInv

variable {L : Libs} {control : String} {grace : ℕ} {r : Replication}

theorem initial (edge : EdgeStore) : DirectiveInv (Replication.initial edge) where
  bound := fun _ h => absurd h List.not_mem_nil
  latest := fun _ h => absurd h List.not_mem_nil
  intended := fun _ h => absurd h List.not_mem_nil
  ahead := fun _ h => absurd h List.not_mem_nil
  source := fun _ h => absurd h List.not_mem_nil
  recorded := fun _ _ h => absurd h List.not_mem_nil
  stale := fun _ h => absurd h List.not_mem_nil

theorem intend (h : DirectiveInv r) (op : DomainOp) (domain : String) :
    DirectiveInv (r.intend op domain) where
  bound := by
    intro x hx
    change x.2.issue ≤ r.issued + 1
    rcases List.mem_cons.mp hx with rfl | hold
    · exact le_refl _
    · exact Nat.le_succ_of_le (h.bound x hold)
  latest := by
    intro x hx current hcurrent
    have hlookup := (Table.lookup_insert_ite r.intents domain x.1 ⟨op, r.issued + 1⟩).symm.trans
      hcurrent
    have hle : x.2.issue ≤ r.issued + 1 := by
      rcases List.mem_cons.mp hx with rfl | hold
      · exact le_refl _
      · exact Nat.le_succ_of_le (h.bound x hold)
    split at hlookup
    · cases hlookup
      exact hle
    · rename_i hne
      rcases List.mem_cons.mp hx with rfl | hold
      · exact absurd rfl hne
      · exact h.latest x hold current hlookup
  intended := by
    intro row hrow
    obtain ⟨intent, hmem, hrest⟩ := h.intended row hrow
    exact ⟨intent, List.mem_cons_of_mem _ hmem, hrest⟩
  ahead := h.ahead
  source := h.source
  recorded := h.recorded
  stale := h.stale

/-- Fewer rows are queued, and settled intents are gone. -/
theorem unqueue (h : DirectiveInv r) {queued : List DirectiveRow}
    {intents : Table String DomainIntent} (hqueued : queued ⊆ r.queued)
    (hintents : ∀ d i, intents.lookup d = some i → r.intents.lookup d = some i) :
    DirectiveInv { r with queued := queued, intents := intents } where
  bound := h.bound
  latest := fun x hx current hcurrent => h.latest x hx current (hintents _ _ hcurrent)
  intended := h.intended
  ahead := fun q hq => h.ahead q (hqueued hq)
  source := h.source
  recorded := h.recorded
  stale := h.stale

theorem settleIntent_sub (intents : Table String DomainIntent) (row : DirectiveRow) (d : String)
    (i : DomainIntent) (hi : (Replication.settleIntent intents row).lookup d = some i) :
    intents.lookup d = some i := by
  unfold Replication.settleIntent at hi
  split at hi
  · exact hi
  · split at hi
    · split at hi
      · exact Table.lookup_of_erase hi
      · exact hi
    · exact hi

/-- An overtaken purge is not enqueued any more. -/
theorem enqueue (h : DirectiveInv r) {row : DirectiveRow} (hrow : r.Intended row)
    (hok : r.Orderly (.enqueue row)) :
    DirectiveInv { r with queued := r.queued ++ [row], rows := row :: r.rows } where
  bound := h.bound
  latest := h.latest
  intended := by
    intro row' hrow'
    rcases List.mem_cons.mp hrow' with rfl | hold
    · exact hrow
    · exact h.intended row' hold
  ahead := by
    intro q hq hpurge a ha hassign hdomain
    rcases List.mem_append.mp hq with hqold | hqnew
    · rcases List.mem_cons.mp ha with rfl | haold
      · exact hok.2 hassign q hqold hpurge hdomain.symm
      · exact h.ahead q hqold hpurge a haold hassign hdomain
    · cases List.mem_singleton.mp hqnew
      rcases List.mem_cons.mp ha with rfl | haold
      · rw [hpurge] at hassign
        contradiction
      · -- the intent of the purge is current, so nothing later was intended
        obtain ⟨intent, hmem, -, hissue⟩ := h.intended a haold
        have hle := h.latest _ hmem _ (hdomain ▸ hok.1 hpurge)
        rw [hissue]
        exact not_lt_of_ge hle
  source := fun doc hdoc => List.mem_cons_of_mem _ (h.source doc hdoc)
  recorded := fun d n hmem => List.mem_cons_of_mem _ (h.recorded d n hmem)
  stale := h.stale

/-- A row that is still queued is not overtaken. -/
theorem sign (h : DirectiveInv r) {row : DirectiveRow} {issuedAt : ℕ} (hrow : row ∈ r.rows)
    (hqueued : row ∈ r.queued) :
    DirectiveInv { r with signed := ⟨row, issuedAt⟩ :: r.signed } where
  bound := h.bound
  latest := h.latest
  intended := h.intended
  ahead := h.ahead
  source := by
    intro doc hdoc
    rcases List.mem_cons.mp hdoc with rfl | hold
    · exact hrow
    · exact h.source doc hold
  recorded := h.recorded
  stale := by
    intro p hp hpurge hovertaken
    rcases List.mem_cons.mp hp with rfl | hold
    · obtain ⟨n, hmem, hlt⟩ := hovertaken
      exact absurd hlt (h.ahead row hqueued hpurge _ (h.recorded _ n hmem) rfl rfl)
    · exact h.stale p hold hpurge hovertaken

/-- An edge whose assignments only lose rows. -/
theorem changeEdge (h : DirectiveInv r) {edge : EdgeStore}
    (hassignments : ∀ d a, edge.assignments.lookup d = some a →
      r.edge.assignments.lookup d = some a) :
    DirectiveInv { r with edge := edge } where
  bound := h.bound
  latest := h.latest
  intended := h.intended
  ahead := h.ahead
  source := h.source
  recorded := h.recorded
  stale := fun p hp hpurge hovertaken a ha =>
    h.stale p hp hpurge hovertaken a (hassignments _ _ ha)

/-- The edge records an assignment in a later second than that of the purges it
overtakes. -/
theorem assign (h : DirectiveInv r) {doc : Directive} {now : ℕ} (hdoc : doc ∈ r.signed)
    (hassign : doc.row.op = .assign) (hok : r.Orderly (.deliver doc now)) :
    DirectiveInv (r.apply L control grace doc now) := by
  have hrun := run_doDomainAssign L now control doc.row.domain r.edge
  unfold Replication.apply
  rw [hassign]
  simp only
  cases hcanonical : checkCanonical L doc.row.domain "replica/domain/assign" with
  | error e =>
      rw [hcanonical] at hrun
      rw [hrun]
      exact h
  | ok u =>
      rw [hcanonical] at hrun
      rw [hrun]
      have hrow : (⟨doc.row.domain, .assign, doc.row.issue⟩ : DirectiveRow) ∈ r.rows := by
        rw [← hassign]
        exact h.source doc hdoc
      refine ⟨h.bound, h.latest, h.intended, h.ahead, h.source, ?_, ?_⟩
      · intro d n hmem
        rcases List.mem_cons.mp hmem with heq | hold
        · cases heq
          exact hrow
        · exact h.recorded d n hold
      · intro p hp hpurge hovertaken a ha
        obtain ⟨n, hn, hlt⟩ := hovertaken
        rw [EdgeStore.cancelled_assignments, Table.lookup_insert_ite] at ha
        split at ha
        · rename_i hdomain
          cases ha
          refine hok.1 hassign p hp hpurge hdomain ?_
          rcases List.mem_cons.mp hn with heq | hold
          · rw [(Prod.mk.inj heq).2] at hlt
            exact Or.inl hlt
          · exact Or.inr ⟨n, hold, hlt⟩
        · rename_i hdomain
          rcases List.mem_cons.mp hn with heq | hold
          · exact absurd (Prod.mk.inj heq).1 hdomain
          · exact h.stale p hp hpurge ⟨n, hold, hlt⟩ a ha

theorem unassign (h : DirectiveInv r) {doc : Directive} {now : ℕ}
    (hunassign : doc.row.op = .unassign) : DirectiveInv (r.apply L control grace doc now) := by
  have hrun := run_doDomainUnassign L now grace control doc.row.domain r.edge
  unfold Replication.apply
  rw [hunassign]
  refine h.changeEdge fun d a ha => ?_
  rw [hrun] at ha
  split at ha
  · split at ha
    · exact Table.lookup_of_erase ha
    · exact ha
  · exact ha

theorem purge (h : DirectiveInv r) {doc : Directive} {now : ℕ} (hpurge : doc.row.op = .purge) :
    DirectiveInv (r.apply L control grace doc now) := by
  have hrun := run_doDomainPurge L doc.issuedAt doc.row.domain r.edge
  unfold Replication.apply
  rw [hpurge]
  refine h.changeEdge fun d a ha => ?_
  rw [hrun] at ha
  split at ha
  · split at ha
    · obtain ⟨report, t, hloop, hsame, -⟩ :=
        run_purgeLoop L doc.row.domain (allRecords r.edge) ⟨0, 0, 0⟩ r.edge
      have hdids : (purgeDomainDids L doc.row.domain).run r.edge = (.ok report, t) := hloop
      rwa [EdgeStore.cancelled_assignments, hdids, hsame.assignments] at ha
    · exact ha
  · exact ha

theorem step (h : DirectiveInv r) (e : DirectiveEvent) (hok : r.Orderly e) :
    DirectiveInv (r.step L control grace e) := by
  cases e with
  | intend op domain => exact h.intend op domain
  | drop domain => exact h.unqueue (List.filter_subset_self _) fun _ _ hi => hi
  | enqueue row =>
      rw [Replication.step_enqueue]
      split
      · exact h.enqueue ‹_› hok
      · exact h
  | sign row issuedAt =>
      rw [Replication.step_sign]
      split
      · exact h.sign ‹_› hok
      · exact h
  | settle row => exact h.unqueue List.erase_subset (settleIntent_sub r.intents row)
  | deliver doc now =>
      rw [Replication.step_deliver]
      split
      · rename_i hdoc
        cases hop : doc.row.op with
        | assign => exact h.assign hdoc hop hok
        | unassign => exact h.unassign hop
        | purge => exact h.purge hop
      · exact h
  | write w off =>
      refine h.changeEdge fun d a ha => ?_
      cases w with
      | insertAssignment e => exact absurd off id
      | removeAssignment d' => exact absurd off id
      | _ => exact ha

theorem refused (h : DirectiveInv r) {doc : Directive} {now : ℕ} (hpurge : doc.row.op = .purge)
    (hovertaken : r.Overtaken doc) (hok : r.Orderly (.deliver doc now)) :
    (r.step L control grace (.deliver doc now)).edge = r.edge := by
  rw [Replication.step_deliver]
  split
  · rename_i hdoc
    obtain ⟨a, ha⟩ := Option.isSome_iff_exists.mp (hok.2 hpurge hovertaken)
    have hlt : doc.issuedAt < a.assignedAt := h.stale doc hdoc hpurge hovertaken a ha
    have hrun := run_doDomainPurge L doc.issuedAt doc.row.domain r.edge
    unfold Replication.apply
    rw [hpurge]
    simp only
    rw [hrun, ha, checkFresh, if_pos hlt]
    cases checkCanonical L doc.row.domain "replica/domain/purge" <;> rfl
  · rfl

end DirectiveInv

/-! ## The guarantee -/

/-- In every orderly run, a purge that reaches the edge after an assignment of the
domain that was issued later, and that the edge has recorded, changes nothing there. -/
theorem overtaken_purge_spares (L : Libs) (control : String) (grace : ℕ) (edge : EdgeStore)
    (events : List DirectiveEvent) (doc : Directive) (now : ℕ)
    (hok : Run.Meets (Replication.step L control grace) Replication.Orderly
      (Replication.initial edge) (events ++ [.deliver doc now]))
    (hpurge : doc.row.op = .purge)
    (hovertaken : (Run.exec (Replication.step L control grace) (Replication.initial edge)
      events).Overtaken doc) :
    (Run.exec (Replication.step L control grace) (Replication.initial edge)
        (events ++ [.deliver doc now])).edge =
      (Run.exec (Replication.step L control grace) (Replication.initial edge) events).edge := by
  obtain ⟨hbefore, hlast⟩ := hok.of_append
  have hinv := Run.exec_invariant (fun _ e hok h => h.step e hok)
    (DirectiveInv.initial edge) hbefore
  rw [Run.exec_append, Run.exec_cons, Run.exec_nil]
  exact hinv.refused hpurge hovertaken hlast.1

namespace DirectiveSample

open Reference

/-- The edge holds slot `al` of `h.io`. -/
def held : EdgeRun :=
  EdgeRun.step edge (EdgeRun.initial (AList.singleton "h.io" ⟨"h.io", 1, "did:c"⟩) ∅ ∅ none)
    (.syncUpdate 2 (updateOf [al1] didAl "al" false))

def purgeRow : DirectiveRow := ⟨"h.io", .purge, 1⟩

/-- The row of the assignment after it. -/
def assignRow : DirectiveRow := ⟨"h.io", .assign, 2⟩

/-- The operator purges the domain and assigns it again; the worker has signed the purge
in between. -/
def sent : List DirectiveEvent :=
  [.intend .purge "h.io", .enqueue purgeRow, .sign purgeRow 100, .intend .assign "h.io",
    .drop "h.io", .enqueue assignRow, .sign assignRow 100]

def sentState (s : EdgeStore) : Replication where
  issued := 2
  intents := ((∅ : Table String DomainIntent).insert "h.io" ⟨.purge, 1⟩).insert "h.io" ⟨.assign, 2⟩
  queued := [assignRow]
  intended := [("h.io", ⟨.assign, 2⟩), ("h.io", ⟨.purge, 1⟩)]
  rows := [assignRow, purgeRow]
  signed := [⟨assignRow, 100⟩, ⟨purgeRow, 100⟩]
  edge := s
  recorded := []

variable (L : Libs) (s : EdgeStore)

theorem exec_sent :
    Run.exec (Replication.step L "did:c" 60) (Replication.initial s) sent = sentState s := by
  have hpurge : (((Replication.initial s).step L "did:c" 60 (.intend .purge "h.io"))).Intended
      purgeRow := ⟨⟨.purge, 1⟩, List.mem_cons_self, by decide, rfl⟩
  unfold sent
  rw [Run.exec_cons, Run.exec_cons, Replication.step_enqueue, if_pos hpurge, Run.exec_cons,
    Replication.step_sign, if_pos List.mem_cons_self, Run.exec_cons, Run.exec_cons, Run.exec_cons,
    Replication.step_enqueue, if_pos ⟨⟨.assign, 2⟩, List.mem_cons_self, by decide, rfl⟩,
    Run.exec_cons, Replication.step_sign, if_pos List.mem_cons_self, Run.exec_nil]
  rfl

/-- The state after the edge has recorded the assignment at second `now`. -/
def recordedState (now : ℕ) : Replication :=
  { sentState s with
    edge := EdgeStore.cancelled
      { s with assignments := s.assignments.insert "h.io" ⟨"h.io", now, "did:c"⟩ } "h.io"
    recorded := [("h.io", 2)] }

theorem step_assign (now : ℕ) :
    Replication.step edge.libs "did:c" 60 (sentState s) (.deliver ⟨assignRow, 100⟩ now) =
      recordedState s now := by
  have hcanonical : checkCanonical edge.libs "h.io" "replica/domain/assign" = .ok () := by
    decide +kernel
  have hsigned : (⟨assignRow, 100⟩ : Directive) ∈ (sentState s).signed := List.mem_cons_self
  have hrun := run_doDomainAssign edge.libs now "did:c" "h.io" s
  rw [hcanonical] at hrun
  rw [Replication.step_deliver, if_pos hsigned]
  change Replication.mk _ _ _ _ _ _ ((doDomainAssign edge.libs now "did:c" "h.io").run s).2
    (match checkCanonical edge.libs "h.io" "replica/domain/assign" with
      | .ok _ => [("h.io", 2)]
      | .error _ => []) = _
  rw [hrun, hcanonical]
  rfl

theorem recorded_assignment (now : ℕ) :
    (recordedState s now).edge.assignments.lookup "h.io" = some ⟨"h.io", now, "did:c"⟩ := by
  rw [recordedState, EdgeStore.cancelled_assignments]
  exact AList.lookup_insert ..

theorem recordedState_record (now : ℕ) (m : String) :
    (recordedState s now).edge.record m = s.record m :=
  EdgeStore.cancelled_record ..

theorem exec_recorded (now : ℕ) :
    Run.exec (Replication.step edge.libs "did:c" 60) (Replication.initial s)
      (sent ++ [.deliver ⟨assignRow, 100⟩ now]) = recordedState s now := by
  rw [Run.exec_append, exec_sent, Run.exec_cons, Run.exec_nil, step_assign]

theorem overtaken (now : ℕ) : (recordedState s now).Overtaken ⟨purgeRow, 100⟩ :=
  ⟨2, List.mem_cons_self, by decide⟩

theorem orderly_sent :
    Run.Meets (Replication.step L "did:c" 60) Replication.Orderly (Replication.initial s) sent := by
  refine ⟨trivial, ⟨fun _ => rfl, fun h => (nomatch h)⟩, List.mem_cons_self, trivial, trivial,
    ⟨fun h => (nomatch h), ?_⟩, ?_, trivial⟩
  · intro _ q hq
    exact absurd hq List.not_mem_nil
  · exact List.mem_cons_self

/-- The assignment is recorded a second after the purge was signed. -/
theorem orderly_recorded :
    Run.Meets (Replication.step edge.libs "did:c" 60) Replication.Orderly (Replication.initial s)
      ((sent ++ [.deliver ⟨assignRow, 100⟩ 101]) ++ [.deliver ⟨purgeRow, 100⟩ 102]) := by
  refine ((orderly_sent edge.libs s).append ?_).append ?_
  · rw [exec_sent]
    refine ⟨⟨?_, fun h => (nomatch h)⟩, trivial⟩
    intro _ p hp _ _ _
    have hsigned : p = ⟨assignRow, 100⟩ ∨ p = ⟨purgeRow, 100⟩ := by
      simpa [sentState] using hp
    rcases hsigned with rfl | rfl <;> decide
  · rw [exec_recorded]
    refine ⟨⟨fun h => (nomatch h), fun _ _ => ?_⟩, trivial⟩
    exact Option.isSome_iff_exists.mpr ⟨_, recorded_assignment s 101⟩

theorem step_purge {record : DidRecord} (hrec : s.record "al" = some record)
    (hmnemonic : record.mnemonic = "al") (hdomain : record.domain = "h.io") :
    (Replication.step edge.libs "did:c" 60 (recordedState s 100)
      (.deliver ⟨purgeRow, 100⟩ 101)).edge.record "al" = none := by
  have hcanonical : checkCanonical edge.libs "h.io" "replica/domain/purge" = .ok () := by
    decide +kernel
  have hsigned : (⟨purgeRow, 100⟩ : Directive) ∈ (recordedState s 100).signed :=
    List.mem_cons_of_mem _ List.mem_cons_self
  have hrun := run_doDomainPurge edge.libs 100 "h.io" (recordedState s 100).edge
  have hheld : (recordedState s 100).edge.record "al" = some record := by
    rw [recordedState_record, hrec]
  obtain ⟨report, t, hloop, -, hrecords⟩ :=
    run_purgeLoop edge.libs "h.io" (allRecords (recordedState s 100).edge) ⟨0, 0, 0⟩
      (recordedState s 100).edge
  have hpurge : (purgeDomainDids edge.libs "h.io").run (recordedState s 100).edge =
      (.ok report, t) := hloop
  have hgone : t.record "al" = none := by
    rw [hrecords, if_pos]
    refine ⟨record, mem_allRecords.mpr ⟨"al", hheld⟩, hmnemonic, hdomain, ?_⟩
    rw [hdomain]
    decide
  rw [hcanonical, recorded_assignment, hpurge] at hrun
  rw [Replication.step_deliver, if_pos hsigned]
  change ((doDomainPurge edge.libs 100 "h.io").run (recordedState s 100).edge).2.record "al" = none
  rw [hrun]
  exact (EdgeStore.cancelled_record ..).trans hgone

theorem held_record : held.store.record "al" = some (recordAl 2) := by
  have hdids := @initialSync_dids _ _ _ _ _ false (AList.singleton "h.io" ⟨"h.io", 1, "did:c"⟩)
    ∅ ∅ none 2 validLog_al1 bound_didAl scid_didAl
  rw [held, EdgeStore.record, hdids, AList.lookup_insert, recordAl]

end DirectiveSample

open DirectiveSample Reference in
/-- The purge is refused when the assignment was recorded a second later. -/
theorem overtaken_purge_spares_later_second :
    (Run.exec (Replication.step edge.libs "did:c" 60) (Replication.initial held.store)
        ((sent ++ [.deliver ⟨assignRow, 100⟩ 101]) ++ [.deliver ⟨purgeRow, 100⟩ 102])).edge =
      (recordedState held.store 101).edge := by
  generalize held.store = s
  have hspared := overtaken_purge_spares edge.libs "did:c" 60 s
    (sent ++ [.deliver ⟨assignRow, 100⟩ 101]) ⟨purgeRow, 100⟩ 102 (orderly_recorded s) rfl
  rw [exec_recorded] at hspared
  exact hspared (overtaken _ _)

open DirectiveSample Reference in
/-- An assignment recorded in the second of the signature of an overtaken purge does
not save the slots of the domain. -/
theorem overtaken_purge_same_second :
    ∃ r, r = Run.exec (Replication.step edge.libs "did:c" 60) (Replication.initial held.store)
        (sent ++ [.deliver ⟨assignRow, 100⟩ 100]) ∧
      r.Overtaken ⟨purgeRow, 100⟩ ∧
      r.edge.record "al" = some (recordAl 2) ∧ (recordAl 2).domain = "h.io" ∧
      (r.step edge.libs "did:c" 60 (.deliver ⟨purgeRow, 100⟩ 101)).edge.record "al" = none := by
  refine ⟨recordedState held.store 100, (exec_recorded held.store 100).symm,
    overtaken held.store 100, ?_, recordAl_domain 2, ?_⟩
  · rw [recordedState_record, held_record]
  · exact step_purge held.store held_record (recordAl_mnemonic 2) (recordAl_domain 2)

end DidHosting
