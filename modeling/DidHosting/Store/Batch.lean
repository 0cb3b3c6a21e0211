import DidHosting.Store.Backends

/-!
# Write batches

`WriteBatch::commit` on the five backends.  Redis and fjall send the whole
batch in one request; DynamoDB and Firestore send pieces of a hundred and five
hundred operations, each a transaction of its own; Cosmos DB sends one
operation at a time.  A request the service refuses ends the commit with an
error, and what was sent before it stays: `batch_all_or_nothing_iff`.

fjall collects the operations in a batch of the database and looks a keyspace
up for each.  Where that fails the operation is logged and left out.
-/

namespace DidHosting.Backend

/-! ## Batches -/

inductive BatchOp where
  | insert (ks : Keyspace) (key value : Bytes)
  | remove (ks : Keyspace) (key : Bytes)
deriving DecidableEq, Repr

/-- The row an operation writes. -/
def BatchOp.row : BatchOp → Keyspace × Bytes
  | .insert ks key _ => (ks, key)
  | .remove ks key => (ks, key)

def BatchOp.apply (db : Database) : BatchOp → Database
  | .insert ks key value => db.insert (ks, key) value
  | .remove ks key => db.erase (ks, key)

/-- The operations in order. -/
def applyAll (db : Database) (ops : List BatchOp) : Database :=
  ops.foldl BatchOp.apply db

@[simp] theorem applyAll_nil (db : Database) : applyAll db [] = db := rfl

theorem applyAll_append (db : Database) (ops more : List BatchOp) :
    applyAll db (ops ++ more) = applyAll (applyAll db ops) more :=
  List.foldl_append

def chunksFrom {α : Type} (size : ℕ) : ℕ → List α → List (List α)
  | 0, _ => []
  | _ + 1, [] => []
  | fuel + 1, item :: items =>
    (item :: items).take size :: chunksFrom size fuel ((item :: items).drop size)

def chunks {α : Type} (size : ℕ) (items : List α) : List (List α) :=
  chunksFrom size items.length items

theorem flatten_chunks {α : Type} {size : ℕ} (hsize : 0 < size) (items : List α) :
    (chunks size items).flatten = items := by
  have hall : ∀ (fuel : ℕ) (items : List α), items.length ≤ fuel →
      (chunksFrom size fuel items).flatten = items := by
    intro fuel
    induction fuel with
    | zero =>
      intro items hlength
      obtain rfl : items = [] := List.length_eq_zero_iff.mp (by omega)
      rfl
    | succ fuel ih =>
      intro items hlength
      cases items with
      | nil => rfl
      | cons item items =>
        have hrest : ((item :: items).drop size).length ≤ fuel := by
          rw [List.length_drop]
          simp only [List.length_cons] at hlength ⊢
          omega
        rw [chunksFrom, List.flatten_cons, ih _ hrest, List.take_append_drop]
  exact hall items.length items le_rfl

/-! ## Commits -/

/-- What the services answer to one commit: the error of its `n`-th request, if
any, and for fjall the error of the keyspace lookup of the `n`-th operation. -/
structure Answers where
  request : ℕ → Option String
  lookup : ℕ → Option String

/-- The loop over the pieces of a batch.  A piece that is refused ends it. -/
def commitLoop (send : ℕ → List BatchOp → Except String Unit) :
    ℕ → Database → List (List BatchOp) → Except String Unit × Database
  | _, db, [] => (.ok (), db)
  | i, db, piece :: pieces =>
    match send i piece with
    | .ok () => commitLoop send (i + 1) (applyAll db piece) pieces
    | .error message => (.error message, db)

/-- A request of the service, with the text its error is reported under. -/
def request (answers : Answers) (n : ℕ) (text : String) : Except String Unit :=
  match answers.request n with
  | none => .ok ()
  | some e => .error s!"{text}: {e}"

/-- `pipe.atomic()` and one `EXEC`. -/
def sendRedis (answers : Answers) (_ : ℕ) (_ : List BatchOp) : Except String Unit :=
  request answers 0 "redis pipeline"

/-- `TransactWriteItems`: the service refuses two operations on one item. -/
def sendDynamodb (answers : Answers) (i : ℕ) (piece : List BatchOp) : Except String Unit :=
  if (piece.map BatchOp.row).Nodup then request answers i "dynamodb transact"
  else .error "dynamodb transact: multiple operations on one item"

/-- A transaction is begun, collected and committed. -/
def sendFirestore (answers : Answers) (i : ℕ) (_ : List BatchOp) : Except String Unit := do
  request answers (2 * i) "firestore begin transaction"
  request answers (2 * i + 1) "firestore commit transaction"

/-- The container is looked up for each operation.  A document that is not there
is no error of a delete. -/
def sendCosmosdb (answers : Answers) (i : ℕ) (piece : List BatchOp) : Except String Unit := do
  request answers (2 * i) "cosmosdb batch container client"
  match piece with
  | .insert _ _ _ :: _ => request answers (2 * i + 1) "cosmosdb batch upsert"
  | _ => request answers (2 * i + 1) "cosmosdb batch delete"

/-- One commit of the database's own batch. -/
def sendFjall (answers : Answers) (_ : ℕ) (_ : List BatchOp) : Except String Unit :=
  match answers.request 0 with
  | none => .ok ()
  | some e => .error e


/-- The operations the batch holds: fjall leaves out those whose keyspace it
could not look up. -/
def collected (answers : Answers) (ops : List BatchOp) : StoreBackend → List BatchOp
  | .fjall => (ops.zipIdx.filter fun op => (answers.lookup op.2).isNone).map (·.1)
  | _ => ops

/-- The pieces `commit` sends. -/
def pieces (answers : Answers) (ops : List BatchOp) : StoreBackend → List (List BatchOp)
  | .redis => [ops]
  | .dynamodb => chunks 100 ops
  | .firestore => chunks 500 ops
  | .cosmosdb => chunks 1 ops
  | .fjall => [collected answers ops .fjall]

def send (answers : Answers) : StoreBackend → ℕ → List BatchOp → Except String Unit
  | .redis => sendRedis answers
  | .dynamodb => sendDynamodb answers
  | .firestore => sendFirestore answers
  | .cosmosdb => sendCosmosdb answers
  | .fjall => sendFjall answers

/-- `WriteBatch::commit`. -/
def commit (b : StoreBackend) (answers : Answers) (ops : List BatchOp) (db : Database) :
    Except String Unit × Database :=
  commitLoop (send answers b) 0 db (pieces answers ops b)

/-! ## What a commit leaves -/

/-- The first piece the service refuses. -/
def refusedAt (send : ℕ → List BatchOp → Except String Unit) :
    ℕ → List (List BatchOp) → Option ℕ
  | _, [] => none
  | i, piece :: pieces =>
    match send i piece with
    | .ok () => (refusedAt send (i + 1) pieces).map (· + 1)
    | .error _ => some 0

theorem commitLoop_of_accepted (send : ℕ → List BatchOp → Except String Unit) (i : ℕ)
    (db : Database) (pieces : List (List BatchOp)) (h : refusedAt send i pieces = none) :
    commitLoop send i db pieces = (.ok (), applyAll db pieces.flatten) := by
  induction pieces generalizing i db with
  | nil => rfl
  | cons piece pieces ih =>
    cases hsend : send i piece with
    | error message => simp [refusedAt, hsend] at h
    | ok =>
      have hrest : refusedAt send (i + 1) pieces = none := by
        simpa [refusedAt, hsend] using h
      rw [commitLoop, hsend, List.flatten_cons, applyAll_append]
      exact ih (i + 1) (applyAll db piece) hrest

theorem commitLoop_of_refused (send : ℕ → List BatchOp → Except String Unit) (i n : ℕ)
    (db : Database) (pieces : List (List BatchOp)) (h : refusedAt send i pieces = some n) :
    ∃ message, commitLoop send i db pieces =
      (.error message, applyAll db (pieces.take n).flatten) := by
  induction pieces generalizing i n db with
  | nil => simp [refusedAt] at h
  | cons piece pieces ih =>
    cases hsend : send i piece with
    | error message =>
      obtain rfl : 0 = n := by simpa [refusedAt, hsend] using h
      refine ⟨message, ?_⟩
      rw [commitLoop, hsend]
      rfl
    | ok =>
      obtain ⟨m, hrest, rfl⟩ : ∃ m, refusedAt send (i + 1) pieces = some m ∧ m + 1 = n := by
        simpa [refusedAt, hsend] using h
      obtain ⟨message, hloop⟩ := ih (i + 1) m (applyAll db piece) hrest
      refine ⟨message, ?_⟩
      rw [commitLoop, hsend, List.take_succ_cons, List.flatten_cons, applyAll_append]
      exact hloop

theorem flatten_pieces (answers : Answers) (ops : List BatchOp) (b : StoreBackend) :
    (pieces answers ops b).flatten = collected answers ops b := by
  cases b with
  | redis => exact List.append_nil ops
  | dynamodb => exact flatten_chunks (by omega) ops
  | firestore => exact flatten_chunks (by omega) ops
  | cosmosdb => exact flatten_chunks (by omega) ops
  | fjall => exact List.append_nil _

/-! ## All or nothing -/

/-- The stores hold the same rows. -/
def Same (db db' : Database) : Prop :=
  ∀ row, db.lookup row = db'.lookup row

/-- Everything was done, or an error was returned and nothing was. -/
def AllOrNothing (db : Database) (ops : List BatchOp)
    (outcome : Except String Unit × Database) : Prop :=
  (outcome.1 = .ok () ∧ Same outcome.2 (applyAll db ops)) ∨
    ((∃ message, outcome.1 = .error message) ∧ Same outcome.2 db)

/-- A commit that goes through has everything it should have written in it; one
that is refused had written nothing, or nothing that shows. -/
def Undivided (b : StoreBackend) (answers : Answers) (ops : List BatchOp) (db : Database) : Prop :=
  match refusedAt (send answers b) 0 (pieces answers ops b) with
  | none => Same (applyAll db (collected answers ops b)) (applyAll db ops)
  | some n => Same (applyAll db ((pieces answers ops b).take n).flatten) db

/-- A write batch is all or nothing exactly when the pieces sent before a refused
one leave the rows as they were, and no operation was left out that would have
changed them. -/
theorem batch_all_or_nothing_iff (b : StoreBackend) (answers : Answers) (ops : List BatchOp)
    (db : Database) :
    AllOrNothing db ops (commit b answers ops db) ↔ Undivided b answers ops db := by
  unfold Undivided commit
  cases hrefused : refusedAt (send answers b) 0 (pieces answers ops b) with
  | none =>
    rw [commitLoop_of_accepted _ _ _ _ hrefused, flatten_pieces]
    constructor
    · rintro (⟨-, hsame⟩ | ⟨⟨message, herror⟩, -⟩)
      · exact hsame
      · cases herror
    · intro hsame
      exact .inl ⟨rfl, hsame⟩
  | some n =>
    obtain ⟨message, hloop⟩ := commitLoop_of_refused _ _ _ db _ hrefused
    rw [hloop]
    constructor
    · rintro (⟨hok, -⟩ | ⟨-, hsame⟩)
      · cases hok
      · exact hsame
    · intro hsame
      exact .inr ⟨⟨message, rfl⟩, hsame⟩

/-- The record and the owner row of a slot on Cosmos DB, with the fourth request
failing: the record is stored without its owner row. -/
theorem cosmos_batch_torn :
    commit .cosmosdb ⟨fun n => if n = 3 then some "timeout" else none, fun _ => none⟩
      [.insert .dids (ascii "did:al") [1], .insert .dids (ascii "owner:o:al") [1]] ∅ =
        (.error "cosmosdb batch upsert: timeout", Database.single .dids (ascii "did:al") [1]) ∧
    ¬AllOrNothing ∅
      [.insert .dids (ascii "did:al") [1], .insert .dids (ascii "owner:o:al") [1]]
      (commit .cosmosdb ⟨fun n => if n = 3 then some "timeout" else none, fun _ => none⟩
        [.insert .dids (ascii "did:al") [1], .insert .dids (ascii "owner:o:al") [1]] ∅) := by
  have hcommit : commit .cosmosdb
      ⟨fun n => if n = 3 then some "timeout" else none, fun _ => none⟩
      [.insert .dids (ascii "did:al") [1], .insert .dids (ascii "owner:o:al") [1]] ∅ =
        (.error "cosmosdb batch upsert: timeout",
          Database.single .dids (ascii "did:al") [1]) := rfl
  refine ⟨hcommit, ?_⟩
  rw [hcommit]
  rintro (⟨hok, -⟩ | ⟨-, hsame⟩)
  · cases hok
  · have hrow := hsame (.dids, ascii "did:al")
    rw [Database.single, AList.lookup_insert, AList.lookup_empty] at hrow
    cases hrow

end DidHosting.Backend
