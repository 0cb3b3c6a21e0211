import Mathlib.Algebra.GroupWithZero.Nat
import DidHosting.Support.Run
import DidHosting.Store.Backends
import Mathlib.Logic.Function.Basic
import Mathlib.Data.Fintype.Basic

/-!
# Takes and increments of the embedded store

fjall has no atomic take and no atomic increment.  `take_raw_atomic` reads the
key and removes it in two calls of the database, `incr_raw` reads and writes
in two, each under a mutex of its handle.  Every `keyspace` call makes a handle
with mutexes of its own, and plain writes take none.

The machine has one key and any number of calls on it, each made through some
handle; a step is one call of the database.  What is stored carries a serial
number, so that a value stored twice counts as two.

A mutex keeps the calls of its kind apart that run through its handle (`Held`), so
what such a call has read is still there when it writes (`Reading`).  `undisturbed`
is the condition on the others: no take or increment of another handle is between its
two calls of the database when one writes, no value is inserted between the two of a
take, and nothing sets a counter back.  `take_and_count_once` is what follows.
-/

namespace DidHosting.Backend

/-! ## Counters -/

def maxCount : ℕ := 2 ^ 64 - 1

/-- `encode_counter`: eight big-endian bytes. -/
def encodeCounter (n : ℕ) : Bytes :=
  [.ofNat (n / 2 ^ 56), .ofNat (n / 2 ^ 48), .ofNat (n / 2 ^ 40), .ofNat (n / 2 ^ 32),
    .ofNat (n / 2 ^ 24), .ofNat (n / 2 ^ 16), .ofNat (n / 2 ^ 8), .ofNat n]

/-- `decode_counter`: a value of another length counts as 0. -/
def decodeCounter : Bytes → ℕ
  | [a, b, c, d, e, f, g, h] =>
    a.toNat * 2 ^ 56 + b.toNat * 2 ^ 48 + c.toNat * 2 ^ 40 + d.toNat * 2 ^ 32 +
      e.toNat * 2 ^ 24 + f.toNat * 2 ^ 16 + g.toNat * 2 ^ 8 + h.toNat
  | _ => 0

theorem decodeCounter_encodeCounter {n : ℕ} (h : n ≤ maxCount) :
    decodeCounter (encodeCounter n) = n := by
  unfold maxCount at h
  simp only [decodeCounter, encodeCounter, UInt8.toNat_ofNat']
  omega

/-! ## The key -/

/-- A stored value: what was written, and by which write. -/
structure Version where
  value : Bytes
  serial : ℕ
deriving DecidableEq, Repr

/-- The row of the key.  `replaced` lists the values a write replaced or a
remove removed, and `highest` is the highest number an increment wrote. -/
structure Row where
  stored : Option Version
  writes : ℕ
  replaced : List ℕ
  highest : ℕ
deriving DecidableEq, Repr

namespace Row

/-- The row before the run. -/
def initial (value : Option Bytes) : Row where
  stored := value.map fun bytes => ⟨bytes, 0⟩
  writes := if value.isSome then 1 else 0
  replaced := []
  highest := 0

/-- The count the row reads as. -/
def count (row : Row) : ℕ :=
  (row.stored.map fun version => decodeCounter version.value).getD 0

/-- The row after `insert`. -/
def put (row : Row) (value : Bytes) : Row where
  stored := some ⟨value, row.writes⟩
  writes := row.writes + 1
  replaced := (row.stored.map (·.serial)).toList ++ row.replaced
  highest := row.highest

/-- The row after `remove`. -/
def clear (row : Row) : Row :=
  { row with stored := none, replaced := (row.stored.map (·.serial)).toList ++ row.replaced }

/-- The row after the remove of a take. -/
def takeOut (row : Row) : Row :=
  { row with stored := none }

/-- The row after the insert of an increment. -/
def countUp (row : Row) (next : ℕ) : Row :=
  { row.put (encodeCounter next) with highest := max row.highest next }

end Row

/-! ## Calls -/

inductive KeyCall where
  | take
  | incr
  | insert (value : Bytes)
  | remove
deriving DecidableEq, Repr

/-- What a call returns. -/
inductive Answer where
  | taken (found : Option Version)
  | counted (n : ℕ)
  | written
  | failed
deriving DecidableEq, Repr

/-- How far a call has come. -/
inductive Stage where
  | ready
  /-- It holds the mutex. -/
  | guarded
  /-- It has read the key. -/
  | read (found : Option Version)
  /-- It has written the key and still holds the mutex. -/
  | wrote (answer : Answer)
  | done (answer : Answer)
deriving DecidableEq, Repr

/-- The answer of a call that has written or is done. -/
def Stage.answer : Stage → Option Answer
  | .wrote answer => some answer
  | .done answer => some answer
  | _ => none

/-- The call holds its mutex. -/
def Stage.guards : Stage → Bool
  | .guarded => true
  | .read _ => true
  | .wrote _ => true
  | _ => false

/-- The two mutexes of a handle. -/
inductive Mutex where
  | takeLock | incrLock
deriving DecidableEq, Repr

structure Caller where
  handle : ℕ
  call : KeyCall
  stage : Stage
deriving DecidableEq, Repr

/-- The mutex the call runs under. -/
def Caller.mutex (caller : Caller) : ℕ × Mutex :=
  match caller.call with
  | .incr => (caller.handle, .incrLock)
  | _ => (caller.handle, .takeLock)

/-- The count of what was read. -/
def countOf (found : Option Version) : ℕ :=
  (found.map fun version => decodeCounter version.value).getD 0

/-- The call is a take that has read a value and not yet removed it. -/
def Caller.takes (caller : Caller) : Bool :=
  match caller.call, caller.stage with
  | .take, .read (some _) => true
  | _, _ => false

/-- The call is an increment that has read the key and not yet written it. -/
def Caller.counts (caller : Caller) : Bool :=
  match caller.call, caller.stage with
  | .incr, .read _ => true
  | _, _ => false

/-- The number after the one an increment read. -/
def nextCount (found : Option Version) : ℕ :=
  min maxCount (countOf found + 1)

/-- One key of a keyspace and the calls on it. -/
structure KeyMachine (ι : Type) where
  row : Row
  caller : ι → Caller
  locks : ℕ × Mutex → Option ι

/-- What happens next: a call goes on, or the database answers it with an error. -/
inductive KeyEvent (ι : Type) where
  | advance (i : ι)
  | fail (i : ι)

/-- The call an event is about. -/
def KeyEvent.of {ι : Type} : KeyEvent ι → ι
  | .advance i => i
  | .fail i => i

namespace KeyMachine

variable {ι : Type} [DecidableEq ι]

/-- The calls before any of them has begun. -/
def start (row : Row) (calls : ι → ℕ × KeyCall) : KeyMachine ι where
  row := row
  caller i := ⟨(calls i).1, (calls i).2, .ready⟩
  locks _ := none

/-- Call `i` comes to `stage`. -/
def goTo (m : KeyMachine ι) (i : ι) (stage : Stage) : KeyMachine ι :=
  { m with caller := Function.update m.caller i { m.caller i with stage := stage } }

/-- Call `i` comes to `stage` and leaves `row`. -/
def store (m : KeyMachine ι) (i : ι) (row : Row) (stage : Stage) : KeyMachine ι :=
  { m with row := row }.goTo i stage

/-- Call `i` returns, and its guard is dropped. -/
def returns (m : KeyMachine ι) (i : ι) (answer : Answer) : KeyMachine ι :=
  { m with locks := fun key => if m.locks key = some i then none else m.locks key }.goTo i
    (.done answer)

/-- The mutex of call `i`, when it is free. -/
def acquire (m : KeyMachine ι) (i : ι) : KeyMachine ι :=
  if m.locks (m.caller i).mutex = none then
    { m with locks := Function.update m.locks (m.caller i).mutex (some i) }.goTo i .guarded
  else m

/-- One step of call `i`. -/
def advance (m : KeyMachine ι) (i : ι) : KeyMachine ι :=
  match (m.caller i).stage, (m.caller i).call with
  | .ready, .insert value => m.store i (m.row.put value) (.done .written)
  | .ready, .remove => m.store i m.row.clear (.done .written)
  | .ready, _ => m.acquire i
  | .guarded, _ => m.goTo i (.read m.row.stored)
  | .read none, .take => m.returns i (.taken none)
  | .read (some version), .take => m.store i m.row.takeOut (.wrote (.taken (some version)))
  | .read found, .incr =>
    m.store i (m.row.countUp (nextCount found)) (.wrote (.counted (nextCount found)))
  | .read _, _ => m
  | .wrote answer, _ => m.returns i answer
  | .done _, _ => m

/-- The database answers call `i` with an error. -/
def fail (m : KeyMachine ι) (i : ι) : KeyMachine ι :=
  match (m.caller i).stage with
  | .wrote _ => m
  | .done _ => m
  | _ => m.returns i .failed

def step (m : KeyMachine ι) : KeyEvent ι → KeyMachine ι
  | .advance i => m.advance i
  | .fail i => m.fail i

abbrev exec (m : KeyMachine ι) (events : List (KeyEvent ι)) : KeyMachine ι :=
  Run.exec step m events

/-- Call `i` has taken the value. -/
def Took (m : KeyMachine ι) (i : ι) (version : Version) : Prop :=
  (m.caller i).stage.answer = some (.taken (some version))

/-- Call `i` has counted up to `n`. -/
def Counted (m : KeyMachine ι) (i : ι) (n : ℕ) : Prop :=
  (m.caller i).stage.answer = some (.counted n)

/-- The condition on a step of call `i`.  When a take or an increment writes, no other one
that has read the key and not yet written it runs through another handle; nothing is
inserted while a take holds a value it has read; the count that was read is below the
last one; and an insert, a remove or a take does not leave a count below a number that
was given. -/
def Allowed (m : KeyMachine ι) (i : ι) : Stage → KeyCall → Prop
  | .ready, .insert value =>
    (∀ j, (m.caller j).takes = false) ∧ m.row.highest ≤ decodeCounter value
  | .ready, .remove => m.row.highest = 0
  | .read (some _), .take =>
    (∀ j, (m.caller j).takes = true → (m.caller j).handle = (m.caller i).handle) ∧
      m.row.highest = 0
  | .read found, .incr =>
    (∀ j, (m.caller j).counts = true → (m.caller j).handle = (m.caller i).handle) ∧
      countOf found < maxCount
  | _, _ => True

instance Allowed.decidable [Fintype ι] (m : KeyMachine ι) (i : ι) :
    ∀ stage call, Decidable (m.Allowed i stage call)
  | .ready, .insert _ => inferInstanceAs (Decidable (_ ∧ _))
  | .ready, .remove => inferInstanceAs (Decidable (_ = _))
  | .ready, .take => .isTrue trivial
  | .ready, .incr => .isTrue trivial
  | .read (some _), .take => inferInstanceAs (Decidable (_ ∧ _))
  | .read none, .take => .isTrue trivial
  | .read (some _), .incr => inferInstanceAs (Decidable (_ ∧ _))
  | .read none, .incr => inferInstanceAs (Decidable (_ ∧ _))
  | .read (some _), .insert _ => .isTrue trivial
  | .read none, .insert _ => .isTrue trivial
  | .read (some _), .remove => .isTrue trivial
  | .read none, .remove => .isTrue trivial
  | .guarded, _ => .isTrue trivial
  | .wrote _, _ => .isTrue trivial
  | .done _, _ => .isTrue trivial

/-- The condition on an event; the database may fail at any time. -/
def undisturbed (m : KeyMachine ι) : KeyEvent ι → Prop
  | .fail _ => True
  | .advance i => m.Allowed i (m.caller i).stage (m.caller i).call

instance undisturbed.decidable [Fintype ι] (m : KeyMachine ι) :
    ∀ event, Decidable (m.undisturbed event)
  | .fail _ => .isTrue trivial
  | .advance i => Allowed.decidable m i (m.caller i).stage (m.caller i).call

/-- Call `i` is between its two calls of the database. -/
def Reads (m : KeyMachine ι) (i : ι) (call : KeyCall) (found : Option Version) : Prop :=
  (m.caller i).call = call ∧ (m.caller i).stage = .read found

omit [DecidableEq ι] in
theorem Reads.takes {m : KeyMachine ι} {i : ι} {version : Version}
    (h : m.Reads i .take (some version)) : (m.caller i).takes = true := by
  rw [Caller.takes, h.1, h.2]

omit [DecidableEq ι] in
theorem Reads.counts {m : KeyMachine ι} {i : ι} {found : Option Version}
    (h : m.Reads i .incr found) : (m.caller i).counts = true := by
  rw [Caller.counts, h.1, h.2]

theorem goTo_self (m : KeyMachine ι) (i : ι) (stage : Stage) :
    ((m.goTo i stage).caller i).stage = stage := by
  simp [goTo]

theorem goTo_ne (m : KeyMachine ι) {i j : ι} (stage : Stage) (h : j ≠ i) :
    (m.goTo i stage).caller j = m.caller j := by
  simp [goTo, Function.update_of_ne h]

theorem goTo_mutex (m : KeyMachine ι) (i j : ι) (stage : Stage) :
    ((m.goTo i stage).caller j).mutex = (m.caller j).mutex := by
  by_cases hj : j = i
  · subst hj
    simp [goTo, Caller.mutex]
  · rw [goTo_ne m stage hj]

/-! ## The mutexes -/

/-- A mutex is held by each call that has entered its section and not returned. -/
def Held (m : KeyMachine ι) : Prop :=
  ∀ i, (m.caller i).stage.guards = true → m.locks (m.caller i).mutex = some i

section Held

variable {m : KeyMachine ι} (h : m.Held)

include h

omit [DecidableEq ι] in
/-- Two calls under one mutex are one. -/
theorem Held.alone {i j : ι} (hi : (m.caller i).stage.guards = true)
    (hj : (m.caller j).stage.guards = true) (hmutex : (m.caller j).mutex = (m.caller i).mutex) :
    j = i := by
  have hboth := h j hj
  rw [hmutex, h i hi] at hboth
  exact (Option.some.inj hboth).symm

theorem Held.goTo {i : ι} {stage : Stage}
    (hlock : stage.guards = true → m.locks (m.caller i).mutex = some i) :
    (m.goTo i stage).Held := by
  intro j hj
  rw [goTo_mutex]
  by_cases hi : j = i
  · subst hi
    rw [goTo_self] at hj
    exact hlock hj
  · rw [goTo_ne m stage hi] at hj
    exact h j hj

theorem Held.returns (i : ι) (answer : Answer) : (m.returns i answer).Held := by
  intro j hj
  unfold KeyMachine.returns at hj ⊢
  rw [goTo_mutex]
  by_cases hi : j = i
  · subst hi
    rw [goTo_self] at hj
    contradiction
  · rw [goTo_ne _ _ hi] at hj
    change (if m.locks (m.caller j).mutex = some i then none else _) = some j
    rw [if_neg, h j hj]
    rw [h j hj]
    exact fun heq => hi (Option.some.inj heq)

theorem Held.acquire (i : ι) : (m.acquire i).Held := by
  unfold KeyMachine.acquire
  by_cases hfree : m.locks (m.caller i).mutex = none
  · rw [if_pos hfree]
    intro j hj
    rw [goTo_mutex]
    by_cases hi : j = i
    · subst hi
      exact Function.update_self _ _ _
    · rw [goTo_ne _ _ hi] at hj
      have hheld := h j hj
      change Function.update m.locks (m.caller i).mutex (some i) (m.caller j).mutex = some j
      rw [Function.update_of_ne, hheld]
      intro hmutex
      rw [hmutex, hfree] at hheld
      contradiction
  · rw [if_neg hfree]
    exact h

theorem Held.step (event : KeyEvent ι) : (m.step event).Held := by
  have hdone : ∀ i row answer, (m.store i row (.done answer)).Held := fun i row answer =>
    Held.goTo (m := { m with row := row }) h fun hguards => by contradiction
  cases event with
  | fail i =>
    change (m.fail i).Held
    unfold fail
    cases (m.caller i).stage with
    | wrote => exact h
    | done => exact h
    | ready => exact h.returns i _
    | guarded => exact h.returns i _
    | read => exact h.returns i _
  | advance i =>
    change (m.advance i).Held
    have hkept : ∀ row stage, (m.caller i).stage.guards = true → (m.store i row stage).Held :=
      fun row stage hguards => Held.goTo (m := { m with row := row }) h fun _ => h i hguards
    unfold advance
    cases hstage : (m.caller i).stage with
    | ready =>
      cases hcall : (m.caller i).call with
      | take => exact h.acquire i
      | incr => exact h.acquire i
      | insert value => exact hdone i _ _
      | remove => exact hdone i _ _
    | guarded => exact hkept m.row _ (by rw [hstage]; rfl)
    | wrote answer => exact h.returns i answer
    | done answer => exact h
    | read found =>
      cases hcall : (m.caller i).call with
      | take =>
        cases found with
        | none => exact h.returns i _
        | some version => exact hkept _ _ (by rw [hstage]; rfl)
      | incr => cases found <;> exact hkept _ _ (by rw [hstage]; rfl)
      | insert value => cases found <;> exact h
      | remove => cases found <;> exact h

omit [DecidableEq ι] in
/-- Two calls of one kind that have read the key through one handle are one. -/
theorem Held.alone_of_handle {i j : ι} {call : KeyCall} {found other : Option Version}
    (hi : m.Reads i call found) (hj : m.Reads j call other)
    (hhandle : (m.caller j).handle = (m.caller i).handle) : j = i := by
  refine h.alone (by rw [hi.2]; rfl) (by rw [hj.2]; rfl) ?_
  rw [Caller.mutex, Caller.mutex, hi.1, hj.1, hhandle]

end Held

omit [DecidableEq ι] in
theorem held_start (row : Row) (calls : ι → ℕ × KeyCall) : (start row calls).Held :=
  fun _ hguards => by contradiction

/-! ## Steps -/

/-- What a step may do to the row, and the answer it gives. -/
inductive Writes (m : KeyMachine ι) (event : KeyEvent ι) : Row → Option Answer → Prop where
  | same : Writes m event m.row (m.caller event.of).stage.answer
  | refused (h : (m.caller event.of).stage.answer = none) : Writes m event m.row (some .failed)
  | missed (h : (m.caller event.of).stage.answer = none) :
    Writes m event m.row (some (.taken none))
  | inserted (value : Bytes) (h : (m.caller event.of).stage.answer = none)
    (halone : ∀ j version, ¬m.Reads j .take (some version))
    (hcount : m.row.highest ≤ decodeCounter value) :
    Writes m event (m.row.put value) (some .written)
  | removed (h : (m.caller event.of).stage.answer = none) (hcount : m.row.highest = 0) :
    Writes m event m.row.clear (some .written)
  | took (version : Version) (h : m.Reads event.of .take (some version))
    (halone : ∀ j other, m.Reads j .take (some other) → j = event.of)
    (hcount : m.row.highest = 0) :
    Writes m event m.row.takeOut (some (.taken (some version)))
  | counted (found : Option Version) (h : m.Reads event.of .incr found)
    (halone : ∀ j other, m.Reads j .incr other → j = event.of)
    (hcount : countOf found < maxCount) :
    Writes m event (m.row.countUp (countOf found + 1)) (some (.counted (countOf found + 1)))

/-- A step changes the row and the answer of its call as it may. -/
theorem step_writes {m : KeyMachine ι} (hheld : m.Held) (event : KeyEvent ι)
    (h : m.undisturbed event) :
    Writes m event (m.step event).row ((m.step event).caller event.of).stage.answer := by
  cases event with
  | fail i =>
    change Writes m (.fail i) (m.fail i).row ((m.fail i).caller i).stage.answer
    unfold fail
    have hfail : (m.caller i).stage.answer = none →
        Writes m (.fail i) (m.returns i .failed).row
          ((m.returns i .failed).caller i).stage.answer := by
      intro hnone
      rw [returns, goTo_self]
      exact .refused hnone
    cases hstage : (m.caller i).stage with
    | wrote => exact .same
    | done => exact .same
    | ready => exact hfail (by rw [hstage]; rfl)
    | guarded => exact hfail (by rw [hstage]; rfl)
    | read => exact hfail (by rw [hstage]; rfl)
  | advance i =>
    change Writes m (.advance i) (m.advance i).row ((m.advance i).caller i).stage.answer
    have hnone : ∀ stage, (m.caller i).stage = stage → stage.answer = none →
        (m.caller (KeyEvent.of (.advance i))).stage.answer = none := by
      intro stage hstage hanswer
      rw [← hstage] at hanswer
      exact hanswer
    have hsame : ∀ m' : KeyMachine ι, m'.row = m.row →
        (m'.caller i).stage.answer = (m.caller i).stage.answer →
        Writes m (.advance i) m'.row (m'.caller i).stage.answer := by
      intro m' hrow hanswer
      rw [hrow, hanswer]
      exact .same
    unfold advance
    unfold undisturbed Allowed at h
    cases hstage : (m.caller i).stage with
    | ready =>
      have hacquire : Writes m (.advance i) (m.acquire i).row
          ((m.acquire i).caller i).stage.answer := by
        unfold acquire
        by_cases hfree : m.locks (m.caller i).mutex = none
        · rw [if_pos hfree]
          refine hsame _ rfl ?_
          rw [goTo_self, hstage]
          rfl
        · rw [if_neg hfree]
          exact .same
      cases hcall : (m.caller i).call with
      | take => exact hacquire
      | incr => exact hacquire
      | insert value =>
        simp only [hstage, hcall] at h
        simp only [store, goTo_self]
        refine .inserted value (hnone _ hstage rfl) (fun j version hj => ?_) h.2
        exact Bool.false_ne_true ((h.1 j).symm.trans hj.takes)
      | remove =>
        simp only [hstage, hcall] at h
        simp only [store, goTo_self]
        exact .removed (hnone _ hstage rfl) h
    | guarded =>
      refine hsame _ rfl ?_
      rw [goTo_self, hstage]
      rfl
    | wrote given =>
      refine hsame (m.returns i given) rfl ?_
      rw [returns, goTo_self, hstage]
      rfl
    | done given => exact .same
    | read found =>
      cases hcall : (m.caller i).call with
      | insert value =>
        cases found <;> exact .same
      | remove =>
        cases found <;> exact .same
      | take =>
        cases found with
        | none =>
          simp only [returns, goTo_self]
          exact .missed (hnone _ hstage rfl)
        | some version =>
          simp only [hstage, hcall] at h
          have hreads : m.Reads i .take (some version) := ⟨hcall, hstage⟩
          simp only [store, goTo_self]
          exact .took version hreads
            (fun j other hj => hheld.alone_of_handle hreads hj (h.1 j hj.takes)) h.2
      | incr =>
        have hreads : m.Reads i .incr found := ⟨hcall, hstage⟩
        have hundisturbed : (∀ j, (m.caller j).counts = true →
            (m.caller j).handle = (m.caller i).handle) ∧ countOf found < maxCount := by
          simp only [hstage, hcall] at h
          cases found <;> exact h
        have hnext : nextCount found = countOf found + 1 := Nat.min_eq_right hundisturbed.2
        have hwrite : Writes m (.advance i)
            (m.store i (m.row.countUp (nextCount found)) (.wrote (.counted (nextCount found)))).row
            ((m.store i (m.row.countUp (nextCount found))
              (.wrote (.counted (nextCount found)))).caller i).stage.answer := by
          rw [hnext]
          simp only [store, goTo_self]
          exact .counted found hreads (fun j other hj =>
            hheld.alone_of_handle hreads hj (hundisturbed.1 j hj.counts)) hundisturbed.2
        cases found <;> exact hwrite

theorem step_other (m : KeyMachine ι) (event : KeyEvent ι) {j : ι} (h : j ≠ event.of) :
    (m.step event).caller j = m.caller j := by
  cases event with
  | fail i =>
    change (m.fail i).caller j = m.caller j
    unfold fail
    split
    · rfl
    · rfl
    · exact goTo_ne _ _ h
  | advance i =>
    change (m.advance i).caller j = m.caller j
    unfold advance acquire
    split
    all_goals first
      | rfl
      | exact goTo_ne _ _ h
      | (split
         · exact goTo_ne _ _ h
         · rfl)

/-! ## The invariant -/

/-- The value of this serial number is stored, was returned by a take, or was
replaced by a write or a remove. -/
def Accounted (m : KeyMachine ι) (serial : ℕ) : Prop :=
  (∃ version, m.row.stored = some version ∧ version.serial = serial) ∨
    (∃ i version, m.Took i version ∧ version.serial = serial) ∨ serial ∈ m.row.replaced

/-- Taken values are gone from the row and taken once, numbers are given once
and lie below the count, and no value is unaccounted for. -/
structure Sound (m : KeyMachine ι) : Prop where
  stored : ∀ version, m.row.stored = some version → version.serial < m.row.writes
  gone : ∀ i version, m.Took i version → version.serial < m.row.writes ∧
    ∀ other, m.row.stored = some other → other.serial ≠ version.serial
  once : ∀ i j version other, m.Took i version → m.Took j other →
    version.serial = other.serial → i = j
  accounted : ∀ serial, serial < m.row.writes → m.Accounted serial
  below : ∀ i n, m.Counted i n → n ≤ m.row.highest
  highest : m.row.highest ≤ m.row.count
  distinct : ∀ i j n, m.Counted i n → m.Counted j n → i = j

omit [DecidableEq ι] in
theorem took_inj {m : KeyMachine ι} {i : ι} {version other : Version} (h : m.Took i version)
    (h' : m.Took i other) : version = other := by
  have heq : some (Answer.taken (some version)) = some (Answer.taken (some other)) :=
    h.symm.trans h'
  simpa using heq

/-- What a call has read, while nothing has written the key over it: a take holds a value
nobody has taken, the one that is stored if any is and no number was given, and no number
above the count an increment holds was given. -/
structure Reading (m : KeyMachine ι) : Prop where
  below : ∀ i version, m.Reads i .take (some version) → version.serial < m.row.writes
  untaken : ∀ i version, m.Reads i .take (some version) →
    ∀ j other, m.Took j other → other.serial ≠ version.serial
  stored : ∀ i version, m.Reads i .take (some version) → m.row.highest = 0 →
    ∀ other, m.row.stored = some other → other = version
  counting : ∀ i found, m.Reads i .incr found → m.row.highest ≤ countOf found

omit [DecidableEq ι] in
/-- A step that takes and counts nothing, and accounts for the value it
replaces. -/
theorem Sound.quiet {m m' : KeyMachine ι} (h : m.Sound)
    (htook : ∀ i version, m'.Took i version ↔ m.Took i version)
    (hcounted : ∀ i n, m'.Counted i n → m.Counted i n)
    (hwrites : m.row.writes ≤ m'.row.writes)
    (hstored : ∀ version, m'.row.stored = some version →
      m.row.stored = some version ∨
        (m.row.writes ≤ version.serial ∧ version.serial < m'.row.writes))
    (hnew : ∀ serial, m.row.writes ≤ serial → serial < m'.row.writes → m'.Accounted serial)
    (hold : ∀ version, m.row.stored = some version → m'.Accounted version.serial)
    (hreplaced : m.row.replaced ⊆ m'.row.replaced)
    (hhighest : m'.row.highest = m.row.highest) (hcount : m'.row.highest ≤ m'.row.count) :
    m'.Sound where
  stored := by
    intro version hversion
    rcases hstored version hversion with hbefore | hafter
    · exact (h.stored version hbefore).trans_le hwrites
    · exact hafter.2
  gone := by
    intro i version hi
    obtain ⟨hserial, hother⟩ := h.gone i version ((htook i version).mp hi)
    refine ⟨hserial.trans_le hwrites, fun other hnow => ?_⟩
    rcases hstored other hnow with hbefore | hafter
    · exact hother other hbefore
    · omega
  once := by
    intro i j version other hi hj
    exact h.once i j version other ((htook i version).mp hi) ((htook j other).mp hj)
  accounted := by
    intro serial hserial
    by_cases hbefore : serial < m.row.writes
    · rcases h.accounted serial hbefore with ⟨version, hversion, rfl⟩ | ⟨i, version, hi, rfl⟩ | hmem
      · exact hold version hversion
      · exact .inr (.inl ⟨i, version, (htook i version).mpr hi, rfl⟩)
      · exact .inr (.inr (hreplaced hmem))
    · exact hnew serial (by omega) hserial
  below := by
    intro i n hi
    rw [hhighest]
    exact h.below i n (hcounted i n hi)
  highest := hcount
  distinct := by
    intro i j n hi hj
    exact h.distinct i j n (hcounted i n hi) (hcounted j n hj)

omit [DecidableEq ι] in
theorem Sound.of_row_eq {m m' : KeyMachine ι} (h : m.Sound) (hrow : m'.row = m.row)
    (htook : ∀ i version, m'.Took i version ↔ m.Took i version)
    (hcounted : ∀ i n, m'.Counted i n → m.Counted i n) : m'.Sound := by
  refine h.quiet htook hcounted (by rw [hrow]) ?_ ?_ ?_ (by rw [hrow]; exact fun _ h => h)
    (by rw [hrow]) (by rw [hrow]; exact h.highest)
  · intro version hversion
    rw [hrow] at hversion
    exact .inl hversion
  · intro serial hle hlt
    rw [hrow] at hlt
    omega
  · intro version hversion
    refine .inl ⟨version, ?_, rfl⟩
    rw [hrow]
    exact hversion

/-- The answer of one call is new; the other calls are where they were. -/
structure Answered (m m' : KeyMachine ι) (i : ι) (given : Option Answer) : Prop where
  self : (m'.caller i).stage.answer = given
  others : ∀ j, j ≠ i → m'.caller j = m.caller j

section Answered

variable {m m' : KeyMachine ι} {i : ι} {given : Option Answer}

omit [DecidableEq ι]

theorem Answered.took (ha : Answered m m' i given) {j : ι} (hj : j ≠ i) (version : Version) :
    m'.Took j version ↔ m.Took j version := by
  rw [Took, Took, ha.others j hj]

theorem Answered.counted (ha : Answered m m' i given) {j : ι} (hj : j ≠ i) (n : ℕ) :
    m'.Counted j n ↔ m.Counted j n := by
  rw [Counted, Counted, ha.others j hj]

theorem Answered.took_self (ha : Answered m m' i given) (version : Version) :
    m'.Took i version ↔ given = some (.taken (some version)) := by
  rw [Took, ha.self]

theorem Answered.counted_self (ha : Answered m m' i given) (n : ℕ) :
    m'.Counted i n ↔ given = some (.counted n) := by
  rw [Counted, ha.self]

/-- A call that had no answer before takes nothing. -/
theorem Answered.took_iff (ha : Answered m m' i given) (hnone : (m.caller i).stage.answer = none)
    (hgiven : ∀ version, given ≠ some (.taken (some version))) (j : ι) (version : Version) :
    m'.Took j version ↔ m.Took j version := by
  by_cases hj : j = i
  · rw [hj, ha.took_self, Took, hnone]
    exact iff_of_false (hgiven version) (by simp)
  · exact ha.took hj version

theorem Answered.counted_of (ha : Answered m m' i given) (hgiven : ∀ n, given ≠ some (.counted n))
    (j : ι) (n : ℕ) (hnow : m'.Counted j n) : m.Counted j n := by
  by_cases hj : j = i
  · rw [hj, ha.counted_self] at hnow
    exact absurd hnow (hgiven n)
  · exact (ha.counted hj n).mp hnow

theorem Sound.same (h : m.Sound) (ha : Answered m m' i (m.caller i).stage.answer)
    (hrow : m'.row = m.row) : m'.Sound := by
  apply h.of_row_eq hrow
  · intro j version
    by_cases hj : j = i
    · rw [hj, ha.took_self, Took]
    · exact ha.took hj version
  · intro j n hnow
    by_cases hj : j = i
    · rw [hj, ha.counted_self] at hnow
      rwa [hj]
    · exact (ha.counted hj n).mp hnow

theorem Sound.inserted (h : m.Sound) (ha : Answered m m' i (some .written))
    (hnone : (m.caller i).stage.answer = none) {value : Bytes}
    (hcount : m.row.highest ≤ decodeCounter value) (hrow : m'.row = m.row.put value) :
    m'.Sound := by
  refine h.quiet (ha.took_iff hnone (by simp)) (ha.counted_of (by simp)) ?_ ?_ ?_ ?_ ?_ ?_ ?_
  · rw [hrow]
    exact Nat.le_succ _
  · intro version hversion
    rw [hrow] at hversion ⊢
    obtain rfl := Option.some.inj hversion
    exact .inr ⟨le_rfl, Nat.lt_succ_self _⟩
  · intro serial hle hlt
    rw [hrow] at hlt
    have hserial : serial = m.row.writes := by
      change serial < m.row.writes + 1 at hlt
      omega
    refine .inl ⟨⟨value, m.row.writes⟩, ?_, hserial.symm⟩
    rw [hrow]
    rfl
  · intro version hversion
    refine .inr (.inr ?_)
    rw [hrow]
    simp [Row.put, hversion]
  · rw [hrow]
    exact List.subset_append_right _ _
  · rw [hrow]
    rfl
  · rw [hrow]
    exact hcount

theorem Sound.removed (h : m.Sound) (ha : Answered m m' i (some .written))
    (hnone : (m.caller i).stage.answer = none) (hcount : m.row.highest = 0)
    (hrow : m'.row = m.row.clear) : m'.Sound := by
  refine h.quiet (ha.took_iff hnone (by simp)) (ha.counted_of (by simp)) ?_ ?_ ?_ ?_ ?_ ?_ ?_
  · rw [hrow]
    exact le_rfl
  · intro version hversion
    rw [hrow] at hversion
    cases hversion
  · intro serial hle hlt
    rw [hrow] at hlt
    change serial < m.row.writes at hlt
    omega
  · intro version hversion
    refine .inr (.inr ?_)
    rw [hrow]
    simp [Row.clear, hversion]
  · rw [hrow]
    exact List.subset_append_right _ _
  · rw [hrow]
    rfl
  · rw [hrow]
    exact hcount.le

/-- A take removes the value it has read, which nobody has taken. -/
theorem Sound.taken (h : m.Sound) (hreading : m.Reading) {version : Version}
    (ha : Answered m m' i (some (.taken (some version))))
    (hreads : m.Reads i .take (some version))
    (hcount : m.row.highest = 0) (hrow : m'.row = m.row.takeOut) : m'.Sound := by
  have hnone : (m.caller i).stage.answer = none := by
    rw [hreads.2]
    rfl
  have huntaken := hreading.untaken i version hreads
  have hself : m'.Took i version := (ha.took_self version).mpr rfl
  have hquiet := ha.counted_of (by simp)
  have hcases : ∀ j other, m'.Took j other →
      (j = i ∧ other = version) ∨ (j ≠ i ∧ m.Took j other) := by
    intro j other hj
    by_cases heq : j = i
    · rw [heq] at hj
      exact .inl ⟨heq, took_inj hj hself⟩
    · exact .inr ⟨heq, (ha.took heq other).mp hj⟩
  have hbefore : ∀ j other, m.Took j other → m'.Took j other := by
    intro j other hj
    by_cases heq : j = i
    · rw [heq, Took, hnone] at hj
      exact absurd hj (by simp)
    · exact (ha.took heq other).mpr hj
  constructor
  · intro other hother
    rw [hrow] at hother
    cases hother
  · intro j other hj
    rw [hrow]
    rcases hcases j other hj with ⟨-, rfl⟩ | ⟨-, hold⟩
    · exact ⟨hreading.below i other hreads, by simp [Row.takeOut]⟩
    · exact ⟨(h.gone j other hold).1, by simp [Row.takeOut]⟩
  · intro j k other another hj hk hsame
    rcases hcases j other hj with ⟨rfl, rfl⟩ | ⟨-, hjold⟩
    · rcases hcases k another hk with ⟨rfl, rfl⟩ | ⟨-, hkold⟩
      · rfl
      · exact absurd hsame.symm (huntaken k another hkold)
    · rcases hcases k another hk with ⟨rfl, rfl⟩ | ⟨-, hkold⟩
      · exact absurd hsame (huntaken j other hjold)
      · exact h.once j k other another hjold hkold hsame
  · intro serial hlt
    rw [hrow] at hlt
    rcases h.accounted serial hlt with ⟨other, hother, rfl⟩ | ⟨j, other, hj, rfl⟩ | hmem
    · obtain rfl := hreading.stored i version hreads hcount other hother
      exact .inr (.inl ⟨i, other, hself, rfl⟩)
    · exact .inr (.inl ⟨j, other, hbefore j other hj, rfl⟩)
    · refine .inr (.inr ?_)
      rw [hrow]
      exact hmem
  · intro j n hj
    rw [hrow]
    exact h.below j n (hquiet j n hj)
  · rw [hrow]
    exact hcount.le
  · intro j k n hj hk
    exact h.distinct j k n (hquiet j n hj) (hquiet k n hk)

/-- An increment gives a number above every number given so far. -/
theorem Sound.countedUp (h : m.Sound) (hreading : m.Reading) {found : Option Version}
    (ha : Answered m m' i (some (.counted (countOf found + 1))))
    (hreads : m.Reads i .incr found) (hcount : countOf found < maxCount)
    (hrow : m'.row = m.row.countUp (countOf found + 1)) : m'.Sound := by
  have hnone : (m.caller i).stage.answer = none := by
    rw [hreads.2]
    rfl
  have hencoded : decodeCounter (encodeCounter (countOf found + 1)) = countOf found + 1 :=
    decodeCounter_encodeCounter hcount
  have hhighest := hreading.counting i found hreads
  have hmax : max m.row.highest (countOf found + 1) = countOf found + 1 := by omega
  have hquiet := ha.took_iff hnone (by simp)
  have hcases : ∀ j n, m'.Counted j n → (j = i ∧ n = countOf found + 1) ∨ m.Counted j n := by
    intro j n hj
    by_cases heq : j = i
    · rw [heq, ha.counted_self] at hj
      simp only [Option.some.injEq, Answer.counted.injEq] at hj
      exact .inl ⟨heq, hj.symm⟩
    · exact .inr ((ha.counted heq n).mp hj)
  constructor
  · intro version hversion
    rw [hrow] at hversion ⊢
    obtain rfl := Option.some.inj hversion
    exact Nat.lt_succ_self _
  · intro j version hj
    obtain ⟨hserial, -⟩ := h.gone j version ((hquiet j version).mp hj)
    rw [hrow]
    refine ⟨Nat.lt_succ_of_lt hserial, fun other hother => ?_⟩
    obtain rfl := Option.some.inj hother
    exact hserial.ne'
  · intro j k version other hj hk
    exact h.once j k version other ((hquiet j version).mp hj) ((hquiet k other).mp hk)
  · intro serial hlt
    rw [hrow] at hlt
    change serial < m.row.writes + 1 at hlt
    by_cases hnew : serial = m.row.writes
    · refine .inl ⟨⟨encodeCounter (countOf found + 1), m.row.writes⟩, ?_, hnew.symm⟩
      rw [hrow]
      rfl
    · rcases h.accounted serial (by omega) with
        ⟨version, hversion, rfl⟩ | ⟨j, version, hj, rfl⟩ | hmem
      · refine .inr (.inr ?_)
        rw [hrow]
        simp [Row.countUp, Row.put, hversion]
      · exact .inr (.inl ⟨j, version, (hquiet j version).mpr hj, rfl⟩)
      · refine .inr (.inr ?_)
        rw [hrow]
        exact List.mem_append_right _ hmem
  · intro j n hj
    rw [hrow]
    change n ≤ max m.row.highest (countOf found + 1)
    rcases hcases j n hj with ⟨-, rfl⟩ | hold
    · omega
    · have hbelow := h.below j n hold
      omega
  · rw [hrow]
    change max m.row.highest (countOf found + 1) ≤ decodeCounter (encodeCounter (countOf found + 1))
    rw [hencoded, hmax]
  · intro j k n hj hk
    rcases hcases j n hj with ⟨rfl, rfl⟩ | hjold
    · rcases hcases k _ hk with ⟨rfl, -⟩ | hkold
      · rfl
      · have hbelow := h.below k _ hkold
        omega
    · rcases hcases k n hk with ⟨rfl, rfl⟩ | hkold
      · have hbelow := h.below j _ hjold
        omega
      · exact h.distinct j k n hjold hkold

/-- A call with an answer has written the key; the others are where they were. -/
theorem Answered.reads {answer : Answer} (ha : Answered m m' i (some answer)) {j : ι}
    {call : KeyCall} {found : Option Version} (hj : m'.Reads j call found) :
    j ≠ i ∧ m.Reads j call found := by
  have hne : j ≠ i := by
    rintro rfl
    have hself := ha.self
    rw [hj.2] at hself
    contradiction
  rw [Reads, ha.others j hne] at hj
  exact ⟨hne, hj⟩

/-- A call that takes nothing, and leaves no value behind those that take. -/
theorem Reading.quiet (h : m.Reading) {answer : Answer} (ha : Answered m m' i (some answer))
    (htook : ∀ j version, m'.Took j version ↔ m.Took j version)
    (hwrites : m'.row.writes = m.row.writes) (hhighest : m'.row.highest = m.row.highest)
    (hstored : ∀ other, m'.row.stored = some other → m.row.stored = some other) :
    m'.Reading where
  below j version hj := by
    rw [hwrites]
    exact h.below j version (ha.reads hj).2
  untaken j version hj k other hk :=
    h.untaken j version (ha.reads hj).2 k other ((htook k other).mp hk)
  stored j version hj hzero other hother := by
    rw [hhighest] at hzero
    exact h.stored j version (ha.reads hj).2 hzero other (hstored other hother)
  counting j found hj := by
    rw [hhighest]
    exact h.counting j found (ha.reads hj).2

/-- No take holds a value after the step. -/
theorem Reading.of_no_take (h : m.Reading) {answer : Answer}
    (ha : Answered m m' i (some answer)) (hhighest : m'.row.highest = m.row.highest)
    (hnone : ∀ j version, m.Reads j .take (some version) → j = i) : m'.Reading := by
  have hout : ∀ j version, ¬m'.Reads j .take (some version) := fun j version hj =>
    (ha.reads hj).1 (hnone j version (ha.reads hj).2)
  refine ⟨fun j version hj => absurd hj (hout j version),
    fun j version hj => absurd hj (hout j version),
    fun j version hj => absurd hj (hout j version), fun j found hj => ?_⟩
  rw [hhighest]
  exact h.counting j found (ha.reads hj).2

/-- After an increment has written no other holds a count. -/
theorem Reading.countedUp (h : m.Reading) {found : Option Version}
    (ha : Answered m m' i (some (.counted (countOf found + 1))))
    (hreads : m.Reads i .incr found)
    (halone : ∀ j other, m.Reads j .incr other → j = i)
    (hrow : m'.row = m.row.countUp (countOf found + 1)) : m'.Reading where
  below j version hj := by
    rw [hrow]
    exact Nat.lt_succ_of_lt (h.below j version (ha.reads hj).2)
  untaken j version hj k other hk := by
    have hnone : (m.caller i).stage.answer = none := by
      rw [hreads.2]
      rfl
    exact h.untaken j version (ha.reads hj).2 k other
      ((ha.took_iff hnone (by simp) k other).mp hk)
  stored j version hj hzero := by
    rw [hrow] at hzero
    change max m.row.highest (countOf found + 1) = 0 at hzero
    omega
  counting j other hj := absurd (halone j other (ha.reads hj).2) (ha.reads hj).1

end Answered

/-- What a call holds after a step it held before, or the step has read it. -/
theorem step_reads (m : KeyMachine ι) (event : KeyEvent ι) {j : ι} {call : KeyCall}
    {found : Option Version} (h : (m.step event).Reads j call found) :
    m.Reads j call found ∨ found = m.row.stored := by
  by_cases hj : j = event.of
  · subst hj
    have hgone : ∀ m' i stage, (∀ other, stage ≠ Stage.read other) →
        ¬(KeyMachine.goTo (ι := ι) m' i stage).Reads i call found := by
      rintro m' i stage hstage ⟨-, hread⟩
      rw [goTo_self] at hread
      exact hstage found hread
    cases event with
    | fail i =>
      change (m.fail i).Reads i call found at h
      unfold fail at h
      split at h
      · exact .inl h
      · exact .inl h
      · exact absurd h (hgone _ i _ nofun)
    | advance i =>
      change (m.advance i).Reads i call found at h
      unfold advance acquire at h
      split at h
      · exact absurd h (hgone _ i _ nofun)
      · exact absurd h (hgone _ i _ nofun)
      · split at h
        · exact absurd h (hgone _ i _ nofun)
        · exact .inl h
      · obtain ⟨-, hread⟩ := h
        rw [goTo_self] at hread
        cases hread
        exact .inr rfl
      · exact absurd h (hgone _ i _ nofun)
      · exact absurd h (hgone _ i _ nofun)
      · exact absurd h (hgone _ i _ nofun)
      · exact .inl h
      · exact absurd h (hgone _ i _ nofun)
      · exact .inl h
  · rw [Reads, step_other m event hj] at h
    exact .inl h

omit [DecidableEq ι] in
/-- A step that leaves the row and the answers alone, in which a call may read the key. -/
theorem Reading.same {m m' : KeyMachine ι} (h : m.Reading) (hsound : m.Sound)
    (hreads : ∀ j call found, m'.Reads j call found → m.Reads j call found ∨ found = m.row.stored)
    (htook : ∀ j version, m'.Took j version → m.Took j version) (hrow : m'.row = m.row) :
    m'.Reading where
  below j version hj := by
    rw [hrow]
    rcases hreads j _ _ hj with hold | hnow
    · exact h.below j version hold
    · exact hsound.stored version hnow.symm
  untaken j version hj k other hk := by
    rcases hreads j _ _ hj with hold | hnow
    · exact h.untaken j version hold k other (htook k other hk)
    · exact ((hsound.gone k other (htook k other hk)).2 version hnow.symm).symm
  stored j version hj hzero other hother := by
    rw [hrow] at hzero hother
    rcases hreads j _ _ hj with hold | hnow
    · exact h.stored j version hold hzero other hother
    · exact (Option.some.inj (hnow.trans hother)).symm
  counting j found hj := by
    rw [hrow]
    rcases hreads j _ _ hj with hold | hnow
    · exact h.counting j found hold
    · rw [hnow]
      exact hsound.highest

theorem Reading.step {m : KeyMachine ι} (h : m.Reading) (hsound : m.Sound) (hheld : m.Held)
    {event : KeyEvent ι} (hundisturbed : m.undisturbed event) : (m.step event).Reading := by
  have hwrites := step_writes hheld event hundisturbed
  have hanswered : Answered m (m.step event) event.of
      ((m.step event).caller event.of).stage.answer :=
    ⟨rfl, fun j hj => step_other m event hj⟩
  have hreads := @step_reads _ _ m event
  generalize m.step event = m' at hwrites hanswered hreads ⊢
  generalize hrow : m'.row = row at hwrites
  generalize (m'.caller event.of).stage.answer = given at hwrites hanswered
  cases hwrites with
  | same =>
    refine h.same hsound (fun j call found hj => hreads hj) (fun j version hj => ?_) hrow
    by_cases heq : j = event.of
    · rw [heq, hanswered.took_self] at hj
      rw [heq]
      exact hj
    · exact (hanswered.took heq version).mp hj
  | refused hnone =>
    exact h.quiet hanswered (hanswered.took_iff hnone (by simp)) (by rw [hrow]) (by rw [hrow])
      (by rw [hrow]; exact fun _ hother => hother)
  | missed hnone =>
    exact h.quiet hanswered (hanswered.took_iff hnone (by simp)) (by rw [hrow]) (by rw [hrow])
      (by rw [hrow]; exact fun _ hother => hother)
  | inserted value hnone halone hcount =>
    exact h.of_no_take hanswered (by rw [hrow]; rfl)
      fun j version hj => absurd hj (halone j version)
  | removed hnone hcount =>
    exact h.quiet hanswered (hanswered.took_iff hnone (by simp)) (by rw [hrow]; rfl)
      (by rw [hrow]; rfl) (by rw [hrow]; exact fun _ hother => nomatch hother)
  | took version hread halone hcount =>
    exact h.of_no_take hanswered (by rw [hrow]; rfl) halone
  | counted found hread halone hcount => exact h.countedUp hanswered hread halone hrow

theorem Sound.step {m : KeyMachine ι} (h : m.Sound) (hreading : m.Reading) (hheld : m.Held)
    {event : KeyEvent ι} (hundisturbed : m.undisturbed event) : (m.step event).Sound := by
  have hwrites := step_writes hheld event hundisturbed
  have hanswered : Answered m (m.step event) event.of
      ((m.step event).caller event.of).stage.answer :=
    ⟨rfl, fun j hj => step_other m event hj⟩
  generalize m.step event = m' at hwrites hanswered ⊢
  generalize hrow : m'.row = row at hwrites
  generalize (m'.caller event.of).stage.answer = given at hwrites hanswered
  cases hwrites with
  | same => exact h.same hanswered hrow
  | refused hnone =>
    exact h.of_row_eq hrow (hanswered.took_iff hnone (by simp)) (hanswered.counted_of (by simp))
  | missed hnone =>
    exact h.of_row_eq hrow (hanswered.took_iff hnone (by simp)) (hanswered.counted_of (by simp))
  | inserted value hnone halone hcount => exact h.inserted hanswered hnone hcount hrow
  | removed hnone hcount => exact h.removed hanswered hnone hcount hrow
  | took version hread halone hcount => exact h.taken hreading hanswered hread hcount hrow
  | counted found hread halone hcount => exact h.countedUp hreading hanswered hread hcount hrow

/-! ## Runs -/

omit [DecidableEq ι] in
theorem reading_start (row : Row) (calls : ι → ℕ × KeyCall) : (start row calls).Reading where
  below := fun _ _ hj => nomatch hj.2
  untaken := fun _ _ hj => nomatch hj.2
  stored := fun _ _ hj => nomatch hj.2
  counting := fun _ _ hj => nomatch hj.2

omit [DecidableEq ι] in
theorem sound_start (value : Option Bytes) (calls : ι → ℕ × KeyCall) :
    (start (Row.initial value) calls).Sound where
  stored := by
    intro version hversion
    cases value with
    | none => cases hversion
    | some bytes =>
      obtain rfl := Option.some.inj hversion
      exact Nat.zero_lt_one
  gone := by
    intro i version hi
    cases hi
  once := by
    intro i j version other hi
    cases hi
  accounted := by
    intro serial hlt
    cases value with
    | none => exact absurd hlt (Nat.not_lt_zero serial)
    | some bytes =>
      obtain rfl : serial = 0 := Nat.lt_one_iff.mp hlt
      exact .inl ⟨⟨bytes, 0⟩, rfl, rfl⟩
  below := by
    intro i n hi
    cases hi
  highest := Nat.zero_le _
  distinct := by
    intro i j n hi
    cases hi

theorem run_inv (value : Option Bytes) (calls : ι → ℕ × KeyCall) {events : List (KeyEvent ι)}
    (hundisturbed : Run.Meets step undisturbed (start (Row.initial value) calls) events) :
    let m := (start (Row.initial value) calls).exec events
    m.Sound ∧ m.Reading ∧ m.Held := by
  have hstart : (start (Row.initial value) calls).Sound ∧
      (start (Row.initial value) calls).Reading ∧ (start (Row.initial value) calls).Held :=
    ⟨sound_start value calls, reading_start _ calls, held_start _ calls⟩
  have hstep : ∀ (m : KeyMachine ι) (event : KeyEvent ι), m.undisturbed event →
      m.Sound ∧ m.Reading ∧ m.Held →
        (m.step event).Sound ∧ (m.step event).Reading ∧ (m.step event).Held := by
    rintro m event hmeets ⟨hsound, hreading, hheld⟩
    exact ⟨hsound.step hreading hheld hmeets, hreading.step hsound hheld hmeets,
      hheld.step event⟩
  exact Run.exec_invariant hstep hstart hundisturbed

/-- Over calls through any handles: as long as no take or increment overlaps one of
another handle or an insert, and no write sets the counter back, one take at most
returns a stored value, no two increments return one number, and a value that was stored
is still stored, was returned by a take, or was replaced by a later write or removed. -/
theorem take_and_count_once (value : Option Bytes) (calls : ι → ℕ × KeyCall)
    (events : List (KeyEvent ι))
    (hundisturbed : Run.Meets step undisturbed (start (Row.initial value) calls) events) :
    let m := (start (Row.initial value) calls).exec events
    (∀ i j version other, m.Took i version → m.Took j other →
      version.serial = other.serial → i = j) ∧
    (∀ i j n, m.Counted i n → m.Counted j n → i = j) ∧
    ∀ serial, serial < m.row.writes →
      (∃ version, m.row.stored = some version ∧ version.serial = serial) ∨
        (∃ i version, m.Took i version ∧ version.serial = serial) ∨ serial ∈ m.row.replaced := by
  intro m
  have hsound : m.Sound := (run_inv value calls hundisturbed).1
  exact ⟨hsound.once, hsound.distinct, hsound.accounted⟩

/-- Two takes through one handle, a write through another one, and two increments. -/
def waitingCalls : Fin 5 → ℕ × KeyCall
  | 0 => (0, .take)
  | 1 => (0, .take)
  | 2 => (1, .insert (encodeCounter 4))
  | _ => (0, .incr)

/-- The second take and the second increment ask for the mutex while it is held. -/
def waitingRun : List (KeyEvent (Fin 5)) :=
  [.advance 0, .advance 1, .advance 0, .advance 1, .advance 0, .advance 0, .advance 1,
    .advance 1, .advance 1, .advance 2, .advance 3, .advance 4, .advance 3, .advance 4,
    .advance 3, .advance 3, .advance 4, .advance 4, .advance 4]

/-- The key after them. -/
def waited : KeyMachine (Fin 5) :=
  (start (Row.initial (some [1])) waitingCalls).exec waitingRun

/-- Two takes and two increments through one handle, with a write between: the second
call waits for the mutex each time. -/
theorem take_and_count_once_waiting :
    waited.Took 0 ⟨[1], 0⟩ ∧ ¬waited.Took 1 ⟨[1], 0⟩ ∧ waited.Counted 3 5 ∧
      ¬waited.Counted 4 5 ∧ waited.row.stored = some ⟨encodeCounter 6, 3⟩ := by
  obtain ⟨honce, hdistinct, -⟩ := take_and_count_once (some [1]) waitingCalls waitingRun
    (by decide +kernel)
  rw [← waited] at honce hdistinct
  have hfirst : waited.Took 0 ⟨[1], 0⟩ := by
    unfold Took
    decide +kernel
  have hcount : waited.Counted 3 5 := by
    unfold Counted
    decide +kernel
  have hstored : waited.row.stored = some ⟨encodeCounter 6, 3⟩ := by
    decide +kernel
  refine ⟨hfirst, fun hsecond => ?_, hcount, fun hsecond => ?_, hstored⟩
  · exact absurd (honce 0 1 _ _ hfirst hsecond rfl) (by decide)
  · exact absurd (hdistinct 3 4 5 hcount hsecond) (by decide)

/-- Two takes through two handles both return the value, and an insert between
the read and the remove of a take is lost: it is neither stored nor taken nor
replaced. -/
theorem take_through_two_handles :
    (((start (Row.initial (some [1])) fun i : ℕ => (i, KeyCall.take)).exec
      [.advance 0, .advance 1, .advance 0, .advance 1, .advance 0, .advance 1]).Took 0 ⟨[1], 0⟩ ∧
    ((start (Row.initial (some [1])) fun i : ℕ => (i, KeyCall.take)).exec
      [.advance 0, .advance 1, .advance 0, .advance 1, .advance 0, .advance 1]).Took 1
        ⟨[1], 0⟩) ∧
    ((start (Row.initial (some [1])) fun i : ℕ =>
      (0, if i = 0 then KeyCall.take else .insert [2])).exec
      [.advance 0, .advance 0, .advance 1, .advance 0]).row = ⟨none, 2, [0], 0⟩ ∧
    ((start (Row.initial (some [1])) fun i : ℕ =>
      (0, if i = 0 then KeyCall.take else .insert [2])).exec
      [.advance 0, .advance 0, .advance 1, .advance 0]).Took 0 ⟨[1], 0⟩ := by
  refine ⟨⟨?_, ?_⟩, ?_, ?_⟩
  · rfl
  · rfl
  · rfl
  · rfl

end KeyMachine

end DidHosting.Backend
