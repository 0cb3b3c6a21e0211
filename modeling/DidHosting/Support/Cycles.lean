import Mathlib.Data.Fintype.Basic
import Mathlib.Data.List.Nodup
import Mathlib.Logic.Function.Basic
import DidHosting.Support.Run

/-!
# Read and write cycles on one row

An operation that changes a row reads it, makes a new row of what it read, and stores that
row whole.  Such a cycle takes two steps, and other operations may store theirs in between.
An operation is a list of cycles; the desk runs one operation per thread.

A store is up to date when the cycle would make the same row of the row it finds as it made
of the row it read.  Where all stores are, every cycle takes effect at its last step, and an
order of the operations with the row they leave one after the other can be built along the
run.
-/

namespace DidHosting

/-- What is stored for the row that was read, if anything. -/
abbrev Cycle (ρ : Type) := Option ρ → Option ρ

namespace Cycle

variable {ρ : Type}

/-- The row after a cycle with nothing in between. -/
def run (c : Cycle ρ) (row : Option ρ) : Option ρ :=
  match c row with
  | none => row
  | some new => some new

/-- The row after some cycles with nothing in between. -/
def runAll (cs : List (Cycle ρ)) (row : Option ρ) : Option ρ :=
  cs.foldl (fun row c => c.run row) row

theorem run_of_none {c : Cycle ρ} {row : Option ρ} (h : c row = none) : c.run row = row := by
  unfold run
  rw [h]

theorem run_of_some {c : Cycle ρ} {row : Option ρ} {new : ρ} (h : c row = some new) :
    c.run row = some new := by
  unfold run
  rw [h]

@[simp] theorem runAll_nil (row : Option ρ) : runAll [] row = row :=
  rfl

@[simp] theorem runAll_cons (c : Cycle ρ) (cs : List (Cycle ρ)) (row : Option ρ) :
    runAll (c :: cs) row = runAll cs (c.run row) :=
  rfl

theorem runAll_concat (cs : List (Cycle ρ)) (c : Cycle ρ) (row : Option ρ) :
    runAll (cs ++ [c]) row = c.run (runAll cs row) := by
  unfold runAll
  rw [List.foldl_append]
  rfl

end Cycle

/-- One row and the operations on it: the cycles each has behind it and before it, and the
row it is about to store.  `started` lists the operations in the order in which their first
cycles ended. -/
structure Desk (ι ρ : Type) where
  row : Option ρ
  done : ι → List (Cycle ρ)
  todo : ι → List (Cycle ρ)
  made : ι → Option ρ
  started : List ι

namespace Desk

variable {ι ρ : Type}

/-- No operation has taken a step. -/
def start (row : Option ρ) (cycles : ι → List (Cycle ρ)) : Desk ι ρ where
  row := row
  done _ := []
  todo := cycles
  made _ := none
  started := []

/-- The operation has ended a cycle. -/
def Begun (m : Desk ι ρ) (i : ι) : Prop :=
  m.done i ≠ []

/-- The operation has ended its last cycle. -/
def Completed (m : Desk ι ρ) (i : ι) : Prop :=
  m.Begun i ∧ m.todo i = []

/-- No operation is under way. -/
def Settled (m : Desk ι ρ) : Prop :=
  ∀ i, m.Begun i → m.todo i = []

/-- A row that is stored now is made of the row as it is. -/
def UpToDate (m : Desk ι ρ) (i : ι) : Prop :=
  match m.todo i, m.made i with
  | c :: _, some new => c m.row = some new
  | _, _ => True

theorem upToDate_of_made {m : Desk ι ρ} {i : ι} (h : m.made i = none) : m.UpToDate i := by
  unfold UpToDate
  rw [h]
  split
  · contradiction
  · trivial

/-- No other operation is within a cycle. -/
def Apart (m : Desk ι ρ) (i : ι) : Prop :=
  ∀ j, j ≠ i → m.made j = none

instance [Fintype ι] [DecidableEq ι] (m : Desk ι ρ) (i : ι) : Decidable (m.Apart i) :=
  inferInstanceAs (Decidable (∀ j, j ≠ i → m.made j = none))

/-- The row after the cycles that the operations of `order` have behind them. -/
def replay (done : ι → List (Cycle ρ)) (order : List ι) (row : Option ρ) : Option ρ :=
  order.foldl (fun row i => Cycle.runAll (done i) row) row

theorem replay_append (done : ι → List (Cycle ρ)) (order more : List ι) (row : Option ρ) :
    replay done (order ++ more) row = replay done more (replay done order row) :=
  List.foldl_append

@[simp] theorem replay_nil (done : ι → List (Cycle ρ)) (row : Option ρ) :
    replay done [] row = row :=
  rfl

@[simp] theorem replay_cons (done : ι → List (Cycle ρ)) (i : ι) (order : List ι)
    (row : Option ρ) :
    replay done (i :: order) row = replay done order (Cycle.runAll (done i) row) :=
  rfl

/-- Only the cycles of the operations of the order matter. -/
theorem replay_congr {done done' : ι → List (Cycle ρ)} {order : List ι}
    (h : ∀ i ∈ order, done i = done' i) (row : Option ρ) :
    replay done order row = replay done' order row := by
  induction order generalizing row with
  | nil => rfl
  | cons i order ih =>
      rw [replay_cons, replay_cons, h i List.mem_cons_self]
      exact ih (fun j hj => h j (List.mem_cons_of_mem i hj)) _

/-! ## Orders of the operations -/

/-- `order` lists the operations that have ended a cycle, and the row is what they leave one
after the other. -/
structure Ordered (cycles : ι → List (Cycle ρ)) (row₀ : Option ρ) (m : Desk ι ρ)
    (order : List ι) : Prop where
  nodup : order.Nodup
  begun : ∀ i, i ∈ order ↔ m.Begun i
  split : ∀ i, m.done i ++ m.todo i = cycles i
  row : m.row = replay m.done order row₀

section Orders

variable {cycles : ι → List (Cycle ρ)} {row₀ : Option ρ} {m : Desk ι ρ} {order : List ι}

theorem ordered_start : Ordered cycles row₀ (start row₀ cycles) [] where
  nodup := List.nodup_nil
  begun i := by simp [Begun, start]
  split i := rfl
  row := rfl

theorem Ordered.made (h : Ordered cycles row₀ m order) (made : ι → Option ρ) :
    Ordered cycles row₀ { m with made := made } order where
  nodup := h.nodup
  begun := h.begun
  split := h.split
  row := h.row

/-- When no operation is under way, the row is what whole operations leave. -/
theorem Ordered.settled (h : Ordered cycles row₀ m order) (hsettled : m.Settled) :
    m.row = replay cycles order row₀ := by
  rw [h.row]
  refine replay_congr ?_ row₀
  intro i hi
  have htodo : m.todo i = [] := hsettled i ((h.begun i).mp hi)
  rw [← h.split i, htodo, List.append_nil]

end Orders

/-! ## Steps -/

variable [DecidableEq ι]

/-- The operation ends the cycle `c`, and leaves `row`. -/
def finish (m : Desk ι ρ) (i : ι) (c : Cycle ρ) (rest : List (Cycle ρ)) (row : Option ρ) :
    Desk ι ρ where
  row := row
  done := Function.update m.done i (m.done i ++ [c])
  todo := Function.update m.todo i rest
  made := Function.update m.made i none
  started := if m.done i = [] then m.started ++ [i] else m.started

/-- One step of an operation: it reads the row, or it stores the one it made. -/
def step (m : Desk ι ρ) (i : ι) : Desk ι ρ :=
  match m.todo i, m.made i with
  | [], _ => m
  | c :: rest, none =>
      match c m.row with
      | none => m.finish i c rest m.row
      | some new => { m with made := Function.update m.made i (some new) }
  | c :: rest, some new => m.finish i c rest (some new)

section Steps

variable {m : Desk ι ρ} {i : ι}

/-- What an up-to-date step does: it ends no cycle and leaves the row, or it ends one, as if
that had been made of the row at once. -/
theorem step_cases (h : m.UpToDate i) :
    (∃ made, m.step i = { m with made := made }) ∨
    ∃ c rest, m.todo i = c :: rest ∧ m.step i = m.finish i c rest (c.run m.row) := by
  unfold step
  unfold UpToDate at h
  cases htodo : m.todo i with
  | nil => exact Or.inl ⟨m.made, rfl⟩
  | cons c rest =>
      cases hmade : m.made i with
      | some new =>
          simp only [htodo, hmade] at h
          refine Or.inr ⟨c, rest, rfl, ?_⟩
          rw [Cycle.run_of_some h]
      | none =>
          cases hnew : c m.row with
          | none =>
              refine Or.inr ⟨c, rest, rfl, ?_⟩
              simp only [hnew, Cycle.run_of_none hnew]
          | some new =>
              refine Or.inl ⟨Function.update m.made i (some new), ?_⟩
              simp only [hnew]

/-- Outside the cycle that ends nothing has been made. -/
theorem upToDate_finish (hapart : m.Apart i) (c : Cycle ρ) (rest : List (Cycle ρ))
    (row : Option ρ) (j : ι) : (m.finish i c rest row).UpToDate j := by
  apply upToDate_of_made
  by_cases hj : j = i
  · subst hj
    exact Function.update_self ..
  · exact (Function.update_of_ne hj ..).trans (hapart j hj)

theorem upToDate_step (hapart : m.Apart i) (h : ∀ j, m.UpToDate j) (j : ι) :
    (m.step i).UpToDate j := by
  unfold step
  cases htodo : m.todo i with
  | nil => exact h j
  | cons c rest =>
      cases hmade : m.made i with
      | some new => exact upToDate_finish hapart c rest _ j
      | none =>
          cases hnew : c m.row with
          | none =>
              simp only [hnew]
              exact upToDate_finish hapart c rest _ j
          | some new =>
              simp only [hnew]
              by_cases hj : j = i
              · subst hj
                unfold UpToDate
                simp only [htodo, Function.update_self, hnew]
              · exact upToDate_of_made ((Function.update_of_ne hj ..).trans (hapart j hj))

/-- Where no two cycles overlap, every store is up to date. -/
theorem upToDate_of_apart {row : Option ρ} {cycles : ι → List (Cycle ρ)} {events : List ι}
    (h : Run.Meets step Apart (start row cycles) events) :
    Run.Meets step UpToDate (start row cycles) events :=
  @Run.Meets.of_invariant _ _ step Apart UpToDate (fun m => ∀ j, m.UpToDate j)
    (fun _ i _ hdate => hdate i) (fun _ _ hapart hdate => upToDate_step hapart hdate) _ _
    (fun _ => upToDate_of_made rfl) h

@[simp] theorem finish_row (c : Cycle ρ) (rest : List (Cycle ρ)) (row : Option ρ) :
    (m.finish i c rest row).row = row :=
  rfl

@[simp] theorem finish_done_self (c : Cycle ρ) (rest : List (Cycle ρ)) (row : Option ρ) :
    (m.finish i c rest row).done i = m.done i ++ [c] :=
  Function.update_self ..

theorem finish_done_ne {j : ι} (hne : j ≠ i) (c : Cycle ρ) (rest : List (Cycle ρ))
    (row : Option ρ) : (m.finish i c rest row).done j = m.done j :=
  Function.update_of_ne hne ..

@[simp] theorem finish_todo_self (c : Cycle ρ) (rest : List (Cycle ρ)) (row : Option ρ) :
    (m.finish i c rest row).todo i = rest :=
  Function.update_self ..

theorem finish_todo_ne {j : ι} (hne : j ≠ i) (c : Cycle ρ) (rest : List (Cycle ρ))
    (row : Option ρ) : (m.finish i c rest row).todo j = m.todo j :=
  Function.update_of_ne hne ..

theorem finish_begun (c : Cycle ρ) (rest : List (Cycle ρ)) (row : Option ρ) {j : ι} :
    (m.finish i c rest row).Begun j ↔ j = i ∨ m.Begun j := by
  unfold Begun
  by_cases hj : j = i
  · subst hj
    simp
  · rw [finish_done_ne hj]
    simp [hj]

end Steps

/-! ## Cycles that end -/

section Ends

variable {cycles : ι → List (Cycle ρ)} {row₀ : Option ρ} {m : Desk ι ρ} {order : List ι}
  {i : ι} {c : Cycle ρ} {rest : List (Cycle ρ)}

theorem Ordered.finish_split (h : Ordered cycles row₀ m order) (htodo : m.todo i = c :: rest)
    (row : Option ρ) (j : ι) :
    (m.finish i c rest row).done j ++ (m.finish i c rest row).todo j = cycles j := by
  by_cases hj : j = i
  · subst hj
    rw [finish_done_self, finish_todo_self, List.append_assoc, ← h.split j, htodo]
    rfl
  · rw [finish_done_ne hj, finish_todo_ne hj]
    exact h.split j

/-- Replaying an order without the operation that ends a cycle. -/
theorem replay_finish {others : List ι} (hi : i ∉ others) (row row' : Option ρ) :
    replay (m.finish i c rest row).done others row' = replay m.done others row' := by
  refine replay_congr ?_ row'
  intro j hj
  have hne : j ≠ i := ne_of_mem_of_not_mem hj hi
  exact finish_done_ne hne c rest row

/-- The first cycle of an operation puts it at the end of the order. -/
theorem Ordered.first (h : Ordered cycles row₀ m order) (htodo : m.todo i = c :: rest)
    (hnew : ¬ m.Begun i) :
    Ordered cycles row₀ (m.finish i c rest (c.run m.row)) (order ++ [i]) where
  nodup := by
    have hi : i ∉ order := fun hi => hnew ((h.begun i).mp hi)
    exact List.nodup_append.mpr ⟨h.nodup, List.nodup_singleton i, by
      intro a ha b hb
      rw [List.mem_singleton.mp hb]
      exact fun hai => hi (hai ▸ ha)⟩
  begun j := by
    rw [List.mem_append, List.mem_singleton, finish_begun, h.begun]
    exact or_comm
  split := h.finish_split htodo _
  row := by
    have hi : i ∉ order := fun hi => hnew ((h.begun i).mp hi)
    have hdone : m.done i = [] := not_not.mp hnew
    rw [replay_append, replay_finish hi, ← h.row]
    simp [hdone]

/-- A later cycle keeps the operation in the order, which may be rearranged. -/
theorem Ordered.later (h : Ordered cycles row₀ m order) (htodo : m.todo i = c :: rest)
    (hold : m.Begun i) {order' : List ι} (hperm : order'.Perm order)
    (hrow : c.run m.row = replay (m.finish i c rest (c.run m.row)).done order' row₀) :
    Ordered cycles row₀ (m.finish i c rest (c.run m.row)) order' where
  nodup := hperm.nodup_iff.mpr h.nodup
  begun j := by
    rw [hperm.mem_iff, finish_begun, h.begun]
    constructor
    · exact Or.inr
    · rintro (rfl | hj)
      · exact hold
      · exact hj
  split := h.finish_split htodo _
  row := hrow

end Ends

end Desk

end DidHosting
