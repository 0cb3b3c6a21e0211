import DidHosting.Support.Table

/-!
# Writing rows

A list of rows is written to a table, one row after another.  What is then found under a key
is the last of the rows with that key, or else what was there before.
-/

namespace DidHosting

namespace Table

variable {κ ν : Type} [DecidableEq κ]

/-- Write the rows, in order. -/
def write (rows : List (κ × ν)) (t : Table κ ν) : Table κ ν :=
  rows.foldl (fun t row => t.insert row.1 row.2) t

/-- The value of the last row with a key. -/
def lastValue (k : κ) : List (κ × ν) → Option ν
  | [] => none
  | row :: rest => (lastValue k rest).or (if k = row.1 then some row.2 else none)

@[simp] theorem write_nil (t : Table κ ν) : write [] t = t := rfl

@[simp] theorem write_cons (row : κ × ν) (rest : List (κ × ν)) (t : Table κ ν) :
    write (row :: rest) t = write rest (t.insert row.1 row.2) := rfl

theorem write_append (rows more : List (κ × ν)) (t : Table κ ν) :
    write (rows ++ more) t = write more (write rows t) :=
  List.foldl_append

theorem lookup_write (rows : List (κ × ν)) (t : Table κ ν) (k : κ) :
    (write rows t).lookup k = (lastValue k rows).or (t.lookup k) := by
  induction rows generalizing t with
  | nil => simp [lastValue]
  | cons row rest ih =>
      rw [write_cons, ih, lookup_insert_ite, lastValue]
      by_cases hk : k = row.1
      · rw [if_pos hk, if_pos hk, Option.or_assoc, Option.some_or]
      · rw [if_neg hk, if_neg hk, Option.or_none]

theorem mem_of_lastValue {rows : List (κ × ν)} {k : κ} {v : ν}
    (h : lastValue k rows = some v) : (k, v) ∈ rows := by
  induction rows with
  | nil => simp [lastValue] at h
  | cons row rest ih =>
      unfold lastValue at h
      rcases Option.or_eq_some_iff.mp h with hrest | ⟨-, hrow⟩
      · exact List.mem_cons_of_mem _ (ih hrest)
      · split at hrow
        · rename_i hk
          cases hrow
          subst hk
          exact List.mem_cons_self
        · contradiction

theorem lastValue_eq_none {rows : List (κ × ν)} {k : κ} :
    lastValue k rows = none ↔ k ∉ rows.map (·.1) := by
  induction rows with
  | nil => simp [lastValue]
  | cons row rest ih =>
      simp [lastValue, Option.or_eq_none_iff, ih, and_comm]

/-- Rows with different keys are all found. -/
theorem lastValue_of_mem {rows : List (κ × ν)} {k : κ} {v : ν}
    (hnodup : (rows.map (·.1)).Nodup) (h : (k, v) ∈ rows) : lastValue k rows = some v := by
  induction rows with
  | nil => contradiction
  | cons row rest ih =>
      rw [List.map_cons, List.nodup_cons] at hnodup
      unfold lastValue
      rcases List.mem_cons.mp h with rfl | hrest
      · rw [lastValue_eq_none.mpr hnodup.1]
        simp
      · rw [ih hnodup.2 hrest, Option.some_or]

/-- A key has its old value, or one of the values written. -/
theorem lookup_write_cases (rows : List (κ × ν)) (t : Table κ ν) (k : κ) :
    (write rows t).lookup k = t.lookup k ∨
      ∃ v, (k, v) ∈ rows ∧ (write rows t).lookup k = some v := by
  rw [lookup_write]
  cases h : lastValue k rows with
  | none => exact .inl Option.none_or
  | some v => exact .inr ⟨v, mem_of_lastValue h, Option.some_or⟩

end Table

end DidHosting
