import Mathlib.Tactic.Common

/-!
# Reading a list page by page

A server answers a window of a list, with the length of the whole list.  A client asks
for the window behind what it has read, until a window is empty or it has read as much
as the list is long.
-/

namespace DidHosting

namespace Paging

variable {α β : Type}

/-- The window of `size` items behind the first `offset`, and the length of the list. -/
def window (size : ℕ) (items : List α) (offset : ℕ) : List α × ℕ :=
  ((items.drop offset).take size, items.length)

/-- The client, with `fuel` requests left, when it has read `out`.  There is no answer
when the requests are used up before the end. -/
def follow (page : ℕ → List α × ℕ) : ℕ → List α → Option (List α)
  | 0, _ => none
  | fuel + 1, out =>
      let (records, total) := page out.length
      let out := out ++ records
      if records.isEmpty || decide (total ≤ out.length) then some out else follow page fuel out

/-- One request: the client has read the window and `rest.drop size` is left. -/
theorem follow_window_step (size fuel : ℕ) (out rest : List α) :
    follow (window size (out ++ rest)) (fuel + 1) out =
      if (rest.take size).isEmpty || decide (rest.length ≤ size) then some (out ++ rest.take size)
      else follow (window size (out ++ rest)) fuel (out ++ rest.take size) := by
  have hwindow : window size (out ++ rest) out.length = (rest.take size, (out ++ rest).length) := by
    unfold window
    rw [List.drop_left]
  have hend : (out ++ rest).length ≤ (out ++ rest.take size).length ↔ rest.length ≤ size := by
    rw [List.length_append, List.length_append, List.length_take]
    omega
  rw [follow, hwindow]
  simp only [hend]

/-- The windows, followed to the end, are the list: what has been read and what is left
make up the list at every request, and each request but the last leaves less. -/
theorem follow_window {size : ℕ} (hsize : 0 < size) (fuel : ℕ) (out rest : List α)
    (hfuel : rest.length < fuel) :
    follow (window size (out ++ rest)) fuel out = some (out ++ rest) := by
  induction fuel generalizing out rest with
  | zero => exact absurd hfuel (Nat.not_lt_zero _)
  | succ fuel ih =>
      rw [follow_window_step]
      by_cases hlast : rest.length ≤ size
      · rw [List.take_of_length_le hlast]
        simp [hlast]
      · have hne : (rest.take size).isEmpty = false := by
          rw [List.isEmpty_eq_false_iff, ← List.length_pos_iff, List.length_take]
          omega
        have hleft : (rest.drop size).length < fuel := by
          rw [List.length_drop]
          omega
        have hsplit : out ++ rest = (out ++ rest.take size) ++ rest.drop size := by
          rw [List.append_assoc, List.take_append_drop]
        rw [hne, Bool.false_or, if_neg (by simpa using hlast), hsplit]
        exact ih _ _ hleft

theorem window_map (f : α → β) (size : ℕ) (items : List α) (offset : ℕ) :
    window size (items.map f) offset =
      ((window size items offset).1.map f, (window size items offset).2) := by
  unfold window
  rw [← List.map_drop, ← List.map_take, List.length_map]

end Paging

end DidHosting
