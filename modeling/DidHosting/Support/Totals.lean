import Mathlib.Algebra.BigOperators.Group.List.Basic
import Mathlib.Algebra.GroupWithZero.Nat
import DidHosting.Support.Table

/-!
# Totals over a table

The sum of what each row counts.  It depends on the rows and not on their order, so that a
change under one key changes the total by what the row under that key counts.
-/

namespace DidHosting

namespace Table

variable {κ ν : Type} [DecidableEq κ]

/-- Tables with the same rows hold them in some order. -/
theorem rows_perm {t t' : Table κ ν} (h : ∀ k, t'.lookup k = t.lookup k) :
    (rows t').Perm (rows t) := by
  have hnodup : ∀ u : Table κ ν, (rows u).Nodup := fun u =>
    List.Nodup.of_map _ (keys_rows_nodup u)
  refine (List.perm_ext_iff_of_nodup (hnodup t') (hnodup t)).mpr ?_
  rintro ⟨k, v⟩
  rw [mem_rows, mem_rows, h]

/-- What the row under a key counts; nothing where there is no row. -/
def weight (f : κ → ν → ℕ) (t : Table κ ν) (k : κ) : ℕ :=
  ((t.lookup k).map (f k)).getD 0

/-- What the rows count together. -/
def total (f : κ → ν → ℕ) (t : Table κ ν) : ℕ :=
  ((rows t).map fun row => f row.1 row.2).sum

section

variable (f : κ → ν → ℕ)

theorem total_congr {t t' : Table κ ν} (h : ∀ k, t'.lookup k = t.lookup k) :
    total f t' = total f t :=
  ((rows_perm h).map _).sum_eq

/-- The row under one key, and the others. -/
theorem total_eq_weight_add (t : Table κ ν) (k : κ) :
    total f t = weight f t k + total f (t.erase k) := by
  unfold weight
  cases hrow : t.lookup k with
  | none =>
      rw [erase_eq_self hrow]
      exact (Nat.zero_add _).symm
  | some v =>
      have hperm := ((rows_perm_erase hrow).map fun row => f row.1 row.2).sum_eq
      rwa [List.map_cons, List.sum_cons] at hperm

/-- A change under one key changes the total by what that row counts. -/
theorem total_update {t t' : Table κ ν} (k : κ)
    (h : ∀ k', k' ≠ k → t'.lookup k' = t.lookup k') :
    total f t' + weight f t k = total f t + weight f t' k := by
  have hrest : total f (t'.erase k) = total f (t.erase k) := by
    apply total_congr
    intro k'
    rw [lookup_erase_ite, lookup_erase_ite]
    split
    · rfl
    · exact h k' ‹_›
  rw [total_eq_weight_add f t' k, total_eq_weight_add f t k, hrest]
  omega

/-- Tables whose rows count the same have the same total. -/
theorem total_congr_weight {g : κ → ν → ℕ} {t : Table κ ν}
    (h : ∀ k v, t.lookup k = some v → f k v = g k v) : total f t = total g t := by
  unfold total
  congr 1
  apply List.map_congr_left
  rintro ⟨k, v⟩ hrow
  exact h k v (mem_rows.mp hrow)

/-- One row counts no more than all of them. -/
theorem weight_le_total (t : Table κ ν) (k : κ) : weight f t k ≤ total f t := by
  rw [total_eq_weight_add f t k]
  exact Nat.le_add_right _ _

/-- Different keys that lead to every row that counts give the total. -/
theorem sum_weight {keys : List κ} (hnodup : keys.Nodup) {t : Table κ ν}
    (hcover : ∀ k v, t.lookup k = some v → f k v ≠ 0 → k ∈ keys) :
    (keys.map (weight f t)).sum = total f t := by
  induction keys generalizing t with
  | nil =>
      refine (List.sum_eq_zero ?_).symm
      intro n hn
      obtain ⟨⟨k, v⟩, hrow, rfl⟩ := List.mem_map.mp hn
      by_contra hne
      exact List.not_mem_nil (hcover k v (mem_rows.mp hrow) hne)
  | cons k keys ih =>
      obtain ⟨hk, hnodup⟩ := List.nodup_cons.mp hnodup
      have hrest : (keys.map (weight f (t.erase k))).sum = total f (t.erase k) := by
        apply ih hnodup
        intro k' v hrow hne
        rw [lookup_erase_ite] at hrow
        split at hrow
        · contradiction
        · rename_i hk'
          exact (List.mem_cons.mp (hcover k' v hrow hne)).resolve_left hk'
      have hsame : keys.map (weight f (t.erase k)) = keys.map (weight f t) := by
        apply List.map_congr_left
        intro k' hk'
        have hne : k' ≠ k := fun heq => hk (heq ▸ hk')
        unfold weight
        rw [lookup_erase_ite, if_neg hne]
      rw [List.map_cons, List.sum_cons, total_eq_weight_add f t k, ← hrest, hsame]

end

end Table

end DidHosting
