import DidHosting.Support.Table
import Mathlib.Data.List.Sort

/-!
# Ordered scans

A key-value store returns the rows of a range of keys in key order.  The range is
given by a predicate on keys.  A scan is determined by the rows it ranges over:
two tables that agree on the range have the same scan.
-/

namespace DidHosting

/-! ## Sorting by a key -/

section Key

variable {α κ : Type} [LinearOrder κ] (key : α → κ) (l : List α)

theorem pairwise_sort_key :
    (l.insertionSort fun a b => key a ≤ key b).Pairwise fun a b => key a ≤ key b := by
  have htrans : IsTrans α fun a b => key a ≤ key b := ⟨fun _ _ _ => le_trans⟩
  have htotal : Std.Total fun a b : α => key a ≤ key b := ⟨fun a b => le_total (key a) (key b)⟩
  exact List.pairwise_insertionSort (fun a b : α => key a ≤ key b) l

/-- Items with different keys are strictly ordered. -/
theorem pairwise_sort_key_lt (hnodup : (l.map key).Nodup) :
    (l.insertionSort fun a b => key a ≤ key b).Pairwise fun a b => key a < key b := by
  have hperm : (l.insertionSort fun a b => key a ≤ key b).Perm l := List.perm_insertionSort _ _
  have hne : (l.insertionSort fun a b => key a ≤ key b).Pairwise fun a b => key a ≠ key b :=
    List.pairwise_map.mp ((hperm.map key).nodup_iff.mpr hnodup)
  exact (pairwise_sort_key key l).imp₂ (fun a b hab hne => lt_of_le_of_ne hab hne) hne

end Key

/-! ## Scans -/

namespace Table

variable {κ ν : Type} [LinearOrder κ]

/-- The rows whose key is in the range `p`, in key order. -/
def scan (p : κ → Bool) (t : Table κ ν) : List (κ × ν) :=
  ((rows t).filter fun row => p row.1).insertionSort fun a b => a.1 ≤ b.1

variable {p : κ → Bool} {t t' : Table κ ν} {k : κ} {v : ν}

theorem mem_scan : (k, v) ∈ scan p t ↔ t.lookup k = some v ∧ p k = true := by
  rw [scan, List.mem_insertionSort, List.mem_filter, mem_rows]

theorem pairwise_scan (p : κ → Bool) (t : Table κ ν) :
    (scan p t).Pairwise fun a b => a.1 < b.1 := by
  refine pairwise_sort_key_lt Prod.fst _ ?_
  exact ((List.filter_sublist (l := rows t)).map Prod.fst).nodup (keys_rows_nodup t)

/-- A strictly ordered list of the rows of the range is the scan. -/
theorem scan_eq_of_mem_iff {l : List (κ × ν)} (hl : l.Pairwise fun a b => a.1 < b.1)
    (hmem : ∀ k v, (k, v) ∈ l ↔ t.lookup k = some v ∧ p k = true) : scan p t = l := by
  have hirrefl : Std.Irrefl fun a b : κ × ν => a.1 < b.1 := ⟨fun a => lt_irrefl a.1⟩
  have hantisymm : Std.Antisymm fun a b : κ × ν => a.1 < b.1 :=
    ⟨fun a b hab hba => absurd hab hba.asymm⟩
  refine List.Pairwise.eq_of_mem_iff (pairwise_scan p t) hl ?_
  rintro ⟨k, v⟩
  rw [mem_scan, hmem]

theorem scan_congr (h : ∀ k, p k = true → t.lookup k = t'.lookup k) : scan p t = scan p t' := by
  refine scan_eq_of_mem_iff (pairwise_scan p t') ?_
  intro k v
  rw [mem_scan]
  constructor
  · rintro ⟨hv, hp⟩
    exact ⟨(h k hp).trans hv, hp⟩
  · rintro ⟨hv, hp⟩
    exact ⟨(h k hp).symm.trans hv, hp⟩

/-- Ranges that agree on the rows of the table have the same scan. -/
theorem scan_congr_range {q : κ → Bool} (h : ∀ k v, t.lookup k = some v → p k = q k) :
    scan p t = scan q t := by
  refine scan_eq_of_mem_iff (pairwise_scan q t) ?_
  intro k v
  rw [mem_scan]
  constructor
  · rintro ⟨hv, hq⟩
    exact ⟨hv, (h k v hv).trans hq⟩
  · rintro ⟨hv, hp⟩
    exact ⟨hv, (h k v hv).symm.trans hp⟩

theorem scan_erase (p : κ → Bool) (t : Table κ ν) (k : κ) :
    scan p (t.erase k) = (scan p t).filter fun row => row.1 ≠ k := by
  refine scan_eq_of_mem_iff ((pairwise_scan p t).filter _) ?_
  intro k' v
  rw [List.mem_filter, mem_scan, lookup_erase_ite]
  by_cases hk : k' = k <;> simp [hk]

theorem scan_erase_head {row : κ × ν} {rest : List (κ × ν)} (h : scan p t = row :: rest) :
    scan p (t.erase row.1) = rest := by
  have hsorted := pairwise_scan p t
  rw [h] at hsorted
  rw [scan_erase, h, List.filter_cons_of_neg (by simp)]
  apply List.filter_eq_self.mpr
  intro row' hrow'
  have hlt := (List.pairwise_cons.mp hsorted).1 row' hrow'
  simpa using hlt.ne'

/-- The scan without the first row that satisfies `q`. -/
theorem scan_erase_of_find {q : κ × ν → Bool} {row : κ × ν}
    (h : (scan p t).find? q = some row) :
    scan p (t.erase row.1) = (scan p t).eraseP q := by
  have hsorted := pairwise_scan p t
  rw [scan_erase]
  generalize scan p t = l at h hsorted
  induction l with
  | nil => cases h
  | cons first rest ih =>
      obtain ⟨hfirst, hrest⟩ := List.pairwise_cons.mp hsorted
      by_cases hq : q first = true
      · rw [List.find?_cons_of_pos hq] at h
        cases h
        rw [List.eraseP_cons_of_pos hq, List.filter_cons_of_neg (by simp)]
        apply List.filter_eq_self.mpr
        intro row' hrow'
        simpa using (hfirst row' hrow').ne'
      · rw [List.find?_cons_of_neg hq] at h
        have hne : first.1 ≠ row.1 := (hfirst row (List.mem_of_find?_eq_some h)).ne
        rw [List.eraseP_cons_of_neg hq, List.filter_cons_of_pos (by simpa using hne), ih h hrest]

/-- A new value for the first row. -/
theorem scan_insert_head {rest : List (κ × ν)} (h : scan p t = (k, v) :: rest) (v' : ν) :
    scan p (t.insert k v') = (k, v') :: rest := by
  have hsorted := pairwise_scan p t
  rw [h] at hsorted
  obtain ⟨hhead, htail⟩ := List.pairwise_cons.mp hsorted
  have hk : p k = true := (mem_scan.mp (h ▸ List.mem_cons_self)).2
  refine scan_eq_of_mem_iff (List.pairwise_cons.mpr ⟨hhead, htail⟩) ?_
  intro k' w
  rw [lookup_insert_ite, List.mem_cons]
  by_cases hkk : k' = k
  · subst hkk
    have hnot : (k', w) ∉ rest := fun hmem => lt_irrefl k' (hhead (k', w) hmem)
    simp [hnot, hk, eq_comm]
  · rw [if_neg hkk, ← mem_scan, h, List.mem_cons]
    simp [hkk]

theorem scan_insert_last (hk : p k = true) (hlast : ∀ row ∈ scan p t, row.1 < k) (v : ν) :
    scan p (t.insert k v) = scan p t ++ [(k, v)] := by
  refine scan_eq_of_mem_iff ?_ ?_
  · rw [List.pairwise_append]
    refine ⟨pairwise_scan p t, List.pairwise_singleton _ _, ?_⟩
    intro a ha b hb
    rw [List.mem_singleton.mp hb]
    exact hlast a ha
  · intro k' w
    rw [lookup_insert_ite, List.mem_append, List.mem_singleton]
    by_cases hkk : k' = k
    · subst hkk
      have hnot : (k', w) ∉ scan p t := fun hmem => lt_irrefl _ (hlast _ hmem)
      simp [hnot, hk, eq_comm]
    · rw [if_neg hkk, mem_scan]
      simp [hkk]

end Table

end DidHosting
