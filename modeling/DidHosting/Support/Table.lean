import Mathlib.Data.List.AList

/-!
# Keyed tables

A keyspace of a key-value store, seen through one kind of row: a finite table
with at most one value for each key.  Mathlib's `AList` supplies the
representation and the pointwise laws; this module adds the conditional form of
the lookup laws, which is the form simplification uses, and the two bulk
updates a write batch performs (point several keys at one value, remove several
keys).
-/

namespace DidHosting

/-- A finite table from keys to values. -/
abbrev Table (κ ν : Type) := AList fun _ : κ => ν

namespace Table

variable {κ ν : Type} [DecidableEq κ]

/-- The rows of a table in iteration order. -/
def rows (t : Table κ ν) : List (κ × ν) :=
  t.entries.map fun e => (e.1, e.2)

theorem mem_rows {t : Table κ ν} {k : κ} {v : ν} :
    (k, v) ∈ rows t ↔ t.lookup k = some v := by
  rw [← Option.mem_def, AList.mem_lookup_iff]
  constructor
  · intro h
    obtain ⟨e, he, heq⟩ := List.mem_map.mp h
    obtain ⟨rfl, rfl⟩ := Prod.mk.inj heq
    exact he
  · intro h
    exact List.mem_map.mpr ⟨⟨k, v⟩, h, rfl⟩

omit [DecidableEq κ] in
theorem keys_rows_nodup (t : Table κ ν) : ((rows t).map (·.1)).Nodup := by
  have hkeys : (rows t).map (·.1) = t.keys := by
    unfold rows
    rw [List.map_map]
    rfl
  rw [hkeys]
  exact t.nodupKeys

theorem lookup_insert_ite (t : Table κ ν) (k k' : κ) (v : ν) :
    (t.insert k v).lookup k' = if k' = k then some v else t.lookup k' := by
  by_cases h : k' = k
  · subst k'
    simp
  · rw [AList.lookup_insert_ne h, if_neg h]

theorem lookup_erase_ite (t : Table κ ν) (k k' : κ) :
    (t.erase k).lookup k' = if k' = k then none else t.lookup k' := by
  by_cases h : k' = k
  · subst k'
    simp
  · rw [AList.lookup_erase_ne h, if_neg h]

/-- What is found after an insert is the inserted row, or was there. -/
theorem lookup_insert_cases {t : Table κ ν} {k k' : κ} {v v' : ν}
    (h : (t.insert k v).lookup k' = some v') : k' = k ∧ v' = v ∨ t.lookup k' = some v' := by
  rw [lookup_insert_ite] at h
  by_cases hk : k' = k
  · rw [if_pos hk] at h
    exact Or.inl ⟨hk, (Option.some.inj h).symm⟩
  · rw [if_neg hk] at h
    exact Or.inr h

theorem lookup_of_erase {t : Table κ ν} {k k' : κ} {v : ν} (h : (t.erase k).lookup k' = some v) :
    t.lookup k' = some v := by
  rw [lookup_erase_ite] at h
  split at h
  · contradiction
  · exact h

theorem erase_eq_self {t : Table κ ν} {k : κ} (h : t.lookup k = none) : t.erase k = t := by
  apply AList.ext
  exact List.kerase_of_notMem_keys (AList.lookup_eq_none.mp h)

theorem erase_eq_self_iff {t : Table κ ν} {k : κ} :
    t.erase k = t ↔ (t.lookup k).isSome = false := by
  constructor
  · intro h
    rw [← h, AList.lookup_erase]
    rfl
  · intro h
    exact erase_eq_self (by simpa using h)

/-- A row under a new key is one more row. -/
theorem rows_insert_of_lookup {t : Table κ ν} {k : κ} (v : ν) (h : t.lookup k = none) :
    rows (t.insert k v) = (k, v) :: rows t := by
  have hnew : k ∉ t := AList.lookup_eq_none.mp h
  unfold rows
  rw [AList.entries_insert_of_notMem hnew]
  rfl

/-- The rows without one key, up to order. -/
theorem rows_perm_erase {t : Table κ ν} {k : κ} {v : ν} (h : t.lookup k = some v) :
    (rows t).Perm ((k, v) :: rows (t.erase k)) := by
  have hmem : k ∈ t.entries.keys :=
    AList.lookup_isSome.mp (Option.isSome_of_mem (Option.mem_def.mpr h))
  obtain ⟨v', front, back, -, hentries, herase⟩ := List.exists_of_kerase hmem
  have hv : v' = v := by
    have hrow : t.lookup k = some v' := by
      rw [← Option.mem_def, AList.mem_lookup_iff, hentries]
      exact List.mem_append_right _ List.mem_cons_self
    rw [h] at hrow
    exact (Option.some.inj hrow).symm
  subst hv
  have hrest : (t.erase k).entries = front ++ back := herase
  unfold rows
  rw [hentries, hrest, List.map_append, List.map_append]
  exact List.perm_middle

/-- The rows that satisfy `p`. -/
def retain (p : κ → ν → Bool) (t : Table κ ν) : Table κ ν :=
  ⟨t.entries.filter fun e => p e.1 e.2, t.nodupKeys.sublist List.filter_sublist⟩

theorem lookup_retain (p : κ → ν → Bool) (t : Table κ ν) (k : κ) :
    (retain p t).lookup k = (t.lookup k).filter (p k) := by
  apply Option.ext
  intro v
  rw [← Option.mem_def, AList.mem_lookup_iff, ← Option.mem_def, Option.mem_filter_iff,
    AList.mem_lookup_iff]
  exact List.mem_filter

/-- Point each of `keys` at `v`, in order. -/
def insertAll (keys : List κ) (v : ν) (t : Table κ ν) : Table κ ν :=
  keys.foldl (fun t k => t.insert k v) t

/-- Remove each of `keys`, in order. -/
def eraseAll (keys : List κ) (t : Table κ ν) : Table κ ν :=
  keys.foldl (fun t k => t.erase k) t

theorem lookup_insertAll (keys : List κ) (v : ν) (t : Table κ ν) (k : κ) :
    (insertAll keys v t).lookup k =
      if k ∈ keys then some v else t.lookup k := by
  induction keys generalizing t with
  | nil => simp [insertAll]
  | cons a keys ih =>
      have hstep : insertAll (a :: keys) v t = insertAll keys v (t.insert a v) :=
        rfl
      rw [hstep, ih, lookup_insert_ite]
      by_cases hk : k ∈ keys
      · simp [hk]
      · by_cases ha : k = a
        · simp [ha]
        · simp [hk, ha]

theorem lookup_eraseAll (keys : List κ) (t : Table κ ν) (k : κ) :
    (eraseAll keys t).lookup k =
      if k ∈ keys then none else t.lookup k := by
  induction keys generalizing t with
  | nil => simp [eraseAll]
  | cons a keys ih =>
      have hstep : eraseAll (a :: keys) t = eraseAll keys (t.erase a) := rfl
      rw [hstep, ih, lookup_erase_ite]
      by_cases hk : k ∈ keys
      · simp [hk]
      · by_cases ha : k = a
        · simp [ha]
        · simp [hk, ha]

end Table

end DidHosting
