import DidHosting.Support.Table

/-!
# Caches whose entries expire

A cache keeps each value with the time of its insertion and answers a lookup while the value
is younger than the time to live.  What is known of every entry is kept by the operations
that remove entries, and an insertion adds what is known of the new one.
-/

namespace DidHosting

/-- A value and the time of its insertion. -/
structure CacheEntry (ν : Type) where
  data : ν
  insertedAt : ℕ
deriving DecidableEq, Repr

/-- The entries of a cache and how long they live. -/
structure TtlCache (κ ν : Type) where
  entries : Table κ (CacheEntry ν)
  ttl : ℕ

namespace TtlCache

variable {κ ν : Type} [DecidableEq κ]

/-- A cache without entries. -/
def new (ttl : ℕ) : TtlCache κ ν :=
  ⟨∅, ttl⟩

/-- The value under a key, while it lives. -/
def get (c : TtlCache κ ν) (now : ℕ) (key : κ) : Option ν :=
  match c.entries.lookup key with
  | none => none
  | some entry => if now - entry.insertedAt < c.ttl then some entry.data else none

/-- Put a value under a key. -/
def insert (c : TtlCache κ ν) (now : ℕ) (key : κ) (data : ν) : TtlCache κ ν :=
  { c with entries := c.entries.insert key ⟨data, now⟩ }

/-- Remove the entry of a key. -/
def invalidate (c : TtlCache κ ν) (key : κ) : TtlCache κ ν :=
  { c with entries := c.entries.erase key }

/-- Remove every entry. -/
def clear (c : TtlCache κ ν) : TtlCache κ ν :=
  { c with entries := ∅ }

/-- Remove the entries that no longer live. -/
def evictExpired (c : TtlCache κ ν) (now : ℕ) : TtlCache κ ν :=
  { c with entries := Table.retain (fun _ entry => now - entry.insertedAt < c.ttl) c.entries }

/-- What is known of every entry. -/
def Holds (P : κ → ν → Prop) (c : TtlCache κ ν) : Prop :=
  ∀ key entry, c.entries.lookup key = some entry → P key entry.data

section

variable {P Q : κ → ν → Prop} {c : TtlCache κ ν} {now : ℕ} {key : κ} {data : ν}

/-- A value that a lookup finds is one of the entries. -/
theorem Holds.get (h : c.Holds P) (hget : c.get now key = some data) : P key data := by
  unfold TtlCache.get at hget
  cases hentry : c.entries.lookup key with
  | none =>
      rw [hentry] at hget
      contradiction
  | some entry =>
      rw [hentry] at hget
      simp only [Option.ite_none_right_eq_some, Option.some.injEq] at hget
      rw [← hget.2]
      exact h key entry hentry

theorem Holds.imp (h : c.Holds P) (himp : ∀ key data, P key data → Q key data) : c.Holds Q :=
  fun key entry hentry => himp key entry.data (h key entry hentry)

theorem holds_new (ttl : ℕ) : (new ttl : TtlCache κ ν).Holds P :=
  fun _ _ hentry => by contradiction

/-- Entries that are also entries of a cache of which `P` is known satisfy `P`. -/
theorem Holds.subset {c' : TtlCache κ ν} (h : c.Holds P)
    (hsub : ∀ key entry, c'.entries.lookup key = some entry →
      c.entries.lookup key = some entry) : c'.Holds P :=
  fun key entry hentry => h key entry (hsub key entry hentry)

theorem Holds.insert (h : c.Holds P) (hdata : P key data) : (c.insert now key data).Holds P := by
  intro key' entry hentry
  have hlookup := (Table.lookup_insert_ite c.entries key key' ⟨data, now⟩).symm.trans hentry
  by_cases hkey : key' = key
  · rw [if_pos hkey] at hlookup
    rw [hkey, ← Option.some.inj hlookup]
    exact hdata
  · rw [if_neg hkey] at hlookup
    exact h key' entry hlookup

theorem Holds.invalidate (h : c.Holds P) (key : κ) : (c.invalidate key).Holds P := by
  refine h.subset fun key' entry hentry => ?_
  have hlookup := (Table.lookup_erase_ite c.entries key key').symm.trans hentry
  by_cases hkey : key' = key
  · rw [if_pos hkey] at hlookup
    contradiction
  · rw [if_neg hkey] at hlookup
    exact hlookup

theorem get_invalidate (c : TtlCache κ ν) (now : ℕ) (key : κ) :
    (c.invalidate key).get now key = none := by
  have hlookup : (c.invalidate key).entries.lookup key = none :=
    (Table.lookup_erase_ite c.entries key key).trans (if_pos rfl)
  unfold TtlCache.get
  rw [hlookup]

/-- After an invalidation, what is known of the other entries is known of all. -/
theorem holds_invalidate (h : ∀ key' entry, key' ≠ key → c.entries.lookup key' = some entry →
    P key' entry.data) : (c.invalidate key).Holds P := by
  intro key' entry hentry
  have hlookup := (Table.lookup_erase_ite c.entries key key').symm.trans hentry
  by_cases hkey : key' = key
  · rw [if_pos hkey] at hlookup
    contradiction
  · rw [if_neg hkey] at hlookup
    exact h key' entry hkey hlookup

theorem holds_clear (c : TtlCache κ ν) : c.clear.Holds P :=
  fun _ _ hentry => by contradiction

theorem Holds.evictExpired (h : c.Holds P) (now : ℕ) : (c.evictExpired now).Holds P := by
  refine h.subset fun key entry hentry => ?_
  have hlookup := (Table.lookup_retain _ c.entries key).symm.trans hentry
  rw [Option.filter_eq_some_iff] at hlookup
  exact hlookup.1

end

end TtlCache

end DidHosting
