import Mathlib.Data.List.Infix
import Mathlib.Tactic.Common

/-!
# Replacing a pattern

Every occurrence of a pattern is replaced, from the left, and the search goes on
behind the occurrence.  An occurrence cannot reach over an element that the pattern
does not contain, so a text is replaced piece by piece between such elements.
-/

namespace DidHosting.Replace

variable {α : Type}

/-- A pattern that begins before an element it does not contain ends before it. -/
theorem isPrefix_of_append {pattern : List α} {c : α} {xs rest : List α} (hc : c ∉ pattern)
    (h : pattern <+: xs ++ c :: rest) : pattern <+: xs := by
  rcases List.prefix_or_prefix_of_prefix h (List.prefix_append xs (c :: rest)) with hle | hge
  · exact hle
  · obtain ⟨more, rfl⟩ := hge
    rw [List.prefix_append_right_inj] at h
    cases more with
    | nil => simp
    | cons d more =>
        obtain ⟨rfl, -⟩ := List.cons_prefix_cons.mp h
        exact absurd (List.mem_append_right xs List.mem_cons_self) hc

variable [DecidableEq α]

/-- The loop of `replace`; `skip` elements of an occurrence are still to be passed. -/
def replaceFrom (pattern new : List α) : ℕ → List α → List α
  | _, [] => []
  | skip + 1, _ :: rest => replaceFrom pattern new skip rest
  | 0, c :: rest =>
      if pattern.isPrefixOf (c :: rest) then
        new ++ replaceFrom pattern new (pattern.length - 1) rest
      else c :: replaceFrom pattern new 0 rest

/-- Every occurrence of `pattern` replaced by `new`. -/
def replace (pattern new xs : List α) : List α :=
  replaceFrom pattern new 0 xs

variable {pattern new : List α}

@[simp] theorem replace_nil : replace pattern new [] = [] := rfl

theorem replaceFrom_append (xs rest : List α) :
    replaceFrom pattern new xs.length (xs ++ rest) = replace pattern new rest := by
  induction xs with
  | nil => rfl
  | cons x xs ih => exact ih

theorem replace_append_self (hpattern : pattern ≠ []) (rest : List α) :
    replace pattern new (pattern ++ rest) = new ++ replace pattern new rest := by
  cases hp : pattern with
  | nil => exact absurd hp hpattern
  | cons c cs =>
      have hprefix : (c :: cs).isPrefixOf (c :: (cs ++ rest)) = true :=
        List.isPrefixOf_iff_prefix.mpr (List.prefix_append (c :: cs) rest)
      unfold replace
      rw [List.cons_append, replaceFrom, if_pos hprefix]
      exact congrArg (new ++ ·) (replaceFrom_append cs rest)

theorem replace_cons {c : α} {rest : List α} (h : ¬pattern <+: c :: rest) :
    replace pattern new (c :: rest) = c :: replace pattern new rest := by
  unfold replace
  rw [replaceFrom, if_neg fun hprefix => h (List.isPrefixOf_iff_prefix.mp hprefix)]

/-- A text is empty, begins with the pattern, or goes on behind its first element. -/
theorem replace_induction {P : List α → Prop} (hpattern : pattern ≠ []) (nil : P [])
    (found : ∀ rest, P rest → P (pattern ++ rest))
    (passed : ∀ c rest, ¬pattern <+: c :: rest → P rest → P (c :: rest)) (xs : List α) : P xs := by
  induction hn : xs.length using Nat.strong_induction_on generalizing xs with
  | _ n ih =>
      by_cases hprefix : pattern <+: xs
      · obtain ⟨rest, rfl⟩ := hprefix
        refine found rest (ih rest.length ?_ rest rfl)
        have hpos := List.length_pos_iff.mpr hpattern
        rw [← hn, List.length_append]
        omega
      · cases xs with
        | nil => exact nil
        | cons c rest =>
            refine passed c rest hprefix (ih rest.length ?_ rest rfl)
            rw [← hn, List.length_cons]
            omega

/-- A text without the pattern stays as it is. -/
theorem replace_of_not_infix {xs : List α} (h : ¬pattern <:+: xs) :
    replace pattern new xs = xs := by
  induction xs with
  | nil => rfl
  | cons c rest ih =>
      rw [List.infix_cons_iff, not_or] at h
      rw [replace_cons h.1, ih h.2]

/-- An element that the pattern does not contain separates two pieces. -/
theorem replace_append_sep {c : α} (hpattern : pattern ≠ []) (hc : c ∉ pattern)
    (xs rest : List α) :
    replace pattern new (xs ++ c :: rest) =
      replace pattern new xs ++ c :: replace pattern new rest := by
  induction xs using replace_induction hpattern with
  | nil =>
      have hnot : ¬pattern <+: c :: rest := by
        intro h
        exact hpattern (List.prefix_nil.mp (@isPrefix_of_append _ _ c [] rest hc h))
      rw [List.nil_append, replace_cons hnot, replace_nil, List.nil_append]
  | found xs ih =>
      rw [List.append_assoc, replace_append_self hpattern, ih, replace_append_self hpattern,
        List.append_assoc]
  | passed d xs hnot ih =>
      have hnot' : ¬pattern <+: d :: (xs ++ c :: rest) := fun h =>
        hnot (@isPrefix_of_append _ _ c (d :: xs) rest hc h)
      rw [List.cons_append, replace_cons hnot', ih, replace_cons hnot, List.cons_append]

/-- A stretch without the first element of the pattern stays as it is. -/
theorem replace_append_of_head {a : α} {as xs : List α} (hxs : a ∉ xs) (rest : List α) :
    replace (a :: as) new (xs ++ rest) = xs ++ replace (a :: as) new rest := by
  induction xs with
  | nil => rfl
  | cons c xs ih =>
      rw [List.mem_cons, not_or] at hxs
      have hnot : ¬a :: as <+: c :: (xs ++ rest) := fun h =>
        hxs.1 (List.cons_prefix_cons.mp h).1
      rw [List.cons_append, replace_cons hnot, ih hxs.2, List.cons_append]

/-- Where the pattern and what replaces it disagree somewhere, only a text without the
pattern stays as it is. -/
theorem not_infix_of_replace_eq {xs : List α} (hpattern : pattern ≠ [])
    (hclash : ¬pattern <+: new ∧ ¬new <+: pattern) (h : replace pattern new xs = xs) :
    ¬pattern <:+: xs := by
  induction xs using replace_induction hpattern with
  | nil => exact fun hinfix => hpattern (List.infix_nil.mp hinfix)
  | found rest ih =>
      rw [replace_append_self hpattern] at h
      have hboth : new <+: pattern ++ rest := by
        rw [← h]
        exact List.prefix_append new _
      rcases List.prefix_or_prefix_of_prefix hboth (List.prefix_append pattern rest) with hle | hle
      · exact absurd hle hclash.2
      · exact absurd hle hclash.1
  | passed c rest hnot ih =>
      rw [replace_cons hnot, List.cons.injEq] at h
      rw [List.infix_cons_iff, not_or]
      exact ⟨hnot, ih h.2⟩

end DidHosting.Replace
