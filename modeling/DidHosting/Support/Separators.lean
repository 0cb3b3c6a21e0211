import DidHosting.Support.Text
import Mathlib.Data.List.Infix

/-!
# Separators

What replacing one character of a text by another keeps, and when the end of a text behind a
separator is determined by how many separators it has.
-/

namespace DidHosting.Text

theorem toList_replaceChar (c d : Char) (s : String) :
    (replaceChar c (String.singleton d) s).toList =
      s.toList.map fun x => if x = c then d else x := by
  unfold replaceChar
  rw [String.toList_ofList]
  induction s.toList with
  | nil => rfl
  | cons x xs ih =>
      rw [List.flatMap_cons, ih, List.map_cons]
      split <;> simp

theorem replaceChar_replaceChar {c d : Char} {s : String} (hd : d ∉ s.toList) :
    replaceChar d (String.singleton c) (replaceChar c (String.singleton d) s) = s := by
  apply String.toList_injective
  rw [toList_replaceChar, toList_replaceChar, List.map_map]
  conv => rhs; rw [← List.map_id s.toList]
  apply List.map_congr_left
  intro x hx
  have hne : x ≠ d := fun h => hd (h ▸ hx)
  by_cases hc : x = c
  · simp [hc]
  · simp [hc, hne]

theorem not_mem_replaceChar {c d : Char} {s : String} (hne : c ≠ d) :
    c ∉ (replaceChar c (String.singleton d) s).toList := by
  rw [toList_replaceChar]
  intro hmem
  obtain ⟨x, -, hx⟩ := List.mem_map.mp hmem
  split at hx
  · exact hne hx.symm
  · rename_i hxc
    exact hxc hx

/-- Each character replaced counts as one of the new ones. -/
theorem count_replaceChar {c d : Char} {s : String} (hd : d ∉ s.toList) :
    (replaceChar c (String.singleton d) s).toList.count d = s.toList.count c := by
  rw [toList_replaceChar]
  have hmap : ∀ l : List Char, d ∉ l →
      (l.map fun x => if x = c then d else x).count d = l.count c := by
    intro l
    induction l with
    | nil => exact fun _ => rfl
    | cons x xs ih =>
        intro hmem
        obtain ⟨hx, hxs⟩ := not_or.mp (mt List.mem_cons.mpr hmem)
        rw [List.map_cons, List.count_cons, List.count_cons, ih hxs]
        by_cases hc : x = c
        · simp [hc]
        · simp [hc, Ne.symm hx]
  exact hmap s.toList hd

theorem enclosed_inj {a b s t : String} (h : a ++ s ++ b = a ++ t ++ b) : s = t := by
  have hlist := congrArg String.toList h
  simp only [String.toList_append, List.append_cancel_right_eq,
    List.append_cancel_left_eq] at hlist
  exact String.toList_injective hlist

/-- Two ends of a text that begin behind a separator and have as many separators are the
same. -/
theorem suffix_eq_of_count {α : Type} [DecidableEq α] {c : α} {a b a' b' : List α}
    (h : a ++ c :: b = a' ++ c :: b') (hcount : b.count c = b'.count c) : b = b' := by
  have hlonger : ∀ {a b a' b' : List α}, a ++ c :: b = a' ++ c :: b' →
      a.length < a'.length → b'.count c < b.count c := by
    intro a b a' b' h hlt
    obtain ⟨mid, rfl⟩ : ∃ mid, a' = a ++ c :: mid := by
      rcases List.append_eq_append_iff.mp h with ⟨mid, ha', hb⟩ | ⟨mid, ha, hb⟩
      · cases mid with
        | nil =>
            rw [ha', List.append_nil] at hlt
            exact absurd hlt (lt_irrefl _)
        | cons x mid =>
            rw [List.cons_append, List.cons.injEq] at hb
            exact ⟨mid, by rw [ha', hb.1]⟩
      · rw [ha, List.length_append] at hlt
        omega
    rw [List.append_assoc, List.append_cancel_left_eq, List.cons_append, List.cons.injEq] at h
    rw [h.2, List.count_append, List.count_cons_self]
    omega
  rcases Nat.lt_trichotomy a.length a'.length with hlt | heq | hlt
  · exact absurd hcount (hlonger h hlt).ne'
  · exact (List.cons.inj (List.append_inj_right h heq)).2
  · exact absurd hcount (hlonger h.symm hlt).ne

end DidHosting.Text
