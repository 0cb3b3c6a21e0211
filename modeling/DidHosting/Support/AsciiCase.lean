import DidHosting.Support.Text

/-!
# ASCII case

Two texts are spellings of one another when they differ in the case of ASCII letters.
Every text has a lower-case and an upper-case spelling, and they are different as soon
as it has a letter.
-/

namespace DidHosting.Text

/-! ## Characters -/

theorem toNat_lt_of_isAlpha {c : Char} (h : c.isAlpha = true) : c.toNat < 128 := by
  rw [isAlpha_iff, isUpper_iff, isLower_iff] at h
  omega

theorem case_of_isAlpha {c : Char} (h : c.isAlpha = true) :
    (c.toUpper.isUpper = true ∧ c.toUpper.toLower = c.toLower) ∧
      c.toLower.isAlpha = true ∧ c.toLower.toLower = c.toLower := by
  have hall : ∀ n < 128, (Char.ofNat n).isAlpha = true →
      ((Char.ofNat n).toUpper.isUpper = true ∧
        (Char.ofNat n).toUpper.toLower = (Char.ofNat n).toLower) ∧
          (Char.ofNat n).toLower.isAlpha = true ∧
            (Char.ofNat n).toLower.toLower = (Char.ofNat n).toLower := by
    decide
  have hc := hall c.toNat (toNat_lt_of_isAlpha h)
  rw [Char.ofNat_toNat] at hc
  exact hc h

theorem case_of_not_isAlpha {c : Char} (h : c.isAlpha = false) :
    c.toUpper = c ∧ c.toLower = c := by
  rw [← Bool.not_eq_true, isAlpha_iff, not_or] at h
  constructor
  · apply dif_neg
    intro hlower
    exact h.2 (Bool.and_eq_true_iff.mpr ⟨decide_eq_true hlower.1, decide_eq_true hlower.2⟩)
  · apply dif_neg
    intro hupper
    exact h.1 (decide_eq_true hupper)

theorem toLower_toUpper (c : Char) : c.toUpper.toLower = c.toLower := by
  cases h : c.isAlpha with
  | true => exact (case_of_isAlpha h).1.2
  | false => rw [(case_of_not_isAlpha h).1]

theorem toLower_toLower (c : Char) : c.toLower.toLower = c.toLower := by
  cases h : c.isAlpha with
  | true => exact (case_of_isAlpha h).2.2
  | false => rw [(case_of_not_isAlpha h).2, (case_of_not_isAlpha h).2]

theorem isUpper_toLower (c : Char) : c.toLower.isUpper = false := by
  cases h : c.isAlpha with
  | true =>
      have hall : ∀ n < 128, (Char.ofNat n).toLower.isUpper = false := by decide
      have hc := hall c.toNat (toNat_lt_of_isAlpha h)
      rwa [Char.ofNat_toNat] at hc
  | false =>
      rw [(case_of_not_isAlpha h).2]
      rw [← Bool.not_eq_true, isAlpha_iff, not_or] at h
      exact Bool.eq_false_iff.mpr h.1

theorem toLower_of_not_isUpper {c : Char} (h : c.isUpper = false) : c.toLower = c := by
  apply dif_neg
  intro hupper
  exact Bool.eq_false_iff.mp h (decide_eq_true hupper)

/-! ## Texts -/

def lowerCase (s : String) : String :=
  String.ofList (s.toList.map Char.toLower)

def upperCase (s : String) : String :=
  String.ofList (s.toList.map Char.toUpper)

theorem eqIgnoreAsciiCase_iff {a b : String} :
    eqIgnoreAsciiCase a b = true ↔ lowerCase a = lowerCase b := by
  unfold eqIgnoreAsciiCase lowerCase
  rw [beq_iff_eq, String.ofList_inj]

theorem lowerCase_lowerCase (s : String) : lowerCase (lowerCase s) = lowerCase s := by
  unfold lowerCase
  rw [String.toList_ofList, List.map_map]
  congr 1
  exact List.map_congr_left fun c _ => toLower_toLower c

theorem lowerCase_upperCase (s : String) : lowerCase (upperCase s) = lowerCase s := by
  unfold lowerCase upperCase
  rw [String.toList_ofList, List.map_map]
  congr 1
  exact List.map_congr_left fun c _ => toLower_toUpper c

/-- A text without upper-case letters is its own lower-case spelling. -/
theorem lowerCase_eq_self {s : String} (h : ∀ c ∈ s.toList, c.isUpper = false) :
    lowerCase s = s := by
  unfold lowerCase
  rw [List.map_congr_left fun c hc => toLower_of_not_isUpper (h c hc), List.map_id']
  exact String.ofList_toList

/-- A text with a letter has an upper-case letter in its upper-case spelling. -/
theorem exists_isUpper_upperCase {s : String} {c : Char} (hc : c ∈ s.toList)
    (halpha : c.isAlpha = true) : ∃ d ∈ (upperCase s).toList, d.isUpper = true := by
  refine ⟨c.toUpper, ?_, (case_of_isAlpha halpha).1.1⟩
  unfold upperCase
  rw [String.toList_ofList]
  exact List.mem_map_of_mem hc

/-- A text without letters has no other spelling. -/
theorem eq_of_lowerCase_eq {a b : String} (ha : ∀ c ∈ a.toList, c.isAlpha = false)
    (h : lowerCase a = lowerCase b) : a = b := by
  have hlist : a.toList.map Char.toLower = b.toList.map Char.toLower := by
    simpa [lowerCase, String.ofList_inj] using h
  have hself : a.toList.map Char.toLower = a.toList := by
    rw [List.map_congr_left fun c hc => (case_of_not_isAlpha (ha c hc)).2, List.map_id']
  have hb : ∀ c ∈ b.toList, c.toLower = c := by
    intro c hc
    by_contra hne
    have halpha : c.isAlpha = true := by
      by_contra hnot
      exact hne (case_of_not_isAlpha (Bool.eq_false_iff.mpr hnot)).2
    have hmem : c.toLower ∈ a.toList := by
      rw [← hself, hlist]
      exact List.mem_map_of_mem hc
    have hlower := (case_of_isAlpha halpha).2.1
    rw [ha _ hmem] at hlower
    cases hlower
  rw [hself, List.map_congr_left hb, List.map_id'] at hlist
  exact String.toList_inj.mp hlist

end DidHosting.Text
