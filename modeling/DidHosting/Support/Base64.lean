import Mathlib.Data.List.Infix
import Mathlib.Data.List.Nodup
import Mathlib.Data.Option.Basic

/-!
# base64url without padding

The encoding of a byte string as text, and what a comparison of texts says
about the bytes behind them.  Three bytes are four characters; a group of one
or two bytes at the end is padded with zero bits to two or three characters.

These zero bits are why a prefix of bytes is not a prefix of texts:
`sextets_isPrefix_iff` says exactly when it is.  A prefix that ends inside a
group commits the low bits of its last character, and only a next byte whose
high bits are zero agrees with them.
-/

namespace DidHosting.Base64

/-! ## Digits -/

/-- The characters of the alphabet, in the order of their values. -/
def alphabet : List Char :=
  "ABCDEFGHIJKLMNOPQRSTUVWXYZabcdefghijklmnopqrstuvwxyz0123456789-_".toList

/-- The character of a six-bit value. -/
def digit (n : ℕ) : Char :=
  alphabet.getD n '='

/-- The six-bit value of a character. -/
def value (c : Char) : Option ℕ :=
  if alphabet.contains c then some (alphabet.idxOf c) else none

theorem value_digit {n : ℕ} (h : n < 64) : value (digit n) = some n := by
  have hletters : alphabet = _ := String.toList_ofList
  have hnodup : (alphabet.map Char.toNat).Nodup := by
    rw [hletters]
    decide +kernel
  have hlen : alphabet.length = 64 := by
    rw [hletters]
    rfl
  have hbound : n < alphabet.length := hlen ▸ h
  rw [digit, List.getD_eq_getElem?_getD, List.getElem?_eq_getElem hbound,
    Option.getD_some, value, (List.Nodup.of_map _ hnodup).idxOf_getElem]
  exact if_pos (List.contains_iff_mem.mpr (List.getElem_mem hbound))

/-! ## Groups -/

/-- The six-bit values of a byte string. -/
def sextets : List UInt8 → List ℕ
  | [] => []
  | [a] => [a.toNat / 4, a.toNat % 4 * 16]
  | [a, b] => [a.toNat / 4, a.toNat % 4 * 16 + b.toNat / 16, b.toNat % 16 * 4]
  | a :: b :: c :: rest =>
    a.toNat / 4 :: (a.toNat % 4 * 16 + b.toNat / 16) :: (b.toNat % 16 * 4 + c.toNat / 64) ::
      c.toNat % 64 :: sextets rest

/-- The bytes of a string of six-bit values.  The decoder refuses a single
character over, and non-zero bits in the padding. -/
def octets : List ℕ → Option (List UInt8)
  | [] => some []
  | [_] => none
  | [w, x] => if x % 16 = 0 then some [.ofNat (w * 4 + x / 16)] else none
  | [w, x, y] =>
    if y % 4 = 0 then some [.ofNat (w * 4 + x / 16), .ofNat (x % 16 * 16 + y / 4)] else none
  | w :: x :: y :: z :: rest =>
    (octets rest).map fun bytes =>
      .ofNat (w * 4 + x / 16) :: .ofNat (x % 16 * 16 + y / 4) :: .ofNat (y % 4 * 64 + z) :: bytes

def encode (bytes : List UInt8) : List Char :=
  (sextets bytes).map digit

def decode (text : List Char) : Option (List UInt8) :=
  (text.mapM value).bind octets

theorem sextets_lt (bytes : List UInt8) : ∀ n ∈ sextets bytes, n < 64 := by
  fun_induction sextets bytes with
  | case1 => simp
  | case2 a =>
    have ha := a.toNat_lt
    simp only [List.mem_cons, List.not_mem_nil, or_false]
    omega
  | case3 a b =>
    have ha := a.toNat_lt
    have hb := b.toNat_lt
    simp only [List.mem_cons, List.not_mem_nil, or_false]
    omega
  | case4 a b c rest ih =>
    have ha := a.toNat_lt
    have hb := b.toNat_lt
    have hc := c.toNat_lt
    intro n hn
    simp only [List.mem_cons] at hn
    rcases hn with rfl | rfl | rfl | rfl | hn
    · omega
    · omega
    · omega
    · omega
    · exact ih n hn

private theorem ofNat_eq {b : UInt8} {n : ℕ} (h : n = b.toNat) : UInt8.ofNat n = b := by
  rw [h, UInt8.ofNat_toNat]

theorem octets_sextets (bytes : List UInt8) : octets (sextets bytes) = some bytes := by
  fun_induction sextets bytes with
  | case1 => rfl
  | case2 a =>
    have ha := a.toNat_lt
    have hpad : a.toNat % 4 * 16 % 16 = 0 := by omega
    have hbyte : UInt8.ofNat (a.toNat / 4 * 4 + a.toNat % 4 * 16 / 16) = a :=
      ofNat_eq (by omega)
    simp only [octets, if_pos hpad, hbyte]
  | case3 a b =>
    have ha := a.toNat_lt
    have hb := b.toNat_lt
    have hpad : b.toNat % 16 * 4 % 4 = 0 := by omega
    have hfirst : UInt8.ofNat
        (a.toNat / 4 * 4 + (a.toNat % 4 * 16 + b.toNat / 16) / 16) = a := ofNat_eq (by omega)
    have hsecond : UInt8.ofNat
        ((a.toNat % 4 * 16 + b.toNat / 16) % 16 * 16 + b.toNat % 16 * 4 / 4) = b :=
      ofNat_eq (by omega)
    simp only [octets, if_pos hpad, hfirst, hsecond]
  | case4 a b c rest ih =>
    have ha := a.toNat_lt
    have hb := b.toNat_lt
    have hc := c.toNat_lt
    have hfirst : UInt8.ofNat
        (a.toNat / 4 * 4 + (a.toNat % 4 * 16 + b.toNat / 16) / 16) = a := ofNat_eq (by omega)
    have hsecond : UInt8.ofNat ((a.toNat % 4 * 16 + b.toNat / 16) % 16 * 16 +
        (b.toNat % 16 * 4 + c.toNat / 64) / 4) = b := ofNat_eq (by omega)
    have hthird : UInt8.ofNat
        ((b.toNat % 16 * 4 + c.toNat / 64) % 4 * 64 + c.toNat % 64) = c := ofNat_eq (by omega)
    simp only [octets, ih, Option.map_some, hfirst, hsecond, hthird]

theorem decode_encode (bytes : List UInt8) : decode (encode bytes) = some bytes := by
  have hvalues : ∀ ns : List ℕ, (∀ n ∈ ns, n < 64) → (ns.map digit).mapM value = some ns := by
    intro ns
    induction ns with
    | nil =>
      intro _
      rfl
    | cons n ns ih =>
      intro hns
      have hn : n < 64 := hns n List.mem_cons_self
      have hrest := ih fun m hm => hns m (List.mem_cons_of_mem n hm)
      simp [List.mapM_cons, value_digit hn, hrest]
  rw [decode, encode, hvalues _ (sextets_lt bytes)]
  exact octets_sextets bytes

/-! ## Prefixes -/

/-- The next byte agrees with the zero bits a text ends in when its bytes end
inside a group. -/
def joins (length : ℕ) (next : UInt8) : Bool :=
  match length % 3 with
  | 0 => true
  | 1 => next.toNat < 16
  | _ => next.toNat < 64

/-- `key` is `stem`, or goes on with a byte that joins it. -/
def Continues (stem key : List UInt8) : Prop :=
  stem = key ∨ ∃ next rest, key = stem ++ next :: rest ∧ joins stem.length next = true

theorem continues_group {a b c a₁ b₁ c₁ : UInt8} {stem key : List UInt8} :
    Continues (a :: b :: c :: stem) (a₁ :: b₁ :: c₁ :: key) ↔
      (a = a₁ ∧ b = b₁ ∧ c = c₁) ∧ Continues stem key := by
  have hjoins : ∀ next, joins (stem.length + 1 + 1 + 1) next = joins stem.length next := by
    intro next
    have hmod : (stem.length + 1 + 1 + 1) % 3 = stem.length % 3 := by omega
    simp only [joins, hmod]
  constructor
  · rintro (h | ⟨next, rest, h, hnext⟩)
    · obtain ⟨rfl, rfl, rfl, rfl⟩ : a = a₁ ∧ b = b₁ ∧ c = c₁ ∧ stem = key := by
        simpa using h
      exact ⟨⟨rfl, rfl, rfl⟩, .inl rfl⟩
    · obtain ⟨rfl, rfl, rfl, rfl⟩ :
          a₁ = a ∧ b₁ = b ∧ c₁ = c ∧ key = stem ++ next :: rest := by
        simpa using h
      exact ⟨⟨rfl, rfl, rfl⟩, .inr ⟨next, rest, rfl, (hjoins next).symm.trans hnext⟩⟩
  · rintro ⟨⟨rfl, rfl, rfl⟩, rfl | ⟨next, rest, rfl, hnext⟩⟩
    · exact .inl rfl
    · exact .inr ⟨next, rest, rfl, (hjoins next).trans hnext⟩

theorem continues_one {a a₁ b₁ : UInt8} {key : List UInt8} :
    Continues [a] (a₁ :: b₁ :: key) ↔ a = a₁ ∧ b₁.toNat < 16 := by
  simp [Continues, joins, eq_comm]

theorem continues_two {a b a₁ b₁ c₁ : UInt8} {key : List UInt8} :
    Continues [a, b] (a₁ :: b₁ :: c₁ :: key) ↔ (a = a₁ ∧ b = b₁) ∧ c₁.toNat < 64 := by
  simp [Continues, joins, eq_comm, and_assoc]

private theorem byte_eq_iff {a b : UInt8} : a = b ↔ a.toNat = b.toNat :=
  UInt8.toNat_inj.symm

/-- The text of `key` continues the text of `stem`. -/
theorem sextets_isPrefix_iff (stem key : List UInt8) :
    sextets stem <+: sextets key ↔ Continues stem key := by
  fun_induction sextets stem generalizing key with
  | case1 =>
    simp only [List.nil_prefix, true_iff]
    cases key with
    | nil => exact .inl rfl
    | cons next rest => exact .inr ⟨next, rest, rfl, rfl⟩
  | case2 a =>
    have ha := a.toNat_lt
    fun_cases sextets key with
    | case1 => simp [Continues]
    | case2 a₁ =>
      have ha₁ := a₁.toNat_lt
      simp [Continues, List.cons_prefix_cons, byte_eq_iff]
      omega
    | case3 a₁ b₁ =>
      have ha₁ := a₁.toNat_lt
      have hb₁ := b₁.toNat_lt
      rw [continues_one, byte_eq_iff]
      simp only [List.cons_prefix_cons, List.nil_prefix, and_true]
      omega
    | case4 a₁ b₁ c₁ rest =>
      have ha₁ := a₁.toNat_lt
      have hb₁ := b₁.toNat_lt
      rw [continues_one, byte_eq_iff]
      simp only [List.cons_prefix_cons, List.nil_prefix, and_true]
      omega
  | case3 a b =>
    have ha := a.toNat_lt
    have hb := b.toNat_lt
    fun_cases sextets key with
    | case1 => simp [Continues]
    | case2 a₁ => simp [Continues, List.cons_prefix_cons]
    | case3 a₁ b₁ =>
      have ha₁ := a₁.toNat_lt
      have hb₁ := b₁.toNat_lt
      simp [Continues, List.cons_prefix_cons, byte_eq_iff]
      omega
    | case4 a₁ b₁ c₁ rest =>
      have ha₁ := a₁.toNat_lt
      have hb₁ := b₁.toNat_lt
      have hc₁ := c₁.toNat_lt
      rw [continues_two, byte_eq_iff, byte_eq_iff]
      simp only [List.cons_prefix_cons, List.nil_prefix, and_true]
      omega
  | case4 a b c rest ih =>
    have ha := a.toNat_lt
    have hb := b.toNat_lt
    have hc := c.toNat_lt
    fun_cases sextets key with
    | case1 => simp [Continues]
    | case2 a₁ => simp [Continues, List.cons_prefix_cons]
    | case3 a₁ b₁ => simp [Continues, List.cons_prefix_cons]
    | case4 a₁ b₁ c₁ more =>
      have ha₁ := a₁.toNat_lt
      have hb₁ := b₁.toNat_lt
      have hc₁ := c₁.toNat_lt
      rw [continues_group, ← ih more]
      simp only [List.cons_prefix_cons, byte_eq_iff]
      constructor
      · rintro ⟨h₁, h₂, h₃, h₄, hrest⟩
        exact ⟨by omega, hrest⟩
      · rintro ⟨⟨h₁, h₂, h₃⟩, hrest⟩
        exact ⟨by omega, by omega, by omega, by omega, hrest⟩

/-- One text starts with another exactly when the bytes continue each other. -/
theorem encode_isPrefix_iff (stem key : List UInt8) :
    encode stem <+: encode key ↔ Continues stem key := by
  rw [← sextets_isPrefix_iff]
  constructor
  · intro h
    have hmap := h.map value
    have hvalues : ∀ bytes, (encode bytes).map value = (sextets bytes).map some := by
      intro bytes
      rw [encode, List.map_map]
      exact List.map_congr_left fun n hn => value_digit (sextets_lt bytes n hn)
    rw [hvalues, hvalues] at hmap
    exact (List.prefix_map_iff_of_injective (Option.some_injective ℕ)).mp hmap
  · intro h
    exact h.map digit

/-- Whole groups of three bytes are a prefix of the text whenever they are a
prefix of the bytes. -/
theorem continues_of_isPrefix {stem key : List UInt8} (hgroups : stem.length % 3 = 0)
    (h : stem <+: key) : Continues stem key := by
  obtain ⟨rest, rfl⟩ := h
  cases rest with
  | nil =>
    left
    simp
  | cons next rest =>
    right
    refine ⟨next, rest, rfl, ?_⟩
    simp [joins, hgroups]

end DidHosting.Base64
