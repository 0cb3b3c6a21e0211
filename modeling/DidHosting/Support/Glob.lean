import Mathlib.Data.List.Infix

/-!
# Glob patterns over bytes

The pattern language of a key scan: `?` matches any byte, `*` any run of
bytes, `[...]` one byte of a set (`[^...]` one outside it), and a backslash
takes the next byte as itself.  A class that is never closed ends with the
pattern.

A caller that wants the keys with a given prefix writes the prefix and a `*`.
`scan_exact_iff` says for which prefixes that pattern asks for those keys: the
ones without a byte that means something to the matcher.  The proof counts.  A
pattern has at most as many tokens as bytes, a match need not be longer than
the tokens that are not `*`, and a pattern that matches arbitrarily long keys
has a `*`; so an exact pattern has exactly one `*`, and each of its bytes is a
token of its own.
-/

namespace DidHosting.Glob

/-! ## Patterns -/

abbrev Byte := UInt8

def star : Byte := 42
def question : Byte := 63
def opening : Byte := 91
def closing : Byte := 93
def caret : Byte := 94
def hyphen : Byte := 45
def backslash : Byte := 92

inductive Token where
  | byte (b : Byte)
  | any
  | star
  /-- One byte of the ranges, or one outside them. -/
  | oneOf (negated : Bool) (ranges : List (Byte × Byte))
deriving DecidableEq, Repr

mutual

/-- Read a pattern. -/
def tokens : List Byte → List Token
  | [] => []
  | b :: rest =>
    if b = star then .star :: tokens rest
    else if b = question then .any :: tokens rest
    else if b = opening then
      match rest with
      | [] => [.oneOf false []]
      | c :: more => if c = caret then members true [] more else members false [] (c :: more)
    else if b = backslash then
      match rest with
      | [] => [.byte b]
      | c :: more => .byte c :: tokens more
    else .byte b :: tokens rest

/-- Read a class, up to its bracket or the end of the pattern. -/
def members (negated : Bool) (ranges : List (Byte × Byte)) : List Byte → List Token
  | [] => [.oneOf negated ranges]
  | b :: rest =>
    if b = backslash then
      match rest with
      | [] => [.oneOf negated (ranges ++ [(b, b)])]
      | c :: more => members negated (ranges ++ [(c, c)]) more
    else if b = closing then .oneOf negated ranges :: tokens rest
    else
      match rest with
      | [] => [.oneOf negated (ranges ++ [(b, b)])]
      | [c] => members negated (ranges ++ [(b, b)]) [c]
      | c :: d :: more =>
        if c = hyphen then members negated (ranges ++ [(b, d)]) more
        else members negated (ranges ++ [(b, b)]) (c :: d :: more)

end

/-- The token matches this byte. -/
def Token.accepts : Token → Byte → Bool
  | .byte b, c => c = b
  | .any, _ => true
  | .star, _ => false
  | .oneOf negated ranges, c =>
    (ranges.any fun range => min range.1 range.2 ≤ c && c ≤ max range.1 range.2) != negated

/-- The pattern matches the whole key. -/
def covers : List Token → List Byte → Bool
  | [], key => key.isEmpty
  | .star :: rest, key => key.tails.any fun tail => covers rest tail
  | _ :: _, [] => false
  | token :: rest, b :: key => token.accepts b && covers rest key

/-! ## Reading -/

theorem tokens_cons (b : Byte) (rest : List Byte) :
    tokens (b :: rest) =
      if b = star then .star :: tokens rest
      else if b = question then .any :: tokens rest
      else if b = opening then
        match rest with
        | [] => [.oneOf false []]
        | c :: more => if c = caret then members true [] more else members false [] (c :: more)
      else if b = backslash then
        match rest with
        | [] => [.byte b]
        | c :: more => .byte c :: tokens more
      else .byte b :: tokens rest := by
  rw [tokens.eq_def]

theorem tokens_star (rest : List Byte) : tokens (star :: rest) = .star :: tokens rest :=
  tokens_cons star rest

theorem tokens_question (rest : List Byte) : tokens (question :: rest) = .any :: tokens rest :=
  tokens_cons question rest

theorem tokens_negated (rest : List Byte) :
    tokens (opening :: caret :: rest) = members true [] rest :=
  tokens_cons opening (caret :: rest)

theorem tokens_class {c : Byte} (rest : List Byte) (h : ¬c = caret) :
    tokens (opening :: c :: rest) = members false [] (c :: rest) :=
  (tokens_cons opening (c :: rest)).trans (if_neg h)

theorem tokens_escape (c : Byte) (rest : List Byte) :
    tokens (backslash :: c :: rest) = .byte c :: tokens rest :=
  tokens_cons backslash (c :: rest)

theorem tokens_byte {b : Byte} (rest : List Byte) (hstar : ¬b = star) (hquestion : ¬b = question)
    (hopening : ¬b = opening) (hbackslash : ¬b = backslash) :
    tokens (b :: rest) = .byte b :: tokens rest := by
  simp only [tokens_cons, if_neg hstar, if_neg hquestion, if_neg hopening, if_neg hbackslash]

/-- Every byte but the last is a token of its own. -/
def solo : List Byte → Bool
  | [] => true
  | [_] => true
  | b :: c :: rest => b ≠ opening && b ≠ backslash && solo (c :: rest)

/-- The token of a byte that stands alone. -/
def single (b : Byte) : Token :=
  if b = star then .star
  else if b = question then .any
  else if b = opening then .oneOf false []
  else .byte b

theorem tokens_of_solo (pattern : List Byte) (h : solo pattern = true) :
    tokens pattern = pattern.map single := by
  induction pattern with
  | nil => rfl
  | cons b rest ih =>
    cases rest with
    | nil =>
      have hnil : tokens [] = [] := rfl
      simp only [tokens_cons, single, List.map_cons, List.map_nil, hnil]
      split_ifs <;> rfl
    | cons c more =>
      simp only [solo, Bool.and_eq_true, decide_eq_true_eq] at h
      obtain ⟨⟨hopening, hbackslash⟩, hrest⟩ := h
      rw [List.map_cons, ← ih hrest, tokens_cons]
      simp only [single, if_neg hopening, if_neg hbackslash]
      split_ifs <;> rfl

/-- A pattern has at most as many tokens as bytes, and fewer when a byte of it
belongs to a class or to an escape. -/
theorem length_tokens (pattern : List Byte) :
    (tokens pattern).length ≤ pattern.length ∧
      ((tokens pattern).length = pattern.length → solo pattern = true) := by
  have hcons : ∀ (b : Byte) (more : List Byte), ¬b = opening → ¬b = backslash →
      ((tokens more).length ≤ more.length ∧
        ((tokens more).length = more.length → solo more = true)) →
      (tokens more).length + 1 ≤ more.length + 1 ∧
        ((tokens more).length + 1 = more.length + 1 → solo (b :: more) = true) := by
    intro b more hopening hbackslash ih
    refine ⟨by omega, fun hlength => ?_⟩
    have hrest : solo more = true := ih.2 (by omega)
    cases more with
    | nil => rfl
    | cons c rest => simp [solo, hopening, hbackslash, hrest]
  refine (tokens.mutual_induct
    (fun q => (tokens q).length ≤ q.length ∧
      ((tokens q).length = q.length → solo q = true))
    (fun negated ranges q => (members negated ranges q).length ≤ max 1 q.length)
    ?_ ?_ ?_ ?_ ?_ ?_ ?_ ?_ ?_ ?_ ?_ ?_ ?_ ?_ ?_ ?_ ?_).1 pattern
  · exact ⟨Nat.le_refl 0, fun _ => rfl⟩
  · intro more ih
    rw [tokens_star]
    exact hcons star more (by decide) (by decide) ih
  · intro more _ ih
    rw [tokens_question]
    exact hcons question more (by decide) (by decide) ih
  · intro _ _
    exact ⟨Nat.le_refl 1, fun _ => rfl⟩
  · -- the class takes at least one more byte
    intro more _ _ ih
    rw [tokens_negated]
    simp only [List.length_cons]
    exact ⟨by omega, by omega⟩
  · intro c more hcaret _ _ ih
    rw [tokens_class more hcaret]
    simp only [List.length_cons] at ih ⊢
    exact ⟨by omega, by omega⟩
  · intro _ _ _
    exact ⟨Nat.le_refl 1, fun _ => rfl⟩
  · intro c more _ _ _ ih
    rw [tokens_escape]
    simp only [List.length_cons]
    exact ⟨by omega, by omega⟩
  · intro b more hstar hquestion hopening hbackslash ih
    rw [tokens_byte more hstar hquestion hopening hbackslash]
    exact hcons b more hopening hbackslash ih
  · intro negated ranges
    exact Nat.le_refl 1
  · intro negated ranges
    exact Nat.le_refl 1
  · intro negated ranges c more ih
    rw [members.eq_def]
    simp only [if_true, List.length_cons]
    omega
  · intro negated ranges more hbackslash ih
    rw [members.eq_def]
    simp only [if_neg hbackslash, if_true, List.length_cons]
    omega
  · intro negated ranges c hbackslash hclosing
    rw [members.eq_def]
    simp only [if_neg hbackslash, if_neg hclosing, List.length_cons]
    omega
  · intro negated ranges c hbackslash hclosing d ih
    rw [members.eq_def]
    simp only [if_neg hbackslash, if_neg hclosing, List.length_cons, List.length_nil] at ih ⊢
    omega
  · intro negated ranges c hbackslash hclosing d more ih
    rw [members.eq_def]
    simp only [if_neg hbackslash, if_neg hclosing, if_true, List.length_cons]
    omega
  · intro negated ranges c hbackslash hclosing d e more hhyphen ih
    rw [members.eq_def]
    simp only [if_neg hbackslash, if_neg hclosing, if_neg hhyphen, List.length_cons] at ih ⊢
    omega

/-! ## Matching -/

/-- The tokens that match exactly one byte. -/
def width (pattern : List Token) : ℕ :=
  (pattern.filter (· ≠ .star)).length

theorem covers_star {rest : List Token} {key : List Byte} :
    covers (.star :: rest) key = true ↔ ∃ tail, tail <:+ key ∧ covers rest tail = true := by
  simp [covers, List.any_eq_true, List.mem_tails]

theorem covers_cons {token : Token} {rest : List Token} {b : Byte} {key : List Byte}
    (h : token ≠ .star) :
    covers (token :: rest) (b :: key) = (token.accepts b && covers rest key) := by
  cases token with
  | star => exact absurd rfl h
  | byte | any | oneOf => rfl

theorem covers_nil {token : Token} {rest : List Token} (h : token ≠ .star) :
    covers (token :: rest) [] = false := by
  cases token with
  | star => exact absurd rfl h
  | byte | any | oneOf => rfl

/-- A match need not be longer than the tokens that take a byte. -/
theorem exists_short_match (pattern : List Token) (key : List Byte)
    (h : covers pattern key = true) :
    ∃ short, covers pattern short = true ∧ short.length ≤ width pattern := by
  induction pattern generalizing key with
  | nil => exact ⟨[], rfl, by simp⟩
  | cons token rest ih =>
    by_cases hstar : token = .star
    · subst hstar
      obtain ⟨tail, -, htail⟩ := covers_star.mp h
      obtain ⟨short, hshort, hlength⟩ := ih tail htail
      refine ⟨short, covers_star.mpr ⟨short, List.suffix_refl short, hshort⟩, ?_⟩
      simpa [width] using hlength
    · cases key with
      | nil => simp [covers_nil hstar] at h
      | cons b key =>
        rw [covers_cons hstar, Bool.and_eq_true] at h
        obtain ⟨short, hshort, hlength⟩ := ih key h.2
        refine ⟨b :: short, by simp [covers_cons hstar, h.1, hshort], ?_⟩
        simpa [width, hstar] using hlength

theorem length_of_covers {pattern : List Token} {key : List Byte} (hstar : .star ∉ pattern)
    (h : covers pattern key = true) : key.length = pattern.length := by
  induction pattern generalizing key with
  | nil => simpa [covers] using h
  | cons token rest ih =>
    have hne : token ≠ .star := fun heq => hstar (heq ▸ List.mem_cons_self)
    cases key with
    | nil => simp [covers_nil hne] at h
    | cons b key =>
      rw [covers_cons hne, Bool.and_eq_true] at h
      have hrest := ih (fun hmem => hstar (List.mem_cons_of_mem token hmem)) h.2
      simp [hrest]

/-- Literal bytes and a `*` match the keys that start with them. -/
theorem covers_prefix (stem key : List Byte) :
    covers (stem.map .byte ++ [.star]) key = stem.isPrefixOf key := by
  induction stem generalizing key with
  | nil =>
    have hall : covers [.star] key = true :=
      covers_star.mpr ⟨[], List.nil_suffix, rfl⟩
    simp [hall]
  | cons b stem ih =>
    cases key with
    | nil => simp [covers]
    | cons c key => simp [covers, Token.accepts, ih, List.isPrefixOf, Bool.beq_eq_decide_eq, eq_comm]

/-! ## Prefix patterns -/

/-- A byte with a meaning of its own in a pattern. -/
def special (b : Byte) : Bool :=
  b = star || b = question || b = opening || b = backslash

theorem not_special_iff {b : Byte} :
    special b = false ↔ (¬b = star ∧ ¬b = question) ∧ ¬b = opening ∧ ¬b = backslash := by
  simp [special, and_assoc]

/-- The pattern of a prefix scan. -/
def scanPattern (stem : List Byte) : List Token :=
  tokens (stem ++ [star])

/-- Bytes without a meaning of their own are read as themselves. -/
theorem tokens_literal {stem : List Byte} (pattern : List Byte)
    (h : ∀ b ∈ stem, special b = false) :
    tokens (stem ++ pattern) = stem.map .byte ++ tokens pattern := by
  induction stem with
  | nil => rfl
  | cons b stem ih =>
    obtain ⟨⟨hstar, hquestion⟩, hopening, hbackslash⟩ :=
      not_special_iff.mp (h b List.mem_cons_self)
    have hrest := ih fun c hc => h c (List.mem_cons_of_mem b hc)
    rw [List.cons_append, tokens_byte _ hstar hquestion hopening hbackslash, hrest]
    rfl

theorem covers_literal (stem : List Byte) (pattern : List Token) (key : List Byte) :
    covers (stem.map .byte ++ pattern) (stem ++ key) = covers pattern key := by
  induction stem with
  | nil => rfl
  | cons b stem ih => simpa [covers, Token.accepts] using ih

/-- What a pattern with a literal beginning matches starts with it. -/
theorem isPrefix_of_covers {stem key : List Byte} {pattern : List Token}
    (h : covers (stem.map .byte ++ pattern) key = true) : stem <+: key := by
  induction stem generalizing key with
  | nil => exact List.nil_prefix
  | cons b stem ih =>
    cases key with
    | nil => simp [covers] at h
    | cons c key =>
      simp only [List.map_cons, List.cons_append, covers, Token.accepts, Bool.and_eq_true,
        decide_eq_true_eq] at h
      rw [h.1]
      exact List.cons_prefix_cons.mpr ⟨rfl, ih h.2⟩

/-- The bytes of a prefix with another byte in place of each `?`. -/
def masked (stem : List Byte) : List Byte :=
  stem.map fun b => if b = question then 0 else b

theorem covers_masked {stem : List Byte} (pattern : List Token)
    (h : ∀ b ∈ stem, ¬b = star ∧ ¬b = opening) :
    covers (stem.map single ++ pattern) (masked stem) = covers pattern [] := by
  induction stem with
  | nil => rfl
  | cons b stem ih =>
    obtain ⟨hstar, hopening⟩ := h b List.mem_cons_self
    have hrest := ih fun c hc => h c (List.mem_cons_of_mem b hc)
    simp only [List.map_cons, List.cons_append, masked] at hrest ⊢
    by_cases hquestion : b = question
    · simp only [single, if_neg hstar, if_pos hquestion, covers, Token.accepts, Bool.true_and]
      exact hrest
    · simp only [single, if_neg hstar, if_neg hquestion, if_neg hopening, covers, Token.accepts,
        decide_true, Bool.true_and]
      exact hrest

/-- Bytes that stand alone in front of the `*` of a scan open no class and
escape nothing. -/
theorem not_mem_of_solo {stem : List Byte} (h : solo (stem ++ [star]) = true) :
    ∀ b ∈ stem, ¬b = opening ∧ ¬b = backslash := by
  induction stem with
  | nil => simp
  | cons b stem ih =>
    obtain ⟨c, rest, hcons⟩ : ∃ c rest, stem ++ [star] = c :: rest := by
      cases stem with
      | nil => exact ⟨star, [], rfl⟩
      | cons c rest => exact ⟨c, rest ++ [star], rfl⟩
    rw [List.cons_append, hcons] at h
    simp only [solo, Bool.and_eq_true, decide_eq_true_eq] at h
    rw [hcons] at ih
    intro d hd
    rcases List.mem_cons.mp hd with rfl | hd
    · exact h.1
    · exact ih h.2 d hd

theorem width_add_count (pattern : List Token) :
    width pattern + pattern.count .star = pattern.length := by
  induction pattern with
  | nil => rfl
  | cons token rest ih =>
    by_cases hstar : token = .star
    · simp [width, hstar] at ih ⊢
      omega
    · simp [width, hstar] at ih ⊢
      omega

/-- A prefix scan is exact for every key precisely when no byte of the prefix
has a meaning of its own. -/
theorem scan_exact_iff (stem : List Byte) :
    (∀ key, covers (scanPattern stem) key = stem.isPrefixOf key) ↔
      ∀ b ∈ stem, special b = false := by
  constructor
  · intro hexact
    have hself : covers (scanPattern stem) stem = true := by
      rw [hexact]
      simp
    have hlonger : covers (scanPattern stem) (stem ++ [star]) = true := by
      rw [hexact]
      simp
    -- a match as short as the pattern allows is still no shorter than the prefix
    have hwidth : stem.length ≤ width (scanPattern stem) := by
      obtain ⟨short, hshort, hlength⟩ := exists_short_match _ _ hself
      rw [hexact] at hshort
      have hle := (List.isPrefixOf_iff_prefix.mp hshort).length_le
      omega
    have hmem : .star ∈ scanPattern stem := by
      by_contra hnot
      have hshort := length_of_covers hnot hself
      have hlong := length_of_covers hnot hlonger
      rw [List.length_append, List.length_singleton] at hlong
      omega
    obtain ⟨hle, htight⟩ := length_tokens (stem ++ [star])
    have hcount := width_add_count (scanPattern stem)
    have hpos : 0 < (scanPattern stem).count .star := List.count_pos_iff.mpr hmem
    have hlength : (scanPattern stem).length = (stem ++ [star]).length := by
      rw [List.length_append, List.length_singleton] at hle ⊢
      change (scanPattern stem).length ≤ stem.length + 1 at hle
      omega
    have hsolo := htight hlength
    have hpattern : scanPattern stem = stem.map single ++ [.star] := by
      rw [scanPattern, tokens_of_solo _ hsolo, List.map_append]
      rfl
    -- so the only `*` is the one the scan adds
    have hstars : ∀ b ∈ stem, ¬b = star := by
      intro b hb heq
      have htwice : 2 ≤ (scanPattern stem).count .star := by
        have hmapped : 0 < (stem.map single).count .star :=
          List.count_pos_iff.mpr (List.mem_map.mpr ⟨b, hb, by rw [heq]; rfl⟩)
        rw [hpattern, List.count_append]
        have hone : List.count Token.star [Token.star] = 1 := by decide
        omega
      rw [List.length_append, List.length_singleton] at hlength
      omega
    have hmasked : covers (scanPattern stem) (masked stem) = true := by
      rw [hpattern, covers_masked _ fun b hb => ⟨hstars b hb, (not_mem_of_solo hsolo b hb).1⟩]
      rfl
    rw [hexact] at hmasked
    have hsame : masked stem = stem :=
      ((List.isPrefixOf_iff_prefix.mp hmasked).eq_of_length (by simp [masked])).symm
    intro b hb
    obtain ⟨hopening, hbackslash⟩ := not_mem_of_solo hsolo b hb
    have hquestion : ¬b = question := by
      have hkept := List.map_inj_left.mp (hsame.trans (List.map_id stem).symm) b hb
      intro heq
      rw [if_pos heq, heq] at hkept
      exact absurd hkept (by decide)
    exact not_special_iff.mpr ⟨⟨hstars b hb, hquestion⟩, hopening, hbackslash⟩
  · intro h key
    have hpattern : scanPattern stem = stem.map .byte ++ [.star] := by
      rw [scanPattern, tokens_literal _ h]
      rfl
    rw [hpattern, covers_prefix]

end DidHosting.Glob
