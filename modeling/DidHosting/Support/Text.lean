import Mathlib.Data.List.DropRight
import Mathlib.Data.List.Infix

/-!
# String operations of the Rust standard library

The services read their artifacts through a handful of `str` methods: `trim`,
`lines`, `strip_prefix`, `split_once` and `trim_end_matches`.  They are defined
here on the list of characters of a string, by structural recursion, so that
they evaluate and so that the facts about them are facts about lists.

The one result with content is `trimmedLines_joinLines_take`: joining the first
`k` non-blank lines of a text with newlines gives a text whose trimmed,
non-blank lines are the first `k` of the original.  It is what makes a count of
lines survive a truncation, whatever blank lines and carriage returns the
original contains.
-/

namespace DidHosting.Text

/-! ## Characters -/

theorem isUpper_iff {c : Char} : c.isUpper = true ↔ 65 ≤ c.toNat ∧ c.toNat ≤ 90 :=
  decide_eq_true_iff.trans (and_congr UInt32.le_iff_toNat_le UInt32.le_iff_toNat_le)

theorem isLower_iff {c : Char} : c.isLower = true ↔ 97 ≤ c.toNat ∧ c.toNat ≤ 122 :=
  Bool.and_eq_true_iff.trans (and_congr
    (decide_eq_true_iff.trans UInt32.le_iff_toNat_le)
    (decide_eq_true_iff.trans UInt32.le_iff_toNat_le))

theorem isDigit_iff {c : Char} : c.isDigit = true ↔ 48 ≤ c.toNat ∧ c.toNat ≤ 57 :=
  Bool.and_eq_true_iff.trans (and_congr
    (decide_eq_true_iff.trans UInt32.le_iff_toNat_le)
    (decide_eq_true_iff.trans UInt32.le_iff_toNat_le))

theorem isAlpha_iff {c : Char} : c.isAlpha = true ↔ c.isUpper = true ∨ c.isLower = true :=
  Bool.or_eq_true_iff

/-! ## Trimming -/

/-- `char::is_whitespace`: the Unicode `White_Space` property. -/
def isWhitespace (c : Char) : Bool :=
  let n := c.toNat
  (9 ≤ n && n ≤ 13) || n == 0x20 || n == 0x85 || n == 0xA0 || n == 0x1680 ||
    (0x2000 ≤ n && n ≤ 0x200A) || n == 0x2028 || n == 0x2029 || n == 0x202F ||
    n == 0x205F || n == 0x3000

/-- `str::trim` on the characters of a string. -/
def trimChars (cs : List Char) : List Char :=
  (cs.dropWhile isWhitespace).rdropWhile isWhitespace

def trim (s : String) : String :=
  String.ofList (trimChars s.toList)

@[simp] theorem trimChars_nil : trimChars [] = [] := rfl

/-- Trimming does not see white space at the end. -/
theorem trimChars_append_whitespace {c : Char} (hc : isWhitespace c = true) (cs : List Char) :
    trimChars (cs ++ [c]) = trimChars cs := by
  unfold trimChars
  by_cases hall : cs.dropWhile isWhitespace = []
  · have hcs : ∀ d ∈ cs, isWhitespace d = true :=
      List.dropWhile_eq_nil_iff.mp hall
    have hcs' : (cs ++ [c]).dropWhile isWhitespace = [] := by
      rw [List.dropWhile_eq_nil_iff]
      intro d hd
      rcases List.mem_append.mp hd with h | h
      · exact hcs d h
      · rw [List.mem_singleton.mp h]
        exact hc
    rw [hall, hcs']
  · have hdrop : (cs ++ [c]).dropWhile isWhitespace =
        cs.dropWhile isWhitespace ++ [c] := by
      rw [List.dropWhile_append]
      simp [hall]
    rw [hdrop, List.rdropWhile_concat_pos _ _ _ hc]

/-- A trailing carriage return is white space. -/
theorem trimChars_append_cr (cs : List Char) :
    trimChars (cs ++ ['\r']) = trimChars cs :=
  trimChars_append_whitespace (by decide) cs

/-! ## Lines -/

/-- Drop the carriage return of a `\r\n` line ending.  `current` is the line in
reverse. -/
def stripCr : List Char → List Char
  | '\r' :: rest => rest
  | current => current

/-- `str::lines`, with the characters of the line being read in reverse in
`current`.  A final line without a newline keeps its carriage return. -/
def linesFrom (current : List Char) : List Char → List (List Char)
  | [] => if current = [] then [] else [current.reverse]
  | '\n' :: rest => (stripCr current).reverse :: linesFrom [] rest
  | c :: rest => linesFrom (c :: current) rest

def lines (s : String) : List String :=
  (linesFrom [] s.toList).map String.ofList

/-- A line `lines().filter(|l| !l.trim().is_empty())` drops. -/
def isBlank (s : String) : Bool :=
  (trim s).toList.isEmpty

/-- `s.lines().filter(|l| !l.trim().is_empty())`. -/
def nonblankLines (s : String) : List String :=
  (lines s).filter fun l => !isBlank l

/-- `s.lines().map(str::trim).filter(|l| !l.is_empty())`. -/
def trimmedLines (s : String) : List String :=
  ((lines s).map trim).filter fun l => !l.toList.isEmpty

def joinLines (ls : List String) : String :=
  String.ofList (['\n'].intercalate (ls.map String.toList))

/-- Trimming the lines first and dropping the empty ones, or dropping the
blank ones and trimming the rest, keeps the same lines. -/
theorem trimmedLines_eq_map (s : String) :
    trimmedLines s = (nonblankLines s).map trim := by
  unfold trimmedLines nonblankLines
  rw [List.filter_map]
  rfl

/-- The trimmed lines are as many as the non-blank ones. -/
theorem length_trimmedLines (s : String) :
    (trimmedLines s).length = (nonblankLines s).length := by
  rw [trimmedLines_eq_map, List.length_map]

theorem linesFrom_newline (current rest : List Char) :
    linesFrom current ('\n' :: rest) = (stripCr current).reverse :: linesFrom [] rest :=
  rfl

theorem linesFrom_cons {c : Char} (h : c ≠ '\n') (current rest : List Char) :
    linesFrom current (c :: rest) = linesFrom (c :: current) rest := by
  rw [linesFrom]
  exact h

/-- Only a carriage return at the end of the line is stripped. -/
theorem stripCr_cases (current : List Char) :
    stripCr current = current ∨ current = '\r' :: stripCr current := by
  unfold stripCr
  split
  · exact Or.inr rfl
  · exact Or.inl rfl

theorem stripCr_of_not_mem {current : List Char} (h : '\r' ∉ current) :
    stripCr current = current := by
  rcases stripCr_cases current with hsame | hcr
  · exact hsame
  · rw [hcr] at h
    exact absurd List.mem_cons_self h

/-- Stripping the carriage return does not change what trimming leaves. -/
theorem trimChars_stripCr (current : List Char) :
    trimChars (stripCr current).reverse = trimChars current.reverse := by
  rcases stripCr_cases current with hsame | hcr
  · rw [hsame]
  · conv_rhs => rw [hcr, List.reverse_cons, trimChars_append_cr]

theorem not_mem_stripCr {c : Char} {current : List Char}
    (h : c ∉ current) : c ∉ stripCr current := by
  rcases stripCr_cases current with hsame | hcr
  · rw [hsame]
    exact h
  · rw [hcr] at h
    exact fun hc => h (List.mem_cons_of_mem _ hc)

/-- Reading a stretch without newlines only moves it into the current line. -/
theorem linesFrom_append_of_not_mem {xs : List Char} (h : '\n' ∉ xs)
    (current rest : List Char) :
    linesFrom current (xs ++ rest) = linesFrom (xs.reverse ++ current) rest := by
  induction xs generalizing current with
  | nil => rfl
  | cons x xs ih =>
      have hx : x ≠ '\n' := fun e => h (e ▸ List.mem_cons_self)
      have hxs : '\n' ∉ xs := fun m => h (List.mem_cons_of_mem _ m)
      rw [List.cons_append, linesFrom_cons hx, ih hxs]
      simp

theorem newline_not_mem_linesFrom (cs : List Char) :
    ∀ current, '\n' ∉ current → ∀ l ∈ linesFrom current cs, '\n' ∉ l := by
  induction cs with
  | nil =>
      intro current hcur l hl
      change l ∈ (if current = [] then [] else [current.reverse]) at hl
      split at hl
      · simp at hl
      · rw [List.mem_singleton.mp hl]
        simpa using hcur
  | cons c cs ih =>
      intro current hcur l hl
      by_cases hc : c = '\n'
      · subst c
        rw [linesFrom_newline] at hl
        rcases List.mem_cons.mp hl with rfl | hl
        · simpa using not_mem_stripCr hcur
        · exact ih [] (by simp) l hl
      · rw [linesFrom_cons hc] at hl
        exact ih (c :: current) (by simp [Ne.symm hc, hcur]) l hl

theorem newline_not_mem_lines {s l : String} (h : l ∈ lines s) :
    '\n' ∉ l.toList := by
  obtain ⟨cs, hcs, rfl⟩ := List.mem_map.mp h
  rw [String.toList_ofList]
  exact newline_not_mem_linesFrom s.toList [] (by simp) cs hcs

theorem isBlank_eq_false_of_mem {s l : String} (h : l ∈ nonblankLines s) :
    isBlank l = false := by
  have := (List.mem_filter.mp h).2
  simpa using this

theorem ne_nil_of_not_isBlank {l : String} (h : isBlank l = false) :
    l.toList ≠ [] := by
  intro hl
  simp [isBlank, trim, hl] at h

theorem linesFrom_intercalate_singleton {l : List Char} (hl : '\n' ∉ l) (hne : l ≠ []) :
    linesFrom [] (['\n'].intercalate [l]) = [l] := by
  have hread := linesFrom_append_of_not_mem hl [] []
  simpa [linesFrom, hne] using hread

theorem linesFrom_intercalate_cons {l : List Char} (hl : '\n' ∉ l) (l' : List Char)
    (ls : List (List Char)) :
    linesFrom [] (['\n'].intercalate (l :: l' :: ls)) =
      (stripCr l.reverse).reverse :: linesFrom [] (['\n'].intercalate (l' :: ls)) := by
  have hsplit : ['\n'].intercalate (l :: l' :: ls) =
      l ++ ('\n' :: ['\n'].intercalate (l' :: ls)) := by
    simp [List.intercalate]
  rw [hsplit, linesFrom_append_of_not_mem hl, List.append_nil, linesFrom_newline]

/-- Reading back lines that were joined with newlines: every line but the last
loses a trailing carriage return, nothing else changes. -/
theorem linesFrom_intercalate (ls : List (List Char))
    (hnl : ∀ l ∈ ls, '\n' ∉ l) (hne : ∀ l ∈ ls, l ≠ []) :
    (linesFrom [] (['\n'].intercalate ls)).map trimChars = ls.map trimChars ∧
      (linesFrom [] (['\n'].intercalate ls)).getLast? = ls.getLast? := by
  induction ls with
  | nil => simp [linesFrom]
  | cons l ls ih =>
      have hl : '\n' ∉ l := hnl l List.mem_cons_self
      cases ls with
      | nil =>
          rw [linesFrom_intercalate_singleton hl (hne l List.mem_cons_self)]
          exact ⟨rfl, rfl⟩
      | cons l' ls =>
          obtain ⟨ihmap, ihlast⟩ := ih
            (fun x hx => hnl x (List.mem_cons_of_mem _ hx))
            (fun x hx => hne x (List.mem_cons_of_mem _ hx))
          rw [linesFrom_intercalate_cons hl]
          constructor
          · rw [List.map_cons, ihmap, trimChars_stripCr]
            simp
          · have htail : linesFrom [] (['\n'].intercalate (l' :: ls)) ≠ [] := by
              intro hnil
              rw [hnil] at ihlast
              exact List.cons_ne_nil l' ls
                (List.getLast?_eq_none_iff.mp ihlast.symm)
            rw [List.getLast?_cons_of_ne_nil htail, ihlast]
            simp

/-- Lines without line-ending characters are read back as they were. -/
theorem lines_joinLines {ls : List String}
    (hclean : ∀ l ∈ ls, '\n' ∉ l.toList ∧ '\r' ∉ l.toList ∧ l.toList ≠ []) :
    lines (joinLines ls) = ls := by
  have hread : linesFrom [] (['\n'].intercalate (ls.map String.toList)) =
      ls.map String.toList := by
    induction ls with
    | nil => simp [linesFrom]
    | cons l ls ih =>
        obtain ⟨hnl, hcr, hne⟩ := hclean l List.mem_cons_self
        have ih := ih fun x hx => hclean x (List.mem_cons_of_mem _ hx)
        cases ls with
        | nil => exact linesFrom_intercalate_singleton hnl hne
        | cons l' ls =>
            rw [List.map_cons, List.map_cons, linesFrom_intercalate_cons hnl,
              ← List.map_cons, ih]
            have hstrip : stripCr l.toList.reverse = l.toList.reverse :=
              stripCr_of_not_mem fun hmem => hcr (List.mem_reverse.mp hmem)
            rw [hstrip, List.reverse_reverse, List.map_cons]
  rw [lines, joinLines, String.toList_ofList, hread, List.map_map]
  simp [Function.comp_def]

theorem lines_joinLines_map_trim {ls : List String}
    (hnl : ∀ l ∈ ls, '\n' ∉ l.toList) (hne : ∀ l ∈ ls, l.toList ≠ []) :
    (lines (joinLines ls)).map trim = ls.map trim := by
  have h := (linesFrom_intercalate (ls.map String.toList)
    (by simpa using hnl) (by simpa using hne)).1
  calc
    (lines (joinLines ls)).map trim =
        ((linesFrom [] (['\n'].intercalate (ls.map String.toList))).map
          trimChars).map String.ofList := by
      simp [lines, joinLines, List.map_map, Function.comp_def, trim]
    _ = ((ls.map String.toList).map trimChars).map String.ofList := by rw [h]
    _ = ls.map trim := by
      rw [List.map_map, List.map_map]
      rfl

theorem nonblankLines_take_spec (s : String) (k : ℕ) :
    (∀ l ∈ (nonblankLines s).take k, '\n' ∉ l.toList) ∧
      (∀ l ∈ (nonblankLines s).take k, isBlank l = false) := by
  constructor
  · intro l hl
    have hmem : l ∈ nonblankLines s := List.mem_of_mem_take hl
    exact newline_not_mem_lines (List.mem_of_mem_filter hmem)
  · intro l hl
    exact isBlank_eq_false_of_mem (List.mem_of_mem_take hl)

/-- Truncating a text to its first `k` non-blank lines keeps exactly its first
`k` trimmed lines. -/
theorem trimmedLines_joinLines_take (s : String) (k : ℕ) :
    trimmedLines (joinLines ((nonblankLines s).take k)) =
      (trimmedLines s).take k := by
  obtain ⟨hnl, hblank⟩ := nonblankLines_take_spec s k
  have hne : ∀ l ∈ (nonblankLines s).take k, l.toList ≠ [] :=
    fun l hl => ne_nil_of_not_isBlank (hblank l hl)
  rw [trimmedLines, lines_joinLines_map_trim hnl hne, trimmedLines_eq_map,
    ← List.map_take]
  apply List.filter_eq_self.mpr
  intro l hl
  obtain ⟨l', hl', rfl⟩ := List.mem_map.mp hl
  simpa [isBlank] using hblank l' hl'

def trimEnd (s : String) : String :=
  String.ofList (s.toList.rdropWhile isWhitespace)

/-- The trimmed lines that are not empty, where `current` has been read of the first one. -/
def trimmedFrom (current cs : List Char) : List (List Char) :=
  ((linesFrom current cs).map trimChars).filter fun l => !l.isEmpty

theorem trimmedLines_eq_trimmedFrom (s : String) :
    trimmedLines s = (trimmedFrom [] s.toList).map String.ofList := by
  have htrim : trim ∘ String.ofList = String.ofList ∘ trimChars := by
    funext l
    simp [trim]
  rw [trimmedLines, lines, trimmedFrom, List.map_map, htrim, ← List.map_map, List.filter_map]
  congr 2
  funext l
  simp

theorem trimmedFrom_nil (current : List Char) :
    trimmedFrom current [] = [trimChars current.reverse].filter fun l => !l.isEmpty := by
  unfold trimmedFrom linesFrom
  by_cases hcurrent : current = []
  · rw [if_pos hcurrent, hcurrent]
    rfl
  · rw [if_neg hcurrent]
    rfl

theorem trimmedFrom_newline (current cs : List Char) :
    trimmedFrom current ('\n' :: cs) = trimmedFrom current [] ++ trimmedFrom [] cs := by
  rw [trimmedFrom_nil, trimmedFrom, linesFrom_newline, List.map_cons, trimChars_stripCr,
    ← List.singleton_append, List.filter_append, trimmedFrom]

theorem trimmedFrom_cons {c : Char} (h : c ≠ '\n') (current cs : List Char) :
    trimmedFrom current (c :: cs) = trimmedFrom (c :: current) cs := by
  rw [trimmedFrom, linesFrom_cons h, trimmedFrom]

theorem trimmedFrom_append_newline (current cs ds : List Char) :
    trimmedFrom current (cs ++ '\n' :: ds) = trimmedFrom current cs ++ trimmedFrom [] ds := by
  induction cs generalizing current with
  | nil => exact trimmedFrom_newline current ds
  | cons c cs ih =>
      rw [List.cons_append]
      by_cases hc : c = '\n'
      · rw [hc, trimmedFrom_newline, trimmedFrom_newline, ih, List.append_assoc]
      · rw [trimmedFrom_cons hc, trimmedFrom_cons hc, ih]

theorem trimmedFrom_append_whitespace {c : Char} (hc : isWhitespace c = true)
    (current cs : List Char) : trimmedFrom current (cs ++ [c]) = trimmedFrom current cs := by
  induction cs generalizing current with
  | nil =>
      rw [List.nil_append]
      by_cases hnl : c = '\n'
      · rw [hnl, trimmedFrom_newline]
        exact List.append_nil _
      · rw [trimmedFrom_cons hnl, trimmedFrom_nil, trimmedFrom_nil, List.reverse_cons,
          trimChars_append_whitespace hc]
  | cons d ds ih =>
      rw [List.cons_append]
      by_cases hnl : d = '\n'
      · rw [hnl, trimmedFrom_newline, trimmedFrom_newline, ih]
      · rw [trimmedFrom_cons hnl, trimmedFrom_cons hnl, ih]

theorem trimmedLines_trimEnd (s : String) : trimmedLines (trimEnd s) = trimmedLines s := by
  have hdrop : ∀ cs, trimmedFrom [] (cs.rdropWhile isWhitespace) = trimmedFrom [] cs := by
    intro cs
    induction cs using List.reverseRecOn with
    | nil => rfl
    | append_singleton cs c ih =>
        cases hc : isWhitespace c with
        | true => rw [List.rdropWhile_concat_pos _ _ _ hc, trimmedFrom_append_whitespace hc, ih]
        | false => rw [List.rdropWhile_concat_neg _ _ _ (by simp [hc])]
  rw [trimmedLines_eq_trimmedFrom, trimEnd, String.toList_ofList, hdrop,
    trimmedLines_eq_trimmedFrom]

/-- The lines of two texts with a newline between them. -/
theorem trimmedLines_append (s t : String) :
    trimmedLines (s ++ "\n" ++ t) = trimmedLines s ++ trimmedLines t := by
  have hlist : (s ++ "\n" ++ t).toList = s.toList ++ '\n' :: t.toList := by simp
  rw [trimmedLines_eq_trimmedFrom, hlist, trimmedFrom_append_newline, List.map_append,
    trimmedLines_eq_trimmedFrom, trimmedLines_eq_trimmedFrom]

/-! ## Prefixes, suffixes and separators -/

/-- `s.starts_with(p)`. -/
def startsWith (p s : String) : Bool :=
  p.toList.isPrefixOf s.toList

/-- `s.ends_with(p)`. -/
def endsWith (p s : String) : Bool :=
  p.toList.isSuffixOf s.toList

/-- `s.contains(part)`. -/
def containsText (part s : String) : Bool :=
  s.toList.tails.any part.toList.isPrefixOf

/-- `s.strip_prefix(p)`. -/
def stripPrefix (p s : String) : Option String :=
  if startsWith p s then
    some (String.ofList (s.toList.drop p.toList.length))
  else
    none

/-- `s.split(c).next()`: the text before the first `c`. -/
def before (c : Char) (s : String) : String :=
  String.ofList (s.toList.takeWhile (· != c))

/-- `s.split_once(c)`. -/
def splitOnce (c : Char) (s : String) : Option (String × String) :=
  match s.toList.dropWhile (· != c) with
  | [] => none
  | _ :: rest => some (before c s, String.ofList rest)

/-- `s.rsplit_once(c)`. -/
def rsplitOnce (c : Char) (s : String) : Option (String × String) :=
  match s.toList.reverse.dropWhile (· != c) with
  | [] => none
  | _ :: rest =>
      some (String.ofList rest.reverse,
        String.ofList (s.toList.reverse.takeWhile (· != c)).reverse)

/-- `s.split(c)`, with the characters of the piece being read in reverse in
`current`. -/
def splitFrom (c : Char) (current : List Char) : List Char → List (List Char)
  | [] => [current.reverse]
  | x :: rest =>
      if x = c then current.reverse :: splitFrom c [] rest
      else splitFrom c (x :: current) rest

/-- `s.split(c)`. -/
def split (c : Char) (s : String) : List String :=
  (splitFrom c [] s.toList).map String.ofList

theorem splitFrom_ne_nil (c : Char) (current cs : List Char) :
    splitFrom c current cs ≠ [] := by
  cases cs with
  | nil => exact List.cons_ne_nil _ _
  | cons x rest =>
      rw [splitFrom]
      split
      · exact List.cons_ne_nil _ _
      · exact splitFrom_ne_nil c (x :: current) rest

theorem split_ne_nil (c : Char) (s : String) : split c s ≠ [] := by
  intro h
  exact splitFrom_ne_nil c [] s.toList (List.map_eq_nil_iff.mp h)

/-- `s.trim_end_matches(c)`. -/
def trimEndMatches (c : Char) (s : String) : String :=
  String.ofList (s.toList.rdropWhile (· == c))

/-- `s.replace(c, by)`. -/
def replaceChar (c : Char) (replacement s : String) : String :=
  String.ofList (s.toList.flatMap fun x =>
    if x = c then replacement.toList else [x])

/-- `a.eq_ignore_ascii_case(b)`. -/
def eqIgnoreAsciiCase (a b : String) : Bool :=
  a.toList.map Char.toLower == b.toList.map Char.toLower

theorem splitFrom_append (c : Char) (current xs ys : List Char) :
    splitFrom c current (xs ++ c :: ys) = splitFrom c current xs ++ splitFrom c [] ys := by
  induction xs generalizing current with
  | nil => simp [splitFrom]
  | cons x xs ih =>
      rw [List.cons_append, splitFrom, splitFrom]
      split
      · rw [ih]
        rfl
      · rw [ih]

/-- The last `c` splits a text after which no other `c` follows. -/
theorem rsplitOnce_append {c : Char} {a b : String} (hb : c ∉ b.toList) :
    rsplitOnce c (a ++ String.singleton c ++ b) = some (a, b) := by
  have hne : ∀ x ∈ b.toList.reverse, (x != c) = true := by
    intro x hx
    have hmem : x ∈ b.toList := List.mem_reverse.mp hx
    simpa using fun h : x = c => hb (h ▸ hmem)
  have hrev : (a ++ String.singleton c ++ b).toList.reverse =
      b.toList.reverse ++ c :: a.toList.reverse := by
    simp
  unfold rsplitOnce
  rw [hrev, List.dropWhile_append_of_pos hne, List.takeWhile_append_of_pos hne]
  simp

theorem stripPrefix_append (p s : String) : stripPrefix p (p ++ s) = some s := by
  have hp : startsWith p (p ++ s) = true := by simp [startsWith]
  unfold stripPrefix
  rw [if_pos hp]
  simp

theorem startsWith_iff {p s : String} :
    startsWith p s = true ↔ p.toList <+: s.toList :=
  List.isPrefixOf_iff_prefix

theorem endsWith_iff {p s : String} :
    endsWith p s = true ↔ p.toList <:+ s.toList :=
  List.isSuffixOf_iff_suffix

/-- The text before the first `c`, where it is known. -/
theorem before_append {c : Char} {a b : String} (ha : c ∉ a.toList) :
    before c (a ++ String.singleton c ++ b) = a := by
  have hne : ∀ x ∈ a.toList, (x != c) = true := by
    intro x hx
    simpa using fun h : x = c => ha (h ▸ hx)
  have hlist : (a ++ String.singleton c ++ b).toList = a.toList ++ c :: b.toList := by
    simp
  unfold before
  rw [hlist, List.takeWhile_append_of_pos hne]
  simp

/-- The text before the first `c` does not contain `c`. -/
theorem not_mem_before (c : Char) (s : String) : c ∉ (before c s).toList := by
  intro h
  rw [before, String.toList_ofList] at h
  have := List.mem_takeWhile_imp h
  simp at this

end DidHosting.Text
