import DidHosting.Common.Json
import DidHosting.Support.Replace

/-!
# The text of a JSON value

The compact text `serde_json` writes, with the strings as a parameter: the text of a
document with changed strings is the text with the changed strings in place.  A
string ends at its first quote that is not escaped, so equal texts over one document
have equal strings.
-/

namespace DidHosting.Json

/-! ## Writing -/

/-- The escape of one character of a string. -/
def escapeChar (c : Char) : List Char :=
  if c = '\"' then ['\\', '\"']
  else if c = '\\' then ['\\', '\\']
  else if c = '\x08' then ['\\', 'b']
  else if c = '\t' then ['\\', 't']
  else if c = '\n' then ['\\', 'n']
  else if c = '\x0c' then ['\\', 'f']
  else if c = '\r' then ['\\', 'r']
  else if c.toNat < 32 then
    ['\\', 'u', '0', '0', Nat.digitChar (c.toNat / 16), Nat.digitChar (c.toNat % 16)]
  else [c]

/-- The characters of a string between its quotes. -/
def escape (s : String) : List Char :=
  s.toList.flatMap escapeChar

def numberText : JsonNumber → List Char
  | .posInt n => (Nat.repr n).toList
  | .negInt n => '-' :: (Nat.repr n).toList
  | .float text => text.toList

section Text

variable (body : String → List Char)

/-- The text of a string. -/
def quoted (s : String) : List Char :=
  '\"' :: (body s ++ ['\"'])

mutual

/-- The compact text of a value, whose strings are written by `body`. -/
def textWith : Json → List Char
  | .null => "null".toList
  | .bool true => "true".toList
  | .bool false => "false".toList
  | .num n => numberText n
  | .str s => quoted body s
  | .arr items => '[' :: itemsText items
  | .obj members => '\x7b' :: membersText members

/-- The rest of an array after its bracket. -/
def itemsText : List Json → List Char
  | [] => [']']
  | [v] => textWith v ++ [']']
  | v :: w :: rest => textWith v ++ ',' :: itemsText (w :: rest)

/-- The rest of an object after its brace. -/
def membersText : List (String × Json) → List Char
  | [] => ['\x7d']
  | [(k, v)] => quoted body k ++ ':' :: textWith v ++ ['\x7d']
  | (k, v) :: m :: rest => quoted body k ++ ':' :: textWith v ++ ',' :: membersText (m :: rest)

end

end Text

/-- `serde_json::to_string`. -/
def compact (v : Json) : String :=
  String.ofList (textWith escape v)

/-! ## Strings of a document -/

section Strings

variable (f : String → String)

mutual

/-- The document with `f` applied to each of its strings, the member names included. -/
def mapStrings : Json → Json
  | .null => .null
  | .bool b => .bool b
  | .num n => .num n
  | .str s => .str (f s)
  | .arr items => .arr (mapItems items)
  | .obj members => .obj (mapMembers members)

def mapItems : List Json → List Json
  | [] => []
  | v :: rest => mapStrings v :: mapItems rest

def mapMembers : List (String × Json) → List (String × Json)
  | [] => []
  | (k, v) :: rest => (f k, mapStrings v) :: mapMembers rest

end

end Strings

section Holds

variable (P : String → Prop) (Q : JsonNumber → Prop)

mutual

/-- Every string of the document, the member names included, has `P`, and every number
`Q`. -/
def Holds : Json → Prop
  | .null => True
  | .bool _ => True
  | .num n => Q n
  | .str s => P s
  | .arr items => HoldsItems items
  | .obj members => HoldsMembers members

def HoldsItems : List Json → Prop
  | [] => True
  | v :: rest => Holds v ∧ HoldsItems rest

def HoldsMembers : List (String × Json) → Prop
  | [] => True
  | (k, v) :: rest => (P k ∧ Holds v) ∧ HoldsMembers rest

end

end Holds

/-- A statement about values, about the rest of an array and about the rest of an
object. -/
theorem induction {P : Json → Prop} {I : List Json → Prop}
    {M : List (String × Json) → Prop} (null : P .null) (bool : ∀ b, P (.bool b))
    (num : ∀ n, P (.num n)) (str : ∀ s, P (.str s)) (arr : ∀ items, I items → P (.arr items))
    (obj : ∀ members, M members → P (.obj members)) (items_nil : I [])
    (items_cons : ∀ v rest, P v → I rest → I (v :: rest)) (members_nil : M [])
    (members_cons : ∀ k v rest, P v → M rest → M ((k, v) :: rest)) (v : Json) :
    P v :=
  @Json.rec P I M (fun m => P m.2) null bool num str arr obj items_nil items_cons members_nil
    (fun m rest hm hrest => members_cons m.1 m.2 rest hm hrest) (fun _ _ h => h) v

theorem textWith_mapStrings (body : String → List Char) (f : String → String) (v : Json) :
    textWith body (mapStrings f v) = textWith (fun s => body (f s)) v := by
  induction v using induction
    (I := fun items => itemsText body (mapItems f items) =
      itemsText (fun s => body (f s)) items)
    (M := fun members => membersText body (mapMembers f members) =
      membersText (fun s => body (f s)) members) with
  | null => rfl
  | bool b => cases b <;> rfl
  | num n => rfl
  | str s => rfl
  | arr items ih => exact congrArg ('[' :: ·) ih
  | obj members ih => exact congrArg ('\x7b' :: ·) ih
  | items_nil => rfl
  | items_cons v rest hv hrest =>
      cases rest with
      | nil => exact congrArg (· ++ [']']) hv
      | cons w rest =>
          change textWith body (mapStrings f v) ++ ',' :: itemsText body (mapItems f (w :: rest)) = _
          rw [hv, hrest]
          rfl
  | members_nil => rfl
  | members_cons k v rest hv hrest =>
      cases rest with
      | nil =>
          change quoted body (f k) ++ ':' :: textWith body (mapStrings f v) ++ ['\x7d'] = _
          rw [hv]
          rfl
      | cons m rest =>
          change quoted body (f k) ++ ':' :: textWith body (mapStrings f v) ++
            ',' :: membersText body (mapMembers f (m :: rest)) = _
          rw [hv, hrest]
          rfl

theorem Holds.imp {P P' : String → Prop} {Q Q' : JsonNumber → Prop} (hP : ∀ s, P s → P' s)
    (hQ : ∀ n, Q n → Q' n) (v : Json) (h : Holds P Q v) : Holds P' Q' v := by
  induction v using induction (I := fun items => HoldsItems P Q items → HoldsItems P' Q' items)
    (M := fun members => HoldsMembers P Q members → HoldsMembers P' Q' members) with
  | null | bool | items_nil | members_nil => trivial
  | num n => exact hQ n h
  | str s => exact hP s h
  | arr items ih => exact ih h
  | obj members ih => exact ih h
  | items_cons v rest hv hrest =>
      rename_i hall
      exact ⟨hv hall.1, hrest hall.2⟩
  | members_cons k v rest hv hrest =>
      rename_i hall
      exact ⟨⟨hP k hall.1.1, hv hall.1.2⟩, hrest hall.2⟩

/-- Strings that are written alike make the texts alike. -/
theorem textWith_congr {body body' : String → List Char} (v : Json)
    (h : Holds (fun s => body s = body' s) (fun _ => True) v) :
    textWith body v = textWith body' v := by
  induction v using induction
    (I := fun items => HoldsItems (fun s => body s = body' s) (fun _ => True) items →
      itemsText body items = itemsText body' items)
    (M := fun members => HoldsMembers (fun s => body s = body' s) (fun _ => True) members →
      membersText body members = membersText body' members) with
  | null | num | items_nil | members_nil => rfl
  | bool b => cases b <;> rfl
  | str s => exact congrArg (fun cs => '\"' :: (cs ++ ['\"'])) h
  | arr items ih => exact congrArg ('[' :: ·) (ih h)
  | obj members ih => exact congrArg ('\x7b' :: ·) (ih h)
  | items_cons v rest hv hrest =>
      rename_i hall
      obtain ⟨hfirst, hmore⟩ := hall
      cases rest with
      | nil => exact congrArg (· ++ [']']) (hv hfirst)
      | cons w rest =>
          change textWith body v ++ ',' :: itemsText body (w :: rest) = _
          rw [hv hfirst, hrest hmore]
          rfl
  | members_cons k v rest hv hrest =>
      rename_i hall
      obtain ⟨⟨hkey, hfirst⟩, hmore⟩ := hall
      have hname : quoted body k = quoted body' k :=
        congrArg (fun cs => '\"' :: (cs ++ ['\"'])) hkey
      cases rest with
      | nil =>
          change quoted body k ++ ':' :: textWith body v ++ ['\x7d'] = _
          rw [hname, hv hfirst]
          rfl
      | cons m rest =>
          change quoted body k ++ ':' :: textWith body v ++ ',' :: membersText body (m :: rest) = _
          rw [hname, hv hfirst, hrest hmore]
          rfl

/-! ## Where a string ends -/

/-- A text in which every quote is escaped, and no escape is one with `a`. -/
inductive Closed (a : Char) : List Char → Prop
  | nil : Closed a []
  | plain {c : Char} {b : List Char} (hquote : c ≠ '\"') (hback : c ≠ '\\') (rest : Closed a b) :
      Closed a (c :: b)
  | escaped {c : Char} {b : List Char} (hne : c ≠ a) (rest : Closed a b) :
      Closed a ('\\' :: c :: b)

/-- A character that stands for itself in a string. -/
def IsPlain (c : Char) : Prop :=
  c ≠ '\"' ∧ c ≠ '\\' ∧ 32 ≤ c.toNat

instance : DecidablePred IsPlain := fun c =>
  inferInstanceAs (Decidable (c ≠ '\"' ∧ c ≠ '\\' ∧ 32 ≤ c.toNat))

theorem isPlain_digitChar : ∀ n < 16, IsPlain (Nat.digitChar n) := by
  decide

theorem escapeChar_of_plain {c : Char} (h : IsPlain c) : escapeChar c = [c] := by
  obtain ⟨hquote, hback, hcode⟩ := h
  have hcontrol : ∀ d : Char, d.toNat < 32 → c ≠ d := by
    rintro d hd rfl
    omega
  unfold escapeChar
  rw [if_neg hquote, if_neg hback, if_neg (hcontrol _ (by decide)),
    if_neg (hcontrol _ (by decide)), if_neg (hcontrol _ (by decide)),
    if_neg (hcontrol _ (by decide)), if_neg (hcontrol _ (by decide)), if_neg (by omega)]

theorem flatMap_escapeChar_of_plain {cs : List Char} (h : ∀ c ∈ cs, IsPlain c) :
    cs.flatMap escapeChar = cs := by
  induction cs with
  | nil => rfl
  | cons c cs ih =>
      rw [List.flatMap_cons, escapeChar_of_plain (h c List.mem_cons_self),
        ih fun d hd => h d (List.mem_cons_of_mem c hd)]
      rfl

variable {a : Char} {x y : List Char}

theorem Closed.append (hx : Closed a x) (hy : Closed a y) : Closed a (x ++ y) := by
  induction hx with
  | nil => exact hy
  | plain hquote hback _ ih => exact .plain hquote hback ih
  | escaped hne _ ih => exact .escaped hne ih

theorem closed_of_plain (h : ∀ c ∈ x, IsPlain c) : Closed a x := by
  induction x with
  | nil => exact .nil
  | cons c x ih =>
      obtain ⟨hquote, hback, -⟩ := h c List.mem_cons_self
      exact .plain hquote hback (ih fun d hd => h d (List.mem_cons_of_mem c hd))

theorem Closed.of_cons_plain {c : Char} (hc : IsPlain c) (h : Closed a (c :: y)) : Closed a y := by
  cases h with
  | plain _ _ hrest => exact hrest
  | escaped _ _ => exact absurd rfl hc.2.1

theorem Closed.of_append_plain (hx : ∀ c ∈ x, IsPlain c) (h : Closed a (x ++ y)) : Closed a y := by
  induction x with
  | nil => exact h
  | cons c x ih =>
      have hrest : Closed a (x ++ y) := Closed.of_cons_plain (hx c List.mem_cons_self) h
      exact ih (fun d hd => hx d (List.mem_cons_of_mem c hd)) hrest

/-- The characters that follow a backslash. -/
def escapes : List Char := ['\"', '\\', 'b', 't', 'n', 'f', 'r', 'u']

theorem closed_escapeChar (ha : a ∉ escapes) (c : Char) : Closed a (escapeChar c) := by
  have hne : ∀ d ∈ escapes, d ≠ a := by
    rintro d hd rfl
    exact ha hd
  unfold escapeChar
  split_ifs with hquote hback h1 h2 h3 h4 h5 hcode
  · exact .escaped (hne _ (by decide)) .nil
  · exact .escaped (hne _ (by decide)) .nil
  · exact .escaped (hne _ (by decide)) .nil
  · exact .escaped (hne _ (by decide)) .nil
  · exact .escaped (hne _ (by decide)) .nil
  · exact .escaped (hne _ (by decide)) .nil
  · exact .escaped (hne _ (by decide)) .nil
  · refine .escaped (hne _ (by decide)) (closed_of_plain ?_)
    have hzero : IsPlain '0' := isPlain_digitChar 0 (by decide)
    have hhigh := isPlain_digitChar (c.toNat / 16) (by omega)
    have hlow := isPlain_digitChar (c.toNat % 16) (by omega)
    intro d hd
    simp only [List.mem_cons, List.not_mem_nil, or_false] at hd
    rcases hd with rfl | rfl | rfl | rfl
    · exact hzero
    · exact hzero
    · exact hhigh
    · exact hlow
  · exact .plain hquote hback .nil

/-- The escaped text of a string contains no quote that would end it. -/
theorem closed_escape (ha : a ∉ escapes) (s : String) : Closed a (escape s) := by
  unfold escape
  induction s.toList with
  | nil => exact .nil
  | cons c cs ih => exact (closed_escapeChar ha c).append ih

/-- Replacing a pattern of plain characters leaves every quote escaped: no occurrence
begins behind a backslash. -/
theorem Closed.replace {as new : List Char} (hpattern : ∀ c ∈ a :: as, IsPlain c)
    (hnew : Closed a new) (h : Closed a x) : Closed a (Replace.replace (a :: as) new x) := by
  induction hn : x.length using Nat.strong_induction_on generalizing x with
  | _ n ih =>
      by_cases hprefix : a :: as <+: x
      · obtain ⟨rest, rfl⟩ := hprefix
        rw [Replace.replace_append_self (List.cons_ne_nil a as)]
        refine hnew.append (ih rest.length ?_ (h.of_append_plain hpattern) rfl)
        rw [← hn, List.length_append, List.length_cons]
        omega
      · cases h with
        | nil => exact .nil
        | plain hquote hback hrest =>
            rw [Replace.replace_cons hprefix]
            exact .plain hquote hback (ih _ (by rw [← hn]; exact Nat.lt_succ_self _) hrest rfl)
        | escaped hne hrest =>
            rw [Replace.replace_cons hprefix,
              Replace.replace_cons fun hc => hne (List.cons_prefix_cons.mp hc).1.symm]
            refine .escaped hne (ih _ ?_ hrest rfl)
            rw [← hn]
            exact Nat.lt_add_of_pos_right (by decide : 0 < 2)

/-- The first quote that is not escaped ends the string. -/
theorem Closed.cancel {x' r r' : List Char} (hx : Closed a x) (hx' : Closed a x')
    (h : x ++ '\"' :: r = x' ++ '\"' :: r') : x = x' ∧ r = r' := by
  induction hx generalizing x' with
  | nil =>
      cases hx' with
      | nil => exact ⟨rfl, (List.cons.inj h).2⟩
      | plain hquote _ _ => exact absurd (List.cons.inj h).1.symm hquote
      | escaped _ _ => exact absurd (List.cons.inj h).1 (by decide)
  | plain hquote hback _ ih =>
      cases hx' with
      | nil => exact absurd (List.cons.inj h).1 hquote
      | plain _ _ hrest' =>
          obtain ⟨rfl, htail⟩ := List.cons.inj h
          obtain ⟨rfl, hr⟩ := ih hrest' htail
          exact ⟨rfl, hr⟩
      | escaped _ _ => exact absurd (List.cons.inj h).1 hback
  | escaped _ _ ih =>
      cases hx' with
      | nil => exact absurd (List.cons.inj h).1 (by decide)
      | plain _ hback' _ => exact absurd (List.cons.inj h).1.symm hback'
      | escaped _ hrest' =>
          obtain ⟨rfl, htail⟩ := List.cons.inj (List.cons.inj h).2
          obtain ⟨rfl, hr⟩ := ih hrest' htail
          exact ⟨rfl, hr⟩

/-! ## Texts of one document -/

section Document

variable {body body' : String → List Char}

/-- Over one document, equal texts have equal strings. -/
theorem textWith_cancel (hbody : ∀ s, Closed a (body s)) (hbody' : ∀ s, Closed a (body' s))
    (v : Json) : ∀ r r' : List Char, textWith body v ++ r = textWith body' v ++ r' →
      Holds (fun s => body s = body' s) (fun _ => True) v ∧ r = r' := by
  have hquoted : ∀ (s : String) (r r' : List Char), quoted body s ++ r = quoted body' s ++ r' →
      body s = body' s ∧ r = r' := by
    intro s r r' h
    refine (hbody s).cancel (hbody' s) ?_
    simpa [quoted] using h
  induction v using induction
    (I := fun items => ∀ r r' : List Char,
      itemsText body items ++ r = itemsText body' items ++ r' →
        HoldsItems (fun s => body s = body' s) (fun _ => True) items ∧ r = r')
    (M := fun members => ∀ r r' : List Char,
      membersText body members ++ r = membersText body' members ++ r' →
        HoldsMembers (fun s => body s = body' s) (fun _ => True) members ∧ r = r') with
  | null =>
      intro r r' h
      exact ⟨trivial, List.append_cancel_left h⟩
  | bool b =>
      intro r r' h
      cases b <;> exact ⟨trivial, List.append_cancel_left h⟩
  | num n =>
      intro r r' h
      exact ⟨trivial, List.append_cancel_left h⟩
  | str s => exact hquoted s
  | arr items ih =>
      intro r r' h
      exact ih r r' (List.cons.inj h).2
  | obj members ih =>
      intro r r' h
      exact ih r r' (List.cons.inj h).2
  | items_nil =>
      rename_i r r' h
      exact ⟨trivial, List.append_cancel_left h⟩
  | members_nil =>
      rename_i r r' h
      exact ⟨trivial, List.append_cancel_left h⟩
  | items_cons v rest hv hrest =>
      rename_i r r' h
      cases rest with
      | nil =>
          have h : textWith body v ++ (']' :: r) = textWith body' v ++ (']' :: r') := by
            simpa [itemsText] using h
          obtain ⟨hfirst, hr⟩ := hv _ _ h
          exact ⟨⟨hfirst, trivial⟩, (List.cons.inj hr).2⟩
      | cons w rest =>
          have h : textWith body v ++ (',' :: (itemsText body (w :: rest) ++ r)) =
              textWith body' v ++ (',' :: (itemsText body' (w :: rest) ++ r')) := by
            rw [itemsText, itemsText, List.append_assoc, List.append_assoc] at h
            exact h
          obtain ⟨hfirst, hr⟩ := hv _ _ h
          obtain ⟨hmore, hr⟩ := hrest _ _ (List.cons.inj hr).2
          exact ⟨⟨hfirst, hmore⟩, hr⟩
  | members_cons k v rest hv hrest =>
      rename_i r r' h
      cases rest with
      | nil =>
          have h : quoted body k ++ (':' :: (textWith body v ++ ('\x7d' :: r))) =
              quoted body' k ++ (':' :: (textWith body' v ++ ('\x7d' :: r'))) := by
            simpa [membersText] using h
          obtain ⟨hkey, hr⟩ := hquoted k _ _ h
          obtain ⟨hfirst, hr⟩ := hv _ _ (List.cons.inj hr).2
          exact ⟨⟨⟨hkey, hfirst⟩, trivial⟩, (List.cons.inj hr).2⟩
      | cons m rest =>
          have h : quoted body k ++ (':' :: (textWith body v ++
              (',' :: (membersText body (m :: rest) ++ r)))) =
                quoted body' k ++ (':' :: (textWith body' v ++
                  (',' :: (membersText body' (m :: rest) ++ r')))) := by
            rw [membersText, membersText] at h
            simpa using h
          obtain ⟨hkey, hr⟩ := hquoted k _ _ h
          obtain ⟨hfirst, hr⟩ := hv _ _ (List.cons.inj hr).2
          obtain ⟨hmore, hr⟩ := hrest _ _ (List.cons.inj hr).2
          exact ⟨⟨⟨hkey, hfirst⟩, hmore⟩, hr⟩

/-! ## Replacing in a document -/

/-- The characters of the text outside strings and numbers. -/
def punctuation : List Char :=
  ['\"', '[', ']', '\x7b', '\x7d', ',', ':', 'n', 'u', 'l', 't', 'r', 'e', 'f', 's', 'a']

variable {as new : List Char}

theorem replace_quoted (hquote : '\"' ∉ a :: as) (ha : a ∉ punctuation) (s : String)
    (rest : List Char) :
    Replace.replace (a :: as) new (quoted body s ++ rest) =
      quoted (fun s => Replace.replace (a :: as) new (body s)) s ++
        Replace.replace (a :: as) new rest := by
  have hopen : a ∉ ['\"'] := fun h => ha (by rw [List.mem_singleton.mp h]; decide)
  have hsplit : quoted body s ++ rest = ['\"'] ++ (body s ++ '\"' :: rest) := by
    simp [quoted]
  rw [hsplit, Replace.replace_append_of_head hopen,
    Replace.replace_append_sep (List.cons_ne_nil a as) hquote]
  simp [quoted]

/-- A pattern whose first character stands in no punctuation and no number is replaced
inside the strings. -/
theorem replace_textWith (hquote : '\"' ∉ a :: as) (ha : a ∉ punctuation) (v : Json) :
    Holds (fun _ => True) (fun n => a ∉ numberText n) v → ∀ rest : List Char,
      Replace.replace (a :: as) new (textWith body v ++ rest) =
        textWith (fun s => Replace.replace (a :: as) new (body s)) v ++
          Replace.replace (a :: as) new rest := by
  have hword : ∀ (word rest : List Char), (word.all fun c => decide (c ∈ punctuation)) = true →
      Replace.replace (a :: as) new (word ++ rest) =
        word ++ Replace.replace (a :: as) new rest := by
    intro word rest hin
    refine Replace.replace_append_of_head (fun hmem => ha ?_) rest
    simpa using List.all_eq_true.mp hin a hmem
  have hmark : ∀ (c : Char) (rest : List Char), c ∈ punctuation →
      Replace.replace (a :: as) new (c :: rest) = c :: Replace.replace (a :: as) new rest := by
    intro c rest hc
    exact hword [c] rest (by simpa using hc)
  induction v using induction
    (I := fun items => HoldsItems (fun _ => True) (fun n => a ∉ numberText n) items →
      ∀ rest : List Char, Replace.replace (a :: as) new (itemsText body items ++ rest) =
        itemsText (fun s => Replace.replace (a :: as) new (body s)) items ++
          Replace.replace (a :: as) new rest)
    (M := fun members => HoldsMembers (fun _ => True) (fun n => a ∉ numberText n) members →
      ∀ rest : List Char, Replace.replace (a :: as) new (membersText body members ++ rest) =
        membersText (fun s => Replace.replace (a :: as) new (body s)) members ++
          Replace.replace (a :: as) new rest) with
  | null =>
      intro _ rest
      exact hword "null".toList rest (by decide)
  | bool b =>
      intro _ rest
      cases b with
      | true => exact hword "true".toList rest (by decide)
      | false => exact hword "false".toList rest (by decide)
  | num n =>
      intro hnumber rest
      exact Replace.replace_append_of_head hnumber rest
  | str s =>
      intro _ rest
      exact replace_quoted hquote ha s rest
  | arr items ih =>
      intro hall rest
      rw [textWith, textWith, List.cons_append, hmark _ _ (by decide), ih hall]
      rfl
  | obj members ih =>
      intro hall rest
      rw [textWith, textWith, List.cons_append, hmark _ _ (by decide), ih hall]
      rfl
  | items_nil =>
      rename_i rest
      exact hmark _ rest (by decide)
  | members_nil =>
      rename_i rest
      exact hmark _ rest (by decide)
  | items_cons v items hv hitems =>
      rename_i hall rest
      obtain ⟨hfirst, hmore⟩ := hall
      cases items with
      | nil =>
          rw [itemsText, itemsText, List.append_assoc, hv hfirst, hword _ _ (by decide),
            List.append_assoc]
      | cons w items =>
          rw [itemsText, itemsText, List.append_assoc, hv hfirst, List.cons_append,
            hmark _ _ (by decide), hitems hmore]
          simp
  | members_cons k v members hv hmembers =>
      rename_i hall rest
      obtain ⟨⟨-, hfirst⟩, hmore⟩ := hall
      cases members with
      | nil =>
          have hsplit : membersText body [(k, v)] ++ rest =
              quoted body k ++ ':' :: (textWith body v ++ (['\x7d'] ++ rest)) := by
            simp [membersText]
          rw [hsplit, replace_quoted hquote ha, hmark _ _ (by decide), hv hfirst,
            hword _ _ (by decide)]
          simp [membersText]
      | cons m members =>
          have hsplit : membersText body ((k, v) :: m :: members) ++ rest =
              quoted body k ++ ':' :: (textWith body v ++
                ',' :: (membersText body (m :: members) ++ rest)) := by
            simp [membersText]
          rw [hsplit, replace_quoted hquote ha, hmark _ _ (by decide), hv hfirst,
            hmark _ _ (by decide), hmembers hmore]
          simp [membersText]

end Document

end DidHosting.Json
