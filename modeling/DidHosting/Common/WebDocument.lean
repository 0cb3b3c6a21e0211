import DidHosting.Common.JsonText
import DidHosting.Common.Reference

/-!
# The did:web document of a log

A DID that lists its did:web form among its aliases is also served as a did:web
document: the text of the latest document with the webvh identifier replaced by the
did:web one.  The replacement works on the text, so it renames the document's own
identifiers and nothing else exactly when the identifier occurs nowhere else in the
strings as they are written.
-/

namespace DidHosting

open Text

/-! ## The code -/

/-- `text.replace(pattern, replacement)`. -/
def replaceText (pattern replacement text : String) : String :=
  String.ofList (Replace.replace pattern.toList replacement.toList text.toList)

/-- What `extract_did_web_document` makes of a log entry. -/
def webDocument (L : Libs) (entry : Json) (expectedDidWeb : String) : Option String := do
  let state ← entry.get "state"
  let webvhId ← (state.get "id").bind Json.asStr
  if !startsWith "did:webvh:" webvhId then none
  else do
    let alsoKnownAs ← (state.get "alsoKnownAs").bind Json.asArray
    if alsoKnownAs.any fun v => v.asStr == some expectedDidWeb then
      some (replaceText webvhId expectedDidWeb (L.toJsonString state))
    else none

def extractDidWebDocument (L : Libs) (content expectedDidWeb : String) : Option String :=
  match (lines content).getLast?.bind fun line => (L.fromStr line).toOption with
  | none => none
  | some entry => webDocument L entry expectedDidWeb

/-! ## Renaming the subject -/

/-- What follows `did` in an identifier of its own: nothing, a path, a query or a
fragment. -/
def ownSuffix (did s : String) : Option (List Char) :=
  if did.toList <+: s.toList then
    match s.toList.drop did.toList.length with
    | [] => some []
    | c :: rest => if c ∈ ['/', '?', '#'] then some (c :: rest) else none
  else none

/-- The identifiers equal to `did` renamed, the other strings as they are. -/
def renameOwn (did didWeb s : String) : String :=
  match ownSuffix did s with
  | some rest => String.ofList (didWeb.toList ++ rest)
  | none => s

/-- The text of `did` stands nowhere in the written string but, where the string is an
identifier of its own, at the beginning. -/
def OnlyOwn (did s : String) : Prop :=
  match ownSuffix did s with
  | some rest => ¬did.toList <:+: rest.flatMap Json.escapeChar
  | none => ¬did.toList <:+: Json.escape s

def IsDidChar (c : Char) : Prop :=
  c.isAlphanum = true ∨ c ∈ ['.', '-', '_', ':', '%']

/-- A DID of the method `pre` names. -/
def IsDidOf (pre did : String) : Prop :=
  startsWith pre did = true ∧ ∀ c ∈ did.toList, IsDidChar c

/-- The text of a float is made of what the texts of numbers are made of. -/
def FloatText : JsonNumber → Prop
  | .float text => ∀ c ∈ text.toList, c.isDigit = true ∨ c ∈ ['+', '-', '.', 'e', 'E']
  | _ => True

/-! ## Replacing in one string -/

theorem IsDidChar.isPlain {c : Char} (h : IsDidChar c) : Json.IsPlain c := by
  have hne : ∀ d : Char, ¬IsDidChar d → c ≠ d := by
    rintro d hd rfl
    exact hd h
  refine ⟨hne _ (by unfold IsDidChar; decide), hne _ (by unfold IsDidChar; decide), ?_⟩
  rcases h with halnum | hmark
  · rw [Char.isAlphanum, Bool.or_eq_true, isAlpha_iff, isUpper_iff, isLower_iff,
      isDigit_iff] at halnum
    omega
  · simp only [List.mem_cons, List.not_mem_nil, or_false] at hmark
    rcases hmark with rfl | rfl | rfl | rfl | rfl <;> decide

theorem ownSuffix_eq_some {did s : String} {rest : List Char} (h : ownSuffix did s = some rest) :
    s.toList = did.toList ++ rest := by
  unfold ownSuffix at h
  split at h
  · rename_i hprefix
    obtain ⟨more, hmore⟩ := hprefix
    rw [← hmore, List.drop_left] at h
    rw [← hmore]
    split at h
    · exact congrArg (did.toList ++ ·) (Option.some.inj h)
    · split at h
      · exact congrArg (did.toList ++ ·) (Option.some.inj h)
      · cases h
  · cases h

section Subject

variable {did didWeb : String} (hdid : IsDidOf "did:webvh:" did) (hweb : IsDidOf "did:web:" didWeb)
include hdid

theorem IsDidOf.toList_eq : ∃ as, did.toList = 'd' :: as := by
  obtain ⟨rest, hrest⟩ := startsWith_iff.mp hdid.1
  rw [← hrest]
  exact ⟨_, rfl⟩

include hweb

/-- The two methods' identifiers differ behind `did:web`. -/
theorem not_prefix_of_methods :
    ¬did.toList <+: didWeb.toList ∧ ¬didWeb.toList <+: did.toList := by
  obtain ⟨rest, hrest⟩ := startsWith_iff.mp hdid.1
  obtain ⟨rest', hrest'⟩ := startsWith_iff.mp hweb.1
  rw [← hrest, ← hrest']
  constructor <;>
  · intro h
    simp [List.cons_prefix_cons] at h

theorem replace_escape_iff (s : String) :
    Replace.replace did.toList didWeb.toList (Json.escape s) =
        Json.escape (renameOwn did didWeb s) ↔ OnlyOwn did s := by
  obtain ⟨as, has⟩ := IsDidOf.toList_eq hdid
  have hne : did.toList ≠ [] := by
    rw [has]
    exact List.cons_ne_nil 'd' as
  have hclash := not_prefix_of_methods hdid hweb
  have hsame : ∀ xs : List Char,
      Replace.replace did.toList didWeb.toList xs = xs ↔ ¬did.toList <:+: xs := fun xs =>
    ⟨Replace.not_infix_of_replace_eq hne hclash, Replace.replace_of_not_infix⟩
  have hplain : did.toList.flatMap Json.escapeChar = did.toList :=
    Json.flatMap_escapeChar_of_plain fun c hc => (hdid.2 c hc).isPlain
  have hplain' : didWeb.toList.flatMap Json.escapeChar = didWeb.toList :=
    Json.flatMap_escapeChar_of_plain fun c hc => (hweb.2 c hc).isPlain
  unfold OnlyOwn renameOwn
  cases hown : ownSuffix did s with
  | none => exact hsame (Json.escape s)
  | some rest =>
      simp only
      rw [Json.escape, ownSuffix_eq_some hown, List.flatMap_append, hplain,
        Replace.replace_append_self hne, Json.escape, String.toList_ofList, List.flatMap_append,
        hplain', List.append_cancel_left_eq, hsame]

/-! ## Replacing in the document -/

omit hdid hweb in
theorem not_mem_numberText {n : JsonNumber} (h : FloatText n) : 'd' ∉ Json.numberText n := by
  have hdigit : ('d').isDigit = false := by decide
  have hrepr : ∀ n : ℕ, 'd' ∉ (Nat.repr n).toList := by
    intro n hmem
    rw [Nat.repr, String.toList_ofList] at hmem
    have hyes := Nat.isDigit_of_mem_toDigits (by decide) (by decide) hmem
    rw [hdigit] at hyes
    cases hyes
  intro hmem
  cases n with
  | posInt n => exact hrepr n hmem
  | negInt n =>
      rcases List.mem_cons.mp hmem with hminus | hmem
      · exact absurd hminus (by decide)
      · exact hrepr n hmem
  | float text =>
      rcases h 'd' hmem with hyes | hmark
      · rw [hdigit] at hyes
        cases hyes
      · exact absurd hmark (by decide)

theorem replaceText_compact_iff (state : Json)
    (hfloats : Json.Holds (fun _ => True) FloatText state) :
    replaceText did didWeb (Json.compact state) =
        Json.compact (Json.mapStrings (renameOwn did didWeb) state) ↔
      Json.Holds (OnlyOwn did) (fun _ => True) state := by
  obtain ⟨as, has⟩ := IsDidOf.toList_eq hdid
  have hplain : ∀ c ∈ did.toList, Json.IsPlain c := fun c hc => (hdid.2 c hc).isPlain
  have hquote : '\"' ∉ did.toList := fun hmem => (hplain _ hmem).1 rfl
  have hnumbers : Json.Holds (fun _ => True) (fun n => 'd' ∉ Json.numberText n) state :=
    hfloats.imp (fun _ h => h) (fun _ h => not_mem_numberText h) state
  have hstrings : (fun s => Replace.replace did.toList didWeb.toList (Json.escape s) =
      Json.escape (renameOwn did didWeb s)) = OnlyOwn did :=
    funext fun s => propext (replace_escape_iff hdid hweb s)
  have hreplaced : Replace.replace did.toList didWeb.toList (Json.textWith Json.escape state) =
      Json.textWith (fun s => Replace.replace did.toList didWeb.toList (Json.escape s)) state := by
    rw [has] at hquote ⊢
    have hall : Replace.replace _ didWeb.toList (Json.textWith Json.escape state ++ []) = _ :=
      Json.replace_textWith hquote (by decide) state hnumbers []
    rwa [List.append_nil, Replace.replace_nil, List.append_nil] at hall
  have hclosed : ∀ s, Json.Closed 'd'
      (Replace.replace did.toList didWeb.toList (Json.escape s)) := by
    intro s
    have hnew : Json.Closed 'd' didWeb.toList :=
      Json.closed_of_plain fun c hc => (hweb.2 c hc).isPlain
    rw [has] at hplain ⊢
    exact Json.Closed.replace hplain hnew (Json.closed_escape (by decide) s)
  unfold replaceText Json.compact
  rw [String.ofList_inj, String.toList_ofList, hreplaced, Json.textWith_mapStrings, ← hstrings]
  constructor
  · intro heq
    exact (Json.textWith_cancel hclosed (fun s => Json.closed_escape (by decide) _) state [] []
      (congrArg (· ++ []) heq)).1
  · intro hholds
    exact Json.textWith_congr state hholds

end Subject

/-- The served document is the latest one with the identifiers of its own renamed, and
nothing else, exactly when the DID's text stands nowhere else in its strings. -/
theorem extractDidWebDocument_iff {L : Libs} {content did didWeb text : String}
    {entry state : Json} (hjson : ∀ v, L.toJsonString v = Json.compact v)
    (hentry : ((lines content).getLast?.bind fun line => (L.fromStr line).toOption) = some entry)
    (hstate : entry.get "state" = some state)
    (hid : (state.get "id").bind Json.asStr = some did)
    (hdid : IsDidOf "did:webvh:" did) (hweb : IsDidOf "did:web:" didWeb)
    (hfloats : Json.Holds (fun _ => True) FloatText state)
    (htext : extractDidWebDocument L content didWeb = some text) :
    text = Json.compact (Json.mapStrings (renameOwn did didWeb) state) ↔
      Json.Holds (OnlyOwn did) (fun _ => True) state := by
  have hserved : text = replaceText did didWeb (Json.compact state) := by
    unfold extractDidWebDocument webDocument at htext
    simp only [hentry, hstate, hid, hdid.1, Option.bind_eq_bind, Option.bind_some, Bool.not_true,
      Bool.false_eq_true, if_false, hjson] at htext
    obtain ⟨alsoKnownAs, -, hlisted⟩ := Option.bind_eq_some_iff.mp htext
    split at hlisted
    · exact (Option.some.inj hlisted).symm
    · cases hlisted
  rw [hserved]
  exact replaceText_compact_iff hdid hweb state hfloats

/-! ## Sample documents -/

instance (did s : String) : Decidable (OnlyOwn did s) :=
  match h : ownSuffix did s with
  | some rest =>
      decidable_of_iff (¬did.toList <:+: rest.flatMap Json.escapeChar) (by unfold OnlyOwn; rw [h])
  | none => decidable_of_iff (¬did.toList <:+: Json.escape s) (by unfold OnlyOwn; rw [h])

section Samples

open Reference

/-- The reference libraries, with the text of `serde_json`. -/
def compactLibs : Libs :=
  { libs with toJsonString := Json.compact }

/-- The did:web form of the sample DID. -/
def webAl : String := "did:web:h.io:al"

/-- Another DID, whose text begins with the text of the sample DID. -/
def didAlice : String := "did:webvh:s:h.io:alice"

/-- A document of the sample DID that lists its did:web form and `names`. -/
def aliased (names : List String) : Json :=
  document didAl (webAl :: names)

/-- The entry that establishes it. -/
def aliasedEntry (names : List String) : Json :=
  entry "1-a" didAl (webAl :: names)

set_option maxRecDepth 2000 in
theorem wellFormed_aliasedEntry : ∀ e ∈ [aliasedEntry [], aliasedEntry [didAlice]],
    WellFormed e := by
  have hlines : ∀ e ∈ [aliasedEntry [], aliasedEntry [didAlice]],
      ('\n' ∉ printValue e ∧ '\r' ∉ printValue e) ∧
        trimChars (printValue e) = printValue e := by
    decide +kernel
  have hparses : ∀ e ∈ [aliasedEntry [], aliasedEntry [didAlice]],
      parseValue (printValue e).length (printValue e) = some (e, []) := by
    simp only [List.forall_mem_cons, List.not_mem_nil]
    exact ⟨rfl, rfl, nofun⟩
  exact fun e he => ⟨(hlines e he).1, (hlines e he).2, hparses e he⟩

/-- What is written in the two sample documents: in the second one the text of the DID
begins another one. -/
theorem onlyOwn_aliased :
    (∀ s ∈ ["id", didAl, "alsoKnownAs", webAl], OnlyOwn didAl s) ∧ ¬OnlyOwn didAl didAlice := by
  decide +kernel

theorem isDidOf_samples : IsDidOf "did:webvh:" didAl ∧ IsDidOf "did:web:" webAl := by
  have hchars : ∀ text : List Char,
      (text.all fun c => c.isAlphanum || decide (c ∈ ['.', '-', '_', ':', '%'])) = true →
        ∀ c ∈ text, IsDidChar c := by
    intro text hall c hc
    unfold IsDidChar
    simpa using List.all_eq_true.mp hall c hc
  exact ⟨⟨by decide +kernel, hchars _ (by decide +kernel)⟩,
    ⟨by decide +kernel, hchars _ (by decide +kernel)⟩⟩

theorem lastLine_logOf {e : Json} (he : WellFormed e) :
    ((lines (logOf [e])).getLast?.bind fun line => (compactLibs.fromStr line).toOption) =
      some e := by
  have hparse : compactLibs.fromStr (print e) = .ok e := he.parse_print
  rw [lines_logOf (by simpa using he), List.map_cons, List.map_nil, List.getLast?_singleton,
    Option.bind_some, hparse]
  rfl

theorem extract_aliased {names : List String} (hentry : WellFormed (aliasedEntry names)) :
    extractDidWebDocument compactLibs (logOf [aliasedEntry names]) webAl =
      some (replaceText didAl webAl (Json.compact (aliased names))) := by
  have hlisted : ((webAl :: names).map Json.str).any (fun v => v.asStr == some webAl) = true := by
    rw [List.map_cons, List.any_cons]
    simp [Json.asStr]
  unfold extractDidWebDocument
  rw [lastLine_logOf hentry]
  change (if !startsWith "did:webvh:" didAl then none else
    if ((webAl :: names).map Json.str).any (fun v => v.asStr == some webAl) then
      some (replaceText didAl webAl (Json.compact (aliased names))) else none) = _
  rw [webvh_dids.1, hlisted]
  rfl

/-- The sample document without another DID is renamed. -/
theorem extractDidWebDocument_aliased :
    ∃ text, extractDidWebDocument compactLibs (logOf [aliasedEntry []]) webAl = some text ∧
      text = Json.compact (Json.mapStrings (renameOwn didAl webAl) (aliased [])) := by
  have hentry := wellFormed_aliasedEntry (aliasedEntry []) (by simp)
  obtain ⟨hall, -⟩ := onlyOwn_aliased
  refine ⟨_, extract_aliased hentry, ?_⟩
  refine (extractDidWebDocument_iff (fun _ => rfl) (lastLine_logOf hentry) rfl rfl
    isDidOf_samples.1 isDidOf_samples.2 ?_ (extract_aliased hentry)).mpr ?_
  · exact ⟨⟨trivial, trivial⟩, ⟨trivial, trivial, trivial⟩, trivial⟩
  · exact ⟨⟨hall "id" (by simp), hall didAl (by simp)⟩,
      ⟨hall "alsoKnownAs" (by simp), hall webAl (by simp), trivial⟩, trivial⟩

/-- Another DID that begins with the document's own is changed too. -/
theorem extractDidWebDocument_alice :
    ∃ text, extractDidWebDocument compactLibs (logOf [aliasedEntry [didAlice]]) webAl = some text ∧
      text ≠ Json.compact (Json.mapStrings (renameOwn didAl webAl) (aliased [didAlice])) := by
  refine ⟨_, extract_aliased (wellFormed_aliasedEntry (aliasedEntry [didAlice]) (by simp)), ?_⟩
  intro heq
  have hall := (replaceText_compact_iff isDidOf_samples.1 isDidOf_samples.2 (aliased [didAlice])
    ⟨⟨trivial, trivial⟩, ⟨trivial, trivial, trivial, trivial⟩, trivial⟩).mp heq
  obtain ⟨-, ⟨-, -, hother, -⟩, -⟩ := hall
  exact onlyOwn_aliased.2 hother

end Samples

end DidHosting
