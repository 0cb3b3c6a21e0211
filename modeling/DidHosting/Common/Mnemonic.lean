import DidHosting.Support.Text
import DidHosting.Common.Libs

/-!
# Paths and agent names

The grammar of slot paths (mnemonics) and of the local part of an agent name.
-/

namespace DidHosting

open Text

/-- First path segments the service keeps for itself. -/
def reservedNames : List String :=
  [".well-known", "api", "auth", "dids", "stats", "acl", "health"]

/-- Agent names nobody may bind. -/
def reservedAgentNames : List String :=
  ["abuse", "admin", "administrator", "api", "help", "hostmaster", "info",
    "postmaster", "root", "security", "support", "sysadmin", "webmaster",
    "well-known"]

/-- The slot of the domain's own DID. -/
def rootDidMnemonic : String := ".well-known"

def pathErr (msg : String) : AppError :=
  AppError.validationOf .invalidPath msg

/-- The characters of a path segment. -/
def isSegmentChar (c : Char) : Bool :=
  c.isLower || c.isDigit || c == '-'

/-- The first and the last character are ASCII alphanumeric. -/
def alphanumericEnds (cs : List Char) : Bool :=
  cs.head?.any Char.isAlphanum && cs.getLast?.any Char.isAlphanum

def validateSegment (segment : String) : Except AppError Unit :=
  if segment.utf8ByteSize < 2 || 63 < segment.utf8ByteSize then
    .error (pathErr "each path segment must be between 2 and 63 characters")
  else if !segment.toList.all isSegmentChar then
    .error (pathErr "path segments must contain only lowercase letters, digits, and hyphens")
  else if !alphanumericEnds segment.toList then
    .error (pathErr "each path segment must start and end with an alphanumeric character")
  else
    .ok ()

/-- The reserved-name check on the first segment. -/
def reservedFirst (first : Bool) (segment : String) : Except AppError Unit :=
  if first && reservedNames.contains segment then
    .error (pathErr s!"'{segment}' is a reserved name and cannot be used as the first path segment")
  else
    .ok ()

/-- The segment loop of `validate_custom_path` and `validate_webs_mnemonic`.
`first` marks the first segment of the path. -/
def validateSegments (first : Bool) : List String → Except AppError Unit
  | [] => .ok ()
  | segment :: rest =>
      if segment = "" then
        .error (pathErr "path must not contain empty segments (double slashes)")
      else do
        validateSegment segment
        reservedFirst first segment
        validateSegments false rest

/-- The checks on a path as a whole that both grammars share. -/
def validatePathShape (path : String) : Except AppError Unit :=
  if path = "" then
    .error (pathErr "path must not be empty")
  else if 255 < path.utf8ByteSize then
    .error (pathErr "path must be at most 255 characters")
  else if startsWith "/" path || endsWith "/" path then
    .error (pathErr "path must not start or end with '/'")
  else
    .ok ()

def validateCustomPath (path : String) : Except AppError Unit := do
  validatePathShape path
  validateSegments true (split '/' path)

def validateMnemonic (mnemonic : String) : Except AppError Unit :=
  if mnemonic = rootDidMnemonic then .ok () else validateCustomPath mnemonic

/-- The base64url alphabet. -/
def isAidChar (c : Char) : Bool :=
  c.isAlphanum || c == '-' || c == '_'

def validateAidSegment (aid : String) : Except AppError Unit :=
  if aid.utf8ByteSize < 4 || 63 < aid.utf8ByteSize then
    .error (pathErr "the final path segment of a did:webs path is its AID, and must be between 4 and 63 characters")
  else if !aid.toList.all isAidChar then
    .error (pathErr "the final path segment of a did:webs path is its AID, and must contain only characters from the base64url alphabet (A-Z, a-z, 0-9, '-', '_')")
  else
    .ok ()

/-- `validate_webs_mnemonic`: leading segments as in a custom path, then an
AID. -/
def validateWebsMnemonic (mnemonic : String) : Except AppError Unit := do
  validatePathShape mnemonic
  if mnemonic = rootDidMnemonic then
    .error (pathErr "did:webs has no root slot — the AID is always the final path segment")
  else do
    let segments := split '/' mnemonic
    let leading := segments.dropLast
    let aid := segments.getLast?.getD ""
    validateSegments true leading
    validateAidSegment aid
    reservedFirst leading.isEmpty aid

/-! ## The two path grammars -/

/-- The final segment of a path, the AID of a did:webs slot. -/
def aidSegment (path : String) : String :=
  (split '/' path).getLast?.getD ""

theorem validateSegment_empty : validateSegment "" ≠ .ok () := by
  decide

/-- The segment loop accepts the ordinary segments whose first one is free. -/
theorem validateSegments_eq_ok_iff {first : Bool} {segments : List String} :
    validateSegments first segments = .ok () ↔
      (∀ segment ∈ segments, validateSegment segment = .ok ()) ∧
        ∀ segment, segments.head? = some segment → reservedFirst first segment = .ok () := by
  induction segments generalizing first with
  | nil => simp [validateSegments]
  | cons segment rest ih =>
      rw [validateSegments]
      constructor
      · intro h
        split at h
        · cases h
        · obtain ⟨⟨⟩, hsegment, hafter⟩ := bind_eq_ok h
          obtain ⟨⟨⟩, hfree, hrest⟩ := bind_eq_ok hafter
          refine ⟨List.forall_mem_cons.mpr ⟨hsegment, (ih.mp hrest).1⟩, ?_⟩
          intro head hhead
          cases hhead
          exact hfree
      · rintro ⟨hsegments, hhead⟩
        obtain ⟨hsegment, hothers⟩ := List.forall_mem_cons.mp hsegments
        have hne : segment ≠ "" := by
          rintro rfl
          exact validateSegment_empty hsegment
        -- only the first segment of a path can be reserved
        have hrest : validateSegments false rest = .ok () :=
          ih.mpr ⟨hothers, fun _ _ => rfl⟩
        rw [if_neg hne, hsegment, hhead segment rfl]
        exact hrest

theorem validateCustomPath_eq_ok_iff {path : String} :
    validateCustomPath path = .ok () ↔
      validatePathShape path = .ok () ∧ validateSegments true (split '/' path) = .ok () := by
  unfold validateCustomPath
  constructor
  · intro h
    obtain ⟨⟨⟩, hshape, hsegments⟩ := bind_eq_ok h
    exact ⟨hshape, hsegments⟩
  · rintro ⟨hshape, hsegments⟩
    rw [hshape]
    exact hsegments

/-- What the did:webs grammar asks of a path. -/
structure WebsPath (path : String) : Prop where
  shape : validatePathShape path = .ok ()
  not_root : path ≠ rootDidMnemonic
  leading : validateSegments true (split '/' path).dropLast = .ok ()
  aid : validateAidSegment (aidSegment path) = .ok ()
  aid_free : reservedFirst (split '/' path).dropLast.isEmpty (aidSegment path) = .ok ()

theorem WebsPath.of_valid {path : String} (h : validateWebsMnemonic path = .ok ()) :
    WebsPath path := by
  unfold validateWebsMnemonic at h
  obtain ⟨⟨⟩, hshape, hafter⟩ := bind_eq_ok h
  split at hafter
  · cases hafter
  · rename_i hroot
    obtain ⟨⟨⟩, hleading, hrest⟩ := bind_eq_ok hafter
    obtain ⟨⟨⟩, haid, hfree⟩ := bind_eq_ok hrest
    exact ⟨hshape, hroot, hleading, haid, hfree⟩

/-- A did:webs path is a mnemonic exactly when its AID is an ordinary path
segment. -/
theorem validateMnemonic_of_webs {path : String} (h : validateWebsMnemonic path = .ok ()) :
    validateMnemonic path = .ok () ↔ validateSegment (aidSegment path) = .ok () := by
  have hwebs := WebsPath.of_valid h
  obtain ⟨leading, aid, hsplit⟩ :
      ∃ leading aid, split '/' path = leading ++ [aid] :=
    ⟨_, _, (List.dropLast_append_getLast (split_ne_nil '/' path)).symm⟩
  have haid : aidSegment path = aid := by
    unfold aidSegment
    rw [hsplit, List.getLast?_append_of_ne_nil _ (List.cons_ne_nil _ _)]
    rfl
  have hleading := hwebs.leading
  have hfree := hwebs.aid_free
  rw [hsplit, List.dropLast_concat] at hleading hfree
  rw [haid] at hfree
  rw [validateMnemonic, if_neg hwebs.not_root, validateCustomPath_eq_ok_iff, haid, hsplit,
    validateSegments_eq_ok_iff]
  constructor
  · rintro ⟨-, hsegments, -⟩
    exact hsegments aid (List.mem_append_right _ List.mem_cons_self)
  · intro hsegment
    obtain ⟨hsegments, hhead⟩ := validateSegments_eq_ok_iff.mp hleading
    refine ⟨hwebs.shape, ?_, ?_⟩
    · intro segment hmem
      rcases List.mem_append.mp hmem with hmem | hmem
      · exact hsegments segment hmem
      · rw [List.mem_singleton.mp hmem]
        exact hsegment
    · intro segment hfirst
      cases leading with
      | nil =>
          cases hfirst
          exact hfree
      | cons first rest => exact hhead segment hfirst

/-! ## Agent names -/

/-- `name.strip_prefix('@').unwrap_or(name)`. -/
def bareName (name : String) : String :=
  (stripPrefix "@" name).getD name

def validateAgentName (name : String) : Except AppError Unit :=
  let bare := bareName name
  if bare = "" then
    .ok ()
  else do
    validateSegment bare
    if reservedAgentNames.contains bare then .error (.agentName .reserved)
    else .ok ()

/-- `validate_agent_name_binding`: the empty name belongs to the root slot. -/
def validateAgentNameBinding (name mnemonic : String) : Except AppError Unit := do
  validateAgentName name
  if bareName name = "" && mnemonic != rootDidMnemonic then
    .error (.agentName .reserved)
  else
    .ok ()

end DidHosting
