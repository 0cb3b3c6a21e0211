import DidHosting.Common.Json

/-!
# Rotating the keys of a document

A rotation publishes the new key as a verification method of its own, points the relationships
at it, and removes the methods of the keys that the relationships named before.  A method is
removed by its id alone.  The removal of the signing keys looks whether `keyAgreement` still
names the method; no removal looks at the other relationships.
-/

namespace DidHosting

namespace Identity

/-! ## The code -/

/-- A DID document: the members of the object. -/
abbrev DidDocument := List (String × Json)

/-- `Value::get`. -/
def member (doc : DidDocument) (key : String) : Option Json :=
  (Json.obj doc).get key

/-- The strings of the array under a key. -/
def kidsOf (doc : DidDocument) (rel : String) : List String :=
  match (member doc rel).bind Json.asArray with
  | some refs => refs.filterMap Json.asStr
  | none => []

/-- The id of a verification method. -/
def methodId (method : Json) : Option String :=
  (method.get "id").bind Json.asStr

/-- The kid of a new key: its own multibase is the fragment. -/
def newKid (didId multibase : String) : String :=
  didId ++ "#" ++ multibase

/-- The verification method of a new key. -/
def newMethod (didId multibase : String) : Json :=
  .obj [("id", .str (newKid didId multibase)), ("type", .str "Multikey"),
    ("controller", .str didId), ("publicKeyMultibase", .str multibase)]

/-- Drop the methods whose ids are not kept, and add one. -/
def editMethods (keep : String → Bool) (method : Json) (doc : DidDocument) : DidDocument :=
  match member doc "verificationMethod" with
  | some (.arr methods) =>
      Json.setMember "verificationMethod"
        (.arr (methods.filter (fun m => (methodId m).all keep) ++ [method])) doc
  | _ => doc

def rotateKeyAgreement (doc : DidDocument) (didId multibase : String) : DidDocument × String :=
  let kid := newKid didId multibase
  let oldKids := kidsOf doc "keyAgreement"
  let doc := editMethods (fun id => !oldKids.contains id) (newMethod didId multibase) doc
  (Json.setMember "keyAgreement" (.arr [.str kid]) doc, kid)

def rotateSigning (doc : DidDocument) (didId multibase : String) : DidDocument × String :=
  let kid := newKid didId multibase
  let oldKids := (kidsOf doc "authentication" ++ kidsOf doc "assertionMethod").eraseDups
  let kaKids := kidsOf doc "keyAgreement"
  let doc := editMethods (fun id => !oldKids.contains id || kaKids.contains id)
    (newMethod didId multibase) doc
  let doc := Json.setMember "authentication" (.arr [.str kid]) doc
  let doc := if (member doc "assertionMethod").isSome then
    Json.setMember "assertionMethod" (.arr [.str kid]) doc else doc
  (doc, kid)

inductive RotateKeys where
  | keyAgreement
  | signing
  | both
deriving DecidableEq, Repr

namespace RotateKeys

def rotatesKa : RotateKeys → Bool
  | keyAgreement | both => true
  | signing => false

def rotatesSigning : RotateKeys → Bool
  | signing | both => true
  | keyAgreement => false

end RotateKeys

/-- The document of `rotate_keys`: the key-agreement key first. -/
def rotateDocument (which : RotateKeys) (didId ka signing : String) (doc : DidDocument) :
    DidDocument :=
  let doc := if which.rotatesKa then (rotateKeyAgreement doc didId ka).1 else doc
  if which.rotatesSigning then (rotateSigning doc didId signing).1 else doc

/-! ## What a rotation is to keep -/

/-- The verification relationships. -/
def relationships : List String :=
  ["authentication", "assertionMethod", "keyAgreement", "capabilityInvocation",
    "capabilityDelegation"]

/-- The verification methods. -/
def methodsOf (doc : DidDocument) : List Json :=
  match member doc "verificationMethod" with
  | some (.arr methods) => methods
  | _ => []

/-- There is a verification method with the id. -/
def Resolves (doc : DidDocument) (kid : String) : Prop :=
  ∃ method ∈ methodsOf doc, methodId method = some kid

/-- The relationships a rotation points at a new key. -/
def RotateKeys.rotates (which : RotateKeys) (rel : String) : Bool :=
  (which.rotatesKa && rel == "keyAgreement") ||
    (which.rotatesSigning && (rel == "authentication" || rel == "assertionMethod"))

/-- The methods a rotation adds. -/
def installed (which : RotateKeys) (didId ka signing : String) : List Json :=
  (if which.rotatesKa then [newMethod didId ka] else []) ++
    if which.rotatesSigning then [newMethod didId signing] else []

/-- A rotated document is consistent, and otherwise unchanged. -/
structure RotatedWell (which : RotateKeys) (didId ka signing : String) (doc new : DidDocument) :
    Prop where
  resolves : ∀ rel ∈ relationships, ∀ kid ∈ kidsOf new rel, Resolves doc kid → Resolves new kid
  keyAgreement : which.rotatesKa = true →
    member new "keyAgreement" = some (.arr [.str (newKid didId ka)])
  authentication : which.rotatesSigning = true →
    member new "authentication" = some (.arr [.str (newKid didId signing)])
  assertionMethod : which.rotatesSigning = true →
    member new "assertionMethod" =
      (member doc "assertionMethod").map fun _ => .arr [.str (newKid didId signing)]
  keeps : ∀ rel ∈ relationships, which.rotates rel = false → ∀ kid ∈ kidsOf doc rel,
    ∀ method ∈ methodsOf doc, methodId method = some kid → method ∈ methodsOf new
  methods : ∀ method ∈ methodsOf new, method ∈ methodsOf doc ∨
    method ∈ installed which didId ka signing
  unchanged : ∀ key ≠ "verificationMethod", which.rotates key = false →
    member new key = member doc key

/-- The key's method is removed: the key is one of `keyAgreement`, and that is rotated; or it
is a signing key, these are rotated, and `keyAgreement` does not name it then. -/
def removes (which : RotateKeys) (didId ka : String) (doc : DidDocument) (kid : String) : Bool :=
  (which.rotatesKa && (kidsOf doc "keyAgreement").contains kid) ||
    (which.rotatesSigning &&
      ((kidsOf doc "authentication").contains kid || (kidsOf doc "assertionMethod").contains kid) &&
      !(if which.rotatesKa then [newKid didId ka] else kidsOf doc "keyAgreement").contains kid)

/-- No relationship that is not rotated names a key whose method is removed, unless the method
is one that the rotation adds. -/
def NoSharedKey (which : RotateKeys) (didId ka signing : String) (doc : DidDocument) : Prop :=
  ∀ rel ∈ relationships, which.rotates rel = false → ∀ kid ∈ kidsOf doc rel,
    ∀ method ∈ methodsOf doc, methodId method = some kid →
      removes which didId ka doc kid = true → method ∈ installed which didId ka signing

/-! ## Members and methods -/

section

variable {doc new : DidDocument} {keep : String → Bool} {method x : Json} {key rel : String}
  {didId ka signing : String} {which : RotateKeys}

theorem member_setMember_self (key : String) (value : Json) (doc : DidDocument) :
    member (Json.setMember key value doc) key = some value :=
  Json.get_setMember_self key value doc

theorem member_setMember_ne {other : String} (hne : other ≠ key) (value : Json)
    (doc : DidDocument) : member (Json.setMember key value doc) other = member doc other :=
  Json.get_setMember_ne hne value doc

theorem kidsOf_congr (h : member new rel = member doc rel) : kidsOf new rel = kidsOf doc rel := by
  rw [kidsOf, h, kidsOf]

theorem kidsOf_single {kid : String} (h : member doc rel = some (.arr [.str kid])) :
    kidsOf doc rel = [kid] := by
  rw [kidsOf, h]
  rfl

/-- The verification methods are an array. -/
def HasMethods (doc : DidDocument) : Prop :=
  ∃ methods, member doc "verificationMethod" = some (.arr methods)

theorem hasMethods_of_mem (h : x ∈ methodsOf doc) : HasMethods doc := by
  unfold methodsOf at h
  split at h
  · exact ⟨_, by assumption⟩
  · contradiction

theorem methodsOf_congr (h : member new "verificationMethod" = member doc "verificationMethod") :
    methodsOf new = methodsOf doc := by
  rw [methodsOf, h, methodsOf]

theorem editMethods_cases (keep : String → Bool) (method : Json) (doc : DidDocument) :
    (∃ methods, member doc "verificationMethod" = some (.arr methods) ∧
      member (editMethods keep method doc) "verificationMethod" =
        some (.arr (methods.filter (fun m => (methodId m).all keep) ++ [method]))) ∨
      ¬ HasMethods doc ∧ editMethods keep method doc = doc := by
  unfold editMethods
  split
  · rename_i methods hmethods
    exact .inl ⟨methods, hmethods, member_setMember_self _ _ _⟩
  · rename_i hnone
    exact .inr ⟨fun ⟨methods, hmethods⟩ => hnone methods hmethods, rfl⟩

theorem member_editMethods (hne : key ≠ "verificationMethod") :
    member (editMethods keep method doc) key = member doc key := by
  unfold editMethods
  split
  · exact member_setMember_ne hne _ _
  · rfl

theorem hasMethods_editMethods : HasMethods (editMethods keep method doc) ↔ HasMethods doc := by
  rcases editMethods_cases keep method doc with
    ⟨methods, hold, hnew⟩ | ⟨-, hsame⟩
  · exact ⟨fun _ => ⟨methods, hold⟩, fun _ => ⟨_, hnew⟩⟩
  · rw [hsame]

theorem mem_methodsOf_editMethods : x ∈ methodsOf (editMethods keep method doc) ↔
    HasMethods doc ∧ (x = method ∨ x ∈ methodsOf doc ∧ (methodId x).all keep = true) := by
  rcases editMethods_cases keep method doc with
    ⟨methods, hold, hnew⟩ | ⟨hnone, hsame⟩
  · have hmethods : methodsOf doc = methods := by
      rw [methodsOf, hold]
    have hedited : methodsOf (editMethods keep method doc) =
        methods.filter (fun m => (methodId m).all keep) ++ [method] := by
      rw [methodsOf, hnew]
    rw [hedited, hmethods, List.mem_append, List.mem_filter, List.mem_singleton, or_comm]
    exact ⟨fun h => ⟨⟨methods, hold⟩, h⟩, fun h => h.2⟩
  · rw [hsame]
    exact ⟨fun h => absurd (hasMethods_of_mem h) hnone, fun h => absurd h.1 hnone⟩

/-! ## One rotation -/

theorem mem_rotateKeyAgreement : x ∈ methodsOf (rotateKeyAgreement doc didId ka).1 ↔
    HasMethods doc ∧ (x = newMethod didId ka ∨ x ∈ methodsOf doc ∧
      (methodId x).all (fun id => !(kidsOf doc "keyAgreement").contains id) = true) := by
  have hmethods : methodsOf (rotateKeyAgreement doc didId ka).1 = methodsOf (editMethods
      (fun id => !(kidsOf doc "keyAgreement").contains id) (newMethod didId ka) doc) :=
    methodsOf_congr (member_setMember_ne (by decide) _ _)
  rw [hmethods, mem_methodsOf_editMethods]

theorem hasMethods_rotateKeyAgreement :
    HasMethods (rotateKeyAgreement doc didId ka).1 ↔ HasMethods doc := by
  unfold rotateKeyAgreement HasMethods
  rw [member_setMember_ne (by decide)]
  exact hasMethods_editMethods

theorem member_rotateKeyAgreement (hmethods : key ≠ "verificationMethod")
    (hka : key ≠ "keyAgreement") :
    member (rotateKeyAgreement doc didId ka).1 key = member doc key :=
  (member_setMember_ne hka _ _).trans (member_editMethods hmethods)

theorem keyAgreement_rotateKeyAgreement :
    member (rotateKeyAgreement doc didId ka).1 "keyAgreement" =
      some (.arr [.str (newKid didId ka)]) :=
  member_setMember_self _ _ _

/-- The document of a signing rotation before it points `assertionMethod` at the key. -/
def signingBase (doc : DidDocument) (didId signing : String) : DidDocument :=
  Json.setMember "authentication" (.arr [.str (newKid didId signing)]) (editMethods
    (fun id => !((kidsOf doc "authentication" ++ kidsOf doc "assertionMethod").eraseDups).contains id
      || (kidsOf doc "keyAgreement").contains id) (newMethod didId signing) doc)

theorem rotateSigning_fst : (rotateSigning doc didId signing).1 =
    if (member (signingBase doc didId signing) "assertionMethod").isSome then
      Json.setMember "assertionMethod" (.arr [.str (newKid didId signing)])
        (signingBase doc didId signing)
    else signingBase doc didId signing := rfl

theorem member_signingBase (hmethods : key ≠ "verificationMethod") (hauth : key ≠ "authentication") :
    member (signingBase doc didId signing) key = member doc key :=
  (member_setMember_ne hauth _ _).trans (member_editMethods hmethods)

theorem member_rotateSigning (hmethods : key ≠ "verificationMethod")
    (hauth : key ≠ "authentication") (hassert : key ≠ "assertionMethod") :
    member (rotateSigning doc didId signing).1 key = member doc key := by
  rw [rotateSigning_fst]
  split
  · rw [member_setMember_ne hassert, member_signingBase hmethods hauth]
  · exact member_signingBase hmethods hauth

theorem methods_rotateSigning : member (rotateSigning doc didId signing).1 "verificationMethod" =
    member (editMethods (fun id =>
      !((kidsOf doc "authentication" ++ kidsOf doc "assertionMethod").eraseDups).contains id ||
        (kidsOf doc "keyAgreement").contains id) (newMethod didId signing) doc)
      "verificationMethod" := by
  rw [rotateSigning_fst]
  split
  · rw [member_setMember_ne (by decide)]
    exact member_setMember_ne (by decide) _ _
  · exact member_setMember_ne (by decide) _ _

theorem mem_rotateSigning : x ∈ methodsOf (rotateSigning doc didId signing).1 ↔
    HasMethods doc ∧ (x = newMethod didId signing ∨ x ∈ methodsOf doc ∧
      (methodId x).all (fun id =>
        !((kidsOf doc "authentication").contains id || (kidsOf doc "assertionMethod").contains id) ||
          (kidsOf doc "keyAgreement").contains id) = true) := by
  have hkeep : (fun id =>
      !((kidsOf doc "authentication" ++ kidsOf doc "assertionMethod").eraseDups).contains id ||
        (kidsOf doc "keyAgreement").contains id) = fun id =>
      !((kidsOf doc "authentication").contains id || (kidsOf doc "assertionMethod").contains id) ||
        (kidsOf doc "keyAgreement").contains id := by
    funext id
    have hmem : ((kidsOf doc "authentication" ++ kidsOf doc "assertionMethod").eraseDups).contains id =
        ((kidsOf doc "authentication").contains id ||
          (kidsOf doc "assertionMethod").contains id) := by
      rw [Bool.eq_iff_iff]
      simp [List.mem_eraseDups]
    rw [hmem]
  rw [methodsOf_congr methods_rotateSigning, mem_methodsOf_editMethods, hkeep]

theorem authentication_rotateSigning :
    member (rotateSigning doc didId signing).1 "authentication" =
      some (.arr [.str (newKid didId signing)]) := by
  rw [rotateSigning_fst]
  split
  · rw [member_setMember_ne (by decide)]
    exact member_setMember_self _ _ _
  · exact member_setMember_self _ _ _

theorem assertionMethod_rotateSigning :
    member (rotateSigning doc didId signing).1 "assertionMethod" =
      (member doc "assertionMethod").map fun _ => .arr [.str (newKid didId signing)] := by
  rw [rotateSigning_fst, member_signingBase (by decide) (by decide)]
  cases hassert : member doc "assertionMethod" with
  | none =>
      rw [if_neg (by simp), member_signingBase (by decide) (by decide), hassert]
      rfl
  | some value =>
      rw [if_pos Option.isSome_some, member_setMember_self]
      rfl

/-! ## The rotated document -/

theorem rotateDocument_both : rotateDocument .both didId ka signing doc =
    (rotateSigning (rotateKeyAgreement doc didId ka).1 didId signing).1 := rfl

/-- The methods behind a rotation: those it adds, and those whose key it does not remove. -/
theorem mem_rotateDocument :
    x ∈ methodsOf (rotateDocument which didId ka signing doc) ↔ HasMethods doc ∧
      (x ∈ installed which didId ka signing ∨ x ∈ methodsOf doc ∧
        (methodId x).all (fun kid => !removes which didId ka doc kid) = true) := by
  cases which with
  | keyAgreement =>
      refine mem_rotateKeyAgreement.trans (and_congr_right fun _ => or_congr ?_ ?_)
      · exact (List.mem_singleton).symm
      · simp [removes, RotateKeys.rotatesKa, RotateKeys.rotatesSigning]
  | signing =>
      refine mem_rotateSigning.trans (and_congr_right fun _ => or_congr ?_ ?_)
      · exact (List.mem_singleton).symm
      · simp [removes, RotateKeys.rotatesKa, RotateKeys.rotatesSigning]
  | both =>
      have hauth : kidsOf (rotateKeyAgreement doc didId ka).1 "authentication" =
          kidsOf doc "authentication" :=
        kidsOf_congr (member_rotateKeyAgreement (by decide) (by decide))
      have hassert : kidsOf (rotateKeyAgreement doc didId ka).1 "assertionMethod" =
          kidsOf doc "assertionMethod" :=
        kidsOf_congr (member_rotateKeyAgreement (by decide) (by decide))
      have hka : kidsOf (rotateKeyAgreement doc didId ka).1 "keyAgreement" = [newKid didId ka] :=
        kidsOf_single keyAgreement_rotateKeyAgreement
      have hnew : methodId (newMethod didId ka) = some (newKid didId ka) := rfl
      rw [rotateDocument_both, mem_rotateSigning, hauth, hassert, hka, hasMethods_rotateKeyAgreement, mem_rotateKeyAgreement]
      refine and_congr_right fun hmethods => ?_
      by_cases hx : x = newMethod didId ka
      · -- the second removal keeps the method that the first one has added
        have hinstalled : x ∈ installed .both didId ka signing := hx ▸ List.mem_cons_self
        refine ⟨fun _ => .inl hinstalled, fun _ => .inr ⟨⟨hmethods, .inl hx⟩, ?_⟩⟩
        simp [hx, hnew]
      · have hinstalled : x ∈ installed .both didId ka signing ↔ x = newMethod didId signing := by
          simp [installed, RotateKeys.rotatesKa, RotateKeys.rotatesSigning, hx]
        rw [hinstalled, and_iff_right hmethods, or_iff_right hx, and_assoc]
        refine or_congr Iff.rfl (and_congr_right fun _ => ?_)
        cases hid : methodId x with
        | none => simp
        | some kid => simp [removes, RotateKeys.rotatesKa, RotateKeys.rotatesSigning]

theorem member_rotateDocument (hmethods : key ≠ "verificationMethod")
    (hkey : which.rotates key = false) :
    member (rotateDocument which didId ka signing doc) key = member doc key := by
  cases which with
  | keyAgreement =>
      have hka : key ≠ "keyAgreement" := by
        rintro rfl
        contradiction
      exact member_rotateKeyAgreement hmethods hka
  | signing =>
      have hauth : key ≠ "authentication" := by
        rintro rfl
        contradiction
      have hassert : key ≠ "assertionMethod" := by
        rintro rfl
        contradiction
      exact member_rotateSigning hmethods hauth hassert
  | both =>
      have hka : key ≠ "keyAgreement" := by
        rintro rfl
        contradiction
      have hauth : key ≠ "authentication" := by
        rintro rfl
        contradiction
      have hassert : key ≠ "assertionMethod" := by
        rintro rfl
        contradiction
      exact (member_rotateSigning hmethods hauth hassert).trans
        (member_rotateKeyAgreement hmethods hka)

theorem keyAgreement_rotateDocument (h : which.rotatesKa = true) :
    member (rotateDocument which didId ka signing doc) "keyAgreement" =
      some (.arr [.str (newKid didId ka)]) := by
  cases which with
  | keyAgreement => exact keyAgreement_rotateKeyAgreement
  | signing => contradiction
  | both =>
      exact (member_rotateSigning (by decide) (by decide) (by decide)).trans
        keyAgreement_rotateKeyAgreement

theorem authentication_rotateDocument (h : which.rotatesSigning = true) :
    member (rotateDocument which didId ka signing doc) "authentication" =
      some (.arr [.str (newKid didId signing)]) := by
  cases which with
  | keyAgreement => contradiction
  | signing => exact authentication_rotateSigning
  | both => exact authentication_rotateSigning

theorem assertionMethod_rotateDocument (h : which.rotatesSigning = true) :
    member (rotateDocument which didId ka signing doc) "assertionMethod" =
      (member doc "assertionMethod").map fun _ => .arr [.str (newKid didId signing)] := by
  cases which with
  | keyAgreement => contradiction
  | signing => exact assertionMethod_rotateSigning
  | both =>
      have hsame : member (rotateKeyAgreement doc didId ka).1 "assertionMethod" =
          member doc "assertionMethod" := member_rotateKeyAgreement (by decide) (by decide)
      rw [rotateDocument_both, assertionMethod_rotateSigning, hsame]

/-- A relationship that is rotated names the new key, whose method is added. -/
theorem resolves_of_rotates {kid : String} (hrotates : which.rotates rel = true)
    (hkid : kid ∈ kidsOf (rotateDocument which didId ka signing doc) rel)
    (hmethods : HasMethods doc) : Resolves (rotateDocument which didId ka signing doc) kid := by
  have hadded : ∀ multibase, newMethod didId multibase ∈ installed which didId ka signing →
      Resolves (rotateDocument which didId ka signing doc) (newKid didId multibase) :=
    fun multibase hmem => ⟨_, mem_rotateDocument.mpr ⟨hmethods, .inl hmem⟩, rfl⟩
  rcases Bool.or_eq_true_iff.mp hrotates with hka | hsigning
  · obtain ⟨hwhich, hrel⟩ := Bool.and_eq_true_iff.mp hka
    obtain rfl : rel = "keyAgreement" := by simpa using hrel
    rw [kidsOf_single (keyAgreement_rotateDocument hwhich), List.mem_singleton] at hkid
    subst hkid
    exact hadded ka (by simp [installed, hwhich])
  · obtain ⟨hwhich, hrel⟩ := Bool.and_eq_true_iff.mp hsigning
    have hnew : newMethod didId signing ∈ installed which didId ka signing := by
      simp [installed, hwhich]
    rcases Bool.or_eq_true_iff.mp hrel with hauth | hassert
    · obtain rfl : rel = "authentication" := by simpa using hauth
      rw [kidsOf_single (authentication_rotateDocument hwhich), List.mem_singleton] at hkid
      subst hkid
      exact hadded signing hnew
    · obtain rfl : rel = "assertionMethod" := by simpa using hassert
      have hmember : member (rotateDocument which didId ka signing doc) "assertionMethod" =
          (member doc "assertionMethod").map fun _ => .arr [.str (newKid didId signing)] :=
        assertionMethod_rotateDocument hwhich
      cases hold : member doc "assertionMethod" with
      | none =>
          rw [hold] at hmember
          rw [kidsOf, hmember] at hkid
          contradiction
      | some value =>
          rw [hold] at hmember
          rw [kidsOf_single hmember, List.mem_singleton] at hkid
          subst hkid
          exact hadded signing hnew

/-- A method whose key a relationship names that is not rotated is kept where no such key is
removed. -/
theorem kept_of_noSharedKey {kid : String} (h : NoSharedKey which didId ka signing doc)
    (hrel : rel ∈ relationships) (hrotates : which.rotates rel = false)
    (hkid : kid ∈ kidsOf doc rel) (hmethod : method ∈ methodsOf doc)
    (hid : methodId method = some kid) :
    method ∈ methodsOf (rotateDocument which didId ka signing doc) := by
  refine mem_rotateDocument.mpr ⟨hasMethods_of_mem hmethod, ?_⟩
  cases hremoves : removes which didId ka doc kid with
  | true => exact .inl (h rel hrel hrotates kid hkid method hmethod hid hremoves)
  | false =>
      refine .inr ⟨hmethod, ?_⟩
      rw [hid]
      simp [hremoves]

end

end Identity

open Identity

/-- A rotation gives a consistent document, otherwise unchanged, exactly where no key is
removed that a relationship it does not rotate names. -/
theorem rotated_well_iff (which : RotateKeys) (didId ka signing : String) (doc : DidDocument) :
    RotatedWell which didId ka signing doc (rotateDocument which didId ka signing doc) ↔
      NoSharedKey which didId ka signing doc := by
  constructor
  · intro h rel hrel hrotates kid hkid method hmethod hid hremoves
    have hkept := h.keeps rel hrel hrotates kid hkid method hmethod hid
    rcases (mem_rotateDocument.mp hkept).2 with hadded | ⟨-, hkeep⟩
    · exact hadded
    · rw [hid] at hkeep
      simp [hremoves] at hkeep
  · intro h
    have hunchanged : ∀ key ≠ "verificationMethod", which.rotates key = false →
        member (rotateDocument which didId ka signing doc) key = member doc key :=
      fun key hmethods hkey => member_rotateDocument hmethods hkey
    refine ⟨?_, keyAgreement_rotateDocument, authentication_rotateDocument,
      assertionMethod_rotateDocument, ?_, ?_, hunchanged⟩
    · rintro rel hrel kid hkid ⟨method, hmethod, hid⟩
      cases hrotates : which.rotates rel with
      | true => exact resolves_of_rotates hrotates hkid (hasMethods_of_mem hmethod)
      | false =>
          have hother : rel ≠ "verificationMethod" := by
            rintro rfl
            exact absurd hrel (by decide)
          rw [kidsOf_congr (hunchanged rel hother hrotates)] at hkid
          exact ⟨method, kept_of_noSharedKey h hrel hrotates hkid hmethod hid, hid⟩
    · intro rel hrel hrotates kid hkid method hmethod hid
      exact kept_of_noSharedKey h hrel hrotates hkid hmethod hid
    · intro method hmethod
      rcases (mem_rotateDocument.mp hmethod).2 with hadded | ⟨hold, -⟩
      · exact .inr hadded
      · exact .inl hold

/-- A key of `authentication` and `keyAgreement` loses its method when the second is
rotated. -/
theorem shared_key_dangles :
    ¬ ∀ (which : RotateKeys) (didId ka signing : String) (doc : DidDocument),
      RotatedWell which didId ka signing doc (rotateDocument which didId ka signing doc) := by
  intro hclaim
  let shared := "did:webvh:s:h.io#z6Mk"
  let doc : DidDocument := [("id", .str "did:webvh:s:h.io"),
    ("authentication", .arr [.str shared]), ("keyAgreement", .arr [.str shared]),
    ("verificationMethod", .arr [.obj [("id", .str shared)]])]
  have hwell := hclaim .keyAgreement "did:webvh:s:h.io" "z6LS" "" doc
  have hresolved : Resolves doc shared := ⟨.obj [("id", .str shared)], List.mem_cons_self, rfl⟩
  obtain ⟨method, hmethod, hid⟩ := hwell.resolves "authentication" (by decide) shared
    List.mem_cons_self hresolved
  obtain rfl : method = newMethod "did:webvh:s:h.io" "z6LS" := List.mem_singleton.mp hmethod
  have hsame : newKid "did:webvh:s:h.io" "z6LS" = shared := Option.some.inj hid
  exact absurd hsame (by decide +kernel)

end DidHosting
