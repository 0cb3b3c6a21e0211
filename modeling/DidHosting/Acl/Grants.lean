import DidHosting.Acl.Scopes
import DidHosting.Common.DomainWire
import DidHosting.Common.Reference

/-!
# What a grant carries

The entry of a grant comes in with more members than a stored entry has.  The members that
limit the subject are the role, the quotas and the scope of domains, which are stored, the
opaque scopes, which are refused, and the expiry, which is read and left out.
-/

namespace DidHosting.Acl

/-! ## The entry on the wire -/

/-- `SpecAclEntry` with all its members.  Times are in epoch seconds. -/
structure WireAclEntry where
  subject : String
  role : String
  scopes : List String
  label : Option String
  createdAt : Option ℤ
  createdBy : Option String
  updatedAt : Option ℤ
  updatedBy : Option String
  expiresAt : Option ℤ
  ext : Option (List (String × Json))

/-! ### Reading -/

def scopeOf (v : Json) : Option DomainScope :=
  match v.get "kind" with
  | some (.str "all") => some .all
  | some (.str "allowed") => do
      let domains ← (v.get "domains").bind stringsOf
      return .allowed domains
  | some (.str "allowed_with_default") => do
      let domains ← (v.get "domains").bind stringsOf
      let default ← (v.get "default").bind Json.asStr
      return .allowedWithDefault domains default
  | _ => none

/-- A `WebvhQuota`, which has no other members. -/
def webvhQuotaOf (v : Json) : Option (Option ℕ × Option ℕ) :=
  match v with
  | .obj members =>
      if members.all fun m => ["maxTotalSize", "maxDidCount"].contains m.1 then do
        let maxTotalSize ← memberOf Json.asU64 v "maxTotalSize"
        let maxDidCount ← memberOf Json.asU64 v "maxDidCount"
        return (maxTotalSize, maxDidCount)
      else none
  | _ => none

/-- A `WebvhAclEntryExt`, which has no other members. -/
def webvhExtOf (v : Json) : Option WebvhAclEntryExt :=
  match v with
  | .obj members =>
      if members.all fun m => ["quota", "domains"].contains m.1 then do
        let quota ← match v.get "quota" with
          | none => some (none, none)
          | some q => webvhQuotaOf q
        let domains ← (v.get "domains").bind scopeOf
        return ⟨quota.1, quota.2, domains⟩
      else none
  | _ => none

/-- The members that `into_local` reads. -/
def WireAclEntry.toSpec (W : WireLibs) (e : WireAclEntry) : SpecAclEntry where
  subject := e.subject
  role := e.role
  scopes := e.scopes
  label := e.label
  createdAt := e.createdAt
  webvh := (e.ext.bind fun ext => ext.lookup webvhExtKey).map (readAs W webvhExtOf)

/-! ### Writing -/

/-- The serialization of a `DomainScope`. -/
def scopeJson : DomainScope → Json
  | .all => .obj [("kind", .str "all")]
  | .allowed domains => .obj [("kind", .str "allowed"), ("domains", .ofStrings domains)]
  | .allowedWithDefault domains default =>
      .obj [("kind", .str "allowed_with_default"), ("domains", .ofStrings domains),
        ("default", .str default)]

/-- The serialization of a `WebvhQuota`. -/
def webvhQuotaJson (maxTotalSize maxDidCount : Option ℕ) : Json :=
  .obj (optMember "maxTotalSize" (maxTotalSize.map .ofNat) ++
    optMember "maxDidCount" (maxDidCount.map .ofNat))

/-- The serialization of a `WebvhAclEntryExt`: an empty quota is left out. -/
def webvhExtJson (w : WebvhAclEntryExt) : Json :=
  .obj (optMember "quota" (if w.maxTotalSize = none ∧ w.maxDidCount = none then none
      else some (webvhQuotaJson w.maxTotalSize w.maxDidCount)) ++
    [("domains", scopeJson w.domains)])

def epochToDatetime (secs : ℕ) : Option ℤ :=
  if secs = 0 then none
  else if -8334601228800 ≤ asI64 secs ∧ asI64 secs ≤ 8210266876799 then some (asI64 secs)
  else none

/-- `SpecAclEntry::from_local`. -/
def WireAclEntry.fromLocal (row : AclRow) : WireAclEntry where
  subject := row.did
  role := roleText row.role
  scopes := []
  label := row.label
  createdAt := epochToDatetime row.createdAt
  createdBy := none
  updatedAt := none
  updatedBy := none
  expiresAt := none
  ext := some [(webvhExtKey, webvhExtJson ⟨row.maxTotalSize, row.maxDidCount, row.domains⟩)]

/-! ## There and back -/

theorem scopeOf_scopeJson (scope : DomainScope) : scopeOf (scopeJson scope) = some scope := by
  cases scope with
  | all => rfl
  | allowed domains =>
      have hread : scopeOf (scopeJson (.allowed domains)) =
          (stringsOf (.ofStrings domains)).bind fun domains => some (.allowed domains) := rfl
      rw [hread, stringsOf_ofStrings]
      rfl
  | allowedWithDefault domains default =>
      have hread : scopeOf (scopeJson (.allowedWithDefault domains default)) =
          (stringsOf (.ofStrings domains)).bind fun domains =>
            some (.allowedWithDefault domains default) := rfl
      rw [hread, stringsOf_ofStrings]
      rfl

theorem webvhQuotaOf_webvhQuotaJson (maxTotalSize maxDidCount : Option ℕ) :
    webvhQuotaOf (webvhQuotaJson maxTotalSize maxDidCount) =
      some (maxTotalSize, maxDidCount) := by
  cases maxTotalSize with
  | none => cases maxDidCount <;> rfl
  | some size => cases maxDidCount <;> rfl

theorem webvhExtOf_webvhExtJson (w : WebvhAclEntryExt) :
    webvhExtOf (webvhExtJson w) = some w := by
  obtain ⟨maxTotalSize, maxDidCount, domains⟩ := w
  by_cases hempty : maxTotalSize = none ∧ maxDidCount = none
  · obtain ⟨rfl, rfl⟩ := hempty
    have hread : webvhExtOf (webvhExtJson ⟨none, none, domains⟩) =
        (scopeOf (scopeJson domains)).bind fun domains => some ⟨none, none, domains⟩ := rfl
    rw [hread, scopeOf_scopeJson]
    rfl
  · have hjson : webvhExtJson ⟨maxTotalSize, maxDidCount, domains⟩ =
        .obj [("quota", webvhQuotaJson maxTotalSize maxDidCount),
          ("domains", scopeJson domains)] := by
      unfold webvhExtJson
      rw [if_neg hempty]
      rfl
    have hread : webvhExtOf (.obj [("quota", webvhQuotaJson maxTotalSize maxDidCount),
          ("domains", scopeJson domains)]) =
        (webvhQuotaOf (webvhQuotaJson maxTotalSize maxDidCount)).bind fun quota =>
          (scopeOf (scopeJson domains)).bind fun domains =>
            some ⟨quota.1, quota.2, domains⟩ := rfl
    rw [hjson, hread, webvhQuotaOf_webvhQuotaJson, scopeOf_scopeJson]
    rfl

theorem parseRole_roleText (role : Role) : parseRole (roleText role) = .ok role := by
  cases role <;> rfl

/-- What comes back of an entry: all of it, with the time of creation as it was read. -/
theorem intoLocal_fromLocal (W : WireLibs) (row : AclRow) (fallback : ℕ) :
    ((WireAclEntry.fromLocal row).toSpec W).intoLocal fallback =
      .ok { row with
        createdAt := ((epochToDatetime row.createdAt).map Int.toNat).getD fallback } := by
  have hwebvh : ((WireAclEntry.fromLocal row).toSpec W).webvh =
      some (.ok ⟨row.maxTotalSize, row.maxDidCount, row.domains⟩) := by
    have hlookup : ((WireAclEntry.fromLocal row).toSpec W).webvh =
        some (readAs W webvhExtOf
          (webvhExtJson ⟨row.maxTotalSize, row.maxDidCount, row.domains⟩)) := by
      simp [WireAclEntry.toSpec, WireAclEntry.fromLocal]
    rw [hlookup]
    unfold readAs
    rw [webvhExtOf_webvhExtJson]
  have hrole : ((WireAclEntry.fromLocal row).toSpec W).role = roleText row.role := rfl
  unfold SpecAclEntry.intoLocal SpecAclEntry.webvhExt
  rw [hrole, parseRole_roleText, hwebvh]
  rfl

/-- The time of creation comes back. -/
theorem createdAt_kept_iff (createdAt fallback : ℕ) :
    ((epochToDatetime createdAt).map Int.toNat).getD fallback = createdAt ↔
      (0 < createdAt ∧ createdAt ≤ 8210266876799) ∨
        (epochToDatetime createdAt = none ∧ fallback = createdAt) := by
  by_cases hsmall : 0 < createdAt ∧ createdAt ≤ 8210266876799
  · have hmod : createdAt % 2 ^ 64 = createdAt := Nat.mod_eq_of_lt (by omega)
    have hi64 : asI64 createdAt = createdAt := by
      unfold asI64
      rw [hmod, if_pos (by omega)]
      omega
    have htime : epochToDatetime createdAt = some (createdAt : ℤ) := by
      unfold epochToDatetime
      rw [if_neg (by omega), hi64, if_pos (by omega)]
    rw [htime]
    simp [hsmall]
  · cases htime : epochToDatetime createdAt with
    | none => simp [hsmall]
    | some secs =>
        have hbound : secs ≤ 8210266876799 ∧ createdAt ≠ 0 := by
          unfold epochToDatetime at htime
          split_ifs at htime with hzero hrange
          cases htime
          exact ⟨hrange.2, hzero⟩
        simp only [Option.map_some, Option.getD_some, hsmall, reduceCtorEq, false_and, or_false,
          iff_false]
        omega

/-! ## One grant -/

section

variable {F : Framework} {V : Set AclKs} {s : AclKs}

/-- Every member of the document that limits the subject limits the stored entry, or is
absent. -/
structure GivesNoMore (W : WireLibs) (entry : WireAclEntry) (stored : AclRow) : Prop where
  role : parseRole entry.role = .ok stored.role
  limits : ∀ w, (entry.toSpec W).webvh = some (.ok w) →
    stored.maxTotalSize = w.maxTotalSize ∧ stored.maxDidCount = w.maxDidCount ∧
      stored.domains = w.domains
  scopes : entry.scopes = []
  expiry : entry.expiresAt = none

theorem proposedRow_scopes {r : GrantRequest} {proposed : AclRow}
    (h : (proposedRow F r).Yields V proposed) : r.entry.scopes = [] := by
  unfold proposedRow at h
  split at h
  · cases yields_reject.mp h
  · split_ifs at h with hdid hscopes
    · cases yields_reject.mp h
    · cases yields_reject.mp h
    · exact not_not.mp hscopes

/-- A grant that is accepted leaves the subject with the role, the quotas and the domains
that were proposed. -/
theorem grantPlan_stored {r : GrantRequest} {w : Option AclWrite} {a : Option AclRow}
    (h : (grantPlan F r).Yields {s} (w, a)) :
    r.entry.scopes = [] ∧ ∃ proposed stored, r.entry.intoLocal 0 = .ok proposed ∧
      (w.elim s fun w => AclKs.commit w s).get proposed.did = some stored ∧
      stored.role = proposed.role ∧ stored.maxTotalSize = proposed.maxTotalSize ∧
      stored.maxDidCount = proposed.maxDidCount ∧ stored.domains = proposed.domains := by
  unfold grantPlan at h
  simp only [Query.yields_bind, Query.yields_read] at h
  obtain ⟨_, -, _, -, proposed, hproposed, _, ⟨t, ht, rfl⟩, h⟩ := h
  obtain rfl : t = s := ht
  refine ⟨proposedRow_scopes hproposed, proposed, ?_⟩
  have hlocal := proposedRow_spec hproposed
  split at h
  · rename_i current hcurrent
    have hdid := AclKs.did_of_get hcurrent
    split_ifs at h with hrole hsame
    · obtain ⟨rfl, -⟩ := Prod.mk.inj (Query.yields_pure.mp h)
      refine ⟨current, hlocal, hcurrent, hrole, ?_⟩
      rw [← hsame]
      exact ⟨rfl, rfl, rfl⟩
    · obtain ⟨rfl, -⟩ := Prod.mk.inj (Query.yields_pure.mp h)
      refine ⟨mergedRow current proposed, hlocal, ?_, hrole, rfl, rfl, rfl⟩
      exact (AclKs.get_store t _ _).trans (if_pos hdid.symm)
    · cases yields_reject.mp h
  · obtain ⟨rfl, -⟩ := Prod.mk.inj (Query.yields_pure.mp h)
    refine ⟨{ proposed with createdAt := r.now }, hlocal, ?_, rfl, rfl, rfl, rfl⟩
    exact (AclKs.get_store t _ _).trans (if_pos rfl)

/-- The quotas and the domains of an entry are those of its `ext`. -/
theorem intoLocal_limits {e : SpecAclEntry} {fallback : ℕ} {row : AclRow}
    {w : WebvhAclEntryExt} (h : e.intoLocal fallback = .ok row) (hw : e.webvh = some (.ok w)) :
    row.maxTotalSize = w.maxTotalSize ∧ row.maxDidCount = w.maxDidCount ∧
      row.domains = w.domains := by
  unfold SpecAclEntry.intoLocal SpecAclEntry.webvhExt at h
  rw [hw] at h
  obtain ⟨role, -, h⟩ := bind_eq_ok h
  cases h
  exact ⟨rfl, rfl, rfl⟩

end

/-- A grant that is accepted carries the limits of its document into the stored entry
exactly when the document has no expiry.  A stored entry comes back from the wire exactly
when its time of creation has a date, or is the one that is filled in. -/
theorem grant_gives_no_more_iff (F : Framework) (W : WireLibs) :
    (∀ (s : AclKs) (issuer : Option String) (entry : WireAclEntry) (now : ℕ)
      (a : Option AclRow),
      (((AclTask.grant ⟨issuer, entry.toSpec W, now⟩).prog F).run s).1 = .ok a →
      ∃ stored,
        (((AclTask.grant ⟨issuer, entry.toSpec W, now⟩).prog F).run s).2.get entry.subject =
          some stored ∧
        (GivesNoMore W entry stored ↔ entry.expiresAt = none)) ∧
    ∀ (row : AclRow) (fallback : ℕ),
      ((WireAclEntry.fromLocal row).toSpec W).intoLocal fallback = .ok row ↔
        (0 < row.createdAt ∧ row.createdAt ≤ 8210266876799) ∨
          (epochToDatetime row.createdAt = none ∧ fallback = row.createdAt) := by
  constructor
  · intro s issuer entry now a hrun
    unfold AclTask.prog at hrun ⊢
    rw [Prog.run_planned] at hrun ⊢
    cases hplan : ((AclTask.grant ⟨issuer, entry.toSpec W, now⟩).plan F).eval s with
    | error e =>
        rw [hplan] at hrun
        cases hrun
    | ok outcome =>
        obtain ⟨w, a'⟩ := outcome
        obtain ⟨hscopes, proposed, stored, hlocal, hstored, hrole, hsize, hcount, hdomains⟩ :=
          grantPlan_stored (Query.eval_eq_ok_iff.mp hplan)
        obtain ⟨hsubject, hparsed, -⟩ := intoLocal_spec hlocal
        refine ⟨stored, ?_, fun h => h.expiry, ?_⟩
        · rw [hsubject] at hstored
          cases w <;> exact hstored
        · intro hexpiry
          refine ⟨hrole ▸ hparsed, ?_, hscopes, hexpiry⟩
          intro w hw
          rw [hsize, hcount, hdomains]
          exact intoLocal_limits hlocal hw
  · intro row fallback
    rw [intoLocal_fromLocal, Except.ok.injEq, ← createdAt_kept_iff]
    constructor
    · intro h
      exact congrArg AclRow.createdAt h
    · intro h
      rw [h]

namespace Sample

/-- Libraries that do not read any time. -/
def wire : WireLibs where
  toLibs := Reference.libs
  dateTime _ := "1970-01-01T00:00:00Z"
  parseFromRfc3339 _ := .error "input contains invalid characters"
  malformed _ := "invalid type"
  upsertEntry _ := .error "invalid type"

/-- An Owner of one domain for a limited time. -/
def visitor (expiresAt : Option ℤ) : WireAclEntry where
  subject := "did:o"
  role := "owner"
  scopes := []
  label := none
  createdAt := none
  createdBy := none
  updatedAt := none
  updatedBy := none
  expiresAt := expiresAt
  ext := some [(webvhExtKey, webvhExtJson ⟨none, some 5, .allowed ["h.io"]⟩)]

/-- The grant of the visitor by the first of two Admins. -/
def admission (W : WireLibs) (expiresAt : Option ℤ) : AclTask :=
  .grant ⟨some "did:a", (visitor expiresAt).toSpec W, 2⟩

/-- What is stored for the visitor. -/
def admitted : AclRow :=
  { entry "did:o" .owner (.allowed ["h.io"]) with maxDidCount := some 5, createdAt := 2 }

theorem run_admission (expiresAt : Option ℤ) :
    (((admission wire expiresAt).prog framework).run twoAdmins).1 = .ok (some admitted) := by
  have hrun : (((admission wire none).prog framework).run twoAdmins).1.toOption =
      some (some admitted) := by
    decide +kernel
  have hsame : (((admission wire expiresAt).prog framework).run twoAdmins).1 =
      (((admission wire none).prog framework).run twoAdmins).1 := rfl
  rw [hsame]
  cases hok : (((admission wire none).prog framework).run twoAdmins).1 with
  | error e =>
      rw [hok] at hrun
      contradiction
  | ok a =>
      rw [hok] at hrun
      exact congrArg Except.ok (Option.some.inj hrun)

end Sample

open DidHosting.Acl.Sample in
/-- A grant without an expiry, and the entry it stores. -/
theorem grant_gives_no_more_sample :
    (∃ stored,
      (((admission wire none).prog framework).run twoAdmins).2.get "did:o" =
          some stored ∧
        (GivesNoMore wire (visitor none) stored ↔ (none : Option ℤ) = none)) ∧
      (((WireAclEntry.fromLocal admitted).toSpec wire).intoLocal 0 = .ok admitted ↔
        (0 < 2 ∧ 2 ≤ 8210266876799) ∨ (epochToDatetime 2 = none ∧ 0 = 2)) :=
  ⟨(grant_gives_no_more_iff framework wire).1 twoAdmins (some "did:a")
      (visitor none) 2 (some admitted) (run_admission none),
    (grant_gives_no_more_iff framework wire).2 admitted 0⟩

open DidHosting.Acl.Sample in
/-- A grant with an expiry is accepted, and what is stored is the same; an entry with a time
of creation that has no date comes back with the one that is filled in. -/
theorem expiry_left_out :
    (((admission wire (some 100)).prog framework).run twoAdmins).1 =
        .ok (some admitted) ∧
      ¬ GivesNoMore wire (visitor (some 100)) admitted ∧
      ((WireAclEntry.fromLocal { admitted with createdAt := 0 }).toSpec
        wire).intoLocal 2 = .ok admitted := by
  refine ⟨run_admission (some 100), ?_, ?_⟩
  · intro h
    exact absurd h.expiry (by decide)
  · rw [intoLocal_fromLocal]
    rfl

end DidHosting.Acl
