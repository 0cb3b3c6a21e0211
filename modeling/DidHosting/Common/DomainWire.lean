import Mathlib.Algebra.Group.Int.Defs
import DidHosting.Common.Domain

/-!
# Domain entries on the wire

The control plane sends a domain entry in the shared shape of the `did-management`
specifications, and a replica reads it back.  Times travel as date-times, and the
host's own settings under its extension key.  What is sent is what is read, for the
entries that keep their timers with their state and whose times a date-time can hold.
-/

namespace DidHosting

/-- The libraries that the wire shape uses. -/
structure WireLibs extends Libs where
  /-- A `chrono::DateTime<Utc>` of a timestamp, serialized. -/
  dateTime : ℤ → String
  /-- `DateTime::parse_from_rfc3339`, reduced to the timestamp. -/
  parseFromRfc3339 : String → Except String ℤ
  /-- The error text of `serde_json::from_value` for a value of another shape. -/
  malformed : Json → String
  /-- The payload of `replica/domain/upsert` read through its generated type; its entry,
  written again. -/
  upsertEntry : Json → Except String Json

def webvhExtKey : String := "vnd.affinidi.webvh"

/-! ## Writing -/

/-- A member that is there when its value is. -/
def optMember (key : String) : Option Json → List (String × Json)
  | some v => [(key, v)]
  | none => []

def asI64 (secs : ℕ) : ℤ :=
  if secs % 2 ^ 64 < 2 ^ 63 then secs % 2 ^ 64 else secs % 2 ^ 64 - 2 ^ 64

/-- `at`: the timestamp, or the epoch when no date-time has it. -/
def timestampAt (secs : ℕ) : ℤ :=
  if -8334601228800 ≤ asI64 secs ∧ asI64 secs ≤ 8210266876799 then asI64 secs else 0

/-- `DomainStatus` on the wire. -/
def DomainStatus.toText : DomainStatus → String
  | .active => "active"
  | .disabled => "disabled"

/-- The serialization of a `DomainUrlScheme`. -/
def DomainUrlScheme.toText : DomainUrlScheme → String
  | .https => "https"
  | .http => "http"

/-- The serialization of a `DomainBranding`. -/
def DomainBranding.toJson (b : DomainBranding) : Json :=
  .obj (optMember "display_name" (b.displayName.map .str) ++
    optMember "logo_url" (b.logoUrl.map .str) ++ optMember "tos_url" (b.tosUrl.map .str) ++
      optMember "contact_email" (b.contactEmail.map .str))

/-- A `u64` as a JSON number. -/
def Json.ofNat (n : ℕ) : Json := .num (.posInt n)

/-- The serialization of a `DomainQuota`. -/
def DomainQuota.toJson (q : DomainQuota) : Json :=
  .obj (optMember "max_dids_in_domain" (q.maxDidsInDomain.map .ofNat) ++
    optMember "max_total_size_in_domain" (q.maxTotalSizeInDomain.map .ofNat))

/-- A list of strings as a JSON array. -/
def Json.ofStrings (l : List String) : Json := .arr (l.map .str)

section Write

variable (W : WireLibs)

def timeJson (secs : ℕ) : Json := .str (W.dateTime (timestampAt secs))

/-- The host's settings of a domain. -/
def hostSettings (entry : DomainEntry) : List (String × Json) :=
  [("scheme", .str entry.scheme.toText), ("wellKnownEnabled", .bool entry.wellKnownEnabled)] ++
    optMember "branding" (entry.branding.map DomainBranding.toJson) ++
      optMember "witnesses" (entry.witnesses.map .ofStrings) ++
        optMember "watchers" (entry.watchers.map .ofStrings) ++
          optMember "quota" (entry.quota.map DomainQuota.toJson)

/-- The timers of a disabled domain. -/
def timerMembers (entry : DomainEntry) : List (String × Json) :=
  match entry.status with
  | .active => []
  | .disabled =>
      optMember "disabledAt" (entry.disabledAt.map (timeJson W)) ++
        optMember "purgeAt" (entry.purgeAt.map (timeJson W))

def toSpec (entry : DomainEntry) : Json :=
  .obj ([("name", .str entry.name)] ++ optMember "label" (entry.label.map .str) ++
    [("status", .str entry.status.toText), ("defaultDomain", .bool entry.defaultDomain),
      ("createdAt", timeJson W entry.createdAt)] ++ timerMembers W entry ++
        [("ext", .obj [(webvhExtKey, .obj (hostSettings entry))])])

end Write

/-! ## Reading -/

section Read

variable (W : WireLibs)

/-- `secs`: the time under `member`, if any. -/
def readSecs (value : Json) (member : String) : Except String (Option ℕ) :=
  match value.get member with
  | none => .ok none
  | some .null => .ok none
  | some v =>
      match v.asStr with
      | none => .error s!"`{member}` is not a date-time"
      | some text =>
          match W.parseFromRfc3339 text with
          | .error e => .error s!"`{member}` is not a date-time: {e}"
          | .ok t => .ok (some (max t 0).toNat)

def hostSetting {α : Type} (read : Json → Except String α) (host : Json) (member : String) :
    Except String (Option α) :=
  match host.get member with
  | none => .ok none
  | some .null => .ok none
  | some v =>
      match read v with
      | .ok a => .ok (some a)
      | .error e => .error s!"`ext.{webvhExtKey}.{member}` is malformed: {e}"

/-- A value of one shape, as `serde_json::from_value` reads it. -/
def readAs {α : Type} (shape : Json → Option α) (v : Json) : Except String α :=
  match shape v with
  | some a => .ok a
  | none => .error (W.malformed v)

/-- A `DomainUrlScheme`. -/
def schemeOf : Json → Option DomainUrlScheme
  | .str "https" => some .https
  | .str "http" => some .http
  | _ => none

/-- A `Vec<String>`. -/
def stringsOf : Json → Option (List String)
  | .arr items => items.mapM Json.asStr
  | _ => none

/-- A member with a default: absent, null or of the given shape. -/
def memberOf {α : Type} (shape : Json → Option α) (v : Json) (key : String) :
    Option (Option α) :=
  match v.get key with
  | none => some none
  | some .null => some none
  | some m => (shape m).map some

def brandingOf (v : Json) : Option DomainBranding :=
  match v with
  | .obj _ => do
      let displayName ← memberOf Json.asStr v "display_name"
      let logoUrl ← memberOf Json.asStr v "logo_url"
      let tosUrl ← memberOf Json.asStr v "tos_url"
      let contactEmail ← memberOf Json.asStr v "contact_email"
      return ⟨displayName, logoUrl, tosUrl, contactEmail⟩
  | _ => none

def quotaOf (v : Json) : Option DomainQuota :=
  match v with
  | .obj _ => do
      let maxDids ← memberOf Json.asU64 v "max_dids_in_domain"
      let maxTotalSize ← memberOf Json.asU64 v "max_total_size_in_domain"
      return ⟨maxDids, maxTotalSize⟩
  | _ => none

/-- `Some("…")` or `None`, as `{:?}` prints them. -/
def debugText : Option String → String
  | some s => s!"Some({s.quote})"
  | none => "None"

/-- The status of an entry on the wire. -/
def readStatus (value : Json) : Except String DomainStatus :=
  match (value.get "status").bind Json.asStr with
  | some "active" => .ok .active
  | some "disabled" => .ok .disabled
  | other => .error s!"`status` {debugText other} is not active or disabled"

/-- The value of a required member. -/
def required {α : Type} (member : String) : Option α → Except String α
  | some a => .ok a
  | none => .error s!"`{member}` is missing"

def fromSpec (value : Json) : Except String DomainEntry := do
  let name ← required "name" ((value.get "name").bind Json.asStr)
  let status ← readStatus value
  let createdAt ← required "createdAt" (← readSecs W value "createdAt")
  let host := ((value.get "ext").bind (Json.get webvhExtKey)).getD .null
  let scheme ← hostSetting (readAs W schemeOf) host "scheme"
  let wellKnownEnabled ← hostSetting (readAs W Json.asBool) host "wellKnownEnabled"
  let branding ← hostSetting (readAs W brandingOf) host "branding"
  let witnesses ← hostSetting (readAs W stringsOf) host "witnesses"
  let watchers ← hostSetting (readAs W stringsOf) host "watchers"
  let quota ← hostSetting (readAs W quotaOf) host "quota"
  let disabledAt ← readSecs W value "disabledAt"
  let purgeAt ← readSecs W value "purgeAt"
  return {
    name := name
    label := (value.get "label").bind Json.asStr
    scheme := scheme.getD .https
    status := status
    createdAt := createdAt
    defaultDomain := ((value.get "defaultDomain").bind Json.asBool).getD false
    branding := branding
    witnesses := witnesses
    watchers := watchers
    quota := quota
    wellKnownEnabled := wellKnownEnabled.getD false
    disabledAt := disabledAt
    purgeAt := purgeAt }

end Read

/-! ## What is sent is what is read -/

/-- The first time a date-time on the wire cannot hold: the year 10000. -/
def endOfTime : ℕ := 253402300800

/-- What the documentation of the date-time library says of the times before it. -/
def TimesReadBack (W : WireLibs) : Prop :=
  ∀ t : ℕ, t < endOfTime → W.parseFromRfc3339 (W.dateTime t) = .ok (t : ℤ)

/-- Only a disabled domain has timers, and every time is one a date-time can hold. -/
structure DomainEntry.Tidy (entry : DomainEntry) : Prop where
  timers : entry.status = .active → entry.disabledAt = none ∧ entry.purgeAt = none
  createdAt : entry.createdAt < endOfTime
  disabledAt : ∀ t ∈ entry.disabledAt, t < endOfTime
  purgeAt : ∀ t ∈ entry.purgeAt, t < endOfTime

/-! ### Members -/

theorem get_nil (key : String) : (Json.obj []).get key = none := rfl

theorem get_cons (key k : String) (v : Json) (members : List (String × Json)) :
    (Json.obj ((k, v) :: members)).get key =
      if k = key then some v else (Json.obj members).get key := by
  unfold Json.get
  by_cases h : k = key
  · simp [h]
  · simp [h]

theorem get_optMember (key k : String) (v : Option Json) (members : List (String × Json)) :
    (Json.obj (optMember k v ++ members)).get key =
      if k = key then v.or ((Json.obj members).get key) else (Json.obj members).get key := by
  cases v with
  | none =>
      unfold optMember
      rw [List.nil_append, Option.none_or, ite_self]
  | some v =>
      unfold optMember
      rw [List.cons_append, List.nil_append, get_cons, Option.some_or]

theorem get_optMember_last (key k : String) (v : Option Json) :
    (Json.obj (optMember k v)).get key = if k = key then v else none := by
  have h := get_optMember key k v []
  rw [List.append_nil] at h
  rw [h]
  unfold Json.get
  simp

theorem memberOf_map {α : Type} {shape : Json → Option α} {toJson : α → Json}
    (hshape : ∀ a, shape (toJson a) = some a) (hnull : ∀ a, toJson a ≠ .null)
    {v : Json} {key : String} {o : Option α} (hget : v.get key = o.map toJson) :
    memberOf shape v key = some o := by
  unfold memberOf
  rw [hget]
  cases o with
  | none => rfl
  | some a =>
      rw [Option.map_some]
      cases hjson : toJson a with
      | null => exact absurd hjson (hnull a)
      | _ => simp only [← hjson, hshape, Option.map_some]

theorem str_ne_null (s : String) : Json.str s ≠ .null := nofun

theorem ofNat_ne_null (n : ℕ) : Json.ofNat n ≠ .null := nofun

theorem brandingOf_toJson (b : DomainBranding) : brandingOf b.toJson = some b := by
  have hname : b.toJson.get "display_name" = b.displayName.map .str := by
    simp [DomainBranding.toJson, get_optMember, get_optMember_last, List.append_assoc]
  have hlogo : b.toJson.get "logo_url" = b.logoUrl.map .str := by
    simp [DomainBranding.toJson, get_optMember, get_optMember_last, List.append_assoc]
  have htos : b.toJson.get "tos_url" = b.tosUrl.map .str := by
    simp [DomainBranding.toJson, get_optMember, get_optMember_last, List.append_assoc]
  have hemail : b.toJson.get "contact_email" = b.contactEmail.map .str := by
    simp [DomainBranding.toJson, get_optMember, get_optMember_last, List.append_assoc]
  have hstr : ∀ s, Json.asStr (.str s) = some s := fun _ => rfl
  have hread : brandingOf b.toJson = (do
      let displayName ← memberOf Json.asStr b.toJson "display_name"
      let logoUrl ← memberOf Json.asStr b.toJson "logo_url"
      let tosUrl ← memberOf Json.asStr b.toJson "tos_url"
      let contactEmail ← memberOf Json.asStr b.toJson "contact_email"
      return ⟨displayName, logoUrl, tosUrl, contactEmail⟩) := rfl
  rw [hread, memberOf_map hstr str_ne_null hname, memberOf_map hstr str_ne_null hlogo,
    memberOf_map hstr str_ne_null htos, memberOf_map hstr str_ne_null hemail]
  rfl

theorem quotaOf_toJson (q : DomainQuota) : quotaOf q.toJson = some q := by
  have hdids : q.toJson.get "max_dids_in_domain" = q.maxDidsInDomain.map .ofNat := by
    simp [DomainQuota.toJson, get_optMember, get_optMember_last]
  have hsize : q.toJson.get "max_total_size_in_domain" = q.maxTotalSizeInDomain.map .ofNat := by
    simp [DomainQuota.toJson, get_optMember, get_optMember_last]
  have hnat : ∀ n, Json.asU64 (.ofNat n) = some n := fun _ => rfl
  have hread : quotaOf q.toJson = (do
      let maxDids ← memberOf Json.asU64 q.toJson "max_dids_in_domain"
      let maxTotalSize ← memberOf Json.asU64 q.toJson "max_total_size_in_domain"
      return ⟨maxDids, maxTotalSize⟩) := rfl
  rw [hread, memberOf_map hnat ofNat_ne_null hdids, memberOf_map hnat ofNat_ne_null hsize]
  rfl

theorem stringsOf_ofStrings (l : List String) : stringsOf (.ofStrings l) = some l := by
  have hmap : (l.map Json.str).mapM Json.asStr = some l := by
    induction l with
    | nil => rfl
    | cons s l ih =>
        rw [List.map_cons, List.mapM_cons, ih]
        rfl
  exact hmap

theorem schemeOf_toText (scheme : DomainUrlScheme) : schemeOf (.str scheme.toText) = some scheme := by
  cases scheme <;> rfl

theorem hostSetting_map {W : WireLibs} {α : Type} {shape : Json → Option α} {toJson : α → Json}
    (hshape : ∀ a, shape (toJson a) = some a) (hnull : ∀ a, toJson a ≠ .null)
    {host : Json} {member : String} {o : Option α} (hget : host.get member = o.map toJson) :
    hostSetting (readAs W shape) host member = .ok o := by
  unfold hostSetting
  rw [hget]
  cases o with
  | none => rfl
  | some a =>
      rw [Option.map_some]
      have hread : readAs W shape (toJson a) = .ok a := by
        unfold readAs
        rw [hshape]
      cases hjson : toJson a with
      | null => exact absurd hjson (hnull a)
      | _ => simp only [← hjson, hread]

/-! ### Times -/

theorem timestampAt_of_lt {t : ℕ} (h : t < endOfTime) : timestampAt t = t := by
  have hbound : t < 253402300800 := h
  have hi64 : asI64 t = t := by
    unfold asI64
    have hmod : t % 2 ^ 64 = t := Nat.mod_eq_of_lt (by omega)
    have hcast : (t : ℤ) % 2 ^ 64 = t := by exact_mod_cast congrArg Nat.cast hmod
    rw [hmod, if_pos (by omega), hcast]
  unfold timestampAt
  rw [hi64, if_pos (by omega)]

theorem readSecs_map {W : WireLibs} (hW : TimesReadBack W) {value : Json} {member : String}
    {o : Option ℕ} (ht : ∀ t ∈ o, t < endOfTime)
    (hget : value.get member = o.map (timeJson W)) : readSecs W value member = .ok o := by
  unfold readSecs
  rw [hget]
  cases o with
  | none => rfl
  | some t =>
      have hlt := ht t rfl
      have hparse := hW t hlt
      rw [Option.map_some]
      unfold timeJson
      rw [timestampAt_of_lt hlt]
      simp only [Json.asStr, hparse]
      rw [Int.max_eq_left (Int.natCast_nonneg t), Int.toNat_natCast]

/-! ### Entries -/

section Entry

variable (W : WireLibs) (entry : DomainEntry)

theorem get_toSpec_name : (toSpec W entry).get "name" = some (.str entry.name) := by
  unfold toSpec
  simp [get_cons]

theorem get_toSpec_label : (toSpec W entry).get "label" = entry.label.map .str := by
  unfold toSpec timerMembers
  cases entry.status <;>
    simp [get_cons, get_optMember, List.append_assoc, get_nil]

theorem get_toSpec_status :
    (toSpec W entry).get "status" = some (.str entry.status.toText) := by
  unfold toSpec
  simp [get_cons, get_optMember, List.append_assoc]

theorem get_toSpec_defaultDomain :
    (toSpec W entry).get "defaultDomain" = some (.bool entry.defaultDomain) := by
  unfold toSpec
  simp [get_cons, get_optMember, List.append_assoc]

theorem get_toSpec_createdAt :
    (toSpec W entry).get "createdAt" = (some entry.createdAt).map (timeJson W) := by
  unfold toSpec
  simp [get_cons, get_optMember, List.append_assoc]

theorem get_toSpec_ext :
    (toSpec W entry).get "ext" = some (.obj [(webvhExtKey, .obj (hostSettings entry))]) := by
  unfold toSpec timerMembers
  cases entry.status <;>
    simp [get_cons, get_optMember, List.append_assoc]

variable {entry} (h : entry.status = .active → entry.disabledAt = none ∧ entry.purgeAt = none)

include h

theorem get_toSpec_disabledAt :
    (toSpec W entry).get "disabledAt" = entry.disabledAt.map (timeJson W) := by
  unfold toSpec timerMembers
  cases hstatus : entry.status with
  | active =>
      rw [(h hstatus).1]
      simp [get_cons, get_optMember, List.append_assoc, get_nil]
  | disabled => simp [get_cons, get_optMember, List.append_assoc, get_nil]

theorem get_toSpec_purgeAt :
    (toSpec W entry).get "purgeAt" = entry.purgeAt.map (timeJson W) := by
  unfold toSpec timerMembers
  cases hstatus : entry.status with
  | active =>
      rw [(h hstatus).2]
      simp [get_cons, get_optMember, List.append_assoc, get_nil]
  | disabled => simp [get_cons, get_optMember, List.append_assoc, get_nil]

end Entry

/-- A replica reads the entry that was sent, with the times as they are read. -/
theorem fromSpec_eq {W : WireLibs} {entry : DomainEntry} {createdAt : ℕ}
    {disabledAt purgeAt : Option ℕ}
    (hcreated : readSecs W (toSpec W entry) "createdAt" = .ok (some createdAt))
    (hdisabled : readSecs W (toSpec W entry) "disabledAt" = .ok disabledAt)
    (hpurge : readSecs W (toSpec W entry) "purgeAt" = .ok purgeAt) :
    fromSpec W (toSpec W entry) =
      .ok { entry with createdAt := createdAt, disabledAt := disabledAt, purgeAt := purgeAt } := by
  have hstatus : readStatus (toSpec W entry) = .ok entry.status := by
    unfold readStatus
    rw [get_toSpec_status]
    cases entry.status <;> rfl
  have hhost : (((toSpec W entry).get "ext").bind (Json.get webvhExtKey)).getD .null =
      .obj (hostSettings entry) := by
    rw [get_toSpec_ext, Option.bind_some, get_cons, if_pos rfl, Option.getD_some]
  have hscheme : hostSetting (readAs W schemeOf) (.obj (hostSettings entry)) "scheme" =
      .ok (some entry.scheme) := by
    refine hostSetting_map schemeOf_toText (fun _ => str_ne_null _) ?_
    unfold hostSettings
    simp [get_cons]
  have hwellKnown : hostSetting (readAs W Json.asBool) (.obj (hostSettings entry))
      "wellKnownEnabled" = .ok (some entry.wellKnownEnabled) := by
    have hbool : ∀ b, Json.asBool (.bool b) = some b := fun _ => rfl
    refine hostSetting_map hbool nofun ?_
    unfold hostSettings
    simp [get_cons]
  have hbranding : hostSetting (readAs W brandingOf) (.obj (hostSettings entry)) "branding" =
      .ok entry.branding := by
    refine hostSetting_map brandingOf_toJson nofun ?_
    unfold hostSettings
    simp [get_cons, get_optMember, get_optMember_last, List.append_assoc]
  have hwitnesses : hostSetting (readAs W stringsOf) (.obj (hostSettings entry)) "witnesses" =
      .ok entry.witnesses := by
    refine hostSetting_map stringsOf_ofStrings nofun ?_
    unfold hostSettings
    simp [get_cons, get_optMember, get_optMember_last, List.append_assoc]
  have hwatchers : hostSetting (readAs W stringsOf) (.obj (hostSettings entry)) "watchers" =
      .ok entry.watchers := by
    refine hostSetting_map stringsOf_ofStrings nofun ?_
    unfold hostSettings
    simp [get_cons, get_optMember, get_optMember_last, List.append_assoc]
  have hquota : hostSetting (readAs W quotaOf) (.obj (hostSettings entry)) "quota" =
      .ok entry.quota := by
    refine hostSetting_map quotaOf_toJson nofun ?_
    unfold hostSettings
    simp [get_cons, get_optMember, get_optMember_last, List.append_assoc]
  have hlabel : ((toSpec W entry).get "label").bind Json.asStr = entry.label := by
    rw [get_toSpec_label]
    cases entry.label <;> rfl
  unfold fromSpec
  simp only [get_toSpec_name, get_toSpec_defaultDomain, hstatus, hcreated, hdisabled, hpurge,
    hhost, hscheme, hwellKnown, hbranding, hwitnesses, hwatchers, hquota, hlabel, required,
    Option.bind_some, Json.asStr, Json.asBool, bind, Except.bind, Option.getD_some]
  rfl

/-- A replica reads the entry that was sent. -/
theorem fromSpec_toSpec {W : WireLibs} (hW : TimesReadBack W) {entry : DomainEntry}
    (h : entry.Tidy) : fromSpec W (toSpec W entry) = .ok entry := by
  have hcreated : readSecs W (toSpec W entry) "createdAt" = .ok (some entry.createdAt) := by
    refine readSecs_map hW ?_ (get_toSpec_createdAt W entry)
    intro t ht
    cases ht
    exact h.createdAt
  have hdisabled := readSecs_map hW h.disabledAt (get_toSpec_disabledAt W h.timers)
  have hpurge := readSecs_map hW h.purgeAt (get_toSpec_purgeAt W h.timers)
  exact fromSpec_eq hcreated hdisabled hpurge

end DidHosting
