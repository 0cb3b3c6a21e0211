import DidHosting.Replication.DomainUpserts

/-!
# Purge times on both sides

A disabled domain is sent with its disable and purge times, and an edge schedules the
purge for the difference of the two times it reads.  Date-times have four digits for the
year: a later time is refused, or, behind the last date-time the library has, sent as the
epoch, and the purge is then due at once.  The two sides agree exactly when the purge time
lies before the year 10000.
-/

namespace DidHosting

/-! ## Date-times -/

/-- The first second of the year 0. -/
def startOfTime : ℤ := -62167219200

/-- The timestamps of the years 0 to 9999. -/
def FourDigitYear (t : ℤ) : Prop := startOfTime ≤ t ∧ t < endOfTime

instance (t : ℤ) : Decidable (FourDigitYear t) :=
  inferInstanceAs (Decidable (startOfTime ≤ t ∧ t < endOfTime))

/-- What the documentation of the date-time library says of the timestamps it has:
RFC 3339 writes the year with four digits, and a date-time of another year is refused. -/
structure Rfc3339 (W : WireLibs) : Prop where
  reads : ∀ t, FourDigitYear t → W.parseFromRfc3339 (W.dateTime t) = .ok t
  refuses : ∀ t, -8334601228800 ≤ t → t ≤ 8210266876799 → ¬FourDigitYear t →
    ∃ e, W.parseFromRfc3339 (W.dateTime t) = .error e

/-- The time is sent as a date-time that can be read. -/
def OnWire (secs : ℕ) : Prop := FourDigitYear (timestampAt secs)

instance (secs : ℕ) : Decidable (OnWire secs) :=
  inferInstanceAs (Decidable (FourDigitYear (timestampAt secs)))

theorem timestampAt_bounds (secs : ℕ) :
    -8334601228800 ≤ timestampAt secs ∧ timestampAt secs ≤ 8210266876799 := by
  unfold timestampAt
  split
  · assumption
  · omega

section Times

variable {W : WireLibs} (hW : Rfc3339 W) {value : Json} {member : String}
include hW

theorem Rfc3339.timesReadBack : TimesReadBack W := by
  intro t ht
  refine hW.reads t ⟨?_, by exact_mod_cast ht⟩
  unfold startOfTime
  omega

/-- A time that is sent is read, unless its year has no four digits. -/
theorem readSecs_timeJson {secs : ℕ} (hget : value.get member = some (timeJson W secs))
    (hwire : OnWire secs) :
    readSecs W value member = .ok (some (max (timestampAt secs) 0).toNat) := by
  unfold readSecs
  rw [hget]
  unfold timeJson
  simp only [Json.asStr]
  rw [hW.reads _ hwire]

theorem onWire_of_readSecs {secs : ℕ} {read : Option ℕ}
    (hget : value.get member = some (timeJson W secs))
    (hread : readSecs W value member = .ok read) : OnWire secs := by
  by_contra hwire
  obtain ⟨hlow, hhigh⟩ := timestampAt_bounds secs
  obtain ⟨e, he⟩ := hW.refuses (timestampAt secs) hlow hhigh hwire
  unfold readSecs at hread
  rw [hget] at hread
  unfold timeJson at hread
  simp only [Json.asStr, he] at hread
  cases hread

/-- A time that is read as it was sent lies before the year 10000. -/
theorem lt_of_readSecs {secs : ℕ} (hget : value.get member = some (timeJson W secs))
    (hread : readSecs W value member = .ok (some secs)) : secs < endOfTime := by
  have hwire := onWire_of_readSecs hW hget hread
  rw [readSecs_timeJson hW hget hwire] at hread
  have hsecs : (max (timestampAt secs) 0).toNat = secs := by simpa using hread
  obtain ⟨-, hlt⟩ := hwire
  unfold endOfTime at hlt ⊢
  omega

end Times

theorem fromSpec_ok {W : WireLibs} {value : Json} {received : DomainEntry}
    (h : fromSpec W value = .ok received) :
    readSecs W value "createdAt" = .ok (some received.createdAt) ∧
      readSecs W value "disabledAt" = .ok received.disabledAt ∧
        readSecs W value "purgeAt" = .ok received.purgeAt := by
  unfold fromSpec at h
  obtain ⟨name, -, h⟩ := bind_eq_ok h
  obtain ⟨status, -, h⟩ := bind_eq_ok h
  obtain ⟨created, hcreated, h⟩ := bind_eq_ok h
  obtain ⟨createdAt, hrequired, h⟩ := bind_eq_ok h
  obtain ⟨scheme, -, h⟩ := bind_eq_ok h
  obtain ⟨wellKnown, -, h⟩ := bind_eq_ok h
  obtain ⟨branding, -, h⟩ := bind_eq_ok h
  obtain ⟨witnesses, -, h⟩ := bind_eq_ok h
  obtain ⟨watchers, -, h⟩ := bind_eq_ok h
  obtain ⟨quota, -, h⟩ := bind_eq_ok h
  obtain ⟨disabledAt, hdisabled, h⟩ := bind_eq_ok h
  obtain ⟨purgeAt, hpurge, h⟩ := bind_eq_ok h
  cases h
  cases created with
  | none => cases hrequired
  | some t =>
      cases hrequired
      exact ⟨hcreated, hdisabled, hpurge⟩

/-! ## The entries of a store -/

namespace DomainStore

/-- Every entry is stored under its own name, which is canonical. -/
structure Named (L : Libs) (s : DomainStore) : Prop where
  keyed : s.Keyed
  canonical : ∀ name entry, s.domains.lookup name = some entry →
    normalizeDomainName L name = .ok name

theorem named_empty (L : Libs) : Named L empty where
  keyed := fun _ _ h => nomatch h
  canonical := fun _ _ h => nomatch h

section Step

variable {L : Libs} {s s' : DomainStore} (h : Named L s)
include h

theorem Named.insert {name : String} {entry : DomainEntry}
    (hdomains : s'.domains = s.domains.insert name entry) (hname : entry.name = name)
    (hcanonical : normalizeDomainName L name = .ok name) : Named L s' := by
  have hrows : ∀ other e, s'.domains.lookup other = some e →
      (other = name ∧ e = entry) ∨ s.domains.lookup other = some e := by
    intro other e hrow
    rw [hdomains] at hrow
    exact Table.lookup_insert_cases hrow
  constructor
  · intro other e hrow
    rcases hrows other e hrow with ⟨rfl, rfl⟩ | hold
    · exact hname
    · exact h.keyed other e hold
  · intro other e hrow
    rcases hrows other e hrow with ⟨rfl, rfl⟩ | hold
    · exact hcanonical
    · exact h.canonical other e hold

theorem Named.rewrite {name : String} {held entry : DomainEntry}
    (hheld : s.domains.lookup name = some held)
    (hdomains : s'.domains = s.domains.insert name entry) (hname : entry.name = held.name) :
    Named L s' :=
  h.insert hdomains (hname.trans (h.keyed name held hheld)) (h.canonical name held hheld)

theorem Named.delete {name : String} (hdelete : s.deleteDomainRecord L name = .ok s') :
    Named L s' := by
  obtain ⟨-, rfl⟩ := deleteDomainRecord_ok hdelete
  have hrows : ∀ other e, (s.domains.erase name).lookup other = some e →
      s.domains.lookup other = some e := by
    intro other e hrow
    exact Table.lookup_of_erase hrow
  exact ⟨fun other e hrow => h.keyed other e (hrows other e hrow),
    fun other e hrow => h.canonical other e (hrows other e hrow)⟩

theorem Named.sweepEntry (now : ℕ) (entry : PendingPurge) : Named L (s.sweepEntry L now entry) := by
  unfold DomainStore.sweepEntry
  split
  · exact h
  · split
    · cases hdelete : s.deleteDomainRecord L entry.domain with
      | error e => exact h
      | ok t => exact ⟨(h.delete hdelete).keyed, (h.delete hdelete).canonical⟩
    · exact ⟨h.keyed, h.canonical⟩

theorem Named.step (op : DomainStoreOp) : Named L (s.step L op) := by
  unfold DomainStore.step
  cases happly : s.apply L op with
  | error e => exact h
  | ok t =>
      cases op with
      | create entry =>
          obtain ⟨hcanonical, -, rfl⟩ := createDomain_ok happly
          exact h.insert rfl rfl hcanonical
      | update name newEntry =>
          obtain ⟨hcanonical, hname, -, rfl⟩ := updateDomain_ok happly
          exact h.insert rfl hname hcanonical
      | enable name =>
          obtain ⟨held, hheld, -, hdomains⟩ := enableDomain_ok happly
          exact h.rewrite hheld hdomains rfl
      | disable name now graceSeconds scheduledBy =>
          obtain ⟨-, held, hheld, -, hdomains⟩ := disableDomain_ok happly
          exact h.rewrite hheld hdomains rfl
      | delete name => exact h.delete happly
      | setDefault name =>
          have hrows := lookup_setDefaultDomain h.keyed happly
          constructor
          · intro other e hrow
            rw [hrows, Option.map_eq_some_iff] at hrow
            obtain ⟨held, hheld, rfl⟩ := hrow
            exact h.keyed other held hheld
          · intro other e hrow
            rw [hrows, Option.map_eq_some_iff] at hrow
            obtain ⟨held, hheld, -⟩ := hrow
            exact h.canonical other held hheld
      | sweep now =>
          cases happly
          unfold runSweepOnce
          exact List.foldlRecOn _ _ h fun t ht entry _ => ht.sweepEntry now entry

end Step

theorem named_exec (L : Libs) (ops : List DomainStoreOp) :
    Named L (Run.exec (step L) empty ops) :=
  Run.exec_invariant_of_step (fun _ op h => h.step op) ops (named_empty L)

end DomainStore

/-! ## The two sides -/

/-- The entry is read from the wire with its state and its times, and an edge that is
sent it schedules a purge which is ripe from the purge time on. -/
def PurgeAgrees (W : WireLibs) (entry : DomainEntry) : Prop :=
  ∃ received, fromSpec W (toSpec W entry) = .ok received ∧
    received.status = entry.status ∧ received.disabledAt = entry.disabledAt ∧
      received.purgeAt = entry.purgeAt ∧
        ∀ (control : String) (edge : EdgeStore), ∃ row,
          ((doDomainUpsert W.toLibs control received).run edge).2.pendingPurges.lookup
            entry.name = some row ∧
              ∀ t, row.isRipe t = true ↔ ∀ purgeAt ∈ entry.purgeAt, purgeAt ≤ t

section Sides

variable {W : WireLibs} (hW : Rfc3339 W)

theorem schedule_ripe {L : Libs} {received : DomainEntry} {disabledAt purgeAt : ℕ}
    (hname : normalizeDomainName L received.name = .ok received.name)
    (hstatus : received.status = .disabled) (hdisabled : received.disabledAt = some disabledAt)
    (hpurge : received.purgeAt = some purgeAt) (hle : disabledAt ≤ purgeAt)
    (hbound : purgeAt < 2 ^ 64) (control : String) (edge : EdgeStore) :
    ∃ row, ((doDomainUpsert L control received).run edge).2.pendingPurges.lookup
        received.name = some row ∧ ∀ t, row.isRipe t = true ↔ purgeAt ≤ t := by
  have hcheck : checkUpsertName L received.name = .ok () := by
    unfold checkUpsertName
    rw [hname]
    simp
  refine ⟨⟨received.name, disabledAt, purgeAt - disabledAt, disablePurgeReason, control⟩, ?_, ?_⟩
  · rw [run_doDomainUpsert, hcheck]
    simp only [EdgeStore.rescheduled, upsertSchedule, hstatus, hdisabled, hpurge]
    change (edge.pendingPurges.insert received.name _).lookup received.name = _
    rw [Table.lookup_insert_ite, if_pos rfl]
  · intro t
    unfold PendingPurge.isRipe addSeconds
    rw [decide_eq_true_eq]
    simp only
    omega

include hW

/-- The wire keeps the timers of the entries whose times it can hold. -/
theorem purgeAgrees_of_lt {entry : DomainEntry} {now purgeAt : ℕ}
    (hname : normalizeDomainName W.toLibs entry.name = .ok entry.name)
    (hstatus : entry.status = .disabled) (hdisabled : entry.disabledAt = some now)
    (hpurge : entry.purgeAt = some purgeAt) (hle : now ≤ purgeAt)
    (hlt : purgeAt < endOfTime) (hcreated : OnWire entry.createdAt) : PurgeAgrees W entry := by
  have htimers : entry.status = .active → entry.disabledAt = none ∧ entry.purgeAt = none := by
    intro hactive
    rw [hstatus] at hactive
    cases hactive
  have hdisabledLt : ∀ t ∈ entry.disabledAt, t < endOfTime := by
    rw [hdisabled]
    rintro t ⟨⟩
    omega
  have hpurgeLt : ∀ t ∈ entry.purgeAt, t < endOfTime := by
    rw [hpurge]
    rintro t ⟨⟩
    exact hlt
  have hread := fromSpec_eq (readSecs_timeJson hW (get_toSpec_createdAt W entry) hcreated)
    (readSecs_map hW.timesReadBack hdisabledLt (get_toSpec_disabledAt W htimers))
    (readSecs_map hW.timesReadBack hpurgeLt (get_toSpec_purgeAt W htimers))
  refine ⟨_, hread, rfl, rfl, rfl, fun control edge => ?_⟩
  have hbound : purgeAt < 2 ^ 64 := by
    unfold endOfTime at hlt
    omega
  let received : DomainEntry :=
    { entry with createdAt := (max (timestampAt entry.createdAt) 0).toNat }
  have hreceived : normalizeDomainName W.toLibs received.name = .ok received.name := hname
  obtain ⟨row, hrow, hripe⟩ :=
    schedule_ripe hreceived hstatus hdisabled hpurge hle hbound control edge
  refine ⟨row, hrow, fun t => (hripe t).trans ?_⟩
  rw [hpurge]
  simp

theorem PurgeAgrees.lt {entry : DomainEntry} (h : PurgeAgrees W entry)
    (hstatus : entry.status = .disabled) {purgeAt : ℕ} (hpurge : entry.purgeAt = some purgeAt) :
    purgeAt < endOfTime ∧ OnWire entry.createdAt := by
  obtain ⟨received, hread, -, -, hpurgeAt, -⟩ := h
  obtain ⟨hcreated, -, hreadPurge⟩ := fromSpec_ok hread
  have htimers : entry.status = .active → entry.disabledAt = none ∧ entry.purgeAt = none := by
    intro hactive
    rw [hstatus] at hactive
    cases hactive
  constructor
  · have hget := get_toSpec_purgeAt W htimers
    rw [hpurge] at hget
    rw [hpurgeAt, hpurge] at hreadPurge
    exact lt_of_readSecs hW hget hreadPurge
  · exact onWire_of_readSecs hW (get_toSpec_createdAt W entry) hcreated

end Sides

/-- The control plane and an edge agree on the purge of a domain that is disabled exactly
when the purge time lies before the year 10000 and the wire can hold the time of the
domain's creation. -/
theorem purge_times_agree_iff {W : WireLibs} (hW : Rfc3339 W) (ops : List DomainStoreOp)
    {name grace caller : String} {now graceSeconds : ℕ} {s' : DomainStore} {entry : DomainEntry}
    (hgrace : parseGraceString grace = .ok graceSeconds)
    (hdisable : DomainTask.changeState W.toLibs grace
      (Run.exec (DomainStore.step W.toLibs) .empty ops) name (some .disabled) now caller = .ok s')
    (hentry : s'.domains.lookup name = some entry) :
    PurgeAgrees W entry ↔ now + graceSeconds < endOfTime ∧ OnWire entry.createdAt := by
  have hnamed := DomainStore.named_exec W.toLibs ops
  have hdisable : DomainTask.declared .isDefault ((Run.exec (DomainStore.step W.toLibs) .empty
      ops).disableDomain W.toLibs name now graceSeconds caller) = .ok s' := by
    unfold DomainTask.changeState at hdisable
    rw [hgrace] at hdisable
    exact hdisable
  have hdisable := DomainTask.declared_ok hdisable
  obtain ⟨-, held, hheld, -, hdomains⟩ := DomainStore.disableDomain_ok hdisable
  have hheldName := hnamed.keyed name held hheld
  have hcanonical := hnamed.canonical name held hheld
  have hwritten : entry = { held with
      status := .disabled
      disabledAt := some now
      purgeAt := some (addSeconds now graceSeconds) } := by
    rw [hdomains, Table.lookup_insert_ite, if_pos rfl] at hentry
    exact (Option.some.inj hentry).symm
  subst hwritten
  have hsum : addSeconds now graceSeconds < endOfTime ↔ now + graceSeconds < endOfTime := by
    unfold addSeconds endOfTime
    omega
  constructor
  · intro hagrees
    obtain ⟨hlt, hcreated⟩ := hagrees.lt hW rfl rfl
    exact ⟨hsum.mp hlt, hcreated⟩
  · rintro ⟨hlt, hcreated⟩
    refine purgeAgrees_of_lt hW ?_ rfl rfl rfl ?_ (hsum.mpr hlt) hcreated
    · rw [hheldName]
      exact hcanonical
    · unfold addSeconds
      unfold endOfTime at hlt
      omega

/-! ## A domain of the sample wire -/

namespace PurgeSample

open Reference DomainStore.Sample

/-- The date-times of the seconds 0, 1000 and 8200, a code for the other seconds, and a
date-time of the year 10000. -/
def dateTime (t : ℤ) : String :=
  if t = 0 then "1970-01-01T00:00:00Z"
  else if t = 1000 then "1970-01-01T00:16:40Z"
  else if t = 8200 then "1970-01-01T02:16:40Z"
  else if ¬FourDigitYear t then "+10000-01-01T00:00:00Z"
  else if 0 < t then String.ofList (List.replicate t.toNat 'x')
  else String.ofList (List.replicate (-t).toNat 'y')

/-- The second of a date-time. -/
def parseDateTime (text : String) : Except String ℤ :=
  if text = "1970-01-01T00:00:00Z" then .ok 0
  else if text = "1970-01-01T00:16:40Z" then .ok 1000
  else if text = "1970-01-01T02:16:40Z" then .ok 8200
  else if 'x' ∈ text.toList then .ok text.toList.length
  else if 'y' ∈ text.toList then .ok (-text.toList.length)
  else .error "input contains invalid characters"

/-- The wire on the reference libraries. -/
abbrev wire : WireLibs where
  toLibs := libs
  dateTime := dateTime
  parseFromRfc3339 := parseDateTime
  malformed _ := "invalid type"
  upsertEntry body :=
    match body.get "entry" with
    | some entry => .ok entry
    | none => .error "missing field `entry`"

theorem parseDateTime_code {c : Char} {n : ℕ} (hn : 0 < n) (hc : c = 'x' ∨ c = 'y') :
    parseDateTime (String.ofList (List.replicate n c)) =
      .ok (if c = 'x' then (n : ℤ) else -n) := by
  have hne : ∀ text : String, 'x' ∉ text.toList → 'y' ∉ text.toList →
      String.ofList (List.replicate n c) ≠ text := by
    rintro text hx hy rfl
    rw [String.toList_ofList, List.mem_replicate] at hx hy
    rcases hc with rfl | rfl
    · exact hx ⟨by omega, rfl⟩
    · exact hy ⟨by omega, rfl⟩
  unfold parseDateTime
  rw [if_neg (hne _ (by decide) (by decide)), if_neg (hne _ (by decide) (by decide)),
    if_neg (hne _ (by decide) (by decide)), String.toList_ofList, List.length_replicate]
  rcases hc with rfl | rfl
  · rw [if_pos (List.mem_replicate.mpr ⟨by omega, rfl⟩), if_pos rfl]
  · have hx : 'x' ∉ List.replicate n 'y' := fun h =>
      absurd (List.eq_of_mem_replicate h) (by decide)
    rw [if_neg hx, if_pos (List.mem_replicate.mpr ⟨by omega, rfl⟩), if_neg (by decide)]

theorem rfc3339 : Rfc3339 wire where
  reads := by
    intro t ht
    change parseDateTime (dateTime t) = .ok t
    by_cases hzero : t = 0
    · rw [hzero]
      decide
    by_cases hnow : t = 1000
    · rw [hnow]
      decide
    by_cases hpurge : t = 8200
    · rw [hpurge]
      decide
    unfold dateTime
    rw [if_neg hzero, if_neg hnow, if_neg hpurge, if_neg (not_not.mpr ht)]
    by_cases hpos : 0 < t
    · rw [if_pos hpos, parseDateTime_code (by omega) (Or.inl rfl), if_pos rfl]
      exact congrArg Except.ok (Int.toNat_of_nonneg (by omega))
    · rw [if_neg hpos, parseDateTime_code (by omega) (Or.inr rfl), if_neg (by decide)]
      refine congrArg Except.ok ?_
      omega
  refuses := by
    intro t _ _ ht
    have hfew : t ≠ 0 ∧ t ≠ 1000 ∧ t ≠ 8200 := by
      unfold FourDigitYear startOfTime endOfTime at ht
      omega
    refine ⟨"input contains invalid characters", ?_⟩
    change parseDateTime (dateTime t) = _
    unfold dateTime
    rw [if_neg hfew.1, if_neg hfew.2.1, if_neg hfew.2.2, if_pos ht]
    rfl

def ops : List DomainStoreOp := [.create (created "h.io")]

/-- The domain disabled at second 1000, with the given grace period. -/
def disable (grace : String) : Except DomainTaskError DomainStore :=
  DomainTask.changeState libs grace (Run.exec (DomainStore.step libs) .empty ops) "h.io"
    (some .disabled) 1000 "did:admin"

/-- The entry it leaves. -/
def disabled (purgeAt : ℕ) : DomainEntry :=
  { created "h.io" with
    status := .disabled
    disabledAt := some 1000
    purgeAt := some purgeAt }

theorem graces : parseGraceString "2h" = .ok 7200 ∧
    parseGraceString "200000000d" = .ok 17280000000000 := by
  decide +kernel

theorem disable_entry :
    (disable "2h").toOption.bind (·.domains.lookup "h.io") = some (disabled 8200) ∧
      (disable "200000000d").toOption.bind (·.domains.lookup "h.io") =
        some (disabled 17280000001000) := by
  decide +kernel

theorem exists_of_toOption {ε α β : Type} {x : Except ε α} {f : α → Option β} {b : β}
    (h : x.toOption.bind f = some b) : ∃ a, x = .ok a ∧ f a = some b := by
  cases x with
  | error e => cases h
  | ok a => exact ⟨a, rfl, h⟩

end PurgeSample

open PurgeSample in
/-- With two hours of grace the two sides agree. -/
theorem purge_times_agree_two_hours : PurgeAgrees wire (disabled 8200) := by
  obtain ⟨s', hdisable, hentry⟩ := exists_of_toOption disable_entry.1
  exact (purge_times_agree_iff rfc3339 ops graces.1 hdisable hentry).mpr
    ⟨by decide, by decide⟩

open PurgeSample in
/-- A grace period that leads behind the last date-time is sent as the epoch: the edge
reads a purge time of 0, before the domain was disabled. -/
theorem purge_times_disagree :
    ∃ s', disable "200000000d" = .ok s' ∧
      s'.domains.lookup "h.io" = some (disabled 17280000001000) ∧
        fromSpec wire (toSpec wire (disabled 17280000001000)) = .ok (disabled 0) ∧
          ¬PurgeAgrees wire (disabled 17280000001000) := by
  obtain ⟨s', hdisable, hentry⟩ := exists_of_toOption disable_entry.2
  refine ⟨s', hdisable, hentry, ?_, ?_⟩
  · have htimers : (disabled 17280000001000).status = .active →
        (disabled 17280000001000).disabledAt = none ∧
          (disabled 17280000001000).purgeAt = none := nofun
    refine @fromSpec_eq wire (disabled 17280000001000) 1000 (some 1000) (some 0) ?_ ?_ ?_
    · exact readSecs_timeJson rfc3339 (get_toSpec_createdAt wire _) (by decide)
    · exact readSecs_timeJson rfc3339 (get_toSpec_disabledAt wire htimers) (by decide)
    · exact readSecs_timeJson rfc3339 (get_toSpec_purgeAt wire htimers) (by decide)
  · intro hagrees
    obtain ⟨hlt, -⟩ := hagrees.lt rfc3339 rfl rfl
    unfold endOfTime at hlt
    omega

end DidHosting
