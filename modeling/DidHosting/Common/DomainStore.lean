import DidHosting.Common.Domain
import DidHosting.Common.Reference
import DidHosting.Support.Run

/-!
# The domain store

The domain entries, the pointer to the default domain and the pending purges, with the
operations on them.  The default is stored twice, as the pointer and as a flag of the
entries; the operations keep the two in agreement as long as no entry is written with
a flag or a status of its own.
-/

namespace DidHosting

/-- The keyspaces of the domain store. -/
structure DomainStore where
  domains : Table String DomainEntry
  defaultDomain : Option String
  pendingPurges : Table String PendingPurge

/-- The seconds of a unit of time. -/
def graceMultiplier (unit : String) : Option ℕ :=
  if unit ∈ ["", "s", "sec", "secs", "second", "seconds"] then some 1
  else if unit ∈ ["m", "min", "mins", "minute", "minutes"] then some 60
  else if unit ∈ ["h", "hr", "hrs", "hour", "hours"] then some (60 * 60)
  else if unit ∈ ["d", "day", "days"] then some (24 * 60 * 60)
  else none

def parseGraceString (s : String) : Except String ℕ :=
  let trimmed := (Text.trim s).toList
  let digits := trimmed.takeWhile Char.isDigit
  let unit := String.ofList ((Text.trimChars (trimmed.drop digits.length)).map Char.toLower)
  if trimmed = [] then .error "empty duration"
  else if digits = [] then .error s!"missing leading digits in '{s}'"
  else if 2 ^ 64 ≤ decimal digits then
    .error s!"invalid digits '{String.ofList digits}': number too large to fit in target type"
  else
    match graceMultiplier unit with
    | none => .error s!"unsupported unit '{unit}'; use s / m / h / d"
    | some multiplier =>
        if decimal digits * multiplier < 2 ^ 64 then .ok (decimal digits * multiplier)
        else .error s!"duration '{s}' overflows u64 seconds"

namespace DomainStore

/-- A store without domains. -/
def empty : DomainStore := ⟨∅, none, ∅⟩

/-! ## Operations -/

section Operations

variable (L : Libs)

def createDomain (s : DomainStore) (entry : DomainEntry) : Except AppError DomainStore := do
  let canonical ← normalizeDomainName L entry.name
  if canonical ≠ entry.name then
    .error (.validation s!"domain name not in canonical form — use '{canonical}'")
  else if (s.domains.lookup canonical).isSome then
    .error (.conflict s!"domain '{canonical}' already exists")
  else
    .ok { s with domains := s.domains.insert canonical entry }

/-- `get_domain`, for a domain that has to exist. -/
def requireDomain (s : DomainStore) (name : String) : Except AppError DomainEntry := do
  match ← DidHosting.getDomain L s.domains name with
  | some entry => .ok entry
  | none => .error (.notFound s!"domain '{name}'")

def updateDomain (s : DomainStore) (name : String) (newEntry : DomainEntry) :
    Except AppError DomainStore := do
  let canonical ← normalizeDomainName L name
  if newEntry.name ≠ canonical then
    .error (.validation
      s!"cannot rename domain ('{canonical}' → '{newEntry.name}') — domain names are immutable")
  else if (s.domains.lookup canonical).isNone then
    .error (.notFound s!"domain '{canonical}'")
  else
    .ok { s with domains := s.domains.insert canonical newEntry }

/-- `pending_purge::schedule`. -/
def schedule (s : DomainStore) (purge : PendingPurge) : DomainStore :=
  { s with pendingPurges := s.pendingPurges.insert purge.domain purge }

/-- `pending_purge::cancel`. -/
def cancel (s : DomainStore) (domain : String) : DomainStore :=
  { s with pendingPurges := s.pendingPurges.erase domain }

def disableDomain (s : DomainStore) (name : String) (now graceSeconds : ℕ)
    (scheduledBy : String) : Except AppError DomainStore := do
  let canonical ← normalizeDomainName L name
  if s.defaultDomain = some canonical then
    .error (.conflict
      s!"cannot disable '{canonical}' — it is the current default; re-point default first")
  else do
    let entry ← requireDomain L s canonical
    let disabled : DomainEntry :=
      { entry with
        status := .disabled
        disabledAt := some now
        purgeAt := some (addSeconds now graceSeconds) }
    let s' : DomainStore := { s with domains := s.domains.insert canonical disabled }
    return s'.schedule ⟨canonical, now, graceSeconds, disablePurgeReason, scheduledBy⟩

def enableDomain (s : DomainStore) (name : String) : Except AppError DomainStore := do
  let canonical ← normalizeDomainName L name
  let entry ← requireDomain L s canonical
  let enabled : DomainEntry :=
    { entry with status := .active, disabledAt := none, purgeAt := none }
  let s' : DomainStore := { s with domains := s.domains.insert canonical enabled }
  return s'.cancel canonical

def deleteDomainRecord (s : DomainStore) (name : String) : Except AppError DomainStore := do
  let canonical ← normalizeDomainName L name
  if s.defaultDomain = some canonical then
    .error (.conflict
      s!"cannot delete '{canonical}' — it is the current default; re-point default first")
  else if (s.domains.lookup canonical).isNone then
    .error (.notFound s!"domain '{canonical}'")
  else
    .ok { s with domains := s.domains.erase canonical }

/-- The entry with the flag it has when `default` is the default domain. -/
def flagged (default : String) (entry : DomainEntry) : DomainEntry :=
  { entry with defaultDomain := entry.name = default }

/-- One round of the loop of `set_default_domain`. -/
def refresh (default : String) (domains : Table String DomainEntry) (entry : DomainEntry) :
    Table String DomainEntry :=
  if entry.defaultDomain = decide (entry.name = default) then domains
  else domains.insert entry.name (flagged default entry)

def listDomains (s : DomainStore) : List DomainEntry :=
  (Table.rows s.domains).map Prod.snd

def setDefaultDomain (s : DomainStore) (name : String) : Except AppError DomainStore := do
  let canonical ← normalizeDomainName L name
  let entry ← requireDomain L s canonical
  if entry.status ≠ .active then
    .error (.conflict s!"cannot set default to '{canonical}' — domain is disabled")
  else
    .ok { s with
      defaultDomain := some canonical
      domains := s.listDomains.foldl (refresh canonical) s.domains }

/-- One round of `run_sweep_once`, as far as the domain store goes: the record of a
disabled domain is deleted with its slots. -/
def sweepEntry (now : ℕ) (s : DomainStore) (entry : PendingPurge) : DomainStore :=
  if !entry.isRipe now then s
  else if entry.reason = disablePurgeReason then
    match s.deleteDomainRecord L entry.domain with
    | .ok s' => s'.cancel entry.domain
    | .error _ => s
  else s.cancel entry.domain

def runSweepOnce (now : ℕ) (s : DomainStore) : DomainStore :=
  ((Table.rows s.pendingPurges).map Prod.snd).foldl (sweepEntry L now) s

end Operations

/-! ## What an operation does -/

section Effects

variable {L : Libs} {s s' : DomainStore} {name : String} {entry : DomainEntry}

theorem createDomain_ok (h : s.createDomain L entry = .ok s') :
    normalizeDomainName L entry.name = .ok entry.name ∧ s.domains.lookup entry.name = none ∧
      s' = { s with domains := s.domains.insert entry.name entry } := by
  obtain ⟨canonical, hnormal, h⟩ := bind_eq_ok h
  cases normalizeDomainName_eq_ok hnormal
  rw [if_neg (not_not.mpr rfl)] at h
  split at h
  · cases h
  · rename_i hnone
    cases h
    rw [Option.not_isSome_iff_eq_none] at hnone
    exact ⟨hnormal, hnone, rfl⟩

theorem requireDomain_ok (h : s.requireDomain L name = .ok entry) :
    s.domains.lookup name = some entry := by
  obtain ⟨row, hrow, h⟩ := bind_eq_ok h
  obtain ⟨canonical, hnormal, hlookup⟩ := bind_eq_ok hrow
  cases normalizeDomainName_eq_ok hnormal
  cases hlookup
  split at h
  · rename_i hentry
    cases h
    exact hentry
  · cases h

theorem updateDomain_ok (h : s.updateDomain L name entry = .ok s') :
    normalizeDomainName L name = .ok name ∧ entry.name = name ∧
      (s.domains.lookup name).isSome ∧
        s' = { s with domains := s.domains.insert name entry } := by
  obtain ⟨canonical, hnormal, h⟩ := bind_eq_ok h
  cases normalizeDomainName_eq_ok hnormal
  split at h
  · cases h
  · rename_i hname
    split at h
    · cases h
    · rename_i hrow
      cases h
      rw [Option.isNone_iff_eq_none, ← ne_eq, Option.ne_none_iff_isSome] at hrow
      exact ⟨hnormal, not_not.mp hname, hrow, rfl⟩

theorem disableDomain_ok {now graceSeconds : ℕ} {scheduledBy : String}
    (h : s.disableDomain L name now graceSeconds scheduledBy = .ok s') :
    s.defaultDomain ≠ some name ∧ ∃ entry, s.domains.lookup name = some entry ∧
      s'.defaultDomain = s.defaultDomain ∧
      s'.domains = s.domains.insert name
        { entry with
          status := .disabled
          disabledAt := some now
          purgeAt := some (addSeconds now graceSeconds) } := by
  obtain ⟨canonical, hnormal, h⟩ := bind_eq_ok h
  cases normalizeDomainName_eq_ok hnormal
  split at h
  · cases h
  · rename_i hdefault
    obtain ⟨entry, hentry, h⟩ := bind_eq_ok h
    cases h
    exact ⟨hdefault, entry, requireDomain_ok hentry, rfl, rfl⟩

theorem enableDomain_ok (h : s.enableDomain L name = .ok s') :
    ∃ entry, s.domains.lookup name = some entry ∧ s'.defaultDomain = s.defaultDomain ∧
      s'.domains = s.domains.insert name
        { entry with status := .active, disabledAt := none, purgeAt := none } := by
  obtain ⟨canonical, hnormal, h⟩ := bind_eq_ok h
  cases normalizeDomainName_eq_ok hnormal
  obtain ⟨entry, hentry, h⟩ := bind_eq_ok h
  cases h
  exact ⟨entry, requireDomain_ok hentry, rfl, rfl⟩

theorem deleteDomainRecord_ok (h : s.deleteDomainRecord L name = .ok s') :
    s.defaultDomain ≠ some name ∧ s' = { s with domains := s.domains.erase name } := by
  obtain ⟨canonical, hnormal, h⟩ := bind_eq_ok h
  cases normalizeDomainName_eq_ok hnormal
  split at h
  · cases h
  · rename_i hdefault
    split at h
    · cases h
    · cases h
      exact ⟨hdefault, rfl⟩

theorem setDefaultDomain_ok (h : s.setDefaultDomain L name = .ok s') :
    ∃ entry, s.domains.lookup name = some entry ∧ entry.status = .active ∧
      s' = { s with
        defaultDomain := some name
        domains := s.listDomains.foldl (refresh name) s.domains } := by
  obtain ⟨canonical, hnormal, h⟩ := bind_eq_ok h
  cases normalizeDomainName_eq_ok hnormal
  obtain ⟨entry, hentry, h⟩ := bind_eq_ok h
  split at h
  · cases h
  · rename_i hactive
    cases h
    exact ⟨entry, requireDomain_ok hentry, not_not.mp hactive, rfl⟩

end Effects

/-! ## The flags -/

/-- Every entry is stored under its name. -/
def Keyed (s : DomainStore) : Prop :=
  ∀ name entry, s.domains.lookup name = some entry → entry.name = name

theorem mem_listDomains {s : DomainStore} {entry : DomainEntry} :
    entry ∈ s.listDomains ↔ ∃ name, s.domains.lookup name = some entry := by
  unfold listDomains
  rw [List.mem_map]
  constructor
  · rintro ⟨⟨name, e⟩, hmem, rfl⟩
    exact ⟨name, Table.mem_rows.mp hmem⟩
  · rintro ⟨name, hrow⟩
    exact ⟨(name, entry), Table.mem_rows.mpr hrow, rfl⟩

/-- The loop of `set_default_domain` over some of the entries: theirs are the rows that
change. -/
theorem lookup_foldl_refresh {default : String} {rows : Table String DomainEntry}
    (entries : List DomainEntry) (domains : Table String DomainEntry)
    (hentries : ∀ e ∈ entries, rows.lookup e.name = some e)
    (hdomains : ∀ name, domains.lookup name = rows.lookup name ∨
      domains.lookup name = (rows.lookup name).map (flagged default)) (name : String) :
    (entries.foldl (refresh default) domains).lookup name =
      if ∃ e ∈ entries, e.name = name then (rows.lookup name).map (flagged default)
      else domains.lookup name := by
  induction entries generalizing domains with
  | nil => simp
  | cons e entries ih =>
      have hrow := hentries e List.mem_cons_self
      -- the row of the entry is flagged, the others stay
      have hfirst : ∀ name, (refresh default domains e).lookup name =
          if name = e.name then (rows.lookup name).map (flagged default)
          else domains.lookup name := by
        intro name
        unfold refresh
        split
        · rename_i hright
          have hsame : flagged default e = e := by
            unfold flagged
            simp only [← hright]
          split
          · rename_i hname
            subst hname
            rcases hdomains e.name with h | h
            · rw [h, hrow, Option.map_some, hsame]
            · exact h
          · rfl
        · rw [Table.lookup_insert_ite]
          split
          · rename_i hname
            rw [hname, hrow, Option.map_some]
          · rfl
      rw [List.foldl_cons, ih]
      · rw [hfirst]
        by_cases hname : e.name = name
        · have hlisted : ∃ e' ∈ e :: entries, e'.name = name :=
            ⟨e, List.mem_cons_self, hname⟩
          rw [if_pos hname.symm, if_pos hlisted, ite_self]
        · have hlisted : (∃ e' ∈ e :: entries, e'.name = name) ↔ ∃ e' ∈ entries, e'.name = name := by
            rw [List.exists_mem_cons_iff, or_iff_right hname]
          rw [if_congr hlisted rfl rfl, if_neg (Ne.symm hname)]
      · exact fun e' he' => hentries e' (List.mem_cons_of_mem _ he')
      · intro name
        rw [hfirst]
        split
        · exact Or.inr rfl
        · exact hdomains name

/-- After `set_default_domain` each entry has the flag that goes with the pointer. -/
theorem lookup_setDefaultDomain {L : Libs} {s s' : DomainStore} {default : String}
    (hkeyed : s.Keyed) (h : s.setDefaultDomain L default = .ok s') (name : String) :
    s'.domains.lookup name = (s.domains.lookup name).map (flagged default) := by
  obtain ⟨-, -, -, rfl⟩ := setDefaultDomain_ok h
  have hentries : ∀ e ∈ s.listDomains, s.domains.lookup e.name = some e := by
    intro e he
    obtain ⟨k, hk⟩ := mem_listDomains.mp he
    rw [hkeyed k e hk]
    exact hk
  refine (lookup_foldl_refresh s.listDomains s.domains hentries
    (fun _ => Or.inl rfl) name).trans ?_
  split
  · rfl
  · rename_i hnone
    cases hrow : s.domains.lookup name with
    | none => rfl
    | some e =>
        exact absurd ⟨e, mem_listDomains.mpr ⟨name, hrow⟩, hkeyed name e hrow⟩ hnone

end DomainStore

/-- An operation on the domain store. -/
inductive DomainStoreOp where
  | create (entry : DomainEntry)
  | update (name : String) (newEntry : DomainEntry)
  | enable (name : String)
  | disable (name : String) (now graceSeconds : ℕ) (scheduledBy : String)
  | delete (name : String)
  | setDefault (name : String)
  | sweep (now : ℕ)
deriving DecidableEq, Repr

namespace DomainStore

/-- The operation, when it succeeds. -/
def apply (L : Libs) (s : DomainStore) : DomainStoreOp → Except AppError DomainStore
  | .create entry => s.createDomain L entry
  | .update name newEntry => s.updateDomain L name newEntry
  | .enable name => s.enableDomain L name
  | .disable name now graceSeconds scheduledBy =>
      s.disableDomain L name now graceSeconds scheduledBy
  | .delete name => s.deleteDomainRecord L name
  | .setDefault name => s.setDefaultDomain L name
  | .sweep now => .ok (s.runSweepOnce L now)

/-- The store after an operation; one that fails writes nothing. -/
def step (L : Libs) (s : DomainStore) (op : DomainStoreOp) : DomainStore :=
  match s.apply L op with
  | .ok s' => s'
  | .error _ => s

/-! ## The default domain -/

/-- The pointer names an active entry, which is the only one that is flagged. -/
def DefaultsAgree (s : DomainStore) : Prop :=
  ∀ default, s.defaultDomain = some default →
    (∃ entry, s.domains.lookup default = some entry ∧ entry.status = .active ∧
      entry.defaultDomain = true) ∧
    ∀ name entry, s.domains.lookup name = some entry → name ≠ default →
      entry.defaultDomain = false

/-- The operation writes no flag or status of its own: while there is a default domain,
a new entry is not flagged, and an update of an entry keeps the flag where the pointer is
and the default domain active. -/
def KeepsDefault (s : DomainStore) : DomainStoreOp → Prop
  | .create entry =>
      s.domains.lookup entry.name = none → s.defaultDomain.isSome → entry.defaultDomain = false
  | .update name newEntry =>
      (s.domains.lookup name).isSome → newEntry.name = name → ∀ default ∈ s.defaultDomain,
        newEntry.defaultDomain = decide (name = default) ∧
          (name = default → newEntry.status = .active)
  | _ => True

instance (s : DomainStore) : ∀ op, Decidable (s.KeepsDefault op)
  | .create entry => inferInstanceAs (Decidable (_ = none → _ → entry.defaultDomain = false))
  | .update name newEntry =>
      inferInstanceAs (Decidable (_ → newEntry.name = name → ∀ default ∈ s.defaultDomain,
        newEntry.defaultDomain = decide (name = default) ∧
          (name = default → newEntry.status = .active)))
  | .enable _ => inferInstanceAs (Decidable True)
  | .disable _ _ _ _ => inferInstanceAs (Decidable True)
  | .delete _ => inferInstanceAs (Decidable True)
  | .setDefault _ => inferInstanceAs (Decidable True)
  | .sweep _ => inferInstanceAs (Decidable True)

/-- What holds in every reachable store. -/
structure Inv (s : DomainStore) : Prop where
  keyed : s.Keyed
  agree : s.DefaultsAgree

theorem inv_empty : Inv empty where
  keyed := fun _ _ h => nomatch h
  agree := fun _ h => nomatch h

section Step

variable {s s' : DomainStore} (h : Inv s)

include h

/-- Writing one entry under its name. -/
theorem Inv.insert {name : String} {entry : DomainEntry} (hdefault : s'.defaultDomain = s.defaultDomain)
    (hdomains : s'.domains = s.domains.insert name entry) (hname : entry.name = name)
    (hkeeps : ∀ default, s.defaultDomain = some default →
      entry.defaultDomain = decide (name = default) ∧
        (name = default → entry.status = .active)) : Inv s' where
  keyed := by
    intro name' entry' hrow
    rw [hdomains] at hrow
    rcases Table.lookup_insert_cases hrow with ⟨rfl, rfl⟩ | hold
    · exact hname
    · exact h.keyed name' entry' hold
  agree := by
    intro default hpointer
    rw [hdefault] at hpointer
    obtain ⟨hflag, hactive⟩ := hkeeps default hpointer
    obtain ⟨⟨held, hheld, hheldActive, hheldFlag⟩, hothers⟩ := h.agree default hpointer
    constructor
    · by_cases hsame : default = name
      · refine ⟨entry, ?_, hactive hsame.symm, ?_⟩
        · rw [hdomains, Table.lookup_insert_ite, if_pos hsame]
        · rw [hflag, decide_eq_true hsame.symm]
      · refine ⟨held, ?_, hheldActive, hheldFlag⟩
        rw [hdomains, Table.lookup_insert_ite, if_neg hsame]
        exact hheld
    · intro name' entry' hrow hne
      rw [hdomains] at hrow
      rcases Table.lookup_insert_cases hrow with ⟨rfl, rfl⟩ | hold
      · rw [hflag, decide_eq_false hne]
      · exact hothers name' entry' hold hne

/-- An entry that keeps its flag, and its status when it is the default. -/
theorem Inv.rewrite {name : String} {held entry : DomainEntry}
    (hheld : s.domains.lookup name = some held) (hflag : entry.defaultDomain = held.defaultDomain)
    (hactive : s.defaultDomain = some name → entry.status = .active)
    (hname : entry.name = held.name)
    (hdefault : s'.defaultDomain = s.defaultDomain)
    (hdomains : s'.domains = s.domains.insert name entry) : Inv s' := by
  refine h.insert hdefault hdomains (hname.trans (h.keyed name held hheld)) ?_
  intro default hpointer
  obtain ⟨⟨current, hcurrent, -, hcurrentFlag⟩, hothers⟩ := h.agree default hpointer
  by_cases hsame : name = default
  · subst hsame
    rw [hheld] at hcurrent
    cases hcurrent
    exact ⟨by rw [hflag, hcurrentFlag, decide_eq_true rfl], fun _ => hactive hpointer⟩
  · refine ⟨?_, fun heq => absurd heq hsame⟩
    rw [hflag, hothers name held hheld hsame, decide_eq_false hsame]

theorem Inv.erase {name : String} (hne : s.defaultDomain ≠ some name)
    (hdefault : s'.defaultDomain = s.defaultDomain)
    (hdomains : s'.domains = s.domains.erase name) : Inv s' where
  keyed := by
    intro name' entry hrow
    rw [hdomains] at hrow
    exact h.keyed name' entry (Table.lookup_of_erase hrow)
  agree := by
    intro default hpointer
    rw [hdefault] at hpointer
    obtain ⟨⟨held, hheld, hactive, hflag⟩, hothers⟩ := h.agree default hpointer
    have hother : default ≠ name := fun heq => hne (heq ▸ hpointer)
    constructor
    · refine ⟨held, ?_, hactive, hflag⟩
      rw [hdomains, Table.lookup_erase_ite, if_neg hother]
      exact hheld
    · intro name' entry hrow
      rw [hdomains] at hrow
      exact hothers name' entry (Table.lookup_of_erase hrow)

theorem Inv.setDefault {L : Libs} {name : String} (hset : s.setDefaultDomain L name = .ok s') :
    Inv s' := by
  have hrows := lookup_setDefaultDomain h.keyed hset
  obtain ⟨entry, hentry, hactive, hs'⟩ := setDefaultDomain_ok hset
  constructor
  · intro name' entry' hrow
    rw [hrows, Option.map_eq_some_iff] at hrow
    obtain ⟨held, hheld, rfl⟩ := hrow
    exact h.keyed name' held hheld
  · intro default hpointer
    have hdefault : default = name := by
      rw [hs'] at hpointer
      exact (Option.some.inj hpointer).symm
    subst hdefault
    constructor
    · refine ⟨flagged default entry, ?_, hactive, ?_⟩
      · rw [hrows, hentry, Option.map_some]
      · exact decide_eq_true (h.keyed default entry hentry)
    · intro name' entry' hrow hne
      rw [hrows, Option.map_eq_some_iff] at hrow
      obtain ⟨held, hheld, rfl⟩ := hrow
      exact decide_eq_false (fun heq => hne ((h.keyed name' held hheld).symm.trans heq))

theorem Inv.cancel (domain : String) : Inv (s.cancel domain) :=
  ⟨h.keyed, h.agree⟩

theorem Inv.delete {L : Libs} {name : String} (hdelete : s.deleteDomainRecord L name = .ok s') :
    Inv s' := by
  obtain ⟨hne, rfl⟩ := deleteDomainRecord_ok hdelete
  exact h.erase hne rfl rfl

theorem Inv.sweepEntry (L : Libs) (now : ℕ) (entry : PendingPurge) :
    Inv (s.sweepEntry L now entry) := by
  unfold DomainStore.sweepEntry
  split
  · exact h
  · split
    · cases hdelete : s.deleteDomainRecord L entry.domain with
      | error e => exact h
      | ok t => exact (h.delete hdelete).cancel entry.domain
    · exact h.cancel entry.domain

theorem Inv.step (L : Libs) (op : DomainStoreOp) (hkeeps : s.KeepsDefault op) :
    Inv (s.step L op) := by
  unfold DomainStore.step
  cases happly : s.apply L op with
  | error e => exact h
  | ok t =>
      cases op with
      | create entry =>
          obtain ⟨-, hnew, rfl⟩ := createDomain_ok happly
          refine h.insert rfl rfl rfl ?_
          intro default hpointer
          obtain ⟨⟨held, hheld, -⟩, -⟩ := h.agree default hpointer
          have hne : entry.name ≠ default := by
            intro heq
            rw [heq, hheld] at hnew
            cases hnew
          have hflag := hkeeps hnew (by rw [hpointer]; rfl)
          exact ⟨by rw [hflag, decide_eq_false hne], fun heq => absurd heq hne⟩
      | update name newEntry =>
          obtain ⟨-, hname, hrow, rfl⟩ := updateDomain_ok happly
          exact h.insert rfl rfl hname (hkeeps hrow hname)
      | enable name =>
          obtain ⟨held, hheld, hdefault, hdomains⟩ := enableDomain_ok happly
          refine h.rewrite hheld ?_ ?_ ?_ hdefault hdomains
          · rfl
          · exact fun _ => rfl
          · rfl
      | disable name now graceSeconds scheduledBy =>
          obtain ⟨hne, held, hheld, hdefault, hdomains⟩ := disableDomain_ok happly
          refine h.rewrite hheld ?_ ?_ ?_ hdefault hdomains
          · rfl
          · exact fun heq => absurd heq hne
          · rfl
      | delete name => exact h.delete happly
      | setDefault name => exact h.setDefault happly
      | sweep now =>
          cases happly
          unfold runSweepOnce
          exact List.foldlRecOn _ _ h fun t ht entry _ => ht.sweepEntry L now entry

end Step

/-- In every run whose operations keep the default domain, the pointer and the flags
agree. -/
theorem default_domain_invariant (L : Libs) (ops : List DomainStoreOp)
    (hkeeps : Run.Meets (step L) KeepsDefault empty ops) :
    (Run.exec (step L) empty ops).DefaultsAgree :=
  (Run.exec_invariant (fun _ op hop hinv => hinv.step L op hop) inv_empty hkeeps).agree

/-! ## Two domains -/

namespace Sample

open Reference

/-- The entry of a new domain. -/
def created (name : String) : DomainEntry := { name := name, createdAt := 1000 }

/-- Two domains, of which `h.io` is the default. -/
def seeded : List DomainStoreOp :=
  [.create (created "h.io"), .create (created "x.io"), .setDefault "h.io"]

/-- The store that holds them. -/
def store : DomainStore := Run.exec (step libs) empty seeded

/-- A replicated entry of the default domain, in the disabled state. -/
def disabledEntry : DomainEntry :=
  { created "h.io" with
    status := .disabled
    defaultDomain := true
    disabledAt := some 2000
    purgeAt := some 3000 }

/-- The store after the entry was written. -/
def written : DomainStore := Run.exec (step libs) empty (seeded ++ [.update "h.io" disabledEntry])

theorem meets_seeded : Run.Meets (step libs) KeepsDefault empty seeded := by
  decide +kernel

theorem store_default : store.defaultDomain = some "h.io" := by
  decide +kernel

theorem written_default : written.defaultDomain = some "h.io" := by
  decide +kernel

theorem written_entry : written.domains.lookup "h.io" = some disabledEntry := by
  decide +kernel

end Sample

open DidHosting.DomainStore.Sample in
/-- After two creations `h.io` is made the default. -/
theorem default_domain_invariant_seeded :
    store.defaultDomain = some "h.io" ∧ store.DefaultsAgree :=
  ⟨store_default, default_domain_invariant Reference.libs seeded meets_seeded⟩

open DidHosting.DomainStore.Sample in
/-- An update stores a disabled entry for the default domain. -/
theorem update_disables_default :
    ¬ ∀ (L : Libs) (ops : List DomainStoreOp), (Run.exec (step L) empty ops).DefaultsAgree := by
  intro h
  have hagree : written.DefaultsAgree := h Reference.libs _
  obtain ⟨⟨entry, hentry, hactive, -⟩, -⟩ := hagree "h.io" written_default
  rw [written_entry] at hentry
  cases hentry
  cases hactive

end DomainStore

end DidHosting
