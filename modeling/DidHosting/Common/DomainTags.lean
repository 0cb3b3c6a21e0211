import DidHosting.Common.Reference
import DidHosting.Common.Store
import DidHosting.Support.RowWrites
import DidHosting.Support.Run

/-!
# Tagging records with their domain

Migration M-01 fills the empty domain of old records, from the host of their DID or else
with the default domain.  The runner marks a migration that ran to its end and does not run
it again; a run that is interrupted leaves no mark.  A record that gets no domain is
deferred, and the run goes on to its mark.
-/

namespace DidHosting

/-! ## The code -/

/-- A domain name that can be the default: `set_default_domain` stores a canonical name,
which is not empty. -/
abbrev DefaultDomain := { domain : String // domain ≠ "" }

/-- What the migration reads and writes: the `did:` rows, of which some may not parse, the
default domain, and the mark of the migration. -/
structure MigrationStore where
  dids : Table String (Option DidRecord)
  defaultDomain : Option DefaultDomain
  applied : Bool

namespace M01

section Code

variable (L : Libs) (systemDefault : Option DefaultDomain)

/-- `from_did_id`, or the system default. -/
def newDomain (record : DidRecord) : Option String :=
  match record.didId.bind fun did => (extractDidHost L did).toOption with
  | some host => some host
  | none => systemDefault.map Subtype.val

/-- The record that is written for a row. -/
def write : Option DidRecord → Option DidRecord
  | none => none
  | some record =>
      if record.domain ≠ "" then none
      else (newDomain L systemDefault record).map fun domain => { record with domain := domain }

end Code

variable (L : Libs)

/-- The writes of `M01TagDidRecordsWithDomain::run`, in order. -/
def writes (s : MigrationStore) : List (String × DidRecord) :=
  (Table.rows s.dids).filterMap fun row =>
    (write L s.defaultDomain row.2).map fun record => (row.1, record)

/-- Some of the writes done, by `dids.insert` for each. -/
def written (count : ℕ) (s : MigrationStore) : Table String (Option DidRecord) :=
  Table.write (((writes L s).take count).map fun w => (w.1, some w.2)) s.dids

/-- `run_pending`, stopped after some of the writes, by a failure or an interruption. -/
def interrupted (count : ℕ) (s : MigrationStore) : MigrationStore :=
  if s.applied then s else { s with dids := written L count s }

def runPending (s : MigrationStore) : MigrationStore :=
  if s.applied then s
  else { s with dids := written L (writes L s).length s, applied := true }

/-- What happens to the store: a boot runs the migration, to the end or not, and an
administrator sets the default domain. -/
inductive Event where
  | boot
  | interrupted (count : ℕ)
  | setDefault (domain : DefaultDomain)

/-- The store after an event. -/
def step (s : MigrationStore) : Event → MigrationStore
  | .boot => runPending L s
  | .interrupted count => M01.interrupted L count s
  | .setDefault domain => { s with defaultDomain := some domain }

/-! ## What is said of it -/

/-- The records differ at most in domains, which were empty. -/
def OnlyDomains (s t : MigrationStore) : Prop :=
  ∀ m, t.dids.lookup m = s.dids.lookup m ∨
    ∃ record domain, s.dids.lookup m = some (some record) ∧ record.domain = "" ∧
      t.dids.lookup m = some (some { record with domain := domain })

/-- No readable record is without a domain. -/
def AllTagged (s : MigrationStore) : Prop :=
  ∀ m record, s.dids.lookup m = some (some record) → record.domain ≠ ""

/-- A run would have to defer a record. -/
def Defers (s : MigrationStore) : Prop :=
  s.applied = false ∧ ∃ m record, s.dids.lookup m = some (some record) ∧
    record.domain = "" ∧ newDomain L s.defaultDomain record = none

/-! ## Hosts are not empty -/

theorem percentDecodeBytes_nil {bytes : List UInt8} (h : percentDecodeBytes bytes = some []) :
    bytes = [] := by
  cases bytes with
  | nil => rfl
  | cons b rest =>
      unfold percentDecodeBytes at h
      split at h
      · split at h
        · simp [Option.bind_eq_some_iff] at h
        · contradiction
      · simp [Option.bind_eq_some_iff] at h

theorem percentDecodeToString_empty {s : String} (h : percentDecodeToString s = some "") :
    s = "" := by
  unfold percentDecodeToString at h
  obtain ⟨out, hout, htext⟩ := Option.bind_eq_some_iff.mp h
  unfold String.fromUTF8? at htext
  split at htext
  · rename_i hvalid
    have hbytes : (⟨out.toArray⟩ : ByteArray) = ByteArray.empty := by
      rw [← String.toByteArray_empty, ← Option.some.inj htext]
      rfl
    have hnil : out = [] := by
      have hdata := congrArg (fun b => b.data.toList) hbytes
      simpa using hdata
    subst hnil
    have hs := percentDecodeBytes_nil hout
    apply String.toByteArray_eq_empty_iff.mp
    apply ByteArray.ext
    apply Array.toList_inj.mp
    simpa using hs
  · contradiction

theorem label_ne_empty {s label rest : String} (h : nextLabel s = some (label, rest)) :
    label ≠ "" := by
  unfold nextLabel at h
  split at h
  · split at h
    · contradiction
    · rename_i hne
      cases h
      exact hne
  · split at h
    · contradiction
    · rename_i hne
      cases h
      exact hne

variable {L} in
theorem parsed_domain_ne_empty {m : Method} {did : String} {parsed : ParsedDid}
    (h : parseIdentifier L m did = .ok parsed) : parsed.domain ≠ "" := by
  cases m with
  | webvh =>
      simp only [parseIdentifier, parseWebvhIdentifier] at h
      split at h
      · contradiction
      · split at h
        · contradiction
        · split at h
          · contradiction
          · rename_i hlabel
            cases h
            exact label_ne_empty hlabel
  | web =>
      simp only [parseIdentifier, parseWebIdentifier] at h
      split at h
      · contradiction
      · split at h
        · contradiction
        · rename_i hlabel
          cases h
          exact label_ne_empty hlabel
  | webs =>
      simp only [parseIdentifier, parseWebsIdentifier] at h
      split at h
      · split at h <;> contradiction
      · split at h
        all_goals
          split at h
          · contradiction
          · rename_i hne
            cases h
            exact hne

variable {L} in
theorem extractDidHost_ne_empty {did host : String} (h : extractDidHost L did = .ok host) :
    host ≠ "" := by
  unfold extractDidHost at h
  split at h
  · contradiction
  · split at h
    · contradiction
    · split at h
      · contradiction
      · rename_i parsed hparsed
        cases h
        have hdomain := parsed_domain_ne_empty hparsed
        intro hempty
        cases hdecoded : percentDecodeToString parsed.domain with
        | none => exact hdomain (by simpa [hdecoded] using hempty)
        | some decoded =>
            rw [hdecoded, Option.getD_some] at hempty
            subst hempty
            exact hdomain (percentDecodeToString_empty hdecoded)

theorem newDomain_ne_empty {systemDefault : Option DefaultDomain} {record : DidRecord}
    {domain : String} (h : newDomain L systemDefault record = some domain) : domain ≠ "" := by
  unfold newDomain at h
  split at h
  · rename_i hhost
    cases h
    obtain ⟨did, -, hdid⟩ := Option.bind_eq_some_iff.mp hhost
    cases hextract : extractDidHost L did with
    | error e => simp [hextract, Except.toOption] at hdid
    | ok host =>
        obtain rfl : host = domain := by simpa [hextract, Except.toOption] using hdid
        exact extractDidHost_ne_empty hextract
  · obtain ⟨d, -, rfl⟩ := Option.map_eq_some_iff.mp h
    exact d.property

/-! ## One row -/

/-- A row after a run that gets to it. -/
def tag (systemDefault : Option DefaultDomain) (row : Option DidRecord) : Option DidRecord :=
  match write L systemDefault row with
  | some record => some record
  | none => row

theorem write_eq_some {systemDefault : Option DefaultDomain} {row : Option DidRecord}
    {new : DidRecord} (h : write L systemDefault row = some new) :
    ∃ record domain, row = some record ∧ record.domain = "" ∧ domain ≠ "" ∧
      new = { record with domain := domain } := by
  unfold write at h
  split at h
  · contradiction
  · split at h
    · contradiction
    · rename_i record hempty
      obtain ⟨domain, hdomain, rfl⟩ := Option.map_eq_some_iff.mp h
      exact ⟨record, domain, rfl, not_not.mp hempty, newDomain_ne_empty L hdomain, rfl⟩

theorem tag_tag (systemDefault : Option DefaultDomain) (row : Option DidRecord) :
    tag L systemDefault (tag L systemDefault row) = tag L systemDefault row := by
  cases hwrite : write L systemDefault row with
  | none =>
      have hrow : tag L systemDefault row = row := by
        unfold tag
        rw [hwrite]
      rw [hrow, hrow]
  | some new =>
      obtain ⟨record, domain, -, -, hne, rfl⟩ := write_eq_some L hwrite
      have hrow : tag L systemDefault row = some { record with domain := domain } := by
        unfold tag
        rw [hwrite]
      rw [hrow]
      simp [tag, write, hne]

/-- A record is without a domain after a run that got to it only when it was deferred. -/
theorem tag_domain {systemDefault : Option DefaultDomain} {row : Option DidRecord}
    {record : DidRecord} (h : tag L systemDefault row = some record) (hempty : record.domain = "") :
    row = some record ∧ newDomain L systemDefault record = none := by
  cases hwrite : write L systemDefault row with
  | some new =>
      obtain ⟨old, domain, -, -, hne, rfl⟩ := write_eq_some L hwrite
      simp only [tag, hwrite] at h
      cases h
      exact absurd hempty hne
  | none =>
      simp only [tag, hwrite] at h
      subst h
      refine ⟨rfl, ?_⟩
      simpa [write, hempty] using hwrite

/-! ## One run -/

theorem mem_writes {s : MigrationStore} {m : String} {new : DidRecord}
    (h : (m, new) ∈ writes L s) :
    ∃ row, s.dids.lookup m = some row ∧ write L s.defaultDomain row = some new := by
  obtain ⟨⟨m', row⟩, hrow, hwrite⟩ := List.mem_filterMap.mp h
  obtain ⟨new', hnew, heq⟩ := Option.map_eq_some_iff.mp hwrite
  cases heq
  exact ⟨row, Table.mem_rows.mp hrow, hnew⟩

theorem writes_mem {s : MigrationStore} {m : String} {row : Option DidRecord} {new : DidRecord}
    (hrow : s.dids.lookup m = some row) (hwrite : write L s.defaultDomain row = some new) :
    (m, new) ∈ writes L s := by
  refine List.mem_filterMap.mpr ⟨(m, row), Table.mem_rows.mpr hrow, ?_⟩
  simp [hwrite]

theorem keys_writes_nodup (s : MigrationStore) : ((writes L s).map (·.1)).Nodup := by
  have hkeys : ((writes L s).map (·.1)).Sublist ((Table.rows s.dids).map (·.1)) := by
    unfold writes
    induction Table.rows s.dids with
    | nil => simp
    | cons row rest ih =>
        cases hwrite : write L s.defaultDomain row.2 with
        | none => simpa [hwrite] using ih.cons _
        | some new => simpa [hwrite] using ih
  exact hkeys.nodup (Table.keys_rows_nodup s.dids)

/-- After some of the writes a row is as it was, or tagged. -/
theorem written_lookup (count : ℕ) (s : MigrationStore) (m : String) :
    (written L count s).lookup m = s.dids.lookup m ∨
      ∃ row new, s.dids.lookup m = some row ∧ write L s.defaultDomain row = some new ∧
        (written L count s).lookup m = some (some new) := by
  rcases Table.lookup_write_cases _ s.dids m with hsame | ⟨v, hv, hlookup⟩
  · exact .inl hsame
  · obtain ⟨⟨m', new⟩, hnew, heq⟩ := List.mem_map.mp hv
    cases heq
    obtain ⟨row, hrow, hwrite⟩ := mem_writes L (List.mem_of_mem_take hnew)
    exact .inr ⟨row, new, hrow, hwrite, hlookup⟩

/-- After all of the writes every row is tagged. -/
theorem written_all_lookup (s : MigrationStore) (m : String) :
    (written L (writes L s).length s).lookup m =
      (s.dids.lookup m).map (tag L s.defaultDomain) := by
  have hall : written L (writes L s).length s =
      Table.write ((writes L s).map fun w => (w.1, some w.2)) s.dids := by
    unfold written
    rw [List.take_length]
  have hkeys : (((writes L s).map fun w => (w.1, some w.2)).map (·.1)).Nodup := by
    rw [List.map_map]
    exact keys_writes_nodup L s
  rw [hall, Table.lookup_write]
  cases hrow : s.dids.lookup m with
  | none =>
      have hnone : Table.lastValue m ((writes L s).map fun w => (w.1, some w.2)) = none := by
        apply Table.lastValue_eq_none.mpr
        intro hmem
        obtain ⟨w, hw, rfl⟩ : ∃ w ∈ writes L s, w.1 = m := by simpa using hmem
        obtain ⟨row, hrow', -⟩ := mem_writes L hw
        rw [hrow] at hrow'
        contradiction
      rw [hnone]
      rfl
  | some row =>
      cases hwrite : write L s.defaultDomain row with
      | some new =>
          have hmem : (m, some new) ∈ (writes L s).map fun w => (w.1, some w.2) :=
            List.mem_map.mpr ⟨(m, new), writes_mem L hrow hwrite, rfl⟩
          rw [Table.lastValue_of_mem hkeys hmem]
          simp [tag, hwrite]
      | none =>
          have hnone : Table.lastValue m ((writes L s).map fun w => (w.1, some w.2)) = none := by
            apply Table.lastValue_eq_none.mpr
            intro hmem
            obtain ⟨w, hw, rfl⟩ : ∃ w ∈ writes L s, w.1 = m := by simpa using hmem
            obtain ⟨row', hrow', hnew⟩ := mem_writes L hw
            rw [hrow] at hrow'
            cases hrow'
            rw [hwrite] at hnew
            contradiction
          rw [hnone]
          simp [tag, hwrite]

theorem written_onlyDomains (count : ℕ) (s : MigrationStore) (t : MigrationStore)
    (ht : t.dids = written L count s) : OnlyDomains s t := by
  intro m
  rw [ht]
  rcases written_lookup L count s m with hsame | ⟨row, new, hrow, hwrite, hnew⟩
  · exact .inl hsame
  · obtain ⟨record, domain, rfl, hempty, -, rfl⟩ := write_eq_some L hwrite
    exact .inr ⟨record, domain, hrow, hempty, hnew⟩

theorem OnlyDomains.refl (s : MigrationStore) : OnlyDomains s s :=
  fun _ => .inl rfl

theorem interrupted_onlyDomains (count : ℕ) (s : MigrationStore) :
    OnlyDomains s (interrupted L count s) := by
  unfold interrupted
  split
  · exact .refl s
  · exact written_onlyDomains L count s _ rfl

theorem runPending_onlyDomains (s : MigrationStore) : OnlyDomains s (runPending L s) := by
  unfold runPending
  split
  · exact .refl s
  · exact written_onlyDomains L _ s _ rfl

theorem runPending_lookup {s : MigrationStore} (h : s.applied = false) (m : String) :
    (runPending L s).dids.lookup m = (s.dids.lookup m).map (tag L s.defaultDomain) := by
  unfold runPending
  rw [if_neg (by simp [h])]
  exact written_all_lookup L s m

theorem runPending_interrupted (count : ℕ) (s : MigrationStore) (m : String) :
    (runPending L (interrupted L count s)).dids.lookup m = (runPending L s).dids.lookup m := by
  cases happlied : s.applied with
  | true => simp [interrupted, happlied]
  | false =>
      have hint : interrupted L count s = { s with dids := written L count s } := by
        simp [interrupted, happlied]
      have hrun := runPending_lookup L (s := { s with dids := written L count s }) happlied m
      rw [runPending_lookup L happlied, hint, hrun]
      rcases written_lookup L count s m with hsame | ⟨row, new, hrow, hwrite, hnew⟩
      · rw [hsame]
      · have htag : tag L s.defaultDomain row = some new := by simp [tag, hwrite]
        rw [hnew, hrow, Option.map_some, Option.map_some, ← htag, tag_tag]

/-- A run that is not skipped leaves out the records it defers, and no others. -/
theorem runPending_allTagged {s : MigrationStore} (h : s.applied = false) :
    AllTagged (runPending L s) ↔ ¬ Defers L s := by
  constructor
  · rintro htagged ⟨-, m, record, hrow, hempty, hnew⟩
    refine htagged m record ?_ hempty
    rw [runPending_lookup L h, hrow]
    simp [tag, write, hnew]
  · intro hdefers m record hrow hempty
    rw [runPending_lookup L h] at hrow
    obtain ⟨row, hold, htag⟩ := Option.map_eq_some_iff.mp hrow
    obtain ⟨rfl, hnew⟩ := tag_domain L htag hempty
    exact hdefers ⟨h, m, record, hold, hempty, hnew⟩

theorem runPending_applied (s : MigrationStore) : (runPending L s).applied = true := by
  unfold runPending
  split
  · assumption
  · rfl

theorem runPending_of_applied {s : MigrationStore} (h : s.applied = true) :
    runPending L s = s := by
  unfold runPending
  rw [if_pos h]

/-! ## Runs -/

/-- A store that is marked has all its records tagged. -/
def MarkedTagged (s : MigrationStore) : Prop :=
  s.applied = true → AllTagged s

/-- A boot that defers a record is the only event that leaves a marked store with a record
that has no domain. -/
theorem step_markedTagged (s : MigrationStore) (e : Event) (h : MarkedTagged s) :
    MarkedTagged (step L s e) ↔ (e = .boot → ¬ Defers L s) := by
  cases e with
  | boot =>
      cases happlied : s.applied with
      | true =>
          have hdefers : ¬ Defers L s := fun hd => by simp [hd.1] at happlied
          simp [step, runPending_of_applied L happlied, h, hdefers]
      | false =>
          have hmark : MarkedTagged (runPending L s) ↔ AllTagged (runPending L s) :=
            ⟨fun ht => ht (runPending_applied L s), fun ht _ => ht⟩
          simp only [step, hmark, runPending_allTagged L happlied, true_imp_iff]
  | interrupted count =>
      have hkept : MarkedTagged (interrupted L count s) := by
        unfold interrupted
        split
        · exact h
        · rename_i happlied
          exact fun hmark => absurd hmark happlied
      simp [step, hkept]
  | setDefault domain =>
      have hkept : MarkedTagged { s with defaultDomain := some domain } := h
      simp [step, hkept]

theorem step_not_markedTagged (s : MigrationStore) (e : Event) (h : ¬ MarkedTagged s) :
    ¬ MarkedTagged (step L s e) := by
  have happlied : s.applied = true := by
    by_contra hnot
    exact h fun hmark => absurd hmark hnot
  cases e with
  | boot => rwa [step, runPending_of_applied L happlied]
  | interrupted count =>
      have hsame : interrupted L count s = s := by
        unfold interrupted
        rw [if_pos happlied]
      rwa [step, hsame]
  | setDefault domain => exact h

theorem exec_not_markedTagged (s : MigrationStore) (events : List Event)
    (h : ¬ MarkedTagged s) : ¬ MarkedTagged (Run.exec (step L) s events) := by
  induction events generalizing s with
  | nil => exact h
  | cons e events ih =>
      rw [Run.exec_cons]
      exact ih _ (step_not_markedTagged L s e h)

theorem exec_markedTagged (s : MigrationStore) (events : List Event) (h : MarkedTagged s) :
    MarkedTagged (Run.exec (step L) s events) ↔
      Run.Meets (step L) (fun t e => e = .boot → ¬ Defers L t) s events := by
  induction events generalizing s with
  | nil => exact ⟨fun _ => trivial, fun _ => h⟩
  | cons e events ih =>
      rw [Run.exec_cons]
      by_cases hok : e = .boot → ¬ Defers L s
      · rw [ih _ ((step_markedTagged L s e h).mpr hok)]
        exact ⟨fun hrest => ⟨hok, hrest⟩, fun hmeets => hmeets.2⟩
      · have hbad := exec_not_markedTagged L _ events
          (mt (step_markedTagged L s e h).mp hok)
        exact ⟨fun hgood => absurd hgood hbad, fun hmeets => absurd hmeets.1 hok⟩

/-- The run after a default domain is set leaves no record without a domain, unless the
store is marked already and has one. -/
theorem tagged_after_default (s : MigrationStore) (d : DefaultDomain) :
    AllTagged (runPending L { s with defaultDomain := some d }) ↔ MarkedTagged s := by
  by_cases happlied : s.applied = true
  · have hskip := runPending_of_applied L (s := { s with defaultDomain := some d }) happlied
    rw [hskip]
    exact ⟨fun h _ => h, fun h => h happlied⟩
  · have hnot := Bool.eq_false_of_not_eq_true happlied
    have hrun := runPending_allTagged L (s := { s with defaultDomain := some d }) hnot
    rw [hrun]
    constructor
    · intro _ hmark
      exact absurd hmark happlied
    · rintro - ⟨-, m, record, -, -, hnone⟩
      unfold newDomain at hnone
      split at hnone <;> contradiction

end M01

open M01 in
/-- Runs of the migration change empty domains only, and an interrupted run is made good by
the next one.  But a run that defers a record marks the migration all the same: the run after
a default domain is set tags every record exactly when no run before it that came to its end
had to defer one. -/
theorem m01_converges_iff (L : Libs) (dids : Table String (Option DidRecord))
    (defaultDomain : Option DefaultDomain) :
    (∀ s, OnlyDomains s (runPending L s)) ∧
      (∀ count s, OnlyDomains s (interrupted L count s)) ∧
      (∀ count s m, (runPending L (interrupted L count s)).dids.lookup m =
        (runPending L s).dids.lookup m) ∧
      ∀ events d,
        AllTagged (Run.exec (step L) ⟨dids, defaultDomain, false⟩
          (events ++ [.setDefault d, .boot])) ↔
        Run.Meets (step L) (fun s e => e = .boot → ¬ Defers L s)
          ⟨dids, defaultDomain, false⟩ events := by
  refine ⟨runPending_onlyDomains L, interrupted_onlyDomains L, runPending_interrupted L, ?_⟩
  intro events d
  rw [Run.exec_append, Run.exec_cons, Run.exec_cons, Run.exec_nil]
  rw [← exec_markedTagged L _ events (fun hmark => by contradiction)]
  exact tagged_after_default L _ d

namespace M01

/-- A record without a DID and without a domain. -/
def legacyRecord : DidRecord where
  owner := "did:web:a"
  mnemonic := "al"
  createdAt := 0
  updatedAt := 0
  versionCount := 0
  didId := none
  contentSize := 0
  disabled := false
  deletedAt := none
  method := .webvh
  domain := ""
  services := none
  agentNames := []

/-- A store with that record and no default domain. -/
def legacyStore : MigrationStore where
  dids := (∅ : Table String (Option DidRecord)).insert "al" (some legacyRecord)
  defaultDomain := none
  applied := false

/-- The default domain that is set later. -/
def laterDefault : DefaultDomain := ⟨"h.io", by decide⟩

/-- The first boot defers the record, and the boot after a default domain is set leaves it
without a domain. -/
theorem deferred_stays_untagged :
    Defers Reference.libs legacyStore ∧
      ¬ AllTagged (Run.exec (step Reference.libs) legacyStore
        ([.boot] ++ [.setDefault laterDefault, .boot])) := by
  have hrow : (Run.exec (step Reference.libs) legacyStore
      ([.boot] ++ [.setDefault laterDefault, .boot])).dids.lookup "al" =
        some (some legacyRecord) := by
    decide +kernel
  constructor
  · exact ⟨rfl, "al", legacyRecord, by decide +kernel, rfl, rfl⟩
  · intro htagged
    exact htagged "al" legacyRecord hrow rfl

end M01

end DidHosting
