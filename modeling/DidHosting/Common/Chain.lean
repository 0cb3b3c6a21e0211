import DidHosting.Common.DidLog

/-!
# Verified chains

A chain is verified when each entry verifies after the one before it, under the
parameters that were validated for that one.  The verifiers of did:webvh logs accept
verified chains only.
-/

namespace DidHosting

open Text

variable {L : Libs}

/-- Each entry verifies after the one before it. -/
def Verified (L : Libs) :
    Option (L.LogEntry × L.Parameters) → List (LogEntryState L) → Prop
  | _, [] => True
  | previous, e :: rest =>
      L.verifyLogEntry e.logEntry previous = .ok e.validatedParameters ∧
        Verified L (some (e.logEntry, e.validatedParameters)) rest

theorem verifyChain_ok_iff {previous : Option (L.LogEntry × L.Parameters)}
    {entries : List (L.LogEntry × ℕ)} {states : List (LogEntryState L)} :
    verifyChain L previous entries = .ok states ↔
      Verified L previous states ∧
        (states.map fun e => (e.logEntry, e.versionNumber)) = entries := by
  induction entries generalizing previous states with
  | nil =>
      constructor
      · intro h
        cases h
        exact ⟨trivial, rfl⟩
      · rintro ⟨-, hmap⟩
        rw [List.map_eq_nil_iff.mp hmap]
        rfl
  | cons entry entries ih =>
      obtain ⟨e, n⟩ := entry
      constructor
      · intro h
        unfold verifyChain at h
        cases hverify : L.verifyLogEntry e previous with
        | error err => simp [hverify] at h
        | ok params =>
            cases hrest : verifyChain L (some (e, params)) entries with
            | error err => simp [hverify, hrest, bind, Except.bind] at h
            | ok rest =>
                simp only [hverify, hrest, bind, Except.bind] at h
                cases h
                obtain ⟨hchain, hmap⟩ := ih.mp hrest
                refine ⟨⟨hverify, hchain⟩, ?_⟩
                rw [List.map_cons, hmap]
      · rintro ⟨hchain, hmap⟩
        obtain ⟨state, rest, rfl, hstate, hrest⟩ := List.map_eq_cons_iff.mp hmap
        obtain ⟨rfl, rfl⟩ := Prod.mk.inj hstate
        obtain ⟨hverify, htail⟩ := hchain
        have htail := ih.mpr ⟨htail, hrest⟩
        unfold verifyChain
        simp only [hverify, htail]
        rfl

theorem Verified.take {previous : Option (L.LogEntry × L.Parameters)}
    {states : List (LogEntryState L)} (h : Verified L previous states) (k : ℕ) :
    Verified L previous (states.take k) := by
  induction states generalizing previous k with
  | nil =>
      rw [List.take_nil]
      exact trivial
  | cons e states ih =>
      cases k with
      | zero => exact trivial
      | succ k => exact ⟨h.1, ih h.2 k⟩

/-! ## Reading a log -/

/-- The entries the trimmed lines `ls` read as, each under the version its predecessor
declares. -/
def ReadsAs (L : Libs) : Option L.Version → List String → List (L.LogEntry × ℕ) → Prop
  | _, [], [] => True
  | version, l :: ls, (e, n) :: es =>
      L.deserializeString l version = .ok e ∧ L.versionNumber e = .ok n ∧
        ReadsAs L (some (L.webvhVersion e)) ls es
  | _, _, _ => False

theorem parseEntries_ok_iff {idx : ℕ} {version : Option L.Version} {ls : List String}
    {entries : List (L.LogEntry × ℕ)} :
    parseEntries L idx version ls = .ok entries ↔
      ReadsAs L version ((ls.filter fun l => !isBlank l).map trim) entries := by
  induction ls generalizing idx version entries with
  | nil =>
      cases entries with
      | nil => exact ⟨fun _ => trivial, fun _ => rfl⟩
      | cons e es => exact ⟨fun h => (nomatch h), fun h => h.elim⟩
  | cons l ls ih =>
      unfold parseEntries
      by_cases hblank : isBlank l = true
      · rw [if_pos hblank, List.filter_cons_of_neg (by simp [hblank])]
        exact ih
      · rw [if_neg hblank, List.filter_cons_of_pos (by simp [hblank]), List.map_cons]
        cases hread : L.deserializeString (trim l) version with
        | error err =>
            constructor
            · intro h
              cases h
            · intro h
              cases entries with
              | nil => exact h.elim
              | cons e es => exact absurd (hread.symm.trans h.1) (by simp)
        | ok entry =>
            cases hnumber : L.versionNumber entry with
            | error err =>
                constructor
                · intro h
                  simp [hnumber] at h
                · intro h
                  cases entries with
                  | nil => exact h.elim
                  | cons e es =>
                      obtain ⟨he, hn, -⟩ := h
                      cases hread.symm.trans he
                      rw [hnumber] at hn
                      cases hn
            | ok n =>
                simp only [hnumber]
                constructor
                · intro h
                  cases hrest : parseEntries L (idx + 1) (some (L.webvhVersion entry)) ls with
                  | error err => simp [hrest, bind, Except.bind] at h
                  | ok rest =>
                      simp only [hrest, bind, Except.bind] at h
                      cases h
                      exact ⟨hread, hnumber, ih.mp hrest⟩
                · intro h
                  cases entries with
                  | nil => exact h.elim
                  | cons e es =>
                      obtain ⟨he, hn, hrest⟩ := h
                      cases hread.symm.trans he
                      cases hnumber.symm.trans hn
                      rw [ih.mpr hrest]
                      rfl

/-- The lines of a log, read one after the other, are its entries. -/
theorem parseEntries_iff_readsAs {content : String} {entries : List (L.LogEntry × ℕ)} :
    parseEntries L 0 none (lines content) = .ok entries ↔
      ReadsAs L none (trimmedLines content) entries := by
  rw [parseEntries_ok_iff, trimmedLines_eq_map]
  rfl

theorem validateLines_ok_iff {idx : ℕ} {ls : List String} :
    validateLines L idx ls = .ok () ↔
      ∀ l ∈ (ls.filter fun l => !isBlank l).map trim,
        ∃ e, L.deserializeString l none = .ok e := by
  induction ls generalizing idx with
  | nil =>
      refine ⟨fun _ l hl => ?_, fun _ => rfl⟩
      exact absurd hl List.not_mem_nil
  | cons l ls ih =>
      unfold validateLines
      by_cases hblank : isBlank l = true
      · rw [if_pos hblank, List.filter_cons_of_neg (by simp [hblank])]
        exact ih
      · rw [if_neg hblank, List.filter_cons_of_pos (by simp [hblank]), List.map_cons]
        cases hread : L.deserializeString (trim l) none with
        | error err =>
            constructor
            · intro h
              cases h
            · intro h
              obtain ⟨e, he⟩ := h _ List.mem_cons_self
              rw [hread] at he
              cases he
        | ok e =>
            rw [List.forall_mem_cons]
            exact ⟨fun h => ⟨⟨e, hread⟩, ih.mp h⟩, fun h => ih.mpr h.2⟩

theorem startsWith_of_extractDidId {content id : String} (h : extractDidId L content = some id) :
    startsWith "did:webvh:" id = true := by
  unfold extractDidId at h
  split at h
  · cases h
  · split at h
    · split at h
      · cases h
        assumption
      · cases h
    · cases h

theorem entryCount_eq_length (content : String) :
    entryCount content = (trimmedLines content).length := by
  rw [length_trimmedLines]
  rfl

theorem validateDidJsonl_ok_iff {content : String} :
    validateDidJsonl L content = .ok () ↔
      trimmedLines content ≠ [] ∧ (trimmedLines content).length ≤ maxLogEntries ∧
        (∀ l ∈ trimmedLines content, ∃ e, L.deserializeString l none = .ok e) ∧
          (extractDidId L content).isSome := by
  have hlines : validateLines L 0 (lines content) = .ok () ↔
      ∀ l ∈ trimmedLines content, ∃ e, L.deserializeString l none = .ok e := by
    rw [trimmedLines_eq_map]
    exact validateLines_ok_iff
  unfold validateDidJsonl
  rw [entryCount_eq_length]
  by_cases hempty : content = ""
  · have hnone : trimmedLines "" = [] := rfl
    simp [hempty, hnone]
  · rw [if_neg hempty]
    by_cases hcount : (trimmedLines content).length = 0
    · rw [if_pos hcount]
      simp [List.length_eq_zero_iff.mp hcount]
    · have hne : trimmedLines content ≠ [] := fun h => hcount (by rw [h]; rfl)
      rw [if_neg hcount]
      by_cases hlong : maxLogEntries < (trimmedLines content).length
      · rw [if_pos hlong]
        simp [Nat.not_le_of_lt hlong]
      · rw [if_neg hlong, ← hlines]
        cases hread : validateLines L 0 (lines content) with
        | error e => simp [bind, Except.bind]
        | ok u =>
            cases hid : extractDidId L content with
            | none => simp [bind, Except.bind]
            | some id =>
                simp [bind, Except.bind, startsWith_of_extractDidId hid, hne,
                  Nat.le_of_not_lt hlong]

theorem ReadsAs.length_eq {version : Option L.Version} {ls : List String}
    {entries : List (L.LogEntry × ℕ)} (h : ReadsAs L version ls entries) :
    ls.length = entries.length := by
  induction ls generalizing version entries with
  | nil =>
      cases entries with
      | nil => rfl
      | cons e es => exact h.elim
  | cons l ls ih =>
      cases entries with
      | nil => exact h.elim
      | cons e es => exact congrArg (· + 1) (ih h.2.2)

theorem ReadsAs.take {version : Option L.Version} {ls : List String}
    {entries : List (L.LogEntry × ℕ)} (h : ReadsAs L version ls entries) (k : ℕ) :
    ReadsAs L version (ls.take k) (entries.take k) := by
  induction ls generalizing version entries k with
  | nil =>
      cases entries with
      | nil =>
          rw [List.take_nil, List.take_nil]
          exact trivial
      | cons e es => exact h.elim
  | cons l ls ih =>
      cases entries with
      | nil => exact h.elim
      | cons e es =>
          cases k with
          | zero => exact trivial
          | succ k => exact ⟨h.1, h.2.1, ih h.2.2 k⟩

/-- One more line is read behind the entries before it. -/
theorem ReadsAs.concat {version : Option L.Version} {ls : List String} {l : String}
    {entries : List (L.LogEntry × ℕ)} (h : ReadsAs L version (ls ++ [l]) entries) :
    ∃ before e n last, entries = before ++ [(e, n)] ∧ ReadsAs L version ls before ∧
      L.deserializeString l last = .ok e := by
  induction ls generalizing version entries with
  | nil =>
      cases entries with
      | nil => exact h.elim
      | cons entry rest =>
          obtain ⟨hread, -, hrest⟩ := h
          cases rest with
          | nil => exact ⟨[], entry.1, entry.2, version, rfl, trivial, hread⟩
          | cons next rest => exact hrest.elim
  | cons first ls ih =>
      cases entries with
      | nil => exact h.elim
      | cons entry rest =>
          obtain ⟨hread, hnumber, hrest⟩ := h
          obtain ⟨before, e, n, last, rfl, hbefore, hlast⟩ := ih hrest
          exact ⟨entry :: before, e, n, last, rfl, ⟨hread, hnumber, hbefore⟩, hlast⟩

/-- The numbers that were read are the entries' own. -/
theorem ReadsAs.versionNumber {version : Option L.Version} {ls : List String}
    {entries : List (L.LogEntry × ℕ)} (h : ReadsAs L version ls entries) :
    ∀ e ∈ entries, L.versionNumber e.1 = .ok e.2 := by
  induction ls generalizing version entries with
  | nil =>
      cases entries with
      | nil => exact fun e he => absurd he List.not_mem_nil
      | cons e es => exact h.elim
  | cons l ls ih =>
      cases entries with
      | nil => exact h.elim
      | cons e es => exact List.forall_mem_cons.mpr ⟨h.2.1, ih h.2.2⟩

theorem parseAndVerifyChain_ok_iff {content : String} {states : List (LogEntryState L)} :
    parseAndVerifyChain L content = .ok states ↔
      validateDidJsonl L content = .ok () ∧ Verified L none states ∧
        ReadsAs L none (trimmedLines content)
          (states.map fun e => (e.logEntry, e.versionNumber)) := by
  unfold parseAndVerifyChain
  cases hvalid : validateDidJsonl L content with
  | error e => simp [bind, Except.bind]
  | ok u =>
      cases hparse : parseEntries L 0 none (lines content) with
      | error e =>
          have hnone : ∀ entries, ¬ ReadsAs L none (trimmedLines content) entries := by
            intro entries h
            rw [← parseEntries_iff_readsAs, hparse] at h
            cases h
          simp [bind, Except.bind, hnone]
      | ok entries =>
          simp only [bind, Except.bind]
          rw [verifyChain_ok_iff]
          have hentries := parseEntries_iff_readsAs.mp hparse
          constructor
          · rintro ⟨hchain, rfl⟩
            exact ⟨trivial, hchain, hentries⟩
          · rintro ⟨-, hchain, hstates⟩
            refine ⟨hchain, ?_⟩
            have hsame := parseEntries_iff_readsAs.mpr hstates
            rw [hparse] at hsame
            exact (Except.ok.inj hsame).symm

/-! ## Version ids -/

/-- The version ids of a chain. -/
def versionIds (states : List (LogEntryState L)) : List String :=
  states.map fun e => L.versionId e.logEntry

/-- The documented property of the hash chain: a version id stands for its whole log up
to that version. -/
def CommitsToPrefix (L : Libs) : Prop :=
  ∀ states states' : List (LogEntryState L), Verified L none states → Verified L none states' →
    ∀ i v, (versionIds states)[i]? = some v → (versionIds states')[i]? = some v →
      (versionIds states).take (i + 1) = (versionIds states').take (i + 1)

end DidHosting
