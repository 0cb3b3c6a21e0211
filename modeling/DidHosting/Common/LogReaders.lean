import DidHosting.Common.Chain
import DidHosting.Common.Reference
import DidHosting.Common.WebDocument

/-!
# The readers of a log

Six functions read a log, and each splits the text into lines by itself.  They describe
one log when they count the same entries and read the same one as the latest.  Two of
them take blank lines for entries, and one drops the lines it cannot parse before they
are trimmed, so on an accepted log they agree exactly when no line is blank and every
line parses as it stands.
-/

namespace DidHosting

open Text

variable {L : Libs} {content : String}

/-- The readers describe one log, whose latest entry is `value`: they count its non-blank
lines, and what they read of the latest entry is read of `value`. -/
structure ReadersAgree (L : Libs) (content : String) (value : Json) : Prop where
  latest : lastValue L content = some value
  metadata_count : (extractLogMetadata L content).logEntryCount = entryCount content
  parsed_count : (parseLogEntries L content).length = entryCount content
  metadata_version :
    (extractLogMetadata L content).latestVersionId = (value.get "versionId").bind Json.asStr ∧
      (extractLogMetadata L content).latestVersionTime = (value.get "versionTime").bind Json.asStr
  did_id :
    extractDidId L content =
      (((value.get "state").bind (Json.get "id")).bind Json.asStr).filter
        (startsWith "did:webvh:")
  service_types : extractServiceTypes L content = (value.get "state").map serviceTypesFromDoc
  web_document :
    ∀ expected, extractDidWebDocument L content expected = webDocument L value expected
  parsed_latest : (parseLogEntries L content).getLast? = some (logEntryInfo value)

/-! ## What each reader counts -/

/-- The fields `parameters` decides are not the count and the latest version. -/
theorem parametersMetadata_version (params : Json) (md : LogMetadata) :
    (parametersMetadata params md).logEntryCount = md.logEntryCount ∧
      (parametersMetadata params md).latestVersionId = md.latestVersionId ∧
        (parametersMetadata params md).latestVersionTime = md.latestVersionTime := by
  have hwatchers : ∀ md : LogMetadata,
      (watcherMetadata params md).logEntryCount = md.logEntryCount ∧
        (watcherMetadata params md).latestVersionId = md.latestVersionId ∧
          (watcherMetadata params md).latestVersionTime = md.latestVersionTime := by
    intro md
    unfold watcherMetadata
    split <;> exact ⟨rfl, rfl, rfl⟩
  have hwitness : ∀ md : LogMetadata,
      (witnessMetadata params md).logEntryCount = md.logEntryCount ∧
        (witnessMetadata params md).latestVersionId = md.latestVersionId ∧
          (witnessMetadata params md).latestVersionTime = md.latestVersionTime := by
    intro md
    unfold witnessMetadata
    split
    · exact ⟨rfl, rfl, rfl⟩
    · simp only
      split <;> exact ⟨rfl, rfl, rfl⟩
  unfold parametersMetadata
  rw [(hwatchers _).1, (hwatchers _).2.1, (hwatchers _).2.2, (hwitness _).1, (hwitness _).2.1,
    (hwitness _).2.2]
  exact ⟨rfl, rfl, rfl⟩

/-- The metadata counts every line, the blank ones too. -/
theorem logEntryCount_eq :
    (extractLogMetadata L content).logEntryCount = (lines content).length := by
  unfold extractLogMetadata
  cases (lines content).getLast?.bind fun line => (L.fromStr line).toOption with
  | none => rfl
  | some entry =>
      simp only
      cases entry.get "parameters" with
      | none => rfl
      | some params => exact (parametersMetadata_version params _).1

theorem metadata_version_eq {entry : Json}
    (h : ((lines content).getLast?.bind fun line => (L.fromStr line).toOption) = some entry) :
    (extractLogMetadata L content).latestVersionId = (entry.get "versionId").bind Json.asStr ∧
      (extractLogMetadata L content).latestVersionTime =
        (entry.get "versionTime").bind Json.asStr := by
  unfold extractLogMetadata
  rw [h]
  simp only
  cases entry.get "parameters" with
  | none => exact ⟨rfl, rfl⟩
  | some params => exact (parametersMetadata_version params _).2

theorem logEntryCount_eq_entryCount_iff :
    (extractLogMetadata L content).logEntryCount = entryCount content ↔
      ∀ line ∈ lines content, isBlank line = false := by
  rw [logEntryCount_eq, entryCount, nonblankLines, eq_comm, List.length_filter_eq_length_iff]
  simp

theorem length_parseLogEntries_iff :
    (parseLogEntries L content).length = entryCount content ↔
      ∀ line ∈ nonblankLines content, (L.fromStr line).toOption.isSome := by
  rw [parseLogEntries, entryCount, List.filterMap_length_eq_length]
  simp

theorem getLast?_filterMap {α β : Type} {f : α → Option β} {xs : List α} {x : α} {y : β}
    (hlast : xs.getLast? = some x) (hf : f x = some y) : (xs.filterMap f).getLast? = some y := by
  obtain ⟨init, rfl⟩ := List.getLast?_eq_some_iff.mp hlast
  rw [List.filterMap_append, List.filterMap_cons_some hf, List.filterMap_nil,
    List.getLast?_concat]

/-! ## Agreement -/

theorem lastValue_of_extractDidId {id : String} (h : extractDidId L content = some id) :
    ∃ value, lastValue L content = some value := by
  unfold extractDidId at h
  cases hvalue : lastValue L content with
  | none => simp [hvalue] at h
  | some value => exact ⟨value, rfl⟩

theorem extractDidId_of_lastValue {value : Json} (h : lastValue L content = some value) :
    extractDidId L content =
      (((value.get "state").bind (Json.get "id")).bind Json.asStr).filter
        (startsWith "did:webvh:") := by
  unfold extractDidId
  rw [h]
  simp only
  generalize ((value.get "state").bind (Json.get "id")).bind Json.asStr = id
  cases id with
  | none => rfl
  | some id => rw [Option.filter_some]

theorem lastEntry_of_lastValue {value : Json} (h : lastValue L content = some value) :
    ∃ line, lastEntry content = some line ∧ (L.fromStr line).toOption = some value := by
  unfold lastValue at h
  cases hline : lastEntry content with
  | none => simp [hline] at h
  | some line => exact ⟨line, rfl, by simpa [hline] using h⟩

theorem ReadersAgree.entry_lines {value : Json} (h : ReadersAgree L content value) :
    ∀ line ∈ lines content, isBlank line = false ∧ (L.fromStr line).toOption.isSome := by
  intro line hline
  have hblank := logEntryCount_eq_entryCount_iff.mp h.metadata_count line hline
  refine ⟨hblank, length_parseLogEntries_iff.mp h.parsed_count line ?_⟩
  exact List.mem_filter.mpr ⟨hline, by simp [hblank]⟩

/-- The readers of an accepted log agree exactly when each of its lines is an entry as it
stands: not blank, and parsed without being trimmed first. -/
theorem readersAgree_iff (hvalid : validateDidJsonl L content = .ok ()) :
    (∃ value, ReadersAgree L content value) ↔
      ∀ line ∈ lines content, isBlank line = false ∧ (L.fromStr line).toOption.isSome := by
  constructor
  · rintro ⟨value, hagree⟩
    exact hagree.entry_lines
  · intro hlines
    obtain ⟨-, -, -, hid⟩ := validateDidJsonl_ok_iff.mp hvalid
    obtain ⟨id, hid⟩ := Option.isSome_iff_exists.mp hid
    obtain ⟨value, hvalue⟩ := lastValue_of_extractDidId hid
    obtain ⟨line, hline, hread⟩ := lastEntry_of_lastValue hvalue
    have hall : nonblankLines content = lines content := by
      refine List.filter_eq_self.mpr fun l hl => ?_
      rw [(hlines l hl).1]
      rfl
    have hlast : ((lines content).getLast?.bind fun line => (L.fromStr line).toOption) =
        some value := by
      rw [← hall, ← lastEntry, hline]
      exact hread
    refine ⟨value, ?_⟩
    constructor
    · exact hvalue
    · exact logEntryCount_eq_entryCount_iff.mpr fun l hl => (hlines l hl).1
    · refine length_parseLogEntries_iff.mpr fun l hl => (hlines l ?_).2
      rw [← hall]
      exact hl
    · exact metadata_version_eq hlast
    · exact extractDidId_of_lastValue hvalue
    · unfold extractServiceTypes
      rw [hvalue]
    · intro expected
      unfold extractDidWebDocument
      rw [hlast]
    · refine getLast?_filterMap hline ?_
      rw [hread]
      rfl

/-- Two entries on two lines are read alike. -/
theorem readersAgree_al2 :
    ∃ value, ReadersAgree Reference.libs (Reference.logOf [Reference.al1, Reference.al2]) value := by
  have hwf := Reference.validLog_al2.wellFormed
  refine (readersAgree_iff Reference.validLog_al2.validateDidJsonl_eq).mpr ?_
  rw [Reference.lines_logOf hwf, List.forall_mem_map]
  intro e he
  refine ⟨(hwf e he).isBlank_print, ?_⟩
  have hparse : Reference.libs.fromStr (Reference.print e) = .ok e := (hwf e he).parse_print
  rw [hparse]
  rfl

/-- The checks read the non-blank lines only. -/
theorem validateDidJsonl_congr {other : String} (h : nonblankLines other = nonblankLines content)
    (hvalid : validateDidJsonl L content = .ok ()) : validateDidJsonl L other = .ok () := by
  have hid : extractDidId L other = extractDidId L content := by
    unfold extractDidId lastValue lastEntry
    rw [h]
  rw [validateDidJsonl_ok_iff, trimmedLines_eq_map] at hvalid ⊢
  rw [h, hid]
  exact hvalid

/-- The one entry of a log, and a blank line. -/
def trailingBlank : String :=
  String.ofList (Reference.printValue Reference.al1 ++ ['\n', '\n'])

theorem lines_trailingBlank : lines trailingBlank = [Reference.print Reference.al1, ""] := by
  obtain ⟨hnewline, hcr⟩ := Reference.wellFormed_al1.one_line
  unfold lines trailingBlank
  rw [String.toList_ofList, linesFrom_append_of_not_mem hnewline, linesFrom_newline,
    List.append_nil, stripCr_of_not_mem (by simpa using hcr), List.reverse_reverse]
  rfl

/-- With a blank line behind the only entry the metadata counts two entries and knows no
latest version. -/
theorem not_readersAgree_trailingBlank :
    validateDidJsonl Reference.libs trailingBlank = .ok () ∧
      ¬∃ value, ReadersAgree Reference.libs trailingBlank value := by
  have hvalid : validateDidJsonl Reference.libs trailingBlank = .ok () := by
    refine validateDidJsonl_congr ?_ Reference.validLog_al1.validateDidJsonl_eq
    rw [Reference.nonblankLines_logOf Reference.validLog_al1.wellFormed, nonblankLines,
      lines_trailingBlank, List.filter_cons_of_pos (by simp [Reference.wellFormed_al1.isBlank_print])]
    rfl
  refine ⟨hvalid, ?_⟩
  rintro ⟨value, hagree⟩
  have hlines := hagree.entry_lines
  rw [lines_trailingBlank] at hlines
  have hblank : isBlank "" = true := rfl
  have hnot := (hlines "" (by simp)).1
  rw [hblank] at hnot
  cases hnot

end DidHosting
