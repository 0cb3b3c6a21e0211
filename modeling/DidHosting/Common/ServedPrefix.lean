import DidHosting.Common.Servable

/-!
# The longest servable beginning

The walk over the entries of a log ends at the first entry that does not verify in the
chain, or is not witnessed.  What stands before it is the longest beginning of the log in
which every entry does both.  A log whose walk ends at an entry that does not verify is
served as it is; of any other the longest beginning is served.
-/

namespace DidHosting

open Text

/-! ## Beginnings of a log -/

section

variable {L : ServeLibs} {proofs : L.WitnessProofs} {highest : ℕ}
  {previous : Option (L.LogEntry × L.Parameters)} {entries : List (L.LogEntry × ℕ)}
  {states states' : List (LogEntryState L.toLibs)}

/-- An entry of the log, as it was read. -/
def asRead (e : LogEntryState L.toLibs) : L.LogEntry × ℕ :=
  (e.logEntry, e.versionNumber)

/-- What an entry behind the verified ones is verified after. -/
def lastVerified (L : ServeLibs) (previous : Option (L.LogEntry × L.Parameters)) :
    List (LogEntryState L.toLibs) → Option (L.LogEntry × L.Parameters)
  | [] => previous
  | e :: rest => lastVerified L (some (e.logEntry, e.validatedParameters)) rest

/-- The entries begin with `states`, each of which verifies after the one before it, and is
witnessed. -/
structure ServableBeginning (L : ServeLibs) (proofs : L.WitnessProofs) (highest : ℕ)
    (previous : Option (L.LogEntry × L.Parameters)) (entries : List (L.LogEntry × ℕ))
    (states : List (LogEntryState L.toLibs)) : Prop where
  verified : Verified L.toLibs previous states
  witnessed : ∀ e ∈ states, isWitnessed L.toLibs proofs highest e = true
  isPrefix : states.map asRead <+: entries

/-- No servable beginning is longer. -/
def LongestServable (L : ServeLibs) (proofs : L.WitnessProofs) (highest : ℕ)
    (entries : List (L.LogEntry × ℕ)) (states : List (LogEntryState L.toLibs)) : Prop :=
  ServableBeginning L proofs highest none entries states ∧
    ∀ states', ServableBeginning L proofs highest none entries states' →
      states'.length ≤ states.length

/-- The entry behind `states` does not verify after them. -/
def BreaksAfter (L : ServeLibs) (previous : Option (L.LogEntry × L.Parameters))
    (entries : List (L.LogEntry × ℕ)) (states : List (LogEntryState L.toLibs)) : Prop :=
  ∃ e rest err, entries = states.map asRead ++ e :: rest ∧
    L.verifyLogEntry e.1 (lastVerified L previous states) = .error err

/-- The entry behind `states` verifies after them, but is not witnessed. -/
def UnwitnessedAfter (L : ServeLibs) (proofs : L.WitnessProofs) (highest : ℕ)
    (previous : Option (L.LogEntry × L.Parameters)) (entries : List (L.LogEntry × ℕ))
    (states : List (LogEntryState L.toLibs)) : Prop :=
  ∃ e rest params, entries = states.map asRead ++ e :: rest ∧
    L.verifyLogEntry e.1 (lastVerified L previous states) = .ok params ∧
    isWitnessed L.toLibs proofs highest ⟨e.1, e.2, params⟩ = false

theorem ServableBeginning.cons {e : LogEntryState L.toLibs} {rest : List (L.LogEntry × ℕ)}
    (hverify : L.verifyLogEntry e.logEntry previous = .ok e.validatedParameters)
    (hwitnessed : isWitnessed L.toLibs proofs highest e = true)
    (h : ServableBeginning L proofs highest (some (e.logEntry, e.validatedParameters)) rest
      states) :
    ServableBeginning L proofs highest previous (asRead e :: rest) (e :: states) := by
  refine ⟨⟨hverify, h.verified⟩, List.forall_mem_cons.mpr ⟨hwitnessed, h.witnessed⟩, ?_⟩
  rw [List.map_cons]
  exact List.prefix_cons_inj _ |>.mpr h.isPrefix

theorem servableCount_spec (proofs : L.WitnessProofs) (highest : ℕ)
    (previous : Option (L.LogEntry × L.Parameters)) (entries : List (L.LogEntry × ℕ)) :
    ∃ states, ServableBeginning L proofs highest previous entries states ∧
      (servableCount L proofs highest previous entries = none ∧
          BreaksAfter L previous entries states ∨
        servableCount L proofs highest previous entries = some states.length ∧
          (entries = states.map asRead ∨
            UnwitnessedAfter L proofs highest previous entries states)) := by
  induction entries generalizing previous with
  | nil =>
      refine ⟨[], ⟨trivial, ?_, List.prefix_rfl⟩, Or.inr ⟨rfl, Or.inl rfl⟩⟩
      exact fun _ he => absurd he List.not_mem_nil
  | cons entry rest ih =>
      obtain ⟨entry, n⟩ := entry
      have hnone : ServableBeginning L proofs highest previous ((entry, n) :: rest) [] :=
        ⟨trivial, fun _ he => absurd he List.not_mem_nil, List.nil_prefix⟩
      unfold servableCount
      cases hverify : L.verifyLogEntry entry previous with
      | error err => exact ⟨[], hnone, Or.inl ⟨rfl, _, rest, err, rfl, hverify⟩⟩
      | ok params =>
          dsimp only
          cases hwitnessed : isWitnessed L.toLibs proofs highest ⟨entry, n, params⟩ with
          | false =>
              have hfail : (witnessedHere L.toLibs ⟨entry, n, params⟩ &&
                  !(L.validateLogEntry proofs entry params highest).isOk) = true := by
                unfold isWitnessed at hwitnessed
                simpa using hwitnessed
              rw [if_pos hfail]
              refine ⟨[], hnone, Or.inr ⟨rfl, Or.inr ?_⟩⟩
              exact ⟨_, rest, params, rfl, hverify, hwitnessed⟩
          | true =>
              have hpass : ¬(witnessedHere L.toLibs ⟨entry, n, params⟩ &&
                  !(L.validateLogEntry proofs entry params highest).isOk) = true := by
                unfold isWitnessed at hwitnessed
                simpa [or_iff_not_imp_left] using hwitnessed
              rw [if_neg hpass]
              obtain ⟨states, hbeginning, hend⟩ := ih (some (entry, params))
              refine ⟨⟨entry, n, params⟩ :: states,
                ServableBeginning.cons (e := ⟨entry, n, params⟩) hverify hwitnessed hbeginning, ?_⟩
              obtain ⟨hcount, e, after, err, hentries, herror⟩ |
                ⟨hcount, hall | ⟨e, after, params', hentries, hok, hnot⟩⟩ := hend
              · left
                rw [hcount]
                exact ⟨rfl, e, after, err, congrArg ((entry, n) :: ·) hentries, herror⟩
              · right
                rw [hcount]
                exact ⟨rfl, Or.inl (congrArg ((entry, n) :: ·) hall)⟩
              · right
                rw [hcount]
                exact ⟨rfl, Or.inr ⟨e, after, params', congrArg ((entry, n) :: ·) hentries, hok,
                  hnot⟩⟩

/-- A longer servable beginning would go on with the entry behind the shorter one. -/
theorem ServableBeginning.length_le
    (h : ServableBeginning L proofs highest previous entries states)
    (h' : ServableBeginning L proofs highest previous entries states')
    (hend : entries = states.map asRead ∨ BreaksAfter L previous entries states ∨
      UnwitnessedAfter L proofs highest previous entries states) :
    states'.length ≤ states.length := by
  induction states generalizing previous entries states' with
  | nil =>
      cases states' with
      | nil => exact Nat.le_refl _
      | cons e' rest' =>
          have hprefix := h'.isPrefix
          rw [List.map_cons] at hprefix
          obtain hall | ⟨e, rest, err, rfl, herror⟩ | ⟨e, rest, params, rfl, hok, hnot⟩ := hend
          · rw [hall] at hprefix
            exact absurd hprefix.length_le (by simp)
          · obtain ⟨heq, -⟩ := List.cons_prefix_cons.mp hprefix
            have hverify := h'.verified.1
            rw [← heq] at herror
            change L.verifyLogEntry e'.logEntry previous = .error err at herror
            rw [hverify] at herror
            cases herror
          · obtain ⟨heq, -⟩ := List.cons_prefix_cons.mp hprefix
            have hverify := h'.verified.1
            rw [← heq] at hok hnot
            change L.verifyLogEntry e'.logEntry previous = .ok params at hok
            rw [hverify] at hok
            cases hok
            have hwitnessed := h'.witnessed e' List.mem_cons_self
            change isWitnessed L.toLibs proofs highest e' = false at hnot
            rw [hwitnessed] at hnot
            cases hnot
  | cons e rest ih =>
      cases states' with
      | nil => exact Nat.zero_le _
      | cons e' rest' =>
          obtain ⟨more, hmore⟩ := h.isPrefix
          rw [List.map_cons, List.cons_append] at hmore
          subst hmore
          have hprefix := h'.isPrefix
          rw [List.map_cons] at hprefix
          obtain ⟨heq, hprefix'⟩ := List.cons_prefix_cons.mp hprefix
          have hentry : e'.logEntry = e.logEntry := congrArg Prod.fst heq
          have hparams : e'.validatedParameters = e.validatedParameters := by
            have hverify := h'.verified.1
            rw [hentry, h.verified.1] at hverify
            exact (Except.ok.inj hverify).symm
          have hsame : ServableBeginning L proofs highest
              (some (e.logEntry, e.validatedParameters)) (rest.map asRead ++ more) rest' := by
            refine ⟨?_, fun x hx => h'.witnessed x (List.mem_cons_of_mem _ hx), hprefix'⟩
            have hverified := h'.verified.2
            rw [hentry, hparams] at hverified
            exact hverified
          refine Nat.succ_le_succ (ih ⟨h.verified.2, ?_, ⟨more, rfl⟩⟩ hsame ?_)
          · exact fun x hx => h.witnessed x (List.mem_cons_of_mem _ hx)
          · obtain hall | ⟨x, after, err, hentries, herror⟩ |
              ⟨x, after, params, hentries, hok, hnot⟩ := hend
            · exact Or.inl (List.cons.inj hall).2
            · exact Or.inr (Or.inl ⟨x, after, err, (List.cons.inj hentries).2, herror⟩)
            · exact Or.inr (Or.inr ⟨x, after, params, (List.cons.inj hentries).2, hok, hnot⟩)

/-- A walk that ends elsewhere does not end at an entry that fails. -/
theorem not_breaksAfter
    (h : entries = states.map asRead ∨ UnwitnessedAfter L proofs highest previous entries states) :
    ¬BreaksAfter L previous entries states := by
  rintro ⟨e, rest, err, hentries, herror⟩
  obtain hall | ⟨e', rest', params, hentries', hok, -⟩ := h
  · have hlength := congrArg List.length (hall.symm.trans hentries)
    rw [List.length_append, List.length_cons] at hlength
    omega
  · have hsame := List.append_cancel_left (hentries.symm.trans hentries')
    obtain ⟨rfl, -⟩ := List.cons.inj hsame
    rw [herror] at hok
    cases hok

/-- Entries that verify one after the other are verified in one way. -/
theorem verified_unique (hverified : Verified L.toLibs previous states)
    (hverified' : Verified L.toLibs previous states')
    (hmap : states.map asRead = states'.map asRead) : states = states' := by
  induction states generalizing previous states' with
  | nil => exact (List.map_eq_nil_iff.mp hmap.symm).symm
  | cons e rest ih =>
      cases states' with
      | nil => cases hmap
      | cons e' rest' =>
          rw [List.map_cons, List.map_cons] at hmap
          obtain ⟨hread, hrest⟩ := List.cons.inj hmap
          obtain ⟨entry, n, params⟩ := e
          obtain ⟨entry', n', params'⟩ := e'
          obtain ⟨rfl, rfl⟩ := Prod.mk.inj hread
          obtain ⟨hverify, hmore⟩ := hverified
          obtain ⟨hverify', hmore'⟩ := hverified'
          cases Except.ok.inj (hverify.symm.trans hverify')
          rw [ih hmore hmore' hrest]

theorem LongestServable.unique (h : LongestServable L proofs highest entries states)
    (h' : LongestServable L proofs highest entries states') : states = states' := by
  have hlength : states.length = states'.length :=
    Nat.le_antisymm (h'.2 states h.1) (h.2 states' h'.1)
  refine verified_unique h.1.verified h'.1.verified ?_
  rw [List.prefix_iff_eq_take.mp h.1.isPrefix, List.prefix_iff_eq_take.mp h'.1.isPrefix,
    List.length_map, List.length_map, hlength]

/-! ## What is served -/

/-- Serializing each of the entries gives the line it was read from. -/
def WrittenAsRead (L : ServeLibs) (content : String) (states : List (LogEntryState L.toLibs)) :
    Prop :=
  states.map (fun e => L.entryToString e.logEntry) =
    ((trimmedLines content).take states.length).map .ok

theorem WrittenAsRead.writeEntries_eq {content : String} (h : WrittenAsRead L content states) :
    writeEntries L (states.map fun e => e.logEntry) =
      joinLines ((trimmedLines content).take states.length) := by
  unfold WrittenAsRead at h
  have htexts : (states.map fun e => e.logEntry).filterMap
      (fun e => (L.entryToString e).toOption) =
      (trimmedLines content).take states.length := by
    calc (states.map fun e => e.logEntry).filterMap (fun e => (L.entryToString e).toOption)
        = (states.map fun e => L.entryToString e.logEntry).filterMap Except.toOption := by
          rw [List.filterMap_map, List.filterMap_map]
          rfl
      _ = (((trimmedLines content).take states.length).map Except.ok).filterMap
            Except.toOption := by
          rw [h]
      _ = (trimmedLines content).take states.length := by
          rw [List.filterMap_map]
          exact List.filterMap_some
  unfold writeEntries
  rw [htexts]

/-- What is served of a log that parses, by where the walk ends. -/
theorem servableDidLog_of_parsed {content : String} (witness : Option String)
    {last : L.LogEntry × ℕ} (hvalid : validateDidJsonl L.toLibs content = .ok ())
    (hparse : parseEntries L.toLibs 0 none (lines content) = .ok entries)
    (hlast : entries.getLast? = some last) :
    servableDidLog L content witness =
      match servableCount L (storedProofs L witness last.2) last.2 none entries with
      | none => some content
      | some servable =>
          if servable = entries.length then some content
          else if servable = 0 then none
          else some (writeEntries L ((entries.take servable).map Prod.fst)) := by
  cases hcount : servableCount L (storedProofs L witness last.2) last.2 none entries with
  | none => simp [servableDidLog, hvalid, hparse, hlast, hcount]
  | some servable => simp [servableDidLog, hvalid, hparse, hlast, hcount]

theorem servableDidLog_cases {content : String} (witness : Option String)
    (hvalid : validateDidJsonl L.toLibs content = .ok ())
    (hparse : parseEntries L.toLibs 0 none (lines content) = .ok entries) :
    ∃ last states, entries.getLast? = some last ∧
      LongestServable L (storedProofs L witness last.2) last.2 entries states ∧
      (BreaksAfter L none entries states ∧ servableDidLog L content witness = some content ∨
        ¬BreaksAfter L none entries states ∧
          servableDidLog L content witness =
            if states.length = entries.length then some content
            else if states.length = 0 then none
            else some (writeEntries L (states.map fun e => e.logEntry))) := by
  have hne : entries ≠ [] := by
    rintro rfl
    have hlength := (parseEntries_iff_readsAs.mp hparse).length_eq
    obtain ⟨hlines, -⟩ := validateDidJsonl_ok_iff.mp hvalid
    exact hlines (List.length_eq_zero_iff.mp hlength)
  obtain ⟨last, hlast⟩ : ∃ last, entries.getLast? = some last :=
    ⟨_, List.getLast?_eq_some_getLast hne⟩
  obtain ⟨states, hbeginning, hend⟩ :=
    servableCount_spec (L := L) (storedProofs L witness last.2) last.2 none entries
  have hserved := servableDidLog_of_parsed witness hvalid hparse hlast
  refine ⟨last, states, hlast, ⟨hbeginning, fun states' h' => hbeginning.length_le h' ?_⟩, ?_⟩
  · obtain ⟨-, hbreaks⟩ | ⟨-, hall | hunwitnessed⟩ := hend
    · exact Or.inr (Or.inl hbreaks)
    · exact Or.inl hall
    · exact Or.inr (Or.inr hunwitnessed)
  · obtain ⟨hcount, hbreaks⟩ | ⟨hcount, hgoes⟩ := hend
    · left
      rw [hserved, hcount]
      exact ⟨hbreaks, rfl⟩
    · right
      have htake : (entries.take states.length).map Prod.fst =
          states.map fun e => e.logEntry := by
        have hprefix := List.prefix_iff_eq_take.mp hbeginning.isPrefix
        rw [List.length_map] at hprefix
        rw [← hprefix, List.map_map]
        rfl
      refine ⟨not_breaksAfter hgoes, ?_⟩
      rw [hserved, hcount]
      dsimp only
      rw [htake]

/-- A log whose walk meets an entry that does not verify is served as it is; of any other
the longest servable beginning is served: the whole text, nothing, or the lines of the
beginning as they are stored, where serializing gives them back. -/
theorem longest_beginning_served (L : ServeLibs) (content : String) (witness : Option String)
    (entries : List (L.LogEntry × ℕ)) (hvalid : validateDidJsonl L.toLibs content = .ok ())
    (hparse : parseEntries L.toLibs 0 none (lines content) = .ok entries) :
    ∃ last states, entries.getLast? = some last ∧
      LongestServable L (storedProofs L witness last.2) last.2 entries states ∧
      (BreaksAfter L none entries states → servableDidLog L content witness = some content) ∧
      (¬BreaksAfter L none entries states →
        (states.length = entries.length → servableDidLog L content witness = some content) ∧
        (states = [] → servableDidLog L content witness = none) ∧
        (states.length < entries.length → states ≠ [] →
          ∃ text, servableDidLog L content witness = some text ∧
            (WrittenAsRead L content states →
              text = joinLines ((trimmedLines content).take states.length)))) := by
  obtain ⟨last, states, hlast, hlongest, hserved⟩ := servableDidLog_cases witness hvalid hparse
  refine ⟨last, states, hlast, hlongest, ?_, ?_⟩
  · intro hbreaks
    obtain ⟨-, hwhole⟩ | ⟨hgoes, -⟩ := hserved
    · exact hwhole
    · exact absurd hbreaks hgoes
  · intro hgoes
    obtain ⟨hbreaks, -⟩ | ⟨-, hserved⟩ := hserved
    · exact absurd hbreaks hgoes
    · rw [hserved]
      refine ⟨?_, ?_, ?_⟩
      · intro hall
        exact if_pos hall
      · rintro rfl
        have hne : ([] : List (LogEntryState L.toLibs)).length ≠ entries.length := by
          intro h
          rw [List.length_eq_zero_iff.mp h.symm] at hlast
          cases hlast
        exact (if_neg hne).trans (if_pos rfl)
      · intro hlt hstates
        refine ⟨writeEntries L (states.map fun e => e.logEntry), ?_, ?_⟩
        · rw [if_neg (Nat.ne_of_lt hlt), if_neg fun h => hstates (List.length_eq_zero_iff.mp h)]
        · exact fun hwritten => hwritten.writeEntries_eq

end

/-! ## Sample logs -/

namespace ServableSample

open Reference

/-- A log whose second entry repeats the first. -/
def repeated : String := logOf [al1, al1]

theorem validate_logOf {es : List Json} (hes : ∀ e ∈ es, WellFormed e)
    (hlength : es.length ≤ maxLogEntries) (hlast : es.getLast? = some al1) :
    validateDidJsonl witnessLibs.toLibs (logOf es) = .ok () := by
  have hlines : trimmedLines (logOf es) = es.map print := logEntries_logOf hes
  rw [validateDidJsonl_ok_iff, hlines, List.length_map]
  refine ⟨?_, hlength, ?_, ?_⟩
  · rw [Ne, List.map_eq_nil_iff]
    rintro rfl
    cases hlast
  · intro line hline
    obtain ⟨e, he, rfl⟩ := List.mem_map.mp hline
    exact ⟨e, deserializeString_print (hes e he) none⟩
  · rw [extractDidId_eq]
    unfold extractDidId
    rw [lastValue_logOf hes, hlast]
    decide +kernel

theorem repeated_wellFormed : ∀ e ∈ [al1, al1], WellFormed e := by
  rw [List.forall_mem_cons, List.forall_mem_singleton]
  exact ⟨wellFormed_al1, wellFormed_al1⟩

theorem repeated_valid : validateDidJsonl witnessLibs.toLibs repeated = .ok () :=
  validate_logOf repeated_wellFormed (by decide) rfl

theorem repeated_reads :
    ReadsAs witnessLibs.toLibs none [print al1, print al1] [(al1, 1), (al1, 1)] :=
  ⟨deserializeString_print wellFormed_al1 none, numbers.1,
    deserializeString_print wellFormed_al1 (some ()), numbers.1, trivial⟩

theorem repeated_parse :
    parseEntries witnessLibs.toLibs 0 none (lines repeated) = .ok [(al1, 1), (al1, 1)] := by
  have hlines : trimmedLines repeated = [print al1, print al1] :=
    logEntries_logOf repeated_wellFormed
  rw [parseEntries_iff_readsAs, hlines]
  exact repeated_reads

end ServableSample

open ServableSample Reference in
theorem longest_beginning_served_repeated :
    ∃ last states, [(al1, 1), (al1, 1)].getLast? = some last ∧
      LongestServable witnessLibs (storedProofs witnessLibs witness last.2) last.2
        [(al1, 1), (al1, 1)] states ∧
      (BreaksAfter witnessLibs none [(al1, 1), (al1, 1)] states →
        servableDidLog witnessLibs repeated witness = some repeated) ∧
      (¬BreaksAfter witnessLibs none [(al1, 1), (al1, 1)] states →
        (states.length = [(al1, 1), (al1, 1)].length →
          servableDidLog witnessLibs repeated witness = some repeated) ∧
        (states = [] → servableDidLog witnessLibs repeated witness = none) ∧
        (states.length < [(al1, 1), (al1, 1)].length → states ≠ [] →
          ∃ text, servableDidLog witnessLibs repeated witness = some text ∧
            (WrittenAsRead witnessLibs repeated states →
              text = joinLines ((trimmedLines repeated).take states.length)))) :=
  longest_beginning_served witnessLibs repeated witness _ repeated_valid repeated_parse

open ServableSample Reference in
/-- The second entry does not verify; the log is served with it. -/
theorem broken_log_served_whole :
    LongestServable witnessLibs (storedProofs witnessLibs witness 1) 1 [(al1, 1), (al1, 1)]
        [⟨al1, 1, .obj []⟩] ∧
      servableDidLog witnessLibs repeated witness = some repeated := by
  have hbreaks : BreaksAfter witnessLibs none [(al1, 1), (al1, 1)] [⟨al1, 1, .obj []⟩] :=
    ⟨(al1, 1), [], "versionId out of sequence", rfl, rfl⟩
  have hbeginning : ServableBeginning witnessLibs (storedProofs witnessLibs witness 1) 1 none
      [(al1, 1), (al1, 1)] [⟨al1, 1, .obj []⟩] := by
    refine ⟨⟨links.1, trivial⟩, ?_, ⟨[(al1, 1)], rfl⟩⟩
    rw [List.forall_mem_singleton, storedProofs_eq]
    exact (isWitnessed_eq 1 1 (.obj [])).1
  refine ⟨⟨hbeginning, fun states' h' => hbeginning.length_le h' (Or.inr (Or.inl hbreaks))⟩, ?_⟩
  have hcount : servableCount witnessLibs (storedProofs witnessLibs witness 1) 1 none
      [(al1, 1), (al1, 1)] = none := by
    rw [storedProofs_eq]
    rfl
  have hlast : [(al1, 1), (al1, 1)].getLast? = some (al1, 1) := rfl
  have hserved :=
    servableDidLog_of_parsed (L := witnessLibs) witness repeated_valid repeated_parse hlast
  rw [hserved, hcount]

end DidHosting
