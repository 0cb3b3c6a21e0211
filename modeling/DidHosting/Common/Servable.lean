import DidHosting.Common.Chain
import DidHosting.Common.Reference

/-!
# The servable part of a log

The edges serve a did:webvh log up to the first entry that does not meet its witness
threshold.  The file compares this walk over the entries with the verifier that accepts
a log from elsewhere: what the verifier accepts is served whole, and what is served is
accepted, as far as the witness proofs stand for it alone.
-/

namespace DidHosting

open Text

/-- The libraries that serving a log uses. -/
structure ServeLibs extends Libs where
  /-- What `generate_proof_state` leaves of proofs it fails on. -/
  failedProofs : WitnessProofs → ℕ → WitnessProofs
  /-- `serde_json::to_string` of a log entry. -/
  entryToString : LogEntry → Except String String

section Serve

variable (L : ServeLibs)

/-- The stored witness proofs; a file that does not parse counts as none. -/
def parsedProofs (witness : Option String) : L.WitnessProofs :=
  match presentWitness witness with
  | some raw =>
      match L.parseWitnessProofs raw with
      | .ok proofs => proofs
      | .error _ => L.noProofs
  | none => L.noProofs

/-- The proofs that the entries are checked against. -/
def storedProofs (witness : Option String) (highest : ℕ) : L.WitnessProofs :=
  match L.generateProofState (parsedProofs L witness) highest with
  | .ok proofs => proofs
  | .error _ => L.failedProofs (parsedProofs L witness) highest

/-- The walk of `servable_did_log`: the number of servable entries, none when the chain
does not verify that far. -/
def servableCount (proofs : L.WitnessProofs) (highest : ℕ)
    (previous : Option (L.LogEntry × L.Parameters)) : List (L.LogEntry × ℕ) → Option ℕ
  | [] => some 0
  | (entry, n) :: rest =>
      match L.verifyLogEntry entry previous with
      | .error _ => none
      | .ok params =>
          if witnessedHere L.toLibs ⟨entry, n, params⟩ &&
              !(L.validateLogEntry proofs entry params highest).isOk then
            some 0
          else
            (servableCount proofs highest (some (entry, params)) rest).map (· + 1)

/-- The text of the entries, one a line. -/
def writeEntries (entries : List L.LogEntry) : String :=
  joinLines (entries.filterMap fun e => (L.entryToString e).toOption)

def servableDidLog (content : String) (witness : Option String) : Option String :=
  match validateDidJsonl L.toLibs content with
  | .error _ => some content
  | .ok () =>
      match parseEntries L.toLibs 0 none (lines content) with
      | .error _ => some content
      | .ok entries =>
          match entries.getLast? with
          | none => some content
          | some last =>
              match servableCount L (storedProofs L witness last.2) last.2 none entries with
              | none => some content
              | some servable =>
                  if servable = entries.length then some content
                  else if servable = 0 then none
                  else some (writeEntries L ((entries.take servable).map Prod.fst))

end Serve

/-! ## The verifier -/

/-- What the documentation of the libraries says of a log's full validation: it verifies
the chain entry by entry and then the witness threshold of each entry, which an entry
without an active witness meets. -/
structure FullValidation (L : Libs) : Prop where
  validate_iff : ∀ (entries : List (L.LogEntry × ℕ)) (proofs : Option L.WitnessProofs)
    (params : List L.Parameters), (∀ e ∈ entries, L.versionNumber e.1 = .ok e.2) →
      (L.validate (entries.map Prod.fst) proofs = .ok (params, .ok ()) ↔
        ∃ states last generated, verifyChain L none entries = .ok states ∧
          params = states.map (fun e => e.validatedParameters) ∧
          states.getLast? = some last ∧
          L.generateProofState (proofs.getD L.noProofs) last.versionNumber = .ok generated ∧
          checkThresholds L generated last.versionNumber states = .ok ())
  unwitnessed : ∀ (proofs : L.WitnessProofs) (e : L.LogEntry) (params : L.Parameters)
    (highest : ℕ), L.activeWitnesses params = none →
      L.validateLogEntry proofs e params highest = .ok ()

/-- The parameters configure witnesses. -/
def configuresWitnesses (L : Libs) (params : L.Parameters) : Bool :=
  match L.witnessThreshold params with
  | some t => decide (0 < t)
  | none => false

/-- The proofs meet the threshold of each of the entries. -/
def MeetThresholds (L : Libs) (proofs : L.WitnessProofs) (highest : ℕ)
    (states : List (LogEntryState L)) : Prop :=
  ∀ e ∈ states, L.validateLogEntry proofs e.logEntry e.validatedParameters highest = .ok ()

theorem checkThresholds_ok_iff {L : Libs} {proofs : L.WitnessProofs} {highest : ℕ}
    {states : List (LogEntryState L)} :
    checkThresholds L proofs highest states = .ok () ↔
      MeetThresholds L proofs highest states := by
  induction states with
  | nil => exact ⟨fun _ e he => absurd he List.not_mem_nil, fun _ => rfl⟩
  | cons e states ih =>
      unfold checkThresholds
      rw [MeetThresholds, List.forall_mem_cons, ← MeetThresholds]
      cases hcheck : L.validateLogEntry proofs e.logEntry e.validatedParameters highest with
      | error err => simp
      | ok u => simpa using ih

/-- The log passes the verifier with these witness proofs: its chain is `states`, which
ends in `last`. -/
structure PassesVerifier (L : Libs) (witness : Option String)
    (states : List (LogEntryState L)) (last : LogEntryState L) : Prop where
  last_eq : states.getLast? = some last
  thresholds : ∃ supplied generated, suppliedProofs L witness = .ok supplied ∧
    L.generateProofState (supplied.getD L.noProofs) last.versionNumber = .ok generated ∧
    MeetThresholds L generated last.versionNumber states
  supplied : configuresWitnesses L last.validatedParameters = true →
    (presentWitness witness).isSome

/-- The library's validation of the entries and the check that follows it. -/
theorem validate_ok_iff {L : Libs} (hL : FullValidation L) {witness : Option String}
    {entries : List (L.LogEntry × ℕ)} {supplied : Option L.WitnessProofs}
    (hnumbers : ∀ e ∈ entries, L.versionNumber e.1 = .ok e.2)
    (hsupplied : suppliedProofs L witness = .ok supplied) :
    (∃ params, L.validate (entries.map Prod.fst) supplied = .ok (params, .ok ()) ∧
        ∀ p, params.getLast? = some p → configuresWitnesses L p = true →
          (presentWitness witness).isSome) ↔
      ∃ states last, verifyChain L none entries = .ok states ∧
        PassesVerifier L witness states last := by
  constructor
  · rintro ⟨params, hvalidate, hconfigured⟩
    obtain ⟨states, last, generated, hchain, rfl, hlast, hgenerate, hcheck⟩ :=
      (hL.validate_iff entries supplied params hnumbers).mp hvalidate
    refine ⟨states, last, hchain, hlast, ⟨supplied, generated, hsupplied, hgenerate,
      checkThresholds_ok_iff.mp hcheck⟩, ?_⟩
    apply hconfigured
    rw [List.getLast?_map, hlast, Option.map_some]
  · rintro ⟨states, last, hchain, hpasses⟩
    obtain ⟨supplied', generated, hsupplied', hgenerate, hmeet⟩ := hpasses.thresholds
    cases hsupplied.symm.trans hsupplied'
    refine ⟨states.map fun e => e.validatedParameters, ?_, ?_⟩
    · exact (hL.validate_iff entries supplied _ hnumbers).mpr ⟨states, last, generated, hchain,
        rfl, hpasses.last_eq, hgenerate, checkThresholds_ok_iff.mpr hmeet⟩
    · intro p hp
      rw [List.getLast?_map, hpasses.last_eq, Option.map_some] at hp
      cases hp
      exact hpasses.supplied

/-- The verifier accepts the logs whose chain verifies and passes with the proofs. -/
theorem verifyDidLogAndWitnessProofs_ok_iff {L : Libs} (hL : FullValidation L)
    {content : String} {witness : Option String} :
    verifyDidLogAndWitnessProofs L content witness = .ok () ↔
      ∃ states last, parseAndVerifyChain L content = .ok states ∧
        PassesVerifier L witness states last := by
  unfold verifyDidLogAndWitnessProofs verifyDidLogChain parseAndVerifyChain
  cases hvalid : validateDidJsonl L content with
  | error e => simp [bind, Except.bind]
  | ok u =>
      cases hparse : parseEntries L 0 none (lines content) with
      | error e => simp [bind, Except.bind]
      | ok entries =>
          cases hsupplied : suppliedProofs L witness with
          | error e =>
              simp only [bind, Except.bind]
              constructor
              · intro h
                cases h
              · rintro ⟨states, last, -, hpasses⟩
                obtain ⟨supplied, generated, hok, -⟩ := hpasses.thresholds
                rw [hsupplied] at hok
                cases hok
          | ok supplied =>
              have hnumbers : ∀ e ∈ entries, L.versionNumber e.1 = .ok e.2 :=
                (parseEntries_ok_iff.mp hparse).versionNumber
              simp only [bind, Except.bind]
              rw [← validate_ok_iff hL hnumbers hsupplied]
              cases hvalidate : L.validate (entries.map Prod.fst) supplied with
              | error e => simp [mapErr]
              | ok report =>
                  obtain ⟨params, complete⟩ := report
                  cases complete with
                  | error e => simp [mapErr]
                  | ok u =>
                      simp only [mapErr, pure, Except.pure]
                      cases hlast : params.getLast? with
                      | none => simp [hlast]
                      | some p =>
                          cases hpresent : presentWitness witness with
                          | some raw => simp
                          | none =>
                              change (if configuresWitnesses L p && true then _ else _) = _ ↔ _
                              cases hconf : configuresWitnesses L p with
                              | true => simp [hlast, hconf]
                              | false => simp [hlast, hconf]

/-! ## The walk -/

/-- The entry has no active witness or meets its threshold. -/
def isWitnessed (L : Libs) (proofs : L.WitnessProofs) (highest : ℕ) (e : LogEntryState L) : Bool :=
  !witnessedHere L e ||
    (L.validateLogEntry proofs e.logEntry e.validatedParameters highest).isOk

/-- The longest beginning of the chain whose entries are all witnessed. -/
def witnessedPrefix (L : Libs) (proofs : L.WitnessProofs) (highest : ℕ)
    (states : List (LogEntryState L)) : List (LogEntryState L) :=
  states.takeWhile (isWitnessed L proofs highest)

/-- The log of the beginning `served` of a chain: its own text when it is all of it. -/
def servedLog (L : ServeLibs) (content : String) (states served : List (LogEntryState L.toLibs)) :
    Option String :=
  if served.length = states.length then some content
  else if served.length = 0 then none
  else some (writeEntries L (served.map fun e => e.logEntry))

variable {L : ServeLibs}

theorem servableCount_of_verified {proofs : L.WitnessProofs} {highest : ℕ}
    {previous : Option (L.LogEntry × L.Parameters)} {states : List (LogEntryState L.toLibs)}
    (h : Verified L.toLibs previous states) :
    servableCount L proofs highest previous
        (states.map fun e => (e.logEntry, e.versionNumber)) =
      some (witnessedPrefix L.toLibs proofs highest states).length := by
  induction states generalizing previous with
  | nil => rfl
  | cons e states ih =>
      rw [List.map_cons, servableCount, h.1]
      by_cases hwitnessed : isWitnessed L.toLibs proofs highest e = true
      · have hpass : ¬ (witnessedHere L.toLibs e &&
            !(L.validateLogEntry proofs e.logEntry e.validatedParameters highest).isOk) = true := by
          unfold isWitnessed at hwitnessed
          simpa [or_iff_not_imp_left] using hwitnessed
        rw [witnessedPrefix, List.takeWhile_cons_of_pos hwitnessed, List.length_cons,
          ← witnessedPrefix]
        simp only [hpass, if_false, ih h.2, Option.map_some, Bool.false_eq_true]
      · have hfail : (witnessedHere L.toLibs e &&
            !(L.validateLogEntry proofs e.logEntry e.validatedParameters highest).isOk) = true := by
          unfold isWitnessed at hwitnessed
          simpa using hwitnessed
        rw [witnessedPrefix, List.takeWhile_cons_of_neg hwitnessed, List.length_nil]
        simp only [hfail, if_true]

theorem witnessedPrefix_eq_take (L : Libs) (proofs : L.WitnessProofs) (highest : ℕ)
    (states : List (LogEntryState L)) :
    witnessedPrefix L proofs highest states =
      states.take (witnessedPrefix L proofs highest states).length :=
  List.prefix_iff_eq_take.mp (List.takeWhile_prefix _)

/-- A log whose chain verifies is served up to its first unwitnessed entry. -/
theorem servableDidLog_of_chain {content : String} {witness : Option String}
    {states : List (LogEntryState L.toLibs)} {last : LogEntryState L.toLibs}
    (hchain : parseAndVerifyChain L.toLibs content = .ok states)
    (hlast : states.getLast? = some last) :
    servableDidLog L content witness =
      servedLog L content states (witnessedPrefix L.toLibs
        (storedProofs L witness last.versionNumber) last.versionNumber states) := by
  obtain ⟨hvalid, hverified, hread⟩ := parseAndVerifyChain_ok_iff.mp hchain
  have hparse : parseEntries L.toLibs 0 none (lines content) =
      .ok (states.map fun e => (e.logEntry, e.versionNumber)) := by
    rw [parseEntries_ok_iff]
    rw [trimmedLines_eq_map] at hread
    exact hread
  have hpre := witnessedPrefix_eq_take L.toLibs (storedProofs L witness last.versionNumber)
    last.versionNumber states
  unfold servableDidLog servedLog
  simp only [hvalid, hparse, List.getLast?_map, hlast, Option.map_some,
    servableCount_of_verified hverified, List.length_map]
  split
  · rfl
  · split
    · rfl
    · rw [← List.map_take, List.map_map]
      conv_rhs => rw [hpre]
      rfl

/-! ## Written entries -/

/-- A line that reading a log leaves as it is. -/
structure IsLine (text : String) : Prop where
  one_line : '\n' ∉ text.toList ∧ '\r' ∉ text.toList
  trimmed : trim text = text
  ne_nil : text.toList ≠ []

/-- Serializing an entry read from the log gives a line that is read as its own line. -/
def ReadsBack (L : ServeLibs) (content : String) : Prop :=
  ∀ line ∈ trimmedLines content, ∀ version e, L.deserializeString line version = .ok e →
    ∃ text, L.entryToString e = .ok text ∧ IsLine text ∧
      ∀ u, L.deserializeString text u = L.deserializeString line u

theorem trimmedLines_joinLines {texts : List String} (h : ∀ t ∈ texts, IsLine t) :
    trimmedLines (joinLines texts) = texts := by
  have hlines : lines (joinLines texts) = texts := by
    refine lines_joinLines ?_
    intro t ht
    exact ⟨(h t ht).one_line.1, (h t ht).one_line.2, (h t ht).ne_nil⟩
  have htrim : texts.map trim = texts := by
    conv_rhs => rw [← List.map_id texts]
    exact List.map_congr_left fun t ht => (h t ht).trimmed
  rw [trimmedLines, hlines, htrim]
  apply List.filter_eq_self.mpr
  intro t ht
  simpa using (h t ht).ne_nil

/-- The written entries are lines that read as the entries again. -/
theorem exists_texts {version : Option L.Version} {ls : List String}
    {entries : List (L.LogEntry × ℕ)}
    (hback : ∀ line ∈ ls, ∀ version e, L.deserializeString line version = .ok e →
      ∃ text, L.entryToString e = .ok text ∧ IsLine text ∧
        ∀ u, L.deserializeString text u = L.deserializeString line u)
    (h : ReadsAs L.toLibs version ls entries) :
    ∃ texts, (entries.map Prod.fst).filterMap (fun e => (L.entryToString e).toOption) = texts ∧
      (∀ t ∈ texts, IsLine t) ∧ ReadsAs L.toLibs version texts entries ∧
      ∀ t ∈ texts, ∃ line ∈ ls, ∀ u, L.deserializeString t u = L.deserializeString line u := by
  induction ls generalizing version entries with
  | nil =>
      cases entries with
      | nil =>
          refine ⟨[], rfl, ?_, trivial, ?_⟩
          · exact fun t ht => absurd ht List.not_mem_nil
          · exact fun t ht => absurd ht List.not_mem_nil
      | cons e es => exact h.elim
  | cons line ls ih =>
      cases entries with
      | nil => exact h.elim
      | cons entry es =>
          obtain ⟨e, n⟩ := entry
          obtain ⟨hread, hnumber, hrest⟩ := h
          obtain ⟨text, htext, hline, hsame⟩ := hback line List.mem_cons_self version e hread
          obtain ⟨texts, hwrite, hlines, hreads, horigin⟩ :=
            ih (fun l hl => hback l (List.mem_cons_of_mem _ hl)) hrest
          refine ⟨text :: texts, ?_, ?_, ?_, ?_⟩
          · rw [List.map_cons, List.filterMap_cons_some (b := text) (by rw [htext]; rfl), hwrite]
          · exact List.forall_mem_cons.mpr ⟨hline, hlines⟩
          · exact ⟨(hsame version).trans hread, hnumber, hreads⟩
          · intro t ht
            rcases List.mem_cons.mp ht with rfl | ht
            · exact ⟨line, List.mem_cons_self, hsame⟩
            · obtain ⟨l, hl, hsame⟩ := horigin t ht
              exact ⟨l, List.mem_cons_of_mem _ hl, hsame⟩

/-- The beginning of a log whose chain verifies, written again, is a log whose chain
verifies. -/
theorem parseAndVerifyChain_writeEntries {content : String}
    {states : List (LogEntryState L.toLibs)} (hback : ReadsBack L content)
    (hchain : parseAndVerifyChain L.toLibs content = .ok states) {k : ℕ}
    (hne : (states.take k).length ≠ 0)
    (hwebvh : (extractDidId L.toLibs
      (writeEntries L ((states.take k).map fun e => e.logEntry))).isSome) :
    parseAndVerifyChain L.toLibs (writeEntries L ((states.take k).map fun e => e.logEntry)) =
      .ok (states.take k) := by
  obtain ⟨hvalid, hverified, hread⟩ := parseAndVerifyChain_ok_iff.mp hchain
  obtain ⟨-, hshort, hparses, -⟩ := validateDidJsonl_ok_iff.mp hvalid
  have hlength := hread.length_eq
  rw [List.length_map] at hlength
  have hread := hread.take k
  rw [← List.map_take] at hread
  obtain ⟨texts, hwrite, hlines, hreads, horigin⟩ :=
    exists_texts (fun line hline => hback line (List.mem_of_mem_take hline)) hread
  rw [List.map_map] at hwrite
  have hwritten : writeEntries L ((states.take k).map fun e => e.logEntry) = joinLines texts := by
    rw [← hwrite]
    rfl
  have hcount := hreads.length_eq
  rw [List.length_map] at hcount
  rw [hwritten] at hwebvh ⊢
  rw [parseAndVerifyChain_ok_iff, validateDidJsonl_ok_iff, trimmedLines_joinLines hlines]
  refine ⟨⟨?_, ?_, ?_, hwebvh⟩, hverified.take k, hreads⟩
  · rintro rfl
    exact hne hcount.symm
  · rw [hcount, List.length_take]
    omega
  · intro t ht
    obtain ⟨line, hline, hsame⟩ := horigin t ht
    rw [hsame none]
    exact hparses line (List.mem_of_mem_take hline)

/-! ## Accepted and served -/

/-- The witness proofs stand for the beginning `served` of the chain `states` by itself:
they parse, the ones up to its own last version witness it, and they are there when it
configures witnesses. -/
structure StandsAlone (L : Libs) (witness : Option String)
    (states served : List (LogEntryState L)) (last : LogEntryState L) : Prop where
  last_eq : served.getLast? = some last
  proofs : ∃ supplied generated, suppliedProofs L witness = .ok supplied ∧
    L.generateProofState (supplied.getD L.noProofs) last.versionNumber = .ok generated ∧
    (served.length ≠ states.length →
      ∀ e ∈ served, isWitnessed L generated last.versionNumber e = true)
  supplied : configuresWitnesses L last.validatedParameters = true →
    (presentWitness witness).isSome

theorem parsedProofs_of_supplied {witness : Option String} {supplied : Option L.WitnessProofs}
    (h : suppliedProofs L.toLibs witness = .ok supplied) :
    parsedProofs L witness = supplied.getD L.noProofs := by
  unfold suppliedProofs at h
  unfold parsedProofs
  cases hpresent : presentWitness witness with
  | none =>
      rw [hpresent] at h
      cases h
      rfl
  | some raw =>
      rw [hpresent] at h
      cases hparse : L.parseWitnessProofs raw with
      | error e => simp [hparse, Except.map, mapErr] at h
      | ok proofs =>
          simp only [hparse, Except.map, mapErr] at h
          cases h
          simp [hparse]

theorem storedProofs_of_generate {witness : Option String} {supplied : Option L.WitnessProofs}
    {highest : ℕ} {generated : L.WitnessProofs}
    (hsupplied : suppliedProofs L.toLibs witness = .ok supplied)
    (hgenerate : L.generateProofState (supplied.getD L.noProofs) highest = .ok generated) :
    storedProofs L witness highest = generated := by
  unfold storedProofs
  rw [parsedProofs_of_supplied hsupplied, hgenerate]

theorem meetThresholds_iff (hL : FullValidation L.toLibs) {proofs : L.WitnessProofs} {highest : ℕ}
    {states : List (LogEntryState L.toLibs)} :
    MeetThresholds L.toLibs proofs highest states ↔
      ∀ e ∈ states, isWitnessed L.toLibs proofs highest e = true := by
  have hone : ∀ e : LogEntryState L.toLibs,
      L.validateLogEntry proofs e.logEntry e.validatedParameters highest = .ok () ↔
        isWitnessed L.toLibs proofs highest e = true := by
    intro e
    unfold isWitnessed witnessedHere
    cases hcheck : L.validateLogEntry proofs e.logEntry e.validatedParameters highest with
    | ok u => simp [Except.isOk, Except.toBool]
    | error err =>
        cases hactive : L.activeWitnesses e.validatedParameters with
        | none =>
            rw [hL.unwitnessed _ _ _ _ hactive] at hcheck
            cases hcheck
        | some ids => simp [Except.isOk, Except.toBool]
  unfold MeetThresholds
  simp only [hone]

/-- A witnessed beginning that the proofs stand for passes the verifier. -/
theorem StandsAlone.passesVerifier (hL : FullValidation L.toLibs) {witness : Option String}
    {states : List (LogEntryState L.toLibs)} {last q : LogEntryState L.toLibs}
    (hlast : states.getLast? = some last)
    (h : StandsAlone L.toLibs witness states (witnessedPrefix L.toLibs
      (storedProofs L witness last.versionNumber) last.versionNumber states) q) :
    PassesVerifier L.toLibs witness (witnessedPrefix L.toLibs
      (storedProofs L witness last.versionNumber) last.versionNumber states) q := by
  obtain ⟨supplied, generated, hsupplied, hgenerate, halone⟩ := h.proofs
  refine ⟨h.last_eq, ⟨supplied, generated, hsupplied, hgenerate, ?_⟩, h.supplied⟩
  rw [meetThresholds_iff hL]
  by_cases hall : (witnessedPrefix L.toLibs (storedProofs L witness last.versionNumber)
      last.versionNumber states).length = states.length
  · have hwhole : witnessedPrefix L.toLibs (storedProofs L witness last.versionNumber)
        last.versionNumber states = states :=
      (List.takeWhile_prefix _).eq_of_length hall
    have hq := h.last_eq
    rw [hwhole, hlast] at hq
    cases hq
    rw [storedProofs_of_generate hsupplied hgenerate]
    intro e he
    exact List.mem_takeWhile_imp he
  · exact halone hall

/-- What is accepted is served whole.  Conversely, of a log whose chain verifies the
entries up to the first unwitnessed one are served, and this beginning is accepted with
the same witness proofs when they stand for it alone. -/
theorem accepted_log_served_whole (L : ServeLibs) (hL : FullValidation L.toLibs)
    (content : String) (witness : Option String) :
    (verifyDidLogAndWitnessProofs L.toLibs content witness = .ok () →
        servableDidLog L content witness = some content) ∧
      ∀ states last, parseAndVerifyChain L.toLibs content = .ok states →
        states.getLast? = some last →
        let served := witnessedPrefix L.toLibs (storedProofs L witness last.versionNumber)
          last.versionNumber states
        servableDidLog L content witness = servedLog L content states served ∧
          ∀ text q, servableDidLog L content witness = some text →
            StandsAlone L.toLibs witness states served q →
            (served.length ≠ states.length →
              ReadsBack L content ∧ (extractDidId L.toLibs text).isSome) →
            verifyDidLogAndWitnessProofs L.toLibs text witness = .ok () := by
  constructor
  · intro h
    obtain ⟨states, last, hchain, hpasses⟩ := (verifyDidLogAndWitnessProofs_ok_iff hL).mp h
    obtain ⟨supplied, generated, hsupplied, hgenerate, hmeet⟩ := hpasses.thresholds
    rw [servableDidLog_of_chain hchain hpasses.last_eq,
      storedProofs_of_generate hsupplied hgenerate]
    rw [meetThresholds_iff hL] at hmeet
    have hwhole : witnessedPrefix L.toLibs generated last.versionNumber states = states :=
      List.takeWhile_eq_self_iff.mpr hmeet
    unfold servedLog
    rw [hwhole, if_pos rfl]
  · intro states last hchain hlast served
    have hserved : servableDidLog L content witness = servedLog L content states served :=
      servableDidLog_of_chain hchain hlast
    refine ⟨hserved, ?_⟩
    intro text q htext halone hproper
    rw [verifyDidLogAndWitnessProofs_ok_iff hL]
    refine ⟨served, q, ?_, halone.passesVerifier hL hlast⟩
    rw [hserved] at htext
    change servedLog L content states served = some text at htext
    unfold servedLog at htext
    by_cases hall : served.length = states.length
    · rw [if_pos hall] at htext
      cases htext
      have hwhole : served = states := (List.takeWhile_prefix _).eq_of_length hall
      rw [hwhole]
      exact hchain
    · rw [if_neg hall] at htext
      obtain ⟨hback, hwebvh⟩ := hproper hall
      split at htext
      · cases htext
      · rename_i hne
        cases htext
        have htake : served = states.take served.length := witnessedPrefix_eq_take _ _ _ _
        rw [htake] at hne hwebvh ⊢
        exact parseAndVerifyChain_writeEntries hback hchain hne hwebvh

/-! ## A log with an unwitnessed tail -/

namespace ServableSample

open Reference

/-- The witness proofs name the version of the entry. -/
def checkEntry (proofs : List String) (e : Json) : Except String Unit :=
  if libs.versionId e ∈ proofs then .ok () else .error "witness threshold not met"

/-- Every entry of the log is witnessed. -/
def checkEntries (proofs : List String) : List Json → Except String Unit
  | [] => .ok ()
  | e :: rest =>
      match checkEntry proofs e with
      | .error err => .error err
      | .ok () => checkEntries proofs rest

/-- Validation of a whole log. -/
def validateLog (entries : List Json) (proofs : Option (List String)) :
    Except String (List Json × Except String Unit) :=
  match entries, validateFrom none entries, checkEntries (proofs.getD []) entries with
  | _ :: _, .ok params, .ok () => .ok (params, .ok ())
  | _, _, _ => .error "the log does not verify"

/-- The reference libraries for logs with one witness throughout; a witness file lists
the versions it proves. -/
abbrev witnessLibs : ServeLibs where
  toLibs := { libs with
    WitnessProofs := List String
    activeWitnesses := fun _ => some ["z6Mk"]
    witnessThreshold := fun _ => some 1
    parseWitnessProofs := fun raw => .ok (split ',' raw)
    noProofs := []
    generateProofState := fun proofs _ => .ok proofs
    validateLogEntry := fun proofs e _ _ => checkEntry proofs e
    validate := validateLog }
  failedProofs proofs _ := proofs
  entryToString e := .ok (print e)

theorem validateFrom_ok_iff {previous : Option (Json × Json)} {entries : List (Json × ℕ)}
    {params : List Json} :
    validateFrom previous (entries.map Prod.fst) = .ok params ↔
      ∃ states, verifyChain witnessLibs.toLibs previous entries = .ok states ∧
        params = states.map fun e => e.validatedParameters := by
  induction entries generalizing previous params with
  | nil =>
      constructor
      · intro h
        cases h
        exact ⟨[], rfl, rfl⟩
      · rintro ⟨states, hstates, rfl⟩
        cases hstates
        rfl
  | cons entry entries ih =>
      obtain ⟨e, n⟩ := entry
      rw [List.map_cons]
      unfold validateFrom verifyChain
      cases hverify : verifyLogEntry e previous with
      | error err => simp [hverify, bind, Except.bind]
      | ok p =>
          simp only [hverify, bind, Except.bind]
          constructor
          · intro h
            cases hrest : validateFrom (some (e, p)) (entries.map Prod.fst) with
            | error err => simp [hrest] at h
            | ok others =>
                simp only [hrest] at h
                cases h
                obtain ⟨states, hstates, rfl⟩ := ih.mp hrest
                refine ⟨⟨e, n, p⟩ :: states, ?_, rfl⟩
                rw [hstates]
                rfl
          · rintro ⟨states, hstates, rfl⟩
            cases hrest : verifyChain witnessLibs.toLibs (some (e, p)) entries with
            | error err => simp [hrest] at hstates
            | ok others =>
                simp only [hrest] at hstates
                cases hstates
                rw [ih.mpr ⟨others, hrest, rfl⟩]
                rfl

theorem checkEntries_ok_iff {proofs : List String} {entries : List Json} :
    checkEntries proofs entries = .ok () ↔ ∀ e ∈ entries, checkEntry proofs e = .ok () := by
  induction entries with
  | nil => exact ⟨fun _ e he => absurd he List.not_mem_nil, fun _ => rfl⟩
  | cons e entries ih =>
      unfold checkEntries
      rw [List.forall_mem_cons]
      cases hcheck : checkEntry proofs e with
      | error err => simp
      | ok u => simpa using ih

theorem checkEntries_eq (proofs : List String) {previous : Option (Json × Json)}
    {entries : List (Json × ℕ)} {states : List (LogEntryState witnessLibs.toLibs)} (highest : ℕ)
    (h : verifyChain witnessLibs.toLibs previous entries = .ok states) :
    checkEntries proofs (entries.map Prod.fst) = .ok () ↔
      checkThresholds witnessLibs.toLibs proofs highest states = .ok () := by
  obtain ⟨-, rfl⟩ := verifyChain_ok_iff.mp h
  rw [checkEntries_ok_iff, checkThresholds_ok_iff, List.map_map, List.forall_mem_map]
  exact Iff.rfl

theorem fullValidation : FullValidation witnessLibs.toLibs where
  validate_iff := by
    intro entries proofs params _
    change validateLog (entries.map Prod.fst) proofs = _ ↔ _
    constructor
    · intro h
      unfold validateLog at h
      split at h
      · rename_i first rest hentries hparams hcheck
        cases h
        obtain ⟨states, hstates, rfl⟩ := validateFrom_ok_iff.mp hparams
        have hne : states ≠ [] := by
          rintro rfl
          obtain ⟨-, hnil⟩ := verifyChain_ok_iff.mp hstates
          rw [← hnil] at hentries
          cases hentries
        refine ⟨states, states.getLast hne, proofs.getD [], hstates, rfl,
          List.getLast?_eq_some_getLast hne, rfl, ?_⟩
        exact (checkEntries_eq _ _ hstates).mp hcheck
      · cases h
    · rintro ⟨states, last, generated, hstates, rfl, hlast, hgenerate, hcheck⟩
      cases hgenerate
      have hparams := validateFrom_ok_iff.mpr ⟨states, hstates, rfl⟩
      have hentries := (checkEntries_eq _ last.versionNumber hstates).mpr hcheck
      cases entries with
      | nil =>
          cases hstates
          cases hlast
      | cons entry entries =>
          unfold validateLog
          rw [hparams, List.map_cons]
          rw [List.map_cons] at hentries
          rw [hentries]
  unwitnessed := by
    intro proofs e params highest h
    cases h

/-- The stored log: no witness has proved its second version. -/
def content : String := logOf [al1, al2]

/-- The stored witness file. -/
def witness : Option String := some "1-a"

/-- The verified chain. -/
def states : List (LogEntryState witnessLibs.toLibs) :=
  [⟨al1, 1, .obj []⟩, ⟨al2, 2, .obj []⟩]

theorem deserializeString_print {e : Json} (h : WellFormed e) (version : Option Unit) :
    witnessLibs.deserializeString (print e) version = .ok e :=
  h.parse_print

/-- What the libraries read in the sample texts. -/
theorem evaluated :
    (versionNumber al1 = .ok 1 ∧ versionNumber al2 = .ok 2) ∧
      (presentWitness witness = some "1-a" ∧ split ',' "1-a" = ["1-a"]) ∧
      (checkEntry ["1-a"] al1 = .ok () ∧
        checkEntry ["1-a"] al2 = .error "witness threshold not met") ∧
      validateDidJsonl libs "alice" ≠ .ok () := by
  decide +kernel

theorem numbers : versionNumber al1 = .ok 1 ∧ versionNumber al2 = .ok 2 :=
  evaluated.1

theorem links : verifyLogEntry al1 none = .ok (.obj []) ∧
    verifyLogEntry al2 (some (al1, .obj [])) = .ok (.obj []) :=
  ⟨rfl, rfl⟩

theorem reads : ReadsAs witnessLibs.toLibs none [print al1, print al2] [(al1, 1), (al2, 2)] :=
  ⟨deserializeString_print wellFormed_al1 none, numbers.1,
    deserializeString_print wellFormed_al2 (some ()), numbers.2, trivial⟩

theorem extractDidId_eq (text : String) :
    extractDidId witnessLibs.toLibs text = extractDidId libs text :=
  rfl

theorem validateDidJsonl_eq (text : String) :
    validateDidJsonl witnessLibs.toLibs text = .ok () ↔ validateDidJsonl libs text = .ok () := by
  rw [validateDidJsonl_ok_iff, validateDidJsonl_ok_iff, extractDidId_eq]

theorem chain_eq : parseAndVerifyChain witnessLibs.toLibs content = .ok states := by
  have hvalid : validateDidJsonl witnessLibs.toLibs content = .ok () := by
    rw [validateDidJsonl_eq]
    exact validLog_al2.validateDidJsonl_eq
  have hverified : Verified witnessLibs.toLibs none states := ⟨links.1, links.2, trivial⟩
  rw [parseAndVerifyChain_ok_iff]
  refine ⟨hvalid, hverified, ?_⟩
  have hlines : trimmedLines content = [print al1, print al2] :=
    logEntries_logOf validLog_al2.wellFormed
  rw [hlines]
  exact reads

theorem presentWitness_eq : presentWitness witness = some "1-a" :=
  evaluated.2.1.1

theorem suppliedProofs_eq : suppliedProofs witnessLibs.toLibs witness = .ok (some ["1-a"]) := by
  have hsplit : split ',' "1-a" = ["1-a"] := evaluated.2.1.2
  unfold suppliedProofs
  rw [presentWitness_eq]
  change Except.ok (some (split ',' "1-a")) = _
  rw [hsplit]

theorem storedProofs_eq (highest : ℕ) : storedProofs witnessLibs witness highest = ["1-a"] :=
  storedProofs_of_generate suppliedProofs_eq rfl

theorem checkEntry_eq : checkEntry ["1-a"] al1 = .ok () ∧
    checkEntry ["1-a"] al2 = .error "witness threshold not met" :=
  evaluated.2.2.1

theorem isWitnessed_eq (n highest : ℕ) (params : Json) :
    isWitnessed witnessLibs.toLibs ["1-a"] highest ⟨al1, n, params⟩ = true ∧
      isWitnessed witnessLibs.toLibs ["1-a"] highest ⟨al2, n, params⟩ = false := by
  have hone : ∀ e : Json, isWitnessed witnessLibs.toLibs ["1-a"] highest ⟨e, n, params⟩ =
      (checkEntry ["1-a"] e).isOk := fun _ => rfl
  rw [hone, hone, checkEntry_eq.1, checkEntry_eq.2]
  exact ⟨rfl, rfl⟩

theorem witnessedPrefix_eq (highest : ℕ) :
    witnessedPrefix witnessLibs.toLibs ["1-a"] highest states = [⟨al1, 1, .obj []⟩] := by
  rw [states, witnessedPrefix, List.takeWhile_cons_of_pos (isWitnessed_eq _ _ _).1,
    List.takeWhile_cons_of_neg (by rw [(isWitnessed_eq _ _ _).2]; decide)]

theorem standsAlone (n : ℕ) : StandsAlone witnessLibs.toLibs witness states
    [⟨al1, n, .obj []⟩] ⟨al1, n, .obj []⟩ where
  last_eq := rfl
  proofs := by
    refine ⟨some ["1-a"], ["1-a"], suppliedProofs_eq, rfl, fun _ => ?_⟩
    rw [List.forall_mem_singleton]
    exact (isWitnessed_eq _ _ _).1
  supplied := by
    intro _
    rw [presentWitness_eq]
    rfl

theorem writeEntries_eq : writeEntries witnessLibs [al1] = logOf [al1] :=
  rfl

theorem isLine_print {e : Json} (h : WellFormed e) : IsLine (print e) where
  one_line := by
    rw [print, String.toList_ofList]
    exact h.one_line
  trimmed := h.trim_print
  ne_nil := ne_nil_of_not_isBlank h.isBlank_print

theorem readsBack_logOf {es : List Json} (hes : ∀ e ∈ es, WellFormed e) :
    ReadsBack witnessLibs (logOf es) := by
  have hlines : trimmedLines (logOf es) = es.map print := logEntries_logOf hes
  intro line hline version e' hread
  rw [hlines] at hline
  obtain ⟨e, he, rfl⟩ := List.mem_map.mp hline
  change parse (print e) = .ok e' at hread
  rw [(hes e he).parse_print] at hread
  cases hread
  exact ⟨print e', rfl, isLine_print (hes e' he), fun _ => rfl⟩

theorem readsBack : ReadsBack witnessLibs content :=
  readsBack_logOf validLog_al2.wellFormed

theorem validate_alice : ∃ e, validateDidJsonl witnessLibs.toLibs "alice" = .error e := by
  have hbad : validateDidJsonl libs "alice" ≠ .ok () := evaluated.2.2.2
  cases h : validateDidJsonl witnessLibs.toLibs "alice" with
  | error e => exact ⟨e, rfl⟩
  | ok u => exact absurd ((validateDidJsonl_eq "alice").mp h) hbad

end ServableSample

open ServableSample in
/-- A text that does not parse as a log is served as it is. -/
theorem unparsed_text_served :
    ¬ ∀ (L : ServeLibs), FullValidation L.toLibs → ∀ content witness text,
      servableDidLog L content witness = some text →
        verifyDidLogAndWitnessProofs L.toLibs text witness = .ok () := by
  intro h
  obtain ⟨e, hbad⟩ := validate_alice
  have hserved : servableDidLog witnessLibs "alice" none = some "alice" := by
    unfold servableDidLog
    rw [hbad]
  have hok := h witnessLibs fullValidation "alice" none "alice" hserved
  rw [verifyDidLogAndWitnessProofs_ok_iff fullValidation] at hok
  obtain ⟨states, -, hchain, -⟩ := hok
  obtain ⟨hvalid, -⟩ := parseAndVerifyChain_ok_iff.mp hchain
  rw [hbad] at hvalid
  cases hvalid

open ServableSample Reference in
/-- Of a log with a witnessed first version and an unwitnessed second one the first
version is served, and it is accepted. -/
theorem accepted_log_served_whole_tail :
    servableDidLog witnessLibs content witness = some (logOf [al1]) ∧
      verifyDidLogAndWitnessProofs witnessLibs.toLibs (logOf [al1]) witness = .ok () := by
  obtain ⟨-, h⟩ := accepted_log_served_whole witnessLibs fullValidation content witness
  obtain ⟨hserved, hpass⟩ := h states ⟨al2, 2, .obj []⟩ chain_eq rfl
  rw [storedProofs_eq, witnessedPrefix_eq] at hserved hpass
  have htext : servableDidLog witnessLibs content witness = some (logOf [al1]) := by
    rw [hserved]
    unfold servedLog
    rw [if_neg (by decide), if_neg (by decide)]
    exact congrArg some writeEntries_eq
  have hwebvh : (extractDidId witnessLibs.toLibs (logOf [al1])).isSome := by
    rw [extractDidId_eq, validLog_al1.extractDidId_eq]
    rfl
  exact ⟨htext, hpass (logOf [al1]) _ htext (standsAlone 1) fun _ => ⟨readsBack, hwebvh⟩⟩

end DidHosting
