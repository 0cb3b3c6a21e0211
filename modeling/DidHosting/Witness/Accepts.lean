import DidHosting.Witness.Sign

/-!
# Which logs a witness signs

A witness signs the last version of a log whose chain verifies, when no version before it
deactivates the DID and the parameters in force for it name the witness.  The log is
verified up to the entry that deactivates the DID only; what lies behind it is refused
without being verified.
-/

namespace DidHosting

open Text

section

variable {W : WitnessLibs} {content versionId witnessDid : String}
  {previous : Option (W.LogEntry × W.Parameters)} {entries : List (W.LogEntry × ℕ)}
  {states : List (LogEntryState W.toLibs)}

/-- The witness verifies each entry as the chain does. -/
theorem verifyEntries_ok_iff :
    verifyEntries W previous entries = .ok states ↔
      verifyChain W.toLibs previous entries = .ok states := by
  induction entries generalizing previous states with
  | nil =>
      constructor
      · intro h
        cases h
        rfl
      · intro h
        cases h
        rfl
  | cons entry rest ih =>
      obtain ⟨entry, n⟩ := entry
      rw [verifyEntries, verifyChain]
      cases W.verifyLogEntry entry previous with
      | error e =>
          constructor
          · intro h
            cases h
          · intro h
            cases h
      | ok params =>
          constructor
          · intro h
            obtain ⟨others, hothers, hafter⟩ := bind_eq_ok h
            cases hafter
            dsimp only
            rw [ih.mp hothers]
            rfl
          · intro h
            obtain ⟨others, hothers, hafter⟩ := bind_eq_ok h
            cases hafter
            dsimp only
            rw [ih.mpr hothers]
            rfl

/-- How many of the entries a witness verifies. -/
def verifiedThrough (W : WitnessLibs) (entries : List (W.LogEntry × ℕ)) : ℕ :=
  ((deactivatingIndex W entries).map (· + 1)).getD entries.length

/-- It verifies all of them when no entry before the last one deactivates the DID. -/
theorem verifiedThrough_iff :
    ¬verifiedThrough W entries < entries.length ↔
      ∀ e ∈ entries.dropLast, W.deactivates e.1 = false := by
  unfold verifiedThrough deactivatingIndex
  cases hfirst : entries.findIdx? fun e => W.deactivates e.1 with
  | none =>
      rw [List.findIdx?_eq_none_iff] at hfirst
      refine ⟨fun _ e he => ?_, fun _ => Nat.lt_irrefl _⟩
      exact hfirst e (List.mem_of_mem_dropLast he)
  | some d =>
      obtain ⟨hd, hdeactivates, hbefore⟩ := List.findIdx?_eq_some_iff_getElem.mp hfirst
      change ¬d + 1 < entries.length ↔ _
      constructor
      · intro hlast e he
        obtain ⟨j, hj, rfl⟩ := List.getElem_of_mem he
        rw [List.length_dropLast] at hj
        have hjd : j < d := by omega
        rw [List.getElem_dropLast]
        exact eq_false_of_ne_true (hbefore j hjd)
      · intro h hlt
        have hlength : d < entries.dropLast.length := by
          rw [List.length_dropLast]
          omega
        have hmem := List.getElem_mem hlength
        rw [List.getElem_dropLast] at hmem
        rw [h _ hmem] at hdeactivates
        cases hdeactivates

/-- The witness parameter in force for an entry names the witness. -/
def NamesWitness (W : WitnessLibs) (params : W.Parameters) (witnessDid : String) : Prop :=
  ∃ ids, W.witnessIds params = some ids ∧
    ∃ id ∈ ids, id = witnessDid ∨ "did:key:" ++ id = witnessDid

theorem listsWitness_iff {params : W.Parameters} :
    listsWitness W params witnessDid = true ↔ NamesWitness W params witnessDid := by
  unfold listsWitness NamesWitness
  cases W.witnessIds params with
  | none => exact ⟨nofun, nofun⟩
  | some ids =>
      rw [Option.any_some, List.any_eq_true]
      constructor
      · rintro ⟨id, hid, hsame⟩
        rw [Bool.or_eq_true, decide_eq_true_iff, decide_eq_true_iff] at hsame
        exact ⟨ids, rfl, id, hid, hsame⟩
      · rintro ⟨ids', hids, id, hid, hsame⟩
        cases hids
        refine ⟨id, hid, ?_⟩
        rw [Bool.or_eq_true, decide_eq_true_iff, decide_eq_true_iff]
        exact hsame

/-- The witness may sign the version: the chain of the log verifies and ends in this
version, no entry before deactivates the DID, and the last one names the witness. -/
structure MaySign (W : WitnessLibs) (content versionId witnessDid : String)
    (states : List (LogEntryState W.toLibs)) (last : LogEntryState W.toLibs) : Prop where
  chain : parseAndVerifyChain W.toLibs content = .ok states
  last_eq : states.getLast? = some last
  version_last : W.versionId last.logEntry = versionId
  active : ∀ e ∈ states.dropLast, W.deactivates e.logEntry = false
  named : NamesWitness W last.validatedParameters witnessDid

/-- What the documentation of the libraries says of the SCID: the first entry establishes
it, and the parameters carry it forward. -/
structure EstablishesScid (W : WitnessLibs) : Prop where
  first : ∀ e params, W.verifyLogEntry e none = .ok params → (W.scid params).isSome
  carried : ∀ e before inForce params,
    W.verifyLogEntry e (some (before, inForce)) = .ok params → (W.scid inForce).isSome →
      (W.scid params).isSome

theorem EstablishesScid.of_verified (hW : EstablishesScid W)
    (hprevious : ∀ before inForce, previous = some (before, inForce) → (W.scid inForce).isSome)
    (h : Verified W.toLibs previous states) :
    ∀ e ∈ states, (W.scid e.validatedParameters).isSome := by
  induction states generalizing previous with
  | nil => exact fun _ he => absurd he List.not_mem_nil
  | cons e rest ih =>
      have hhead : (W.scid e.validatedParameters).isSome := by
        cases previous with
        | none => exact hW.first _ _ h.1
        | some before =>
            exact hW.carried _ before.1 before.2 _ h.1 (hprevious before.1 before.2 rfl)
      refine List.forall_mem_cons.mpr ⟨hhead, ih ?_ h.2⟩
      intro before inForce hsome
      cases hsome
      exact hhead

theorem invalidLog_ok {α : Type} {x : Except String α} {a : α} (h : invalidLog x = .ok a) :
    x = .ok a := by
  cases x with
  | error e => cases h
  | ok b =>
      cases h
      rfl

/-- An entry of the log, as it was read. -/
def readEntry (e : LogEntryState W.toLibs) : W.LogEntry × ℕ :=
  (e.logEntry, e.versionNumber)

theorem dropLast_active_iff :
    (∀ e ∈ (states.map readEntry).dropLast, W.deactivates e.1 = false) ↔
      ∀ e ∈ states.dropLast, W.deactivates e.logEntry = false := by
  rw [← List.map_dropLast, List.forall_mem_map]
  exact Iff.rfl

theorem maySign_of_accepted {w : WitnessedLog}
    (h : verifyLogForWitnessing W content versionId witnessDid = .ok w) :
    ∃ states last, MaySign W content versionId witnessDid states last ∧
      w.versionIds = versionIds states := by
  unfold verifyLogForWitnessing at h
  obtain ⟨⟨⟩, hvalid, h⟩ := bind_eq_ok h
  obtain ⟨entries, hparse, h⟩ := bind_eq_ok h
  obtain ⟨states, hverify, h⟩ := bind_eq_ok h
  change verifyEntries W none (entries.take (verifiedThrough W entries)) = .ok states at hverify
  cases hlast : entries.getLast? with
  | none =>
      rw [hlast] at h
      cases h
  | some entry =>
      rw [hlast] at h
      change (if W.versionId entry.1 ≠ versionId then _
        else if verifiedThrough W entries < entries.length then _ else _) = _ at h
      by_cases hversion : W.versionId entry.1 = versionId
      swap
      · rw [if_pos hversion] at h
        cases h
      rw [if_neg (not_not.mpr hversion)] at h
      by_cases hthrough : verifiedThrough W entries < entries.length
      · rw [if_pos hthrough] at h
        cases h
      rw [if_neg hthrough] at h
      rw [List.take_of_length_le (Nat.le_of_not_lt hthrough)] at hverify
      have hchain := verifyEntries_ok_iff.mp hverify
      obtain ⟨-, hentries⟩ := verifyChain_ok_iff.mp hchain
      change states.map readEntry = entries at hentries
      subst hentries
      rw [List.getLast?_map] at hlast
      obtain ⟨last, hstates, rfl⟩ := Option.map_eq_some_iff.mp hlast
      rw [hstates, Option.any_some, Option.bind_some] at h
      cases hlists : listsWitness W last.validatedParameters witnessDid with
      | false =>
          rw [hlists] at h
          cases h
      | true =>
          rw [hlists] at h
          cases hscid : W.scid last.validatedParameters with
          | none =>
              rw [hscid] at h
              cases h
          | some scid =>
              rw [hscid] at h
              cases h
              refine ⟨states, last, ⟨?_, hstates, hversion, ?_, listsWitness_iff.mp hlists⟩, ?_⟩
              · unfold parseAndVerifyChain
                rw [invalidLog_ok hvalid, invalidLog_ok hparse]
                exact hchain
              · exact dropLast_active_iff.mp (verifiedThrough_iff.mp hthrough)
              · rw [List.map_map]
                rfl

theorem accepted_of_maySign {last : LogEntryState W.toLibs} {scid : String}
    (h : MaySign W content versionId witnessDid states last)
    (hscid : W.scid last.validatedParameters = some scid) :
    verifyLogForWitnessing W content versionId witnessDid = .ok ⟨scid, versionIds states⟩ := by
  have hchain := h.chain
  unfold parseAndVerifyChain at hchain
  obtain ⟨⟨⟩, hvalid, hchain⟩ := bind_eq_ok hchain
  obtain ⟨entries, hparse, hchain⟩ := bind_eq_ok hchain
  obtain ⟨-, hentries⟩ := verifyChain_ok_iff.mp hchain
  change states.map readEntry = entries at hentries
  subst hentries
  have hthrough := verifiedThrough_iff.mpr (dropLast_active_iff.mpr h.active)
  have hverify : verifyEntries W none
      ((states.map readEntry).take (verifiedThrough W (states.map readEntry))) = .ok states := by
    rw [List.take_of_length_le (Nat.le_of_not_lt hthrough)]
    exact verifyEntries_ok_iff.mpr hchain
  have hlast : (states.map readEntry).getLast? = some (readEntry last) := by
    rw [List.getLast?_map, h.last_eq]
    rfl
  rw [verifiedThrough] at hthrough hverify
  rw [verifyLogForWitnessing, hvalid, hparse]
  simp only [invalidLog, bind, Except.bind, hverify, hlast]
  have hversion : W.versionId (readEntry last).1 = versionId := h.version_last
  rw [if_neg (not_not.mpr hversion), if_neg hthrough, h.last_eq, Option.any_some,
    Option.bind_some, listsWitness_iff.mpr h.named, hscid, List.map_map]
  rfl

/-- A witness accepts a log exactly when it may sign the version asked for, and names the
versions of all of its entries in order. -/
theorem witness_signs_iff (W : WitnessLibs) (hW : EstablishesScid W)
    (content versionId witnessDid : String) :
    ((∃ w, verifyLogForWitnessing W content versionId witnessDid = .ok w) ↔
        ∃ states last, MaySign W content versionId witnessDid states last) ∧
      ∀ w, verifyLogForWitnessing W content versionId witnessDid = .ok w →
        ∃ states, parseAndVerifyChain W.toLibs content = .ok states ∧
          w.versionIds = versionIds states := by
  refine ⟨⟨?_, ?_⟩, ?_⟩
  · rintro ⟨w, h⟩
    obtain ⟨states, last, hmay, -⟩ := maySign_of_accepted h
    exact ⟨states, last, hmay⟩
  · rintro ⟨states, last, hmay⟩
    obtain ⟨-, hverified, -⟩ := parseAndVerifyChain_ok_iff.mp hmay.chain
    have hscid : (W.scid last.validatedParameters).isSome := by
      apply hW.of_verified _ hverified last (List.mem_of_getLast? hmay.last_eq)
      intro before inForce hnone
      cases hnone
    obtain ⟨scid, hscid⟩ := Option.isSome_iff_exists.mp hscid
    exact ⟨_, accepted_of_maySign hmay hscid⟩
  · intro w h
    obtain ⟨states, last, hmay, hids⟩ := maySign_of_accepted h
    exact ⟨states, hmay.chain, hids⟩

end

open WitnessSample Reference in
/-- The second version of a DID, under the witness its first version names. -/
theorem witness_signs_iff_second :
    ∃ states last, MaySign chainLibs (logOf [first, second]) "2-b" "did:key:z6Mk" states last := by
  have hW : EstablishesScid chainLibs := ⟨fun _ _ _ => rfl, fun _ _ _ _ _ _ => rfl⟩
  obtain ⟨hiff, -⟩ := witness_signs_iff chainLibs hW (logOf [first, second]) "2-b" "did:key:z6Mk"
  exact hiff.mp ⟨_, verify_second⟩

end DidHosting
