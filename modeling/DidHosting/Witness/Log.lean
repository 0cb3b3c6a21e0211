import DidHosting.Common.Chain

/-!
# What a witness verifies

Before it signs anything, a witness verifies the log it is shown: the chain, that the
version asked for is the last one, that no version before it deactivated the DID, and
that the witness parameter in force names the witness.
-/

namespace DidHosting

open Text

/-- The libraries of the witness service. -/
structure WitnessLibs extends Libs where
  /-- `LogEntry::get_parameters().deactivated == Some(true)`. -/
  deactivates : LogEntry → Bool
  /-- `parameters.scid`. -/
  scid : Parameters → Option String
  /-- `parameters.active_witness.witnesses()`. -/
  witnessIds : Parameters → Option (List String)

inductive WitnessLogRefusal where
  | invalidLog (reason : String)
  | versionNotLast (last : String)
  | deactivated
  | notListed
deriving DecidableEq, Repr

structure WitnessedLog where
  scid : String
  versionIds : List String
deriving DecidableEq, Repr

section Verify

variable (W : WitnessLibs)

/-- `map_err(WitnessLogRefusal::InvalidLog)`. -/
def invalidLog {α : Type} : Except String α → Except WitnessLogRefusal α
  | .ok a => .ok a
  | .error reason => .error (.invalidLog reason)

/-- The verification loop of `verify_log_for_witnessing`. -/
def verifyEntries (previous : Option (W.LogEntry × W.Parameters)) :
    List (W.LogEntry × ℕ) → Except WitnessLogRefusal (List (LogEntryState W.toLibs))
  | [] => .ok []
  | (entry, n) :: rest =>
      match W.verifyLogEntry entry previous with
      | .error e => .error (.invalidLog s!"entry {W.versionId entry} does not verify: {e}")
      | .ok params => do
          let states ← verifyEntries (some (entry, params)) rest
          return ⟨entry, n, params⟩ :: states

/-- The index of the entry that first deactivates the DID. -/
def deactivatingIndex (entries : List (W.LogEntry × ℕ)) : Option ℕ :=
  entries.findIdx? fun e => W.deactivates e.1

/-- The witness parameter in force names the witness. -/
def listsWitness (params : W.Parameters) (witnessDid : String) : Bool :=
  (W.witnessIds params).any fun ids =>
    ids.any fun id => id = witnessDid || "did:key:" ++ id = witnessDid

def verifyLogForWitnessing (content versionId witnessDid : String) :
    Except WitnessLogRefusal WitnessedLog := do
  invalidLog (validateDidJsonl W.toLibs content)
  let entries ← invalidLog (parseEntries W.toLibs 0 none (lines content))
  let verifyThrough := ((deactivatingIndex W entries).map (· + 1)).getD entries.length
  let states ← verifyEntries W none (entries.take verifyThrough)
  match entries.getLast? with
  | none => .error (.invalidLog "the log has no entries")
  | some last =>
      if W.versionId last.1 ≠ versionId then
        .error (.versionNotLast (W.versionId last.1))
      else if verifyThrough < entries.length then
        .error .deactivated
      else if !(states.getLast?.any fun e => listsWitness W e.validatedParameters witnessDid) then
        .error .notListed
      else
        match states.getLast?.bind fun e => W.scid e.validatedParameters with
        | none => .error (.invalidLog "the log establishes no SCID")
        | some scid => .ok ⟨scid, entries.map fun e => W.versionId e.1⟩

variable {W}

theorem verifyEntries_ok {previous : Option (W.LogEntry × W.Parameters)}
    {entries : List (W.LogEntry × ℕ)} {states : List (LogEntryState W.toLibs)}
    (h : verifyEntries W previous entries = .ok states) :
    Verified W.toLibs previous states ∧
      versionIds states = entries.map fun e => W.versionId e.1 := by
  induction entries generalizing previous states with
  | nil =>
      cases h
      exact ⟨trivial, rfl⟩
  | cons entry entries ih =>
      obtain ⟨e, n⟩ := entry
      unfold verifyEntries at h
      cases hverify : W.verifyLogEntry e previous with
      | error err =>
          rw [hverify] at h
          contradiction
      | ok params =>
          rw [hverify] at h
          cases hrest : verifyEntries W (some (e, params)) entries with
          | error err =>
              simp only [hrest] at h
              contradiction
          | ok rest =>
              simp only [hrest] at h
              cases h
              obtain ⟨hchain, hids⟩ := ih hrest
              refine ⟨⟨hverify, hchain⟩, ?_⟩
              unfold versionIds at hids ⊢
              rw [List.map_cons, List.map_cons, hids]

/-- A log that is witnessed is a verified chain that ends in the version asked for. -/
theorem verifyLogForWitnessing_ok {content versionId witnessDid : String} {w : WitnessedLog}
    (h : verifyLogForWitnessing W content versionId witnessDid = .ok w) :
    ∃ states, Verified W.toLibs none states ∧ versionIds states = w.versionIds ∧
      w.versionIds.getLast? = some versionId := by
  unfold verifyLogForWitnessing at h
  cases hvalid : validateDidJsonl W.toLibs content with
  | error e => simp [hvalid, invalidLog, bind, Except.bind] at h
  | ok u =>
      cases hparse : parseEntries W.toLibs 0 none (lines content) with
      | error e => simp [hvalid, hparse, invalidLog, bind, Except.bind] at h
      | ok entries =>
          simp only [hvalid, hparse, invalidLog, bind, Except.bind] at h
          cases hverify : verifyEntries W none
              (entries.take (((deactivatingIndex W entries).map (· + 1)).getD entries.length)) with
          | error e => simp [hverify] at h
          | ok states =>
              simp only [hverify] at h
              obtain ⟨hchain, hids⟩ := verifyEntries_ok hverify
              split at h
              · contradiction
              · rename_i last hlast
                split at h
                · contradiction
                · rename_i hversion
                  split at h
                  · contradiction
                  · rename_i hthrough
                    split at h
                    · contradiction
                    · split at h
                      · contradiction
                      · cases h
                        refine ⟨states, hchain, ?_, ?_⟩
                        · rw [hids, List.take_of_length_le (Nat.le_of_not_lt hthrough)]
                        · rw [List.getLast?_map, hlast, Option.map_some, not_not.mp hversion]

end Verify

end DidHosting
