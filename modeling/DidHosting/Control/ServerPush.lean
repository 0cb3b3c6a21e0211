import DidHosting.Control.State

/-!
# Sync updates from the control plane

The body of the update the control plane queues for a slot.
-/

namespace DidHosting

/-- `sync_update_body`: the update for a stored slot, or `none` when the slot
has no published DID.  `fits` says whether the generated payload type accepts a
body. -/
def syncUpdateBody (fits : DidSyncUpdate → Bool) (record : DidRecord) (logContent : String)
    (witnessContent : Option String) : Option DidSyncUpdate :=
  match record.didId.filter (· ≠ "") with
  | none => none
  | some didId =>
      let body : DidSyncUpdate :=
        { mnemonic := record.mnemonic
          didId := didId
          logContent := logContent
          witnessContent := witnessContent.filter (· ≠ "")
          versionCount := record.versionCount
          disabled := record.disabled }
      if fits body then some body else none

theorem syncUpdateBody_of_fits {fits : DidSyncUpdate → Bool} {record : DidRecord}
    {didId logContent : String} {witnessContent : Option String}
    (hdid : record.didId = some didId) (hne : didId ≠ "")
    (hfits : fits ⟨record.mnemonic, didId, logContent, witnessContent.filter (· ≠ ""),
      record.versionCount, record.disabled⟩ = true) :
    syncUpdateBody fits record logContent witnessContent =
      some ⟨record.mnemonic, didId, logContent, witnessContent.filter (· ≠ ""),
        record.versionCount, record.disabled⟩ := by
  have hfilter : record.didId.filter (· ≠ "") = some didId := by
    rw [hdid, Option.filter_some, if_pos (by simpa using hne)]
  unfold syncUpdateBody
  rw [hfilter]
  exact if_pos hfits

theorem syncUpdateBody_spec {fits : DidSyncUpdate → Bool} {record : DidRecord}
    {logContent : String} {witnessContent : Option String} {body : DidSyncUpdate}
    (h : syncUpdateBody fits record logContent witnessContent = some body) :
    body.mnemonic = record.mnemonic ∧ record.didId = some body.didId ∧
      body.logContent = logContent ∧ body.versionCount = record.versionCount ∧
      body.disabled = record.disabled := by
  unfold syncUpdateBody at h
  split at h
  · contradiction
  · rename_i didId hdid
    simp only at h
    split at h
    · cases h
      refine ⟨rfl, ?_, rfl, rfl, rfl⟩
      cases hr : record.didId with
      | none => simp [hr] at hdid
      | some d =>
          rw [hr, Option.filter_some] at hdid
          split at hdid
          · exact hdid
          · contradiction
    · contradiction

end DidHosting
