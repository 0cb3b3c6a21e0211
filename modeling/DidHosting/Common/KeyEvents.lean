import DidHosting.Support.HashChain
import DidHosting.Common.Publication

/-!
# Key event logs

A did:webs stream carries the key event log of an AID.  The KERI library is a
parameter: what it returns for a stream is the list of the verified events, and
the key state, which tells only how many there are.  `verify_continuation`
compares key states, so it sees a log that has become shorter and not one that
has been rewritten: an accepted stream extends the stored one exactly if the
two agree at the last sequence number both of them have.
-/

namespace DidHosting

open Text HashChain

/-- The last label of an identifier. -/
def lastLabel (did : String) : String :=
  String.ofList (did.toList.reverse.takeWhile (· != ':')).reverse

theorem lastLabel_append (front label : String) :
    lastLabel (front ++ ":" ++ label) = lastLabel label := by
  have hstop : ∀ cs ds : List Char,
      (cs ++ ':' :: ds).takeWhile (· != ':') = cs.takeWhile (· != ':') := by
    intro cs ds
    induction cs with
    | nil => rfl
    | cons c cs ih =>
        rw [List.cons_append, List.takeWhile_cons, List.takeWhile_cons, ih]
  unfold lastLabel
  rw [String.toList_append, String.toList_append, List.reverse_append, List.reverse_append]
  exact congrArg (fun cs => String.ofList (List.reverse cs)) (hstop _ _)

/-- The AID of a did:webs slot, the last label of its path. -/
def slotAid (mnemonic : String) : String :=
  lastLabel (replaceChar '/' ":" mnemonic)

theorem lastLabel_websDidId (domain mnemonic : String) :
    lastLabel (websDidId domain mnemonic) = slotAid mnemonic :=
  lastLabel_append _ _

/-- A key event: its digest, and the digest of the event before it. -/
structure KeriEvent where
  said : String
  prior : Option String
deriving DecidableEq, Repr

/-- What the services rely on of the KERI library.  `log stream aid` is the
verified event sequence of an AID in a stream. -/
structure Keri (L : Libs) (log : String → String → List KeriEvent) : Prop where
  /-- The events are chained by their prior-event digests. -/
  linked : ∀ stream aid, Linked KeriEvent.said KeriEvent.prior none (log stream aid)
  /-- A digest belongs to one event. -/
  said_injective : CollisionFree KeriEvent.said {e | ∃ stream aid, e ∈ log stream aid}
  /-- The sequence number of a key state is that of the last event. -/
  key_state : ∀ stream aid state, L.kelsKeyState stream aid = .ok state →
    (log stream aid).length = state.sn + 1
  /-- Artifacts resolve only if the stream establishes the AID of the identifier. -/
  resolved : ∀ parsed stream document, L.resolveFromArtifacts parsed stream = .ok document →
    (L.kelsParse stream).isOk ∧ ∃ state, L.kelsKeyState stream parsed.aid = .ok state
  /-- The AID of an identifier is its last label. -/
  aid_label : ∀ did parsed, L.didWebsParse did = .ok parsed →
    parsed.aid = lastLabel did ∧ startsWith "did:webs:" did

/-- The key state of the AID can be read from the stream. -/
def Readable (L : Libs) (stream aid : String) : Prop :=
  (L.kelsParse stream).isOk ∧ ∃ state, L.kelsKeyState stream aid = .ok state

/-- The digests of the key events of a stream, in sequence order. -/
def digests (log : String → String → List KeriEvent) (stream aid : String) : List String :=
  (log stream aid).map KeriEvent.said

/-- The new stream does not rewrite what the old one says: if it is at least as
long, the two carry the same event at the last sequence number of the old
one. -/
def Unforked (log : String → String → List KeriEvent) (aid old new : String) : Prop :=
  (log old aid).length ≤ (log new aid).length →
    Agree KeriEvent.said (log old aid) (log new aid)

section

variable {L : Libs} {log : String → String → List KeriEvent} {did old new document : String}
  {parsed : DidWebs}

theorem readable_of_verifyArtifacts (hK : Keri L log)
    (h : verifyArtifacts L did new = .ok document) :
    ∃ parsed, L.didWebsParse did = .ok parsed ∧ Readable L new parsed.aid := by
  unfold verifyArtifacts at h
  split at h
  · contradiction
  · rename_i parsed hparse
    split at h
    · contradiction
    · rename_i doc hresolve
      exact ⟨parsed, hparse, hK.resolved parsed new doc hresolve⟩

/-- What `verify_continuation` has compared when it accepts an update of a
readable stream. -/
theorem verifyContinuation_spec (hparse : L.didWebsParse did = .ok parsed)
    (hold : Readable L old parsed.aid) (h : verifyContinuation L did old new = .ok ()) :
    Readable L new parsed.aid ∧ ∀ before after,
      L.kelsKeyState old parsed.aid = .ok before → L.kelsKeyState new parsed.aid = .ok after →
        before.sn ≤ after.sn := by
  obtain ⟨hkels, before, hbefore⟩ := hold
  unfold verifyContinuation at h
  rw [hparse] at h
  simp only [hkels, hbefore, Bool.not_true, Bool.false_eq_true, if_false] at h
  split at h
  · contradiction
  · rename_i b hnew
    split at h
    · contradiction
    · rename_i after hafter
      split_ifs at h with hpre hsn
      refine ⟨⟨by rw [hnew]; rfl, after, hafter⟩, ?_⟩
      intro before' after' hbefore' hafter'
      rw [hbefore] at hbefore'
      rw [hafter] at hafter'
      cases hbefore'
      cases hafter'
      omega

/-- An accepted update of a readable stream extends it exactly if it does not
fork it. -/
theorem continuation_extends_iff (hK : Keri L log) (hparse : L.didWebsParse did = .ok parsed)
    (hold : Readable L old parsed.aid) (h : verifyContinuation L did old new = .ok ()) :
    digests log old parsed.aid <+: digests log new parsed.aid ↔
      Unforked log parsed.aid old new := by
  obtain ⟨⟨-, after, hafter⟩, hsn⟩ := verifyContinuation_spec hparse hold h
  obtain ⟨-, before, hbefore⟩ := hold
  have hle : before.sn ≤ after.sn := hsn before after hbefore hafter
  have hbeforeLength := hK.key_state _ _ _ hbefore
  have hafterLength := hK.key_state _ _ _ hafter
  have hmem : ∀ stream, ∀ e ∈ log stream parsed.aid, e ∈ {e | ∃ stream aid, e ∈ log stream aid} :=
    fun stream e he => ⟨stream, parsed.aid, he⟩
  have hlength : (log old parsed.aid).length ≤ (log new parsed.aid).length := by omega
  have hne : log old parsed.aid ≠ [] := by
    intro hnil
    rw [hnil, List.length_nil] at hbeforeLength
    omega
  have hiff := Linked.isPrefix_iff hK.said_injective (hK.linked old _) (hK.linked new _)
    (hmem old) (hmem new) hne hlength
  exact hiff.trans ⟨fun hagree _ => hagree, fun hunforked => hunforked hlength⟩

end

end DidHosting
