import DidHosting.Common.Servable

/-!
# The witness check of a publish

A publish is accepted when the whole chain verifies and the entries that were published
before are witnessed.  The stored proofs are counted for it up to the version of the last
of these entries only, so that a proof of a later version does not stand for them.
-/

namespace DidHosting

open Text

section

variable {L : Libs} {content : String} {witness : Option String} {previouslyPublished : ℕ}
  {states published : List (LogEntryState L)}

/-- The stored proofs of the versions up to `highest`. -/
def proofsThrough (L : Libs) (witness : Option String) (highest : ℕ) :
    Except String L.WitnessProofs := do
  let proofs ← publishProofs L witness
  mapErr "invalid witness proofs" (L.generateProofState proofs highest)

/-- Where a witness is active at any of the entries, all of them meet their thresholds with
the stored proofs of the versions up to the last one's. -/
def PublishedWitnessed (L : Libs) (witness : Option String)
    (published : List (LogEntryState L)) : Prop :=
  ∀ last, published.getLast? = some last → published.any (witnessedHere L) = true →
    ∃ proofs, proofsThrough L witness last.versionNumber = .ok proofs ∧
      MeetThresholds L proofs last.versionNumber published

/-- Entries with no active witness need no proofs. -/
theorem publishedWitnessed_of_not_any (h : published.any (witnessedHere L) = false) :
    PublishedWitnessed L witness published := by
  intro last _ hany
  rw [h] at hany
  cases hany

/-- The check of the entries that were published before. -/
theorem publishedWitnessed_iff {last : LogEntryState L} (hlast : published.getLast? = some last)
    (hany : published.any (witnessedHere L) = true) :
    PublishedWitnessed L witness published ↔
      (do
        let proofs ← publishProofs L witness
        let proofs ← mapErr "invalid witness proofs"
          (L.generateProofState proofs last.versionNumber)
        checkThresholds L proofs last.versionNumber published) = .ok () := by
  have hscoped : (do
        let proofs ← publishProofs L witness
        let proofs ← mapErr "invalid witness proofs"
          (L.generateProofState proofs last.versionNumber)
        checkThresholds L proofs last.versionNumber published) =
      proofsThrough L witness last.versionNumber >>= fun proofs =>
        checkThresholds L proofs last.versionNumber published := by
    unfold proofsThrough
    cases publishProofs L witness with
    | error e => rfl
    | ok proofs => rfl
  rw [hscoped]
  constructor
  · intro h
    obtain ⟨proofs, hproofs, hmeet⟩ := h last hlast hany
    rw [hproofs]
    exact checkThresholds_ok_iff.mpr hmeet
  · intro h last' hlast' _
    cases hlast.symm.trans hlast'
    obtain ⟨proofs, hproofs, hcheck⟩ := bind_eq_ok h
    exact ⟨proofs, hproofs, checkThresholds_ok_iff.mp hcheck⟩

theorem verifyDidLogForPublish_ok_iff :
    verifyDidLogForPublish L content witness previouslyPublished = .ok () ↔
      ∃ states, parseAndVerifyChain L content = .ok states ∧
        PublishedWitnessed L witness (states.take previouslyPublished) := by
  unfold verifyDidLogForPublish
  cases hchain : parseAndVerifyChain L content with
  | error e =>
      constructor
      · intro h
        cases h
      · rintro ⟨states, hstates, -⟩
        cases hstates
  | ok states =>
      have hone : (∃ states', Except.ok (ε := String) states = .ok states' ∧
          PublishedWitnessed L witness (states'.take previouslyPublished)) ↔
          PublishedWitnessed L witness (states.take previouslyPublished) := by
        constructor
        · rintro ⟨states', hstates, h⟩
          cases hstates
          exact h
        · exact fun h => ⟨states, rfl, h⟩
      rw [hone]
      simp only [bind, Except.bind]
      cases hlast : (states.take previouslyPublished).getLast? with
      | none =>
          refine ⟨fun _ last h => ?_, fun _ => rfl⟩
          rw [hlast] at h
          cases h
      | some last =>
          dsimp only
          cases hany : (states.take previouslyPublished).any (witnessedHere L) with
          | false => exact ⟨fun _ => publishedWitnessed_of_not_any hany, fun _ => rfl⟩
          | true =>
              rw [if_pos rfl]
              exact (publishedWitnessed_iff hlast hany).symm

/-- An accepted log has a chain that verifies, and each of its first `previouslyPublished`
entries with an active witness meets its threshold.  With fewer entries published before, it is
accepted exactly when these are witnessed. -/
theorem publish_verification_sound (L : Libs) (content : String) (witness : Option String)
    (previouslyPublished : ℕ)
    (h : verifyDidLogForPublish L content witness previouslyPublished = .ok ()) :
    ∃ states, parseAndVerifyChain L content = .ok states ∧
      (∀ i e, i < previouslyPublished → states[i]? = some e → witnessedHere L e = true →
        ∃ last proofs, (states.take previouslyPublished).getLast? = some last ∧
          proofsThrough L witness last.versionNumber = .ok proofs ∧
          L.validateLogEntry proofs e.logEntry e.validatedParameters last.versionNumber =
            .ok ()) ∧
      ∀ fewer, fewer < previouslyPublished →
        (verifyDidLogForPublish L content witness fewer = .ok () ↔
          PublishedWitnessed L witness (states.take fewer)) := by
  obtain ⟨states, hchain, hpublished⟩ := verifyDidLogForPublish_ok_iff.mp h
  refine ⟨states, hchain, ?_, ?_⟩
  · intro i e hi he hwitnessed
    have hmem : e ∈ states.take previouslyPublished := by
      apply List.mem_of_getElem? (i := i)
      rw [List.getElem?_take_of_lt hi]
      exact he
    have hlast := List.getLast?_eq_some_getLast (List.ne_nil_of_mem hmem)
    obtain ⟨proofs, hproofs, hmeet⟩ :=
      hpublished _ hlast (List.any_eq_true.mpr ⟨e, hmem, hwitnessed⟩)
    exact ⟨_, proofs, hlast, hproofs, hmeet e hmem⟩
  · intro fewer _
    rw [verifyDidLogForPublish_ok_iff]
    constructor
    · rintro ⟨states', hstates', hfewer⟩
      cases hchain.symm.trans hstates'
      exact hfewer
    · exact fun hfewer => ⟨states, hchain, hfewer⟩

end

/-! ## A proof of the latest version -/

namespace PublishSample

open Reference ServableSample

/-- The number of a version a witness file lists. -/
def idNumber (id : String) : ℕ :=
  digitsValue (id.toList.takeWhile Char.isDigit)

/-- A proof of a version stands for the versions before it, too. -/
def checkCovered (proofs : List String) (e : Json) : Except String Unit :=
  match versionNumber e with
  | .error err => .error err
  | .ok n =>
      if proofs.any fun id => decide (n ≤ idNumber id) then .ok ()
      else .error "witness threshold not met"

/-- The libraries for logs with one witness throughout, whose proofs count up to a
version. -/
abbrev coverLibs : Libs :=
  { witnessLibs.toLibs with
    generateProofState := fun proofs highest =>
      .ok (proofs.filter fun id => decide (idNumber id ≤ highest))
    validateLogEntry := fun proofs e _ _ => checkCovered proofs e }

/-- A witness file that proves the second version. -/
def latestWitness : Option String := some "2-b"

def latestStates : List (LogEntryState coverLibs) :=
  [⟨al1, 1, .obj []⟩, ⟨al2, 2, .obj []⟩]

theorem cover_extractDidId (text : String) :
    extractDidId coverLibs text = extractDidId libs text :=
  rfl

theorem latest_valid : validateDidJsonl coverLibs content = .ok () := by
  have h : validateDidJsonl libs content = .ok () := validLog_al2.validateDidJsonl_eq
  rw [validateDidJsonl_ok_iff] at h
  rw [validateDidJsonl_ok_iff, cover_extractDidId]
  exact h

theorem cover_deserializeString {e : Json} (h : WellFormed e) (version : Option Unit) :
    coverLibs.deserializeString (print e) version = .ok e :=
  h.parse_print

theorem latest_reads :
    ReadsAs coverLibs none [print al1, print al2] [(al1, 1), (al2, 2)] :=
  ⟨cover_deserializeString wellFormed_al1 none, numbers.1,
    cover_deserializeString wellFormed_al2 (some ()), numbers.2, trivial⟩

theorem latest_chain : parseAndVerifyChain coverLibs content = .ok latestStates := by
  have hlines : trimmedLines content = [print al1, print al2] :=
    logEntries_logOf validLog_al2.wellFormed
  rw [parseAndVerifyChain_ok_iff, hlines]
  exact ⟨latest_valid, ⟨links.1, links.2, trivial⟩, latest_reads⟩

theorem covered : checkCovered ["2-b"] al1 = .ok () ∧ checkCovered ["2-b"] al2 = .ok () ∧
    checkCovered [] al1 = .error "witness threshold not met" := by
  decide +kernel

/-- The witness file lists one proof, which counts from the second version on. -/
theorem listed : (split ',' "2-b" = ["2-b"] ∧ presentWitness latestWitness = some "2-b") ∧
    (["2-b"].filter fun id => decide (idNumber id ≤ 2)) = ["2-b"] ∧
    (["2-b"].filter fun id => decide (idNumber id ≤ 1)) = [] := by
  decide +kernel

theorem latest_proofs (highest : ℕ) : proofsThrough coverLibs latestWitness highest =
    .ok (["2-b"].filter fun id => decide (idNumber id ≤ highest)) := by
  obtain ⟨hsplit, hpresent⟩ := listed.1
  unfold proofsThrough publishProofs
  rw [hpresent]
  change Except.ok ((split ',' "2-b").filter _) = _
  rw [hsplit]

theorem latest_accepted : verifyDidLogForPublish coverLibs content latestWitness 2 = .ok () := by
  rw [verifyDidLogForPublish_ok_iff]
  refine ⟨latestStates, latest_chain, fun last hlast _ => ?_⟩
  cases hlast
  refine ⟨["2-b"], ?_, ?_⟩
  · rw [latest_proofs]
    exact congrArg Except.ok listed.2.1
  · change ∀ e ∈ [_, _], _
    rw [List.forall_mem_cons, List.forall_mem_singleton]
    exact ⟨covered.1, covered.2.1⟩

end PublishSample

open PublishSample ServableSample in
theorem publish_verification_sound_latest :
    ∃ states, parseAndVerifyChain coverLibs content = .ok states ∧
      (∀ i e, i < 2 → states[i]? = some e → witnessedHere coverLibs e = true →
        ∃ last proofs, (states.take 2).getLast? = some last ∧
          proofsThrough coverLibs latestWitness last.versionNumber = .ok proofs ∧
          coverLibs.validateLogEntry proofs e.logEntry e.validatedParameters
            last.versionNumber = .ok ()) ∧
      ∀ fewer, fewer < 2 →
        (verifyDidLogForPublish coverLibs content latestWitness fewer = .ok () ↔
          PublishedWitnessed coverLibs latestWitness (states.take fewer)) :=
  publish_verification_sound coverLibs content latestWitness 2 latest_accepted

open PublishSample ServableSample in
/-- The proof of the second version stands for both entries, but is not counted when only
the first one was published before. -/
theorem publish_verification_not_monotone :
    verifyDidLogForPublish coverLibs content latestWitness 2 = .ok () ∧
      verifyDidLogForPublish coverLibs content latestWitness 1 ≠ .ok () := by
  refine ⟨latest_accepted, fun h => ?_⟩
  obtain ⟨states, hchain, hpublished⟩ := verifyDidLogForPublish_ok_iff.mp h
  cases latest_chain.symm.trans hchain
  obtain ⟨proofs, hproofs, hmeet⟩ := hpublished _ rfl rfl
  rw [latest_proofs] at hproofs
  have hnone : (["2-b"].filter fun id => decide (idNumber id ≤ 1)) = [] := listed.2.2
  change Except.ok (["2-b"].filter fun id => decide (idNumber id ≤ 1)) = _ at hproofs
  rw [hnone] at hproofs
  cases hproofs
  have hfirst : checkCovered [] Reference.al1 = .ok () := hmeet _ List.mem_cons_self
  rw [covered.2.2] at hfirst
  cases hfirst

end DidHosting
