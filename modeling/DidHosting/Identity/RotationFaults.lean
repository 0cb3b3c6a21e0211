import DidHosting.Identity.RotateKeys

/-!
# Rotations that fail

A rotation replaces the secrets first and writes the log last.  The service decrypts with its
own key-agreement key, and the next rotation signs with its own signing key; the retired keys
are held besides.  Stopped between the two writes, a rotation leaves a log with other keys than
the service's own, and without a grace period the old keys are gone.  One that succeeds does not
touch the hosted record of its log.
-/

namespace DidHosting

namespace KeyRotation

open Text Identity

/-! ## What a rotation is to keep -/

section

variable (L : RotateLibs)

/-- The public halves of stored private keys. -/
def publics (keys : List String) : List String :=
  keys.filterMap (publicHalf L)

/-- The keys of one kind in the secret store: the service's own, or with the retired ones. -/
def storeKeys (own : ServerSecrets → String) (old : RetiredKeys → String) (withRetired : Bool)
    (secrets : ServerSecrets) : List String :=
  own secrets :: if withRetired then secrets.retired.map old else []

def kaKeys : Bool → ServerSecrets → List String :=
  storeKeys (fun secrets => secrets.keyAgreementKey) fun old => old.keyAgreementKey

def signingKeys : Bool → ServerSecrets → List String :=
  storeKeys (fun secrets => secrets.signingKey) fun old => old.signingKey

/-- The document has the public key under its key-agreement kid. -/
def Advertises (doc : DidDocument) (multibase : String) : Prop :=
  ∃ kid, firstKid doc "keyAgreement" = some kid ∧ ∃ method ∈ methodsOf doc,
    methodId method = some kid ∧
      (method.get "publicKeyMultibase").bind Json.asStr = some multibase

/-- One of the key-agreement keys is that of the document, and one of the signing keys is an
update key. -/
structure Match (ka signing : List String) (tip : DidDocument × List String) : Prop where
  ka : ∃ m ∈ ka, Advertises tip.1 m
  update : ∃ m ∈ signing, m ∈ tip.2

/-- The tip of the stored log of a DID. -/
def storedTip (did : String) (s : RotateStore) : Option (DidDocument × List String) :=
  (mnemonicFromDid did).bind fun mnemonic =>
    (s.dids.contentLog.lookup mnemonic).bind (logTip L)

/-- The secret store has the private keys of the log as stored: among the service's own keys,
with which it decrypts and signs, or among all it has. -/
def HasKeys (withRetired : Bool) (did : String) (s : RotateStore) : Prop :=
  ∃ secrets tip, s.secrets = some secrets ∧ storedTip L did s = some tip ∧
    Match (publics L (kaKeys withRetired secrets)) (publics L (signingKeys withRetired secrets))
      tip

variable (r : Rotation) (fault : ℕ → Option RotateError) (s : RotateStore)

/-- The stored log is the old one and an entry that verifies, and the record of the slot
describes it. -/
def Published (t : RotateStore) : Prop :=
  ∃ mnemonic old new line, mnemonicFromDid r.serverDid = some mnemonic ∧
    s.dids.contentLog.lookup mnemonic = some old ∧
      t.dids.contentLog.lookup mnemonic = some new ∧
        trimmedLines new = trimmedLines old ++ [line] ∧
          (∃ witnessed, verifyDidLogChain L.toLibs new none = .ok witnessed) ∧
            ∀ record, t.dids.dids.lookup mnemonic = some record →
              record.versionCount = entryCount new ∧ record.contentSize = new.utf8ByteSize

/-- A rotation that fails, wherever it stops, leaves keys that were there there, and one that
succeeds has published its log. -/
structure Survives : Prop where
  usable : ∀ e, (rotation L r fault s).1 = .error e →
    HasKeys L false r.serverDid s → HasKeys L false r.serverDid (rotation L r fault s).2.1
  held : ∀ e, (rotation L r fault s).1 = .error e →
    HasKeys L true r.serverDid s → HasKeys L true r.serverDid (rotation L r fault s).2.1
  published : ∀ report, (rotation L r fault s).1 = .ok report →
    Published L r s (rotation L r fault s).2.1

/-! ## When it does -/

/-- The keys of one kind that the first write leaves in the secret store. -/
def leftKeys (rotates : Bool) (own : ServerSecrets → String) (old : RetiredKeys → String)
    (withRetired : Bool) (doc : DidDocument) (secrets : ServerSecrets) : List String :=
  (if rotates then [] else [own secrets]) ++
    if withRetired then
      (retiredKeys r.graceSecs ((firstKid doc "keyAgreement").getD "")
        ((firstKid doc "authentication").getD "") secrets).map old
    else []

def leftKa : Bool → DidDocument → ServerSecrets → List String :=
  leftKeys r r.which.rotatesKa (fun secrets => secrets.keyAgreementKey) fun old =>
    old.keyAgreementKey

def leftSigning : Bool → DidDocument → ServerSecrets → List String :=
  leftKeys r r.which.rotatesSigning (fun secrets => secrets.signingKey) fun old => old.signingKey

/-- Stopped between the first write and the last, the keys that are left or new are those of
the old log. -/
def LeavesOld (withRetired : Bool) (tip : DidDocument × List String) (secrets : ServerSecrets) :
    Prop :=
  Match (publics L (leftKa r withRetired tip.1 secrets) ++ (newKaPublic L r).toList)
    (publics L (leftSigning r withRetired tip.1 secrets) ++ (newSigningPublic L r).toList) tip

/-- Stopped behind the last write, a key that is not rotated is left. -/
def LeavesNew (withRetired : Bool) (tip : DidDocument × List String) (secrets : ServerSecrets) :
    Prop :=
  (r.which.rotatesKa = true ∨
    ∃ m ∈ publics L (leftKa r withRetired tip.1 secrets), Advertises (rotatedDoc L r tip.1) m) ∧
  (r.which.rotatesSigning = true ∨
    ∃ m ∈ publics L (leftSigning r withRetired tip.1 secrets), m ∈ tip.2)

structure SurvivesWhen : Prop where
  usable : ∀ secrets tip, s.secrets = some secrets → storedTip L r.serverDid s = some tip →
    Match (publics L (kaKeys false secrets)) (publics L (signingKeys false secrets)) tip →
      WritesSecrets L r fault s → ¬ GoesOn r fault s →
        (r.which.rotatesKa = true → ∃ m, newKaPublic L r = some m ∧ Advertises tip.1 m) ∧
          (r.which.rotatesSigning = true → ∃ m, newSigningPublic L r = some m ∧ m ∈ tip.2)
  held : ∀ secrets tip, s.secrets = some secrets → storedTip L r.serverDid s = some tip →
    Match (publics L (kaKeys true secrets)) (publics L (signingKeys true secrets)) tip →
      WritesSecrets L r fault s →
        (¬ GoesOn r fault s → LeavesOld L r true tip secrets) ∧
          (GoesOn r fault s → fault 7 ≠ none → LeavesNew L r true tip secrets)
  published : ∀ mnemonic secrets content p record, Ready L r s mnemonic secrets content p →
    WritesSecrets L r fault s → GoesOn r fault s → fault 7 = none →
      s.dids.dids.lookup mnemonic = some record →
        record.versionCount = entryCount content + 1 ∧
          record.contentSize = p.newLog.utf8ByteSize

end

/-! ## The keys behind a write -/

section

variable {L : RotateLibs} {r : Rotation} {fault : ℕ → Option RotateError} {s : RotateStore}
  {mnemonic : String} {secrets : ServerSecrets} {content : String} {p : Prepared}
  {tip : DidDocument × List String} {m : String} {withRetired : Bool}

theorem Match.congr {ka ka' signing signing' : List String} (hka : ∀ m, m ∈ ka ↔ m ∈ ka')
    (hsigning : ∀ m, m ∈ signing ↔ m ∈ signing') :
    Match ka signing tip ↔ Match ka' signing' tip := by
  constructor
  · rintro ⟨⟨m, hm, hadvertises⟩, n, hn, hupdate⟩
    exact ⟨⟨m, (hka m).mp hm, hadvertises⟩, n, (hsigning n).mp hn, hupdate⟩
  · rintro ⟨⟨m, hm, hadvertises⟩, n, hn, hupdate⟩
    exact ⟨⟨m, (hka m).mpr hm, hadvertises⟩, n, (hsigning n).mpr hn, hupdate⟩

theorem Prepares.retired_eq (h : Prepares L r content p tip) :
    (replaced r secrets p).retired = retiredKeys r.graceSecs
      ((firstKid tip.1 "keyAgreement").getD "") ((firstKid tip.1 "authentication").getD "")
        secrets := by
  rw [h.kaKid, ← h.signingKid]
  rfl

/-- The public halves in the secret store behind the first write. -/
theorem Prepares.mem_publics (h : Prepares L r content p tip) {rotates : Bool}
    {own : ServerSecrets → String} {old : RetiredKeys → String} {stored new : Option String}
    (hown : own (replaced r secrets p) = stored.getD (own secrets))
    (hstored : stored.isSome = rotates) (hpublic : stored.bind (publicHalf L) = new) :
    m ∈ publics L (storeKeys own old withRetired (replaced r secrets p)) ↔
      m ∈ publics L (leftKeys r rotates own old withRetired tip.1 secrets) ++ new.toList := by
  rw [storeKeys, leftKeys, hown, h.retired_eq, ← hstored, ← hpublic]
  cases stored with
  | none => simp [publics]
  | some text => simp [publics, or_comm]

/-- Whether the keys behind the first write are those of a log, from what is left and new. -/
theorem Prepares.match_iff (h : Prepares L r content p tip) (other : DidDocument × List String) :
    Match (publics L (kaKeys withRetired (replaced r secrets p)))
        (publics L (signingKeys withRetired (replaced r secrets p))) other ↔
      Match (publics L (leftKa r withRetired tip.1 secrets) ++ (newKaPublic L r).toList)
        (publics L (leftSigning r withRetired tip.1 secrets) ++ (newSigningPublic L r).toList)
          other :=
  Match.congr (fun _ => h.mem_publics rfl h.kaStored h.kaPublic)
    fun _ => h.mem_publics rfl h.signingStored h.signingPublic

/-! ## The rotated document -/

theorem hasMethods_of_advertises {doc : DidDocument} (h : Advertises doc m) : HasMethods doc := by
  obtain ⟨-, -, method, hmethod, -⟩ := h
  exact hasMethods_of_mem hmethod

theorem mem_kidsOf_of_firstKid {doc : DidDocument} {rel kid : String}
    (h : firstKid doc rel = some kid) : kid ∈ kidsOf doc rel := by
  unfold firstKid at h
  unfold kidsOf
  cases hrefs : (member doc rel).bind Json.asArray with
  | none =>
      rw [hrefs] at h
      cases h
  | some refs =>
      rw [hrefs] at h
      cases refs with
      | nil => cases h
      | cons first rest => exact List.mem_filterMap.mpr ⟨first, List.mem_cons_self, h⟩

theorem advertises_new {doc : DidDocument} (hwhich : r.which.rotatesKa = true)
    (hmethods : HasMethods doc) (hnew : newKaPublic L r = some m) :
    Advertises (rotatedDoc L r doc) m := by
  let didId := ((member doc "id").bind Json.asStr).getD ""
  have hdoc : rotatedDoc L r doc =
      rotateDocument r.which didId m ((newSigningPublic L r).getD "") doc := by
    rw [rotatedDoc, hnew]
    rfl
  have hinstalled : newMethod didId m ∈
      installed r.which didId m ((newSigningPublic L r).getD "") := by
    rw [installed, hwhich]
    exact List.mem_cons_self
  rw [hdoc]
  refine ⟨newKid didId m, ?_, newMethod didId m,
    mem_rotateDocument.mpr ⟨hmethods, .inl hinstalled⟩, rfl, rfl⟩
  rw [firstKid, keyAgreement_rotateDocument hwhich]
  rfl

/-- A key-agreement key that is not rotated stays advertised. -/
theorem advertises_kept {doc : DidDocument} (hwhich : r.which.rotatesKa = false)
    (h : Advertises doc m) : Advertises (rotatedDoc L r doc) m := by
  obtain ⟨kid, hkid, method, hmethod, hid, hpublic⟩ := h
  have hmember : member (rotatedDoc L r doc) "keyAgreement" = member doc "keyAgreement" := by
    refine member_rotateDocument (by decide) ?_
    simp [RotateKeys.rotates, hwhich]
  have hnamed : kid ∈ kidsOf doc "keyAgreement" := mem_kidsOf_of_firstKid hkid
  refine ⟨kid, ?_, method, mem_rotateDocument.mpr ⟨hasMethods_of_mem hmethod, .inr ⟨hmethod, ?_⟩⟩,
    hid, hpublic⟩
  · rw [firstKid, hmember]
    exact hkid
  · rw [hid]
    simp [removes, hwhich, hnamed]

end

/-! ## Where a run stops -/

section

variable {L : RotateLibs} {r : Rotation} {fault : ℕ → Option RotateError} {s t : RotateStore}
  {mnemonic : String} {secrets : ServerSecrets} {content : String} {p : Prepared}
  {tip : DidDocument × List String} {withRetired : Bool}

theorem Ready.storedTip_eq (h : Ready L r s mnemonic secrets content p)
    (hp : Prepares L r content p tip) : storedTip L r.serverDid s = some tip := by
  rw [storedTip, h.mnemonic_eq, Option.bind_some, h.content_eq, Option.bind_some, hp.tip_eq]

theorem Ready.storedTip_published (h : Ready L r s mnemonic secrets content p)
    (hp : Prepares L r content p tip)
    (hdids : t.dids = { s.dids with contentLog := s.dids.contentLog.insert mnemonic p.newLog }) :
    storedTip L r.serverDid t = some (rotatedTip L r tip) := by
  rw [storedTip, h.mnemonic_eq, Option.bind_some, hdids, AList.lookup_insert, Option.bind_some,
    hp.newTip]

theorem hasKeys_iff (withRetired : Bool) {did : String}
    (hsecrets : t.secrets = some secrets)
    (htip : storedTip L did t = some tip) :
    HasKeys L withRetired did t ↔ Match (publics L (kaKeys withRetired secrets))
      (publics L (signingKeys withRetired secrets)) tip := by
  constructor
  · rintro ⟨secrets', tip', hsecrets', htip', h⟩
    obtain rfl := Option.some.inj (hsecrets.symm.trans hsecrets')
    obtain rfl := Option.some.inj (htip.symm.trans htip')
    exact h
  · intro h
    exact ⟨secrets, tip, hsecrets, htip, h⟩

/-- Whether the keys that are left or new are those of the new log. -/
theorem Prepares.matches_new (h : Prepares L r content p tip) (hmethods : HasMethods tip.1) :
    Match (publics L (leftKa r withRetired tip.1 secrets) ++ (newKaPublic L r).toList)
        (publics L (leftSigning r withRetired tip.1 secrets) ++ (newSigningPublic L r).toList)
          (rotatedTip L r tip) ↔
      LeavesNew L r withRetired tip secrets := by
  have hka := h.kaKnown
  have hsigning := h.signingKnown
  constructor
  · rintro ⟨⟨m, hm, hadvertises⟩, n, hn, hupdate⟩
    constructor
    · rcases List.mem_append.mp hm with hleft | hnew
      · exact .inr ⟨m, hleft, hadvertises⟩
      · rw [Option.mem_toList.mp hnew] at hka
        exact .inl hka.symm
    · rcases List.mem_append.mp hn with hleft | hnew
      · cases hpublic : newSigningPublic L r with
        | some k =>
            rw [hpublic] at hsigning
            exact .inl hsigning.symm
        | none =>
            rw [rotatedTip, hpublic] at hupdate
            exact .inr ⟨n, hleft, hupdate⟩
      · rw [Option.mem_toList.mp hnew] at hsigning
        exact .inl hsigning.symm
  · rintro ⟨hkeepsKa, hkeepsSigning⟩
    constructor
    · rcases hkeepsKa with hwhich | ⟨m, hleft, hadvertises⟩
      · rw [hwhich] at hka
        obtain ⟨m, hnew⟩ := Option.isSome_iff_exists.mp hka
        refine ⟨m, List.mem_append_right _ (Option.mem_toList.mpr hnew), ?_⟩
        exact advertises_new hwhich hmethods hnew
      · exact ⟨m, List.mem_append_left _ hleft, hadvertises⟩
    · rcases hkeepsSigning with hwhich | ⟨m, hleft, hupdate⟩
      · rw [hwhich] at hsigning
        obtain ⟨m, hnew⟩ := Option.isSome_iff_exists.mp hsigning
        refine ⟨m, List.mem_append_right _ (Option.mem_toList.mpr hnew), ?_⟩
        rw [rotatedTip, hnew]
        exact List.mem_singleton_self m
      · cases hpublic : newSigningPublic L r with
        | some k =>
            refine ⟨k, List.mem_append_right _ (Option.mem_toList.mpr rfl), ?_⟩
            rw [rotatedTip, hpublic]
            exact List.mem_singleton_self k
        | none =>
            refine ⟨m, List.mem_append_left _ hleft, ?_⟩
            rw [rotatedTip, hpublic]
            exact hupdate

/-- A failing run keeps keys of the log, according to where it stops. -/
theorem keeps_iff (hL : Documented L) (r : Rotation) (fault : ℕ → Option RotateError)
    (s : RotateStore) (withRetired : Bool) :
    (∀ e, (rotation L r fault s).1 = .error e → HasKeys L withRetired r.serverDid s →
        HasKeys L withRetired r.serverDid (rotation L r fault s).2.1) ↔
      ∀ secrets tip, s.secrets = some secrets → storedTip L r.serverDid s = some tip →
        Match (publics L (kaKeys withRetired secrets)) (publics L (signingKeys withRetired secrets))
            tip →
          WritesSecrets L r fault s →
            (¬ GoesOn r fault s → LeavesOld L r withRetired tip secrets) ∧
              (GoesOn r fault s → fault 7 ≠ none → LeavesNew L r withRetired tip secrets) := by
  rcases rotation_cases L r fault s with
    ⟨hearly, hstore, -⟩ | ⟨mnemonic, secrets, content, p, hwrites, hready, hsecrets, hrest⟩
  · constructor
    · intro _ secrets tip _ _ _ hwrites
      exact absurd hwrites hearly
    · intro _ e _ hkeys
      rw [hstore]
      exact hkeys
  · obtain ⟨tip, hp⟩ := prepare_ok hL hready.prepared
    have htip := hready.storedTip_eq hp
    have hbefore : HasKeys L withRetired r.serverDid s ↔ Match
        (publics L (kaKeys withRetired secrets)) (publics L (signingKeys withRetired secrets)) tip :=
      hasKeys_iff withRetired hready.secrets_eq htip
    -- the condition is about the secrets and the tip that the checks have read
    have hread : ∀ secrets' tip', s.secrets = some secrets' →
        storedTip L r.serverDid s = some tip' → secrets' = secrets ∧ tip' = tip :=
      fun secrets' tip' hsecrets' htip' =>
        ⟨Option.some.inj (hsecrets'.symm.trans hready.secrets_eq),
          Option.some.inj (htip'.symm.trans htip)⟩
    rcases hrest with ⟨hstops, hdids, e, herror⟩ |
      ⟨hgoes, hdids, ⟨hfault7, report, hok⟩ | ⟨hfault7, e, herror⟩⟩
    · have hsame : storedTip L r.serverDid (rotation L r fault s).2.1 = some tip := by
        rw [← htip, storedTip, hdids]
        rfl
      have hafter := (hasKeys_iff withRetired hsecrets hsame).trans
        (hp.match_iff tip)
      constructor
      · intro h secrets' tip' hsecrets' htip' hmatch _
        obtain ⟨rfl, rfl⟩ := hread secrets' tip' hsecrets' htip'
        exact ⟨fun _ => hafter.mp (h e herror (hbefore.mpr hmatch)),
          fun hgoes => absurd hgoes hstops⟩
      · intro h _ _ hkeys
        exact hafter.mpr
          ((h secrets tip hready.secrets_eq htip (hbefore.mp hkeys) hwrites).1 hstops)
    · constructor
      · intro _ secrets' tip' _ _ _ _
        exact ⟨fun hstops => absurd hgoes hstops, fun _ hfault => absurd hfault7 hfault⟩
      · intro _ e herror _
        exact absurd (hok.symm.trans herror) (by simp)
    · have hnew := hready.storedTip_published hp hdids
      have hafter := (hasKeys_iff withRetired hsecrets hnew).trans
        (hp.match_iff (rotatedTip L r tip))
      constructor
      · intro h secrets' tip' hsecrets' htip' hmatch _
        obtain ⟨rfl, rfl⟩ := hread secrets' tip' hsecrets' htip'
        obtain ⟨m, -, hadvertises⟩ := hmatch.ka
        have hleaves := hafter.mp (h e herror (hbefore.mpr hmatch))
        exact ⟨fun hstops => absurd hgoes hstops, fun _ _ =>
          (hp.matches_new (hasMethods_of_advertises hadvertises)).mp hleaves⟩
      · intro h _ _ hkeys
        have hmatch := hbefore.mp hkeys
        obtain ⟨m, -, hadvertises⟩ := hmatch.ka
        refine hafter.mpr ((hp.matches_new (hasMethods_of_advertises hadvertises)).mpr ?_)
        exact (h secrets tip hready.secrets_eq htip hmatch hwrites).2 hgoes hfault7

/-- A key of the service's own that is rotated goes with the first write. -/
theorem left_own (rotates : Bool) {own : ServerSecrets → String} {old : RetiredKeys → String}
    (new : Option String) (doc : DidDocument) {P : String → Prop}
    (hbefore : ∃ m ∈ publics L (storeKeys own old false secrets), P m) :
    (∃ m ∈ publics L (leftKeys r rotates own old false doc secrets) ++ new.toList, P m) ↔
      (rotates = true → ∃ m, new = some m ∧ P m) := by
  cases rotates with
  | true =>
      have hleft : publics L (leftKeys r true own old false doc secrets) = [] := rfl
      rw [hleft, List.nil_append]
      simp
  | false =>
      have hleft : leftKeys r false own old false doc secrets = storeKeys own old false secrets :=
        rfl
      rw [hleft]
      refine iff_of_true ?_ (by simp)
      obtain ⟨m, hm, hP⟩ := hbefore
      exact ⟨m, List.mem_append_left _ hm, hP⟩

theorem leavesOld_own (hmatch : Match (publics L (kaKeys false secrets))
    (publics L (signingKeys false secrets)) tip) : LeavesOld L r false tip secrets ↔
      (r.which.rotatesKa = true → ∃ m, newKaPublic L r = some m ∧ Advertises tip.1 m) ∧
        (r.which.rotatesSigning = true → ∃ m, newSigningPublic L r = some m ∧ m ∈ tip.2) := by
  have hka := left_own (r := r) r.which.rotatesKa (newKaPublic L r) tip.1 hmatch.ka
  have hsigning :=
    left_own (r := r) r.which.rotatesSigning (newSigningPublic L r) tip.1 hmatch.update
  rw [← hka, ← hsigning]
  exact ⟨fun h => ⟨h.ka, h.update⟩, fun h => ⟨h.1, h.2⟩⟩

/-- The service's own keys are those of the log behind the last write. -/
theorem leavesNew_own (hmatch : Match (publics L (kaKeys false secrets))
    (publics L (signingKeys false secrets)) tip) : LeavesNew L r false tip secrets := by
  obtain ⟨⟨m, hm, hadvertises⟩, n, hn, hupdate⟩ := hmatch
  constructor
  · cases hwhich : r.which.rotatesKa with
    | true => exact .inl rfl
    | false =>
        refine .inr ⟨m, ?_, advertises_kept hwhich hadvertises⟩
        simpa [leftKa, leftKeys, hwhich, kaKeys, storeKeys] using hm
  · cases hwhich : r.which.rotatesSigning with
    | true => exact .inl rfl
    | false =>
        refine .inr ⟨n, ?_, hupdate⟩
        simpa [leftSigning, leftKeys, hwhich, signingKeys, storeKeys] using hn

theorem Ready.unique {mnemonic' content' : String} {secrets' : ServerSecrets} {p' : Prepared}
    (h : Ready L r s mnemonic secrets content p)
    (h' : Ready L r s mnemonic' secrets' content' p') :
    mnemonic' = mnemonic ∧ content' = content ∧ p' = p := by
  obtain ⟨hmnemonic, hsecrets, hcontent, hprepared⟩ := h
  obtain rfl := Option.some.inj (hmnemonic.symm.trans h'.mnemonic_eq)
  obtain rfl := Option.some.inj (hsecrets.symm.trans h'.secrets_eq)
  obtain rfl := Option.some.inj (hcontent.symm.trans h'.content_eq)
  exact ⟨rfl, rfl, Except.ok.inj (h'.prepared.symm.trans hprepared)⟩

theorem published_of_written (hp : Prepares L r content p tip)
    (h : Ready L r s mnemonic secrets content p)
    (hdids : t.dids = { s.dids with contentLog := s.dids.contentLog.insert mnemonic p.newLog }) :
    Published L r s t ↔ ∀ record, s.dids.dids.lookup mnemonic = some record →
      record.versionCount = entryCount content + 1 ∧
        record.contentSize = p.newLog.utf8ByteSize := by
  obtain ⟨line, hlines⟩ := hp.appended
  have hcount : entryCount p.newLog = entryCount content + 1 := by
    rw [entryCount_eq_length, hlines, List.length_append, entryCount_eq_length]
    rfl
  have hnew : t.dids.contentLog.lookup mnemonic = some p.newLog := by
    rw [hdids]
    exact AList.lookup_insert _
  have hrecords : t.dids.dids = s.dids.dids := by rw [hdids]
  constructor
  · rintro ⟨mnemonic', old, new, -, hmnemonic, -, hlog, -, -, hrecord⟩ record hrow
    obtain rfl := Option.some.inj (h.mnemonic_eq.symm.trans hmnemonic)
    obtain rfl := Option.some.inj (hnew.symm.trans hlog)
    rw [← hcount]
    exact hrecord record (hrecords ▸ hrow)
  · intro hrecord
    refine ⟨mnemonic, content, p.newLog, line, h.mnemonic_eq, h.content_eq, hnew, hlines,
      hp.verifies, fun record hrow => ?_⟩
    rw [hcount]
    exact hrecord record (hrecords ▸ hrow)

/-- A run that succeeds has appended an entry that verifies, and left the record. -/
theorem published_iff (hL : Documented L) :
    (∀ report, (rotation L r fault s).1 = .ok report →
        Published L r s (rotation L r fault s).2.1) ↔
      ∀ mnemonic secrets content p record, Ready L r s mnemonic secrets content p →
        WritesSecrets L r fault s → GoesOn r fault s → fault 7 = none →
          s.dids.dids.lookup mnemonic = some record →
            record.versionCount = entryCount content + 1 ∧
              record.contentSize = p.newLog.utf8ByteSize := by
  have hfails : (∃ e, (rotation L r fault s).1 = .error e) → ∀ report,
      (rotation L r fault s).1 = .ok report → Published L r s (rotation L r fault s).2.1 := by
    rintro ⟨e, herror⟩ report hok
    exact absurd (herror.symm.trans hok) (by simp)
  rcases rotation_cases L r fault s with
    ⟨hearly, -, herror⟩ | ⟨mnemonic, secrets, content, p, hwrites, hready, -, hrest⟩
  · refine iff_of_true (hfails herror) ?_
    intro _ _ _ _ _ _ hwrites
    exact absurd hwrites hearly
  · rcases hrest with ⟨hstops, -, herror⟩ |
      ⟨hgoes, hdids, ⟨hfault7, report, hok⟩ | ⟨hfault7, herror⟩⟩
    · refine iff_of_true (hfails herror) ?_
      intro _ _ _ _ _ _ _ hgoes
      exact absurd hgoes hstops
    · obtain ⟨tip, hp⟩ := prepare_ok hL hready.prepared
      have hpublished := published_of_written hp hready hdids
      constructor
      · intro h mnemonic' secrets' content' p' record hready' _ _ _ hrow
        obtain ⟨rfl, rfl, rfl⟩ := hready.unique hready'
        exact hpublished.mp (h report hok) record hrow
      · intro h _ _
        exact hpublished.mpr fun record hrow =>
          h mnemonic secrets content p record hready hwrites hgoes hfault7 hrow
    · refine iff_of_true (hfails herror) ?_
      intro _ _ _ _ _ _ _ _ hfault
      exact absurd hfault hfault7

end

end KeyRotation

open KeyRotation

/-- What a rotation keeps when it fails, and publishes when it does not: exactly when it does
not stop behind its first write with other keys than those of the log, and no record of the
slot is left behind. -/
theorem rotation_survives_iff (L : RotateLibs) (hL : Documented L) (r : Rotation)
    (fault : ℕ → Option RotateError) (s : RotateStore) :
    Survives L r fault s ↔ SurvivesWhen L r fault s := by
  have hown := keeps_iff hL r fault s false
  have hall := keeps_iff hL r fault s true
  constructor
  · rintro ⟨husable, hheld, hpublished⟩
    refine ⟨?_, hall.mp hheld, (published_iff hL).mp hpublished⟩
    intro secrets tip hsecrets htip hmatch hwrites hstops
    have hleaves := (hown.mp husable secrets tip hsecrets htip hmatch hwrites).1 hstops
    exact (leavesOld_own hmatch).mp hleaves
  · rintro ⟨husable, hheld, hpublished⟩
    refine ⟨hown.mpr ?_, hall.mpr hheld, (published_iff hL).mpr hpublished⟩
    intro secrets tip hsecrets htip hmatch hwrites
    refine ⟨fun hstops => (leavesOld_own hmatch).mpr ?_, fun _ _ => leavesNew_own hmatch⟩
    exact husable secrets tip hsecrets htip hmatch hwrites hstops

/-! ## A rotation without a grace period -/

namespace RotationSample

open KeyRotation Identity Text

/-- The entries of the log, before and behind a rotation of the key-agreement key. -/
inductive Entry where
  | genesis
  | rotated
deriving DecidableEq

def did : String := "did:webvh:s:h.io"

def genesisDoc : DidDocument :=
  [("id", .str did), ("keyAgreement", .arr [.str "did:webvh:s:h.io#key-1"]),
    ("verificationMethod", .arr [.obj [("id", .str "did:webvh:s:h.io#key-1"),
      ("publicKeyMultibase", .str "z6old")]])]

def rotatedDoc : DidDocument :=
  (rotateKeyAgreement genesisDoc did "z6new").1

/-- The strings of a document of the shape the rotated one has. -/
def strings : DidDocument → Option (List String)
  | [(a, .str b), (c, .arr [.str d]),
      (e, .arr [.obj [(f, .str g), (h, .str i), (j, .str k), (l, .str m)]])] =>
      some [a, b, c, d, e, f, g, h, i, j, k, l, m]
  | _ => none

theorem eq_of_strings {doc : DidDocument} (h : strings doc = strings rotatedDoc) :
    doc = rotatedDoc := by
  have hrotated : strings rotatedDoc = some ["id", did, "keyAgreement", newKid did "z6new",
    "verificationMethod", "id", newKid did "z6new", "type", "Multikey", "controller", did,
    "publicKeyMultibase", "z6new"] := by
    decide +kernel
  rw [hrotated] at h
  unfold strings at h
  split at h
  · simp only [Option.some.injEq, List.cons.injEq, and_true] at h
    obtain ⟨rfl, rfl, rfl, rfl, rfl, rfl, rfl, rfl, rfl, rfl, rfl, rfl, rfl⟩ := h
    rfl
  · cases h

def entryText : Entry → String
  | .genesis => "1-genesis"
  | .rotated => "2-rotated"

def readEntry (text : String) : Except String Entry :=
  if text = "1-genesis" then .ok .genesis
  else if text = "2-rotated" then .ok .rotated
  else .error "not an entry"

/-- The parameters in force are the one update key throughout. -/
def validate : List Entry → Except String (List (List String) × Except String Unit)
  | [.genesis] => .ok ([["z6sign"]], .ok ())
  | [.genesis, .rotated] => .ok ([["z6sign"], ["z6sign"]], .ok ())
  | _ => .error "the chain does not verify"

/-- Libraries for that log; a key is written as it is. -/
abbrev libs : RotateLibs where
  toServeLibs := {
    toLibs := { Reference.libs with
      LogEntry := Entry
      Parameters := List String
      fromStr := fun _ => .ok (.obj [("state", .obj [("id", .str did)])])
      deserializeString := fun text _ => readEntry text
      webvhVersion := fun _ => ()
      versionNumber := fun e => .ok (if e = .genesis then 1 else 2)
      versionId := entryText
      verifyLogEntry := fun _ _ => .ok ["z6sign"]
      activeWitnesses := fun _ => none
      witnessThreshold := fun _ => none
      validateLogEntry := fun _ _ _ _ => .ok ()
      validate := fun entries _ => validate entries
      validateWitnessProof := fun _ _ => .error "not a proof" }
    failedProofs := fun proofs _ => proofs
    entryToString := fun e => .ok (entryText e) }
  decode := .ok
  publicMultibase key := some ("z6" ++ key)
  privateMultibase := some
  secretId key := key
  multibaseError _ := "no multibase form"
  getState
    | .genesis => .obj genesisDoc
    | .rotated => .obj rotatedDoc
  updateKeys keys := keys
  setUpdateKeys keys _ := keys
  createLogEntry states doc params signer :=
    if states.map Prod.fst = [.genesis] ∧ strings doc = strings rotatedDoc ∧
        params = ["z6sign"] ∧ signer.key = "sign" then .ok .rotated
    else .error "not the entry of the sample"

theorem of_createLogEntry {states : List (Entry × List String)} {doc : DidDocument}
    {params : List String} {signer : Secret} {entry : Entry}
    (h : libs.createLogEntry states doc params signer = .ok entry) :
    (states.map Prod.fst = [.genesis] ∧ strings doc = strings rotatedDoc ∧
      params = ["z6sign"] ∧ signer.key = "sign") ∧ entry = .rotated := by
  change (if _ then _ else _) = _ at h
  split at h
  · rename_i hsample
    cases h
    exact ⟨hsample, rfl⟩
  · cases h

theorem documented : Documented libs where
  publicHalf_private := by
    intro key text h
    cases h
    rfl
  updateKeys_set _ _ := rfl
  one_each := by
    intro entries params h
    change validate entries = _ at h
    unfold validate at h
    split at h
    · cases h
      rfl
    · cases h
      rfl
    · cases h
  line := by
    intro states doc params signer entry text _ htext
    cases htext
    have hlines : ∀ text ∈ [entryText .genesis, entryText .rotated],
        ('\n' ∉ text.toList ∧ '\r' ∉ text.toList) ∧ trim text = text ∧ text.toList ≠ [] := by
      decide +kernel
    obtain ⟨hone, htrimmed, hne⟩ := hlines (entryText entry) (by cases entry <;> simp)
    exact ⟨hone, htrimmed, hne⟩
  reads := by
    intro states doc params signer entry text hentry htext version e hread
    obtain ⟨⟨-, hdoc, -⟩, rfl⟩ := of_createLogEntry hentry
    cases htext
    cases hread
    exact congrArg Json.obj (eq_of_strings hdoc).symm
  parameters := by
    intro states doc params signer entry text hentry htext version e hread validated hvalid
    obtain ⟨⟨hstates, -, hparams, -⟩, rfl⟩ := of_createLogEntry hentry
    cases htext
    cases hread
    rw [hstates] at hvalid
    cases hvalid
    exact ⟨["z6sign"], rfl, hparams.symm⟩

def rotateKa : Rotation where
  serverDid := did
  which := .keyAgreement
  newKaKey := some "new"
  newSigningKey := none
  graceSecs := 0
  generatedKa := .error "no key"
  generatedSigning := ""
  now := 100

def secrets : ServerSecrets := ⟨"sign", "old", []⟩

/-- A store without a generation. -/
def store : RotateStore where
  secrets := some secrets
  currentId := none
  generations := ∅
  dids := { DidsKs.empty with
    contentLog := (∅ : Table String String).insert ".well-known" "1-genesis" }

def generation : IdentityGeneration :=
  ⟨1, did, did ++ "#key-0", did ++ "#key-1", some "z6old", none, ⟨true, true⟩, 50, none, none⟩

/-- The store of a service that has been started. -/
def started : RotateStore :=
  { store with generations := (∅ : Table ℕ IdentityGeneration).insert 1 generation }

def noFaults : ℕ → Option RotateError := fun _ => none

theorem evaluated : loadValidatedState libs "1-genesis" = .ok [(.genesis, ["z6sign"])] ∧
    (KeyRotation.prepare libs rotateKa secrets "1-genesis").isOk = true ∧
    mnemonicFromDid did = some ".well-known" := by
  decide +kernel

theorem writesSecrets : WritesSecrets libs rotateKa noFaults store := by
  refine ⟨fun _ _ => rfl, ".well-known", secrets, "1-genesis", ?_⟩
  cases hp : KeyRotation.prepare libs rotateKa secrets "1-genesis" with
  | error e =>
      have hok := evaluated.2.1
      rw [hp] at hok
      cases hok
  | ok p => exact ⟨p, evaluated.2.2, rfl, AList.lookup_insert _, hp⟩

theorem storedTip_eq : storedTip libs did store = some (genesisDoc, ["z6sign"]) := by
  have hlog : store.dids.contentLog.lookup ".well-known" = some "1-genesis" :=
    AList.lookup_insert _
  rw [storedTip, evaluated.2.2, Option.bind_some, hlog, Option.bind_some, logTip, evaluated.1]
  rfl

theorem advertises_iff {m : String} : Advertises genesisDoc m ↔ m = "z6old" := by
  constructor
  · rintro ⟨kid, -, method, hmethod, -, hpublic⟩
    obtain rfl := List.mem_singleton.mp hmethod
    exact (Option.some.inj hpublic).symm
  · rintro rfl
    exact ⟨did ++ "#key-1", by decide +kernel, _, List.mem_singleton_self _, by decide +kernel, rfl⟩

end RotationSample

open RotationSample

/-- A first rotation of a service that has been started publishes its log. -/
theorem rotation_survives_sample : Survives libs rotateKa noFaults started ∧
    (rotation libs rotateKa noFaults started).1.isOk = true := by
  have hgoes : GoesOn rotateKa noFaults started := ⟨fun _ _ _ => rfl, by decide +kernel⟩
  refine ⟨(rotation_survives_iff libs documented rotateKa noFaults started).mpr ⟨?_, ?_, ?_⟩,
    by decide +kernel⟩
  · intro _ _ _ _ _ _ hstops
    exact absurd hgoes hstops
  · intro _ _ _ _ _ _
    exact ⟨fun hstops => absurd hgoes hstops, fun _ hfault => absurd rfl hfault⟩
  · intro mnemonic _ _ _ record _ _ _ _ hrow
    cases hrow

/-- Without a grace period, a rotation that finds no generation has replaced the key that the
log still names. -/
theorem old_key_lost :
    ¬ ∀ (L : RotateLibs), Documented L → ∀ (r : Rotation) (fault : ℕ → Option RotateError)
      (s : RotateStore), Survives L r fault s := by
  intro hclaim
  have hheld := (hclaim libs documented rotateKa noFaults store).held
  have hmatch : Match (publics libs (kaKeys true secrets)) (publics libs (signingKeys true secrets))
      (genesisDoc, ["z6sign"]) :=
    ⟨⟨"z6old", by decide +kernel, advertises_iff.mpr rfl⟩, "z6sign", by decide +kernel,
      List.mem_singleton_self _⟩
  have hstops : ¬ GoesOn rotateKa noFaults store := fun h => h.2 (by decide +kernel)
  have hleaves := ((keeps_iff documented rotateKa noFaults store true).mp hheld secrets _ rfl
    storedTip_eq hmatch writesSecrets).1 hstops
  obtain ⟨m, hm, hadvertises⟩ := hleaves.ka
  rw [advertises_iff.mp hadvertises] at hm
  exact absurd hm (by decide +kernel)

end DidHosting
