import DidHosting.Common.Reference
import DidHosting.Support.Run
import DidHosting.Support.Table
import DidHosting.Witness.Log

/-!
# Signing of witness proofs

A witness keeps, for each identity and SCID, the furthest version it has witnessed.  A
sign request verifies its log, waits for the sign lock, reads the mark, checks that the
log extends it, signs, counts the proof and stores the new mark.  The requests run in
any interleaving of their single accesses to the store, and each step can fail.

A proof is released by the step that stores the mark.
-/

namespace DidHosting

open Text

/-! ## The store -/

/-- The id of a witness identity, a multibase public key.  `:` cannot occur in it. -/
structure WitnessId where
  text : String
  no_colon : ':' ∉ text.toList
deriving DecidableEq

/-- `WitnessRecord`, without its label, times and references. -/
structure WitnessRecord where
  witnessId : WitnessId
  did : String
  privateKeyMultibase : String
  proofsSigned : ℕ
deriving DecidableEq

structure WitnessedMark where
  versionNumber : ℕ
  versionId : String
deriving DecidableEq, Repr

def witnessedKey (witnessId : WitnessId) (scid : String) : String :=
  "witnessed:" ++ witnessId.text ++ String.singleton ':' ++ scid

/-- The marks of different identities and SCIDs have different keys. -/
theorem witnessedKey_inj {w w' : WitnessId} {scid scid' : String}
    (h : witnessedKey w scid = witnessedKey w' scid') : w = w' ∧ scid = scid' := by
  have hlists : ∀ (w : WitnessId) (scid : String), (witnessedKey w scid).toList =
      "witnessed:".toList ++ (w.text ++ String.singleton ':' ++ scid).toList := by
    intro w scid
    unfold witnessedKey
    simp only [String.toList_append, List.append_assoc]
  have hrest : w.text ++ String.singleton ':' ++ scid = w'.text ++ String.singleton ':' ++ scid' := by
    have hlist := congrArg String.toList h
    rw [hlists, hlists] at hlist
    exact String.toList_inj.mp (List.append_cancel_left hlist)
  have htext : w.text = w'.text := by
    rw [← before_append (b := scid) w.no_colon, hrest, before_append w'.no_colon]
  cases w
  cases w'
  cases htext
  refine ⟨rfl, ?_⟩
  have hlist := congrArg String.toList hrest
  simp only [String.toList_append, List.append_assoc] at hlist
  exact String.toList_inj.mp (List.append_cancel_left (List.append_cancel_left hlist))

/-- The witnesses keyspace: the records, and the marks under their keys. -/
structure WitnessStore where
  witnesses : Table WitnessId WitnessRecord
  marks : Table String WitnessedMark

/-- `get_witnessed_mark`. -/
def WitnessStore.mark (s : WitnessStore) (witnessId : WitnessId) (scid : String) :
    Option WitnessedMark :=
  s.marks.lookup (witnessedKey witnessId scid)

/-! ## One request -/

def isValidVersionId (versionId : String) : Bool :=
  match splitOnce '-' versionId with
  | none => false
  | some (numPart, hashPart) =>
      numPart ≠ "" && hashPart ≠ "" && numPart.toList.all Char.isDigit &&
        hashPart.toList.all fun c => !isWhitespace c

/-- The log extends what was witnessed before. -/
def extendsMark (mark : Option WitnessedMark) (witnessed : WitnessedLog) : Bool :=
  match mark with
  | none => true
  | some mark =>
      mark.versionNumber ≤ witnessed.versionIds.length && mark.versionNumber ≠ 0 &&
        witnessed.versionIds[mark.versionNumber - 1]? = some mark.versionId

/-- The payload of a sign request. -/
structure SignRequest where
  witnessId : WitnessId
  versionId : String
  logContent : String
deriving DecidableEq

/-- Where the request under the lock is: its mark was read, its record was read, or the
proof was counted. -/
inductive SignPhase where
  | checked
  | read (record : WitnessRecord)
  | counted

/-- The request that holds the sign lock. -/
structure Signing where
  request : SignRequest
  witnessed : WitnessedLog
  mark : Option WitnessedMark
  phase : SignPhase

/-- A proof that was released, with the log it was released for. -/
structure Release where
  witnessId : WitnessId
  versionId : String
  witnessed : WitnessedLog
deriving DecidableEq

/-! ## Requests in any interleaving -/

/-- The store, the requests whose log is verified, the holder of the sign lock, and the
proofs released so far. -/
structure SignRun where
  store : WitnessStore
  waiting : List (SignRequest × WitnessedLog)
  signing : Option Signing
  released : List Release

/-- The accesses of sign requests.  `fail` is a failure of the store, of the signer or of
the process under the lock. -/
inductive SignEvent where
  | submit (request : SignRequest)
  | enter (request : SignRequest) (witnessed : WitnessedLog)
  | readRecord
  | count
  | finish
  | fail

namespace SignRun

variable (W : WitnessLibs)

/-- The first read of a request, and the verification of its log. -/
def submit (r : SignRun) (request : SignRequest) : SignRun :=
  match r.store.witnesses.lookup request.witnessId with
  | none => r
  | some record =>
      match verifyLogForWitnessing W request.logContent request.versionId record.did with
      | .ok witnessed => { r with waiting := (request, witnessed) :: r.waiting }
      | .error _ => r

/-- A request takes the lock, reads the mark and goes on if its log extends it. -/
def enter (r : SignRun) (request : SignRequest) (witnessed : WitnessedLog) : SignRun :=
  if (request, witnessed) ∈ r.waiting ∧ r.signing.isNone then
    let mark := r.store.mark request.witnessId witnessed.scid
    { r with
      waiting := r.waiting.erase (request, witnessed)
      signing :=
        if extendsMark mark witnessed then some ⟨request, witnessed, mark, .checked⟩ else none }
  else r

/-- The read of `sign_witness_proof`. -/
def readRecord (r : SignRun) (s : Signing) : SignRun :=
  match s.phase with
  | .checked =>
      if isValidVersionId s.request.versionId then
        { r with signing := (r.store.witnesses.lookup s.request.witnessId).map fun record =>
            { s with phase := .read record } }
      else { r with signing := none }
  | _ => r

/-- The counter write of `sign_witness_proof`, after the proof was signed. -/
def count (r : SignRun) (s : Signing) : SignRun :=
  match s.phase with
  | .read record =>
      { r with
        store := { r.store with
          witnesses := r.store.witnesses.insert record.witnessId
            { record with proofsSigned := record.proofsSigned + 1 } }
        signing := some { s with phase := .counted } }
  | _ => r

/-- The marks after a release. -/
def nextMarks (marks : Table String WitnessedMark) (s : Signing) : Table String WitnessedMark :=
  if s.mark.all (·.versionNumber < s.witnessed.versionIds.length) then
    marks.insert (witnessedKey s.request.witnessId s.witnessed.scid)
      ⟨s.witnessed.versionIds.length, s.request.versionId⟩
  else marks

/-- The mark is stored and the proof is released. -/
def finish (r : SignRun) (s : Signing) : SignRun :=
  match s.phase with
  | .counted =>
      { r with
        store := { r.store with marks := nextMarks r.store.marks s }
        signing := none
        released := r.released ++ [⟨s.request.witnessId, s.request.versionId, s.witnessed⟩] }
  | _ => r

def step (r : SignRun) : SignEvent → SignRun
  | .submit request => r.submit W request
  | .enter request witnessed => r.enter request witnessed
  | .readRecord => r.signing.elim r r.readRecord
  | .count => r.signing.elim r r.count
  | .finish => r.signing.elim r r.finish
  | .fail => { r with signing := none }

/-- `sign_task` without interruption. -/
def signTask (request : SignRequest) (witnessed : WitnessedLog) : List SignEvent :=
  [.submit request, .enter request witnessed, .readRecord, .count, .finish]

/-- A service that has witnessed nothing. -/
def initial (witnesses : Table WitnessId WitnessRecord) : SignRun :=
  ⟨⟨witnesses, ∅⟩, [], none, []⟩

end SignRun

/-! ## One history for each identity and SCID -/

/-- The library accepted the log, for some version and witness. -/
def Witnessed (W : WitnessLibs) (w : WitnessedLog) : Prop :=
  ∃ content versionId witnessDid, verifyLogForWitnessing W content versionId witnessDid = .ok w

/-- The release is for the identity and the SCID. -/
def Release.About (a : Release) (witnessId : WitnessId) (scid : String) : Prop :=
  a.witnessId = witnessId ∧ a.witnessed.scid = scid

section Logs

variable {W : WitnessLibs} (hcommits : CommitsToPrefix W.toLibs)

include hcommits

/-- A log that has the last version of another one extends it. -/
theorem prefix_of_version {w w' : WitnessedLog} (hw : Witnessed W w) (hw' : Witnessed W w')
    {v : String} (hlast : w.versionIds.getLast? = some v)
    (hshared : w'.versionIds[w.versionIds.length - 1]? = some v) :
    w.versionIds <+: w'.versionIds := by
  obtain ⟨_, _, _, hverify⟩ := hw
  obtain ⟨_, _, _, hverify'⟩ := hw'
  obtain ⟨states, hchain, hids, -⟩ := verifyLogForWitnessing_ok hverify
  obtain ⟨states', hchain', hids', -⟩ := verifyLogForWitnessing_ok hverify'
  have hne : w.versionIds ≠ [] := by
    intro hnil
    rw [hnil] at hlast
    contradiction
  have hlength : w.versionIds.length - 1 + 1 = w.versionIds.length :=
    Nat.succ_pred_eq_of_pos (List.length_pos_iff.mpr hne)
  rw [List.getLast?_eq_getElem?] at hlast
  have htake := hcommits states states' hchain hchain' (w.versionIds.length - 1) v
    (by rw [hids, hlast]) (by rw [hids', hshared])
  rw [hids, hids', hlength, List.take_length] at htake
  rw [htake]
  exact List.take_prefix _ _

end Logs

namespace SignRun

/-- The releases for an identity and a SCID go on from one another, and the mark is the
furthest of them. -/
structure Marked (mark : Option WitnessedMark) (released : List Release) (witnessId : WitnessId)
    (scid : String) : Prop where
  unmarked : mark = none → ∀ a ∈ released, ¬ a.About witnessId scid
  furthest : ∀ m, mark = some m → ∃ a ∈ released, a.About witnessId scid ∧
    a.witnessed.versionIds.length = m.versionNumber ∧
    a.witnessed.versionIds.getLast? = some m.versionId ∧
    ∀ b ∈ released, b.About witnessId scid →
      b.witnessed.versionIds <+: a.witnessed.versionIds

/-- What holds in every run. -/
structure Inv (W : WitnessLibs) (r : SignRun) : Prop where
  waiting : ∀ x ∈ r.waiting, Witnessed W x.2 ∧ x.2.versionIds.getLast? = some x.1.versionId
  signing : ∀ s, r.signing = some s → Witnessed W s.witnessed ∧
    s.witnessed.versionIds.getLast? = some s.request.versionId ∧
    s.mark = r.store.mark s.request.witnessId s.witnessed.scid ∧
    extendsMark s.mark s.witnessed = true
  released : ∀ a ∈ r.released, Witnessed W a.witnessed
  marked : ∀ witnessId scid, Marked (r.store.mark witnessId scid) r.released witnessId scid

theorem inv_initial (W : WitnessLibs) (witnesses : Table WitnessId WitnessRecord) :
    Inv W (initial witnesses) where
  waiting := fun _ h => absurd h List.not_mem_nil
  signing := fun _ h => nomatch h
  released := fun _ h => absurd h List.not_mem_nil
  marked := fun _ _ => ⟨fun _ _ h => absurd h List.not_mem_nil, fun _ h => nomatch h⟩

section Step

variable {W : WitnessLibs} {r : SignRun} (h : Inv W r)

include h

/-- Without the lock, or with another phase, the same holds. -/
theorem Inv.phase {s : Signing} (hs : r.signing = some s) (phase : SignPhase) :
    Inv W { r with signing := some { s with phase := phase } } where
  waiting := h.waiting
  signing := by
    rintro _ ⟨⟩
    exact h.signing s hs
  released := h.released
  marked := h.marked

theorem Inv.idle : Inv W { r with signing := none } where
  waiting := h.waiting
  signing := fun _ hs => nomatch hs
  released := h.released
  marked := h.marked

theorem Inv.submit (request : SignRequest) : Inv W (r.submit W request) := by
  unfold SignRun.submit
  split
  · exact h
  · split
    · rename_i record _ witnessed hverify
      obtain ⟨-, -, -, hlast⟩ := verifyLogForWitnessing_ok hverify
      refine ⟨?_, h.signing, h.released, h.marked⟩
      intro x hx
      rcases List.mem_cons.mp hx with rfl | hmem
      · exact ⟨⟨_, _, _, hverify⟩, hlast⟩
      · exact h.waiting x hmem
    · exact h

theorem Inv.enter (request : SignRequest) (witnessed : WitnessedLog) :
    Inv W (r.enter request witnessed) := by
  unfold SignRun.enter
  split
  · rename_i hwaits
    obtain ⟨hverified, hlast⟩ := h.waiting _ hwaits.1
    refine ⟨fun x hx => h.waiting x (List.mem_of_mem_erase hx), ?_, h.released, h.marked⟩
    intro s hs
    change (if extendsMark (r.store.mark request.witnessId witnessed.scid) witnessed = true then
      _ else none) = some s at hs
    split at hs
    · rename_i hextends
      cases hs
      exact ⟨hverified, hlast, rfl, hextends⟩
    · contradiction
  · exact h

theorem Inv.readRecord {s : Signing} (hs : r.signing = some s) : Inv W (r.readRecord s) := by
  unfold SignRun.readRecord
  split
  · split
    · cases r.store.witnesses.lookup s.request.witnessId with
      | none => exact h.idle
      | some record => exact h.phase hs (.read record)
    · exact h.idle
  · exact h

theorem Inv.count {s : Signing} (hs : r.signing = some s) : Inv W (r.count s) := by
  unfold SignRun.count
  split
  · refine ⟨h.waiting, ?_, h.released, h.marked⟩
    rintro _ ⟨⟩
    exact h.signing s hs
  · exact h

end Step

/-- A release for another pair changes nothing. -/
theorem Marked.other {mark : Option WitnessedMark} {released : List Release}
    {witnessId : WitnessId} {scid : String} (h : Marked mark released witnessId scid)
    {a : Release} (ha : ¬ a.About witnessId scid) :
    Marked mark (released ++ [a]) witnessId scid := by
  refine ⟨fun hnone b hb => ?_, fun m hm => ?_⟩
  · rcases List.mem_append.mp hb with hold | hnew
    · exact h.unmarked hnone b hold
    · rw [List.mem_singleton.mp hnew]
      exact ha
  · obtain ⟨c, hc, habout, hlength, hlast, hfurthest⟩ := h.furthest m hm
    refine ⟨c, List.mem_append_left _ hc, habout, hlength, hlast, ?_⟩
    intro b hb hbabout
    rcases List.mem_append.mp hb with hold | hnew
    · exact hfurthest b hold hbabout
    · rw [List.mem_singleton.mp hnew] at hbabout
      exact absurd hbabout ha

theorem Marked.release {W : WitnessLibs} (hcommits : CommitsToPrefix W.toLibs)
    {mark : Option WitnessedMark} {released : List Release} {witnessId : WitnessId}
    {scid : String} (h : Marked mark released witnessId scid)
    (hreleased : ∀ b ∈ released, Witnessed W b.witnessed) {a : Release}
    (ha : a.About witnessId scid) (hw : Witnessed W a.witnessed)
    (hlast : a.witnessed.versionIds.getLast? = some a.versionId)
    (hextends : extendsMark mark a.witnessed = true) :
    Marked (if mark.all (·.versionNumber < a.witnessed.versionIds.length) then
      some ⟨a.witnessed.versionIds.length, a.versionId⟩ else mark) (released ++ [a])
      witnessId scid := by
  have hnew : a ∈ released ++ [a] := List.mem_append_right _ List.mem_cons_self
  cases mark with
  | none =>
      refine ⟨fun hnone => (nomatch hnone), ?_⟩
      rintro _ ⟨⟩
      refine ⟨a, hnew, ha, rfl, hlast, ?_⟩
      intro b hb hbabout
      rcases List.mem_append.mp hb with hold | hsame
      · exact absurd hbabout (h.unmarked rfl b hold)
      · rw [List.mem_singleton.mp hsame]
  | some mark =>
      obtain ⟨c, hc, habout, hlength, hclast, hfurthest⟩ := h.furthest mark rfl
      unfold extendsMark at hextends
      rw [Bool.and_eq_true, Bool.and_eq_true, decide_eq_true_eq, decide_eq_true_eq,
        decide_eq_true_eq] at hextends
      obtain ⟨⟨hle, -⟩, hshared⟩ := hextends
      -- the furthest log so far has the marked version where the new one has it
      have hpre : c.witnessed.versionIds <+: a.witnessed.versionIds :=
        prefix_of_version hcommits (hreleased c hc) hw hclast (by rw [hlength, hshared])
      have hall : ∀ b ∈ released ++ [a], b.About witnessId scid →
          b.witnessed.versionIds <+: a.witnessed.versionIds := by
        intro b hb hbabout
        rcases List.mem_append.mp hb with hold | hsame
        · exact (hfurthest b hold hbabout).trans hpre
        · rw [List.mem_singleton.mp hsame]
      by_cases hfurther : mark.versionNumber < a.witnessed.versionIds.length
      · have hif : (some mark).all (·.versionNumber < a.witnessed.versionIds.length) = true :=
          decide_eq_true hfurther
        rw [if_pos hif]
        refine ⟨fun hnone => (nomatch hnone), ?_⟩
        rintro _ ⟨⟩
        exact ⟨a, hnew, ha, rfl, hlast, hall⟩
      · have hif : ¬ (some mark).all (·.versionNumber < a.witnessed.versionIds.length) = true := by
          intro hcond
          exact hfurther (of_decide_eq_true hcond)
        have hsame : c.witnessed.versionIds = a.witnessed.versionIds :=
          hpre.eq_of_length (by omega)
        rw [if_neg hif]
        refine ⟨fun hnone => (nomatch hnone), ?_⟩
        rintro _ ⟨⟩
        refine ⟨c, List.mem_append_left _ hc, habout, hlength, hclast, ?_⟩
        rw [hsame]
        exact hall

theorem Inv.finish {W : WitnessLibs} (hcommits : CommitsToPrefix W.toLibs) {r : SignRun}
    (h : Inv W r) {s : Signing} (hs : r.signing = some s) : Inv W (r.finish s) := by
  unfold SignRun.finish
  split
  · obtain ⟨hw, hlast, hmark, hextends⟩ := h.signing s hs
    refine ⟨h.waiting, fun _ hnone => (nomatch hnone), ?_, ?_⟩
    · intro a ha
      rcases List.mem_append.mp ha with hold | hnew
      · exact h.released a hold
      · rw [List.mem_singleton.mp hnew]
        exact hw
    · intro witnessId scid
      have hmarked := h.marked witnessId scid
      change Marked ((nextMarks r.store.marks s).lookup (witnessedKey witnessId scid)) _ _ _
      by_cases habout : s.request.witnessId = witnessId ∧ s.witnessed.scid = scid
      · obtain ⟨rfl, rfl⟩ := habout
        have hrelease := hmarked.release hcommits h.released
          (a := ⟨s.request.witnessId, s.request.versionId, s.witnessed⟩) ⟨rfl, rfl⟩ hw hlast
          (by rw [← hmark]; exact hextends)
        have hlookup : (nextMarks r.store.marks s).lookup
            (witnessedKey s.request.witnessId s.witnessed.scid) =
              if s.mark.all (·.versionNumber < s.witnessed.versionIds.length) then
                some ⟨s.witnessed.versionIds.length, s.request.versionId⟩ else s.mark := by
          unfold nextMarks
          split
          · exact AList.lookup_insert _
          · exact hmark.symm
        rw [hlookup, hmark]
        exact hrelease
      · have hlookup : (nextMarks r.store.marks s).lookup (witnessedKey witnessId scid) =
            r.store.mark witnessId scid := by
          unfold nextMarks
          split
          · rw [Table.lookup_insert_ite, if_neg]
            · rfl
            · intro hkey
              obtain ⟨rfl, rfl⟩ := witnessedKey_inj hkey
              exact habout ⟨rfl, rfl⟩
          · rfl
        rw [hlookup]
        exact hmarked.other habout
  · exact h

theorem Inv.step {W : WitnessLibs} (hcommits : CommitsToPrefix W.toLibs) {r : SignRun}
    (h : Inv W r) (e : SignEvent) : Inv W (r.step W e) := by
  have helim : ∀ f : Signing → SignRun, (∀ s, r.signing = some s → Inv W (f s)) →
      Inv W (r.signing.elim r f) := by
    intro f hf
    cases hsigning : r.signing with
    | none => exact h
    | some s => exact hf s hsigning
  cases e with
  | submit request => exact h.submit request
  | enter request witnessed => exact h.enter request witnessed
  | readRecord => exact helim _ fun s hs => h.readRecord hs
  | count => exact helim _ fun s hs => h.count hs
  | finish => exact helim _ fun s hs => h.finish hcommits hs
  | fail => exact h.idle

/-- A step releases at most one proof: the one of the request that has counted it. -/
theorem released_cases (W : WitnessLibs) (r : SignRun) (e : SignEvent) :
    (r.step W e).released = r.released ∨
      ∃ s, r.signing = some s ∧ s.phase = .counted ∧ (r.step W e).released =
        r.released ++ [⟨s.request.witnessId, s.request.versionId, s.witnessed⟩] := by
  have helim : ∀ f : Signing → SignRun, (∀ s, (f s).released = r.released) →
      (r.signing.elim r f).released = r.released := by
    intro f hf
    cases r.signing with
    | none => rfl
    | some s => exact hf s
  cases e with
  | submit request =>
      left
      change (r.submit W request).released = r.released
      unfold submit
      split
      · rfl
      · split <;> rfl
  | enter request witnessed =>
      left
      change (r.enter request witnessed).released = r.released
      unfold enter
      split <;> rfl
  | readRecord =>
      refine Or.inl (helim _ fun s => ?_)
      unfold readRecord
      split
      · split <;> rfl
      · rfl
  | count =>
      refine Or.inl (helim _ fun s => ?_)
      unfold count
      split <;> rfl
  | fail => exact Or.inl rfl
  | finish =>
      change (r.signing.elim r r.finish).released = _ ∨ ∃ s, _ ∧ _ ∧
        (r.signing.elim r r.finish).released = _
      cases hs : r.signing with
      | none => exact Or.inl rfl
      | some s =>
          change (r.finish s).released = _ ∨ ∃ s', some s = some s' ∧ _ ∧ (r.finish s).released = _
          unfold finish
          split
          · rename_i hphase
            exact Or.inr ⟨s, rfl, hphase, rfl⟩
          · exact Or.inl rfl

theorem released_step {W : WitnessLibs} {r : SignRun} (h : Inv W r) (e : SignEvent) :
    (r.step W e).released = r.released ∨
      ∃ a, (r.step W e).released = r.released ++ [a] ∧
        a.witnessed.versionIds.getLast? = some a.versionId ∧
        ∀ mark, r.store.mark a.witnessId a.witnessed.scid = some mark →
          mark.versionNumber ≤ a.witnessed.versionIds.length := by
  rcases released_cases W r e with hsame | ⟨s, hs, -, hreleased⟩
  · exact Or.inl hsame
  · obtain ⟨-, hlast, hmark, hextends⟩ := h.signing s hs
    refine Or.inr ⟨_, hreleased, hlast, ?_⟩
    intro mark hheld
    rw [hmark, hheld] at hextends
    unfold extendsMark at hextends
    rw [Bool.and_eq_true, Bool.and_eq_true, decide_eq_true_eq] at hextends
    exact hextends.1.1

/-- The run after the request was answered. -/
def answered (r : SignRun) (request : SignRequest) (record : WitnessRecord)
    (witnessed : WitnessedLog) : SignRun :=
  { r with
    store := ⟨r.store.witnesses.insert record.witnessId
        { record with proofsSigned := record.proofsSigned + 1 },
      nextMarks r.store.marks
        ⟨request, witnessed, r.store.mark request.witnessId witnessed.scid, .counted⟩⟩
    signing := none
    released := r.released ++ [⟨request.witnessId, request.versionId, witnessed⟩] }

/-- Without a request under the lock the accesses of a signature change nothing. -/
theorem exec_idle (W : WitnessLibs) {r : SignRun} (hidle : r.signing = none) :
    Run.exec (step W) r [.readRecord, .count, .finish] = r := by
  obtain ⟨store, waiting, signing, released⟩ := r
  cases hidle
  rfl

/-- A request for an identity that is not there is refused. -/
theorem exec_unknown {W : WitnessLibs} {r : SignRun} {request : SignRequest}
    (hrecord : r.store.witnesses.lookup request.witnessId = none) (hwaiting : r.waiting = [])
    (hidle : r.signing = none) (witnessed : WitnessedLog) :
    Run.exec (step W) r (signTask request witnessed) = r := by
  have hsubmit : r.step W (.submit request) = r := by
    change r.submit W request = r
    unfold submit
    rw [hrecord]
  have henter : r.step W (.enter request witnessed) = r := by
    change r.enter request witnessed = r
    unfold enter
    rw [if_neg]
    rw [hwaiting]
    exact fun hwaits => List.not_mem_nil hwaits.1
  have hsplit : signTask request witnessed =
      [.submit request, .enter request witnessed] ++ [.readRecord, .count, .finish] := rfl
  have hask : Run.exec (step W) r [.submit request, .enter request witnessed] = r := by
    rw [Run.exec_cons, hsubmit, Run.exec_cons, henter, Run.exec_nil]
  rw [hsplit, Run.exec_append, hask, exec_idle W hidle]

section Alone

variable {W : WitnessLibs} {r : SignRun} {request : SignRequest} {record : WitnessRecord}
  {witnessed : WitnessedLog}
  (hrecord : r.store.witnesses.lookup request.witnessId = some record)
  (hverify : verifyLogForWitnessing W request.logContent request.versionId record.did =
    .ok witnessed)

section Verifies

include hrecord hverify

theorem step_submit : r.step W (.submit request) =
    { r with waiting := (request, witnessed) :: r.waiting } := by
  change r.submit W request = _
  unfold submit
  simp only [hrecord, hverify]

variable (hidle : r.signing = none)

include hidle

/-- It takes the lock, and goes on if its log extends the mark. -/
theorem exec_toLock :
    Run.exec (step W) r [.submit request, .enter request witnessed] =
      { r with
        signing :=
          if extendsMark (r.store.mark request.witnessId witnessed.scid) witnessed then
            some ⟨request, witnessed, r.store.mark request.witnessId witnessed.scid, .checked⟩
          else none } := by
  rw [Run.exec_cons, step_submit hrecord hverify, Run.exec_cons, Run.exec_nil]
  change SignRun.enter { r with waiting := (request, witnessed) :: r.waiting } request witnessed = _
  unfold enter
  rw [if_pos ⟨List.mem_cons_self, by rw [hidle]; rfl⟩]
  simp only [List.erase_cons_head]

theorem exec_refused
    (hbehind : extendsMark (r.store.mark request.witnessId witnessed.scid) witnessed = false) :
    Run.exec (step W) r (signTask request witnessed) = r := by
  have hsplit : signTask request witnessed =
      [.submit request, .enter request witnessed] ++ [.readRecord, .count, .finish] := rfl
  rw [hsplit, Run.exec_append, exec_toLock hrecord hverify hidle, exec_idle]
  · rw [hbehind, if_neg Bool.false_ne_true, ← hidle]
  · rw [hbehind, if_neg Bool.false_ne_true]

end Verifies

variable (hidle : r.signing = none) (hversion : isValidVersionId request.versionId = true)
  (hextends : extendsMark (r.store.mark request.witnessId witnessed.scid) witnessed = true)

include hrecord hverify hidle hversion hextends

/-- A request whose log is in order and extends the mark comes to the signature. -/
theorem exec_toSignature :
    Run.exec (step W) r [.submit request, .enter request witnessed, .readRecord] =
      { r with signing := some ⟨request, witnessed,
        r.store.mark request.witnessId witnessed.scid, .read record⟩ } := by
  have hsplit : ([.submit request, .enter request witnessed, .readRecord] : List SignEvent) =
      [.submit request, .enter request witnessed] ++ [.readRecord] := rfl
  rw [hsplit, Run.exec_append, exec_toLock hrecord hverify hidle, hextends, if_pos rfl,
    Run.exec_cons, Run.exec_nil, step, Option.elim_some]
  unfold readRecord
  simp only [hversion, if_true, hrecord, Option.map_some]

/-- Without interruption it is answered with a proof. -/
theorem exec_signTask :
    Run.exec (step W) r (signTask request witnessed) = r.answered request record witnessed := by
  have hsplit : signTask request witnessed =
      [.submit request, .enter request witnessed, .readRecord] ++ [.count, .finish] := rfl
  rw [hsplit, Run.exec_append, exec_toSignature hrecord hverify hidle hversion hextends]
  rfl

end Alone

end SignRun

/-- In every run of sign requests the logs that proofs were released for are, for each
identity and SCID, prefixes of one another; the mark is the furthest of them; and no
proof is released behind the mark. -/
theorem witness_never_equivocates (W : WitnessLibs) (hcommits : CommitsToPrefix W.toLibs)
    (witnesses : Table WitnessId WitnessRecord) (events : List SignEvent) :
    let r := Run.exec (SignRun.step W) (.initial witnesses) events
    (∀ a ∈ r.released, ∀ b ∈ r.released, a.witnessId = b.witnessId →
      a.witnessed.scid = b.witnessed.scid →
        a.witnessed.versionIds <+: b.witnessed.versionIds ∨
          b.witnessed.versionIds <+: a.witnessed.versionIds) ∧
      (∀ witnessId scid, SignRun.Marked (r.store.mark witnessId scid) r.released witnessId scid) ∧
      ∀ e, (r.step W e).released = r.released ∨
        ∃ a, (r.step W e).released = r.released ++ [a] ∧
          a.witnessed.versionIds.getLast? = some a.versionId ∧
          ∀ mark, r.store.mark a.witnessId a.witnessed.scid = some mark →
            mark.versionNumber ≤ a.witnessed.versionIds.length := by
  intro r
  have hinv : SignRun.Inv W (Run.exec (SignRun.step W) (.initial witnesses) events) :=
    Run.exec_invariant_of_step (fun _ e h => h.step hcommits e) events
      (SignRun.inv_initial W witnesses)
  refine ⟨?_, hinv.marked, SignRun.released_step hinv⟩
  intro a ha b hb hwitness hscid
  have hmarked := hinv.marked b.witnessId b.witnessed.scid
  cases hmark : r.store.mark b.witnessId b.witnessed.scid with
  | none =>
      exact absurd ⟨rfl, rfl⟩ (hmarked.unmarked hmark b hb)
  | some mark =>
      obtain ⟨c, -, -, -, -, hfurthest⟩ := hmarked.furthest mark hmark
      exact List.prefix_or_prefix_of_prefix (hfurthest a ha ⟨hwitness, hscid⟩)
        (hfurthest b hb ⟨rfl, rfl⟩)

/-! ## A witness of one DID -/

namespace WitnessSample

open Reference

/-- The version id of an entry. -/
def idOf (e : Json) : String := ((e.get "versionId").bind Json.asStr).getD ""

/-- An entry verifies after the version before it; there are two second versions.  The
parameters of the first entry stay in force. -/
def verifyLink (e : Json) (previous : Option (Json × Json)) : Except String Json :=
  match previous with
  | none =>
      if idOf e = "1-a" then .ok ((e.get "parameters").getD .null) else .error "hash mismatch"
  | some (p, params) =>
      if idOf p = "1-a" ∧ (idOf e = "2-b" ∨ idOf e = "2-c") then .ok params
      else .error "hash mismatch"

/-- The reference libraries with these chains, for a DID whose first entry names its
witness. -/
abbrev chainLibs : WitnessLibs where
  toLibs := { libs with verifyLogEntry := verifyLink }
  deactivates _ := false
  scid _ := some "s"
  witnessIds params := ((params.get "witness").bind Json.asStr).map fun id => [id]

theorem verifyLink_first {e params : Json} (h : verifyLink e none = .ok params) :
    idOf e = "1-a" := by
  unfold verifyLink at h
  simp only at h
  split at h
  · assumption
  · contradiction

theorem verifyLink_next {e p params q : Json} (h : verifyLink e (some (p, q)) = .ok params) :
    idOf p = "1-a" ∧ (idOf e = "2-b" ∨ idOf e = "2-c") := by
  unfold verifyLink at h
  simp only at h
  split at h
  · assumption
  · contradiction

/-- A verified chain has at most one version after the first. -/
theorem versionIds_cases {states : List (LogEntryState chainLibs.toLibs)}
    (h : Verified chainLibs.toLibs none states) :
    versionIds states = [] ∨ ∃ rest, versionIds states = "1-a" :: rest ∧ rest.length ≤ 1 := by
  match states, h with
  | [], _ => exact Or.inl rfl
  | [e], ⟨he, _⟩ =>
      have hid : versionIds [e] = [idOf e.logEntry] := rfl
      rw [hid, verifyLink_first he]
      exact Or.inr ⟨[], rfl, Nat.zero_le 1⟩
  | [e, f], ⟨he, _, _⟩ =>
      have hid : versionIds [e, f] = [idOf e.logEntry, idOf f.logEntry] := rfl
      rw [hid, verifyLink_first he]
      exact Or.inr ⟨[idOf f.logEntry], rfl, Nat.le_refl 1⟩
  | _ :: f :: g :: _, ⟨_, hf, hg, _⟩ =>
      have hfirst := (verifyLink_next hg).1
      rcases (verifyLink_next hf).2 with hsecond | hsecond <;>
        exact absurd (hfirst.symm.trans hsecond) (by decide)

theorem commits : CommitsToPrefix chainLibs.toLibs := by
  intro states states' h h' i v hi hi'
  rcases versionIds_cases h with hnil | ⟨rest, hids, hshort⟩
  · rw [hnil] at hi
    contradiction
  rcases versionIds_cases h' with hnil | ⟨rest', hids', hshort'⟩
  · rw [hnil] at hi'
    contradiction
  rw [hids] at hi ⊢
  rw [hids'] at hi' ⊢
  rcases i with _ | _ | i
  · rfl
  · -- the second version is the last of both
    rw [List.getElem?_cons_succ] at hi hi'
    match rest, rest' with
    | [w], [w'] =>
        cases hi
        cases hi'
        rfl
  · rw [List.getElem?_cons_succ, List.getElem?_eq_none (by omega)] at hi
    contradiction

def witnessId : WitnessId := ⟨"z6Mk", by decide⟩

def record : WitnessRecord := ⟨witnessId, "did:key:z6Mk", "z3u2", 0⟩

/-- The witness has one identity. -/
def witnesses : Table WitnessId WitnessRecord := AList.insert witnessId record ∅

def version (id : String) (parameters : Json) : Json :=
  .obj [("versionId", .str id), ("parameters", parameters),
    ("state", .obj [("id", .str "did:webvh:s:h")])]

/-- The first version, which names the witness. -/
def first : Json := version "1-a" (.obj [("witness", .str "z6Mk")])

/-- A second version, and another one. -/
def second : Json := version "2-b" (.obj [])

def forked : Json := version "2-c" (.obj [])

/-- A request to witness the first version. -/
def request : SignRequest := ⟨witnessId, "1-a", logOf [first]⟩

/-- A request to witness a second version. -/
def nextRequest : SignRequest := ⟨witnessId, "2-b", logOf [first, second]⟩

def forkRequest : SignRequest := ⟨witnessId, "2-c", logOf [first, forked]⟩

theorem wellFormed_versions : ∀ e ∈ [first, second, forked], WellFormed e := by
  have hlines : ∀ e ∈ [first, second, forked],
      ('\n' ∉ printValue e ∧ '\r' ∉ printValue e) ∧
        trimChars (printValue e) = printValue e := by
    decide +kernel
  have hparses : ∀ e ∈ [first, second, forked],
      parseValue (printValue e).length (printValue e) = some (e, []) := by
    simp only [List.forall_mem_cons, List.not_mem_nil]
    exact ⟨rfl, rfl, rfl, nofun⟩
  exact fun e he => ⟨(hlines e he).1, (hlines e he).2, hparses e he⟩

theorem webvh_did : startsWith "did:webvh:" "did:webvh:s:h" = true := by
  decide +kernel

def document : Json := .obj [("id", .str "did:webvh:s:h")]

theorem validLog_first : ValidLog [first] "did:webvh:s:h" document where
  wellFormed e he := wellFormed_versions e (List.mem_of_mem_take (i := 1) he)
  short := by decide
  chain := rfl
  last := rfl
  did_eq := rfl
  webvh := webvh_did

theorem validLog_second : ValidLog [first, second] "did:webvh:s:h" document where
  wellFormed e he := wellFormed_versions e (List.mem_of_mem_take (i := 2) he)
  short := by decide
  chain := rfl
  last := rfl
  did_eq := rfl
  webvh := webvh_did

theorem validLog_forked : ValidLog [first, forked] "did:webvh:s:h" document where
  wellFormed e he := wellFormed_versions e (List.mem_of_mem_eraseIdx (i := 1) he)
  short := by decide
  chain := rfl
  last := rfl
  did_eq := rfl
  webvh := webvh_did

section Reads

variable (L : Libs)
  (verify : L.LogEntry → Option (L.LogEntry × L.Parameters) → Except String L.Parameters)

theorem validateLines_eq (idx : ℕ) (ls : List String) :
    validateLines { L with verifyLogEntry := verify } idx ls = validateLines L idx ls := by
  induction ls generalizing idx with
  | nil => rfl
  | cons l ls ih =>
      rw [validateLines, validateLines]
      by_cases hblank : isBlank l = true
      · rw [if_pos hblank, if_pos hblank, ih]
      · rw [if_neg hblank, if_neg hblank]
        dsimp only
        cases L.deserializeString (trim l) none with
        | error e => rfl
        | ok e => exact ih (idx + 1)

theorem validateDidJsonl_eq (content : String) :
    validateDidJsonl { L with verifyLogEntry := verify } content = validateDidJsonl L content := by
  unfold validateDidJsonl
  rw [validateLines_eq]
  rfl

theorem parseEntries_eq (idx : ℕ) (version : Option L.Version) (ls : List String) :
    parseEntries { L with verifyLogEntry := verify } idx version ls =
      parseEntries L idx version ls := by
  induction ls generalizing idx version with
  | nil => rfl
  | cons l ls ih =>
      rw [parseEntries, parseEntries]
      by_cases hblank : isBlank l = true
      · rw [if_pos hblank, if_pos hblank, ih]
      · rw [if_neg hblank, if_neg hblank]
        dsimp only
        cases L.deserializeString (trim l) version with
        | error e => rfl
        | ok e =>
            dsimp only
            cases L.versionNumber e with
            | error err => rfl
            | ok n => exact congrArg (· >>= _) (ih (idx + 1) (some (L.webvhVersion e)))

end Reads

/-- The entries of a log in order are read back. -/
theorem reads {es : List Json} {did : String} {state : Json} (h : ValidLog es did state) :
    validateDidJsonl chainLibs.toLibs (logOf es) = .ok () ∧
      ∃ pairs, parseEntries chainLibs.toLibs 0 none (lines (logOf es)) = .ok pairs ∧
        pairs.map Prod.fst = es := by
  refine ⟨(validateDidJsonl_eq libs verifyLink _).trans h.validateDidJsonl_eq, ?_⟩
  obtain ⟨pairs, -, hpairs, hfst, -⟩ :=
    parseEntries_map_print h.wellFormed 0 none none h.chain
  refine ⟨pairs, ?_, hfst⟩
  rw [lines_logOf h.wellFormed]
  exact (parseEntries_eq libs verifyLink _ _ _).trans hpairs

theorem verify_first :
    verifyLogForWitnessing chainLibs (logOf [first]) "1-a" "did:key:z6Mk" = .ok ⟨"s", ["1-a"]⟩ := by
  obtain ⟨hvalid, pairs, hparse, hfst⟩ := reads validLog_first
  rw [verifyLogForWitnessing, hvalid, hparse]
  match pairs, hfst with
  | [(_, _)], rfl => rfl

theorem verify_second :
    verifyLogForWitnessing chainLibs (logOf [first, second]) "2-b" "did:key:z6Mk" =
      .ok ⟨"s", ["1-a", "2-b"]⟩ := by
  obtain ⟨hvalid, pairs, hparse, hfst⟩ := reads validLog_second
  rw [verifyLogForWitnessing, hvalid, hparse]
  match pairs, hfst with
  | [(_, _), (_, _)], rfl => rfl

theorem verify_forked :
    verifyLogForWitnessing chainLibs (logOf [first, forked]) "2-c" "did:key:z6Mk" =
      .ok ⟨"s", ["1-a", "2-c"]⟩ := by
  obtain ⟨hvalid, pairs, hparse, hfst⟩ := reads validLog_forked
  rw [verifyLogForWitnessing, hvalid, hparse]
  match pairs, hfst with
  | [(_, _), (_, _)], rfl => rfl

theorem valid_ids : isValidVersionId "1-a" = true ∧ isValidVersionId "2-b" = true := by
  decide +kernel

theorem mark_first : (SignRun.initial witnesses).store.mark witnessId "s" = none := by
  unfold WitnessStore.mark SignRun.initial
  exact AList.lookup_empty _

theorem extends_first : extendsMark ((SignRun.initial witnesses).store.mark witnessId "s")
    ⟨"s", ["1-a"]⟩ = true := by
  rw [mark_first]
  rfl

/-- The witness after the first request. -/
def servedFirst : SignRun := (SignRun.initial witnesses).answered request record ⟨"s", ["1-a"]⟩

/-- The record with one proof counted. -/
def counted : WitnessRecord := { record with proofsSigned := 1 }

theorem servedFirst_record : servedFirst.store.witnesses.lookup witnessId = some counted :=
  AList.lookup_insert _

theorem servedFirst_mark : servedFirst.store.mark witnessId "s" = some ⟨1, "1-a"⟩ := by
  have hmark : servedFirst.store.marks =
      SignRun.nextMarks ∅ ⟨request, ⟨"s", ["1-a"]⟩, none, .counted⟩ := by
    rw [← mark_first]
    rfl
  rw [WitnessStore.mark, hmark]
  exact AList.lookup_insert _

/-- The witness after two requests. -/
def servedSecond : SignRun := servedFirst.answered nextRequest counted ⟨"s", ["1-a", "2-b"]⟩

theorem servedSecond_record : servedSecond.store.witnesses.lookup witnessId =
    some { record with proofsSigned := 2 } :=
  AList.lookup_insert _

theorem servedSecond_mark : servedSecond.store.mark witnessId "s" = some ⟨2, "2-b"⟩ := by
  have hmark : servedSecond.store.marks = SignRun.nextMarks servedFirst.store.marks
      ⟨nextRequest, ⟨"s", ["1-a", "2-b"]⟩, some ⟨1, "1-a"⟩, .counted⟩ := by
    rw [← servedFirst_mark]
    rfl
  rw [WitnessStore.mark, hmark]
  exact AList.lookup_insert _

theorem exec_request : Run.exec (SignRun.step chainLibs) (.initial witnesses)
    (SignRun.signTask request ⟨"s", ["1-a"]⟩) = servedFirst := by
  have hrecord : (SignRun.initial witnesses).store.witnesses.lookup request.witnessId =
      some record := AList.lookup_insert _
  exact SignRun.exec_signTask hrecord verify_first rfl valid_ids.1 extends_first

/-- Two versions are witnessed, and the other second version is asked for. -/
def requests : List SignEvent :=
  SignRun.signTask request ⟨"s", ["1-a"]⟩ ++ SignRun.signTask nextRequest ⟨"s", ["1-a", "2-b"]⟩ ++
    SignRun.signTask forkRequest ⟨"s", ["1-a", "2-c"]⟩

/-- The witness after the requests. -/
def served : SignRun :=
  Run.exec (SignRun.step chainLibs) (.initial witnesses) requests

theorem served_eq : served = servedSecond := by
  have hnext : Run.exec (SignRun.step chainLibs) servedFirst
      (SignRun.signTask nextRequest ⟨"s", ["1-a", "2-b"]⟩) = servedSecond := by
    refine SignRun.exec_signTask servedFirst_record verify_second rfl valid_ids.2 ?_
    change extendsMark (servedFirst.store.mark witnessId "s") _ = true
    rw [servedFirst_mark]
    rfl
  rw [served, requests, Run.exec_append, Run.exec_append, exec_request, hnext]
  refine SignRun.exec_refused servedSecond_record verify_forked rfl ?_
  change extendsMark (servedSecond.store.mark witnessId "s") _ = false
  rw [servedSecond_mark]
  decide

theorem served_released : served.released =
    [⟨witnessId, "1-a", "s", ["1-a"]⟩, ⟨witnessId, "2-b", "s", ["1-a", "2-b"]⟩] := by
  rw [served_eq]
  rfl

end WitnessSample

open WitnessSample in
/-- Two versions of a DID are witnessed, and a fork of the second one is not. -/
theorem witness_never_equivocates_forked :
    SignRun.Marked (served.store.mark witnessId "s") served.released witnessId "s" ∧
      served.released =
        [⟨witnessId, "1-a", "s", ["1-a"]⟩, ⟨witnessId, "2-b", "s", ["1-a", "2-b"]⟩] ∧
      ∀ a ∈ served.released, ∀ b ∈ served.released, a.witnessId = b.witnessId →
        a.witnessed.scid = b.witnessed.scid →
          a.witnessed.versionIds <+: b.witnessed.versionIds ∨
            b.witnessed.versionIds <+: a.witnessed.versionIds := by
  obtain ⟨hchain, hmarked, -⟩ := witness_never_equivocates chainLibs commits witnesses requests
  exact ⟨hmarked witnessId "s", served_released, hchain⟩

end DidHosting
