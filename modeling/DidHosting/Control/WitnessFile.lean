import DidHosting.Common.Chain
import DidHosting.Control.Linear

/-!
# The witness file of a slot

An upload adds one proof to the file, under the path guard of the slot: into the first
entry of its version, or as a new entry.  Uploads that overlap in any way leave every
proof that was accepted, under its version, and every entry of another version as it was.
-/

namespace DidHosting

/-! ## Entries -/

/-- The version an entry of the file, or an upload, is about. -/
def entryVersion (e : Json) : Option String :=
  (e.get "versionId").bind Json.asStr

def entryProofs (e : Json) : List Json :=
  ((e.get "proof").bind Json.asArray).getD []

/-- The proofs of a file for one version, over all its entries for it. -/
def proofsFor (versionId : String) (entries : List Json) : List Json :=
  (entries.filter fun e => entryVersion e = some versionId).flatMap entryProofs

/-- The version and the proof of an upload. -/
def uploadedProof (witnessEntry : Json) : Option (String × Json) :=
  match entryVersion witnessEntry, witnessEntry.get "proof" with
  | some versionId, some proof => some (versionId, proof)
  | _, _ => none

/-- The proof of an upload, if it is one for this version. -/
def proofOf (versionId : String) (witnessEntry : Json) : Option Json :=
  (uploadedProof witnessEntry).bind fun u => if u.1 = versionId then some u.2 else none

/-- The file after an upload has been merged into it. -/
def mergeUpload (entries : List Json) (witnessEntry : Json) : List Json :=
  match uploadedProof witnessEntry with
  | some (versionId, proof) => mergeProof versionId proof entries
  | none => entries

section AddProof

variable {e proof : Json} {versionId : String}

theorem eq_obj_of_entryVersion (h : entryVersion e = some versionId) :
    ∃ members, e = .obj members := by
  cases e with
  | obj members => exact ⟨members, rfl⟩
  | _ => simp [entryVersion, Json.get] at h

theorem addProof_obj (proof : Json) (members : List (String × Json)) :
    addProof proof (.obj members) =
      .obj (Json.setMember "proof" (.arr (entryProofs (.obj members) ++ [proof])) members) := by
  cases hproof : (Json.obj members).get "proof" with
  | none => simp [addProof, entryProofs, hproof]
  | some v => cases v <;> simp [addProof, entryProofs, hproof, Json.asArray]

theorem entryVersion_addProof (h : entryVersion e = some versionId) :
    entryVersion (addProof proof e) = some versionId := by
  obtain ⟨members, rfl⟩ := eq_obj_of_entryVersion h
  rw [addProof_obj, ← h]
  unfold entryVersion
  rw [Json.get_setMember_ne (by decide)]

theorem entryProofs_addProof (h : entryVersion e = some versionId) :
    entryProofs (addProof proof e) = entryProofs e ++ [proof] := by
  obtain ⟨members, rfl⟩ := eq_obj_of_entryVersion h
  rw [addProof_obj]
  conv_lhs => unfold entryProofs
  rw [Json.get_setMember_self]
  rfl

end AddProof

/-! ## Merging -/

section Merge

variable {versionId : String} {proof : Json}

/-- The entry that opens a version's part of the file. -/
theorem entry_new : entryVersion (.obj [("proof", .arr [proof]), ("versionId", .str versionId)]) =
      some versionId ∧
    entryProofs (.obj [("proof", .arr [proof]), ("versionId", .str versionId)]) = [proof] :=
  ⟨rfl, rfl⟩

theorem mergeProof_found {e : Json} (he : entryVersion e = some versionId) (rest : List Json) :
    mergeProof versionId proof (e :: rest) = addProof proof e :: rest :=
  if_pos he

theorem mergeProof_other {e : Json} (he : ¬ entryVersion e = some versionId)
    (rest : List Json) :
    mergeProof versionId proof (e :: rest) = e :: mergeProof versionId proof rest :=
  if_neg he

/-- A merge leaves the entries of other versions. -/
theorem filter_mergeProof {q : Option String → Bool} (hq : q (some versionId) = false)
    (entries : List Json) :
    (mergeProof versionId proof entries).filter (fun e => q (entryVersion e)) =
      entries.filter fun e => q (entryVersion e) := by
  induction entries with
  | nil =>
      rw [mergeProof, List.filter_cons_of_neg (by rw [entry_new.1, hq]; decide)]
  | cons e rest ih =>
      by_cases he : entryVersion e = some versionId
      · have hadd : entryVersion (addProof proof e) = some versionId := entryVersion_addProof he
        rw [mergeProof_found he, List.filter_cons_of_neg (by rw [hadd, hq]; decide),
          List.filter_cons_of_neg (by rw [he, hq]; decide)]
      · rw [mergeProof_other he, List.filter_cons, List.filter_cons, ih]

theorem proofsFor_mergeProof_self (entries : List Json) :
    (proofsFor versionId (mergeProof versionId proof entries)).Perm
      (proof :: proofsFor versionId entries) := by
  induction entries with
  | nil =>
      unfold proofsFor
      rw [mergeProof, List.filter_cons_of_pos (by rw [entry_new.1]; simp), List.filter_nil,
        List.flatMap_cons, entry_new.2]
      exact List.Perm.refl _
  | cons e rest ih =>
      by_cases he : entryVersion e = some versionId
      · have hadd : entryVersion (addProof proof e) = some versionId := entryVersion_addProof he
        unfold proofsFor
        rw [mergeProof_found he, List.filter_cons_of_pos (by simpa using hadd),
          List.filter_cons_of_pos (by simpa using he), List.flatMap_cons, List.flatMap_cons,
          entryProofs_addProof he, List.append_assoc]
        exact List.perm_middle
      · rw [mergeProof_other he]
        unfold proofsFor at ih ⊢
        rwa [List.filter_cons_of_neg (by simpa using he),
          List.filter_cons_of_neg (by simpa using he)]

theorem proofsFor_mergeProof_ne {other : String} (hne : versionId ≠ other) (entries : List Json) :
    proofsFor other (mergeProof versionId proof entries) = proofsFor other entries := by
  have hfilter := @filter_mergeProof versionId proof (fun v => decide (v = some other))
    (by simpa using hne) entries
  unfold proofsFor
  exact congrArg (List.flatMap entryProofs) hfilter

end Merge

theorem proofsFor_mergeUpload (versionId : String) (entries : List Json) (witnessEntry : Json) :
    (proofsFor versionId (mergeUpload entries witnessEntry)).Perm
      (proofsFor versionId entries ++ (proofOf versionId witnessEntry).toList) := by
  unfold mergeUpload proofOf
  rcases uploadedProof witnessEntry with _ | ⟨v, proof⟩
  · simp
  · by_cases hv : v = versionId
    · subst hv
      simp only [Option.bind_some, if_pos, Option.toList_some]
      exact (proofsFor_mergeProof_self entries).trans (List.perm_append_singleton _ _).symm
    · simp [hv, proofsFor_mergeProof_ne hv]

/-- Any number of uploads, merged one after the other, add their proofs. -/
theorem proofsFor_foldl_mergeUpload (versionId : String) (uploads entries : List Json) :
    (proofsFor versionId (uploads.foldl mergeUpload entries)).Perm
      (proofsFor versionId entries ++ uploads.filterMap (proofOf versionId)) := by
  induction uploads generalizing entries with
  | nil => simp
  | cons u uploads ih =>
      refine (ih (mergeUpload entries u)).trans ?_
      refine ((proofsFor_mergeUpload versionId entries u).append_right _).trans ?_
      rw [List.append_assoc]
      cases hp : proofOf versionId u with
      | none => simp [hp]
      | some p => simp [hp]

/-- The entries of versions no upload names stay as they are. -/
theorem filter_foldl_mergeUpload {uploads : List Json} (entries : List Json)
    {q : Option String → Bool} (hq : ∀ u ∈ uploads, q (entryVersion u) = false) :
    (uploads.foldl mergeUpload entries).filter (fun e => q (entryVersion e)) =
      entries.filter fun e => q (entryVersion e) := by
  induction uploads generalizing entries with
  | nil => rfl
  | cons u uploads ih =>
      rw [List.foldl_cons, ih _ fun w hw => hq w (List.mem_cons_of_mem _ hw)]
      have hu := hq u List.mem_cons_self
      unfold mergeUpload uploadedProof
      cases hv : entryVersion u with
      | none => rfl
      | some v =>
          rw [hv] at hu
          cases u.get "proof" with
          | none => rfl
          | some proof => exact filter_mergeProof hu entries

/-! ## Uploads -/

/-- The witness file of a slot, as the next upload reads it. -/
def storedEntries (L : Libs) (s : ControlStore) (mnemonic : String) : List Json :=
  witnessEntries L (s.witness mnemonic)

/-- The JSON library reads back the text it has written for a list. -/
def WrittenBack (L : Libs) (entries : List Json) : Prop :=
  L.fromStr (L.toJsonString (.arr entries)) = .ok (.arr entries)

variable {A : AppState} {auth : AuthClaims} {mnemonic : String} {witnessEntry : Json}
  {s t : ControlStore}

/-- An authorised upload with a proof that verifies plans the merged file. -/
theorem uploadWitnessPlan_yields {m v c : String} {x p : Json} {r : DidRecord}
    (hrec : s.record m = some r)
    (hauth : authorized auth r = true) (hupload : uploadedProof x = some (v, p))
    (hlog : s.log m = some c)
    (hverify : verifyWitnessProofForVersion A.libs c v p = .ok ()) :
    (uploadWitnessPlan A auth m x).Yields {s}
      (some [.insertWitness m (A.libs.toJsonString
        (.arr (mergeUpload (storedEntries A.libs s m) x)))], ()) := by
  have hversion : entryVersion x = some v ∧ x.get "proof" = some p := by
    unfold uploadedProof at hupload
    split at hupload
    · rename_i hv hp
      cases hupload
      exact ⟨hv, hp⟩
    · cases hupload
  unfold uploadWitnessPlan mergeUpload
  simp only [Query.yields_bind, yields_getAuthorizedRecord, Query.yields_read, Query.yields_okOr,
    Query.yields_ofExcept, Query.yields_pure, Set.mem_singleton_iff]
  refine ⟨r, ⟨⟨s, rfl, hrec⟩, hauth⟩, v, hversion.1, p, hversion.2, _, ⟨s, rfl, rfl⟩, c, hlog, (),
    ?_, _, ⟨s, rfl, rfl⟩, ?_⟩
  · rw [hverify]
  · rw [hupload]
    rfl

/-- An upload that returns named a proof, and has stored the file with it merged in. -/
theorem uploadWitness_run {u : Unit}
    (h : (uploadWitness A auth mnemonic witnessEntry).run s = (.ok u, t)) :
    (uploadedProof witnessEntry).isSome = true ∧ t.witness mnemonic = some (A.libs.toJsonString
      (.arr (mergeUpload (storedEntries A.libs s mnemonic) witnessEntry))) := by
  unfold uploadWitness at h
  cases hpath : validateMnemonic mnemonic with
  | error e =>
      rw [hpath] at h
      cases h
  | ok u' =>
      rw [hpath, Prog.run_check_bind_ok _ u' rfl, Prog.run_planned] at h
      rcases hplan : (uploadWitnessPlan A auth mnemonic witnessEntry).eval s with e | ⟨w, u''⟩
      · rw [hplan] at h
        cases h
      · have hyields := Query.eval_eq_ok_iff.mp hplan
        unfold uploadWitnessPlan at hyields
        simp only [Query.yields_bind, Query.yields_read, Query.yields_okOr, Query.yields_ofExcept,
          Query.yields_pure, Set.mem_singleton_iff] at hyields
        obtain ⟨-, -, versionId, hversion, proof, hproof, -, -, -, -, -, -, -, ⟨s', rfl, rfl⟩,
          hw⟩ := hyields
        obtain ⟨rfl, -⟩ := Prod.mk.injEq .. ▸ hw
        rw [hplan] at h
        obtain rfl := congrArg Prod.snd h
        have hupload : uploadedProof witnessEntry = some (versionId, proof) := by
          unfold uploadedProof entryVersion
          rw [hversion, hproof]
        unfold mergeUpload
        rw [hupload]
        exact ⟨rfl, AList.lookup_insert _⟩

/-! ## Uploads that overlap -/

section Overlap

variable {ι : Type} {uploads : ι → AuthClaims × Json}

/-- The uploads of one slot, as threads. -/
def uploadThreads (A : AppState) (mnemonic : String) (uploads : ι → AuthClaims × Json) (i : ι) :
    ControlM Unit :=
  uploadWitness A (uploads i).1 mnemonic (uploads i).2

/-- One upload after the other, each of which returns: the file holds what they merge. -/
theorem storedEntries_sequential {order : List ι}
    (hreturned : ∀ before i after, order = before ++ i :: after →
      ∃ u, ((uploadThreads A mnemonic uploads i).run
        (Machine.sequential (uploadThreads A mnemonic uploads) s before)).1 = .ok u)
    (hread : ∀ before, before <+: order →
      WrittenBack A.libs ((before.map fun i => (uploads i).2).foldl mergeUpload
        (storedEntries A.libs s mnemonic))) :
    storedEntries A.libs (Machine.sequential (uploadThreads A mnemonic uploads) s order) mnemonic =
      (order.map fun i => (uploads i).2).foldl mergeUpload (storedEntries A.libs s mnemonic) := by
  induction order using List.reverseRecOn with
  | nil => rfl
  | append_singleton order i ih =>
      have hbefore := ih
        (fun before j after h => hreturned before j (after ++ [i]) (by rw [h]; simp))
        (fun before h => hread before (h.trans (List.prefix_append _ _)))
      obtain ⟨u, hu⟩ := hreturned order i [] rfl
      have ⟨_, hfile⟩ := uploadWitness_run (u := u) (t := Machine.sequential
        (uploadThreads A mnemonic uploads) s (order ++ [i])) (Prod.ext hu (by
          unfold Machine.sequential
          rw [Run.exec_append, Run.exec_cons, Run.exec_nil]
          rfl))
      have hback := hread (order ++ [i]) (List.prefix_refl _)
      rw [List.map_append, List.foldl_append] at hback ⊢
      rw [hbefore] at hfile
      unfold storedEntries witnessEntries
      rw [hfile, Option.bind_some]
      exact congrArg (fun x => (x.toOption.bind Json.asArray).getD []) hback

variable [DecidableEq ι]

/-- Uploads to one slot, in any store and in any interleaving: when none is under way,
the file holds for each version the proofs it held and those of the uploads that
succeeded, and the entries of the other versions are as they were. -/
theorem witness_proofs_kept (A : AppState) (s : ControlStore) (mnemonic : String)
    (uploads : ι → AuthClaims × Json) (schedule : List ι)
    (hread : ∀ order : List ι, order.Nodup →
      WrittenBack A.libs ((order.map fun i => (uploads i).2).foldl mergeUpload
        (storedEntries A.libs s mnemonic))) :
    let m := Run.exec Machine.step
      (Machine.start s (uploadThreads A mnemonic uploads)) schedule
    (∀ i, ¬ m.Active i) →
    ∃ accepted : List ι, accepted.Nodup ∧ (∀ i, i ∈ accepted ↔ m.Succeeded i) ∧
      (∀ i ∈ accepted, (uploadedProof (uploads i).2).isSome = true) ∧
      (∀ versionId, (proofsFor versionId (storedEntries A.libs m.store mnemonic)).Perm
        (proofsFor versionId (storedEntries A.libs s mnemonic) ++
          accepted.filterMap fun i => proofOf versionId (uploads i).2)) ∧
      let others := fun e => accepted.all fun i => entryVersion (uploads i).2 ≠ entryVersion e
      (storedEntries A.libs m.store mnemonic).filter others =
        (storedEntries A.libs s mnemonic).filter others := by
  intro m hidle
  let op (i : ι) : Op := .uploadWitness (uploads i).1 mnemonic (uploads i).2
  obtain ⟨order, hserial⟩ :
      ∃ order, Machine.Serial (uploadThreads A mnemonic uploads) s m order :=
    Machine.serial_exec (fun i (_ : True) => @guarded_prog A (op i) mnemonic rfl rfl)
      (fun i => failed_unchanged A (op i))
      (Run.meets_of_forall fun _ _ _ _ _ => ⟨trivial, trivial⟩)
  have hstore : m.store = Machine.sequential (uploadThreads A mnemonic uploads) s order :=
    hserial.idle hidle
  have hfile : storedEntries A.libs m.store mnemonic =
      (order.map fun i => (uploads i).2).foldl mergeUpload (storedEntries A.libs s mnemonic) := by
    rw [hstore]
    exact storedEntries_sequential hserial.returned
      fun before h => hread before (hserial.nodup.sublist h.sublist)
  refine ⟨order, hserial.nodup, hserial.succeeded, ?_, ?_, ?_⟩
  · intro i hi
    obtain ⟨before, after, horder⟩ := List.append_of_mem hi
    obtain ⟨u, hu⟩ := hserial.returned before i after horder
    exact (uploadWitness_run (Prod.ext hu rfl)).1
  · intro versionId
    rw [hfile]
    refine (proofsFor_foldl_mergeUpload versionId _ _).trans ?_
    rw [List.filterMap_map]
    exact List.Perm.refl _
  · intro others
    rw [hfile]
    refine filter_foldl_mergeUpload (storedEntries A.libs s mnemonic)
      (q := fun v => order.all fun i => entryVersion (uploads i).2 ≠ v) ?_
    intro u hu
    obtain ⟨i, hi, rfl⟩ := List.mem_map.mp hu
    rw [List.all_eq_false]
    exact ⟨i, hi, by simp⟩

end Overlap

section Samples

open Reference

/-- The reference deployment with two witnesses in force. -/
def witnessed : AppState :=
  ⟨{ libs with
      activeWitnesses := fun _ => some ["did:key:a", "did:key:b"]
      proofVerificationMethod := fun proof =>
        match (proof.get "verificationMethod").bind Json.asStr with
        | some method => .ok method
        | none => .error "missing verificationMethod"
      validateWitnessProof := fun _ _ => .ok () }, control.config⟩

/-- The proof a witness makes of a version. -/
def proofBy (key : String) : Json :=
  .obj [("verificationMethod", .str key)]

/-- The file before the uploads: a proof of the second version. -/
def secondProof : Json :=
  .obj [("proof", .arr [proofBy "did:key:a"]), ("versionId", .str "2-b")]

/-- The record of slot `al`. -/
def witnessedRecord : DidRecord :=
  emptyRecord admin "al" none 1

/-- Slot `al` with its first version. -/
def publishedAl : ControlStore :=
  WriteBatch.commit ([.insertDid "al" witnessedRecord, .insertLog "al" (logOf [al1]),
    .insertWitness "al" (print (.arr [secondProof]))] : Batch) fresh

def witnessKey : Bool → String
  | false => "did:key:a"
  | true => "did:key:b"

/-- The proofs of two witnesses for the first version. -/
def uploadAl (i : Bool) : AuthClaims × Json :=
  (admin, .obj [("proof", proofBy (witnessKey i)), ("versionId", .str "1-a")])

theorem validateDidJsonl_witnessed (text : String) :
    validateDidJsonl witnessed.libs text = .ok () ↔ validateDidJsonl libs text = .ok () := by
  have hsame : extractDidId witnessed.libs text = extractDidId libs text := rfl
  rw [validateDidJsonl_ok_iff, validateDidJsonl_ok_iff, hsame]
  exact Iff.rfl

theorem verify_proofBy (i : Bool) :
    verifyWitnessProofForVersion witnessed.libs (logOf [al1]) "1-a" (proofBy (witnessKey i)) =
      .ok () := by
  have hvalid : validateDidJsonl witnessed.libs (logOf [al1]) = .ok () :=
    (validateDidJsonl_witnessed _).mpr validLog_al1.validateDidJsonl_eq
  have hentry : ∀ {e : Json}, WellFormed e →
      witnessed.libs.deserializeString (print e) none = .ok e := fun h => h.parse_print
  have hlines : Text.trimmedLines (logOf [al1]) = [print al1] :=
    logEntries_logOf validLog_al1.wellFormed
  have hchain : parseAndVerifyChain witnessed.libs (logOf [al1]) = .ok [⟨al1, 1, .obj []⟩] := by
    refine parseAndVerifyChain_ok_iff.mpr ⟨hvalid, ⟨rfl, trivial⟩, ?_⟩
    rw [hlines]
    exact ⟨hentry wellFormed_al1, by decide +kernel, trivial⟩
  have hmethod : witnessed.libs.proofVerificationMethod (proofBy (witnessKey i)) =
      .ok (witnessKey i) := rfl
  rw [verifyWitnessProofForVersion, hmethod, hchain]
  cases i <;> rfl

theorem uploadAl_yields {s : ControlStore} (hrec : s.record "al" = some witnessedRecord)
    (hlog : s.log "al" = some (logOf [al1])) (i : Bool) :
    ∃ content, (uploadWitnessPlan witnessed (uploadAl i).1 "al" (uploadAl i).2).Yields {s}
      (some [.insertWitness "al" content], ()) :=
  ⟨_, uploadWitnessPlan_yields hrec rfl rfl hlog (verify_proofBy i)⟩

theorem storedEntries_publishedAl :
    storedEntries witnessed.libs publishedAl "al" = [secondProof] := by
  have hread : ∀ {text : String} {entries : List Json}, parse text = .ok (.arr entries) →
      witnessEntries witnessed.libs (some text) = entries :=
    fun h => congrArg (fun x => (x.toOption.bind Json.asArray).getD []) h
  have hparse : parse (print (.arr [secondProof])) = .ok (.arr [secondProof]) := by
    unfold parse print
    rw [String.toList_ofList]
    rfl
  exact hread hparse

set_option maxRecDepth 4000 in
/-- The file is read back in whatever order the uploads are merged. -/
theorem writtenBack_uploadAl (order : List Bool) (hnodup : order.Nodup) :
    WrittenBack witnessed.libs ((order.map fun i => (uploadAl i).2).foldl mergeUpload
      (storedEntries witnessed.libs publishedAl "al")) := by
  rw [storedEntries_publishedAl]
  change parse (print _) = _
  unfold parse print
  rw [String.toList_ofList]
  cases order with
  | nil => rfl
  | cons i order =>
      cases order with
      | nil => cases i <;> rfl
      | cons j order =>
          cases order with
          | nil => cases i <;> cases j <;> rfl
          | cons k order => cases i <;> cases j <;> cases k <;> simp at hnodup

/-- The guarantee for two uploads for one version, the second of which asks for the lock
while the first is under way. -/
theorem witness_proofs_kept_two :
    let m₀ := Machine.start publishedAl (uploadThreads witnessed "al" uploadAl)
    ∃ rest, let m := Run.exec Machine.step m₀ (false :: true :: rest)
      (m₀.step false).Active false ∧
      (∃ next, ((m₀.step false).thread true).prog = .lock "al" next) ∧ (∀ i, m.Succeeded i) ∧
      ∃ accepted : List Bool, accepted.Nodup ∧ (∀ i, i ∈ accepted ↔ m.Succeeded i) ∧
        (∀ i ∈ accepted, (uploadedProof (uploadAl i).2).isSome = true) ∧
        (∀ versionId, (proofsFor versionId (storedEntries witnessed.libs m.store "al")).Perm
          (proofsFor versionId (storedEntries witnessed.libs publishedAl "al") ++
            accepted.filterMap fun i => proofOf versionId (uploadAl i).2)) ∧
        let others := fun e => accepted.all fun i => entryVersion (uploadAl i).2 ≠ entryVersion e
        (storedEntries witnessed.libs m.store "al").filter others =
          (storedEntries witnessed.libs publishedAl "al").filter others := by
  intro m₀
  have hprog : ∀ i, (m₀.thread i).prog = Prog.planned (some "al")
      (uploadWitnessPlan witnessed (uploadAl i).1 "al" (uploadAl i).2) := by
    intro i
    change uploadWitness witnessed (uploadAl i).1 "al" (uploadAl i).2 = _
    rw [uploadWitness, validateMnemonic_al]
    rfl
  have hrec : publishedAl.record "al" = some witnessedRecord := AList.lookup_insert _
  have hlog : publishedAl.log "al" = some (logOf [al1]) := AList.lookup_insert _
  obtain ⟨_, hplan⟩ := uploadAl_yields hrec hlog false
  obtain ⟨first, hfirst, hactive, hwaits, -⟩ :=
    Machine.exec_contended (m := m₀) (i := false) (j := true) (by decide) (hprog false)
      (hprog true) (fun _ => rfl) hplan
  generalize hm₁ : Run.exec Machine.step m₀ (false :: true :: first) = m₁ at hfirst
  obtain ⟨_, hplan₁⟩ := @uploadAl_yields m₁.store (by rw [hfirst.store]; exact hrec)
    (by rw [hfirst.store]; exact hlog) true
  obtain ⟨second, hsecond, -⟩ := Machine.exec_alone (i := true)
    (by rw [hfirst.others true (by decide)]; exact hprog true) hfirst.free hplan₁
  have hall : ∀ i, (Run.exec Machine.step m₀ (false :: true :: first ++ second)).Succeeded i := by
    rw [Run.exec_append, hm₁]
    intro i
    cases i with
    | false =>
        unfold Machine.Succeeded
        rw [hsecond.others false (by decide)]
        exact hfirst.succeeded
    | true => exact hsecond.succeeded
  exact ⟨first ++ second, hactive, hwaits, hall, witness_proofs_kept witnessed
    publishedAl "al" uploadAl _ writtenBack_uploadAl fun i hi => (hall i).not_active hi⟩

end Samples

end DidHosting
