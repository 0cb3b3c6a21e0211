import DidHosting.Support.Scan
import DidHosting.Witness.Sign
import Mathlib.Data.String.Basic

/-!
# Deletion of witness identities

A delete removes the record of an identity and then the marks it has left, without the
sign lock.  A sign request that has read the record before writes it back, with its
counter, when it has signed.
-/

namespace DidHosting

open Text

/-! ## Deletes beside sign requests -/

/-- Where a delete is: the identity was found, its record was removed, or the marks are
listed and these are still to be removed. -/
inductive DeletePhase where
  | found
  | removed
  | listed (keys : List String)
deriving DecidableEq

/-- A `key_delete_task` under way. -/
structure Delete where
  witnessId : WitnessId
  phase : DeletePhase
deriving DecidableEq

/-- The keys of the marks of an identity. -/
def WitnessStore.markKeys (s : WitnessStore) (witnessId : WitnessId) : List String :=
  (Table.scan (startsWith ("witnessed:" ++ witnessId.text ++ String.singleton ':'))
    s.marks).map Prod.fst

/-- The sign requests, the deletes under way, and the identities whose delete has
completed. -/
structure KeyRun where
  sign : SignRun
  deletes : List Delete
  deleted : List WitnessId

/-- An access of a sign request, the check of a delete, or its next access. -/
inductive KeyEvent where
  | sign (e : SignEvent)
  | delete (witnessId : WitnessId)
  | advance (d : Delete)

namespace KeyRun

/-- The next access of `delete_witness`. -/
def advance (r : KeyRun) (d : Delete) : KeyRun :=
  match d.phase with
  | .found =>
      { r with
        sign := { r.sign with store := { r.sign.store with
          witnesses := r.sign.store.witnesses.erase d.witnessId } }
        deletes := ⟨d.witnessId, .removed⟩ :: r.deletes.erase d }
  | .removed =>
      { r with
        deletes := ⟨d.witnessId, .listed (r.sign.store.markKeys d.witnessId)⟩ ::
          r.deletes.erase d }
  | .listed (key :: keys) =>
      { r with
        sign := { r.sign with store := { r.sign.store with
          marks := r.sign.store.marks.erase key } }
        deletes := ⟨d.witnessId, .listed keys⟩ :: r.deletes.erase d }
  | .listed [] =>
      { r with deletes := r.deletes.erase d, deleted := d.witnessId :: r.deleted }

/-- One access.  A delete begins with the check that the identity is there. -/
def step (W : WitnessLibs) (r : KeyRun) : KeyEvent → KeyRun
  | .sign e => { r with sign := r.sign.step W e }
  | .delete witnessId =>
      if (r.sign.store.witnesses.lookup witnessId).isSome then
        { r with deletes := ⟨witnessId, .found⟩ :: r.deletes }
      else r
  | .advance d => if d ∈ r.deletes then r.advance d else r

theorem step_delete (W : WitnessLibs) (r : KeyRun) (witnessId : WitnessId) :
    r.step W (.delete witnessId) =
      if (r.sign.store.witnesses.lookup witnessId).isSome then
        { r with deletes := ⟨witnessId, .found⟩ :: r.deletes }
      else r := rfl

theorem step_advance (W : WitnessLibs) (r : KeyRun) (d : Delete) :
    r.step W (.advance d) = if d ∈ r.deletes then r.advance d else r := rfl

theorem exec_sign (W : WitnessLibs) (r : KeyRun) (events : List SignEvent) :
    Run.exec (step W) r (events.map .sign) =
      { r with sign := Run.exec (SignRun.step W) r.sign events } := by
  induction events generalizing r with
  | nil => rfl
  | cons e events ih =>
      rw [List.map_cons, Run.exec_cons, Run.exec_cons, ih]
      rfl

/-- `key_delete_task` without interruption, for an identity without marks. -/
def deleteTask (witnessId : WitnessId) : List KeyEvent :=
  [.delete witnessId, .advance ⟨witnessId, .found⟩, .advance ⟨witnessId, .removed⟩,
    .advance ⟨witnessId, .listed []⟩]

/-- The run after the record was removed and the delete has completed. -/
def afterDelete (r : KeyRun) (witnessId : WitnessId) : KeyRun :=
  { r with
    sign := { r.sign with store := { r.sign.store with
      witnesses := r.sign.store.witnesses.erase witnessId } }
    deleted := witnessId :: r.deleted }

theorem exec_deleteTask (W : WitnessLibs) {r : KeyRun} {witnessId : WitnessId}
    (hrecord : (r.sign.store.witnesses.lookup witnessId).isSome = true)
    (hmarks : r.sign.store.markKeys witnessId = []) (hidle : r.deletes = []) :
    Run.exec (step W) r (deleteTask witnessId) = r.afterDelete witnessId := by
  obtain ⟨sign, deletes, deleted⟩ := r
  cases hidle
  have hkeys : WitnessStore.markKeys { sign.store with
      witnesses := sign.store.witnesses.erase witnessId } witnessId = [] := hmarks
  unfold deleteTask
  rw [Run.exec_cons, step_delete, if_pos hrecord, Run.exec_cons, step_advance,
    if_pos List.mem_cons_self]
  unfold advance
  simp only [List.erase_cons_head]
  rw [Run.exec_cons, step_advance, if_pos List.mem_cons_self]
  unfold advance
  simp only [List.erase_cons_head, hkeys]
  rw [Run.exec_cons, step_advance, if_pos List.mem_cons_self]
  unfold advance
  simp only [List.erase_cons_head]
  rfl

/-- A delete of an identity with one mark, beside a request that goes on to its read when
the record is removed. -/
def deleteBeside (witnessId : WitnessId) (key : String) : List KeyEvent :=
  [.delete witnessId, .advance ⟨witnessId, .found⟩, .sign .readRecord,
    .advance ⟨witnessId, .removed⟩, .advance ⟨witnessId, .listed [key]⟩,
    .advance ⟨witnessId, .listed []⟩]

/-- The request finds no record and ends. -/
theorem exec_deleteBeside (W : WitnessLibs) {r : KeyRun} {s : Signing} {key : String}
    (hs : r.sign.signing = some s) (hphase : s.phase = .checked)
    (hrecord : (r.sign.store.witnesses.lookup s.request.witnessId).isSome = true)
    (hmarks : r.sign.store.markKeys s.request.witnessId = [key]) (hidle : r.deletes = []) :
    Run.exec (step W) r (deleteBeside s.request.witnessId key) =
      { r with
        sign := { r.sign with
          store := ⟨r.sign.store.witnesses.erase s.request.witnessId,
            r.sign.store.marks.erase key⟩
          signing := none }
        deleted := s.request.witnessId :: r.deleted } := by
  obtain ⟨⟨⟨witnesses, marks⟩, waiting, signing, released⟩, deletes, deleted⟩ := r
  obtain ⟨request, witnessed, mark, phase⟩ := s
  cases hs
  cases hphase
  cases hidle
  have hkeys : WitnessStore.markKeys ⟨witnesses.erase request.witnessId, marks⟩
      request.witnessId = [key] := hmarks
  have hread : SignRun.readRecord
      ⟨⟨witnesses.erase request.witnessId, marks⟩, waiting,
        some ⟨request, witnessed, mark, .checked⟩, released⟩
      ⟨request, witnessed, mark, .checked⟩ =
        ⟨⟨witnesses.erase request.witnessId, marks⟩, waiting, none, released⟩ := by
    unfold SignRun.readRecord
    dsimp only
    split
    · rw [AList.lookup_erase]
      rfl
    · rfl
  unfold deleteBeside
  rw [Run.exec_cons, step_delete, if_pos hrecord, Run.exec_cons, step_advance,
    if_pos List.mem_cons_self]
  unfold advance
  simp only [List.erase_cons_head]
  rw [Run.exec_cons, step, SignRun.step, Option.elim_some, hread, Run.exec_cons, step_advance,
    if_pos List.mem_cons_self]
  unfold advance
  simp only [List.erase_cons_head, hkeys]
  rw [Run.exec_cons, step_advance, if_pos List.mem_cons_self]
  unfold advance
  simp only [List.erase_cons_head]
  rw [Run.exec_cons, step_advance, if_pos List.mem_cons_self]
  unfold advance
  simp only [List.erase_cons_head]
  rfl

/-- A request that has read the record goes on beside a delete of its identity: the record
is back, and the proof is released. -/
theorem exec_resumed (W : WitnessLibs) {r : KeyRun} {s : Signing} {record : WitnessRecord}
    (hs : r.sign.signing = some s) (hphase : s.phase = .read record) (witnessId : WitnessId) :
    let t := Run.exec (step W) (r.afterDelete witnessId) [.sign .count, .sign .finish]
    t.deleted = witnessId :: r.deleted ∧
      t.sign.store.witnesses = (r.sign.store.witnesses.erase witnessId).insert record.witnessId
        { record with proofsSigned := record.proofsSigned + 1 } ∧
      t.sign.released =
        r.sign.released ++ [⟨s.request.witnessId, s.request.versionId, s.witnessed⟩] := by
  obtain ⟨⟨store, waiting, signing, released⟩, deletes, deleted⟩ := r
  obtain ⟨request, witnessed, mark, phase⟩ := s
  cases hs
  cases hphase
  exact ⟨rfl, rfl, rfl⟩

/-- A service with the given identities, each stored under its own id. -/
def initial (records : List WitnessRecord) : KeyRun :=
  ⟨.initial (records.foldl (fun t record => t.insert record.witnessId record) ∅), [], []⟩

/-- The request under the lock is past the read of the record. -/
def Signs (r : KeyRun) (witnessId : WitnessId) : Prop :=
  ∃ s, r.sign.signing = some s ∧ s.request.witnessId = witnessId ∧ s.phase ≠ .checked

/-- The condition on a step: the record of an identity is removed while no request for
it is between its read of the record and its end. -/
def Apart (r : KeyRun) : KeyEvent → Prop
  | .advance d => d.phase = .found → ¬ r.Signs d.witnessId
  | _ => True

/-- The record of the identity was removed by a delete. -/
def Gone (r : KeyRun) (witnessId : WitnessId) : Prop :=
  witnessId ∈ r.deleted ∨ ∃ d ∈ r.deletes, d.witnessId = witnessId ∧ d.phase ≠ .found

/-- What holds in a run that meets the condition. -/
structure Inv (r : KeyRun) : Prop where
  keyed : ∀ w record, r.sign.store.witnesses.lookup w = some record → record.witnessId = w
  read : ∀ s record, r.sign.signing = some s → s.phase = .read record →
    record.witnessId = s.request.witnessId
  gone : ∀ w, r.Gone w → r.sign.store.witnesses.lookup w = none ∧ ¬ r.Signs w

theorem keyed_foldl (records : List WitnessRecord) (t : Table WitnessId WitnessRecord)
    (ht : ∀ w record, t.lookup w = some record → record.witnessId = w) :
    ∀ w record, (records.foldl (fun t record => t.insert record.witnessId record) t).lookup w =
      some record → record.witnessId = w := by
  induction records generalizing t with
  | nil => exact ht
  | cons first records ih =>
      refine ih (t.insert first.witnessId first) fun w record hrecord => ?_
      rcases Table.lookup_insert_cases hrecord with ⟨rfl, rfl⟩ | hold
      · rfl
      · exact ht w record hold

theorem inv_initial (records : List WitnessRecord) : Inv (initial records) where
  keyed := keyed_foldl records ∅ fun _ _ h => nomatch h
  read := fun _ _ h => nomatch h
  gone := by
    rintro w (hdeleted | ⟨d, hd, -⟩)
    · exact absurd hdeleted List.not_mem_nil
    · exact absurd hd List.not_mem_nil

section Step

variable {r : KeyRun} (h : Inv r)

include h

/-- A change that leaves the records and the request under the lock alone. -/
theorem Inv.frame {sign : SignRun} (hwitnesses : sign.store.witnesses = r.sign.store.witnesses)
    (hsigning : sign.signing = r.sign.signing ∨ sign.signing = none) :
    Inv { r with sign := sign } := by
  have hheld : ∀ s, sign.signing = some s → r.sign.signing = some s := by
    intro s hs
    rcases hsigning with heq | hnone
    · rw [← heq, hs]
    · rw [hs] at hnone
      contradiction
  refine ⟨?_, fun s record hs => h.read s record (hheld s hs), ?_⟩
  · change ∀ w record, sign.store.witnesses.lookup w = some record → _
    rw [hwitnesses]
    exact h.keyed
  · intro w hgone
    obtain ⟨hnone, hsigns⟩ := h.gone w hgone
    refine ⟨?_, ?_⟩
    · change sign.store.witnesses.lookup w = none
      rw [hwitnesses, hnone]
    · rintro ⟨s, hs, hw, hphase⟩
      exact hsigns ⟨s, hheld s hs, hw, hphase⟩

theorem Inv.enter (request : SignRequest) (witnessed : WitnessedLog) :
    Inv { r with sign := r.sign.enter request witnessed } := by
  unfold SignRun.enter
  split
  · have hchecked : ∀ s, (if extendsMark (r.sign.store.mark request.witnessId witnessed.scid)
        witnessed = true then some (⟨request, witnessed,
          r.sign.store.mark request.witnessId witnessed.scid, .checked⟩ : Signing) else none) =
        some s → s.phase = .checked := by
      intro s hs
      split at hs
      · cases hs
        rfl
      · contradiction
    refine ⟨h.keyed, ?_, ?_⟩
    · intro s record hs hphase
      rw [hchecked s hs] at hphase
      contradiction
    · intro w hgone
      refine ⟨(h.gone w hgone).1, ?_⟩
      rintro ⟨s, hs, -, hphase⟩
      exact hphase (hchecked s hs)
  · exact h

theorem Inv.readRecord (s : Signing) :
    Inv { r with sign := r.sign.readRecord s } := by
  unfold SignRun.readRecord
  split
  · split
    · cases hrecord : r.sign.store.witnesses.lookup s.request.witnessId with
      | none => exact h.frame rfl (Or.inr rfl)
      | some record =>
          refine ⟨h.keyed, ?_, ?_⟩
          · rintro _ record' ⟨⟩ ⟨⟩
            exact h.keyed _ _ hrecord
          · intro w hgone
            refine ⟨(h.gone w hgone).1, ?_⟩
            rintro ⟨_, ⟨⟩, hw, -⟩
            -- the record of an identity that is gone is not there to be read
            change s.request.witnessId = w at hw
            rw [hw, (h.gone w hgone).1] at hrecord
            contradiction
    · exact h.frame rfl (Or.inr rfl)
  · exact h

theorem Inv.count {s : Signing} (hs : r.sign.signing = some s) :
    Inv { r with sign := r.sign.count s } := by
  unfold SignRun.count
  split
  · rename_i record hphase
    have hid : record.witnessId = s.request.witnessId := h.read s record hs hphase
    refine ⟨?_, ?_, ?_⟩
    · intro w record' hrecord
      change (r.sign.store.witnesses.insert record.witnessId _).lookup w = some record' at hrecord
      rcases Table.lookup_insert_cases hrecord with ⟨rfl, rfl⟩ | hold
      · rfl
      · exact h.keyed w record' hold
    · rintro _ record' ⟨⟩ hcounted
      contradiction
    · intro w hgone
      obtain ⟨hnone, hsigns⟩ := h.gone w hgone
      have hreads : r.Signs s.request.witnessId :=
        ⟨s, hs, rfl, by rw [hphase]; exact fun hc => by contradiction⟩
      have hother : ¬ w = s.request.witnessId := by
        rintro rfl
        exact hsigns hreads
      refine ⟨?_, ?_⟩
      · change (r.sign.store.witnesses.insert record.witnessId _).lookup w = none
        rw [Table.lookup_insert_ite, hid, if_neg hother, hnone]
      · rintro ⟨_, ⟨⟩, hw, -⟩
        exact hother hw.symm
  · exact h

theorem Inv.sign (W : WitnessLibs) (e : SignEvent) :
    Inv { r with sign := r.sign.step W e } := by
  have helim : ∀ f : Signing → SignRun, (∀ s, r.sign.signing = some s →
      Inv { r with sign := f s }) → Inv { r with sign := r.sign.signing.elim r.sign f } := by
    intro f hf
    cases hs : r.sign.signing with
    | none => exact h
    | some s => exact hf s hs
  cases e with
  | submit request =>
      change Inv { r with sign := r.sign.submit W request }
      unfold SignRun.submit
      split
      · exact h
      · split
        · exact h.frame rfl (Or.inl rfl)
        · exact h
  | enter request witnessed => exact h.enter request witnessed
  | readRecord => exact helim _ fun s _ => h.readRecord s
  | count => exact helim _ fun s hs => h.count hs
  | finish =>
      refine helim _ fun s hs => ?_
      unfold SignRun.finish
      split
      · exact h.frame rfl (Or.inr rfl)
      · exact h
  | fail => exact h.frame rfl (Or.inr rfl)

omit h in
/-- What is gone after an access of a delete was gone before, or its record is removed by
the access. -/
theorem gone_advance {d : Delete} (hd : d ∈ r.deletes) {w : WitnessId}
    (hgone : (r.advance d).Gone w) : r.Gone w ∨ d.phase = .found ∧ d.witnessId = w := by
  have hlater : ∀ phase, d.phase ≠ .found →
      (∃ d' ∈ (⟨d.witnessId, phase⟩ :: r.deletes.erase d : List Delete),
        d'.witnessId = w ∧ d'.phase ≠ .found) → r.Gone w := by
    rintro phase hfound ⟨d', hmem, rfl, hphase⟩
    rcases List.mem_cons.mp hmem with rfl | hmem
    · exact Or.inr ⟨d, hd, rfl, hfound⟩
    · exact Or.inr ⟨d', List.mem_of_mem_erase hmem, rfl, hphase⟩
  unfold advance at hgone
  split at hgone
  · rename_i hphase
    rcases hgone with hdeleted | ⟨d', hmem, rfl, hphase'⟩
    · exact Or.inl (Or.inl hdeleted)
    · rcases List.mem_cons.mp hmem with rfl | hmem
      · exact Or.inr ⟨hphase, rfl⟩
      · exact Or.inl (Or.inr ⟨d', List.mem_of_mem_erase hmem, rfl, hphase'⟩)
  · rename_i hphase
    have hfound : d.phase ≠ .found := by
      rw [hphase]
      decide
    rcases hgone with hdeleted | hdelete
    · exact Or.inl (Or.inl hdeleted)
    · exact Or.inl (hlater _ hfound hdelete)
  · rename_i key keys hphase
    have hfound : d.phase ≠ .found := by
      rw [hphase]
      exact fun hc => by contradiction
    rcases hgone with hdeleted | hdelete
    · exact Or.inl (Or.inl hdeleted)
    · exact Or.inl (hlater _ hfound hdelete)
  · rename_i hphase
    have hfound : d.phase ≠ .found := by
      rw [hphase]
      decide
    left
    rcases hgone with hdeleted | ⟨d', hmem, rfl, hphase'⟩
    · rcases List.mem_cons.mp hdeleted with rfl | hdeleted
      · exact Or.inr ⟨d, hd, rfl, hfound⟩
      · exact Or.inl hdeleted
    · exact Or.inr ⟨d', List.mem_of_mem_erase hmem, rfl, hphase'⟩

omit h in
/-- The records after an access of a delete. -/
theorem advance_lookup (d : Delete) (w : WitnessId) :
    (r.advance d).sign.store.witnesses.lookup w =
      if d.phase = .found ∧ w = d.witnessId then none else r.sign.store.witnesses.lookup w := by
  unfold advance
  split
  · rename_i hphase
    change (r.sign.store.witnesses.erase d.witnessId).lookup w = _
    rw [Table.lookup_erase_ite]
    simp only [hphase, true_and]
  all_goals
    rename_i hphase
    rw [if_neg]
    rw [hphase]
    exact fun hc => nomatch hc.1

omit h in
theorem advance_signing (d : Delete) : (r.advance d).sign.signing = r.sign.signing := by
  unfold advance
  split <;> rfl

theorem Inv.advance {d : Delete} (hd : d ∈ r.deletes) (hapart : r.Apart (.advance d)) :
    Inv (r.advance d) := by
  refine ⟨?_, ?_, ?_⟩
  · intro w record hrecord
    rw [advance_lookup] at hrecord
    split at hrecord
    · contradiction
    · exact h.keyed w record hrecord
  · intro s record hs hphase
    rw [advance_signing] at hs
    exact h.read s record hs hphase
  · intro w hgone
    have hsigns : ¬ r.Signs w → ¬ (r.advance d).Signs w := by
      rintro hnot ⟨s, hs, hw, hphase⟩
      rw [advance_signing] at hs
      exact hnot ⟨s, hs, hw, hphase⟩
    rw [advance_lookup]
    rcases gone_advance hd hgone with hbefore | ⟨hfound, rfl⟩
    · obtain ⟨hnone, hnot⟩ := h.gone w hbefore
      refine ⟨?_, hsigns hnot⟩
      split
      · rfl
      · exact hnone
    · exact ⟨if_pos ⟨hfound, rfl⟩, hsigns (hapart hfound)⟩

theorem Inv.step (W : WitnessLibs) (e : KeyEvent) (hapart : r.Apart e) : Inv (r.step W e) := by
  cases e with
  | sign e => exact h.sign W e
  | delete witnessId =>
      rw [step_delete]
      split
      · refine ⟨h.keyed, h.read, fun w hgone => h.gone w ?_⟩
        rcases hgone with hdeleted | ⟨d, hd, rfl, hphase⟩
        · exact Or.inl hdeleted
        · rcases List.mem_cons.mp hd with rfl | hmem
          · exact absurd rfl hphase
          · exact Or.inr ⟨d, hmem, rfl, hphase⟩
      · exact h
  | advance d =>
      rw [step_advance]
      split
      · rename_i hd
        exact h.advance hd hapart
      · exact h

/-- A proof is released only under an identity that is not gone. -/
theorem Inv.released (W : WitnessLibs) (e : KeyEvent) :
    (r.step W e).sign.released = r.sign.released ∨
      ∃ a, (r.step W e).sign.released = r.sign.released ++ [a] ∧ ¬ r.Gone a.witnessId := by
  cases e with
  | sign e =>
      rcases SignRun.released_cases W r.sign e with hsame | ⟨s, hs, hphase, hreleased⟩
      · exact Or.inl hsame
      · refine Or.inr ⟨_, hreleased, fun hgone => ?_⟩
        refine (h.gone _ hgone).2 ⟨s, hs, rfl, ?_⟩
        rw [hphase]
        exact fun hc => by contradiction
  | delete witnessId =>
      left
      rw [step_delete]
      split <;> rfl
  | advance d =>
      left
      rw [step_advance]
      split
      · unfold KeyRun.advance
        split <;> rfl
      · rfl

end Step

end KeyRun

/-- In every run in which no record is removed while a request for the identity is
between its read of the record and its end, the record of a deleted identity is not in
the store and no proof is released under it. -/
theorem deleted_identity_stays_deleted (W : WitnessLibs) (records : List WitnessRecord)
    (events : List KeyEvent)
    (hapart : Run.Meets (KeyRun.step W) KeyRun.Apart (.initial records) events) :
    let r := Run.exec (KeyRun.step W) (.initial records) events
    ∀ w ∈ r.deleted, r.sign.store.witnesses.lookup w = none ∧
      ∀ e, (r.step W e).sign.released = r.sign.released ∨
        ∃ a, (r.step W e).sign.released = r.sign.released ++ [a] ∧ a.witnessId ≠ w := by
  intro r w hdeleted
  have hinv : KeyRun.Inv (Run.exec (KeyRun.step W) (.initial records) events) :=
    Run.exec_invariant (fun _ e hapart h => h.step W e hapart) (KeyRun.inv_initial records) hapart
  refine ⟨(hinv.gone w (Or.inl hdeleted)).1, fun e => ?_⟩
  rcases hinv.released W e with hsame | ⟨a, hreleased, hnot⟩
  · exact Or.inl hsame
  · refine Or.inr ⟨a, hreleased, ?_⟩
    rintro rfl
    exact hnot (Or.inl hdeleted)

/-! ## A delete of one identity -/

namespace WitnessSample

/-- A version is witnessed, and the request for the next one is under the lock. -/
def toLock : List SignEvent :=
  SignRun.signTask request ⟨"s", ["1-a"]⟩ ++
    [.submit nextRequest, .enter nextRequest ⟨"s", ["1-a", "2-b"]⟩]

/-- The request under the lock. -/
def atLock : Signing := ⟨nextRequest, ⟨"s", ["1-a", "2-b"]⟩, some ⟨1, "1-a"⟩, .checked⟩

/-- The witness with the request under the lock. -/
def locked : KeyRun := ⟨{ servedFirst with signing := some atLock }, [], []⟩

theorem exec_locked : Run.exec (KeyRun.step chainLibs) (.initial [record]) (toLock.map .sign) =
    locked := by
  have hlock := @SignRun.exec_toLock chainLibs _ nextRequest _ _
    servedFirst_record verify_second rfl
  have hmark : servedFirst.store.mark nextRequest.witnessId
      (⟨"s", ["1-a", "2-b"]⟩ : WitnessedLog).scid = some ⟨1, "1-a"⟩ := servedFirst_mark
  have hextends : extendsMark (some ⟨1, "1-a"⟩) ⟨"s", ["1-a", "2-b"]⟩ = true := by decide
  rw [hmark, if_pos hextends] at hlock
  have hrun : Run.exec (SignRun.step chainLibs) (.initial witnesses) toLock = locked.sign := by
    rw [toLock, Run.exec_append, exec_request, hlock]
    rfl
  rw [KeyRun.exec_sign]
  exact congrArg (fun sign => (⟨sign, [], []⟩ : KeyRun)) hrun

theorem meets_sign {W : WitnessLibs} (r : KeyRun) (events : List SignEvent) :
    Run.Meets (KeyRun.step W) KeyRun.Apart r (events.map .sign) := by
  induction events generalizing r with
  | nil => exact trivial
  | cons e events ih => exact ⟨trivial, ih _⟩

theorem markKeys_locked : locked.sign.store.markKeys witnessId = ["witnessed:z6Mk:s"] := by
  have hmarks : locked.sign.store.marks =
      AList.insert (witnessedKey witnessId "s") ⟨1, "1-a"⟩ ∅ := by
    have hnext : locked.sign.store.marks = SignRun.nextMarks ∅
        ⟨request, ⟨"s", ["1-a"]⟩, none, .counted⟩ := by
      rw [← mark_first]
      rfl
    rw [hnext]
    rfl
  rw [WitnessStore.markKeys, hmarks]
  decide +kernel

/-- Then the identity is deleted, and a version is to be witnessed again. -/
def forget : List KeyEvent :=
  toLock.map .sign ++ KeyRun.deleteBeside witnessId "witnessed:z6Mk:s" ++
    (SignRun.signTask request ⟨"s", ["1-a"]⟩).map .sign

/-- The witness after it. -/
def forgotten : KeyRun := Run.exec (KeyRun.step chainLibs) (.initial [record]) forget

/-- The witness without the identity. -/
def withoutIdentity : KeyRun :=
  ⟨{ servedFirst with store := ⟨servedFirst.store.witnesses.erase witnessId,
      servedFirst.store.marks.erase "witnessed:z6Mk:s"⟩ }, [], [witnessId]⟩

theorem record_locked : (locked.sign.store.witnesses.lookup witnessId).isSome = true :=
  Option.isSome_of_mem servedFirst_record

theorem forgotten_eq : forgotten = withoutIdentity := by
  have hdelete := KeyRun.exec_deleteBeside chainLibs (r := locked) (s := atLock)
    rfl rfl record_locked markKeys_locked rfl
  change Run.exec (KeyRun.step chainLibs) locked
    (KeyRun.deleteBeside witnessId "witnessed:z6Mk:s") = withoutIdentity at hdelete
  have hunknown := @SignRun.exec_unknown chainLibs withoutIdentity.sign request
    (AList.lookup_erase _ _) rfl rfl ⟨"s", ["1-a"]⟩
  rw [forgotten, forget, Run.exec_append, Run.exec_append, exec_locked, hdelete,
    KeyRun.exec_sign, hunknown]

theorem apart_forget : Run.Meets (KeyRun.step chainLibs) KeyRun.Apart (.initial [record]) forget := by
  have hdelete : Run.Meets (KeyRun.step chainLibs) KeyRun.Apart locked
      (KeyRun.deleteBeside witnessId "witnessed:z6Mk:s") := by
    refine ⟨trivial, ?_, trivial, nofun, nofun, nofun, trivial⟩
    rintro - ⟨s, hs, -, hphase⟩
    rw [KeyRun.step_delete, if_pos record_locked] at hs
    cases hs
    exact hphase rfl
  refine Run.Meets.append ((meets_sign _ _).append ?_) (meets_sign _ _)
  rw [exec_locked]
  exact hdelete

/-- The request has come to its signature. -/
def atSignature : KeyRun :=
  Run.exec (KeyRun.step chainLibs) (.initial [record])
    ([.submit request, .enter request ⟨"s", ["1-a"]⟩, .readRecord].map .sign)

/-- The request under the lock. -/
def signing : Signing := ⟨request, ⟨"s", ["1-a"]⟩, none, .read record⟩

theorem atSignature_eq :
    atSignature = ⟨{ SignRun.initial witnesses with signing := some signing }, [], []⟩ := by
  have hrecord : (SignRun.initial witnesses).store.witnesses.lookup request.witnessId =
      some record := AList.lookup_insert _
  rw [atSignature, KeyRun.exec_sign]
  have hrun := SignRun.exec_toSignature hrecord verify_first rfl valid_ids.1 extends_first
  have hmark : (SignRun.initial witnesses).store.mark request.witnessId
      (⟨"s", ["1-a"]⟩ : WitnessedLog).scid = none := mark_first
  rw [hmark] at hrun
  exact congrArg (fun sign => (⟨sign, [], []⟩ : KeyRun)) hrun

/-- Then the identity is deleted, and the request goes on. -/
def resumed : KeyRun :=
  Run.exec (KeyRun.step chainLibs) atSignature
    (KeyRun.deleteTask witnessId ++ [.sign .count, .sign .finish])

end WitnessSample

open WitnessSample in
/-- An identity that has signed is deleted while a request for it is under the lock, and
asked for a proof afterwards. -/
theorem deleted_identity_stays_deleted_signed :
    forgotten.deleted = [witnessId] ∧
      forgotten.sign.released = [⟨witnessId, "1-a", "s", ["1-a"]⟩] ∧
      forgotten.sign.store.witnesses.lookup witnessId = none ∧
      ∀ e, (forgotten.step chainLibs e).sign.released = forgotten.sign.released ∨
        ∃ a, (forgotten.step chainLibs e).sign.released = forgotten.sign.released ++ [a] ∧
          a.witnessId ≠ witnessId := by
  have hdeleted : forgotten.deleted = [witnessId] := by
    rw [forgotten_eq]
    rfl
  have hreleased : forgotten.sign.released = [⟨witnessId, "1-a", "s", ["1-a"]⟩] := by
    rw [forgotten_eq]
    rfl
  have hmem : witnessId ∈ forgotten.deleted := by
    rw [hdeleted]
    exact List.mem_cons_self
  obtain ⟨hrecord, hlater⟩ := deleted_identity_stays_deleted chainLibs [record] forget
    apart_forget witnessId hmem
  rw [← forgotten] at hrecord hlater
  exact ⟨hdeleted, hreleased, hrecord, hlater⟩

open WitnessSample in
/-- A request that has read the record before brings it back, and releases its proof. -/
theorem deleted_identity_returns :
    witnessId ∈ resumed.deleted ∧ (resumed.sign.store.witnesses.lookup witnessId).isSome = true ∧
      resumed.sign.released = [⟨request.witnessId, request.versionId, "s", ["1-a"]⟩] := by
  have hdelete : Run.exec (KeyRun.step chainLibs) atSignature (KeyRun.deleteTask witnessId) =
      atSignature.afterDelete witnessId := by
    rw [atSignature_eq]
    refine KeyRun.exec_deleteTask chainLibs ?_ rfl rfl
    exact Option.isSome_of_mem (AList.lookup_insert _)
  have hsigning : atSignature.sign.signing = some signing := by
    rw [atSignature_eq]
  obtain ⟨hdeleted, hwitnesses, hreleased⟩ :=
    @KeyRun.exec_resumed chainLibs _ _ record hsigning rfl witnessId
  rw [resumed, Run.exec_append, hdelete, hdeleted, hwitnesses, hreleased, atSignature_eq]
  refine ⟨List.mem_cons_self, ?_, rfl⟩
  exact Option.isSome_of_mem (AList.lookup_insert _)

end DidHosting
