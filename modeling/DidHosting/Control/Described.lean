import DidHosting.Control.NameClaims
import DidHosting.Control.VersionCount

/-!
# Records describe logs

A record repeats what its log says: size, DID, services, number of versions and
agent names.  Publishing reads them off the new content; the counter is advanced
by one instead, an agent-name operation changes one name, and a rollback reads
every log as one of did:webvh.  The condition is that these make no difference.
-/

namespace DidHosting

open Text

/-- The DID of the record is the one its content is about. -/
def DidDescribed (L : Libs) (r : DidRecord) (content : String) : Prop :=
  match r.method with
  | .webvh => r.didId = extractDidId L content
  | .web => r.didId =
      ((currentDocument L .web r.didId content).bind (Json.get "id")).bind Json.asStr
  | .webs => (currentDocument L .webs r.didId content).isSome

/-- The record says of the stored log what a reader of the log would find. -/
structure Describes (L : Libs) (r : DidRecord) (content : String) : Prop where
  contentSize : r.contentSize = content.utf8ByteSize
  did : DidDescribed L r content
  services : r.services =
    (currentDocument L r.method r.didId content).map serviceTypesFromDoc
  versionCount : r.method = .webvh → r.versionCount = entryCount content
  agentNames : ServesClaimed L r content

/-- The record says that nothing is published. -/
structure Unpublished (r : DidRecord) : Prop where
  contentSize : r.contentSize = 0
  did : r.didId = none
  services : r.services = none
  versionCount : r.versionCount = 0
  agentNames : r.agentNames = []

/-- A slot without a record has no log. -/
def SlotDescribed (L : Libs) : Option DidRecord → Option String → Prop
  | none, log => log = none
  | some r, none => Unpublished r
  | some r, some content => Describes L r content

/-! ## The condition -/

/-- The event truncates no log of another method. -/
def RollsBackWebvh (s : ControlStore) : Event → Prop
  | .serve (.rollback auth _ m targetVersion) =>
      ∀ r c keep, s.record m = some r → authorized auth r = true → s.log m = some c →
        rollbackKeep (entryCount c) targetVersion = .ok keep → keep < entryCount c →
          r.method = .webvh
  | _ => True

/-- What the event stores, the record it stores describes. -/
structure KeepsDescribed (A : AppState) (s : ControlStore) (e : Event) : Prop where
  adds : AddsOneEntry A s e
  claims : KeepsClaims A s e
  rollsBack : RollsBackWebvh s e

/-! ## The invariant -/

/-- A slot is described, and lists no name twice. -/
structure SlotInv (L : Libs) (record : Option DidRecord) (log : Option String) : Prop where
  described : SlotDescribed L record log
  nodup : ∀ r, record = some r → (r.agentNames.map (·.name)).Nodup

theorem extractServiceTypes_eq (L : Libs) (content : String) :
    extractServiceTypes L content =
      ((lastValue L content).bind (Json.get "state")).map serviceTypesFromDoc := by
  unfold extractServiceTypes
  cases lastValue L content with
  | none => rfl
  | some value => rfl

theorem SlotDescribed.countAgrees {L : Libs} {record : Option DidRecord} {log : Option String}
    (h : SlotDescribed L record log) : CountAgrees record log := by
  constructor
  · rintro rfl
    exact h
  · rintro r c rfl rfl
    exact h.versionCount

theorem SlotDescribed.slotClaims {L : Libs} {record : Option DidRecord} {log : Option String}
    (h : SlotDescribed L record log) : SlotClaims L record log := by
  cases record with
  | none => trivial
  | some r =>
      cases log with
      | none =>
          intro e he
          rw [h.agentNames] at he
          contradiction
      | some c => exact h.agentNames

/-- The DID and the services of a verified publication are those of its content. -/
theorem describes_verified {L : Libs} {r : DidRecord} {p : Publication}
    {domain mnemonic content : String} {existing witness : Option String}
    (h : verifyPublication L domain mnemonic content existing witness = .ok p)
    (hmethod : r.method = p.method) (hdid : r.didId = p.didId)
    (hservices : r.services = p.services) :
    DidDescribed L r content ∧
      r.services = (currentDocument L r.method r.didId content).map serviceTypesFromDoc := by
  have hdoc := verifyPublication_document h
  rw [← hmethod, ← hdid] at hdoc
  refine ⟨?_, ?_⟩
  · unfold DidDescribed
    unfold verifyPublication at h
    split at h
    · contradiction
    · rw [(verifyWebvh_spec h).2] at hmethod hdid
      rw [hmethod]
      exact hdid
    · obtain ⟨hweb, document, -, hp, hid⟩ := verifyWeb_spec h
      rw [hmethod, hweb, hp] at hdoc
      rw [hmethod, hweb]
      simp only
      rw [← hdoc, hdid]
      exact hid
    · obtain ⟨hwebs, -, -, -⟩ := verifyWebs_spec h
      rw [hmethod, hwebs] at hdoc
      rw [hmethod, hwebs]
      simp only
      rw [← hdoc]
      exact verifyWebs_isSome h
  · rw [hservices, ← hdoc]
    rfl

section

variable {A : AppState} {s : ControlStore}

theorem slotNodup_change {op : Op} {m : String} {record : Option DidRecord}
    {log : Option String} (h : SlotChange A s op m record log)
    (hold : ∀ r, s.record m = some r → (r.agentNames.map (·.name)).Nodup) :
    ∀ r, record = some r → (r.agentNames.map (·.name)).Nodup := by
  have hreconciled : ∀ {names next : List AgentNameEntry} {claims : List String}
      {domain : String} {now : ℕ} {changes : NameChanges},
      Reconciled {s} names m claims domain now next changes → claims.Nodup →
      (names.map (·.name)).Nodup → (next.map (·.name)).Nodup := by
    intro names next claims domain now changes hrec hclaims hnames
    rw [hrec.next_eq, hrec.claimed_eq]
    exact nodup_reconciledNames hnames (nodup_bindableNames hclaims)
  cases h with
  | created =>
      rintro r ⟨⟩
      exact List.nodup_nil
  | @registered _ _ _ _ _ _ existing _ _ _ _ _ _ hpre hreg =>
      rintro r ⟨⟩
      refine hreconciled hreg.reconciled (Publication.nodup_agentNames ..) ?_
      cases existing with
      | none => exact List.nodup_nil
      | some r => exact hold r (read_singleton hreg.existing_read)
  | published hrep hrec =>
      rintro r ⟨⟩
      exact hreconciled hrec (Publication.nodup_agentNames ..)
        (hold _ (read_singleton hrep.record_read))
  | named hrep hclaim heffect =>
      rintro r ⟨⟩
      exact nodup_agentNameEffect (hold _ (read_singleton hrep.record_read)) heffect
  | deleted => rintro r ⟨⟩
  | @rolledBack _ _ _ _ r _ _ hread =>
      rintro r' ⟨⟩
      exact hold r hread
  | touched hread hsame =>
      rintro r ⟨⟩
      rw [hsame.agentNames]
      exact hold _ hread

theorem slotDescribed_change {op : Op} {m : String} {record : Option DidRecord}
    {log : Option String} (hok : KeepsDescribed A s (.serve op))
    (h : SlotChange A s op m record log) (hold : SlotInv A.libs (s.record m) (s.log m)) :
    SlotDescribed A.libs record log := by
  have hcount := (h.countAgrees hok.adds hold.described.countAgrees).2
  have hclaims := slotClaims_change hold.nodup hok.claims h hold.described.slotClaims
  cases h with
  | created =>
      have hnone : (if (s.record m).isSome then none else s.log m) = none := by
        cases hr : s.record m with
        | none =>
            have hslot := hold.described
            rwa [hr] at hslot
        | some r => rfl
      rw [hnone]
      exact ⟨rfl, rfl, rfl, rfl, rfl⟩
  | registered hpre hreg =>
      obtain ⟨hdid, hservices⟩ := describes_verified (r := registerRecord A _ m _ _ _ _ _ _ _)
        hreg.verified_at rfl hreg.didId_eq.symm rfl
      exact ⟨rfl, hdid, hservices, hcount _ _ rfl rfl, hclaims⟩
  | published hrep hrec =>
      obtain ⟨hdid, hservices⟩ := describes_verified
        (r := { republished A.libs _ _ _ _ with agentNames := _ })
        hrep.verified_at hrep.same_method.symm rfl rfl
      exact ⟨rfl, hdid, hservices, hcount _ _ rfl rfl, hclaims⟩
  | named hrep hclaim heffect =>
      obtain ⟨hdid, hservices⟩ := describes_verified
        (r := { republished A.libs _ _ _ _ with agentNames := _ })
        hrep.verified_at hrep.same_method.symm rfl rfl
      exact ⟨rfl, hdid, hservices, hcount _ _ rfl rfl, hclaims⟩
  | deleted => rfl
  | @rolledBack auth now m targetVersion r c keep hrecord hauth hlog hkeep hlt =>
      have hwebvh : (rolledBack A.libs r (truncateLog c keep) keep now).method = .webvh :=
        hok.rollsBack r c keep hrecord hauth hlog hkeep hlt
      refine ⟨rfl, ?_, ?_, hcount _ _ rfl rfl, hclaims⟩
      · unfold DidDescribed
        rw [hwebvh]
        rfl
      · rw [hwebvh]
        exact extractServiceTypes_eq A.libs (truncateLog c keep)
  | @touched op m r r' hr hsame =>
      have hslot := hold.described
      rw [hr] at hslot
      cases hlog : s.log m with
      | none =>
          rw [hlog] at hslot
          exact ⟨hsame.contentSize.trans hslot.contentSize, hsame.didId.trans hslot.did,
            hsame.services.trans hslot.services, hsame.versionCount.trans hslot.versionCount,
            hsame.agentNames.trans hslot.agentNames⟩
      | some c =>
          rw [hlog] at hslot hcount hclaims
          refine ⟨hsame.contentSize.trans hslot.contentSize, ?_, ?_, hcount _ _ rfl rfl,
            hclaims⟩
          · have hdid := hslot.did
            unfold DidDescribed at hdid ⊢
            rwa [hsame.method, hsame.didId]
          · rw [hsame.services, hsame.method, hsame.didId]
            exact hslot.services

/-- Every slot keeps the invariant. -/
def Described (L : Libs) (s : ControlStore) : Prop :=
  ∀ m, SlotInv L (s.record m) (s.log m)

theorem described_step (e : Event) (hok : KeepsDescribed A s e) (h : Described A.libs s) :
    Described A.libs (e.step A s) := by
  cases e with
  | administer acl domains => exact h
  | serve op =>
      refine slotwise_step (P := fun _ record log => SlotInv A.libs record log) ?_ h
      intro m record log hchange hold
      exact ⟨slotDescribed_change hok hchange hold, slotNodup_change hchange hold.nodup⟩

theorem described_initial (L : Libs) (acl : Table String AclEntry)
    (domains : Table String DomainEntry) : Described L (ControlStore.initial acl domains) := by
  intro m
  exact ⟨rfl, fun r hr => by contradiction⟩

end

end DidHosting
