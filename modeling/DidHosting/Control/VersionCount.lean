import DidHosting.Control.Effects
import DidHosting.Control.Reference
import DidHosting.Control.ServerPush
import DidHosting.Edge.Sync

/-!
# Version counts

The control plane keeps a version counter in the record and replaces the log as
a whole.  The two stay in step along every run in which each accepted
did:webvh log brings exactly one entry more than was counted before; the edges
refuse a slot where they differ.
-/

namespace DidHosting

open Text

/-! ## The condition -/

/-- The count a registration stores: one for a free slot and for a takeover,
one more than before for a re-registration by the owner. -/
def registeredCount (auth : AuthClaims) : Option DidRecord → ℕ
  | some r => if r.owner = auth.did then r.versionCount + 1 else 1
  | none => 1

/-- A did:webvh log that verifies as a new version of slot `m` holds exactly
one entry more than the record counts. -/
def RepublishAddsOne (A : AppState) (s : ControlStore) (auth : AuthClaims)
    (m didLog : String) : Prop :=
  ∀ r p, s.record m = some r → authorized auth r = true →
    verifyPublication A.libs r.domain m didLog (s.log m) (s.witness m) = .ok p →
      p.method = .webvh → entryCount didLog = r.versionCount + 1

/-- The event submits no did:webvh log that verifies, or one with exactly one
entry more than the slot counts, which the caller may take if it registers it. -/
def AddsOneEntry (A : AppState) (s : ControlStore) : Event → Prop
  | .serve (.register auth _ path didLog force domain) =>
      ∀ p ownerChanged, registerOwnership auth force (s.record path) = .ok ownerChanged →
        verifyPublication A.libs (domain.getD "") path didLog (s.log path)
          (s.witness path) = .ok p → p.method = .webvh →
          entryCount didLog = registeredCount auth (s.record path)
  | .serve (.publish auth _ m didLog _) => RepublishAddsOne A s auth m didLog
  | .serve (.agentName auth _ m _ didLog _ _) => RepublishAddsOne A s auth m didLog
  | _ => True

/-! ## The invariant -/

/-- The counter of a slot agrees with its stored did:webvh log. -/
def CountAgrees (record : Option DidRecord) (log : Option String) : Prop :=
  (record = none → log = none) ∧
    ∀ r c, record = some r → log = some c → r.method = .webvh →
      r.versionCount = entryCount c

/-- Every counter agrees with its log. -/
def CountInv (s : ControlStore) : Prop :=
  ∀ m, CountAgrees (s.record m) (s.log m)

theorem entryCount_truncateLog {content : String} {keep : ℕ} (h : keep ≤ entryCount content) :
    entryCount (truncateLog content keep) = keep := by
  have hlen := congrArg List.length (trimmedLines_joinLines_take content keep)
  rw [length_trimmedLines, List.length_take, length_trimmedLines] at hlen
  unfold entryCount at h ⊢
  rw [truncateLog, hlen]
  omega

section

variable {A : AppState} {s : ControlStore}

theorem registerVersion_count {auth : AuthClaims} {force : Bool}
    {existing : Option DidRecord} {ownerChanged : Bool} {now : ℕ}
    (h : registerOwnership auth force existing = .ok ownerChanged) :
    (registerVersion existing ownerChanged now).2 = registeredCount auth existing := by
  cases existing with
  | none => rfl
  | some r =>
      unfold registerOwnership at h
      unfold registeredCount
      simp only at h ⊢
      split at h
      · rename_i howner
        cases h
        rw [if_pos howner]
        rfl
      · rename_i howner
        rw [if_neg howner]
        split at h
        · contradiction
        · split at h
          · contradiction
          · cases h
            rfl

theorem SlotChange.countAgrees {op : Op} {m : String} {record : Option DidRecord}
    {log : Option String} (h : SlotChange A s op m record log)
    (hok : AddsOneEntry A s (.serve op)) (hinv : CountAgrees (s.record m) (s.log m)) :
    CountAgrees record log := by
  have hrepublish : ∀ {auth : AuthClaims} {m didLog : String} {r : DidRecord}
      {p : Publication} {now : ℕ} {names : List AgentNameEntry},
      RepublishAddsOne A s auth m didLog → Republishes A {s} auth m didLog r p →
      CountAgrees (some { republished A.libs r p didLog now with agentNames := names })
        (some didLog) := by
    intro auth m didLog r p now names hok hrep
    refine ⟨by simp, ?_⟩
    rintro r' c ⟨⟩ ⟨⟩ hmethod
    have hwebvh : p.method = .webvh := hrep.same_method.trans hmethod
    exact (hok r p (read_singleton hrep.record_read) hrep.allowed hrep.verified_at
      hwebvh).symm
  cases h with
  | created hauth =>
      refine ⟨by simp, ?_⟩
      intro r c hr hc hmethod
      split at hc
      · contradiction
      · rename_i hnone
        rw [hinv.1 (Option.not_isSome_iff_eq_none.mp hnone)] at hc
        contradiction
  | registered hpre hreg =>
      refine ⟨by simp, ?_⟩
      rintro r c ⟨⟩ ⟨⟩ hmethod
      have hexisting := read_singleton hreg.existing_read
      have hone := hok _ _ (hexisting ▸ hreg.ownership) hreg.verified_at hmethod
      rw [hone, hexisting]
      exact registerVersion_count hreg.ownership
  | published hrep hnames => exact hrepublish hok hrep
  | named hrep hclaim heffect => exact hrepublish hok hrep
  | deleted hread hauth => exact ⟨fun _ => rfl, by simp⟩
  | rolledBack hread hauth hlog hkeep hlt =>
      refine ⟨by simp, ?_⟩
      rintro r c ⟨⟩ ⟨⟩ -
      exact (entryCount_truncateLog (Nat.le_of_lt hlt)).symm
  | touched hread hsame =>
      refine ⟨by simp, ?_⟩
      rintro r c ⟨⟩ hc hmethod
      rw [hsame.versionCount]
      exact hinv.2 _ c hread hc (hsame.method ▸ hmethod)

theorem countInv_step (e : Event) (hok : AddsOneEntry A s e) (hinv : CountInv s) :
    CountInv (e.step A s) := by
  cases e with
  | administer acl domains => exact hinv
  | serve op =>
      exact slotwise_step (fun m record log hslot => hslot.countAgrees hok) hinv

end

theorem countInv_initial (acl : Table String AclEntry) (domains : Table String DomainEntry) :
    CountInv (ControlStore.initial acl domains) :=
  fun _ => ⟨fun _ => rfl, fun _ _ h => by contradiction⟩

/-- In every run whose logs each bring exactly one more entry, every record
counts the entries of its stored did:webvh log, and the update built from the
two passes the entry-count check of the edges. -/
theorem version_count_eq_entryCount (A : AppState) (acl : Table String AclEntry)
    (domains : Table String DomainEntry) (events : List Event)
    (hok : Run.Meets (Event.step A) (AddsOneEntry A) (ControlStore.initial acl domains)
      events) :
    let s := Run.exec (Event.step A) (ControlStore.initial acl domains) events
    ∀ m r c, s.record m = some r → s.log m = some c → r.method = .webvh →
      r.versionCount = entryCount c ∧
        ∀ fits body, syncUpdateBody fits r c (s.witness m) = some body →
          checkEntryCount body = .ok () := by
  intro s m r c hr hc hmethod
  have hinv : CountInv s :=
    Run.exec_invariant (fun _ e => countInv_step e) (countInv_initial acl domains) hok
  have hcount := (hinv m).2 r c hr hc hmethod
  refine ⟨hcount, ?_⟩
  intro fits body hbody
  obtain ⟨-, -, hlog, hversions, -⟩ := syncUpdateBody_spec hbody
  rw [checkEntryCount_eq_ok_iff, hlog, hversions, hcount]

section Samples

open Reference

/-- The guarantee along a run that registers slot `al` with one entry and publishes a
second. -/
theorem version_count_eq_entryCount_publish :
    let events : List Event :=
      [.serve (.register admin 1 "al" (logOf [al1]) false none),
        .serve (.publish admin 2 "al" (logOf [al1, al2]) none)]
    let s := Run.exec (Event.step control) fresh events
    Run.Meets (Event.step control) (AddsOneEntry control) fresh events ∧
      ∃ r c body, s.record "al" = some r ∧ s.log "al" = some c ∧ r.versionCount = 2 ∧
        r.versionCount = entryCount c ∧
        syncUpdateBody (fun _ => true) r c (s.witness "al") = some body ∧
        checkEntryCount body = .ok () := by
  intro events s
  have hreg := registered_plain unrestricted_fresh validLog_al1 validateMnemonic_al
    bound_didAl rfl 1
  have hpub := published_plain hreg.unrestricted hreg.record rfl
    (registeredRecord_agentNames_plain ..) validLog_al2 validateMnemonic_al 2
  have hfirst : AddsOneEntry control fresh
      (.serve (.register admin 1 "al" (logOf [al1]) false none)) := by
    intro p _ _ _ _
    rw [entryCount_logOf validLog_al1.wellFormed]
    rfl
  have hsecond : AddsOneEntry control
      (Event.step control fresh (.serve (.register admin 1 "al" (logOf [al1]) false none)))
      (.serve (.publish admin 2 "al" (logOf [al1, al2]) none)) := by
    intro r p hr _ _ _
    rw [hreg.record] at hr
    cases hr
    exact entryCount_logOf validLog_al2.wellFormed
  have hok : Run.Meets (Event.step control) (AddsOneEntry control) fresh events :=
    ⟨hfirst, hsecond, trivial⟩
  have hbody := @syncUpdateBody_of_fits (fun _ => true)
    (publishedRecord (registeredRecord [al1] didAl (document didAl []) "al" 1) [al1, al2] didAl
      (document didAl []) 2) didAl (logOf [al1, al2]) (s.witness "al") rfl (by decide) rfl
  have hrecord : s.record "al" = some (publishedRecord
      (registeredRecord [al1] didAl (document didAl []) "al" 1) [al1, al2] didAl
      (document didAl []) 2) := by
    simp only [s, events, Run.exec_cons, Run.exec_nil]
    exact hpub.record
  have hlog : s.log "al" = some (logOf [al1, al2]) := by
    simp only [s, events, Run.exec_cons, Run.exec_nil]
    exact hpub.log
  obtain ⟨hcount, hedge⟩ :=
    version_count_eq_entryCount control ∅ ∅ events hok "al" _ _ hrecord hlog rfl
  exact ⟨hok, _, _, _, hrecord, hlog, rfl, hcount, hbody, hedge _ _ hbody⟩

/-- A first registration with two entries counts one, and the edges refuse the
update built from the slot. -/
theorem registered_count_mismatch :
    let s := Run.exec (Event.step control) fresh
      [.serve (.register admin 1 "al" (logOf [al1, al2]) false none)]
    ∃ r c body, s.record "al" = some r ∧ s.log "al" = some c ∧ r.method = .webvh ∧
      r.versionCount = 1 ∧ entryCount c = 2 ∧
      syncUpdateBody (fun _ => true) r c (s.witness "al") = some body ∧
      checkEntryCount body ≠ .ok () := by
  simp only [Run.exec_cons, Run.exec_nil]
  have hreg := registered_plain unrestricted_fresh validLog_al2 validateMnemonic_al
    bound_didAl rfl 1
  have hcount := entryCount_logOf validLog_al2.wellFormed
  have hne : didAl ≠ "" := by decide
  refine ⟨_, _, _, hreg.record, hreg.log, rfl, rfl, hcount,
    syncUpdateBody_of_fits rfl hne rfl, ?_⟩
  rw [Ne, checkEntryCount_eq_ok_iff]
  exact fun heq => absurd (hcount.symm.trans heq) (by decide)

end Samples

end DidHosting
