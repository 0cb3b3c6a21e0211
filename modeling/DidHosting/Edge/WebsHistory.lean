import DidHosting.Common.KeyEvents
import DidHosting.Edge.AppendOnly

/-!
# The streams an edge commits

The high-water row of a did:webs identifier extends every stream committed for
it, as long as no update forks the row it is judged against.  Updates that
continue the row keep this; every other operation leaves the row alone.
-/

namespace DidHosting

open Text

/-- The streams committed for a did:webs identifier, oldest first. -/
def streamsOf (L : Libs) (did : String) (committed : List DidSyncUpdate) : List String :=
  (committed.filter fun u =>
    syncedMethod L u.logContent = .webs ∧ u.didId = did).map (·.logContent)

theorem streamsOf_append (L : Libs) (did : String) (committed : List DidSyncUpdate)
    (update : DidSyncUpdate) :
    streamsOf L did (committed ++ [update]) =
      if syncedMethod L update.logContent = .webs ∧ update.didId = did then
        streamsOf L did committed ++ [update.logContent]
      else streamsOf L did committed := by
  rw [streamsOf]
  exact contents_append (fun u => syncedMethod L u.logContent = .webs ∧ u.didId = did) committed
    update

/-- The sync entry does not fork the stream kept for its identifier. -/
def EdgeRun.EntryUnforked (E : EdgeState) (log : String → String → List KeriEvent)
    (r : EdgeRun) (e : ℕ × DidSyncUpdate) : Prop :=
  ∀ parsed held, E.libs.didWebsParse e.2.didId = .ok parsed →
    r.store.highWater e.2.didId = some held → Unforked log parsed.aid held e.2.logContent

/-- No entry of the operation forks the stream kept for its identifier. -/
def EdgeRun.OpUnforked (E : EdgeState) (log : String → String → List KeriEvent)
    (r : EdgeRun) : EdgeOp → Prop
  | .syncUpdate now update => r.EntryUnforked E log (now, update)
  | .syncBatch updates => Run.Meets (EdgeRun.entry E) (EdgeRun.EntryUnforked E log) r updates
  | _ => True

section Applied

variable {E : EdgeState} {update : DidSyncUpdate} {identity : String} {s t : EdgeStore}

/-- The row of a did:webs identifier is written by the updates that name it. -/
theorem Applied.identity_eq_did_iff (h : Applied E update identity s t) {did : String}
    (hdid : ':' ∈ did.toList) :
    identity = did ↔
      syncedMethod E.libs update.logContent ≠ .webvh ∧ update.didId = did := by
  have hid := h.identity_eq
  cases hmethod : syncedMethod E.libs update.logContent with
  | webvh =>
      rw [hmethod] at hid
      unfold didIdentity at hid
      cases hscid : webvhScid update.didId with
      | none => simp [hscid] at hid
      | some scid =>
          simp only [hscid, Except.ok.injEq] at hid
          constructor
          · intro heq
            rw [← heq, ← hid] at hdid
            exact absurd hdid (colon_not_mem_webvhScid hscid)
          · intro hne
            exact absurd rfl hne.1
  | web =>
      rw [hmethod] at hid
      have heq : update.didId = identity := Except.ok.inj hid
      simp [heq]
  | webs =>
      rw [hmethod] at hid
      have heq : update.didId = identity := Except.ok.inj hid
      simp [heq]

/-- An update of another method than did:webvh continues the row of its
identifier. -/
theorem Applied.continues (h : Applied E update identity s t)
    (hmethod : syncedMethod E.libs update.logContent ≠ .webvh) {held : String}
    (hheld : s.highWater identity = some held) :
    verifyContinuation E.libs update.didId held update.logContent = .ok () := by
  have hsucc := h.successor held hheld
  have hcheck : (if E.libs.methodWebs then
      methodErr (verifyContinuation E.libs update.didId held update.logContent)
      else .error (.validation s!"this server cannot verify {(syncedMethod E.libs update.logContent).name} logs")) =
      .ok () := by
    cases hm : syncedMethod E.libs update.logContent with
    | webvh => exact absurd hm hmethod
    | web => rwa [hm] at hsucc
    | webs => rwa [hm] at hsucc
  split at hcheck
  · cases hv : verifyContinuation E.libs update.didId held update.logContent with
    | ok u => rfl
    | error e =>
        rw [hv] at hcheck
        cases hcheck
  · cases hcheck

end Applied

theorem EdgeRun.entry_verified (E : EdgeState) (r : EdgeRun) (e : ℕ × DidSyncUpdate) :
    r.entry E e = r ∨
      (∃ identity, Applied E e.2 identity r.store (r.entry E e).store ∧
        (r.entry E e).committed = r.committed ++ [e.2]) ∧
      ∃ document, verifyContent E.libs (syncedMethod E.libs e.2.logContent) e.2 =
        .ok document := by
  rcases EdgeRun.entry_cases E r e with h | happlied
  · exact Or.inl h
  · rcases EdgeRun.entry_plan E r e with h | ⟨w, hplan, -⟩
    · exact Or.inl h
    · rcases updatePlan_spec hplan with h | ⟨document, _, _, -, -, hcontent, -⟩
      · cases h
      · exact Or.inr ⟨happlied, document, hcontent⟩

/-- What holds of the streams of an edge at every point of a run. -/
structure StreamInv (E : EdgeState) (log : String → String → List KeriEvent)
    (r : EdgeRun) : Prop where
  held : ∀ did parsed, E.libs.didWebsParse did = .ok parsed →
    ∀ stream ∈ streamsOf E.libs did r.committed, ∃ row, r.store.highWater did = some row ∧
      Readable E.libs row parsed.aid ∧
      digests log stream parsed.aid <+: digests log row parsed.aid
  chain : ∀ did parsed, E.libs.didWebsParse did = .ok parsed →
    (streamsOf E.libs did r.committed).Pairwise fun earlier later =>
      digests log earlier parsed.aid <+: digests log later parsed.aid

section Run

variable {E : EdgeState} {log : String → String → List KeriEvent} {r : EdgeRun}

theorem StreamInv.initial (assignments : Table String AssignmentEntry)
    (pendingPurges : Table String PendingPurge) (domains : Table String DomainEntry)
    (defaultDomain : Option String) :
    StreamInv E log (EdgeRun.initial assignments pendingPurges domains defaultDomain) where
  held _ _ _ _ h := absurd h List.not_mem_nil
  chain _ _ _ := List.Pairwise.nil

theorem colon_mem_of_websDid (hK : Keri E.libs log) {did : String} {parsed : DidWebs}
    (hparse : E.libs.didWebsParse did = .ok parsed) : ':' ∈ did.toList := by
  have hscheme := startsWith_iff.mp (hK.aid_label did parsed hparse).2
  exact hscheme.subset (by decide)

/-- The stream of a verified did:webs update is readable. -/
theorem readable_of_verifyContent (hK : Keri E.libs log) {update : DidSyncUpdate}
    {document : Option Json} {parsed : DidWebs}
    (hparse : E.libs.didWebsParse update.didId = .ok parsed)
    (h : verifyContent E.libs .webs update = .ok document) :
    Readable E.libs update.logContent parsed.aid := by
  simp only [verifyContent] at h
  split at h
  · cases hverify : verifyArtifacts E.libs update.didId update.logContent with
    | error e =>
        rw [hverify] at h
        cases h
    | ok derived =>
        obtain ⟨parsed', hparse', hread⟩ := readable_of_verifyArtifacts hK hverify
        rw [hparse] at hparse'
        cases hparse'
        exact hread
  · cases h

theorem StreamInv.entry (hK : Keri E.libs log) (hinv : StreamInv E log r)
    {e : ℕ × DidSyncUpdate} (hfork : r.EntryUnforked E log e) :
    StreamInv E log (r.entry E e) := by
  rcases EdgeRun.entry_verified E r e with h | ⟨⟨identity, happlied, hlogs⟩, document, hcontent⟩
  · rw [h]
    exact hinv
  · obtain ⟨now, update⟩ := e
    -- every stream committed so far is extended by the new one
    have hextends : ∀ did parsed, E.libs.didWebsParse did = .ok parsed → identity = did →
        ∀ stream ∈ streamsOf E.libs did r.committed,
          Readable E.libs update.logContent parsed.aid ∧
            digests log stream parsed.aid <+: digests log update.logContent parsed.aid := by
      intro did parsed hparse hidentity stream hstream
      obtain ⟨row, hrow, hread, hrowPrefix⟩ := hinv.held did parsed hparse stream hstream
      obtain ⟨hmethod, hdid⟩ :=
        (happlied.identity_eq_did_iff (colon_mem_of_websDid hK hparse)).mp hidentity
      have hcontinues := happlied.continues hmethod (hidentity ▸ hrow)
      rw [hdid] at hcontinues
      have hunforked := hfork parsed row (hdid ▸ hparse) (hdid ▸ hrow)
      exact ⟨(verifyContinuation_spec hparse hread hcontinues).1,
        hrowPrefix.trans ((continuation_extends_iff hK hparse hread hcontinues).mpr hunforked)⟩
    constructor
    · intro did parsed hparse stream hstream
      have hiff := happlied.identity_eq_did_iff (colon_mem_of_websDid hK hparse)
      rw [hlogs, streamsOf_append] at hstream
      rw [happlied.highWater]
      by_cases hidentity : identity = did
      · rw [if_pos hidentity.symm]
        split at hstream
        · rename_i hcond
          rcases List.mem_append.mp hstream with hold | hnew
          · obtain ⟨hread, hpre⟩ := hextends did parsed hparse hidentity stream hold
            exact ⟨_, rfl, hread, hpre⟩
          · rw [List.mem_singleton.mp hnew]
            rw [hcond.1] at hcontent
            have hread := readable_of_verifyContent hK (hcond.2 ▸ hparse) hcontent
            exact ⟨_, rfl, hread, List.prefix_refl _⟩
        · obtain ⟨hread, hpre⟩ := hextends did parsed hparse hidentity stream hstream
          exact ⟨_, rfl, hread, hpre⟩
      · rw [if_neg (Ne.symm hidentity)]
        rw [if_neg] at hstream
        · exact hinv.held did parsed hparse stream hstream
        · rintro ⟨hmethod, hdid⟩
          exact hidentity (hiff.mpr ⟨by rw [hmethod]; decide, hdid⟩)
    · intro did parsed hparse
      have hiff := happlied.identity_eq_did_iff (colon_mem_of_websDid hK hparse)
      rw [hlogs, streamsOf_append]
      split
      · rename_i hcond
        have hidentity : identity = did := hiff.mpr ⟨by rw [hcond.1]; decide, hcond.2⟩
        rw [List.pairwise_append]
        refine ⟨hinv.chain did parsed hparse, List.pairwise_singleton _ _, ?_⟩
        intro earlier hearlier later hlater
        rw [List.mem_singleton.mp hlater]
        exact (hextends did parsed hparse hidentity earlier hearlier).2
      · exact hinv.chain did parsed hparse

theorem StreamInv.kept (hinv : StreamInv E log r) {r' : EdgeRun}
    (hmarks : MarksKept r.store r'.store) (hlogs : r'.committed = r.committed) :
    StreamInv E log r' := by
  constructor
  · intro did parsed hparse stream hstream
    rw [hlogs] at hstream
    rw [hmarks.highWater]
    exact hinv.held did parsed hparse stream hstream
  · intro did parsed hparse
    rw [hlogs]
    exact hinv.chain did parsed hparse

theorem StreamInv.step (hK : Keri E.libs log) (hinv : StreamInv E log r) {op : EdgeOp}
    (hfork : r.OpUnforked E log op) : StreamInv E log (r.step E op) := by
  rcases EdgeRun.step_cases E op with ⟨now, update, rfl⟩ | ⟨updates, rfl⟩ | ⟨α, p, hp, hstep⟩
  · exact hinv.entry hK hfork
  · exact Run.exec_invariant (fun _ _ hentry hbefore => hbefore.entry hK hentry) hinv hfork
  · rw [hstep]
    exact hinv.kept (MarksKept.run hp r.store) rfl

theorem StreamInv.run (hK : Keri E.libs log) (hinv : StreamInv E log r) {ops : List EdgeOp}
    (hfork : Run.Meets (EdgeRun.step E) (EdgeRun.OpUnforked E log) r ops) :
    StreamInv E log (Run.exec (EdgeRun.step E) r ops) :=
  Run.exec_invariant (fun _ _ hop hbefore => hbefore.step hK hop) hinv hfork

end Run

end DidHosting
