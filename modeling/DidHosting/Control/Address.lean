import DidHosting.Control.Effects
import DidHosting.Control.Reference
import DidHosting.Control.ServerPush
import DidHosting.Edge.Sync

/-!
# The address of a published slot

A registration checks that the identifier of the log names the slot's own URL.
The later versions of a log go through another front half, which does not make
this check, and a rollback reads the identifier of an older entry.  The binding
of slots to their addresses holds along every run in which these keep naming
the slot.
-/

namespace DidHosting

open Text

/-! ## The condition -/

/-- The latest entry of `content` names slot `m` of this deployment, on the
slot's tagged domain if it has one. -/
def NamesSlot (A : AppState) (m domain content : String) : Prop :=
  ∃ did base, extractDidId A.libs content = some did ∧
    A.config.hostingUrl = some base ∧
    validateDidIdMatchesRequest A.libs did m base = .ok () ∧
    (domain = "" ∨ extractDidHost A.libs did = .ok domain)

/-- A did:webvh log that verifies as a new version of slot `m` names the
slot. -/
def RepublishNamesSlot (A : AppState) (s : ControlStore) (auth : AuthClaims)
    (m didLog : String) : Prop :=
  ∀ r p, s.record m = some r → authorized auth r = true →
    verifyPublication A.libs r.domain m didLog (s.log m) (s.witness m) = .ok p →
      p.method = .webvh → NamesSlot A m r.domain didLog

/-- The event publishes no did:webvh version, and rolls back to none, that
names another address than the slot's own. -/
def KeepsAddress (A : AppState) (s : ControlStore) : Event → Prop
  | .serve (.publish auth _ m didLog _) => RepublishNamesSlot A s auth m didLog
  | .serve (.agentName auth _ m _ didLog _ _) => RepublishNamesSlot A s auth m didLog
  | .serve (.rollback auth _ m targetVersion) =>
      ∀ r c keep, s.record m = some r → authorized auth r = true → s.log m = some c →
        r.method = .webvh → rollbackKeep (entryCount c) targetVersion = .ok keep →
          NamesSlot A m r.domain (truncateLog c keep)
  | _ => True

/-! ## The invariant -/

/-- The record of slot `m`, holding the did:webvh log `c`, is bound to the
slot's address. -/
structure Bound (A : AppState) (m : String) (r : DidRecord) (c : String) : Prop where
  path_valid : validateMnemonic m = .ok ()
  named : ∃ did base, r.didId = some did ∧ extractDidId A.libs c = some did ∧
    A.config.hostingUrl = some base ∧
    validateDidIdMatchesRequest A.libs did m base = .ok () ∧
    (r.domain ≠ "" → extractDidHost A.libs did = .ok r.domain)

/-- What holds of the record and the log of slot `m`. -/
structure AddressInv (A : AppState) (m : String) (record : Option DidRecord)
    (log : Option String) : Prop where
  no_record : record = none → log = none
  mnemonic : ∀ r, record = some r → r.mnemonic = m
  bound : ∀ r c, record = some r → log = some c → r.method = .webvh → Bound A m r c

section

variable {A : AppState} {s : ControlStore}

theorem didHostOrEmpty_ne {L : Libs} {did : String} (h : didHostOrEmpty L did ≠ "") :
    extractDidHost L did = .ok (didHostOrEmpty L did) := by
  unfold didHostOrEmpty at h ⊢
  split at h
  · assumption
  · exact absurd rfl h

/-- A new version that names the slot leaves it bound. -/
theorem Republishes.bound {auth : AuthClaims} {m didLog : String} {r : DidRecord}
    {p : Publication} {now : ℕ} {names : List AgentNameEntry}
    (hrep : Republishes A {s} auth m didLog r p) (hok : RepublishNamesSlot A s auth m didLog)
    (hmethod : r.method = .webvh) :
    Bound A m { republished A.libs r p didLog now with agentNames := names } didLog := by
  have hpath := read_singleton hrep.path_valid
  have hread := read_singleton hrep.record_read
  have hverified := hrep.verified_at
  have hwebvh : p.method = .webvh := hrep.same_method.trans hmethod
  obtain ⟨did, base, hdid, hbase, hbound, hdomain⟩ :=
    hok r p hread hrep.allowed hverified hwebvh
  have hp : p.didId = some did := (verifyPublication_webvh hverified hwebvh).2.1.trans hdid
  refine ⟨?_, did, base, hp, hdid, hbase, hbound, ?_⟩
  · rw [hread, Option.map_some, hmethod] at hpath
    exact hpath
  · -- an empty domain is filled in from the identifier, another one is kept
    intro hne
    change (if r.domain = "" then hostOfDidId A.libs p.didId else r.domain) ≠ "" at hne
    change _ = Except.ok (if r.domain = "" then hostOfDidId A.libs p.didId else r.domain)
    rw [hp] at hne ⊢
    split at hne
    · rename_i hempty
      rw [if_pos hempty]
      exact didHostOrEmpty_ne hne
    · rename_i hempty
      rw [if_neg hempty]
      exact hdomain.resolve_left hempty

theorem registerPrecheck_path {auth : AuthClaims} {path didLog : String}
    (h : registerPrecheck A auth path didLog = .ok ())
    (hm : detectMethod A.libs didLog ≠ some .webs) : validateMnemonic path = .ok () := by
  unfold registerPrecheck at h
  rw [if_neg hm] at h
  split at h
  · contradiction
  · exact h

theorem SlotChange.addressInv {op : Op} {m : String} {record : Option DidRecord}
    {log : Option String} (h : SlotChange A s op m record log)
    (hok : KeepsAddress A s (.serve op)) (hinv : AddressInv A m (s.record m) (s.log m)) :
    AddressInv A m record log := by
  cases h with
  | created hauth =>
      refine ⟨by simp, ?_, ?_⟩
      · rintro r ⟨⟩
        rfl
      · intro r c hr hc hmethod
        split at hc
        · contradiction
        · rename_i hnone
          rw [hinv.no_record (Option.not_isSome_iff_eq_none.mp hnone)] at hc
          contradiction
  | registered hpre hreg =>
      refine ⟨by simp, ?_, ?_⟩
      · rintro r ⟨⟩
        rfl
      · rintro r c ⟨⟩ ⟨⟩ hmethod
        have hverified := hreg.verified_at
        have hdid := (verifyPublication_webvh hverified hmethod).2.1
        rw [hreg.didId_eq] at hdid
        have hnot : ∀ p : Publication, p.method = .webvh → ¬ p.method = .webs := by
          intro p hp hp'
          rw [hp] at hp'
          contradiction
        refine ⟨registerPrecheck_path hpre ?_, _, _, rfl, hdid.symm, hreg.base_eq,
          hreg.bound (hnot _ hmethod), ?_⟩
        · rw [verifyPublication_method hverified]
          simpa using hnot _ hmethod
        · intro hne
          exact absurd (if_neg (hnot _ hmethod)) hne
  | published hrep hnames =>
      refine ⟨by simp, ?_, ?_⟩
      · rintro r ⟨⟩
        have hm := hinv.mnemonic _ (read_singleton hrep.record_read)
        exact hm
      · rintro r c ⟨⟩ ⟨⟩ hmethod
        exact hrep.bound hok hmethod
  | named hrep hclaim heffect =>
      refine ⟨by simp, ?_, ?_⟩
      · rintro r ⟨⟩
        have hm := hinv.mnemonic _ (read_singleton hrep.record_read)
        exact hm
      · rintro r c ⟨⟩ ⟨⟩ hmethod
        exact hrep.bound hok hmethod
  | deleted hread hauth => exact ⟨fun _ => rfl, by simp, by simp⟩
  | rolledBack hread hauth hlog hkeep hlt =>
      refine ⟨by simp, ?_, ?_⟩
      · rintro r ⟨⟩
        have hm := hinv.mnemonic _ hread
        exact hm
      · rintro r c ⟨⟩ ⟨⟩ hmethod
        obtain ⟨did, base, hdid, hbase, hbound, hdomain⟩ :=
          hok _ _ _ hread hauth hlog hmethod hkeep
        exact ⟨(hinv.bound _ _ hread hlog hmethod).path_valid, did, base, hdid, hdid, hbase,
          hbound, hdomain.resolve_left⟩
  | touched hread hsame =>
      refine ⟨by simp, ?_, ?_⟩
      · rintro r ⟨⟩
        rw [hsame.mnemonic]
        exact hinv.mnemonic _ hread
      · rintro r c ⟨⟩ hc hmethod
        have hb := hinv.bound _ c hread hc (hsame.method ▸ hmethod)
        refine ⟨hb.path_valid, ?_⟩
        rw [hsame.didId, hsame.domain]
        exact hb.named

theorem addressInv_step (e : Event) (hok : KeepsAddress A s e)
    (hinv : ∀ m, AddressInv A m (s.record m) (s.log m)) (m : String) :
    AddressInv A m ((e.step A s).record m) ((e.step A s).log m) := by
  cases e with
  | administer acl domains => exact hinv m
  | serve op => exact slotwise_step (fun m record log hslot => hslot.addressInv hok) hinv m

end

theorem addressInv_initial (A : AppState) (acl : Table String AclEntry)
    (domains : Table String DomainEntry) (m : String) :
    AddressInv A m ((ControlStore.initial acl domains).record m)
      ((ControlStore.initial acl domains).log m) :=
  ⟨fun _ => rfl, fun _ h => by contradiction, fun _ _ h => by contradiction⟩

/-! ## Distinct slots -/

/-- How URL parsing treats the URL of a slot under `base`: the path of the
parsed URL is the path of the base, followed by the slot. -/
def SlotUrls (L : Libs) (base : String) : Prop :=
  ∃ basePath : String, ∀ m, validateMnemonic m = .ok () → ∀ u url,
    L.urlParse (trimEndMatches '/' base ++ "/" ++ m ++ "/did.jsonl") = .ok u →
      L.parseUrl u = .ok url → url.path = basePath ++ "/" ++ m ++ "/"

/-- What an accepted identifier says about the slot's URL. -/
theorem validateDidIdMatchesRequest_path {L : Libs} {did m base : String}
    (h : validateDidIdMatchesRequest L did m base = .ok ()) :
    ∃ parsed u url, L.parseDidUrl did = .ok parsed ∧
      L.urlParse (trimEndMatches '/' base ++ "/" ++ m ++ "/did.jsonl") = .ok u ∧
      L.parseUrl u = .ok url ∧ parsed.path = url.path := by
  unfold validateDidIdMatchesRequest at h
  split at h
  · contradiction
  · rename_i parsed hparsed
    simp only at h
    split at h
    · contradiction
    · rename_i u hu
      split at h
      · contradiction
      · rename_i url hurl
        split at h
        · contradiction
        · split at h
          · contradiction
          · rename_i hpath
            exact ⟨parsed, u, url, hparsed, hu, hurl, by simpa using hpath⟩

theorem slot_eq_of_accepted {L : Libs} {did m m' base : String} (hurls : SlotUrls L base)
    (hm : validateMnemonic m = .ok ()) (hm' : validateMnemonic m' = .ok ())
    (h : validateDidIdMatchesRequest L did m base = .ok ())
    (h' : validateDidIdMatchesRequest L did m' base = .ok ()) : m = m' := by
  obtain ⟨basePath, hlaw⟩ := hurls
  obtain ⟨parsed, u, url, hparsed, hu, hurl, hpath⟩ := validateDidIdMatchesRequest_path h
  obtain ⟨parsed', u', url', hparsed', hu', hurl', hpath'⟩ :=
    validateDidIdMatchesRequest_path h'
  rw [hparsed] at hparsed'
  cases hparsed'
  have heq : basePath ++ "/" ++ m ++ "/" = basePath ++ "/" ++ m' ++ "/" := by
    rw [← hlaw m hm u url hu hurl, ← hlaw m' hm' u' url' hu' hurl', ← hpath, ← hpath']
  have hchars := congrArg String.toList heq
  simp only [String.toList_append, List.append_assoc, List.append_cancel_left_eq,
    List.append_cancel_right_eq] at hchars
  exact String.toList_injective hchars

/-! ## The guarantee -/

/-- In every run whose versions keep naming their own slot, every slot that
holds a did:webvh log is bound to its address, two slots never publish the same
DID, and the update built from a slot passes the binding check of an edge that
serves the hosting URL. -/
theorem published_slots_bound (A : AppState) (acl : Table String AclEntry)
    (domains : Table String DomainEntry) (events : List Event)
    (hok : Run.Meets (Event.step A) (KeepsAddress A) (ControlStore.initial acl domains)
      events)
    (hurls : ∀ base, A.config.hostingUrl = some base → SlotUrls A.libs base) :
    let s := Run.exec (Event.step A) (ControlStore.initial acl domains) events
    ∀ m r c, s.record m = some r → s.log m = some c → r.method = .webvh →
      (∃ did base, r.didId = some did ∧ A.config.hostingUrl = some base ∧
        validateDidIdMatchesRequest A.libs did m base = .ok () ∧
        (r.domain ≠ "" → extractDidHost A.libs did = .ok r.domain)) ∧
      (∀ m' r' c', s.record m' = some r' → s.log m' = some c' → r'.method = .webvh →
        r'.didId = r.didId → m' = m) ∧
      ∀ fits body (E : EdgeState) (t : EdgeStore), E.libs = A.libs →
        (∀ base, A.config.hostingUrl = some base → base ∈ servedBases E t.assignments) →
        syncUpdateBody fits r c (s.witness m) = some body →
          (verifyBinding E .webvh body).eval t = .ok () := by
  intro s m r c hr hc hmethod
  have hinv : ∀ m, AddressInv A m (s.record m) (s.log m) :=
    Run.exec_invariant (fun _ e => addressInv_step e) (addressInv_initial A acl domains) hok
  have hbound := (hinv m).bound r c hr hc hmethod
  obtain ⟨did, base, hdid, hlog, hbase, hnames, hdomain⟩ := hbound.named
  refine ⟨⟨did, base, hdid, hbase, hnames, hdomain⟩, ?_, ?_⟩
  · intro m' r' c' hr' hc' hmethod' hsame
    have hbound' := (hinv m').bound r' c' hr' hc' hmethod'
    obtain ⟨did', base', hdid', -, hbase', hnames', -⟩ := hbound'.named
    rw [hsame, hdid] at hdid'
    rw [hbase] at hbase'
    cases hdid'
    cases hbase'
    exact slot_eq_of_accepted (hurls base hbase) hbound'.path_valid hbound.path_valid hnames'
      hnames
  · intro fits body E t hlibs hserved hbody
    obtain ⟨hm, hd, hl, -, -⟩ := syncUpdateBody_spec hbody
    rw [hdid] at hd
    cases hd
    have hnamed : checkNamedDid E.libs .webvh body = .ok () := by
      unfold checkNamedDid
      rw [hlibs, hl, hlog]
      simp
    have hmem := hserved base hbase
    have hat : boundAt E.libs .webvh body (servedBases E t.assignments) = true := by
      unfold boundAt
      rw [List.any_eq_true]
      refine ⟨base, hmem, ?_⟩
      rw [hlibs, hm, (hinv m).mnemonic r hr, hnames]
      rfl
    rw [Query.eval_eq_ok_iff]
    unfold verifyBinding
    simp only [Query.yields_bind, Query.yields_read, Query.yields_ofExcept,
      Query.yields_require]
    refine ⟨(), hnamed, _, ⟨t, rfl, rfl⟩, (), ?_, hat⟩
    simpa using List.ne_nil_of_mem hmem

section Samples

open Reference

theorem slotUrls_reference : SlotUrls libs "https://h.io" := by
  refine ⟨"", ?_⟩
  intro m _ u url hu hurl
  have htrim : trimEndMatches '/' "https://h.io" = "https://h.io" := by decide +kernel
  rw [htrim] at hu
  have htext : u.text = "https://h.io" ++ "/" ++ m ++ "/did.jsonl" := by
    change urlParse _ = _ at hu
    unfold urlParse at hu
    split at hu
    · cases hu
      rfl
    · contradiction
  have hstrip : stripPrefix "https://" u.text =
      some (String.ofList ("h.io/".toList ++ m.toList ++ "/did.jsonl".toList)) := by
    rw [htext]
    simp [stripPrefix, startsWith, String.toList_append]
  have hsplit : rsplitOnce '/'
      (String.ofList ("h.io/".toList ++ m.toList ++ "/did.jsonl".toList)) =
      some (String.ofList ("h.io/".toList ++ m.toList), "did.jsonl") := by
    simp [rsplitOnce]
  change parseUrl u = _ at hurl
  unfold parseUrl at hurl
  rw [hstrip, Option.bind_some, hsplit] at hurl
  cases hurl
  apply String.toList_injective
  simp [String.toList_append]

/-- The guarantee along a run that registers slot `al`, publishes a second version
there, and registers slot `bo`: an edge that serves the host takes the update. -/
theorem published_slots_bound_versions :
    let events : List Event :=
      [.serve (.register admin 1 "al" (logOf [al1]) false none),
        .serve (.publish admin 2 "al" (logOf [al1, al2]) none),
        .serve (.register admin 3 "bo" (logOf [bo1]) false none)]
    let s := Run.exec (Event.step control) fresh events
    let E : EdgeState := ⟨libs, some "https://h.io"⟩
    Run.Meets (Event.step control) (KeepsAddress control) fresh events ∧
      SlotUrls libs "https://h.io" ∧
      (∃ r, s.record "bo" = some r ∧ r.didId = some didBo) ∧
      ∃ r c body, s.record "al" = some r ∧ s.log "al" = some c ∧ r.didId = some didAl ∧
        (∃ did base, r.didId = some did ∧ control.config.hostingUrl = some base ∧
          validateDidIdMatchesRequest libs did "al" base = .ok () ∧
          (r.domain ≠ "" → extractDidHost libs did = .ok r.domain)) ∧
        (∀ m' r' c', s.record m' = some r' → s.log m' = some c' → r'.method = .webvh →
          r'.didId = r.didId → m' = "al") ∧
        syncUpdateBody (fun _ => true) r c (s.witness "al") = some body ∧
        ∀ t : EdgeStore, (verifyBinding E .webvh body).eval t = .ok () := by
  intro events s E
  have hreg := registered_plain unrestricted_fresh validLog_al1 validateMnemonic_al bound_didAl
    rfl 1
  have hpub := published_plain hreg.unrestricted hreg.record rfl
    (registeredRecord_agentNames_plain ..) validLog_al2 validateMnemonic_al 2
  have hpublish : KeepsAddress control
      (Event.step control fresh (.serve (.register admin 1 "al" (logOf [al1]) false none)))
      (.serve (.publish admin 2 "al" (logOf [al1, al2]) none)) := by
    intro r p hr _ _ _
    rw [hreg.record] at hr
    cases hr
    exact ⟨didAl, "https://h.io", validLog_al2.extractDidId_eq, rfl, bound_didAl, Or.inl rfl⟩
  have hok : Run.Meets (Event.step control) (KeepsAddress control) fresh events :=
    ⟨trivial, hpublish, trivial, trivial⟩
  have hurls : ∀ base, control.config.hostingUrl = some base → SlotUrls libs base := by
    rintro base ⟨⟩
    exact slotUrls_reference
  have hbo := stored_register hpub.unrestricted validLog_bo1 validateMnemonic_bo bound_didBo
    (hpub.others "bo" (by decide) |>.1.trans (hreg.others "bo" (by decide)).1) (by
      rw [agentNames_bo1]
      intro n hn
      rw [List.mem_singleton.mp hn, ControlStore.nameHolder, hpub.names, hreg.names]
      exact ⟨by decide +kernel, rfl⟩) 3
  have hrecord : s.record "al" = some (publishedRecord
      (registeredRecord [al1] didAl (document didAl []) "al" 1) [al1, al2] didAl
      (document didAl []) 2) := by
    simp only [s, events, Run.exec_cons, Run.exec_nil]
    exact (hbo.others "al" (by decide)).1.trans hpub.record
  have hlog : s.log "al" = some (logOf [al1, al2]) := by
    simp only [s, events, Run.exec_cons, Run.exec_nil]
    exact (hbo.others "al" (by decide)).2.trans hpub.log
  have hother : s.record "bo" =
      some (registeredRecord [bo1] didBo (document didBo ["https://h.io/@bo"]) "bo" 3) := by
    simp only [s, events, Run.exec_cons, Run.exec_nil]
    exact hbo.record
  obtain ⟨hbinding, hunique, hedge⟩ :=
    published_slots_bound control ∅ ∅ events hok hurls "al" _ _ hrecord hlog rfl
  have hbody := @syncUpdateBody_of_fits (fun _ => true)
    (publishedRecord (registeredRecord [al1] didAl (document didAl []) "al" 1) [al1, al2] didAl
      (document didAl []) 2) didAl (logOf [al1, al2]) (s.witness "al") rfl (by decide) rfl
  refine ⟨hok, slotUrls_reference, ⟨_, hother, rfl⟩, _, _, _, hrecord, hlog, rfl, hbinding,
    hunique, hbody, fun t => hedge _ _ E t rfl ?_ hbody⟩
  rintro base ⟨⟩
  exact List.mem_append_left _ List.mem_cons_self

/-- A second version may move the DID to another slot: slot `al` then publishes
an identifier that names slot `bo`. -/
theorem published_slot_moved :
    let s := Run.exec (Event.step control) fresh
      [.serve (.register admin 1 "al" (logOf [al1]) false none),
        .serve (.publish admin 2 "al" (logOf [al1, moved2]) none)]
    ∃ r c, s.record "al" = some r ∧ s.log "al" = some c ∧ r.method = .webvh ∧
      r.didId = some didBo ∧
      validateDidIdMatchesRequest libs didBo "al" "https://h.io" ≠ .ok () ∧
      validateDidIdMatchesRequest libs didBo "bo" "https://h.io" = .ok () := by
  simp only [Run.exec_cons, Run.exec_nil]
  have hreg := registered_plain unrestricted_fresh validLog_al1 validateMnemonic_al bound_didAl
    rfl 1
  have hpub := published_plain hreg.unrestricted hreg.record rfl rfl validLog_moved
    validateMnemonic_al 2
  exact ⟨_, _, hpub.record, hpub.log, rfl, rfl, by decide +kernel, by decide +kernel⟩

end Samples

end DidHosting
