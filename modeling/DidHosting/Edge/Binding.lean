import DidHosting.Common.Chain
import DidHosting.Edge.Reference
import DidHosting.Support.Separators

/-!
# The slot of a synced identifier

An edge binds a did:webvh identifier to a slot through the URL the slot is published at, under
each host it serves, and a did:webs identifier through its end.  An update that is accepted
names a host of the edge; whether it names the slot as well is a condition on the identifier,
the slot and the base.
-/

namespace DidHosting

open Text

/-! ## What an identifier names -/

/-- The identifier's path is the slot: for did:webvh as the library splits it, with `/` for
`:` and `.well-known` for the root, for the other methods with `:` in it. -/
def NamesMnemonic (L : Libs) (method : Method) (did mnemonic : String) : Prop :=
  match method with
  | .webvh => ∃ parsed, L.parseDidUrl did = .ok parsed ∧ parsed.path = "/" ++ mnemonic ++ "/"
  | _ => ∃ parsed, parseIdentifier L method did = .ok parsed ∧
      mnemonic = replaceChar ':' "/" parsed.path

/-- The URL a slot is published at under a base. -/
def PublishedAt (L : Libs) (base mnemonic : String) (url : WebVHURL) : Prop :=
  ∃ u, L.urlParse (trimEndMatches '/' base ++ "/" ++ mnemonic ++ "/did.jsonl") = .ok u ∧
    L.parseUrl u = .ok url

/-- The identifier's host is that of a base. -/
def HostServed (L : Libs) (method : Method) (bases : List String) (update : DidSyncUpdate) :
    Prop :=
  match method with
  | .webvh => ∃ base ∈ bases, ∃ parsed url, L.parseDidUrl update.didId = .ok parsed ∧
      PublishedAt L base update.mnemonic url ∧ parsed.domain = url.domain ∧
      parsed.port = url.port
  | _ => ∃ base ∈ bases, ∃ u, L.urlParse base = .ok u ∧
      urlAuthority u = didHostOrEmpty L update.didId

/-- The condition.  For did:webvh, the slot's URL under a base that the identifier matches has
the slot alone for its path.  For did:webs, the identifier without its query ends in the slot,
and has three `:` more than the slot has `/`. -/
def SlotAlone (L : Libs) (method : Method) (bases : List String) (update : DidSyncUpdate) :
    Prop :=
  match method with
  | .webvh => ∃ base ∈ bases, ∃ url,
      validateDidIdMatchesRequest L update.didId update.mnemonic base = .ok () ∧
        PublishedAt L base update.mnemonic url ∧ url.path = "/" ++ update.mnemonic ++ "/"
  | _ => (parseIdentifier L method update.didId).isOk = true ∧ ':' ∉ update.mnemonic.toList ∧
      endsWith (":" ++ replaceChar '/' ":" update.mnemonic) (beforeQuery update.didId) = true ∧
      (beforeQuery update.didId).toList.count ':' = update.mnemonic.toList.count '/' + 3

/-- The library splits a did:webs identifier into a host and a path, whose labels have no
`/`. -/
def SplitsWebs (L : Libs) : Prop :=
  ∀ did parsed, L.didWebsParse did = .ok parsed → ∃ host, ':' ∉ host.toList ∧
    beforeQuery did =
      "did:webs:" ++ host ++ ":" ++ ":".intercalate (parsed.path ++ [parsed.aid]) ∧
    '/' ∉ (":".intercalate (parsed.path ++ [parsed.aid])).toList

/-! ## Accepted updates -/

section

variable {E : EdgeState} {t : EdgeStore} {method : Method} {update : DidSyncUpdate}

theorem boundAt_of_verifyBinding (h : (verifyBinding E method update).eval t = .ok ()) :
    boundAt E.libs method update (servedBases E t.assignments) = true := by
  have hyields := Query.eval_eq_ok_iff.mp h
  unfold verifyBinding at hyields
  simp only [Query.yields_bind, Query.yields_read, Query.yields_require] at hyields
  obtain ⟨_, -, _, ⟨s, hs, rfl⟩, _, -, hbound⟩ := hyields
  obtain rfl : s = t := hs
  exact hbound

theorem validateDidIdMatchesRequest_spec {L : Libs} {did m base : String}
    (h : validateDidIdMatchesRequest L did m base = .ok ()) :
    ∃ parsed url, L.parseDidUrl did = .ok parsed ∧ PublishedAt L base m url ∧
      parsed.domain = url.domain ∧ parsed.port = url.port ∧ parsed.path = url.path := by
  unfold validateDidIdMatchesRequest at h
  split at h
  · contradiction
  · rename_i parsed hparsed
    simp only at h
    split at h
    · contradiction
    · rename_i u hu
      split at h
      · contradiction
      · rename_i url hurl
        split at h
        · contradiction
        · rename_i hhost
          split at h
          · contradiction
          · rename_i hpath
            have hsame : parsed.domain = url.domain ∧ parsed.port = url.port := by
              simpa using hhost
            exact ⟨parsed, url, hparsed, ⟨u, hu, hurl⟩, hsame.1, hsame.2, by simpa using hpath⟩

/-- A did:webvh identifier that is bound is valid at one of the bases. -/
theorem boundAt_webvh {L : Libs} {bases : List String}
    (h : boundAt L .webvh update bases = true) :
    ∃ base ∈ bases, validateDidIdMatchesRequest L update.didId update.mnemonic base = .ok () := by
  obtain ⟨base, hbase, hok⟩ := List.any_eq_true.mp h
  refine ⟨base, hbase, ?_⟩
  cases hv : validateDidIdMatchesRequest L update.didId update.mnemonic base with
  | ok u => rfl
  | error e =>
      rw [hv] at hok
      contradiction

theorem hostServed_of_boundAt {L : Libs} {bases : List String} (hweb : method ≠ .web)
    (h : boundAt L method update bases = true) : HostServed L method bases update := by
  cases method with
  | web => exact absurd rfl hweb
  | webvh =>
      obtain ⟨base, hbase, hvalid⟩ := boundAt_webvh h
      obtain ⟨parsed, url, hparsed, hurl, hdomain, hport, -⟩ :=
        validateDidIdMatchesRequest_spec hvalid
      exact ⟨base, hbase, parsed, url, hparsed, hurl, hdomain, hport⟩
  | webs =>
      obtain ⟨-, hany⟩ := Bool.and_eq_true_iff.mp h
      obtain ⟨base, hbase, hhost⟩ := List.any_eq_true.mp hany
      cases hparse : L.urlParse base with
      | error e =>
          rw [hparse] at hhost
          contradiction
      | ok u =>
          rw [hparse] at hhost
          exact ⟨base, hbase, u, hparse, of_decide_eq_true hhost⟩

/-- The URLs of an accepted did:webvh identifier have its path. -/
theorem names_iff_webvh {L : Libs} {bases : List String}
    (h : boundAt L .webvh update bases = true) :
    NamesMnemonic L .webvh update.didId update.mnemonic ↔ SlotAlone L .webvh bases update := by
  obtain ⟨base, hbase, hvalid⟩ := boundAt_webvh h
  constructor
  · rintro ⟨parsed, hparsed, hpath⟩
    obtain ⟨parsed', url, hparsed', hurl, -, -, hsame⟩ := validateDidIdMatchesRequest_spec hvalid
    rw [hparsed] at hparsed'
    cases hparsed'
    exact ⟨base, hbase, url, hvalid, hurl, hsame ▸ hpath⟩
  · rintro ⟨base', -, url, hvalid', ⟨u, hu, hurl⟩, hpath⟩
    obtain ⟨parsed, url', hparsed, ⟨u', hu', hurl'⟩, -, -, hsame⟩ :=
      validateDidIdMatchesRequest_spec hvalid'
    rw [hu] at hu'
    cases hu'
    rw [hurl] at hurl'
    cases hurl'
    exact ⟨parsed, hparsed, hsame.trans hpath⟩

theorem parseIdentifier_webs {L : Libs} (hsplit : SplitsWebs L) {did : String}
    {parsed : ParsedDid} (h : parseIdentifier L .webs did = .ok parsed) :
    ∃ host, ':' ∉ host.toList ∧
      beforeQuery did = "did:webs:" ++ host ++ ":" ++ parsed.path ∧ '/' ∉ parsed.path.toList := by
  simp only [parseIdentifier, parseWebsIdentifier] at h
  split at h
  · split at h <;> contradiction
  · rename_i webs hwebs
    obtain ⟨host, hhost, hbefore, hpath⟩ := hsplit did webs hwebs
    split at h
    all_goals
      split at h
      · contradiction
      · cases h
        exact ⟨host, hhost, hbefore, hpath⟩

theorem count_websIdentifier {host path : String} (hhost : ':' ∉ host.toList) :
    ("did:webs:" ++ host ++ ":" ++ path).toList.count ':' = path.toList.count ':' + 3 := by
  have hprefix : "did:webs:".toList.count ':' = 2 := by decide
  have hcolon : ":".toList.count ':' = 1 := by decide
  simp only [String.toList_append, List.count_append, hprefix, hcolon,
    List.count_eq_zero_of_not_mem hhost]
  omega

/-- The end of a did:webs identifier is its path where it has as many labels. -/
theorem names_iff_webs {L : Libs} (hsplit : SplitsWebs L) {bases : List String} :
    NamesMnemonic L .webs update.didId update.mnemonic ↔ SlotAlone L .webs bases update := by
  constructor
  · rintro ⟨parsed, hparsed, hmnemonic⟩
    obtain ⟨host, hhost, hbefore, hslash⟩ := parseIdentifier_webs hsplit hparsed
    have hback : replaceChar '/' ":" update.mnemonic = parsed.path := by
      rw [hmnemonic]
      exact replaceChar_replaceChar (c := ':') hslash
    have hnone : ':' ∉ update.mnemonic.toList := by
      rw [hmnemonic]
      exact not_mem_replaceChar (d := '/') (by decide)
    have hcount : parsed.path.toList.count ':' = update.mnemonic.toList.count '/' := by
      rw [← hback]
      exact count_replaceChar hnone
    refine ⟨by rw [hparsed]; rfl, hnone, ?_, ?_⟩
    · rw [hback, hbefore, endsWith_iff]
      exact ⟨("did:webs:" ++ host).toList, by simp only [String.toList_append, List.append_assoc]⟩
    · rw [hbefore, count_websIdentifier hhost, hcount]
  · rintro ⟨hok, hnone, hend, hcount⟩
    cases hparsed : parseIdentifier L .webs update.didId with
    | error e =>
        rw [hparsed] at hok
        contradiction
    | ok parsed =>
        obtain ⟨host, hhost, hbefore, hslash⟩ := parseIdentifier_webs hsplit hparsed
        have hlabels : (replaceChar '/' ":" update.mnemonic).toList.count ':' =
            parsed.path.toList.count ':' := by
          have hslot : (replaceChar '/' ":" update.mnemonic).toList.count ':' =
              update.mnemonic.toList.count '/' := count_replaceChar hnone
          rw [hbefore, count_websIdentifier hhost] at hcount
          omega
        obtain ⟨front, hfront⟩ := endsWith_iff.mp hend
        have hsplits : front ++ ':' :: (replaceChar '/' ":" update.mnemonic).toList =
            ("did:webs:" ++ host).toList ++ ':' :: parsed.path.toList := by
          rw [hbefore] at hfront
          simpa [String.toList_append, List.append_assoc] using hfront
        have hpath : replaceChar '/' ":" update.mnemonic = parsed.path :=
          String.toList_injective (suffix_eq_of_count hsplits hlabels)
        refine ⟨parsed, hparsed, ?_⟩
        rw [← hpath]
        exact (replaceChar_replaceChar (c := '/') hnone).symm

theorem webvh_webs_false {L : Libs} (hsplit : SplitsWebs L) {did : String} {parsed : ParsedDid}
    (hwebvh : startsWith "did:webvh:" did = true)
    (hwebs : parseIdentifier L .webs did = .ok parsed) : False := by
  obtain ⟨host, -, hbefore, -⟩ := parseIdentifier_webs hsplit hwebs
  have hprefix : (beforeQuery did).toList <+: did.toList := by
    rw [beforeQuery, String.toList_ofList]
    exact List.takeWhile_prefix _
  have hstart : "did:webs:".toList <+: did.toList := by
    refine List.IsPrefix.trans ?_ hprefix
    rw [hbefore]
    exact ⟨(host ++ ":" ++ parsed.path).toList, by
      simp only [String.toList_append, List.append_assoc]⟩
  have hlengths : "did:webs:".toList.length ≤ "did:webvh:".toList.length := by decide
  have hnot : ¬ "did:webs:".toList <+: "did:webvh:".toList := by decide
  exact hnot (List.prefix_of_prefix_length_le hstart (startsWith_iff.mp hwebvh) hlengths)

theorem names_unique {L : Libs} (hsplit : SplitsWebs L) {method method' : Method}
    {did m m' : String} (hweb : method ≠ .web) (hweb' : method' ≠ .web)
    (hstart : method = .webvh → startsWith "did:webvh:" did = true)
    (hstart' : method' = .webvh → startsWith "did:webvh:" did = true)
    (h : NamesMnemonic L method did m) (h' : NamesMnemonic L method' did m') : m = m' := by
  cases method with
  | web => exact absurd rfl hweb
  | webvh =>
      obtain ⟨parsed, hparsed, hpath⟩ := h
      cases method' with
      | web => exact absurd rfl hweb'
      | webvh =>
          obtain ⟨parsed', hparsed', hpath'⟩ := h'
          obtain rfl : parsed = parsed' := Except.ok.inj (hparsed.symm.trans hparsed')
          exact enclosed_inj (hpath.symm.trans hpath')
      | webs =>
          obtain ⟨parsed', hparsed', -⟩ := h'
          exact (webvh_webs_false hsplit (hstart rfl) hparsed').elim
  | webs =>
      obtain ⟨parsed, hparsed, hmnemonic⟩ := h
      cases method' with
      | web => exact absurd rfl hweb'
      | webvh => exact (webvh_webs_false hsplit (hstart' rfl) hparsed).elim
      | webs =>
          obtain ⟨parsed', hparsed', hmnemonic'⟩ := h'
          obtain rfl : parsed = parsed' := Except.ok.inj (hparsed.symm.trans hparsed')
          exact hmnemonic.trans hmnemonic'.symm

theorem startsWith_of_verifyBinding (h : (verifyBinding E .webvh update).eval t = .ok ()) :
    startsWith "did:webvh:" update.didId = true := by
  have hyields := Query.eval_eq_ok_iff.mp h
  unfold verifyBinding at hyields
  simp only [Query.yields_bind, Query.yields_ofExcept] at hyields
  obtain ⟨_, hnamed, -⟩ := hyields
  unfold checkNamedDid at hnamed
  split at hnamed
  · contradiction
  · rename_i hsame
    have hid : extractDidId E.libs update.logContent = some update.didId := by
      simpa using hsame
    exact startsWith_of_extractDidId hid

end

/-- An accepted update names a host of the edge, and it names its slot exactly where the
condition holds; an identifier is accepted at one slot where it does. -/
theorem binding_exact_iff (E : EdgeState) (hwebs : SplitsWebs E.libs) :
    (∀ t method update, method ≠ .web → (verifyBinding E method update).eval t = .ok () →
      HostServed E.libs method (servedBases E t.assignments) update ∧
        (NamesMnemonic E.libs method update.didId update.mnemonic ↔
          SlotAlone E.libs method (servedBases E t.assignments) update)) ∧
    ∀ t t' method method' update update', method ≠ .web → method' ≠ .web →
      (verifyBinding E method update).eval t = .ok () →
      (verifyBinding E method' update').eval t' = .ok () →
      SlotAlone E.libs method (servedBases E t.assignments) update →
      SlotAlone E.libs method' (servedBases E t'.assignments) update' →
      update.didId = update'.didId → update.mnemonic = update'.mnemonic := by
  have hnames : ∀ t method update, method ≠ .web →
      (verifyBinding E method update).eval t = .ok () →
      (NamesMnemonic E.libs method update.didId update.mnemonic ↔
        SlotAlone E.libs method (servedBases E t.assignments) update) := by
    intro t method update hweb haccepted
    cases method with
    | web => exact absurd rfl hweb
    | webvh => exact names_iff_webvh (boundAt_of_verifyBinding haccepted)
    | webs => exact names_iff_webs hwebs
  refine ⟨fun t method update hweb haccepted => ⟨?_, hnames t method update hweb haccepted⟩, ?_⟩
  · exact hostServed_of_boundAt hweb (boundAt_of_verifyBinding haccepted)
  · intro t t' method method' update update' hweb hweb' haccepted haccepted' halone halone' hdid
    have hname := (hnames t method update hweb haccepted).mpr halone
    have hname' := (hnames t' method' update' hweb' haccepted').mpr halone'
    rw [← hdid] at hname'
    refine names_unique hwebs hweb hweb' ?_ ?_ hname hname'
    · rintro rfl
      exact startsWith_of_verifyBinding haccepted
    · rintro rfl
      rw [hdid]
      exact startsWith_of_verifyBinding haccepted'

namespace Binding

/-- An identifier of did:webs, filed under `a/Eaid`. -/
def didWebs : String := "did:webs:h.io:a:Eaid"

/-- The reference libraries with did:webs compiled in, where `didWebs` is the identifier
asked about. -/
def websLibs : Libs :=
  { Reference.libs with
    methodWebs := true
    didWebsParse := fun did =>
      if did = didWebs then .ok ⟨["a"], "Eaid"⟩ else .error "not a did:webs identifier" }

/-- An edge at `https://h.io` with did:webs. -/
def websEdge : EdgeState :=
  ⟨websLibs, some "https://h.io"⟩

/-- An edge's store without a row. -/
def emptyStore : EdgeStore :=
  ⟨DidsKs.empty, ∅, ∅, ∅, none⟩

/-- The identifier's update at a slot. -/
def websUpdate (mnemonic : String) : DidSyncUpdate :=
  ⟨mnemonic, didWebs, "", none, 1, false⟩

theorem splitsWebs_websLibs : SplitsWebs websLibs := by
  intro did parsed h
  have hcases : (if did = didWebs then Except.ok (⟨["a"], "Eaid"⟩ : DidWebs)
      else .error "not a did:webs identifier") = .ok parsed := h
  split at hcases
  · rename_i hdid
    cases hcases
    subst hdid
    exact ⟨"h.io", by decide +kernel⟩
  · contradiction

theorem accepted_websUpdate :
    (verifyBinding websEdge .webs (websUpdate "a/Eaid")).eval emptyStore = .ok () ∧
      (verifyBinding websEdge .webs (websUpdate "Eaid")).eval emptyStore = .ok () := by
  decide +kernel

end Binding

/-- The identifier at its own slot. -/
theorem binding_exact_sample :
    HostServed Binding.websLibs .webs (servedBases Binding.websEdge ∅)
        (Binding.websUpdate "a/Eaid") ∧
      (NamesMnemonic Binding.websLibs .webs Binding.didWebs "a/Eaid" ↔
        SlotAlone Binding.websLibs .webs (servedBases Binding.websEdge ∅)
          (Binding.websUpdate "a/Eaid")) ∧
      SlotAlone Binding.websLibs .webs (servedBases Binding.websEdge ∅)
        (Binding.websUpdate "a/Eaid") := by
  have hall := (binding_exact_iff Binding.websEdge Binding.splitsWebs_websLibs).1
    Binding.emptyStore .webs (Binding.websUpdate "a/Eaid") (by decide) Binding.accepted_websUpdate.1
  exact ⟨hall.1, hall.2, by decide +kernel, by decide +kernel, by decide +kernel, by decide +kernel⟩

/-- The edge accepts the identifier at two slots, one of which it does not name. -/
theorem accepted_at_two_slots :
    ¬ ∀ (E : EdgeState) (t : EdgeStore) (update update' : DidSyncUpdate), SplitsWebs E.libs →
      (verifyBinding E .webs update).eval t = .ok () →
      (verifyBinding E .webs update').eval t = .ok () →
      NamesMnemonic E.libs .webs update.didId update.mnemonic ∧
        (update.didId = update'.didId → update.mnemonic = update'.mnemonic) := by
  intro hclaim
  have hboth := (hclaim Binding.websEdge Binding.emptyStore (Binding.websUpdate "Eaid")
    (Binding.websUpdate "a/Eaid") Binding.splitsWebs_websLibs Binding.accepted_websUpdate.2
    Binding.accepted_websUpdate.1).2 rfl
  exact absurd hboth (by decide)

end DidHosting
