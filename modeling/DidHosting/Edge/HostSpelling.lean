import DidHosting.Common.Domain
import DidHosting.Common.Mnemonic
import DidHosting.Common.Reference
import DidHosting.Support.AsciiCase

/-!
# Host spellings

A resolution is allowed when the request's host is the DID's and an active domain of the
server.  The first check ignores the case of ASCII letters; the second one looks the
host up by its canonical name, and refuses every host with an upper-case letter as
malformed.  The index of agent names is read under the host as it was spelled.
-/

namespace DidHosting

open Text

/-! ## Resolution -/

/-- The errors of a resolution: `AppError`, with the one of a disabled domain. -/
inductive ResolutionError where
  | app (e : AppError)
  | domainDisabled (domain : String)
deriving DecidableEq, Repr

/-- The HTTP status of an error. -/
def ResolutionError.status : ResolutionError → ℕ
  | .app (.internal _) => 500
  | .app (.notFound _) => 404
  | .app (.conflict _) => 409
  | .app (.forbidden _) => 403
  | .app (.validation _) => 400
  | .app (.quotaExceeded _) => 403
  | .app (.agentName .notFound) => 404
  | .app (.agentName .reserved) => 409
  | .app (.agentName .taken) => 409
  | .app (.agentName .alsoKnownAsMismatch) => 400
  | .domainDisabled _ => 503

section Gate

variable (L : Libs) (domains : Table String DomainEntry)

def assertRequestHostMatchesDid (requestHost didId : String) : Except ResolutionError Unit :=
  match extractDidHost L didId with
  | .error _ => .error (.app (.notFound s!"did identifier unparseable: {didId}"))
  | .ok embeddedHost =>
      if eqIgnoreAsciiCase requestHost embeddedHost then .ok ()
      else .error (.app (.notFound s!"no DID resolvable at host {requestHost}"))

def assertDomainActiveForResolution (host : String) : Except ResolutionError Unit := do
  match ← (getDomain L domains host).mapError .app with
  | none => .error (.app (.notFound s!"domain not configured: {host}"))
  | some entry => if entry.status = .active then .ok () else .error (.domainDisabled host)

def assertResolutionAllowed (requestHost : Option String) (didId : String) :
    Except ResolutionError Unit :=
  if (Table.rows domains).isEmpty then .ok ()
  else
    match requestHost with
    | none => .error (.app (.notFound s!"no resolvable request host for {didId}"))
    | some requestHost => do
        assertRequestHostMatchesDid L requestHost didId
        assertDomainActiveForResolution L domains requestHost

/-- The verdict of the gate: none when the resolution is allowed, and otherwise the status
of the answer. -/
def verdict (requestHost didId : String) : Option ℕ :=
  match assertResolutionAllowed L domains (some requestHost) didId with
  | .ok _ => none
  | .error e => some e.status

end Gate

def agentNameKey (domain name : String) : String :=
  s!"name:{domain}:{name}"

/-- The key under which the agent-name route looks a name up. -/
def lookupKey (requestHost rawName : String) : String :=
  agentNameKey requestHost (bareName rawName)

/-- Two spellings of one host. -/
def SameHost (a b : String) : Prop :=
  eqIgnoreAsciiCase a b = true

/-! ## Canonical names -/

section Normal

variable {L : Libs}

theorem isUpper_of_lower {c : Char}
    (h : c.isLower = true ∨ c.isDigit = true ∨ c ∈ ['-', '.', '_', '/', ':']) :
    c.isUpper = false := by
  rw [← Bool.not_eq_true, isUpper_iff]
  rcases h with hlower | hdigit | hmark
  · rw [isLower_iff] at hlower
    omega
  · rw [isDigit_iff] at hdigit
    omega
  · simp only [List.mem_cons, List.not_mem_nil, or_false] at hmark
    rcases hmark with rfl | rfl | rfl | rfl | rfl <;> decide

/-- A text without upper-case letters. -/
def NoUpper (s : String) : Prop :=
  ∀ c ∈ s.toList, c.isUpper = false

theorem NoUpper.append {a b : String} (ha : NoUpper a) (hb : NoUpper b) : NoUpper (a ++ b) := by
  intro c hc
  rw [String.toList_append, List.mem_append] at hc
  exact hc.elim (ha c) (hb c)

theorem noUpper_repr (n : ℕ) : NoUpper (toString n) := by
  intro c hc
  have hmem : c ∈ Nat.toDigits 10 n := by
    have hlist : (toString n).toList = Nat.toDigits 10 n := String.toList_ofList
    rwa [hlist] at hc
  exact isUpper_of_lower (Or.inr (Or.inl
    (Nat.isDigit_of_mem_toDigits (by decide) (by decide) hmem)))

theorem noUpper_normalizeHost {host canonical : String}
    (h : normalizeHost L host = .ok canonical) : NoUpper canonical := by
  obtain ⟨⟨hostPart, port⟩, -, h⟩ := bind_eq_ok h
  simp only at h
  split at h
  · cases h
  · rename_i s hparsed
    split at h
    · cases h
    · rename_i hchars
      have hs : NoUpper s := by
        intro c hc
        have hall : s.toList.all isHostChar = true := by simpa using hchars
        have hchar := List.all_eq_true.mp hall c hc
        refine isUpper_of_lower ?_
        simp only [isHostChar, Bool.or_eq_true, beq_iff_eq] at hchar
        rcases hchar with ((hlower | hdigit) | rfl) | rfl
        · exact Or.inl hlower
        · exact Or.inr (Or.inl hdigit)
        · exact Or.inr (Or.inr (by decide))
        · exact Or.inr (Or.inr (by decide))
      cases h
      cases port with
      | none => exact hs
      | some p =>
          have hcolon : NoUpper ":" := by
            intro c hc
            obtain rfl : c = ':' := by simpa using hc
            rfl
          exact (hs.append hcolon).append (noUpper_repr p)
  · cases h

theorem noUpper_normalizePath {path canonical : String}
    (h : normalizePath path = .ok canonical) : NoUpper canonical := by
  unfold normalizePath at h
  split at h
  · cases h
  · split at h
    · cases h
    · split at h
      · cases h
      · split at h
        · cases h
        · rename_i hnone
          cases h
          intro c hc
          have hchar : isPathPrefixChar c = true := by
            have := List.find?_eq_none.mp hnone c hc
            simpa using this
          refine isUpper_of_lower ?_
          simp only [isPathPrefixChar, Bool.or_eq_true, beq_iff_eq] at hchar
          rcases hchar with ((((hlower | hdigit) | rfl) | rfl) | rfl) | rfl
          · exact Or.inl hlower
          · exact Or.inr (Or.inl hdigit)
          all_goals exact Or.inr (Or.inr (by decide))

theorem noUpper_canonicalDomain {input canonical : String}
    (h : canonicalDomain L input = .ok canonical) : NoUpper canonical := by
  unfold canonicalDomain at h
  split at h
  · exact noUpper_normalizeHost h
  · obtain ⟨host, hhost, h⟩ := bind_eq_ok h
    obtain ⟨path, hpath, h⟩ := bind_eq_ok h
    cases h
    have hslash : NoUpper "/" := by
      intro c hc
      obtain rfl : c = '/' := by simpa using hc
      rfl
    exact ((noUpper_normalizeHost hhost).append hslash).append (noUpper_normalizePath hpath)

/-- A canonical name has no upper-case letters. -/
theorem noUpper_of_normal {name canonical : String}
    (h : normalizeDomainName L name = .ok canonical) : NoUpper name := by
  have hsame := normalizeDomainName_eq_ok h
  subst hsame
  unfold normalizeDomainName at h
  split at h
  · cases h
  · split at h
    · cases h
    · split at h
      · cases h
      · split at h
        · cases h
        · obtain ⟨c, hcanonical, h⟩ := bind_eq_ok h
          split at h
          · cases h
          · cases h
            exact noUpper_canonicalDomain hcanonical

theorem splitHostPort_error {host : String} {e : AppError}
    (h : splitHostPort host = .error e) : ∃ msg, e = .validation msg := by
  unfold splitHostPort at h
  repeat' split at h
  all_goals cases h
  all_goals exact ⟨_, rfl⟩

theorem normalizeHost_error {host : String} {e : AppError}
    (h : normalizeHost L host = .error e) : ∃ msg, e = .validation msg := by
  rcases bind_eq_error h with hsplit | ⟨⟨hostPart, port⟩, -, h⟩
  · exact splitHostPort_error hsplit
  · simp only at h
    repeat' split at h
    all_goals cases h
    all_goals exact ⟨_, rfl⟩

theorem normalizePath_error {path : String} {e : AppError}
    (h : normalizePath path = .error e) : ∃ msg, e = .validation msg := by
  unfold normalizePath at h
  repeat' split at h
  all_goals cases h
  all_goals exact ⟨_, rfl⟩

theorem normalizeDomainName_error {name : String} {e : AppError}
    (h : normalizeDomainName L name = .error e) : ∃ msg, e = .validation msg := by
  unfold normalizeDomainName at h
  split at h
  · cases h
    exact ⟨_, rfl⟩
  · split at h
    · cases h
      exact ⟨_, rfl⟩
    · split at h
      · cases h
        exact ⟨_, rfl⟩
      · split at h
        · cases h
          exact ⟨_, rfl⟩
        · rcases bind_eq_error h with hcanonical | ⟨c, -, h⟩
          · unfold canonicalDomain at hcanonical
            split at hcanonical
            · exact normalizeHost_error hcanonical
            · rcases bind_eq_error hcanonical with hhost | ⟨host, -, hcanonical⟩
              · exact normalizeHost_error hhost
              · rcases bind_eq_error hcanonical with hpath | ⟨path, -, hcanonical⟩
                · exact normalizePath_error hpath
                · cases hcanonical
          · split at h
            · cases h
              exact ⟨_, rfl⟩
            · cases h

end Normal

/-! ## Verdicts -/

/-- The host is a spelling of the DID's own. -/
def HostMatches (L : Libs) (host did : String) : Prop :=
  ∃ embedded, extractDidHost L did = .ok embedded ∧ SameHost host embedded

/-- The host has another spelling. -/
def HasLetter (host : String) : Prop :=
  ∃ c ∈ host.toList, c.isAlpha = true

theorem SameHost.symm {a b : String} (h : SameHost a b) : SameHost b a :=
  eqIgnoreAsciiCase_iff.mpr (eqIgnoreAsciiCase_iff.mp h).symm

theorem HostMatches.congr {L : Libs} {host other did : String} (hsame : SameHost host other)
    (h : HostMatches L host did) : HostMatches L other did := by
  obtain ⟨embedded, hembedded, hmatch⟩ := h
  refine ⟨embedded, hembedded, eqIgnoreAsciiCase_iff.mpr ?_⟩
  rw [← eqIgnoreAsciiCase_iff.mp hsame]
  exact eqIgnoreAsciiCase_iff.mp hmatch

section Verdicts

variable {L : Libs} {domains : Table String DomainEntry} {host did : String}

theorem verdict_of_empty (h : (Table.rows domains).isEmpty = true) :
    verdict L domains host did = none := by
  unfold verdict assertResolutionAllowed
  rw [if_pos h]

theorem matches_of_checked {u : Unit} (h : assertRequestHostMatchesDid L host did = .ok u) :
    HostMatches L host did := by
  unfold assertRequestHostMatchesDid at h
  split at h
  · cases h
  · rename_i embedded hembedded
    split at h
    · exact ⟨embedded, hembedded, by assumption⟩
    · cases h

theorem checked_of_matches (h : HostMatches L host did) :
    assertRequestHostMatchesDid L host did = .ok () := by
  obtain ⟨embedded, hembedded, hsame⟩ := h
  unfold assertRequestHostMatchesDid
  rw [hembedded]
  exact if_pos hsame

theorem verdict_of_mismatch (hrows : (Table.rows domains).isEmpty = false)
    (h : ¬HostMatches L host did) : verdict L domains host did = some 404 := by
  have hfail : ∃ msg, assertRequestHostMatchesDid L host did = .error (.app (.notFound msg)) := by
    cases hcheck : assertRequestHostMatchesDid L host did with
    | ok u => exact absurd (matches_of_checked hcheck) h
    | error e =>
        unfold assertRequestHostMatchesDid at hcheck
        split at hcheck
        · cases hcheck
          exact ⟨_, rfl⟩
        · split at hcheck
          · cases hcheck
          · cases hcheck
            exact ⟨_, rfl⟩
  obtain ⟨msg, hfail⟩ := hfail
  unfold verdict assertResolutionAllowed
  simp only [hrows, Bool.false_eq_true, if_false, hfail]
  rfl

/-- A host of the DID is looked up by its canonical name. -/
theorem verdict_of_matches (hrows : (Table.rows domains).isEmpty = false)
    (h : HostMatches L host did) :
    verdict L domains host did =
      match assertDomainActiveForResolution L domains host with
      | .ok _ => none
      | .error e => some e.status := by
  unfold verdict assertResolutionAllowed
  simp only [hrows, Bool.false_eq_true, if_false, checked_of_matches h]
  rfl

theorem verdict_of_not_normal (hrows : (Table.rows domains).isEmpty = false)
    (h : HostMatches L host did) (hnormal : ∀ c, normalizeDomainName L host ≠ .ok c) :
    verdict L domains host did = some 400 := by
  rw [verdict_of_matches hrows h]
  cases hname : normalizeDomainName L host with
  | ok c => exact absurd hname (hnormal c)
  | error e =>
      obtain ⟨msg, rfl⟩ := normalizeDomainName_error hname
      unfold assertDomainActiveForResolution getDomain
      rw [hname]
      rfl

theorem verdict_of_normal (hrows : (Table.rows domains).isEmpty = false)
    (h : HostMatches L host did) {c : String} (hnormal : normalizeDomainName L host = .ok c) :
    verdict L domains host did ≠ some 400 := by
  have hrow : getDomain L domains host = .ok (domains.lookup c) := by
    unfold getDomain
    rw [hnormal]
    rfl
  rw [verdict_of_matches hrows h]
  unfold assertDomainActiveForResolution
  rw [hrow]
  cases domains.lookup c with
  | none =>
      change some 404 ≠ some 400
      decide
  | some entry =>
      by_cases hactive : entry.status = .active
      · simp [Except.mapError, bind, Except.bind, hactive]
      · simp [Except.mapError, bind, Except.bind, hactive, ResolutionError.status]

end Verdicts

/-! ## Independence of the spelling -/

section Spelling

variable (L : Libs) (domains : Table String DomainEntry) (did host : String)

theorem eq_of_not_hasLetter {host other : String} (hletter : ¬HasLetter host)
    (hsame : SameHost host other) : other = host := by
  refine (eq_of_lowerCase_eq ?_ (eqIgnoreAsciiCase_iff.mp hsame)).symm
  intro c hc
  by_contra halpha
  exact hletter ⟨c, hc, by simpa using halpha⟩

/-- The verdict is the same for every spelling when no domain is configured, when the host
is not the DID's, when no spelling is canonical, or when there is only one. -/
theorem verdict_spelling_iff :
    (∀ other, SameHost host other → verdict L domains other did = verdict L domains host did) ↔
      (Table.rows domains).isEmpty = true ∨ ¬HostMatches L host did ∨
        (∀ c, normalizeDomainName L (lowerCase host) ≠ .ok c) ∨ ¬HasLetter host := by
  constructor
  · intro hall
    by_contra hnot
    rw [not_or, not_or, not_or, not_not, not_not, Bool.not_eq_true] at hnot
    obtain ⟨hrows, hmatch, hnormal, c, hc, halpha⟩ := hnot
    simp only [ne_eq, not_forall, not_not] at hnormal
    obtain ⟨name, hnormal⟩ := hnormal
    have hlower : SameHost host (lowerCase host) :=
      eqIgnoreAsciiCase_iff.mpr (lowerCase_lowerCase host).symm
    have hupper : SameHost host (upperCase host) :=
      eqIgnoreAsciiCase_iff.mpr (lowerCase_upperCase host).symm
    -- the upper-case spelling is refused, the lower-case one is looked up
    have hrefused := verdict_of_not_normal (L := L) hrows (hmatch.congr hupper) (by
      intro name hname
      obtain ⟨d, hd, hup⟩ := exists_isUpper_upperCase hc halpha
      rw [noUpper_of_normal hname d hd] at hup
      cases hup)
    refine verdict_of_normal hrows (hmatch.congr hlower) hnormal ?_
    rw [hall _ hlower, ← hall _ hupper]
    exact hrefused
  · rintro hcases other hsame
    cases hrows : (Table.rows domains).isEmpty with
    | true => rw [verdict_of_empty hrows, verdict_of_empty hrows]
    | false =>
        rw [hrows] at hcases
        rcases hcases with hempty | hmismatch | hnormal | hletter
        · cases hempty
        · have hother : ¬HostMatches L other did := fun h => hmismatch (h.congr hsame.symm)
          rw [verdict_of_mismatch hrows hmismatch, verdict_of_mismatch hrows hother]
        · -- a canonical spelling would be the lower-case one
          have hrefused : ∀ spelling, SameHost host spelling →
              ∀ c, normalizeDomainName L spelling ≠ .ok c := by
            intro spelling hspelling c hc
            have hself := lowerCase_eq_self (noUpper_of_normal hc)
            rw [← eqIgnoreAsciiCase_iff.mp hspelling] at hself
            rw [← hself] at hc
            exact hnormal c hc
          by_cases hmatch : HostMatches L host did
          · rw [verdict_of_not_normal hrows hmatch
              (hrefused host (eqIgnoreAsciiCase_iff.mpr rfl)),
              verdict_of_not_normal hrows (hmatch.congr hsame) (hrefused other hsame)]
          · have hother : ¬HostMatches L other did := fun h => hmatch (h.congr hsame.symm)
            rw [verdict_of_mismatch hrows hmatch, verdict_of_mismatch hrows hother]
        · rw [eq_of_not_hasLetter hletter hsame]

/-- Names are looked up under one key for every spelling only when there is one
spelling. -/
theorem lookupKey_spelling_iff :
    (∀ other, SameHost host other → ∀ name, lookupKey other name = lookupKey host name) ↔
      ¬HasLetter host := by
  constructor
  · rintro hall ⟨c, hc, halpha⟩
    have hlower : SameHost host (lowerCase host) :=
      eqIgnoreAsciiCase_iff.mpr (lowerCase_lowerCase host).symm
    have hupper : SameHost host (upperCase host) :=
      eqIgnoreAsciiCase_iff.mpr (lowerCase_upperCase host).symm
    have hkeys := (hall _ hupper "").trans (hall _ hlower "").symm
    have hhosts : upperCase host = lowerCase host := by
      have hlist := congrArg String.toList hkeys
      simp [lookupKey, agentNameKey] at hlist
      exact String.toList_inj.mp hlist
    obtain ⟨d, hd, hup⟩ := exists_isUpper_upperCase hc halpha
    rw [hhosts, lowerCase, String.toList_ofList, List.mem_map] at hd
    obtain ⟨e, -, rfl⟩ := hd
    rw [isUpper_toLower] at hup
    cases hup
  · intro hletter other hsame name
    rw [eq_of_not_hasLetter hletter hsame]

/-- The gate and the name index do not depend on the spelling of the host in exactly these
cases. -/
theorem host_spelling_iff :
    ((∀ other, SameHost host other → verdict L domains other did = verdict L domains host did) ↔
      (Table.rows domains).isEmpty = true ∨ ¬HostMatches L host did ∨
        (∀ c, normalizeDomainName L (lowerCase host) ≠ .ok c) ∨ ¬HasLetter host) ∧
      ((∀ other, SameHost host other → ∀ name, lookupKey other name = lookupKey host name) ↔
        ¬HasLetter host) :=
  ⟨verdict_spelling_iff L domains did host, lookupKey_spelling_iff host⟩

end Spelling

namespace SpellingSample

open Reference

/-- The reference libraries, with hosts that are parsed to lower case. -/
def loweringLibs : Libs :=
  { libs with hostParse := fun text => .ok (.domain (lowerCase text)) }

/-- The domain of the sample DID. -/
def domains : Table String DomainEntry :=
  (∅ : Table String DomainEntry).insert "h.io" { name := "h.io", createdAt := 1000 }

end SpellingSample

open SpellingSample in
/-- The sample DID is served on `h.io` and refused on `H.IO`. -/
theorem upper_case_host_refused :
    SameHost "h.io" "H.IO" ∧ verdict loweringLibs domains "h.io" Reference.didAl = none ∧
      verdict loweringLibs domains "H.IO" Reference.didAl = some 400 ∧
        lookupKey "h.io" "al" ≠ lookupKey "H.IO" "al" := by
  unfold SameHost
  decide +kernel

end DidHosting
