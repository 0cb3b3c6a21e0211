import DidHosting.Identity.CurrentKeys
import DidHosting.Identity.StoredGenerations

/-!
# Grace periods

A generation that was retired with a grace period is in three places: the live set, a row
of the store, and the retired keys of the secret store.  A start of the service builds the
first from the other two.

A rotation onto the same fragment, and a rotation without a grace period, build the live
set from the new generation alone and forget the windows that are still open.  The retired
keys are found by their key-agreement kid, so a second generation of that kid takes the
place of the first.  Where a run does none of this, every window is honoured.
-/

namespace DidHosting

namespace Identity

/-! ## Promises -/

/-- What a rotation with a grace period promises: the key of the retired generation until
its end. -/
structure Promise where
  id : ℕ
  kaKid : String
  key : String
  expiresAt : ℕ
deriving DecidableEq, Repr

/-- The promise is kept in all three places. -/
structure Honoured (L : KeyLibs) (s : Host) (currentId : ℕ) (p : Promise) : Prop where
  live : ⟨p.kaKid, p.key⟩ ∈ s.secrets
  generation : ∃ g ∈ s.generations, g.id = p.id ∧ g.kaKid = p.kaKid
  expiry : ∀ g ∈ s.generations, g.id = p.id → g.expiresAt = some p.expiresAt
  row : ∃ r, s.records.lookup p.id = some r ∧ r.kaKid = p.kaKid ∧ r.retiredAt.isSome = true ∧
    r.expiresAt = some p.expiresAt
  stored : ∃ secrets keys, s.secretStore = some secrets ∧
    secrets.retired.find? (·.kaKid == p.kaKid) = some keys ∧
    L.decode keys.keyAgreementKey = .ok p.key
  older : p.id < currentId

/-- The store knows the current generation. -/
structure Anchored (s : Host) (current : IdentityGeneration) : Prop where
  notRetired : current.retiredAt = none
  pointer : s.currentId = some current.id
  row : ∃ r, s.records.lookup current.id = some r ∧ r.retiredAt = none ∧ r.expiresAt = none

/-- The promises whose windows are open. -/
def openPromises (clock : ℕ) (promised : List Promise) : List Promise :=
  promised.filter fun p => clock < p.expiresAt

theorem mem_openPromises {clock : ℕ} {promised : List Promise} {p : Promise} :
    p ∈ openPromises clock promised ↔ p ∈ promised ∧ clock < p.expiresAt := by
  unfold openPromises
  simp

/-- What holds of a service on `current` whose promises are kept. -/
structure GraceInv (L : KeyLibs) (clock : ℕ) (promised : List Promise)
    (current : IdentityGeneration) (rest : List IdentityGeneration) (s : Host) : Prop where
  generations : s.generations = current :: rest
  older : ∀ g ∈ rest, g.id < current.id
  rows : RowsKept s.records s.currentId clock
  bounded : ∀ id r, s.records.lookup id = some r → r.isLive clock = true → id ≤ current.id
  anchored : openPromises clock promised ≠ [] → Anchored s current
  honoured : ∀ p ∈ openPromises clock promised, Honoured L s current.id p

/-! ## Rows -/

section Rows

variable {records : Table ℕ IdentityGeneration} {currentId : Option ℕ} {clock : ℕ}

/-- Saving a generation that is at least as new as every live row. -/
theorem RowsKept.save (h : RowsKept records currentId clock) {g : IdentityGeneration}
    (hbounded : ∀ id r, records.lookup id = some r → r.isLive clock = true → id ≤ g.id) :
    RowsKept (records.insert g.id g) (some g.id) clock ∧
      ∀ id r, (records.insert g.id g).lookup id = some r → r.isLive clock = true →
        id ≤ g.id := by
  have hle : ∀ id r, (records.insert g.id g).lookup id = some r → r.isLive clock = true →
      id ≤ g.id := by
    intro id r hlookup hlive
    rcases Table.lookup_insert_cases hlookup with ⟨hid, -⟩ | hold
    · exact Nat.le_of_eq hid
    · exact hbounded id r hold hlive
  refine ⟨⟨?_, ?_⟩, hle⟩
  · intro id r hlookup
    rcases Table.lookup_insert_cases hlookup with ⟨rfl, rfl⟩ | hold
    · rfl
    · exact h.keyed id r hold
  · rintro c hc id r hlookup hlive
    cases hc
    exact hle id r hlookup hlive

theorem isLive_of_expiresAt {r : IdentityGeneration} {n : ℕ} (h : r.expiresAt = some n)
    (hn : clock < n) : r.isLive clock = true := by
  unfold IdentityGeneration.isLive
  rw [h]
  simpa using hn

theorem isLive_of_none {r : IdentityGeneration} (h : r.expiresAt = none) :
    r.isLive clock = true := by
  unfold IdentityGeneration.isLive
  rw [h]
  rfl

/-- Rows that expire stay expired. -/
theorem isLive_of_later {r : IdentityGeneration} {later : ℕ} (hle : clock ≤ later)
    (h : r.isLive later = true) : r.isLive clock = true := by
  unfold IdentityGeneration.isLive at h ⊢
  cases hexpires : r.expiresAt with
  | none => rfl
  | some n =>
      rw [hexpires] at h
      simp only [Option.all_some, decide_eq_true_eq] at h ⊢
      omega

end Rows

/-! ## Starts of the service -/

section Loading

variable {L : KeyLibs} {endpoint : Endpoint} {doc : Option ResolvedIdentityDoc} {clock : ℕ}
  {promised : List Promise} {s t : Host}

theorem secretsFor_retired {g : IdentityGeneration} {secrets : ServerSecrets}
    {keys : RetiredKeys} {key : String} (hretired : g.retiredAt.isSome = true)
    (hfind : secrets.retired.find? (·.kaKid == g.kaKid) = some keys)
    (hdecode : L.decode keys.keyAgreementKey = .ok key) :
    ⟨g.kaKid, key⟩ ∈ secretsFor L g secrets := by
  unfold secretsFor keysOf decoded
  rw [if_pos hretired, hfind]
  simp [hdecode, Except.toOption]

theorem bootGeneration_id (endpoint : Endpoint) (doc : Option ResolvedIdentityDoc) (clock : ℕ)
    {stored : List IdentityGeneration} {first : IdentityGeneration} (h : stored.head? = some first) :
    (bootGeneration endpoint doc stored clock).1.id = first.id := by
  unfold bootGeneration resolveCurrentGeneration
  rw [h]
  cases doc <;> rfl

theorem bootGeneration_notRetired (endpoint : Endpoint) (doc : Option ResolvedIdentityDoc)
    (clock : ℕ) {stored : List IdentityGeneration} {first : IdentityGeneration}
    (h : stored.head? = some first) (hretired : first.retiredAt = none) :
    (bootGeneration endpoint doc stored clock).1.retiredAt = none := by
  unfold bootGeneration resolveCurrentGeneration
  rw [h]
  cases doc with
  | none => exact hretired
  | some d => rfl

theorem bootGeneration_saved (endpoint : Endpoint) (doc : Option ResolvedIdentityDoc)
    (clock : ℕ) (stored : List IdentityGeneration)
    (h : (bootGeneration endpoint doc stored clock).2 = true) :
    (bootGeneration endpoint doc stored clock).1.retiredAt = none ∧
      (bootGeneration endpoint doc stored clock).1.expiresAt = none := by
  unfold bootGeneration resolveCurrentGeneration at h ⊢
  cases doc with
  | some d => exact ⟨rfl, rfl⟩
  | none =>
      cases hhead : stored.head? with
      | none => exact ⟨rfl, rfl⟩
      | some first =>
          rw [hhead] at h
          simp at h

/-- The rows that are live are no newer than the generation the service comes up with. -/
theorem boot_bounded (endpoint : Endpoint) (doc : Option ResolvedIdentityDoc)
    {records : Table ℕ IdentityGeneration} {currentId : Option ℕ}
    (hrows : RowsKept records currentId clock) (id : ℕ) (r : IdentityGeneration)
    (hlookup : records.lookup id = some r) (hlive : r.isLive clock = true) :
    id ≤ (bootGeneration endpoint doc (loadGenerations currentId records clock) clock).1.id := by
  have hmem : r ∈ loadGenerations currentId records clock :=
    mem_loadGenerations.mpr ⟨⟨id, hlookup⟩, hlive⟩
  have hid : r.id = id := hrows.keyed id r hlookup
  cases hload : loadGenerations currentId records clock with
  | nil =>
      rw [hload] at hmem
      cases hmem
  | cons first rest =>
      rw [@bootGeneration_id endpoint doc clock (first :: rest) first rfl, ← hid]
      rw [hload] at hmem
      obtain rfl | hmem := List.mem_cons.mp hmem
      · exact Nat.le_refl _
      · exact Nat.le_of_lt (hrows.tail_lt hload r hmem)

/-- The retired generations a service comes up with are older than the current one. -/
theorem boot_older (endpoint : Endpoint) (doc : Option ResolvedIdentityDoc)
    {records : Table ℕ IdentityGeneration} {currentId : Option ℕ}
    (hrows : RowsKept records currentId clock) {g : IdentityGeneration}
    (hg : g ∈ (loadGenerations currentId records clock).filter fun g => g.retiredAt.isSome &&
      g.id != (bootGeneration endpoint doc
        (loadGenerations currentId records clock) clock).1.id) :
    g.id < (bootGeneration endpoint doc (loadGenerations currentId records clock) clock).1.id := by
  obtain ⟨hmem, hne⟩ := List.mem_filter.mp hg
  obtain ⟨⟨id, hlookup⟩, hlive⟩ := mem_loadGenerations.mp hmem
  have hle := boot_bounded endpoint doc hrows id g hlookup hlive
  have hid : g.id = id := hrows.keyed id g hlookup
  simp only [Bool.and_eq_true, bne_iff_ne] at hne
  have := hne.2
  omega

/-- A service comes up with every window that is open. -/
theorem loaded_graceInv {secrets : ServerSecrets} (hsecrets : s.secretStore = some secrets)
    (hup : CameUp L endpoint doc clock s (loadGenerations s.currentId s.records clock) secrets t)
    (hrows : RowsKept s.records s.currentId clock)
    (hpromises : openPromises clock promised ≠ [] → ∃ current, Anchored s current ∧
      ∀ p ∈ openPromises clock promised, Honoured L s current.id p) :
    ∃ current rest, GraceInv L clock promised current rest t := by
  obtain ⟨start, hstart, rfl⟩ := hup
  have hbounded := boot_bounded endpoint doc hrows
  have holder := fun g => boot_older endpoint doc hrows (g := g)
  have hsaved := bootGeneration_saved endpoint doc clock
    (loadGenerations s.currentId s.records clock)
  generalize hcurrent : bootGeneration endpoint doc
    (loadGenerations s.currentId s.records clock) clock = boot at *
  obtain ⟨current, persist⟩ := boot
  have hstartrows : RowsKept start.records start.currentId clock ∧
      ∀ id r, start.records.lookup id = some r → r.isLive clock = true → id ≤ current.id := by
    obtain rfl | ⟨rfl, -⟩ := hstart
    · exact ⟨hrows, hbounded⟩
    · exact hrows.save hbounded
  have hid : ∀ before, Anchored s before → current.id = before.id ∧ current.retiredAt = none := by
    intro before hanchored
    obtain ⟨r, hlookup, hretired, hexpires⟩ := hanchored.row
    obtain ⟨rest, hload⟩ :=
      hrows.head_of_current hanchored.pointer hlookup (isLive_of_none hexpires)
    have hhead : (loadGenerations s.currentId s.records clock).head? = some r := by
      rw [hload]
      rfl
    have hsame := bootGeneration_id endpoint doc clock hhead
    have hnotRetired := bootGeneration_notRetired endpoint doc clock hhead hretired
    rw [hcurrent] at hsame hnotRetired
    exact ⟨hsame.trans (hrows.keyed _ r hlookup), hnotRetired⟩
  have hrow : ∀ id, id < current.id → start.records.lookup id = s.records.lookup id := by
    intro id hlt
    obtain rfl | ⟨rfl, -⟩ := hstart
    · rfl
    · exact AList.lookup_insert_ne (Nat.ne_of_lt hlt)
  refine ⟨current, _, rfl, fun g hg => holder g hg, hstartrows.1, hstartrows.2, ?_, ?_⟩
  · intro hopen
    obtain ⟨before, hanchored, -⟩ := hpromises hopen
    obtain ⟨hsame, hnotRetired⟩ := hid before hanchored
    obtain rfl | ⟨rfl, hpersist⟩ := hstart
    · refine ⟨hnotRetired, ?_, ?_⟩
      · rw [hsame]
        exact hanchored.pointer
      · rw [hsame]
        exact hanchored.row
    · exact ⟨hnotRetired, rfl, current, AList.lookup_insert _, hsaved hpersist⟩
  · intro p hp
    obtain ⟨before, hanchored, hhonoured⟩ := hpromises (List.ne_nil_of_mem hp)
    obtain ⟨hsame, -⟩ := hid before hanchored
    have h := hhonoured p hp
    have hlt : p.id < current.id := by
      rw [hsame]
      exact h.older
    obtain ⟨r, hlookup, hka, hretired, hexpires⟩ := h.row
    obtain ⟨secrets', keys, hsecrets', hfind, hdecode⟩ := h.stored
    obtain rfl : secrets = secrets' := Option.some.inj (hsecrets.symm.trans hsecrets')
    have hrid : r.id = p.id := hrows.keyed _ r hlookup
    have hlive : r.isLive clock = true :=
      isLive_of_expiresAt hexpires (mem_openPromises.mp hp).2
    have hmem : r ∈ bootGenerations current (loadGenerations s.currentId s.records clock) := by
      refine List.mem_cons_of_mem _ (List.mem_filter.mpr ⟨?_, ?_⟩)
      · exact mem_loadGenerations.mpr ⟨⟨p.id, hlookup⟩, hlive⟩
      · simp [hretired, hrid, Nat.ne_of_lt hlt]
    refine ⟨?_, ⟨r, hmem, hrid, hka⟩, ?_, ⟨r, ?_, hka, hretired, hexpires⟩,
      ⟨secrets, keys, ?_, hfind, hdecode⟩, hlt⟩
    · refine List.mem_flatMap.mpr ⟨r, hmem, ?_⟩
      rw [← hka] at hfind ⊢
      exact secretsFor_retired hretired hfind hdecode
    · intro g hg hgid
      obtain rfl | hg := List.mem_cons.mp hg
      · omega
      · obtain ⟨⟨id, hlookup'⟩, -⟩ := mem_loadGenerations.mp (List.mem_filter.mp hg).1
        have hkey := hrows.keyed id g hlookup'
        rw [← hkey, hgid, hlookup] at hlookup'
        cases hlookup'
        exact hexpires
    · rw [← hlookup]
      exact hrow p.id hlt
    · obtain rfl | ⟨rfl, -⟩ := hstart
      · exact hsecrets
      · exact hsecrets

end Loading

/-! ## Expiry -/

section Expiry

variable {L : KeyLibs} {clock : ℕ} {promised : List Promise} {s t : Host}
  {current g : IdentityGeneration} {rest : List IdentityGeneration}

/-- The service is on `current`, and its promises are kept. -/
def GraceOn (L : KeyLibs) (clock : ℕ) (promised : List Promise) (current : IdentityGeneration)
    (s : Host) : Prop :=
  ∃ rest, GraceInv L clock promised current rest s

theorem find?_filter_ne {retired : List RetiredKeys} {kid other : String} (hne : other ≠ kid) :
    (retired.filter (·.kaKid != other)).find? (·.kaKid == kid) =
      retired.find? (·.kaKid == kid) := by
  rw [List.find?_filter]
  congr 1
  funext keys
  by_cases hkeys : keys.kaKid = kid
  · simp [hkeys, hne.symm]
  · simp [hkeys]

/-- A promise survives the end of a generation of other kids. -/
theorem Honoured.expired {n : ℕ} {p : Promise} (h : Honoured L s n p) (hid : g.id ≠ p.id)
    (hka : g.kaKid ≠ p.kaKid) (hsigning : g.signingKid ≠ p.kaKid) (hexpired : Expired g s t) :
    Honoured L t n p := by
  have hgenerations : t.generations = s.generations.filter (·.id != g.id) :=
    hexpired.generations
  refine ⟨?_, ?_, ?_, ?_, ?_, h.older⟩
  · rw [hexpired.secrets]
    exact List.mem_filter.mpr ⟨h.live, by simp [hka.symm, hsigning.symm]⟩
  · obtain ⟨x, hx, hxid, hxka⟩ := h.generation
    refine ⟨x, ?_, hxid, hxka⟩
    rw [hgenerations]
    exact List.mem_filter.mpr ⟨hx, by simp [hxid, hid.symm]⟩
  · intro x hx
    rw [hgenerations] at hx
    exact h.expiry x (List.mem_filter.mp hx).1
  · obtain ⟨r, hlookup, hr⟩ := h.row
    refine ⟨r, ?_, hr⟩
    obtain hrecords | hrecords := hexpired.records
    · rw [hrecords]
      exact hlookup
    · rw [hrecords, AList.lookup_erase_ne hid.symm]
      exact hlookup
  · obtain ⟨secrets, keys, hsecrets, hfind, hdecode⟩ := h.stored
    obtain hstore | ⟨secrets', hsecrets', hstore⟩ := hexpired.secretStore
    · exact ⟨secrets, keys, hstore.trans hsecrets, hfind, hdecode⟩
    · obtain rfl : secrets = secrets' := Option.some.inj (hsecrets.symm.trans hsecrets')
      refine ⟨_, keys, hstore, ?_, hdecode⟩
      change (secrets.retired.filter (·.kaKid != g.kaKid)).find? _ = _
      rw [find?_filter_ne hka]
      exact hfind

theorem GraceOn.expired (h : GraceOn L clock promised current s) (hexpired : Expired g s t)
    (hid : g.id ≠ current.id)
    (hpromises : ∀ p ∈ openPromises clock promised,
      g.id ≠ p.id ∧ g.kaKid ≠ p.kaKid ∧ g.signingKid ≠ p.kaKid) :
    GraceOn L clock promised current t := by
  obtain ⟨rest, hinv⟩ := h
  have hrecords : ∀ id r, t.records.lookup id = some r → s.records.lookup id = some r := by
    intro id r hlookup
    obtain hrecords | hrecords := hexpired.records
    · rw [← hrecords]
      exact hlookup
    · rw [hrecords] at hlookup
      exact Table.lookup_of_erase hlookup
  refine ⟨rest.filter (·.id != g.id), ?_, ?_, ⟨?_, ?_⟩, ?_, ?_, ?_⟩
  · rw [hexpired.generations]
    change s.generations.filter (·.id != g.id) = _
    rw [hinv.generations, List.filter_cons_of_pos (by simpa using hid.symm)]
  · intro x hx
    exact hinv.older x (List.mem_filter.mp hx).1
  · intro id r hlookup
    exact hinv.rows.keyed id r (hrecords id r hlookup)
  · intro c hc id r hlookup
    rw [hexpired.currentId] at hc
    exact hinv.rows.bounded c hc id r (hrecords id r hlookup)
  · intro id r hlookup
    exact hinv.bounded id r (hrecords id r hlookup)
  · intro hopen
    obtain ⟨hnotRetired, hpointer, r, hlookup, hr⟩ := hinv.anchored hopen
    refine ⟨hnotRetired, hexpired.currentId.trans hpointer, r, ?_, hr⟩
    obtain hrecords | hrecords := hexpired.records
    · rw [hrecords]
      exact hlookup
    · rw [hrecords, AList.lookup_erase_ne hid.symm]
      exact hlookup
  · intro p hp
    obtain ⟨hpid, hka, hsigning⟩ := hpromises p hp
    exact (hinv.honoured p hp).expired hpid hka hsigning hexpired

/-- An open window keeps its generation from a sweep. -/
theorem GraceInv.not_doomed (h : GraceInv L clock promised current rest s) {p : Promise}
    (hp : p ∈ openPromises clock promised) :
    p.id ∉ doomedIds s.generations
      ((loadGenerations s.currentId s.records clock).map (·.id)) clock := by
  intro hmem
  have hhonoured := h.honoured p hp
  have hclock := (mem_openPromises.mp hp).2
  unfold doomedIds at hmem
  obtain ⟨x, hx, hxid⟩ := List.mem_map.mp hmem
  obtain ⟨hxmem, hwhy⟩ := List.mem_filter.mp hx
  have hlive : x.isLive clock = true :=
    isLive_of_expiresAt (hhonoured.expiry x hxmem hxid) hclock
  obtain ⟨r, hlookup, -, -, hexpires⟩ := hhonoured.row
  have hpersisted : p.id ∈ (loadGenerations s.currentId s.records clock).map (·.id) := by
    refine List.mem_map.mpr ⟨r, ?_, h.rows.keyed _ r hlookup⟩
    exact mem_loadGenerations.mpr ⟨⟨p.id, hlookup⟩, isLive_of_expiresAt hexpires hclock⟩
  rw [hlive, hxid, List.contains_iff_mem.mpr hpersisted] at hwhy
  simp at hwhy

/-- What a sweep expires has neither the id nor the key-agreement kid of an open window. -/
theorem GraceInv.expiring_apart (h : GraceInv L clock promised current rest s) {p : Promise}
    (hp : p ∈ openPromises clock promised) (hg : g ∈ expiring s clock) :
    g.id ≠ p.id ∧ g.kaKid ≠ p.kaKid := by
  have hnot := h.not_doomed hp
  obtain ⟨-, hwhy⟩ := List.mem_filter.mp hg
  obtain ⟨hdoomed, hrescued⟩ := Bool.and_eq_true_iff.mp hwhy
  have hdoomed' := List.contains_iff_mem.mp hdoomed
  refine ⟨fun hid => hnot (hid ▸ hdoomed'), ?_⟩
  intro hka
  obtain ⟨x, hx, hxid, hxka⟩ := (h.honoured p hp).generation
  rw [Bool.not_eq_true', ← Bool.not_eq_true, List.contains_iff_mem] at hrescued
  apply hrescued
  refine List.mem_map.mpr ⟨x, List.mem_filter.mpr ⟨hx, ?_⟩, hxka.trans hka.symm⟩
  rw [Bool.not_eq_true', ← Bool.not_eq_true, List.contains_iff_mem, hxid]
  exact hnot

end Expiry

/-! ## Reload -/

section Reload

variable {L : KeyLibs} {endpoint : Endpoint} {doc : Option ResolvedIdentityDoc}
  {clock graceSecs : ℕ} {promised : List Promise} {s t : Host} {current : IdentityGeneration}
  {rest : List IdentityGeneration}

/-- What a rotation of the service promises. -/
def promiseOf (s : Host) (now graceSecs : ℕ) : Option Promise := do
  let g ← s.generations.head?
  let key ← s.secrets.find? (·.id == g.kaKid)
  return ⟨g.id, g.kaKid, key.key, graceEnd now graceSecs⟩

/-- What a rotation keeps of a generation is what the live set has of it. -/
theorem retiredKeysFor_eq {keys : RetiredKeys} {secrets : List Secret}
    (hround : ∀ key form, L.privateMultibase key = some form → L.decode form = .ok key)
    (h : retiredKeysFor L secrets current = some keys) :
    ∃ x, secrets.find? (·.id == current.kaKid) = some x ∧ keys.kaKid = current.kaKid ∧
      L.decode keys.keyAgreementKey = .ok x.key := by
  unfold retiredKeysFor storedForm at h
  obtain ⟨ka, hka, h⟩ := Option.bind_eq_some_iff.mp h
  obtain ⟨signing, -, h⟩ := Option.bind_eq_some_iff.mp h
  obtain ⟨x, hfind, hform⟩ := Option.bind_eq_some_iff.mp hka
  cases h
  exact ⟨x, hfind, rfl, hround _ _ hform⟩

theorem find?_stashed {retired : List RetiredKeys} {keys : RetiredKeys} :
    (retired.filter (·.kaKid != keys.kaKid) ++ [keys]).find? (·.kaKid == keys.kaKid) =
      some keys := by
  rw [List.find?_append, List.find?_eq_none.mpr]
  · simp
  · intro x hx
    have hne := (List.mem_filter.mp hx).2
    simpa using hne

/-- The stash of a rotation leaves the key of a promise to be found, unless it is for
another key of the same kid. -/
theorem stored_of_change {change : SecretsChange} {secrets : ServerSecrets} {p : Promise}
    (hround : ∀ key form, L.privateMultibase key = some form → L.decode form = .ok key)
    (hstored : ∃ keys, secrets.retired.find? (·.kaKid == p.kaKid) = some keys ∧
      L.decode keys.keyAgreementKey = .ok p.key)
    (hchange : change = .same ∨
      change = (retiredKeysFor L s.secrets current).elim .same (.stash current.id))
    (hkid : p.kaKid = current.kaKid →
      ∀ x, s.secrets.find? (·.id == current.kaKid) = some x → x.key = p.key) :
    ∃ keys, (change.apply secrets).retired.find? (·.kaKid == p.kaKid) = some keys ∧
      L.decode keys.keyAgreementKey = .ok p.key := by
  obtain rfl | rfl := hchange
  · exact hstored
  · cases hkeys : retiredKeysFor L s.secrets current with
    | none => exact hstored
    | some keys =>
        obtain ⟨x, hfind, hka, hdecode⟩ := retiredKeysFor_eq hround hkeys
        by_cases hsame : p.kaKid = current.kaKid
        · refine ⟨keys, ?_, ?_⟩
          · rw [hsame, ← hka]
            exact find?_stashed
          · rw [← hkid hsame x hfind]
            exact hdecode
        · obtain ⟨kept, hkept, hkeptkey⟩ := hstored
          refine ⟨kept, ?_, hkeptkey⟩
          change (secrets.retired.filter (·.kaKid != keys.kaKid) ++ [keys]).find? _ = _
          have hne : keys.kaKid ≠ p.kaKid := by
            rw [hka]
            exact fun h => hsame h.symm
          rw [List.find?_append, find?_filter_ne hne, hkept]
          rfl

/-- A promise goes along where nothing of its generation changes. -/
theorem Honoured.moved {n m : ℕ} {p : Promise} (h : Honoured L s n p) (hle : n ≤ m)
    (hsecrets : ∀ x ∈ s.secrets, x ∈ t.secrets)
    (hgenerations : ∀ g, g.id = p.id → (g ∈ t.generations ↔ g ∈ s.generations))
    (hrow : t.records.lookup p.id = s.records.lookup p.id)
    (hstored : ∀ secrets, s.secretStore = some secrets →
      (∃ keys, secrets.retired.find? (·.kaKid == p.kaKid) = some keys ∧
        L.decode keys.keyAgreementKey = .ok p.key) →
      ∃ secrets' keys, t.secretStore = some secrets' ∧
        secrets'.retired.find? (·.kaKid == p.kaKid) = some keys ∧
        L.decode keys.keyAgreementKey = .ok p.key) : Honoured L t m p := by
  refine ⟨hsecrets _ h.live, ?_, ?_, ?_, ?_, Nat.lt_of_lt_of_le h.older hle⟩
  · obtain ⟨g, hg, hid, hka⟩ := h.generation
    exact ⟨g, (hgenerations g hid).mpr hg, hid, hka⟩
  · intro g hg hid
    exact h.expiry g ((hgenerations g hid).mp hg) hid
  · rw [hrow]
    exact h.row
  · obtain ⟨secrets, keys, hstore, hkeys⟩ := h.stored
    exact hstored secrets hstore ⟨keys, hkeys⟩

/-- A generation that stands alone, where no window is open. -/
theorem graceInv_alone {g : IdentityGeneration} (hopen : openPromises clock promised = [])
    (ht : t.generations = [g]) (hrows : RowsKept t.records t.currentId clock)
    (hbounded : ∀ id r, t.records.lookup id = some r → r.isLive clock = true → id ≤ g.id) :
    GraceInv L clock promised g [] t := by
  refine ⟨ht, ?_, hrows, hbounded, ?_, ?_⟩
  · exact fun _ hg => nomatch hg
  · exact fun hne => absurd hopen hne
  · rw [hopen]
    exact fun _ hp => nomatch hp

/-- Without a stored identity there is no window. -/
theorem GraceInv.open_nil (h : GraceInv L clock promised current rest s)
    (hnone : s.currentId = none) : openPromises clock promised = [] := by
  by_contra hne
  have hpointer := (h.anchored hne).pointer
  rw [hnone] at hpointer
  cases hpointer

/-- Other attributes of the current generation. -/
theorem GraceInv.updated {g : IdentityGeneration} (h : GraceInv L clock promised current rest s)
    (hid : g.id = current.id) (hretired : g.retiredAt = none) (hexpires : g.expiresAt = none) :
    GraceInv L clock promised g rest (s.updated g) := by
  obtain ⟨hrows, hbounded⟩ := h.rows.save (g := g) (by rw [hid]; exact h.bounded)
  refine ⟨?_, ?_, hrows, hbounded, ?_, ?_⟩
  · change g :: s.generations.tail = _
    rw [h.generations]
    rfl
  · rw [hid]
    exact h.older
  · exact fun _ => ⟨hretired, rfl, g, AList.lookup_insert _, hretired, hexpires⟩
  · intro p hp
    have hhonoured := h.honoured p hp
    have hlt := hhonoured.older
    refine hhonoured.moved (Nat.le_of_eq hid.symm) (fun _ hx => hx) ?_ ?_ ?_
    · intro x hx
      change x ∈ g :: s.generations.tail ↔ _
      rw [h.generations, List.tail_cons, List.mem_cons, List.mem_cons]
      have hne : x ≠ g := by
        rintro rfl
        omega
      have hne' : x ≠ current := by
        rintro rfl
        omega
      simp [hne, hne']
    · exact AList.lookup_insert_ne (by omega)
    · exact fun secrets hsecrets hkeys => ⟨secrets, hkeys.choose, hsecrets, hkeys.choose_spec⟩

theorem GraceInv.rotated_rows (h : GraceInv L clock promised current rest s)
    {retiring candidate : IdentityGeneration} (hretiring : retiring.id = current.id)
    (hcandidate : candidate.id = current.id + 1) :
    RowsKept ((s.records.insert retiring.id retiring).insert candidate.id candidate)
        (some candidate.id) clock ∧
      ∀ id r, ((s.records.insert retiring.id retiring).insert candidate.id candidate).lookup id =
        some r → r.isLive clock = true → id ≤ candidate.id := by
  have hbounded : ∀ id r, s.records.lookup id = some r → r.isLive clock = true →
      id ≤ retiring.id := by
    rw [hretiring]
    exact h.bounded
  obtain ⟨hrows, hle⟩ := h.rows.save hbounded
  refine hrows.save ?_
  intro id r hlookup hlive
  have := hle id r hlookup hlive
  omega

/-- The keys of the store after a rotation, for each promise that was kept before. -/
theorem GraceInv.stashed (h : GraceInv L clock promised current rest s) {change : SecretsChange}
    {secrets : ServerSecrets}
    (hround : ∀ key form, L.privateMultibase key = some form → L.decode form = .ok key)
    (hsecrets : s.secretStore = some secrets)
    (hchange : change = .same ∨
      change = (retiredKeysFor L s.secrets current).elim .same (.stash current.id))
    (hkid : ∀ p ∈ openPromises clock promised, p.kaKid = current.kaKid →
      ∀ x, s.secrets.find? (·.id == current.kaKid) = some x → x.key = p.key) :
    ∀ p ∈ openPromises clock promised,
      ∃ keys, (change.apply secrets).retired.find? (·.kaKid == p.kaKid) = some keys ∧
        L.decode keys.keyAgreementKey = .ok p.key := by
  intro p hp
  obtain ⟨secrets', keys, hsecrets', hkeys⟩ := (h.honoured p hp).stored
  obtain rfl : secrets = secrets' := Option.some.inj (hsecrets.symm.trans hsecrets')
  exact stored_of_change hround ⟨keys, hkeys⟩ hchange (hkid p hp)

/-- A write of the secret store that leaves each key to be found. -/
theorem GraceInv.rewritten (h : GraceInv L clock promised current rest s)
    {change : SecretsChange} {secrets : ServerSecrets}
    (hstored : ∀ p ∈ openPromises clock promised,
      ∃ keys, (change.apply secrets).retired.find? (·.kaKid == p.kaKid) = some keys ∧
        L.decode keys.keyAgreementKey = .ok p.key) :
    GraceInv L clock promised current rest (s.rewritten secrets change) := by
  refine ⟨h.generations, h.older, h.rows, h.bounded, ?_, ?_⟩
  · intro hopen
    obtain ⟨hretired, hpointer, hrow⟩ := h.anchored hopen
    exact ⟨hretired, hpointer, hrow⟩
  · intro p hp
    obtain ⟨keys, hkeys⟩ := hstored p hp
    refine (h.honoured p hp).moved (Nat.le_refl _) (fun _ hx => hx) (fun _ _ => Iff.rfl) rfl ?_
    exact fun _ _ _ => ⟨_, keys, rfl, hkeys⟩

/-- A rotation with a grace period keeps the windows that are open, and opens its own. -/
theorem GraceInv.rotatedWith (h : GraceInv L clock promised current rest s)
    {candidate : IdentityGeneration} {change : SecretsChange} {secrets : ServerSecrets}
    (hround : ∀ key form, L.privateMultibase key = some form → L.decode form = .ok key)
    (hsecrets : s.secretStore = some secrets)
    (hchange : change = (retiredKeysFor L s.secrets current).elim .same (.stash current.id))
    (hcandidate : candidate.id = current.id + 1) (hretired : candidate.retiredAt = none)
    (hexpires : candidate.expiresAt = none)
    (hkeys : (promiseOf s clock graceSecs).isSome = true →
      (retiredKeysFor L s.secrets current).isSome = true)
    (hkid : ∀ p ∈ openPromises clock promised, p.kaKid = current.kaKid →
      ∀ x, s.secrets.find? (·.id == current.kaKid) = some x → x.key = p.key) :
    GraceInv L clock ((promiseOf s clock graceSecs).toList ++ promised) candidate
      (retired current clock graceSecs :: rest)
      (s.rotatedWith L (retired current clock graceSecs) candidate secrets change) := by
  have hretiring : (retired current clock graceSecs).id = current.id := rfl
  obtain ⟨hrows, hbounded⟩ := h.rotated_rows hretiring hcandidate
  have hrow : ((s.records.insert (retired current clock graceSecs).id
      (retired current clock graceSecs)).insert candidate.id candidate).lookup current.id =
      some (retired current clock graceSecs) := by
    rw [AList.lookup_insert_ne (by omega)]
    exact AList.lookup_insert _
  refine ⟨?_, ?_, hrows, hbounded, ?_, ?_⟩
  · change candidate :: _ :: s.generations.tail = _
    rw [h.generations]
    rfl
  · intro g hg
    obtain rfl | hg := List.mem_cons.mp hg
    · change current.id < candidate.id
      omega
    · have := h.older g hg
      omega
  · exact fun _ => ⟨hretired, rfl, candidate, AList.lookup_insert _, hretired, hexpires⟩
  · intro p hp
    obtain ⟨hmem, hclock⟩ := mem_openPromises.mp hp
    obtain hnew | hold := List.mem_append.mp hmem
    · -- the window this rotation opens
      have hpromise : promiseOf s clock graceSecs = some p := by simpa using hnew
      obtain ⟨keys, hsome⟩ := Option.isSome_iff_exists.mp (hkeys (by rw [hpromise]; rfl))
      obtain ⟨x, hfind, hka, hdecode⟩ := retiredKeysFor_eq hround hsome
      have hp' : p = ⟨current.id, current.kaKid, x.key, graceEnd clock graceSecs⟩ := by
        unfold promiseOf at hpromise
        rw [h.generations] at hpromise
        simp only [List.head?_cons, Option.bind_eq_bind, Option.bind_some, hfind] at hpromise
        exact (Option.some.inj hpromise).symm
      subst hp'
      have hxid : x.id = current.kaKid := by simpa using List.find?_some hfind
      refine ⟨?_, ⟨_, List.mem_cons_of_mem _ List.mem_cons_self, rfl, rfl⟩, ?_,
        ⟨_, hrow, rfl, rfl, rfl⟩, ⟨_, keys, rfl, ?_, hdecode⟩, ?_⟩
      · refine List.mem_append_right _ ?_
        rw [← hxid]
        exact List.mem_of_find?_eq_some hfind
      · intro g hg hid
        change g ∈ candidate :: _ :: s.generations.tail at hg
        rw [h.generations] at hg
        obtain rfl | hg := List.mem_cons.mp hg
        · dsimp only at hid
          omega
        obtain rfl | hg := List.mem_cons.mp hg
        · rfl
        · have := h.older g hg
          dsimp only at hid
          omega
      · rw [hchange, hsome, ← hka]
        exact find?_stashed
      · change current.id < candidate.id
        omega
    · -- a window that was open before
      have hp' := mem_openPromises.mpr ⟨hold, hclock⟩
      have hhonoured := h.honoured p hp'
      have hlt := hhonoured.older
      obtain ⟨keys, hkept⟩ := h.stashed hround hsecrets (Or.inr hchange) hkid p hp'
      refine hhonoured.moved (by omega) (fun _ hx => List.mem_append_right _ hx) ?_ ?_ ?_
      · intro g hg
        change g ∈ candidate :: _ :: s.generations.tail ↔ _
        rw [h.generations, List.tail_cons, List.mem_cons, List.mem_cons, List.mem_cons]
        have hne : g ≠ candidate := by
          rintro rfl
          omega
        have hne' : g ≠ retired current clock graceSecs := by
          rintro rfl
          exact absurd hg (Nat.ne_of_gt hlt)
        have hne'' : g ≠ current := by
          rintro rfl
          omega
        simp [hne, hne', hne'']
      · change ((s.records.insert current.id _).insert candidate.id candidate).lookup p.id = _
        rw [AList.lookup_insert_ne (by omega), AList.lookup_insert_ne (by omega)]
      · exact fun _ _ _ => ⟨_, keys, rfl, hkept⟩

end Reload

/-! ## Runs -/

/-- A service, its clock, and what its rotations have promised. -/
structure Keeper where
  host : Host
  clock : ℕ
  promised : List Promise

/-- What happens to a service: an operation, the time, and new keys of the operator. -/
inductive KeeperEvent where
  | op (op : IdentityOp) (faults : ℕ → Option IdentityError)
  | tick (seconds : ℕ)
  | rekey (signingKey keyAgreementKey : String)

/-- The promises after an operation: a rotation with a grace period makes one, and the kill
switch ends those of its generation. -/
def promisedAfter (v : Keeper) :
    IdentityOp → Option (Except IdentityError (Option ReloadOutcome)) → List Promise
  | .reload _ _ graceSecs, some (.ok (some (.rotated _ _ _))) =>
      if 0 < graceSecs then (promiseOf v.host v.clock graceSecs).toList ++ v.promised
      else v.promised
  | .retireNow generationId, _ => v.promised.filter (·.id != generationId)
  | _, _ => v.promised

def Keeper.step (L : KeyLibs) (v : Keeper) : KeeperEvent → Keeper
  | .op op faults =>
      let ended := (op.handler L v.clock).alone faults v.host
      { v with host := ended.2, promised := promisedAfter v op ended.1 }
  | .tick seconds => { v with clock := v.clock + seconds }
  | .rekey signingKey keyAgreementKey =>
      let secrets := v.host.secretStore.getD ⟨signingKey, keyAgreementKey, []⟩
      { v with host := v.host.rewritten secrets (.rekey signingKey keyAgreementKey) }

/-- A rotation that forgets the windows has none to forget, and a generation that leaves, or
whose keys are stashed, has no kid of an open window for another key.  A retired generation
that the kill switch expires is not the current one, and has no kid of the open window of
another generation. -/
def WindowsApart (L : KeyLibs) (v : Keeper) : KeeperEvent → Prop
  | .op (.load _ _) faults => faults 0 = none
  | .op (.reload endpoint doc graceSecs) _ =>
      ∀ d current rest secrets, doc = some d → v.host.generations = current :: rest →
        Adopts L v.host current (generationOf endpoint d (current.id + 1) v.clock) secrets →
        (current.isSameKidRotation (generationOf endpoint d (current.id + 1) v.clock) = true ∨
            graceSecs = 0 → openPromises v.clock v.promised = []) ∧
          ((promiseOf v.host v.clock graceSecs).isSome = true →
            (retiredKeysFor L v.host.secrets current).isSome = true) ∧
          ∀ p ∈ openPromises v.clock v.promised, p.kaKid = current.kaKid →
            ∀ x, v.host.secrets.find? (·.id == current.kaKid) = some x → x.key = p.key
  | .op .sweep _ =>
      ∀ g ∈ expiring v.host v.clock, ∀ p ∈ openPromises v.clock v.promised,
        g.signingKid ≠ p.kaKid
  | .op (.retireNow generationId) _ =>
      ∀ current rest g, v.host.generations = current :: rest →
        v.host.generations.find? (·.id == generationId) = some g →
        g.retiredAt.isNone = false → g.id ≠ current.id ∧
          ∀ p ∈ openPromises v.clock v.promised, p.id ≠ generationId →
            g.kaKid ≠ p.kaKid ∧ g.signingKid ≠ p.kaKid
  | .tick _ => True
  | .rekey _ _ => True

/-- The service is on some generation, and its promises are kept. -/
def Keeper.Keeps (L : KeyLibs) (v : Keeper) : Prop :=
  ∃ current rest, GraceInv L v.clock v.promised current rest v.host

section Runs

variable {L : KeyLibs} {v : Keeper}

/-- What the ends of an operation have holds after its step. -/
theorem Keeper.step_op {op : IdentityOp} {P : Keeper → Prop}
    {Q : Option ReloadOutcome → Host → Prop} {E : IdentityError → Host → Prop}
    (hafter : (op.handler L v.clock).After (fun _ => True) Q E v.host)
    (hQ : ∀ outcome t, Q outcome t →
      P { v with host := t, promised := promisedAfter v op (some (.ok outcome)) })
    (hE : ∀ e t, E e t →
      P { v with host := t, promised := promisedAfter v op (some (.error e)) })
    (faults : ℕ → Option IdentityError) : P (v.step L (.op op faults)) := by
  have hstep : v.step L (.op op faults) =
      { v with
        host := (op.handler L v.clock).effect faults v.host
        promised := promisedAfter v op ((op.handler L v.clock).alone faults v.host).1 } :=
    rfl
  rw [hstep]
  obtain ⟨outcome, houtcome, hend⟩ | ⟨e, houtcome, hend⟩ :=
    hafter.alone fun n => (trivial : (fun _ => True) (faults n))
  · rw [houtcome]
    exact hQ outcome _ hend
  · rw [houtcome]
    exact hE e _ hend

theorem load_keeps {endpoint : Endpoint} {doc : Option ResolvedIdentityDoc}
    {faults : ℕ → Option IdentityError} {secrets : ServerSecrets}
    (hsecrets : v.host.secretStore = some secrets) (hread : faults 0 = none)
    (hrows : RowsKept v.host.records v.host.currentId v.clock)
    (hpromises : openPromises v.clock v.promised ≠ [] → ∃ current, Anchored v.host current ∧
      ∀ p ∈ openPromises v.clock v.promised, Honoured L v.host current.id p) :
    (v.step L (.op (.load endpoint doc) faults)).Keeps L := by
  have hup : CameUp L endpoint doc v.clock v.host
      (loadGenerations v.host.currentId v.host.records v.clock) secrets
      ((loadIdentity L endpoint doc v.clock).effect faults v.host) :=
    loadIdentity_alone hsecrets hread
  have hstep : v.step L (.op (.load endpoint doc) faults) =
      { v with host := (loadIdentity L endpoint doc v.clock).effect faults v.host } := by
    rw [← Atomic.effect_bind_pure (loadIdentity L endpoint doc v.clock)
      (fun _ => (none : Option ReloadOutcome))]
    rfl
  rw [hstep]
  exact loaded_graceInv hsecrets hup hrows hpromises

theorem reload_keeps {endpoint : Endpoint} {doc : Option ResolvedIdentityDoc} {graceSecs : ℕ}
    {faults : ℕ → Option IdentityError}
    (hround : ∀ key form, L.privateMultibase key = some form → L.decode form = .ok key)
    (h : v.Keeps L) (hapart : WindowsApart L v (.op (.reload endpoint doc graceSecs) faults)) :
    (v.step L (.op (.reload endpoint doc graceSecs) faults)).Keeps L := by
  obtain ⟨current, rest, hinv⟩ := h
  have hafter : ((IdentityOp.reload endpoint doc graceSecs).handler L v.clock).After
      (fun _ => True)
      (fun outcome t => ∃ o, outcome = some o ∧
        Reloaded L endpoint doc v.clock graceSecs v.host current o t)
      (fun _ => ReloadFailed L endpoint doc v.clock graceSecs v.host current) v.host := by
    apply Atomic.after_bind
    refine (after_reloadServiceIdentity hinv.generations).mono ?_ fun _ _ hfailed => hfailed
    intro o t ho
    exact ⟨o, rfl, ho⟩
  refine Keeper.step_op (P := (·.Keeps L)) hafter ?_ ?_ faults
  · rintro _ t ⟨o, rfl, ho⟩
    cases ho with
    | unresolvable => exact ⟨current, rest, hinv⟩
    | unchanged => exact ⟨current, rest, hinv⟩
    | refused reason => exact ⟨current, rest, hinv⟩
    | @established d secrets hdoc hnone hsecrets =>
        obtain ⟨hrows, hbounded⟩ :=
          hinv.rows.save (g := generationOf endpoint d current.id v.clock) hinv.bounded
        exact ⟨_, _, graceInv_alone (hinv.open_nil hnone) rfl hrows hbounded⟩
    | metadataUpdated hdoc hsome hsame => exact ⟨_, _, hinv.updated rfl rfl rfl⟩
    | @withoutOverlap d secrets hdoc hadopts hsame =>
        obtain ⟨hopen, -⟩ := hapart _ _ _ _ hdoc hinv.generations hadopts
        obtain ⟨hrows, hbounded⟩ :=
          hinv.rows.save (g := generationOf endpoint d (current.id + 1) v.clock)
            fun id r hlookup hlive => Nat.le_succ_of_le (hinv.bounded id r hlookup hlive)
        exact ⟨_, _, graceInv_alone (hopen (Or.inl hsame)) rfl hrows hbounded⟩
    | @rotated d secrets change hdoc hadopts hfresh hgrace hchange =>
        obtain ⟨-, hkeys, hkid⟩ := hapart _ _ _ _ hdoc hinv.generations hadopts
        have hrotated :
            GraceInv L v.clock ((promiseOf v.host v.clock graceSecs).toList ++ v.promised)
              (generationOf endpoint d (current.id + 1) v.clock)
              (retired current v.clock graceSecs :: rest)
              (v.host.rotatedWith L (retired current v.clock graceSecs)
                (generationOf endpoint d (current.id + 1) v.clock) secrets change) :=
          hinv.rotatedWith hround hadopts.secretStore hchange rfl rfl rfl hkeys hkid
        refine ⟨generationOf endpoint d (current.id + 1) v.clock,
          retired current v.clock graceSecs :: rest, ?_⟩
        dsimp only [promisedAfter]
        rw [if_pos hgrace]
        exact hrotated
    | @atOnce d secrets hdoc hadopts hfresh hzero =>
        obtain ⟨hopen, -⟩ := hapart _ _ _ _ hdoc hinv.generations hadopts
        have hretiring : (retired current v.clock graceSecs).id = current.id := rfl
        have hcandidate :
            (generationOf endpoint d (current.id + 1) v.clock).id = current.id + 1 := rfl
        obtain ⟨hrows, hbounded⟩ := hinv.rotated_rows hretiring hcandidate
        have hopen' : openPromises v.clock (promisedAfter v (.reload endpoint doc graceSecs)
            (some (.ok (some (.rotated (current.id + 1) current.id
              (graceEnd v.clock graceSecs)))))) = [] := by
          dsimp only [promisedAfter]
          rw [if_neg (by omega)]
          exact hopen (Or.inr hzero)
        refine ⟨_, _, graceInv_alone hopen' ?_ hrows hbounded⟩
        change [generationOf endpoint d (current.id + 1) v.clock].filter
          (fun g => g.id != current.id) = _
        simp [generationOf]
  · rintro e t hfailed
    cases hfailed with
    | same => exact ⟨current, rest, hinv⟩
    | rewritten hdoc hadopts hfresh hchange =>
        obtain ⟨-, -, hkid⟩ := hapart _ _ _ _ hdoc hinv.generations hadopts
        exact ⟨current, rest, hinv.rewritten
          (hinv.stashed hround hadopts.secretStore (hchange.imp id And.right) hkid)⟩

theorem openPromises_filter (clock : ℕ) (promised : List Promise) (keep : Promise → Bool) :
    openPromises clock (promised.filter keep) = (openPromises clock promised).filter keep :=
  List.filter_comm _ _ _

theorem GraceInv.anti {clock later : ℕ} {promised promised' : List Promise}
    {current : IdentityGeneration} {rest : List IdentityGeneration} {s : Host}
    (h : GraceInv L clock promised current rest s) (hle : clock ≤ later)
    (hless : ∀ p ∈ openPromises later promised', p ∈ openPromises clock promised) :
    GraceInv L later promised' current rest s := by
  refine ⟨h.generations, h.older, ⟨h.rows.keyed, ?_⟩, ?_, ?_, ?_⟩
  · intro c hc id r hlookup hlive
    exact h.rows.bounded c hc id r hlookup (isLive_of_later hle hlive)
  · intro id r hlookup hlive
    exact h.bounded id r hlookup (isLive_of_later hle hlive)
  · intro hopen
    obtain ⟨p, hp⟩ := List.exists_mem_of_ne_nil _ hopen
    exact h.anchored (List.ne_nil_of_mem (hless p hp))
  · exact fun p hp => h.honoured p (hless p hp)

theorem sweep_keeps {faults : ℕ → Option IdentityError} (h : v.Keeps L)
    (hapart : WindowsApart L v (.op .sweep faults)) :
    (v.step L (.op .sweep faults)).Keeps L := by
  obtain ⟨current, rest, hinv⟩ := h
  have hafter : (IdentityOp.sweep.handler L v.clock).After (fun _ => True)
      (fun _ => GraceOn L v.clock v.promised current)
      (fun _ => GraceOn L v.clock v.promised current) v.host := by
    apply Atomic.after_bind
    apply after_runSweepOnce
    · intro g hg s t hon hexpired
      refine hon.expired hexpired (expiring_id_ne hinv.generations hg) ?_
      intro p hp
      obtain ⟨hid, hka⟩ := hinv.expiring_apart hp hg
      exact ⟨hid, hka, hapart g hg p hp⟩
    · exact ⟨rest, hinv⟩
  refine Keeper.step_op (P := (·.Keeps L)) hafter ?_ ?_ faults
  · exact fun _ _ ht => ⟨current, ht⟩
  · exact fun _ _ ht => ⟨current, ht⟩

theorem retireNow_keeps {generationId : ℕ} {faults : ℕ → Option IdentityError}
    (h : v.Keeps L) (hapart : WindowsApart L v (.op (.retireNow generationId) faults)) :
    (v.step L (.op (.retireNow generationId) faults)).Keeps L := by
  obtain ⟨current, rest, hinv⟩ := h
  have hstart : GraceOn L v.clock (v.promised.filter (·.id != generationId)) current v.host := by
    refine ⟨rest, hinv.anti (Nat.le_refl _) ?_⟩
    intro p hp
    rw [openPromises_filter] at hp
    exact (List.mem_filter.mp hp).1
  have hafter : ((IdentityOp.retireNow generationId).handler L v.clock).After (fun _ => True)
      (fun _ => GraceOn L v.clock (v.promised.filter (·.id != generationId)) current)
      (fun _ => GraceOn L v.clock (v.promised.filter (·.id != generationId)) current)
      v.host := by
    apply Atomic.after_bind
    refine after_retireGenerationNow hstart ?_
    intro g hfind hretired t hexpired
    obtain ⟨hid, hothers⟩ := hapart current rest g hinv.generations hfind hretired
    refine hstart.expired hexpired hid ?_
    intro p hp
    rw [openPromises_filter] at hp
    obtain ⟨hopen, hne⟩ := List.mem_filter.mp hp
    have hne' : p.id ≠ generationId := by simpa using hne
    have hgid : g.id = generationId := by simpa using List.find?_some hfind
    obtain ⟨hka, hsigning⟩ := hothers p hopen hne'
    exact ⟨fun heq => hne' (heq.symm.trans hgid), hka, hsigning⟩
  refine Keeper.step_op (P := (·.Keeps L)) hafter ?_ ?_ faults
  · exact fun _ _ ht => ⟨current, ht⟩
  · exact fun _ _ ht => ⟨current, ht⟩

/-- New keys leave the retired ones. -/
theorem rekey_keeps {signingKey keyAgreementKey : String} (h : v.Keeps L) :
    (v.step L (.rekey signingKey keyAgreementKey)).Keeps L := by
  obtain ⟨current, rest, hinv⟩ := h
  refine ⟨current, rest, hinv.rewritten ?_⟩
  intro p hp
  obtain ⟨secrets, keys, hsecrets, hkeys⟩ := (hinv.honoured p hp).stored
  rw [hsecrets]
  exact ⟨keys, hkeys⟩

theorem Keeper.Keeps.step {e : KeeperEvent}
    (hround : ∀ key form, L.privateMultibase key = some form → L.decode form = .ok key)
    (h : v.Keeps L) (hapart : WindowsApart L v e) : (v.step L e).Keeps L := by
  cases e with
  | tick seconds =>
      obtain ⟨current, rest, hinv⟩ := h
      refine ⟨current, rest, hinv.anti (Nat.le_add_right _ _) ?_⟩
      intro p hp
      obtain ⟨hmem, hclock⟩ := mem_openPromises.mp hp
      exact mem_openPromises.mpr ⟨hmem, Nat.lt_of_le_of_lt (Nat.le_add_right _ _) hclock⟩
  | rekey signingKey keyAgreementKey => exact rekey_keeps h
  | op op faults =>
      cases op with
      | reload endpoint doc graceSecs => exact reload_keeps hround h hapart
      | sweep => exact sweep_keeps h hapart
      | retireNow id => exact retireNow_keeps h hapart
      | load endpoint doc =>
          cases hsecrets : v.host.secretStore with
          | some secrets =>
              obtain ⟨current, rest, hinv⟩ := h
              refine load_keeps hsecrets hapart hinv.rows ?_
              exact fun hopen => ⟨current, hinv.anchored hopen, hinv.honoured⟩
          | none =>
              have hafter : ((IdentityOp.load endpoint doc).handler L v.clock).After
                  (fun _ => True) (fun _ _ => False) (fun _ t => t = v.host) v.host := by
                apply Atomic.after_bind
                exact after_loadIdentity_none hsecrets
              refine Keeper.step_op (P := (·.Keeps L)) hafter ?_ ?_ faults
              · exact fun _ _ hfalse => hfalse.elim
              · rintro e t rfl
                exact h

/-- From the first start on, the live set has the key of each generation that was retired
with a grace period, until that ends or the generation is killed, as long as no rotation
forgets an open window and no generation that leaves, or is stashed, has a kid of one for
another key. -/
theorem grace_periods_honoured (L : KeyLibs) (s₀ : Host) (clock : ℕ) (endpoint : Endpoint)
    (doc : Option ResolvedIdentityDoc) (faults : ℕ → Option IdentityError)
    (events : List KeeperEvent)
    (hround : ∀ key form, L.privateMultibase key = some form → L.decode form = .ok key)
    (hsecrets : s₀.secretStore.isSome = true) (hrows : RowsKept s₀.records s₀.currentId clock)
    (hmeets : Run.Meets (Keeper.step L) (WindowsApart L) ⟨s₀, clock, []⟩
      (.op (.load endpoint doc) faults :: events)) :
    let v := Run.exec (Keeper.step L) ⟨s₀, clock, []⟩ (.op (.load endpoint doc) faults :: events)
    ∀ p ∈ v.promised, v.clock < p.expiresAt → ⟨p.kaKid, p.key⟩ ∈ v.host.secrets := by
  obtain ⟨secrets, hsome⟩ := Option.isSome_iff_exists.mp hsecrets
  have hstart : (Keeper.step L ⟨s₀, clock, []⟩ (.op (.load endpoint doc) faults)).Keeps L :=
    load_keeps hsome hmeets.1 hrows fun hopen => absurd rfl hopen
  obtain ⟨current, rest, hinv⟩ :=
    Run.exec_invariant (fun _ _ hapart h => Keeper.Keeps.step hround h hapart) hstart hmeets.2
  intro v p hp hclock
  exact (hinv.honoured p (mem_openPromises.mpr ⟨hp, hclock⟩)).live

end Runs

/-! ## Sample runs -/

namespace Sample

/-- A start of the service, on a document. -/
def boot (signingKid kaKid key : String) : KeeperEvent :=
  .op (.load endpoint (some (document signingKid kaKid key))) noFaults

/-- The operator writes keys, publishes the document, and the service reads it. -/
def rotation (signingKid kaKid key : String) (graceSecs : ℕ) : List KeeperEvent :=
  [.rekey ("s-" ++ key) key,
    .op (.reload endpoint (some (document signingKid kaKid key)) graceSecs) noFaults]

/-- Some time later, a sweep. -/
def later : List KeeperEvent :=
  [.tick 1000, .op .sweep noFaults]

end Sample

theorem grace_periods_honoured_restart :
    let v := Run.exec (Keeper.step Sample.keyLibs) ⟨Sample.host, 100, []⟩
      (Sample.boot "#0" "#1" "k0" ::
        (Sample.rotation "#2" "#3" "k1" 3600 ++ [Sample.boot "#2" "#3" "k1"] ++ Sample.later))
    ∀ p ∈ v.promised, v.clock < p.expiresAt → ⟨p.kaKid, p.key⟩ ∈ v.host.secrets := by
  refine grace_periods_honoured Sample.keyLibs Sample.host 100 _ _ _ _ ?_ rfl ?_
    ⟨rfl, trivial, ?_, rfl, trivial, ?_, trivial⟩
  · intro key form h
    cases h
    rfl
  · refine ⟨?_, ?_⟩
    · intro id r hlookup
      cases hlookup
    · intro c hc
      cases hc
  · intro d current rest secrets hd hs hadopts
    cases hd
    have hfound : ∀ c ∈ (Run.exec (Keeper.step Sample.keyLibs) ⟨Sample.host, 100, []⟩
        [Sample.boot "#0" "#1" "k0", .rekey "s-k1" "k1"]).host.generations.take 1,
        (retiredKeysFor Sample.keyLibs (Run.exec (Keeper.step Sample.keyLibs)
          ⟨Sample.host, 100, []⟩
          [Sample.boot "#0" "#1" "k0", .rekey "s-k1" "k1"]).host.secrets c).isSome = true := by
      decide +kernel
    refine ⟨fun _ => rfl, fun _ => hfound current ?_, ?_⟩
    · rw [show (Run.exec (Keeper.step Sample.keyLibs) ⟨Sample.host, 100, []⟩
        [Sample.boot "#0" "#1" "k0", .rekey "s-k1" "k1"]).host.generations = current :: rest
        from hs]
      exact List.mem_cons_self
    · intro p hp
      cases hp
  · have hnone : ∀ g ∈ expiring (Run.exec (Keeper.step Sample.keyLibs) ⟨Sample.host, 100, []⟩
        (Sample.boot "#0" "#1" "k0" :: (Sample.rotation "#2" "#3" "k1" 3600 ++
          [Sample.boot "#2" "#3" "k1", .tick 1000]))).host 1100, False := by
      decide +kernel
    intro g hg
    exact (hnone g hg).elim

/-- A window is open when the service rotates again: without a grace period, onto the same
fragment, or back onto the fragment of the window and, with a grace period, away from it. -/
theorem grace_periods_forgotten :
    (let v := Run.exec (Keeper.step Sample.keyLibs) ⟨Sample.host, 100, []⟩
      (Sample.boot "#0" "#1" "k0" ::
        (Sample.rotation "#2" "#3" "k1" 3600 ++ Sample.rotation "#4" "#5" "k2" 0))
    ∃ p ∈ v.promised, v.clock < p.expiresAt ∧ ⟨p.kaKid, p.key⟩ ∉ v.host.secrets) ∧
    (let v := Run.exec (Keeper.step Sample.keyLibs) ⟨Sample.host, 100, []⟩
      (Sample.boot "#0" "#1" "k0" ::
        (Sample.rotation "#2" "#3" "k1" 3600 ++ Sample.rotation "#2" "#3" "k2" 3600))
    ∃ p ∈ v.promised, v.clock < p.expiresAt ∧ ⟨p.kaKid, p.key⟩ ∉ v.host.secrets) ∧
    (let v := Run.exec (Keeper.step Sample.keyLibs) ⟨Sample.host, 100, []⟩
      (Sample.boot "#0" "#1" "k0" ::
        (Sample.rotation "#2" "#3" "k1" 3600 ++ Sample.rotation "#4" "#1" "k2" 3600 ++
          Sample.rotation "#5" "#6" "k3" 3600 ++ [Sample.boot "#5" "#6" "k3"]))
    ∃ p ∈ v.promised, v.clock < p.expiresAt ∧ ⟨p.kaKid, p.key⟩ ∉ v.host.secrets) := by
  decide +kernel

end Identity

end DidHosting
