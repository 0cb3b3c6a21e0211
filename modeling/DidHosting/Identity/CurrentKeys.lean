import DidHosting.Identity.Ends
import DidHosting.Support.Run

/-!
# The keys of the current generation

A generation leaves memory by its kids: whatever answers to them goes.  Where only one of
the two keys was rotated, the generation that leaves shares a kid with the one that stays,
and takes the key in use along.  The sweep has a guard for the key-agreement kid of a
generation that stays; a rotation without a grace period and the kill switch have none, and
none looks at the signing kid.

As long as nothing that leaves shares a kid with the current generation, the resolver and
the live set hold both of its keys.
-/

namespace DidHosting

namespace Identity

/-! ## Keys held -/

/-- The private keys of a generation. -/
structure HeldKeys where
  signing : String
  keyAgreement : String
deriving DecidableEq, Repr

/-- The keys the secret store holds for a generation, if both decode and the key-agreement
key is the one the document advertises. -/
def heldBy (L : KeyLibs) (g : IdentityGeneration) (secrets : ServerSecrets) : Option HeldKeys := do
  let keys ← keysOf g secrets
  let signing ← (L.decode keys.1).toOption
  let keyAgreement ← (L.decode keys.2).toOption
  if secretMatchesDocument L keyAgreement g.kaPublicMultibase then some ⟨signing, keyAgreement⟩
  else none

/-- The resolver and the live set have both keys, under the kids the generation names. -/
structure Holds (s : Host) (g : IdentityGeneration) (keys : HeldKeys) : Prop where
  resolverKeyAgreement : s.resolver.lookup g.kaKid = some ⟨g.kaKid, keys.keyAgreement⟩
  resolverSigning : s.resolver.lookup g.signingKid = some ⟨g.signingKid, keys.signing⟩
  liveKeyAgreement : ⟨g.kaKid, keys.keyAgreement⟩ ∈ s.secrets
  liveSigning : ⟨g.signingKid, keys.signing⟩ ∈ s.secrets

/-- There is a current generation, and its keys are held if the secret store had them. -/
def CurrentKept (s : Host) (held : Option HeldKeys) : Prop :=
  ∃ current rest, s.generations = current :: rest ∧ ∀ keys, held = some keys → Holds s current keys

/-- The generations share no kid. -/
structure Apart (g other : IdentityGeneration) : Prop where
  kaKa : g.kaKid ≠ other.kaKid
  kaSigning : g.kaKid ≠ other.signingKid
  signingKa : g.signingKid ≠ other.kaKid
  signingSigning : g.signingKid ≠ other.signingKid

instance (g other : IdentityGeneration) : Decidable (Apart g other) :=
  decidable_of_iff
    (g.kaKid ≠ other.kaKid ∧ g.kaKid ≠ other.signingKid ∧ g.signingKid ≠ other.kaKid ∧
      g.signingKid ≠ other.signingKid)
    ⟨fun ⟨h₁, h₂, h₃, h₄⟩ => ⟨h₁, h₂, h₃, h₄⟩, fun h => ⟨h.1, h.2, h.3, h.4⟩⟩

/-! ## The resolver -/

theorem lookup_insertAll_of_ne {new : List Secret} {kid : String} (h : ∀ y ∈ new, y.id ≠ kid)
    (t : Table String Secret) : (insertAll new t).lookup kid = t.lookup kid := by
  induction new generalizing t with
  | nil => rfl
  | cons y rest ih =>
      have hne : kid ≠ y.id := (h y List.mem_cons_self).symm
      change (insertAll rest (t.insert y.id y)).lookup kid = _
      rw [ih fun z hz => h z (List.mem_cons_of_mem y hz)]
      exact AList.lookup_insert_ne hne

/-- A secret answers to its kid if no other one was inserted for it. -/
theorem lookup_insertAll {new : List Secret} {x : Secret} (hx : x ∈ new)
    (honly : ∀ y ∈ new, y.id = x.id → y = x) (t : Table String Secret) :
    (insertAll new t).lookup x.id = some x := by
  induction new generalizing t with
  | nil => cases hx
  | cons y rest ih =>
      have hrest := fun z hz => honly z (List.mem_cons_of_mem y hz)
      change (insertAll rest (t.insert y.id y)).lookup x.id = _
      by_cases hmem : x ∈ rest
      · exact ih hmem hrest _
      · have hxy : x = y := (List.mem_cons.mp hx).resolve_right hmem
        have hne : ∀ z ∈ rest, z.id ≠ x.id := by
          intro z hz hid
          exact hmem (hrest z hz hid ▸ hz)
        rw [lookup_insertAll_of_ne hne, hxy]
        exact AList.lookup_insert _

theorem secretsFor_of_heldBy {L : KeyLibs} {g : IdentityGeneration} {secrets : ServerSecrets}
    {keys : HeldKeys} (h : heldBy L g secrets = some keys) :
    secretsFor L g secrets = [⟨g.signingKid, keys.signing⟩, ⟨g.kaKid, keys.keyAgreement⟩] := by
  unfold heldBy at h
  unfold secretsFor decoded
  cases hkeys : keysOf g secrets with
  | none =>
      rw [hkeys] at h
      cases h
  | some pair =>
      obtain ⟨signingKey, kaKey⟩ := pair
      simp only [hkeys, Option.bind_eq_bind, Option.bind_some] at h
      cases hsigning : (L.decode signingKey).toOption with
      | none =>
          simp [hsigning] at h
      | some signing =>
          cases hka : (L.decode kaKey).toOption with
          | none => simp [hsigning, hka] at h
          | some ka =>
              simp only [hsigning, hka, Option.bind_some] at h
              split_ifs at h with hmatches
              cases h
              simp [hsigning, hka]

/-- Fresh secrets of a generation with two kids are held. -/
theorem holds_of_insertAll {L : KeyLibs} {g : IdentityGeneration} {secrets : ServerSecrets}
    {keys : HeldKeys} {all : List Secret} {t : Table String Secret} {s : Host}
    (hheld : heldBy L g secrets = some keys) (hkids : g.signingKid ≠ g.kaKid)
    (hmem : ∀ x ∈ secretsFor L g secrets, x ∈ all)
    (honly : ∀ x ∈ all, (x.id = g.kaKid ∨ x.id = g.signingKid) → x ∈ secretsFor L g secrets)
    (hresolver : s.resolver = insertAll all t) (hsecrets : ∀ x ∈ all, x ∈ s.secrets) :
    Holds s g keys := by
  rw [secretsFor_of_heldBy hheld] at hmem honly
  have hsigning := hmem _ List.mem_cons_self
  have hka := hmem _ (List.mem_cons_of_mem _ List.mem_cons_self)
  refine ⟨?_, ?_, hsecrets _ hka, hsecrets _ hsigning⟩
  · rw [hresolver]
    refine lookup_insertAll hka ?_ t
    intro y hy hid
    have hy' := honly y hy (Or.inl hid)
    simp only [List.mem_cons, List.not_mem_nil, or_false] at hy'
    obtain rfl | rfl := hy'
    · exact absurd hid hkids
    · rfl
  · rw [hresolver]
    refine lookup_insertAll hsigning ?_ t
    intro y hy hid
    have hy' := honly y hy (Or.inr hid)
    simp only [List.mem_cons, List.not_mem_nil, or_false] at hy'
    obtain rfl | rfl := hy'
    · rfl
    · exact absurd hid.symm hkids

/-! ## Generations that leave -/

/-- A generation that shares no kid leaves without the keys of the current one. -/
theorem Holds.dropped {s t : Host} {g current : IdentityGeneration} {keys : HeldKeys}
    (h : Holds s current keys) (hapart : Apart g current)
    (hresolver : t.resolver = (s.resolver.erase g.kaKid).erase g.signingKid)
    (hsecrets : t.secrets =
      s.secrets.filter fun x => x.id != g.kaKid && x.id != g.signingKid) :
    Holds t current keys := by
  have hlookup : ∀ kid, kid ≠ g.kaKid → kid ≠ g.signingKid →
      t.resolver.lookup kid = s.resolver.lookup kid := by
    intro kid hka hsigning
    rw [hresolver, AList.lookup_erase_ne hsigning, AList.lookup_erase_ne hka]
  have hkept : ∀ x ∈ s.secrets, x.id ≠ g.kaKid → x.id ≠ g.signingKid → x ∈ t.secrets := by
    intro x hx hka hsigning
    rw [hsecrets]
    exact List.mem_filter.mpr ⟨hx, by simp [hka, hsigning]⟩
  refine ⟨?_, ?_, ?_, ?_⟩
  · rw [hlookup _ hapart.kaKa.symm hapart.signingKa.symm]
    exact h.resolverKeyAgreement
  · rw [hlookup _ hapart.kaSigning.symm hapart.signingSigning.symm]
    exact h.resolverSigning
  · exact hkept _ h.liveKeyAgreement hapart.kaKa.symm hapart.signingKa.symm
  · exact hkept _ h.liveSigning hapart.kaSigning.symm hapart.signingSigning.symm

/-- Only the memory matters, and only the kids of the generation. -/
theorem Holds.congr {s t : Host} {g g' : IdentityGeneration} {keys : HeldKeys}
    (h : Holds s g keys) (hresolver : t.resolver = s.resolver) (hsecrets : t.secrets = s.secrets)
    (hka : g'.kaKid = g.kaKid) (hsigning : g'.signingKid = g.signingKid) :
    Holds t g' keys := by
  refine ⟨?_, ?_, ?_, ?_⟩
  · rw [hresolver, hka]
    exact h.resolverKeyAgreement
  · rw [hresolver, hsigning]
    exact h.resolverSigning
  · rw [hsecrets, hka]
    exact h.liveKeyAgreement
  · rw [hsecrets, hsigning]
    exact h.liveSigning

/-- A service on `current` whose keys are held. -/
def KeptOn (held : Option HeldKeys) (current : IdentityGeneration) (s : Host) : Prop :=
  ∃ rest, s.generations = current :: rest ∧ ∀ keys, held = some keys → Holds s current keys

theorem KeptOn.expired {held : Option HeldKeys} {current g : IdentityGeneration} {s t : Host}
    (h : KeptOn held current s) (hid : g.id ≠ current.id) (hapart : Apart g current)
    (hexpired : Expired g s t) : KeptOn held current t := by
  obtain ⟨rest, hs, hheld⟩ := h
  refine ⟨rest.filter (·.id != g.id), ?_, ?_⟩
  · rw [hexpired.generations]
    change s.generations.filter (·.id != g.id) = _
    rw [hs, List.filter_cons_of_pos (by simpa using hid.symm)]
  · intro keys hkeys
    exact (hheld keys hkeys).dropped hapart hexpired.resolver hexpired.secrets

/-- The current generation is never doomed. -/
theorem expiring_id_ne {s : Host} {now : ℕ} {g current : IdentityGeneration}
    {rest : List IdentityGeneration} (hs : s.generations = current :: rest)
    (hg : g ∈ expiring s now) : g.id ≠ current.id := by
  intro hid
  have hdoomed := (Bool.and_eq_true_iff.mp (List.mem_filter.mp hg).2).1
  have hmem := List.contains_iff_mem.mp hdoomed
  unfold doomedIds at hmem
  obtain ⟨x, hx, hxid⟩ := List.mem_map.mp hmem
  have hne := (Bool.and_eq_true_iff.mp (List.mem_filter.mp hx).2).1
  rw [hs, hxid, hid] at hne
  simp at hne

/-! ## Runs -/

/-- A service, and the keys the secret store held for its current generation when that
became current. -/
structure Service where
  host : Host
  held : Option HeldKeys

/-- What happens to a service: an operation, or a change of the stores by another
process. -/
inductive IdentityEvent where
  | op (op : IdentityOp) (now : ℕ) (faults : ℕ → Option IdentityError)
  | outside (secretStore : Option ServerSecrets) (currentId : Option ℕ)
      (records : Table ℕ IdentityGeneration)

/-- With this outcome the operation has made a generation current. -/
def makesCurrent : IdentityOp → Except IdentityError (Option ReloadOutcome) → Bool
  | .load _ _, .ok _ => true
  | .reload _ _ _, .ok (some (.established _)) => true
  | .reload _ _ _, .ok (some (.rotatedWithoutOverlap _ _)) => true
  | .reload _ _ _, .ok (some (.rotated _ _ _)) => true
  | _, _ => false

/-- The keys that are due after an operation that ended with `outcome` in `t`. -/
def heldAfter (L : KeyLibs) (v : Service) (op : IdentityOp)
    (outcome : Option (Except IdentityError (Option ReloadOutcome))) (t : Host) :
    Option HeldKeys :=
  if outcome.any (makesCurrent op) then do
    let g ← t.generations.head?
    let secrets ← v.host.secretStore
    heldBy L g secrets
  else v.held

def Service.step (L : KeyLibs) (v : Service) : IdentityEvent → Service
  | .op op now faults =>
      let ended := (op.handler L now).alone faults v.host
      ⟨ended.2, heldAfter L v op ended.1 ended.2⟩
  | .outside secretStore currentId records =>
      { v with
        host :=
          { v.host with
            secretStore := secretStore
            currentId := currentId
            records := records } }

/-- The generation a service comes up with names two kids, and no retired generation has
another key under one of them. -/
def ComesUpApart (L : KeyLibs) (secrets : ServerSecrets) (current : IdentityGeneration)
    (stored : List IdentityGeneration) : Prop :=
  current.signingKid ≠ current.kaKid ∧
  ∀ g ∈ bootGenerations current stored, ∀ x ∈ secretsFor L g secrets,
    (x.id = current.kaKid ∨ x.id = current.signingKid) → x ∈ secretsFor L current secrets

/-- No generation that leaves, or comes along, shares a kid with the current one. -/
def LeavesApart (L : KeyLibs) (v : Service) : IdentityEvent → Prop
  | .op (.load endpoint doc) now _ =>
      ∀ secrets stored, v.host.secretStore = some secrets →
        (stored = loadGenerations v.host.currentId v.host.records now ∨ stored = []) →
        ComesUpApart L secrets (bootGeneration endpoint doc stored now).1 stored
  | .op (.reload endpoint doc graceSecs) now _ =>
      ∀ d current rest, doc = some d → v.host.generations = current :: rest →
        (v.host.currentId = none → d.signingKid ≠ d.kaKid) ∧
        ∀ secrets,
          Adopts L v.host current (generationOf endpoint d (current.id + 1) now) secrets →
          d.signingKid ≠ d.kaKid ∧
          (graceSecs = 0 →
            current.isSameKidRotation (generationOf endpoint d (current.id + 1) now) = false →
            Apart current (generationOf endpoint d (current.id + 1) now))
  | .op .sweep now _ =>
      ∀ current rest, v.host.generations = current :: rest →
        ∀ g ∈ expiring v.host now, Apart g current
  | .op (.retireNow generationId) _ _ =>
      ∀ current rest g, v.host.generations = current :: rest →
        v.host.generations.find? (·.id == generationId) = some g →
        g.retiredAt.isNone = false → Apart g current
  | .outside _ _ _ => True

section

variable {L : KeyLibs} {v : Service}

/-- The keys of a generation that was made current are those it was given. -/
theorem heldAfter_of_current {op : IdentityOp} {outcome : Option ReloadOutcome} {t : Host}
    {current : IdentityGeneration} {rest : List IdentityGeneration} {secrets : ServerSecrets}
    (hmakes : makesCurrent op (.ok outcome) = true) (ht : t.generations = current :: rest)
    (hsecrets : v.host.secretStore = some secrets) :
    heldAfter L v op (some (.ok outcome)) t = heldBy L current secrets := by
  unfold heldAfter
  rw [if_pos (by simpa using hmakes), ht, hsecrets]
  rfl

theorem heldAfter_of_not {op : IdentityOp}
    {outcome : Option (Except IdentityError (Option ReloadOutcome))} {t : Host}
    (hmakes : outcome.any (makesCurrent op) = false) :
    heldAfter L v op outcome t = v.held := by
  unfold heldAfter
  rw [hmakes, if_neg Bool.false_ne_true]

/-- What the ends of an operation have holds after its step. -/
theorem step_op {op : IdentityOp} {now : ℕ} {P : Service → Prop}
    {Q : Option ReloadOutcome → Host → Prop} {E : IdentityError → Host → Prop}
    (hafter : (op.handler L now).After (fun _ => True) Q E v.host)
    (hQ : ∀ outcome t, Q outcome t → P ⟨t, heldAfter L v op (some (.ok outcome)) t⟩)
    (hE : ∀ e t, E e t → P ⟨t, v.held⟩) (faults : ℕ → Option IdentityError) :
    P (v.step L (.op op now faults)) := by
  have hstep : v.step L (.op op now faults) =
      ⟨(op.handler L now).effect faults v.host,
        heldAfter L v op ((op.handler L now).alone faults v.host).1
          ((op.handler L now).effect faults v.host)⟩ :=
    rfl
  rw [hstep]
  obtain ⟨outcome, houtcome, hend⟩ | ⟨e, houtcome, hend⟩ :=
    hafter.alone fun n => (trivial : (fun _ => True) (faults n))
  · rw [houtcome]
    exact hQ outcome _ hend
  · rw [houtcome, heldAfter_of_not]
    · exact hE e _ hend
    · cases op <;> rfl

/-- A service that has come up holds the keys it was given. -/
theorem loaded_holds {current : IdentityGeneration} {stored : List IdentityGeneration}
    {secrets : ServerSecrets} {keys : HeldKeys} {s : Host}
    (hapart : ComesUpApart L secrets current stored)
    (hheld : heldBy L current secrets = some keys) :
    Holds (s.loaded L current stored secrets) current keys := by
  refine holds_of_insertAll hheld hapart.1 ?_ ?_ rfl fun x hx => hx
  · intro x hx
    exact List.mem_flatMap.mpr ⟨current, List.mem_cons_self, hx⟩
  · intro x hx hid
    obtain ⟨g, hg, hxg⟩ := List.mem_flatMap.mp hx
    exact hapart.2 g hg x hxg hid

/-- A start of the service, whatever was in memory before. -/
theorem load_currentKept {endpoint : Endpoint} {doc : Option ResolvedIdentityDoc} {now : ℕ}
    {faults : ℕ → Option IdentityError} {secrets : ServerSecrets}
    (hsecrets : v.host.secretStore = some secrets)
    (hapart : LeavesApart L v (.op (.load endpoint doc) now faults)) :
    CurrentKept (v.step L (.op (.load endpoint doc) now faults)).host
      (v.step L (.op (.load endpoint doc) now faults)).held := by
  have hafter : ((IdentityOp.load endpoint doc).handler L now).After (fun _ => True)
      (fun _ => Loaded (fun _ => True) L endpoint doc now v.host) (fun _ _ => False)
      v.host := by
    apply Atomic.after_bind
    exact after_loadIdentity hsecrets
  refine step_op (P := fun v' => CurrentKept v'.host v'.held) hafter ?_ ?_ faults
  · rintro outcome _ ⟨hsecrets', hstored, -⟩
    have hstored' := hstored.imp id And.left
    refine ⟨_, _, rfl, ?_⟩
    intro keys hkeys
    rw [heldAfter_of_current rfl rfl hsecrets'] at hkeys
    exact loaded_holds (hapart _ _ hsecrets' hstored') hkeys
  · intro e t h
    exact h.elim

theorem established_holds {current g : IdentityGeneration} {secrets : ServerSecrets}
    {keys : HeldKeys} {s : Host} (hkids : g.signingKid ≠ g.kaKid)
    (hheld : heldBy L g secrets = some keys) :
    Holds (s.established L g current secrets) g keys :=
  holds_of_insertAll hheld hkids (fun _ hx => hx) (fun _ hx _ => hx) rfl fun _ hx => hx

/-- The keys of the generation that a rotation makes current. -/
theorem rotatedWith_holds {retiring g : IdentityGeneration} {secrets : ServerSecrets}
    {change : SecretsChange} {keys : HeldKeys} {s : Host} (hkids : g.signingKid ≠ g.kaKid)
    (hheld : heldBy L g (change.apply secrets) = some keys) :
    Holds (s.rotatedWith L retiring g secrets change) g keys :=
  holds_of_insertAll hheld hkids (fun _ hx => hx) (fun _ hx _ => hx) rfl
    fun _ hx => List.mem_append_left _ hx

theorem rotatedAtOnce_holds {retiring g : IdentityGeneration} {secrets : ServerSecrets}
    {keys : HeldKeys} {s : Host} (hkids : g.signingKid ≠ g.kaKid) (hapart : Apart retiring g)
    (hheld : heldBy L g secrets = some keys) :
    Holds (s.rotatedAtOnce L retiring g secrets) g keys := by
  have hbefore : Holds
      { s.rewritten secrets .same with
        records := (s.records.insert retiring.id retiring).insert g.id g
        currentId := some g.id
        resolver := insertAll (secretsFor L g secrets) s.resolver
        generations := [g]
        secrets := secretsFor L g secrets } g keys :=
    holds_of_insertAll hheld hkids (fun _ hx => hx) (fun _ hx _ => hx) rfl fun _ hx => hx
  exact hbefore.dropped hapart rfl rfl

/-- A change of the retired keys does not touch those of the current generation. -/
theorem heldBy_of_current {endpoint : Endpoint} {d : ResolvedIdentityDoc} {id now : ℕ}
    {secrets : ServerSecrets} {o : Option RetiredKeys} {current : ℕ} :
    heldBy L (generationOf endpoint d id now)
      (((o.elim .same (.stash current) : SecretsChange)).apply secrets) =
      heldBy L (generationOf endpoint d id now) secrets := by
  cases o <;> rfl

theorem kids_of_not_keyChanged {g other : IdentityGeneration} (h : g.keyChanged other = false) :
    g.signingKid = other.signingKid ∧ g.kaKid = other.kaKid := by
  unfold IdentityGeneration.keyChanged at h
  simp only [Bool.or_eq_false_iff, bne_eq_false_iff_eq] at h
  exact h.1

theorem reload_currentKept {endpoint : Endpoint} {doc : Option ResolvedIdentityDoc}
    {graceSecs now : ℕ} {faults : ℕ → Option IdentityError}
    (h : CurrentKept v.host v.held)
    (hapart : LeavesApart L v (.op (.reload endpoint doc graceSecs) now faults)) :
    CurrentKept (v.step L (.op (.reload endpoint doc graceSecs) now faults)).host
      (v.step L (.op (.reload endpoint doc graceSecs) now faults)).held := by
  obtain ⟨current, rest, hs, hheld⟩ := h
  have hafter : ((IdentityOp.reload endpoint doc graceSecs).handler L now).After (fun _ => True)
      (fun outcome t => ∃ o, outcome = some o ∧
        Reloaded L endpoint doc now graceSecs v.host current o t)
      (fun _ => ReloadFailed L endpoint doc now graceSecs v.host current) v.host := by
    apply Atomic.after_bind
    refine (after_reloadServiceIdentity hs).mono ?_ fun _ _ hfailed => hfailed
    intro o t ho
    exact ⟨o, rfl, ho⟩
  have hkept : CurrentKept v.host v.held := ⟨current, rest, hs, hheld⟩
  refine step_op (P := fun v' => CurrentKept v'.host v'.held) hafter ?_ ?_ faults
  · rintro _ t ⟨o, rfl, ho⟩
    cases ho with
    | unresolvable => exact hkept
    | unchanged => exact hkept
    | refused reason => exact hkept
    | established hdoc hnone hsecrets =>
        refine ⟨_, [], rfl, ?_⟩
        intro keys hkeys
        rw [heldAfter_of_current rfl rfl hsecrets] at hkeys
        exact established_holds ((hapart _ _ _ hdoc hs).1 hnone) hkeys
    | @metadataUpdated d hdoc hsome hsame =>
        refine ⟨generationOf endpoint d current.id now, rest, ?_, ?_⟩
        · change _ :: v.host.generations.tail = _
          rw [hs]
          rfl
        · intro keys hkeys
          rw [heldAfter_of_not rfl] at hkeys
          obtain ⟨hsigning, hka⟩ := kids_of_not_keyChanged hsame
          exact (hheld keys hkeys).congr rfl rfl hka.symm hsigning.symm
    | withoutOverlap hdoc hadopts hsame =>
        refine ⟨_, [], rfl, ?_⟩
        intro keys hkeys
        rw [heldAfter_of_current rfl rfl hadopts.secretStore] at hkeys
        exact established_holds ((hapart _ _ _ hdoc hs).2 _ hadopts).1 hkeys
    | rotated hdoc hadopts hfresh hgrace hchange =>
        refine ⟨_, _, rfl, ?_⟩
        intro keys hkeys
        rw [heldAfter_of_current rfl rfl hadopts.secretStore] at hkeys
        refine rotatedWith_holds ((hapart _ _ _ hdoc hs).2 _ hadopts).1 ?_
        rw [hchange, heldBy_of_current]
        exact hkeys
    | @atOnce d secrets hdoc hadopts hfresh hzero =>
        obtain ⟨hkids, hleaves⟩ := (hapart _ _ _ hdoc hs).2 _ hadopts
        have halone : (v.host.rotatedAtOnce L (retired current now graceSecs)
            (generationOf endpoint d (current.id + 1) now) secrets).generations =
            [generationOf endpoint d (current.id + 1) now] := by
          change [generationOf endpoint d (current.id + 1) now].filter
            (fun g => g.id != current.id) = _
          simp [generationOf]
        refine ⟨_, [], halone, ?_⟩
        intro keys hkeys
        rw [heldAfter_of_current rfl halone hadopts.secretStore] at hkeys
        have hleft := hleaves hzero hfresh
        exact rotatedAtOnce_holds hkids
          ⟨hleft.kaKa, hleft.kaSigning, hleft.signingKa, hleft.signingSigning⟩ hkeys
  · rintro _ t hfailed
    cases hfailed with
    | same => exact hkept
    | rewritten hdoc hadopts hfresh hchange =>
        refine ⟨current, rest, hs, ?_⟩
        intro keys hkeys
        exact (hheld keys hkeys).congr rfl rfl rfl rfl

/-- Everything but a start and a reload. -/
theorem expiry_currentKept {op : IdentityOp} {now : ℕ} {faults : ℕ → Option IdentityError}
    (h : CurrentKept v.host v.held) (hapart : LeavesApart L v (.op op now faults))
    (hop : op = .sweep ∨ ∃ id, op = .retireNow id) :
    CurrentKept (v.step L (.op op now faults)).host (v.step L (.op op now faults)).held := by
  obtain ⟨current, rest, hs, hheld⟩ := h
  have hkept : KeptOn v.held current v.host := ⟨rest, hs, hheld⟩
  have hafter : (op.handler L now).After (fun _ => True)
      (fun outcome t => outcome = none ∧ KeptOn v.held current t)
      (fun _ => KeptOn v.held current) v.host := by
    obtain rfl | ⟨id, rfl⟩ := hop
    · apply Atomic.after_bind
      refine (after_runSweepOnce ?_ hkept).mono (fun _ _ h => ⟨rfl, h⟩) fun _ _ h => h
      intro g hg s t hstep hexpired
      exact hstep.expired (expiring_id_ne hs hg) (hapart current rest hs g hg) hexpired
    · apply Atomic.after_bind
      refine (after_retireGenerationNow hkept ?_).mono (fun _ _ h => ⟨rfl, h⟩) fun _ _ h => h
      intro g hfind hretired t hexpired
      have hleft := hapart current rest g hs hfind hretired
      refine hkept.expired ?_ hleft hexpired
      intro hid
      rw [hs, List.find?_cons_of_pos (by
        have := List.find?_some hfind
        simpa [hid] using this)] at hfind
      cases hfind
      exact hleft.kaKa rfl
  refine step_op (P := fun v' => CurrentKept v'.host v'.held) hafter ?_ ?_ faults
  · rintro _ t ⟨rfl, ht⟩
    obtain ⟨rest', hs', hheld'⟩ := ht
    refine ⟨current, rest', hs', ?_⟩
    rw [heldAfter_of_not (by obtain rfl | ⟨id, rfl⟩ := hop <;> rfl)]
    exact hheld'
  · rintro e t ⟨rest', hs', hheld'⟩
    exact ⟨current, rest', hs', hheld'⟩

theorem CurrentKept.step {e : IdentityEvent} (h : CurrentKept v.host v.held)
    (hapart : LeavesApart L v e) :
    CurrentKept (v.step L e).host (v.step L e).held := by
  cases e with
  | outside secretStore currentId records =>
      obtain ⟨current, rest, hs, hheld⟩ := h
      refine ⟨current, rest, hs, ?_⟩
      intro keys hkeys
      exact (hheld keys hkeys).congr rfl rfl rfl rfl
  | op op now faults =>
      cases op with
      | load endpoint doc =>
          cases hsecrets : v.host.secretStore with
          | some secrets => exact load_currentKept hsecrets hapart
          | none =>
              have hafter : ((IdentityOp.load endpoint doc).handler L now).After
                  (fun _ => True) (fun _ _ => False) (fun _ t => t = v.host) v.host := by
                apply Atomic.after_bind
                exact after_loadIdentity_none hsecrets
              refine step_op (P := fun v' => CurrentKept v'.host v'.held) hafter ?_ ?_ faults
              · exact fun _ _ hfalse => hfalse.elim
              · rintro e t rfl
                exact h
      | reload endpoint doc graceSecs => exact reload_currentKept h hapart
      | sweep => exact expiry_currentKept h hapart (Or.inl rfl)
      | retireNow id => exact expiry_currentKept h hapart (Or.inr ⟨id, rfl⟩)

/-- From the first start on, as long as nothing that leaves shares a kid with the current
generation, the resolver and the live set hold the keys the secret store had for it. -/
theorem current_keys_kept (L : KeyLibs) (s₀ : Host) (endpoint : Endpoint)
    (doc : Option ResolvedIdentityDoc) (now : ℕ) (faults : ℕ → Option IdentityError)
    (events : List IdentityEvent) (hsecrets : s₀.secretStore.isSome = true)
    (hmeets : Run.Meets (Service.step L) (LeavesApart L) ⟨s₀, none⟩
      (.op (.load endpoint doc) now faults :: events)) :
    let v := Run.exec (Service.step L) ⟨s₀, none⟩ (.op (.load endpoint doc) now faults :: events)
    ∃ current rest, v.host.generations = current :: rest ∧
      ∀ keys, v.held = some keys → Holds v.host current keys := by
  obtain ⟨secrets, hsome⟩ := Option.isSome_iff_exists.mp hsecrets
  have hstart := load_currentKept (v := ⟨s₀, none⟩) hsome hmeets.1
  exact @Run.exec_invariant _ _ _ _ (fun v : Service => CurrentKept v.host v.held)
    (fun _ _ hapart h => h.step hapart)
    (Service.step L ⟨s₀, none⟩ (.op (.load endpoint doc) now faults)) events hstart hmeets.2

end

/-! ## Sample runs -/

namespace Sample

/-- Keys that are their own multibase form. -/
def keyLibs : KeyLibs where
  decode key := .ok key
  publicMultibase key := some ("pub-" ++ key)
  privateMultibase key := some key

/-- A service of the DID. -/
def endpoint : Endpoint :=
  ⟨"did:webvh:x:a.example", none, ⟨true, false⟩⟩

/-- A document with the two kids and the public half of a key-agreement key. -/
def document (signingKid kaKid key : String) : ResolvedIdentityDoc :=
  ⟨signingKid, kaKid, some ("pub-" ++ key)⟩

/-- The secrets of a service that has never rotated. -/
def secrets (signingKey kaKey : String) : ServerSecrets :=
  ⟨signingKey, kaKey, []⟩

/-- Nothing has run yet. -/
def host : Host where
  secretStore := some (secrets "s0" "k0")
  currentId := none
  records := ∅
  resolver := ∅
  generations := []
  secrets := []
  history := ⟨("s0", "k0"), [], [], []⟩

/-- No access fails. -/
def noFaults : ℕ → Option IdentityError :=
  fun _ => none

/-- The first start of the service. -/
def start : IdentityEvent :=
  .op (.load endpoint (some (document "#0" "#1" "k0"))) 100 noFaults

/-- The operator writes other keys over those of the row's first generation. -/
def newKeys (signingKey kaKey : String) : IdentityEvent :=
  .outside (some (secrets signingKey kaKey)) (some 0)
    ((∅ : Table ℕ IdentityGeneration).insert 0
      (generationOf endpoint (document "#0" "#1" "k0") 0 100))

/-- The document is published and read. -/
def reload (signingKid kaKid key : String) (graceSecs : ℕ) : IdentityEvent :=
  .op (.reload endpoint (some (document signingKid kaKid key)) graceSecs) 200 noFaults

/-- A sweep after the grace period. -/
def sweep : IdentityEvent :=
  .op .sweep 4000 noFaults

end Sample

theorem comesUpApart_alone {L : KeyLibs} {secrets : ServerSecrets}
    {current : IdentityGeneration} (hkids : current.signingKid ≠ current.kaKid) :
    ComesUpApart L secrets current [] := by
  refine ⟨hkids, ?_⟩
  intro g hg x hx _
  rw [List.mem_singleton.mp hg] at hx
  exact hx

theorem current_keys_kept_rotation :
    let v := Run.exec (Service.step Sample.keyLibs) ⟨Sample.host, none⟩
      [Sample.start, Sample.newKeys "s1" "k1", Sample.reload "#2" "#3" "k1" 3600, Sample.sweep]
    ∃ current rest, v.host.generations = current :: rest ∧
      ∀ keys, v.held = some keys → Holds v.host current keys := by
  refine current_keys_kept Sample.keyLibs Sample.host _ _ _ _ _ rfl ⟨?_, trivial, ?_, ?_, trivial⟩
  · rintro secrets stored - (rfl | rfl)
    · exact comesUpApart_alone (by decide)
    · exact comesUpApart_alone (by decide)
  · rintro d current rest hd -
    cases hd
    refine ⟨fun _ => by decide, fun secrets _ => ⟨by decide, ?_⟩⟩
    intro hzero
    omega
  · intro current rest hs g hg
    have hapart : ∀ g ∈ expiring (Run.exec (Service.step Sample.keyLibs) ⟨Sample.host, none⟩
        [Sample.start, Sample.newKeys "s1" "k1", Sample.reload "#2" "#3" "k1" 3600]).host 4000,
        ∀ c ∈ (Run.exec (Service.step Sample.keyLibs) ⟨Sample.host, none⟩
          [Sample.start, Sample.newKeys "s1" "k1",
            Sample.reload "#2" "#3" "k1" 3600]).host.generations.take 1, Apart g c := by
      decide +kernel
    refine hapart g hg current ?_
    rw [show (Run.exec (Service.step Sample.keyLibs) ⟨Sample.host, none⟩
        [Sample.start, Sample.newKeys "s1" "k1",
          Sample.reload "#2" "#3" "k1" 3600]).host.generations = current :: rest from hs]
    exact List.mem_cons_self

/-- The signing key alone is rotated, without a grace period: the generation that leaves
takes the key-agreement key along, which the current one still uses.  The key-agreement key
alone is rotated: when the grace period ends, the signing key goes. -/
theorem current_keys_dropped :
    (let v := Run.exec (Service.step Sample.keyLibs) ⟨Sample.host, none⟩
      [Sample.start, Sample.newKeys "s1" "k0", Sample.reload "#2" "#1" "k0" 0]
    v.host.generations.map (·.kaKid) = ["#1"] ∧ v.held = some ⟨"s1", "k0"⟩ ∧
      v.host.resolver.lookup "#1" = none ∧ ∀ x ∈ v.host.secrets, x.id ≠ "#1") ∧
    (let v := Run.exec (Service.step Sample.keyLibs) ⟨Sample.host, none⟩
      [Sample.start, Sample.newKeys "s0" "k1", Sample.reload "#0" "#2" "k1" 3600, Sample.sweep]
    v.host.generations.map (·.signingKid) = ["#0"] ∧ v.held = some ⟨"s0", "k1"⟩ ∧
      v.host.resolver.lookup "#0" = none ∧ ∀ x ∈ v.host.secrets, x.id ≠ "#0") := by
  decide +kernel

end Identity

end DidHosting
