import DidHosting.Identity.Service
import DidHosting.Support.Alone

/-!
# What the identity operations leave

For each operation that runs with nothing in between, the hosts it can end in.  The
invariants of runs are shown from these, not from the operations.
-/

namespace DidHosting

namespace Identity

/-! ## Ends -/

namespace Host

/-- A generation is established: its keys alone are held. -/
def established (s : Host) (L : KeyLibs) (g placeholder : IdentityGeneration)
    (secrets : ServerSecrets) : Host :=
  { s with
    records := s.records.insert g.id g
    currentId := some g.id
    resolver := insertAll (secretsFor L g secrets)
      ((s.resolver.erase placeholder.kaKid).erase placeholder.signingKid)
    generations := [g]
    secrets := secretsFor L g secrets }

/-- The current generation has other attributes than its keys. -/
def updated (s : Host) (g : IdentityGeneration) : Host :=
  { s with
    records := s.records.insert g.id g
    currentId := some g.id
    generations := g :: s.generations.tail }

/-- The key material of a generation is gone from memory. -/
def dropped (s : Host) (g : IdentityGeneration) (expired : Bool) : Host :=
  { s with
    resolver := (s.resolver.erase g.kaKid).erase g.signingKid
    generations := s.generations.filter (·.id != g.id)
    secrets := s.secrets.filter fun x => x.id != g.kaKid && x.id != g.signingKid
    history := if expired then s.history.expire g else s.history }

/-- The secret store has been written. -/
def rewritten (s : Host) (secrets : ServerSecrets) (change : SecretsChange) : Host :=
  { s with secretStore := some (change.apply secrets), history := s.history.record change }

/-- A rotation with a grace period has ended. -/
def rotatedWith (s : Host) (L : KeyLibs) (retiring candidate : IdentityGeneration)
    (secrets : ServerSecrets) (change : SecretsChange) : Host :=
  { s.rewritten secrets change with
    records := (s.records.insert retiring.id retiring).insert candidate.id candidate
    currentId := some candidate.id
    resolver := insertAll (secretsFor L candidate (change.apply secrets)) s.resolver
    generations := candidate :: retiring :: s.generations.tail
    secrets := secretsFor L candidate (change.apply secrets) ++ s.secrets }

/-- A rotation without one has ended. -/
def rotatedAtOnce (s : Host) (L : KeyLibs) (retiring candidate : IdentityGeneration)
    (secrets : ServerSecrets) : Host :=
  ({ s.rewritten secrets .same with
    records := (s.records.insert retiring.id retiring).insert candidate.id candidate
    currentId := some candidate.id
    resolver := insertAll (secretsFor L candidate secrets) s.resolver
    generations := [candidate]
    secrets := secretsFor L candidate secrets } : Host).dropped retiring false

/-- The service has come up on `current` and what it found stored. -/
def loaded (s : Host) (L : KeyLibs) (current : IdentityGeneration)
    (stored : List IdentityGeneration) (secrets : ServerSecrets) : Host :=
  { s with
    generations := bootGenerations current stored
    secrets := (bootGenerations current stored).flatMap fun g => secretsFor L g secrets
    resolver := insertAll
      ((bootGenerations current stored).flatMap fun g => secretsFor L g secrets) ∅ }

/-- The current generation has been saved. -/
def saved (s : Host) (g : IdentityGeneration) : Host :=
  { s with records := s.records.insert g.id g, currentId := some g.id }

end Host

/-- The document has other keys, and the secret store the private half of its
key-agreement key: the reload takes the keys. -/
structure Adopts (L : KeyLibs) (s : Host) (current candidate : IdentityGeneration)
    (secrets : ServerSecrets) : Prop where
  persisted : s.currentId.isSome = true
  changed : current.keyChanged candidate = true
  secretStore : s.secretStore = some secrets
  matching : ∃ key, L.decode secrets.keyAgreementKey = .ok key ∧
    secretMatchesDocument L key candidate.kaPublicMultibase = true

/-- How a reload of a service on `current` can end well. -/
inductive Reloaded (L : KeyLibs) (endpoint : Endpoint) (doc : Option ResolvedIdentityDoc)
    (now graceSecs : ℕ) (s : Host) (current : IdentityGeneration) :
    ReloadOutcome → Host → Prop where
  | unresolvable : Reloaded L endpoint doc now graceSecs s current .unresolvable s
  | unchanged : Reloaded L endpoint doc now graceSecs s current .unchanged s
  | refused (reason : String) : Reloaded L endpoint doc now graceSecs s current (.refused reason) s
  | established {d : ResolvedIdentityDoc} {secrets : ServerSecrets} :
      doc = some d → s.currentId = none → s.secretStore = some secrets →
      Reloaded L endpoint doc now graceSecs s current (.established current.id)
        (s.established L (generationOf endpoint d current.id now) current secrets)
  | metadataUpdated {d : ResolvedIdentityDoc} :
      doc = some d → s.currentId.isSome = true →
      current.keyChanged (generationOf endpoint d (current.id + 1) now) = false →
      Reloaded L endpoint doc now graceSecs s current (.metadataUpdated current.id)
        (s.updated (generationOf endpoint d current.id now))
  | withoutOverlap {d : ResolvedIdentityDoc} {secrets : ServerSecrets} :
      doc = some d →
      Adopts L s current (generationOf endpoint d (current.id + 1) now) secrets →
      current.isSameKidRotation (generationOf endpoint d (current.id + 1) now) = true →
      Reloaded L endpoint doc now graceSecs s current
        (.rotatedWithoutOverlap (current.id + 1) d.kaKid)
        (s.established L (generationOf endpoint d (current.id + 1) now) current secrets)
  | rotated {d : ResolvedIdentityDoc} {secrets : ServerSecrets} {change : SecretsChange} :
      doc = some d →
      Adopts L s current (generationOf endpoint d (current.id + 1) now) secrets →
      current.isSameKidRotation (generationOf endpoint d (current.id + 1) now) = false →
      0 < graceSecs →
      change = (retiredKeysFor L s.secrets current).elim .same (.stash current.id) →
      Reloaded L endpoint doc now graceSecs s current
        (.rotated (current.id + 1) current.id (graceEnd now graceSecs))
        (s.rotatedWith L (retired current now graceSecs)
          (generationOf endpoint d (current.id + 1) now) secrets change)
  | atOnce {d : ResolvedIdentityDoc} {secrets : ServerSecrets} :
      doc = some d →
      Adopts L s current (generationOf endpoint d (current.id + 1) now) secrets →
      current.isSameKidRotation (generationOf endpoint d (current.id + 1) now) = false →
      graceSecs = 0 →
      Reloaded L endpoint doc now graceSecs s current
        (.rotated (current.id + 1) current.id (graceEnd now graceSecs))
        (s.rotatedAtOnce L (retired current now graceSecs)
          (generationOf endpoint d (current.id + 1) now) secrets)

/-- How a reload that fails can end: nothing has changed, or the secret store has been
written. -/
inductive ReloadFailed (L : KeyLibs) (endpoint : Endpoint) (doc : Option ResolvedIdentityDoc)
    (now graceSecs : ℕ) (s : Host) (current : IdentityGeneration) : Host → Prop where
  | same : ReloadFailed L endpoint doc now graceSecs s current s
  | rewritten {d : ResolvedIdentityDoc} {secrets : ServerSecrets} {change : SecretsChange} :
      doc = some d →
      Adopts L s current (generationOf endpoint d (current.id + 1) now) secrets →
      current.isSameKidRotation (generationOf endpoint d (current.id + 1) now) = false →
      (change = .same ∨ 0 < graceSecs ∧
        change = (retiredKeysFor L s.secrets current).elim .same (.stash current.id)) →
      ReloadFailed L endpoint doc now graceSecs s current (s.rewritten secrets change)

/-- What is left of a generation that expires.  Its key material is out of memory in any
case; the stores may not have been reached. -/
structure Expired (g : IdentityGeneration) (s t : Host) : Prop where
  currentId : t.currentId = s.currentId
  resolver : t.resolver = (s.dropped g true).resolver
  generations : t.generations = (s.dropped g true).generations
  secrets : t.secrets = (s.dropped g true).secrets
  records : t.records = s.records ∨ t.records = s.records.erase g.id
  secretStore : t.secretStore = s.secretStore ∨ ∃ secrets, s.secretStore = some secrets ∧
    t.secretStore = some ((SecretsChange.purge g.kaKid).apply secrets)

/-! ## Rules -/

section Rules

variable {ok : Option IdentityError → Prop} {E : IdentityError → Host → Prop} {s : Host}

theorem after_fallible {α : Type} {Q : α → Host → Prop} {o : IdentityAccess} {f : Host → α}
    (hfail : ∀ e, ok (some e) → E e s) (hok : Q (f s) (o.perform s)) :
    (fallible o f).After ok Q E s := by
  intro x hx
  cases x with
  | none => exact hok
  | some e => exact hfail e hx

theorem after_fallible_bind {α β : Type} {R : β → Host → Prop} {o : IdentityAccess}
    {f : Host → α} {k : α → IdentityM β} (hfail : ∀ e, ok (some e) → E e s)
    (hok : (k (f s)).After ok R E (o.perform s)) : (fallible o f >>= k).After ok R E s :=
  Atomic.after_bind (after_fallible hfail hok)

theorem after_act_bind {β : Type} {R : β → Host → Prop} {o : IdentityAccess}
    {k : Unit → IdentityM β} (h : (k ()).After ok R E (o.perform s)) :
    (act o >>= k).After ok R E s :=
  h

theorem after_insertSecrets {Q : Unit → Host → Prop} {new : List Secret}
    (h : Q () { s with resolver := insertAll new s.resolver }) :
    (insertSecrets new).After ok Q E s := by
  induction new generalizing s with
  | nil => exact h
  | cons secret rest ih =>
      apply after_act_bind
      exact ih h

theorem after_dropGenerationSecrets {Q : Unit → Host → Prop} {g : IdentityGeneration}
    {expired : Bool} (h : Q () (s.dropped g expired)) :
    (dropGenerationSecrets g expired).After ok Q E s :=
  h

theorem after_currentGeneration_bind {β : Type} {R : β → Host → Prop}
    {k : IdentityGeneration → IdentityM β} {current : IdentityGeneration}
    {rest : List IdentityGeneration} (hs : s.generations = current :: rest)
    (h : (k current).After ok R E s) : (currentGeneration >>= k).After ok R E s := by
  apply Atomic.after_bind
  simp only [currentGeneration, Atomic.After, hs]
  exact h

theorem after_establishGeneration {Q : Unit → Host → Prop} {L : KeyLibs}
    {g current : IdentityGeneration} {rest : List IdentityGeneration}
    (hs : s.generations = current :: rest) (hfail : ∀ e, E e s)
    (h : ∀ secrets, s.secretStore = some secrets → Q () (s.established L g current secrets)) :
    (establishGeneration L g).After ok Q E s := by
  apply after_fallible_bind (fun e _ => hfail e)
  cases hsecrets : s.secretStore with
  | none => exact hfail _
  | some secrets =>
      apply after_fallible_bind (fun e _ => hfail e)
      refine after_currentGeneration_bind hs ?_
      apply after_act_bind
      apply after_act_bind
      apply Atomic.after_bind
      apply after_insertSecrets
      exact h secrets hsecrets

end Rules

/-! ## Reload -/

section Reload

variable {ok : Option IdentityError → Prop} {L : KeyLibs} {endpoint : Endpoint}
  {doc : Option ResolvedIdentityDoc} {now graceSecs : ℕ} {s : Host}
  {current : IdentityGeneration} {rest : List IdentityGeneration}

theorem after_rotateTo {d : ResolvedIdentityDoc} {secrets : ServerSecrets} (hdoc : doc = some d)
    (hadopts : Adopts L s current (generationOf endpoint d (current.id + 1) now) secrets)
    (hfresh :
      current.isSameKidRotation (generationOf endpoint d (current.id + 1) now) = false) :
    (rotateTo L current (generationOf endpoint d (current.id + 1) now) secrets now
      graceSecs).After ok (Reloaded L endpoint doc now graceSecs s current)
      (fun _ => ReloadFailed L endpoint doc now graceSecs s current) s := by
  unfold rotateTo
  apply Atomic.after_bind
  by_cases hgrace : 0 < graceSecs
  · have hchange : ∀ change,
        change = (retiredKeysFor L s.secrets current).elim .same (.stash current.id) →
        (do
          fallible (.setSecrets secrets change) fun _ => ()
          fallible (.saveRotation (retired current now graceSecs)
            (generationOf endpoint d (current.id + 1) now)) fun _ => ()
          insertSecrets (secretsFor L (generationOf endpoint d (current.id + 1) now)
            (change.apply secrets))
          act (.rotateLive (generationOf endpoint d (current.id + 1) now)
            (retired current now graceSecs)
            (secretsFor L (generationOf endpoint d (current.id + 1) now)
              (change.apply secrets)) (decide (0 < graceSecs)))
          dropIfImmediate (retired current now graceSecs) graceSecs
          return ReloadOutcome.rotated (current.id + 1) current.id (graceEnd now graceSecs) :
            IdentityM ReloadOutcome).After ok
          (Reloaded L endpoint doc now graceSecs s current)
          (fun _ => ReloadFailed L endpoint doc now graceSecs s current) s := by
      intro change hchange
      apply after_fallible_bind (fun _ _ => ReloadFailed.same)
      apply after_fallible_bind
        (fun _ _ => ReloadFailed.rewritten hdoc hadopts hfresh (Or.inr ⟨hgrace, hchange⟩))
      apply Atomic.after_bind
      apply after_insertSecrets
      apply after_act_bind
      unfold dropIfImmediate
      rw [if_neg (Nat.pos_iff_ne_zero.mp hgrace), decide_eq_true hgrace]
      exact Reloaded.rotated hdoc hadopts hfresh hgrace hchange
    unfold stashChange
    rw [if_pos hgrace]
    apply Atomic.after_call_bind
    have hretired : retiredKeysFor L s.secrets (retired current now graceSecs) =
        retiredKeysFor L s.secrets current := rfl
    rw [hretired]
    cases hkeys : retiredKeysFor L s.secrets current with
    | none => exact hchange .same (by rw [hkeys]; rfl)
    | some keys => exact hchange (.stash current.id keys) (by rw [hkeys]; rfl)
  · have hzero : graceSecs = 0 := Nat.eq_zero_of_not_pos hgrace
    unfold stashChange
    rw [if_neg hgrace]
    apply after_fallible_bind (fun _ _ => ReloadFailed.same)
    apply after_fallible_bind
      (fun _ _ => ReloadFailed.rewritten hdoc hadopts hfresh (Or.inl rfl))
    apply Atomic.after_bind
    apply after_insertSecrets
    apply after_act_bind
    unfold dropIfImmediate
    rw [if_pos hzero, decide_eq_false hgrace]
    apply Atomic.after_bind
    apply after_dropGenerationSecrets
    exact Reloaded.atOnce hdoc hadopts hfresh hzero

theorem after_reloadKeys {d : ResolvedIdentityDoc} (hdoc : doc = some d)
    (hs : s.generations = current :: rest) (hpersisted : s.currentId.isSome = true)
    (hchanged : current.keyChanged (generationOf endpoint d (current.id + 1) now) = true) :
    (reloadKeys L current (generationOf endpoint d (current.id + 1) now) now graceSecs).After ok
      (Reloaded L endpoint doc now graceSecs s current)
      (fun _ => ReloadFailed L endpoint doc now graceSecs s current) s := by
  unfold reloadKeys
  apply after_fallible_bind (fun _ _ => ReloadFailed.same)
  cases hsecrets : s.secretStore with
  | none => exact Reloaded.refused _
  | some secrets =>
      dsimp only
      cases hkey : L.decode secrets.keyAgreementKey with
      | error e => exact ReloadFailed.same
      | ok key =>
          dsimp only
          by_cases hmatches : secretMatchesDocument L key
              (generationOf endpoint d (current.id + 1) now).kaPublicMultibase = true
          · have hadopts :
                Adopts L s current (generationOf endpoint d (current.id + 1) now) secrets :=
              ⟨hpersisted, hchanged, hsecrets, key, hkey, hmatches⟩
            rw [if_pos hmatches]
            cases hsame : current.isSameKidRotation
                (generationOf endpoint d (current.id + 1) now) with
            | true =>
                rw [if_pos rfl]
                apply Atomic.after_bind
                refine after_establishGeneration hs (fun _ => ReloadFailed.same) ?_
                intro secrets' hsecrets'
                have heq : secrets' = secrets :=
                  Option.some.inj (hsecrets'.symm.trans hsecrets)
                rw [heq]
                exact Reloaded.withoutOverlap hdoc hadopts hsame
            | false =>
                rw [if_neg Bool.false_ne_true]
                exact after_rotateTo hdoc hadopts hsame
          · rw [if_neg hmatches]
            exact Reloaded.refused _

theorem after_reloadServiceIdentity (hs : s.generations = current :: rest) :
    (reloadServiceIdentity L endpoint doc now graceSecs).After ok
      (Reloaded L endpoint doc now graceSecs s current)
      (fun _ => ReloadFailed L endpoint doc now graceSecs s current) s := by
  unfold reloadServiceIdentity
  apply Atomic.after_locked
  cases doc with
  | none => exact Reloaded.unresolvable
  | some d =>
      refine after_currentGeneration_bind hs ?_
      apply after_fallible_bind (fun _ _ => ReloadFailed.same)
      cases hpersisted : s.currentId with
      | none =>
          apply Atomic.after_bind
          refine after_establishGeneration hs (fun _ => ReloadFailed.same) ?_
          intro secrets hsecrets
          exact Reloaded.established rfl hpersisted hsecrets
      | some id =>
          have hsome : s.currentId.isSome = true := by
            rw [hpersisted]
            rfl
          change Atomic.After ok _ _ (if (!current.differsFrom
              (generationOf endpoint d (current.id + 1) now)) = true then _ else _) s
          by_cases hdiffers : (!current.differsFrom
              (generationOf endpoint d (current.id + 1) now)) = true
          · rw [if_pos hdiffers]
            exact Reloaded.unchanged
          · rw [if_neg hdiffers]
            change Atomic.After ok _ _ (if (!current.keyChanged
              (generationOf endpoint d (current.id + 1) now)) = true then _ else _) s
            cases hchanged :
                current.keyChanged (generationOf endpoint d (current.id + 1) now) with
            | false =>
                rw [Bool.not_false, if_pos rfl]
                apply Atomic.after_bind
                apply after_fallible_bind (fun _ _ => ReloadFailed.same)
                exact Reloaded.metadataUpdated rfl hsome hchanged
            | true =>
                rw [Bool.not_true, if_neg Bool.false_ne_true]
                exact after_reloadKeys rfl hs hsome hchanged

end Reload

/-! ## Expiry -/

section Expiry

variable {ok : Option IdentityError → Prop} {s : Host} {I : Host → Prop}

theorem after_expireGeneration (g : IdentityGeneration) :
    (expireGeneration g).After ok (fun _ => Expired g s) (fun _ => Expired g s) s := by
  have hdropped : Expired g s (s.dropped g true) :=
    ⟨rfl, rfl, rfl, rfl, Or.inl rfl, Or.inl rfl⟩
  apply Atomic.after_bind
  apply after_dropGenerationSecrets
  apply Atomic.after_bind
  apply after_fallible_bind (fun _ _ => hdropped)
  have hstore : (s.dropped g true).secretStore = s.secretStore := rfl
  rw [hstore]
  cases hsecrets : s.secretStore with
  | none =>
      exact after_fallible (fun _ _ => hdropped) ⟨rfl, rfl, rfl, rfl, Or.inr rfl, Or.inl rfl⟩
  | some secrets =>
      change Atomic.After ok _ _
        (if (secrets.retired.any (·.kaKid == g.kaKid)) = true then _ else _) _
      by_cases hany : (secrets.retired.any (·.kaKid == g.kaKid)) = true
      · rw [if_pos hany]
        apply after_fallible (fun _ _ => hdropped)
        apply after_fallible
        · intro e _
          exact ⟨rfl, rfl, rfl, rfl, Or.inl rfl, Or.inr ⟨secrets, hsecrets, rfl⟩⟩
        · exact ⟨rfl, rfl, rfl, rfl, Or.inr rfl, Or.inr ⟨secrets, hsecrets, rfl⟩⟩
      · rw [if_neg hany]
        exact after_fallible (fun _ _ => hdropped)
          ⟨rfl, rfl, rfl, rfl, Or.inr rfl, Or.inl rfl⟩

/-- What every expiry of the list keeps holds after the loop. -/
theorem after_expireEach {gs : List IdentityGeneration}
    (hstep : ∀ g ∈ gs, ∀ s t, I s → Expired g s t → I t) (h : I s) (reaped : ℕ) :
    (expireEach reaped gs).After ok (fun _ => I) (fun _ => I) s := by
  induction gs generalizing s reaped with
  | nil => exact h
  | cons g rest ih =>
      have hrest := fun g' hg' => hstep g' (List.mem_cons_of_mem g hg')
      have hnow : ∀ t, Expired g s t → I t := fun t => hstep g List.mem_cons_self s t h
      apply Atomic.after_bind
      apply Atomic.after_attempt
      refine (after_expireGeneration g).mono ?_ ?_
      · intro _ t ht
        exact ih hrest (hnow t ht) (reaped + 1)
      · intro _ t ht
        exact ih hrest (hnow t ht) reaped

/-- The generations a sweep at `now` expires. -/
def expiring (s : Host) (now : ℕ) : List IdentityGeneration :=
  toExpire s.generations (doomedIds s.generations
    ((loadGenerations s.currentId s.records now).map (·.id)) now)

theorem after_runSweepOnce {now : ℕ}
    (hstep : ∀ g ∈ expiring s now, ∀ s t, I s → Expired g s t → I t) (h : I s) :
    (runSweepOnce now).After ok (fun _ => I) (fun _ => I) s := by
  unfold runSweepOnce
  apply Atomic.after_call_bind
  apply Atomic.after_bind
  apply Atomic.after_attempt
  apply after_fallible
  · intro e _
    exact h
  · exact after_expireEach hstep h 0

/-- The kill switch expires the generation, or leaves everything. -/
theorem after_retireGenerationNow {generationId : ℕ} (h : I s)
    (hstep : ∀ g, s.generations.find? (·.id == generationId) = some g →
      g.retiredAt.isNone = false → ∀ t, Expired g s t → I t) :
    (retireGenerationNow generationId).After ok (fun _ => I) (fun _ => I) s := by
  unfold retireGenerationNow
  apply Atomic.after_locked
  apply Atomic.after_call_bind
  cases hfind : s.generations.find? (·.id == generationId) with
  | none => exact h
  | some g =>
      dsimp only
      cases hretired : g.retiredAt.isNone with
      | true =>
          rw [if_pos rfl]
          exact h
      | false =>
          rw [if_neg Bool.false_ne_true]
          refine (after_expireGeneration g).mono ?_ ?_
          · intro _ t ht
            exact hstep g hfind hretired t ht
          · intro _ t ht
            exact hstep g hfind hretired t ht

end Expiry

/-! ## Loading -/

section Loading

variable {ok : Option IdentityError → Prop} {L : KeyLibs} {endpoint : Endpoint}
  {doc : Option ResolvedIdentityDoc} {now : ℕ} {s : Host}

/-- How a service comes up: on the rows it read, or as if there were none; with its current
generation saved, unless that failed. -/
inductive Loaded (ok : Option IdentityError → Prop) (L : KeyLibs) (endpoint : Endpoint)
    (doc : Option ResolvedIdentityDoc) (now : ℕ) (s : Host) : Host → Prop where
  | up {secrets : ServerSecrets} {stored : List IdentityGeneration} {start : Host} :
      s.secretStore = some secrets →
      (stored = loadGenerations s.currentId s.records now ∨
        stored = [] ∧ ∃ e, ok (some e)) →
      (start = s ∧ ((bootGeneration endpoint doc stored now).2 = false ∨ ∃ e, ok (some e)) ∨
        start = s.saved (bootGeneration endpoint doc stored now).1 ∧
          (bootGeneration endpoint doc stored now).2 = true) →
      Loaded ok L endpoint doc now s
        (start.loaded L (bootGeneration endpoint doc stored now).1 stored secrets)

theorem after_saveBoot {Q : Unit → Host → Prop} {E : IdentityError → Host → Prop}
    {g : IdentityGeneration} {persist : Bool}
    (hsame : (persist = false ∨ ∃ e, ok (some e)) → Q () s)
    (hsaved : persist = true → Q () (s.saved g)) : (saveBoot g persist).After ok Q E s := by
  unfold saveBoot
  cases persist with
  | false =>
      rw [if_neg Bool.false_ne_true]
      exact hsame (Or.inl rfl)
  | true =>
      rw [if_pos rfl]
      apply Atomic.after_bind
      apply Atomic.after_attempt
      apply after_fallible
      · intro e he
        exact hsame (Or.inr ⟨e, he⟩)
      · exact hsaved rfl

/-- The ends of a start of a service with secrets. -/
theorem after_loadIdentity {E : IdentityError → Host → Prop} {secrets : ServerSecrets}
    (hsecrets : s.secretStore = some secrets) :
    (loadIdentity L endpoint doc now).After ok (fun _ => Loaded ok L endpoint doc now s) E s := by
  have hup : ∀ stored, (stored = loadGenerations s.currentId s.records now ∨
      stored = [] ∧ ∃ e, ok (some e)) →
      (do
        saveBoot (bootGeneration endpoint doc stored now).1
          (bootGeneration endpoint doc stored now).2
        act (.install (bootGenerations (bootGeneration endpoint doc stored now).1 stored)
          ((bootGenerations (bootGeneration endpoint doc stored now).1 stored).flatMap
            fun g => secretsFor L g secrets)) : IdentityM Unit).After ok
        (fun _ => Loaded ok L endpoint doc now s) E s := by
    intro stored hstored
    apply Atomic.after_bind
    apply after_saveBoot
    · intro hwhy
      exact Loaded.up hsecrets hstored (Or.inl ⟨rfl, hwhy⟩)
    · intro hpersist
      exact Loaded.up hsecrets hstored (Or.inr ⟨rfl, hpersist⟩)
  unfold loadIdentity
  apply Atomic.after_call_bind
  rw [hsecrets]
  apply Atomic.after_bind
  apply Atomic.after_attempt
  apply after_fallible
  · intro e he
    exact hup [] (Or.inr ⟨rfl, e, he⟩)
  · exact hup _ (Or.inl rfl)

/-- The service has come up on the rows `stored`. -/
def CameUp (L : KeyLibs) (endpoint : Endpoint) (doc : Option ResolvedIdentityDoc) (now : ℕ)
    (s : Host) (stored : List IdentityGeneration) (secrets : ServerSecrets) (t : Host) : Prop :=
  ∃ start, (start = s ∨ start = s.saved (bootGeneration endpoint doc stored now).1 ∧
      (bootGeneration endpoint doc stored now).2 = true) ∧
    t = start.loaded L (bootGeneration endpoint doc stored now).1 stored secrets

theorem alone_attempt_bind {α β : Type} {o : IdentityAccess} {f : Host → α}
    {k : Except IdentityError α → IdentityM β} {xs : ℕ → Option IdentityError}
    (hok : xs 0 = none) :
    ((fallible o f).attempt >>= k).alone xs s =
      (k (.ok (f s))).alone (fun n => xs (n + 1)) (o.perform s) := by
  simp only [fallible, bind, Atomic.bind, Atomic.draw, Atomic.call, Atomic.attempt, Atomic.alone,
    id, hok]
  rfl

/-- A start whose read of the rows does not fail comes up on the rows. -/
theorem loadIdentity_alone {secrets : ServerSecrets} {xs : ℕ → Option IdentityError}
    (hsecrets : s.secretStore = some secrets) (hread : xs 0 = none) :
    CameUp L endpoint doc now s (loadGenerations s.currentId s.records now) secrets
      ((loadIdentity L endpoint doc now).effect xs s) := by
  have hrest : (do
      saveBoot (bootGeneration endpoint doc (loadGenerations s.currentId s.records now) now).1
        (bootGeneration endpoint doc (loadGenerations s.currentId s.records now) now).2
      act (.install (bootGenerations
        (bootGeneration endpoint doc (loadGenerations s.currentId s.records now) now).1
          (loadGenerations s.currentId s.records now))
        ((bootGenerations
          (bootGeneration endpoint doc (loadGenerations s.currentId s.records now) now).1
            (loadGenerations s.currentId s.records now)).flatMap
              fun g => secretsFor L g secrets)) : IdentityM Unit).After (fun _ => True)
      (fun _ => CameUp L endpoint doc now s (loadGenerations s.currentId s.records now) secrets)
      (fun _ => CameUp L endpoint doc now s (loadGenerations s.currentId s.records now) secrets)
      s := by
    apply Atomic.after_bind
    apply after_saveBoot
    · intro _
      exact ⟨s, Or.inl rfl, rfl⟩
    · intro hpersist
      exact ⟨_, Or.inr ⟨rfl, hpersist⟩, rfl⟩
  rw [Atomic.effect, loadIdentity, Atomic.alone_call_bind, hsecrets]
  change CameUp L endpoint doc now s _ secrets (Atomic.alone (_ >>= _) xs s).2
  rw [alone_attempt_bind hread]
  exact hrest.effect fun _ => trivial

/-- Without secrets the service does not come up. -/
theorem after_loadIdentity_none {Q : Unit → Host → Prop} (hsecrets : s.secretStore = none) :
    (loadIdentity L endpoint doc now).After ok Q (fun _ t => t = s) s := by
  unfold loadIdentity
  apply Atomic.after_call_bind
  rw [hsecrets]
  exact rfl

end Loading

end Identity

end DidHosting
