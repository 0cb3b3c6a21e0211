import DidHosting.Control.Effects
import DidHosting.Control.Reference

/-!
# The agent-name index

A name lives twice: in the record of the slot that holds it and in the index
row of its domain.  The operations that change the registry of a slot write
both; a delete and a force-create drop the record only, and a slot whose DID
moves to another host takes its registry along but not its rows.  Apart from
these the two agree.
-/

namespace DidHosting

open Text

/-! ## Rows of one slot -/

/-- The rows that point at slot `m` are those of `names` on `domain`. -/
def Owns (index : Table (String × String) String) (m domain : String)
    (names : List AgentNameEntry) : Prop :=
  ∀ d n, index.lookup (d, n) = some m ↔ d = domain ∧ n ∈ names.map (·.name)

/-- The rows that point at other slots are the same in both indexes. -/
def SameElsewhere (index index' : Table (String × String) String) (m : String) : Prop :=
  ∀ d n m', m' ≠ m → (index'.lookup (d, n) = some m' ↔ index.lookup (d, n) = some m')

theorem SameElsewhere.refl (index : Table (String × String) String) (m : String) :
    SameElsewhere index index m :=
  fun _ _ _ _ => Iff.rfl

theorem lookup_reindex (changes : NameChanges) (domain m d n : String)
    (index : Table (String × String) String) :
    (reindex changes domain m index).lookup (d, n) =
      if d = domain ∧ n ∈ changes.released then none
      else if d = domain ∧ n ∈ changes.claimed then some m
      else index.lookup (d, n) := by
  have hmem : ∀ names : List String,
      (d, n) ∈ names.map (fun n => (domain, n)) ↔ d = domain ∧ n ∈ names := by
    intro names
    simp only [List.mem_map, Prod.mk.injEq]
    constructor
    · rintro ⟨x, hx, rfl, rfl⟩
      exact ⟨rfl, hx⟩
    · rintro ⟨rfl, hn⟩
      exact ⟨n, hn, rfl, rfl⟩
  unfold reindex
  rw [Table.lookup_eraseAll, Table.lookup_insertAll]
  simp only [hmem]

section Rows

variable {index : Table (String × String) String} {m domain : String}
  {names : List AgentNameEntry}

/-- After a reconciliation the rows of the slot are those of its new registry,
and no row of another slot has changed. -/
theorem Owns.reindex {changes : NameChanges} (now : ℕ) (hown : Owns index m domain names)
    (hnodup : (names.map (·.name)).Nodup)
    (hclaimed : ∀ n ∈ changes.claimed,
      index.lookup (domain, n) = none ∨ index.lookup (domain, n) = some m)
    (hreleased : changes.released ⊆ droppedNames names changes.claimed)
    (hdropped : ∀ n ∈ droppedNames names changes.claimed, n ∉ changes.released →
      index.lookup (domain, n) ≠ some m) :
    Owns (reindex changes domain m index) m domain
        (reconciledNames names changes.claimed now) ∧
      SameElsewhere index (DidHosting.reindex changes domain m index) m := by
  have hone : ∀ e ∈ names, ∀ e' ∈ names, e.name = e'.name → e = e' :=
    fun e he e' he' heq => List.inj_on_of_nodup_map hnodup he he' heq
  constructor
  · intro d n
    rw [lookup_reindex, mem_reconciledNames]
    by_cases hd : d = domain
    · subst hd
      simp only [true_and]
      by_cases hrel : n ∈ changes.released
      · -- a released name was enabled and is not claimed any more
        obtain ⟨e, he, hen, hon, hnot⟩ := mem_droppedNames.mp (hreleased hrel)
        rw [if_pos hrel]
        constructor
        · intro h
          contradiction
        · rintro (hc | ⟨e', he', hen', hoff, -⟩)
          · exact absurd hc hnot
          · have := hone e he e' he' (hen.trans hen'.symm)
            subst this
            rw [hon] at hoff
            contradiction
      · rw [if_neg hrel]
        by_cases hc : n ∈ changes.claimed
        · simp [hc]
        · rw [if_neg hc, hown d n]
          simp only [hc, false_or, not_false_eq_true, and_true, true_and, List.mem_map]
          constructor
          · rintro ⟨e, he, rfl⟩
            refine ⟨e, he, rfl, ?_⟩
            by_contra hon
            have hdrop : e.name ∈ droppedNames names changes.claimed :=
              mem_droppedNames.mpr ⟨e, he, rfl, by simpa using hon, hc⟩
            exact hdropped _ hdrop hrel
              ((hown d e.name).mpr ⟨rfl, List.mem_map_of_mem he⟩)
          · rintro ⟨e, he, rfl, -⟩
            exact ⟨e, he, rfl⟩
    · simp only [hd, false_and, if_false]
      rw [hown d n]
      simp [hd]
  · intro d n m' hne
    rw [lookup_reindex]
    by_cases hd : d = domain
    · subst hd
      simp only [true_and]
      split
      · rename_i hrel
        obtain ⟨e, he, rfl, -, -⟩ := mem_droppedNames.mp (hreleased hrel)
        rw [(hown d e.name).mpr ⟨rfl, List.mem_map_of_mem he⟩]
        simp [Ne.symm hne]
      · split
        · rename_i hc
          rcases hclaimed n hc with h | h <;> simp [h, Ne.symm hne]
        · exact Iff.rfl
    · simp [hd]

theorem map_name_setEnabled (name : String) (b : Bool) (names : List AgentNameEntry) :
    (setEnabled name b names).map (·.name) = names.map (·.name) := by
  induction names with
  | nil => rfl
  | cons e names ih =>
      unfold setEnabled
      split
      · rfl
      · rw [List.map_cons, List.map_cons, ih]

theorem map_name_upsert (names : List AgentNameEntry) (name : String) (now : ℕ) :
    (upsertAgentName names name now).map (·.name) =
      if name ∈ names.map (·.name) then names.map (·.name)
      else names.map (·.name) ++ [name] := by
  have hany : (names.any fun e => decide (e.name = name)) = true ↔
      name ∈ names.map (·.name) := by
    simp
  unfold upsertAgentName
  by_cases h : name ∈ names.map (·.name)
  · rw [if_pos (hany.mpr h), if_pos h, map_name_setEnabled]
  · rw [if_neg (fun h' => h (hany.mp h')), if_neg h, List.map_append]
    rfl

theorem nodup_upsert (hnodup : (names.map (·.name)).Nodup) (name : String) (now : ℕ) :
    ((upsertAgentName names name now).map (·.name)).Nodup := by
  rw [map_name_upsert]
  split
  · exact hnodup
  · rename_i hnot
    rw [List.nodup_append]
    refine ⟨hnodup, List.pairwise_singleton _ _, ?_⟩
    intro a ha b hb hab
    rw [List.mem_singleton.mp hb] at hab
    exact hnot (hab ▸ ha)

theorem Owns.insertName {index : Table (String × String) String} (hown : Owns index m domain names)
    (name : String) (now : ℕ) :
    Owns (index.insert (domain, name) m) m domain (upsertAgentName names name now) := by
  intro d n
  rw [Table.lookup_insert_ite, map_name_upsert]
  by_cases hdn : (d, n) = (domain, name)
  · obtain ⟨rfl, rfl⟩ := Prod.mk.inj hdn
    rw [if_pos rfl]
    split <;> simp_all
  · rw [if_neg hdn, hown d n]
    have hne : ¬ (d = domain ∧ n = name) := fun h => hdn (by rw [h.1, h.2])
    split
    · exact Iff.rfl
    · simp only [List.mem_append, List.mem_singleton]
      constructor
      · rintro ⟨hd, hn⟩
        exact ⟨hd, Or.inl hn⟩
      · rintro ⟨hd, hn | hn⟩
        · exact ⟨hd, hn⟩
        · exact absurd ⟨hd, hn⟩ hne

theorem SameElsewhere.insertName {index : Table (String × String) String} {name : String}
    (hholder : index.lookup (domain, name) = none ∨ index.lookup (domain, name) = some m) :
    SameElsewhere index (index.insert (domain, name) m) m := by
  intro d n m' hne
  rw [Table.lookup_insert_ite]
  split
  · rename_i hdn
    obtain ⟨rfl, rfl⟩ := Prod.mk.inj hdn
    rcases hholder with hr | hr <;> simp [hr, Ne.symm hne]
  · exact Iff.rfl

theorem Owns.removeName {index : Table (String × String) String} (hown : Owns index m domain names)
    (name : String) :
    Owns (index.erase (domain, name)) m domain (names.filter fun e => e.name ≠ name) := by
  intro d n
  rw [Table.lookup_erase_ite]
  by_cases hdn : (d, n) = (domain, name)
  · obtain ⟨rfl, rfl⟩ := Prod.mk.inj hdn
    rw [if_pos rfl]
    simp
  · rw [if_neg hdn, hown d n]
    constructor
    · rintro ⟨hd, hn⟩
      obtain ⟨e, he, rfl⟩ := List.mem_map.mp hn
      refine ⟨hd, List.mem_map.mpr ⟨e, List.mem_filter.mpr ⟨he, ?_⟩, rfl⟩⟩
      simp only [ne_eq, decide_eq_true_eq]
      exact fun hen => hdn (by rw [hd, hen])
    · rintro ⟨hd, hn⟩
      obtain ⟨e, he, rfl⟩ := List.mem_map.mp hn
      exact ⟨hd, List.mem_map_of_mem (List.mem_of_mem_filter he)⟩

theorem SameElsewhere.removeName {index : Table (String × String) String} {name : String}
    (hheld : index.lookup (domain, name) = some m) :
    SameElsewhere index (index.erase (domain, name)) m := by
  intro d n m' hne
  rw [Table.lookup_erase_ite]
  split
  · rename_i hdn
    obtain ⟨rfl, rfl⟩ := Prod.mk.inj hdn
    rw [hheld]
    simp [Ne.symm hne]
  · exact Iff.rfl

theorem nodup_agentNameEffect {op : AgentNameOp} {names : List AgentNameEntry}
    {m domain name : String} {now : ℕ} {holder : Option String}
    {effect : List AgentNameEntry × Batch} (hnodup : (names.map (·.name)).Nodup)
    (h : DidHosting.agentNameEffect op names m domain name now holder = .ok effect) :
    (effect.1.map (·.name)).Nodup := by
  rcases agentNameEffect_cases h with ⟨-, -, rfl⟩ | ⟨-, rfl⟩ | ⟨-, -, rfl⟩
  · exact nodup_upsert hnodup name now
  · rw [map_name_setEnabled name false names]
    exact hnodup
  · exact hnodup.sublist (List.filter_sublist.map _)

/-- After an agent-name operation the rows of the slot are those of its new
registry, and no row of another slot has changed. -/
theorem Owns.agentNameEffect {op : AgentNameOp} {name : String} {now : ℕ}
    {holder : Option String} {effect : List AgentNameEntry × Batch} {ks : DidsKs}
    (hown : Owns ks.agentName m domain names) (hnodup : (names.map (·.name)).Nodup)
    (hholder : op = .activate → ks.agentName.lookup (domain, name) = none ∨
      ks.agentName.lookup (domain, name) = some m)
    (h : agentNameEffect op names m domain name now holder = .ok effect) :
    Owns (DidsKs.commit effect.2 ks).agentName m domain effect.1 ∧
      SameElsewhere ks.agentName (DidsKs.commit effect.2 ks).agentName m ∧
      (effect.1.map (·.name)).Nodup := by
  refine and_assoc.mp ⟨?_, nodup_agentNameEffect hnodup h⟩
  rcases agentNameEffect_cases h with ⟨hop, -, rfl⟩ | ⟨-, rfl⟩ | ⟨-, hany, rfl⟩
  · exact ⟨hown.insertName name now, SameElsewhere.insertName (hholder hop)⟩
  · refine ⟨?_, SameElsewhere.refl _ _⟩
    intro d n
    rw [map_name_setEnabled name false names]
    exact hown d n
  · have hheld : ks.agentName.lookup (domain, name) = some m := by
      rw [hown]
      simpa using hany
    exact ⟨hown.removeName name, SameElsewhere.removeName hheld⟩

end Rows

/-! ## The condition -/

/-- A version with identifier `didId` leaves the slot's names on their domain:
the slot has none, or its domain is tagged, or the host stays the same. -/
def KeepsHost (L : Libs) (r : DidRecord) (didId : Option String) : Prop :=
  r.agentNames = [] ∨ r.domain ≠ "" ∨ hostOfDidId L didId = hostOfDidId L r.didId

/-- A new version of slot `m` that verifies leaves its names on their domain. -/
def RepublishKeepsHost (A : AppState) (s : ControlStore) (auth : AuthClaims)
    (m didLog : String) : Prop :=
  ∀ r p, s.record m = some r → authorized auth r = true →
    verifyPublication A.libs r.domain m didLog (s.log m) (s.witness m) = .ok p →
      KeepsHost A.libs r p.didId

/-- The event deletes or force-creates no slot that has names, and moves none
that has names to another host. -/
def KeepsIndex (A : AppState) (s : ControlStore) : Event → Prop
  | .serve (.create auth _ (some m) true _ _) =>
      ∀ r, s.record m = some r → authorized auth r = true → r.agentNames = []
  | .serve (.delete auth m requestDomain) =>
      ∀ r, s.record m = some r → authorized auth r = true →
        ensureSlotDomainMatches A.libs r requestDomain = .ok () → r.agentNames = []
  | .serve (.register _ _ path didLog _ domain) =>
      ∀ r p did, s.record path = some r →
        verifyPublication A.libs (domain.getD "") path didLog (s.log path)
          (s.witness path) = .ok p → p.didId = some did →
        r.agentNames = [] ∨ slotDomain A.libs r = didHostOrEmpty A.libs did
  | .serve (.publish auth _ m didLog _) => RepublishKeepsHost A s auth m didLog
  | .serve (.agentName auth _ m _ didLog _ _) => RepublishKeepsHost A s auth m didLog
  | .serve (.rollback auth _ m targetVersion) =>
      ∀ r c keep, s.record m = some r → authorized auth r = true → s.log m = some c →
        rollbackKeep (entryCount c) targetVersion = .ok keep →
          KeepsHost A.libs r (extractDidId A.libs (truncateLog c keep))
  | _ => True

/-! ## The invariant -/

/-- The rows that point at slot `m` agree with its record. -/
def SlotNames (L : Libs) (index : Table (String × String) String) (m : String) :
    Option DidRecord → Prop
  | some r =>
      Owns index m (slotDomain L r) r.agentNames ∧ (r.agentNames.map (·.name)).Nodup
  | none => ∀ d n, index.lookup (d, n) ≠ some m

/-- The index agrees with the records. -/
def NameInv (L : Libs) (s : ControlStore) : Prop :=
  ∀ m, SlotNames L s.ks.agentName m (s.record m)

section

variable {L : Libs} {index index' : Table (String × String) String} {m : String}

theorem Owns.relocate {d d' : String} {names : List AgentNameEntry}
    (h : Owns index m d names) (hd : names = [] ∨ d = d') : Owns index m d' names := by
  rcases hd with rfl | rfl
  · intro x n
    rw [h x n]
    simp
  · exact h

/-- A slot without a record has the rows of an empty registry. -/
theorem SlotNames.owns {record : Option DidRecord} {d : String}
    (h : SlotNames L index m record)
    (hd : ∀ r, record = some r → r.agentNames = [] ∨ slotDomain L r = d) :
    Owns index m d (existingNames record) ∧ ((existingNames record).map (·.name)).Nodup := by
  cases record with
  | none =>
      refine ⟨?_, List.nodup_nil⟩
      intro x n
      simpa [existingNames] using h x n
  | some r => exact ⟨h.1.relocate (hd r rfl), h.2⟩

/-- The invariant after the rows and the record of one slot have changed. -/
theorem NameInv.write {s t : ControlStore} {r : DidRecord} (hinv : NameInv L s)
    (hdids : t.ks.dids = s.ks.dids.insert m r)
    (hown : Owns t.ks.agentName m (slotDomain L r) r.agentNames)
    (hnodup : (r.agentNames.map (·.name)).Nodup)
    (helse : SameElsewhere s.ks.agentName t.ks.agentName m) : NameInv L t := by
  intro m'
  have hrecord : t.record m' = if m' = m then some r else s.record m' :=
    (congrArg (AList.lookup m') hdids).trans (Table.lookup_insert_ite ..)
  rw [hrecord]
  by_cases hm : m' = m
  · subst hm
    rw [if_pos rfl]
    exact ⟨hown, hnodup⟩
  · rw [if_neg hm]
    have hold := hinv m'
    cases hr : s.record m' with
    | none =>
        rw [hr] at hold
        intro d n
        rw [Ne, helse d n m' hm]
        exact hold d n
    | some r' =>
        rw [hr] at hold
        refine ⟨?_, hold.2⟩
        intro d n
        rw [helse d n m' hm]
        exact hold.1 d n

end

/-! ## Steps -/

section

variable {A : AppState} {s : ControlStore}

theorem slotDomain_republished (L : Libs) (r : DidRecord) (p : Publication) (didLog : String)
    (now : ℕ) :
    slotDomain L (republished L r p didLog now) =
      if r.domain ≠ "" then r.domain else hostOfDidId L p.didId := by
  by_cases h : r.domain = ""
  · simp [slotDomain, republished, h]
  · simp [slotDomain, republished, h]

theorem slotDomain_registerRecord (A : AppState) (auth : AuthClaims) (path didLog : String)
    (p : Publication) (did : String) (existing : Option DidRecord) (ownerChanged : Bool)
    (names : List AgentNameEntry) (now : ℕ) :
    slotDomain A.libs (registerRecord A auth path didLog p did existing ownerChanged names
      now) = didHostOrEmpty A.libs did := by
  have hhost : hostOfDidId A.libs (some did) = didHostOrEmpty A.libs did := rfl
  unfold slotDomain registerRecord
  by_cases hw : p.method = .webs
  · simp only [hw, if_true, hhost, ite_self]
  · simp only [hw, if_false, ne_eq, not_true_eq_false, hhost]

theorem KeepsHost.domain_eq {L : Libs} {r : DidRecord} {didId : Option String}
    (h : KeepsHost L r didId) :
    r.agentNames = [] ∨
      slotDomain L r = if r.domain ≠ "" then r.domain else hostOfDidId L didId := by
  rcases h with h | h | h
  · exact Or.inl h
  · right
    rw [slotDomain, if_pos h, if_pos h]
  · right
    rw [slotDomain, h]

/-- The rows of a slot, seen on the domain of a new version. -/
theorem NameInv.owns_republished {auth : AuthClaims} {m didLog : String} {r : DidRecord}
    {p : Publication} (now : ℕ) (hinv : NameInv A.libs s)
    (hrep : Republishes A {s} auth m didLog r p)
    (hok : RepublishKeepsHost A s auth m didLog) :
    Owns s.ks.agentName m (slotDomain A.libs (republished A.libs r p didLog now))
        r.agentNames ∧
      (r.agentNames.map (·.name)).Nodup := by
  have hread := read_singleton hrep.record_read
  have hslot := hinv m
  rw [hread] at hslot
  refine ⟨hslot.1.relocate ?_, hslot.2⟩
  rw [slotDomain_republished]
  exact (hok r p hread hrep.allowed hrep.verified_at).domain_eq

/-- The rows after the reconciliation of a publish, and what the new registry
looks like. -/
theorem Owns.reconciled {m domain : String} {claims : List String}
    {names next : List AgentNameEntry} {changes : NameChanges} {now : ℕ}
    (howns : Owns s.ks.agentName m domain names) (hnodup : (names.map (·.name)).Nodup)
    (hclaims : claims.Nodup)
    (hrec : Reconciled {s} names m claims domain now next changes) :
    Owns (DidHosting.reindex changes domain m s.ks.agentName) m domain next ∧
      SameElsewhere s.ks.agentName (DidHosting.reindex changes domain m s.ks.agentName) m ∧
      (next.map (·.name)).Nodup := by
  have hfree : ∀ n ∈ changes.claimed, s.ks.agentName.lookup (domain, n) = none ∨
      s.ks.agentName.lookup (domain, n) = some m :=
    fun n hn => read_singleton (hrec.claimed_free n hn)
  have hkept : ∀ n ∈ droppedNames names changes.claimed, n ∉ changes.released →
      s.ks.agentName.lookup (domain, n) ≠ some m :=
    fun n hn hnot => read_singleton (hrec.kept_elsewhere n hn hnot)
  obtain ⟨hown, helse⟩ := howns.reindex now hnodup hfree hrec.released_dropped hkept
  rw [hrec.next_eq]
  refine ⟨hown, helse, nodup_reconciledNames hnodup ?_⟩
  rw [hrec.claimed_eq]
  exact nodup_bindableNames hclaims

/-- A request that stores a log rewrites the registry of its slot together with
its rows, and leaves the rows of the other slots. -/
theorem OpBatch.renames {op : Op} {w : Batch} {m : String} (h : OpBatch A {s} op w)
    (hop : op.publishes = some m) (hok : KeepsIndex A s (.serve op))
    (hinv : NameInv A.libs s) :
    ∃ r, (WriteBatch.commit w s).ks.dids = s.ks.dids.insert m r ∧
      Owns (WriteBatch.commit w s).ks.agentName m (slotDomain A.libs r) r.agentNames ∧
      (r.agentNames.map (·.name)).Nodup ∧
      SameElsewhere s.ks.agentName (WriteBatch.commit w s).ks.agentName m := by
  cases h with
  | @registered auth now path didLog force domain existing ownerChanged p did base names
      changes hpre hreg =>
      have hm : path = m := Option.some.inj hop
      subst hm
      have hrecord : s.record path = existing := read_singleton hreg.existing_read
      have hslot := hinv path
      rw [hrecord] at hslot
      obtain ⟨howns, hnodup⟩ := hslot.owns
        fun r hr => hok r p did (hrecord.trans hr) hreg.verified_at hreg.didId_eq
      obtain ⟨hown, helse, hnext⟩ :=
        howns.reconciled hnodup (p.nodup_agentNames A.libs _) hreg.reconciled
      obtain ⟨hdids, -, hindex⟩ := commit_registerBatch s.ks auth path didLog
        (didHostOrEmpty A.libs did) existing ownerChanged
        (registerRecord A auth path didLog p did existing ownerChanged names now) changes
      refine ⟨_, hdids, ?_, hnext, ?_⟩
      · change Owns (DidsKs.commit _ s.ks).agentName _ _ _
        rw [hindex, slotDomain_registerRecord]
        exact hown
      · change SameElsewhere _ (DidsKs.commit _ s.ks).agentName _
        rw [hindex]
        exact helse
  | @published auth now m didLog requestDomain r p names changes hrep hrec =>
      cases hop
      obtain ⟨howns, hnodup⟩ := hinv.owns_republished now hrep hok
      obtain ⟨hown, helse, hnext⟩ :=
        howns.reconciled hnodup (p.nodup_agentNames A.libs _) hrec
      have heff := commit_publishBatch s.ks m didLog
        (slotDomain A.libs (republished A.libs r p didLog now))
        { republished A.libs r p didLog now with agentNames := names } changes
      refine ⟨_, congrArg DidsKs.dids heff, ?_, hnext, ?_⟩
      · change Owns (DidsKs.commit _ s.ks).agentName _ _ names
        rw [heff]
        exact hown
      · change SameElsewhere _ (DidsKs.commit _ s.ks).agentName _
        rw [heff]
        exact helse
  | @named auth now m name didLog requestDomain op r p holder effect hrep hclaim hholder
      heffect =>
      cases hop
      obtain ⟨howns, hnodup⟩ := hinv.owns_republished now hrep hok
      have hfree : op = .activate →
          s.ks.agentName.lookup (slotDomain A.libs (republished A.libs r p didLog now),
            bareName name) = none ∨
          s.ks.agentName.lookup (slotDomain A.libs (republished A.libs r p didLog now),
            bareName name) = some m := by
        intro hop
        have hrow : s.ks.agentName.lookup (slotDomain A.libs (republished A.libs r p didLog
          now), bareName name) = holder := read_singleton (hholder hop)
        rw [hrow]
        rcases agentNameEffect_cases heffect with ⟨-, hfree, -⟩ | ⟨rfl, -⟩ | ⟨rfl, -⟩
        · exact hfree
        · contradiction
        · contradiction
      obtain ⟨hown, helse, hnext⟩ := howns.agentNameEffect hnodup hfree heffect
      have heff := commit_namedBatch heffect didLog
        { republished A.libs r p didLog now with agentNames := effect.1 } s.ks
      refine ⟨_, congrArg DidsKs.dids heff, ?_, hnext, ?_⟩
      · change Owns (DidsKs.commit _ s.ks).agentName _ _ _
        rw [heff]
        exact hown
      · change SameElsewhere _ (DidsKs.commit _ s.ks).agentName _
        rw [heff]
        exact helse
  | created => contradiction
  | witnessed => contradiction
  | deleted => contradiction
  | transferred => contradiction
  | disabled => contradiction
  | rolledBack => contradiction

theorem nameInv_publishes {op : Op} {w : Batch} {m : String} (h : OpBatch A {s} op w)
    (hop : op.publishes = some m) (hok : KeepsIndex A s (.serve op))
    (hinv : NameInv A.libs s) : NameInv A.libs (WriteBatch.commit w s) := by
  obtain ⟨r, hdids, hown, hnodup, helse⟩ := h.renames hop hok hinv
  exact hinv.write hdids hown hnodup helse

theorem nameInv_batch {op : Op} {w : Batch} (h : OpBatch A {s} op w)
    (hok : KeepsIndex A s (.serve op)) (hinv : NameInv A.libs s) :
    NameInv A.libs (WriteBatch.commit w s) := by
  cases h with
  | @created auth now path force domain draws m existing hread hauth =>
      have hrecord : s.record m = existing := read_singleton hread
      obtain ⟨hdids, -, hindex⟩ := commit_createBatches s.ks auth m existing domain now
      have hempty : existingNames existing = [] := by
        cases existing with
        | none => rfl
        | some r =>
            obtain ⟨rfl, rfl, hallowed⟩ := hauth r rfl
            exact hok r hrecord hallowed
      have hslot := hinv m
      rw [hrecord] at hslot
      have howns := hslot.owns (d := slotDomain A.libs (emptyRecord auth m domain now))
        (fun r hr => by
          subst hr
          exact Or.inl hempty)
      rw [hempty] at howns
      refine hinv.write hdids ?_ List.nodup_nil ?_
      · change Owns (DidsKs.commit _ s.ks).agentName _ _ _
        rw [hindex]
        exact howns.1
      · change SameElsewhere _ (DidsKs.commit _ s.ks).agentName _
        rw [hindex]
        exact SameElsewhere.refl _ _
  | registered hpre hreg => exact nameInv_publishes (.registered hpre hreg) rfl hok hinv
  | published hrep hrec => exact nameInv_publishes (.published hrep hrec) rfl hok hinv
  | named hrep hclaim hholder heffect =>
      exact nameInv_publishes (.named hrep hclaim hholder heffect) rfl hok hinv
  | witnessed => exact hinv
  | @deleted auth m requestDomain record hread hauth hdomain =>
      have hrecord := read_singleton hread
      have hslot := hinv m
      rw [hrecord] at hslot
      have hempty := hok record hrecord hauth hdomain
      intro m'
      have hafter : (WriteBatch.commit (deleteBatch m record.owner) s).record m' =
          if m' = m then none else s.record m' := Table.lookup_erase_ite ..
      rw [hafter]
      by_cases hm : m' = m
      · subst hm
        rw [if_pos rfl]
        intro d n hrow
        have hin := ((hslot.1 d n).mp hrow).2
        rw [hempty] at hin
        simp at hin
      · rw [if_neg hm]
        exact hinv m'
  | @transferred auth now m newOwner record owner hread hauth =>
      have hslot := hinv m
      rw [read_singleton hread] at hslot
      exact hinv.write (r := { record with owner := owner, updatedAt := now }) rfl hslot.1
        hslot.2 (SameElsewhere.refl _ _)
  | @disabled auth m disabled record hread hauth =>
      have hslot := hinv m
      rw [read_singleton hread] at hslot
      exact hinv.write (r := { record with disabled := disabled }) rfl hslot.1
        hslot.2 (SameElsewhere.refl _ _)
  | @rolledBack auth now m targetVersion record content keep hread hauth hcontent hkeep hlt =>
      have hrecord := read_singleton hread
      have hslot := hinv m
      rw [hrecord] at hslot
      have hdomain :=
        (hok record content keep hrecord hauth (read_singleton hcontent) hkeep).domain_eq
      exact hinv.write (r := rolledBack A.libs record (truncateLog content keep) keep now) rfl
        (hslot.1.relocate hdomain) hslot.2 (SameElsewhere.refl _ _)

theorem nameInv_step (e : Event) (hok : KeepsIndex A s e) (hinv : NameInv A.libs s) :
    NameInv A.libs (e.step A s) := by
  cases e with
  | administer acl domains => exact hinv
  | serve op =>
      rcases step_batch op s with h | ⟨w, hw, h⟩
      · change NameInv A.libs ((op.prog A).run s).2
        rw [h]
        exact hinv
      · change NameInv A.libs ((op.prog A).run s).2
        rw [h]
        exact nameInv_batch hw hok hinv

end

theorem nameInv_initial (L : Libs) (acl : Table String AclEntry)
    (domains : Table String DomainEntry) : NameInv L (ControlStore.initial acl domains) :=
  fun _ _ _ h => by contradiction

/-- The invariant, read off for one row. -/
theorem NameInv.nameHolder_iff {L : Libs} {s : ControlStore} (h : NameInv L s)
    (d n m : String) :
    s.nameHolder d n = some m ↔
      ∃ r, s.record m = some r ∧ n ∈ r.agentNames.map (·.name) ∧ slotDomain L r = d := by
  have hslot := h m
  cases hr : s.record m with
  | none =>
      rw [hr] at hslot
      constructor
      · intro hrow
        exact absurd hrow (hslot d n)
      · rintro ⟨r, hr', -⟩
        contradiction
  | some r =>
      rw [hr] at hslot
      refine (hslot.1 d n).trans ?_
      constructor
      · rintro ⟨rfl, hn⟩
        exact ⟨r, rfl, hn, rfl⟩
      · rintro ⟨r', hr', hn, hd⟩
        cases hr'
        exact ⟨hd.symm, hn⟩

/-! ## The guarantee -/

/-- In every run that drops and moves no slot with names, the index has a row
for a name exactly when a record on that domain carries the name, and no two
slots hold the same name of a domain. -/
theorem name_index_agrees (A : AppState) (acl : Table String AclEntry)
    (domains : Table String DomainEntry) (events : List Event)
    (hok : Run.Meets (Event.step A) (KeepsIndex A) (ControlStore.initial acl domains) events) :
    let s := Run.exec (Event.step A) (ControlStore.initial acl domains) events
    (∀ d n m, s.nameHolder d n = some m ↔
        ∃ r, s.record m = some r ∧ n ∈ r.agentNames.map (·.name) ∧
          slotDomain A.libs r = d) ∧
      (∀ d n, (∀ m r, s.record m = some r → n ∈ r.agentNames.map (·.name) →
        slotDomain A.libs r ≠ d) → s.nameHolder d n = none) ∧
      ∀ m m' r r' n, s.record m = some r → s.record m' = some r' →
        n ∈ r.agentNames.map (·.name) → n ∈ r'.agentNames.map (·.name) →
        slotDomain A.libs r = slotDomain A.libs r' → m = m' := by
  intro s
  have hinv : NameInv A.libs s :=
    Run.exec_invariant (fun _ e => nameInv_step e) (nameInv_initial A.libs acl domains) hok
  refine ⟨hinv.nameHolder_iff, ?_, ?_⟩
  · intro d n hfree
    cases hrow : s.nameHolder d n with
    | none => rfl
    | some m =>
        obtain ⟨r, hr, hn, hd⟩ := (hinv.nameHolder_iff d n m).mp hrow
        exact absurd hd (hfree m r hr hn)
  · intro m m' r r' n hr hr' hn hn' hd
    have hrow := (hinv.nameHolder_iff _ n m).mpr ⟨r, hr, hn, rfl⟩
    have hrow' := (hinv.nameHolder_iff _ n m').mpr ⟨r', hr', hn', hd.symm⟩
    rw [hrow] at hrow'
    exact Option.some.inj hrow'

theorem nameHolder_delete (m owner d n : String) (s : ControlStore) :
    (WriteBatch.commit (deleteBatch m owner) s).nameHolder d n = s.nameHolder d n :=
  rfl

section Samples

open Reference

/-- The store after slot `al` was registered with the name `al`. -/
theorem stored_named1 :
    Stored fresh
      (Event.step control fresh (.serve (.register admin 1 "al" (logOf [named1]) false none)))
      "al" (logOf [named1])
      (registeredRecord [named1] didAl (document didAl ["https://h.io/@al"]) "al" 1)
      ⟨["al"], []⟩ "h.io" := by
  have hnames : ∀ n ∈ agentNamesFromDocument libs (document didAl ["https://h.io/@al"])
      (didHostOrEmpty libs didAl), validateAgentNameBinding n "al" = .ok () ∧
        fresh.nameHolder (didHostOrEmpty libs didAl) n = none := by
    rw [agentNames_named1]
    intro n hn
    rw [List.mem_singleton.mp hn]
    exact ⟨by decide +kernel, rfl⟩
  have hstored := stored_register unrestricted_fresh validLog_named1 validateMnemonic_al
    bound_didAl rfl hnames 1
  rwa [agentNames_named1, host_didAl] at hstored

/-- The record of slot `al` after its registration without a name. -/
def plainAl : DidRecord :=
  registeredRecord [al1] didAl (document didAl []) "al" 1

/-- The record of slot `al` after its second version, which claims the name `al`. -/
def namedAl : DidRecord :=
  publishedRecord plainAl [al1, named2] didAl (document didAl ["https://h.io/@al"]) 2

theorem publishedDomain_named2 :
    publishedDomain plainAl [al1, named2] didAl (document didAl ["https://h.io/@al"]) 2 =
      "h.io" := by
  rw [publishedDomain, slotDomain_republished]
  exact host_didAl

theorem publishedClaims_named2 :
    publishedClaims plainAl [al1, named2] didAl (document didAl ["https://h.io/@al"]) 2 =
      ["al"] := by
  rw [publishedClaims, publishedDomain_named2, ← host_didAl, agentNames_named1]

theorem plainAl_agentNames : plainAl.agentNames = [] :=
  registeredRecord_agentNames_plain [al1] didAl "al" 1

theorem bindable_named2 {s : ControlStore} (hindex : s.ks.agentName = reindex ⟨[], []⟩
    (didHostOrEmpty libs didAl) "al" fresh.ks.agentName) :
    ∀ n ∈ publishedClaims plainAl [al1, named2] didAl (document didAl ["https://h.io/@al"]) 2,
      validateAgentNameBinding n "al" = .ok () ∧
        (s.nameHolder (publishedDomain plainAl [al1, named2] didAl
            (document didAl ["https://h.io/@al"]) 2) n = none ∨
          s.nameHolder (publishedDomain plainAl [al1, named2] didAl
            (document didAl ["https://h.io/@al"]) 2) n = some "al") := by
  rw [publishedClaims_named2]
  intro n hn
  rw [List.mem_singleton.mp hn]
  refine ⟨by decide +kernel, Or.inl ?_⟩
  rw [ControlStore.nameHolder, hindex, lookup_reindex]
  simp
  rfl

/-- Slot `al` is registered, and its second version claims the name `al`. -/
def claimRun : List Event :=
  [.serve (.register admin 1 "al" (logOf [al1]) false none),
    .serve (.publish admin 2 "al" (logOf [al1, named2]) none)]

theorem stored_plain :
    Stored fresh
      (Event.step control fresh (.serve (.register admin 1 "al" (logOf [al1]) false none)))
      "al" (logOf [al1]) plainAl ⟨[], []⟩ (didHostOrEmpty libs didAl) :=
  registered_plain unrestricted_fresh validLog_al1 validateMnemonic_al bound_didAl rfl 1

theorem stored_named2 :
    Stored (Event.step control fresh (.serve (.register admin 1 "al" (logOf [al1]) false none)))
      (Run.exec (Event.step control) fresh claimRun) "al" (logOf [al1, named2]) namedAl
      ⟨["al"], []⟩ "h.io" := by
  have hpub := stored_publish stored_plain.unrestricted stored_plain.record rfl
    validLog_named2 validateMnemonic_al 2 (bindable_named2 stored_plain.names)
  rw [publishedClaims_named2, publishedDomain_named2, plainAl_agentNames] at hpub
  simp only [claimRun, Run.exec_cons, Run.exec_nil]
  exact hpub

theorem nameHolder_named2 :
    (Run.exec (Event.step control) fresh claimRun).nameHolder "h.io" "al" = some "al" := by
  rw [ControlStore.nameHolder, stored_named2.names, lookup_reindex]
  simp

theorem rollbackKeep_named2 : rollbackKeep (entryCount (logOf [al1, named2])) (some 1) = .ok 1 := by
  rw [entryCount_logOf validLog_named2.wellFormed]
  rfl

theorem truncateLog_named2 : truncateLog (logOf [al1, named2]) 1 = logOf [al1] := by
  rw [truncateLog_logOf validLog_named2.wellFormed, List.take_succ_cons, List.take_zero]

/-- A rollback of slot `al` to its first version leaves the index row of the name. -/
theorem stored_rolledBack :
    Stored (Run.exec (Event.step control) fresh claimRun)
      (Event.step control (Run.exec (Event.step control) fresh claimRun)
        (.serve (.rollback admin 3 "al" (some 1)))) "al" (logOf [al1])
      (rolledBack libs namedAl (logOf [al1]) 1 3) ⟨[], []⟩ "h.io" := by
  have hback := stored_rollback stored_named2.unrestricted validateMnemonic_al
    stored_named2.record stored_named2.log rollbackKeep_named2
    (by rw [entryCount_logOf validLog_named2.wellFormed]; decide) 3 "h.io"
  rwa [truncateLog_named2] at hback

theorem nameHolder_rolledBack :
    (Event.step control (Run.exec (Event.step control) fresh claimRun)
      (.serve (.rollback admin 3 "al" (some 1)))).nameHolder "h.io" "al" = some "al" := by
  have hnone : ∀ n : String, ¬ ("h.io" = "h.io" ∧ n ∈ ([] : List String)) := by simp
  rw [ControlStore.nameHolder, stored_rolledBack.names, lookup_reindex, if_neg (hnone _),
    if_neg (hnone _)]
  exact nameHolder_named2

theorem keepsIndex_claimRun :
    Run.Meets (Event.step control) (KeepsIndex control) fresh claimRun := by
  have hregister : KeepsIndex control fresh
      (.serve (.register admin 1 "al" (logOf [al1]) false none)) :=
    fun r p did hr => by contradiction
  have hpublish : KeepsIndex control
      (Event.step control fresh (.serve (.register admin 1 "al" (logOf [al1]) false none)))
      (.serve (.publish admin 2 "al" (logOf [al1, named2]) none)) := by
    intro r p hr _ _
    rw [stored_plain.record] at hr
    cases hr
    exact Or.inl plainAl_agentNames
  exact ⟨hregister, hpublish, trivial⟩

/-- The guarantee along a run in which the second version of slot `al` claims a
name, and the slot is then rolled back to its first. -/
theorem name_index_agrees_rolledBack :
    let events := claimRun ++ [.serve (.rollback admin 3 "al" (some 1))]
    let s := Run.exec (Event.step control) fresh events
    Run.Meets (Event.step control) (KeepsIndex control) fresh events ∧
      s.nameHolder "h.io" "al" = some "al" ∧
      ∃ r, s.record "al" = some r ∧ "al" ∈ r.agentNames.map (·.name) ∧
        slotDomain libs r = "h.io" := by
  intro events s
  have hrollback : KeepsIndex control (Run.exec (Event.step control) fresh claimRun)
      (.serve (.rollback admin 3 "al" (some 1))) := by
    intro r c keep hr _ hc hkeep
    have hrecord := Option.some.inj (stored_named2.record.symm.trans hr)
    have hlog := Option.some.inj (stored_named2.log.symm.trans hc)
    subst hrecord hlog
    have hone := Except.ok.inj (rollbackKeep_named2.symm.trans hkeep)
    subst hone
    refine Or.inr (Or.inr ?_)
    rw [truncateLog_named2]
    exact congrArg (hostOfDidId libs) validLog_al1.extractDidId_eq
  have hok : Run.Meets (Event.step control) (KeepsIndex control) fresh events :=
    keepsIndex_claimRun.concat hrollback
  have hrow : s.nameHolder "h.io" "al" = some "al" := by
    simp only [s, events, Run.exec_append, Run.exec_cons, Run.exec_nil]
    exact nameHolder_rolledBack
  exact ⟨hok, hrow, ((name_index_agrees control ∅ ∅ events hok).1 "h.io" "al" "al").mp hrow⟩

/-- After a delete the index row of the slot's name stays behind. -/
theorem deleted_name_stays :
    let s := Run.exec (Event.step control) fresh
      [.serve (.register admin 1 "al" (logOf [named1]) false none),
        .serve (.delete admin "al" none)]
    s.record "al" = none ∧ s.nameHolder "h.io" "al" = some "al" := by
  simp only [Run.exec_cons, Run.exec_nil]
  rw [step_delete stored_named1.unrestricted validateMnemonic_al stored_named1.record]
  refine ⟨AList.lookup_erase _ _, ?_⟩
  rw [nameHolder_delete, ControlStore.nameHolder, stored_named1.names, lookup_reindex]
  simp

end Samples

end DidHosting
