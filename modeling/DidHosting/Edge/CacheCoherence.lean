import DidHosting.Edge.Changes
import DidHosting.Edge.PublicHistory

/-!
# The content cache

Requests and directives that do not overlap find in the cache what they would read from the
store.  An update invalidates the slot it writes, and every other operation drops slots
whole, so that an entry is of the rows its slot has, or of a slot without a record, which
is answered before the cache is asked.  Witness files are cached too but not invalidated.
-/

namespace DidHosting

open Text

/-! ## Slots that are kept or dropped -/

section Slots

variable {s t u : EdgeStore}

/-- The rows of the slot are as before. -/
structure SameContents (s t : EdgeStore) (m : String) : Prop where
  record : t.record m = s.record m
  log : t.log m = s.log m
  witness : t.witness m = s.witness m

theorem SameContents.refl (s : EdgeStore) (m : String) : SameContents s s m :=
  ⟨rfl, rfl, rfl⟩

theorem SameContents.trans {m : String} (h : SameContents s t m) (h' : SameContents t u m) :
    SameContents s u m :=
  ⟨h'.record.trans h.record, h'.log.trans h.log, h'.witness.trans h.witness⟩

/-- Each slot has its rows as before, or no record. -/
def KeptOrDropped (s t : EdgeStore) : Prop :=
  ∀ m, t.record m = none ∨ SameContents s t m

theorem KeptOrDropped.trans (h : KeptOrDropped s t) (h' : KeptOrDropped t u) :
    KeptOrDropped s u := by
  intro m
  rcases h' m with hdropped | hsame
  · exact Or.inl hdropped
  · rcases h m with hdropped | hsame'
    · exact Or.inl (hsame.record.trans hdropped)
    · exact Or.inr (hsame'.trans hsame)

theorem keptOrDropped_of_ks (hks : t.ks = s.ks) : KeptOrDropped s t := by
  intro m
  refine Or.inr ⟨?_, ?_, ?_⟩
  · rw [EdgeStore.record, EdgeStore.record, hks]
  · rw [EdgeStore.log, EdgeStore.log, hks]
  · rw [EdgeStore.witness, EdgeStore.witness, hks]

/-- The operation writes no row of the slot. -/
def BatchOp.Spares (m : String) : BatchOp → Prop
  | .insertDid m' _ => m ≠ m'
  | .insertLog m' _ => m ≠ m'
  | .insertWitness m' _ => m ≠ m'
  | .removeDid m' => m ≠ m'
  | .removeLog m' => m ≠ m'
  | .removeWitness m' => m ≠ m'
  | _ => True

theorem sameContents_apply {m : String} {op : BatchOp} (hop : op.Spares m) (s : EdgeStore) :
    SameContents s { s with ks := s.ks.apply op } m := by
  cases op with
  | insertDid m' record => exact ⟨AList.lookup_insert_ne hop, rfl, rfl⟩
  | insertLog m' log => exact ⟨rfl, AList.lookup_insert_ne hop, rfl⟩
  | insertWitness m' witness => exact ⟨rfl, rfl, AList.lookup_insert_ne hop⟩
  | removeDid m' => exact ⟨AList.lookup_erase_ne hop, rfl, rfl⟩
  | removeLog m' => exact ⟨rfl, AList.lookup_erase_ne hop, rfl⟩
  | removeWitness m' => exact ⟨rfl, rfl, AList.lookup_erase_ne hop⟩
  | _ => exact ⟨rfl, rfl, rfl⟩

theorem sameContents_commit {m : String} {batch : Batch} (hbatch : ∀ op ∈ batch, op.Spares m)
    (s : EdgeStore) : SameContents s (EdgeStore.commit (.dids batch) s) m := by
  induction batch generalizing s with
  | nil => exact .refl s m
  | cons op batch ih =>
      have hfirst := sameContents_apply (hbatch op List.mem_cons_self) s
      exact hfirst.trans (ih (fun o ho => hbatch o (List.mem_cons_of_mem _ ho)) _)

theorem keptOrDropped_slotDrop {L : Libs} (h : SlotDrop L s t) : KeptOrDropped s t := by
  cases h with
  | same hks => exact keptOrDropped_of_ks hks
  | dropped m record hrecord hks =>
      intro m'
      rw [commit_dropSlot] at hks
      by_cases hm : m' = m
      · left
        rw [EdgeStore.record, hks, hm]
        exact AList.lookup_erase ..
      · right
        refine ⟨?_, ?_, ?_⟩
        · rw [EdgeStore.record, hks]
          exact AList.lookup_erase_ne hm
        · rw [EdgeStore.log, hks]
          exact AList.lookup_erase_ne hm
        · rw [EdgeStore.witness, hks]
          exact AList.lookup_erase_ne hm

theorem keptOrDropped_slotDrops {L : Libs} (h : SlotDrops L s t) : KeptOrDropped s t := by
  induction h with
  | refl => exact keptOrDropped_of_ks rfl
  | tail _ hstep ih => exact ih.trans (keptOrDropped_slotDrop hstep)

/-- A cleanup removes the record of a slot and then its other rows. -/
theorem keptOrDropped_cleanupLoop (now ttlSeconds : ℕ) (records : List DidRecord) :
    ∀ s, KeptOrDropped s ((cleanupLoop now ttlSeconds records).run s).2 := by
  induction records with
  | nil => exact fun s => keptOrDropped_of_ks rfl
  | cons record records ih =>
      intro s
      unfold cleanupLoop
      split
      · let removed : EdgeStore := EdgeStore.commit (.dids [.removeDid record.mnemonic,
          .removeLog record.mnemonic, .removeWitness record.mnemonic,
          .removeOwner record.owner record.mnemonic]) s
        refine KeptOrDropped.trans (t := removed) (fun m => ?_) (ih removed)
        by_cases hm : m = record.mnemonic
        · left
          rw [hm]
          exact AList.lookup_erase ..
        · right
          refine sameContents_commit (fun op hop => ?_) s
          simp only [List.mem_cons, List.not_mem_nil, or_false] at hop
          obtain rfl | rfl | rfl | rfl := hop
          · exact hm
          · exact hm
          · exact hm
          · trivial
      · exact ih s

/-- An operation that commits no update keeps or drops each slot. -/
theorem keptOrDropped_step {E : EdgeState} {r : EdgeRun} (hkeyed : r.store.Keyed) {op : EdgeOp}
    (hupdate : ∀ now update, op ≠ .syncUpdate now update)
    (hbatch : ∀ updates, op ≠ .syncBatch updates) :
    KeptOrDropped r.store (r.step E op).store := by
  have hdrops : op.Drops → KeptOrDropped r.store (r.step E op).store :=
    fun hop => keptOrDropped_slotDrops (slotDrops_step E r hop hkeyed)
  cases op with
  | syncUpdate now update => exact absurd rfl (hupdate now update)
  | syncBatch updates => exact absurd rfl (hbatch updates)
  | cleanup now ttl => exact keptOrDropped_cleanupLoop now ttl _ _
  | _ => exact hdrops trivial

/-- An update writes no row of another slot. -/
theorem updateBatch_spares {L : Libs} {update : DidSyncUpdate} {method : Method}
    {previous : Option DidRecord} {record : DidRecord} {identity m : String}
    (hm : m ≠ update.mnemonic) :
    ∀ op ∈ updateBatch L update method previous record identity, op.Spares m := by
  have hnames : ∀ op : BatchOp, op.onNames = true → op.Spares m := by
    intro op hop
    cases op <;> trivial
  have hwitness : (witnessWrite update).Spares m := by
    unfold witnessWrite
    split
    · exact hm
    · exact hm
  intro op hop
  simp only [updateBatch, stageHighWater, List.mem_append, List.mem_cons, List.not_mem_nil,
    or_false, List.mem_map] at hop
  obtain ((((rfl | hretired) | ⟨entry, -, rfl⟩) | (rfl | rfl | rfl)) | (rfl | rfl)) := hop
  · exact hm
  · exact hnames op (onNames_retiredNames previous _ _ op hretired)
  · trivial
  · exact hm
  · trivial
  · exact hwitness
  · trivial
  · trivial

/-- A sync entry writes no row of another slot. -/
theorem sameContents_entry (E : EdgeState) (r : EdgeRun) (now : ℕ) (update : DidSyncUpdate) {m : String}
    (hm : m ≠ update.mnemonic) : SameContents r.store (r.entry E (now, update)).store m := by
  rcases EdgeRun.entry_plan E r (now, update) with hsame | ⟨w, hplan, hentry⟩
  · rw [hsame]
    exact .refl _ m
  · rcases updatePlan_spec hplan with hnone | ⟨document, identity, previous, -, -, -, -, -, hw⟩
    · cases hnone
    · obtain rfl : w = _ := Option.some.inj (Prod.mk.inj hw).1
      rw [hentry]
      exact sameContents_commit (updateBatch_spares hm) r.store

theorem entry_of_not_applied {E : EdgeState} {r : EdgeRun} {now : ℕ} {update : DidSyncUpdate}
    (h : entryApplied E now update r.store = false) : r.entry E (now, update) = r := by
  rcases EdgeRun.entry_plan E r (now, update) with hsame | ⟨w, -, hentry⟩
  · exact hsame
  · have hcommitted : (r.entry E (now, update)).committed = r.committed := by
      unfold entryApplied at h
      unfold EdgeRun.entry
      split at h
      · contradiction
      · rename_i hnot
        split
        · rename_i hrun
          exact absurd (congrArg Prod.fst hrun) hnot
        · rfl
    rw [hentry] at hcommitted
    have hlength := congrArg List.length hcommitted
    rw [List.length_append, List.length_singleton] at hlength
    omega

end Slots

/-! ## Coherent caches -/

section Coherence

variable (P : PublicState)

/-- What the cache may hold of the log of a slot: what `load_keri_cesr` reads of it or what
`serve_content` does. -/
def CurrentText (s : EdgeStore) (m : String) (record : DidRecord) (data : String) : Prop :=
  ∃ log, s.log m = some log ∧
    ((record.method = .webs ∧ data = log) ∨
      (validateMnemonic m = .ok () ∧ servableDidLog P.libs log (s.witness m) = some data))

/-- An entry for the log of a slot with a record is current. -/
def CoherentEntry (s : EdgeStore) : RowKey → String → Prop
  | .contentLog m, data => ∀ record, s.record m = some record → CurrentText P s m record data
  | _, _ => True

/-- The entries of the cache are current. -/
def Node.Coherent (n : Node) : Prop :=
  n.cache.Holds (CoherentEntry P n.edge.store)

variable {P} {s t : EdgeStore} {n : Node}

theorem CoherentEntry.of_same {m data : String} (h : CoherentEntry P s (.contentLog m) data)
    (hsame : SameContents s t m) : CoherentEntry P t (.contentLog m) data := by
  intro record hrecord
  obtain ⟨log, hlog, hdata⟩ := h record (hsame.record.symm.trans hrecord)
  refine ⟨log, hsame.log.trans hlog, ?_⟩
  rw [hsame.witness]
  exact hdata

theorem CoherentEntry.kept {key : RowKey} {data : String} (h : CoherentEntry P s key data)
    (hkept : KeptOrDropped s t) : CoherentEntry P t key data := by
  cases key with
  | contentLog m =>
      rcases hkept m with hdropped | hsame
      · intro record hrecord
        rw [hdropped] at hrecord
        contradiction
      · exact h.of_same hsame
  | _ => trivial

theorem CoherentEntry.repaired {key : RowKey} {data : String} (h : CoherentEntry P s key data)
    (hrepaired : Repaired s t) : CoherentEntry P t key data := by
  cases key with
  | contentLog m =>
      intro record hrecord
      obtain ⟨old, hold, heq⟩ := hrepaired.record m record hrecord
      obtain ⟨log, hlog, hdata⟩ := h old hold
      refine ⟨log, (hrepaired.log m).trans hlog, ?_⟩
      rw [hrepaired.witness, heq]
      exact hdata
  | _ => trivial

end Coherence

/-! ## Directives and tasks -/

section Directives

variable {P : PublicState} {n : Node}

/-- Alone, the handler ends with a coherent cache. -/
abbrev KeepsCoherent {α : Type} (p : NodeM P.edge α) (n : Node) : Prop :=
  p.After (fun _ => True) (fun _ t => t.Coherent P) (fun _ t => t.Coherent P) n

theorem coherent_entryNode (h : n.Coherent P) (now : ℕ) (update : DidSyncUpdate) :
    KeepsCoherent (entryNode P.edge now update) n := by
  refine Atomic.after_call_bind ?_
  cases happlied : entryApplied P.edge now update n.edge.store with
  | true =>
      refine TtlCache.holds_invalidate fun key entry hkey hentry => ?_
      have hold : CoherentEntry P n.edge.store key entry.data := h key entry hentry
      cases key with
      | contentLog m =>
          have hm : m ≠ update.mnemonic := fun heq => hkey (congrArg RowKey.contentLog heq)
          exact hold.of_same (sameContents_entry P.edge n.edge now update hm)
      | _ => trivial
  | false =>
      change Node.Coherent P { n with edge := n.edge.entry P.edge (now, update) }
      rw [entry_of_not_applied happlied]
      exact h

theorem coherent_entriesNode (updates : List (ℕ × DidSyncUpdate)) :
    ∀ {n : Node}, n.Coherent P → KeepsCoherent (entriesNode P.edge updates) n := by
  induction updates with
  | nil => exact fun h => h
  | cons e rest ih =>
      intro n h
      refine Atomic.after_bind ((coherent_entryNode h e.1 e.2).mono ?_ fun _ _ ht => ht)
      exact fun _ t ht => ih ht

theorem coherent_invalidateAll (slots : List String) :
    ∀ {n : Node}, n.Coherent P → KeepsCoherent (invalidateAll P.edge slots) n := by
  induction slots with
  | nil => exact fun h => h
  | cons m rest ih =>
      exact fun h => Atomic.after_call_bind (ih (TtlCache.Holds.invalidate h (.contentLog m)))

theorem coherent_step (hinv : NodeInv P n) (h : n.Coherent P) {op : EdgeOp}
    (hupdate : ∀ now update, op ≠ .syncUpdate now update)
    (hbatch : ∀ updates, op ≠ .syncBatch updates) :
    Node.Coherent P { n with edge := n.edge.step P.edge op } := by
  have hkeyed : n.edge.store.Keyed := fun m record hm => (hinv.rows.record m record hm).1
  exact h.imp fun key data hentry => hentry.kept (keptOrDropped_step hkeyed hupdate hbatch)

theorem coherent_directiveNode (hinv : NodeInv P n) (h : n.Coherent P) (op : EdgeOp) :
    KeepsCoherent (directiveNode P.edge op) n := by
  cases op with
  | syncUpdate now update => exact coherent_entryNode h now update
  | syncBatch updates => exact coherent_entriesNode updates h
  | syncDelete m =>
      have hstep : Node.Coherent P { n with edge := n.edge.step P.edge (.syncDelete m) } :=
        coherent_step hinv h (fun _ _ heq => by contradiction) fun _ heq => by contradiction
      refine Atomic.after_call_bind ?_
      split
      · exact TtlCache.Holds.invalidate hstep (.contentLog m)
      · exact hstep
  | domainPurge issuedAt domain =>
      have hstep : Node.Coherent P
          { n with edge := n.edge.step P.edge (.domainPurge issuedAt domain) } :=
        coherent_step hinv h (fun _ _ heq => by contradiction) fun _ heq => by contradiction
      refine Atomic.after_call_bind ?_
      split
      · exact TtlCache.holds_clear _
      · exact hstep
  | _ =>
      exact coherent_step hinv h (fun _ _ heq => by contradiction) fun _ heq => by contradiction

theorem coherent_reconcileNode (hinv : NodeInv P n) (h : n.Coherent P)
    (replies : List ListingReply) : KeepsCoherent (reconcileNode P.edge replies) n := by
  obtain ⟨hrepaired, -⟩ := reconcileOnce_repairs hinv.rows replies
  refine Atomic.after_call_bind (coherent_invalidateAll _ ?_)
  exact h.imp fun key data hentry => hentry.repaired hrepaired

end Directives

/-! ## Requests -/

/-- The node with an empty cache. -/
def Node.emptied (n : Node) : Node :=
  { n with cache := n.cache.clear }

theorem Node.edge_emptied (n : Node) : n.emptied.edge = n.edge :=
  rfl

theorem Node.get_emptied (n : Node) (key : RowKey) :
    n.emptied.cache.get n.emptied.now key = none :=
  rfl

section Transparency

variable {P : PublicState} {current : Prop} {n : Node} {α β : Type}

/-- Alone, the handler leaves the store as it is and the cache coherent.  Its answer, if
`current` holds, is the same as with an empty cache. -/
structure Transparent (P : PublicState) (current : Prop) (p : NodeM P.edge α) (n : Node) :
    Prop where
  edge : (p.effect noInputs n).edge = n.edge
  coherent : (p.effect noInputs n).Coherent P
  answer : ∃ a, (p.alone noInputs n).1 = some a ∧
    (current → (p.alone noInputs n.emptied).1 = some a)

theorem transparent_reads {p : NodeM P.edge α} {f : EdgeStore → Except ResolutionError α}
    (h : n.Coherent P) (hp : ReadsStore p f) : Transparent P current p n := by
  have hsame : p.effect noInputs n = n := congrArg Prod.snd (hp noInputs n)
  refine ⟨congrArg Node.edge hsame, ?_, f n.edge.store, congrArg Prod.fst (hp noInputs n),
    fun _ => congrArg Prod.fst (hp noInputs n.emptied)⟩
  rw [hsame]
  exact h

/-- A handler that first reads the store. -/
theorem transparent_bind {p : NodeM P.edge α} {g : α → NodeM P.edge β}
    {f : EdgeStore → Except ResolutionError α} (h : n.Coherent P) (hp : ReadsStore p f)
    (hg : ∀ a, f n.edge.store = .ok a → Transparent P current (g a) n) :
    Transparent P current (p >>= g) n := by
  have hfirst : p.alone noInputs n = (some (f n.edge.store), n) := hp noInputs n
  have hfirst' : p.alone noInputs n.emptied = (some (f n.edge.store), n.emptied) :=
    hp noInputs n.emptied
  cases hf : f n.edge.store with
  | error e =>
      rw [hf] at hfirst hfirst'
      have hwhole := Atomic.alone_bind_fail (f := g) hfirst
      have hwhole' := Atomic.alone_bind_fail (f := g) hfirst'
      have hsame : (p >>= g).effect noInputs n = n := congrArg Prod.snd hwhole
      refine ⟨congrArg Node.edge hsame, ?_, .error e, congrArg Prod.fst hwhole,
        fun _ => congrArg Prod.fst hwhole'⟩
      rw [hsame]
      exact h
  | ok a =>
      rw [hf] at hfirst hfirst'
      obtain ⟨hedge, hcoherent, answer, hanswer, hsame⟩ := hg a hf
      have heffect : (p >>= g).effect noInputs n = (g a).effect noInputs n :=
        congrArg Prod.snd (alone_bind hfirst)
      rw [← heffect] at hedge hcoherent
      refine ⟨hedge, hcoherent, answer, ?_, fun hcurrent => ?_⟩
      · rw [alone_bind hfirst]
        exact hanswer
      · rw [alone_bind hfirst']
        exact hsame hcurrent

theorem transparent_map {p : NodeM P.edge α} (h : Transparent P current p n) (g : α → β) :
    Transparent P current (p >>= fun a => pure (g a)) n := by
  obtain ⟨hedge, hcoherent, answer, hanswer, hsame⟩ := h
  rw [← Atomic.effect_bind_pure p g] at hedge hcoherent
  refine ⟨hedge, hcoherent, answer.map g, ?_, fun hcurrent => ?_⟩
  · rw [Atomic.alone_bind_pure, hanswer]
    rfl
  · rw [Atomic.alone_bind_pure, hsame hcurrent]
    rfl

/-- Content that is looked up in the cache and otherwise read, and an answer made of it. -/
theorem transparent_throughCache {key : RowKey} {fetch : NodeM P.edge String}
    {finish : String → NodeM P.edge α} {f : EdgeStore → Except ResolutionError String}
    {g : String → EdgeStore → Except ResolutionError α} (h : n.Coherent P)
    (hfetch : ReadsStore fetch f) (hfinish : ∀ data, ReadsStore (finish data) (g data))
    (hhit : ∀ data, n.cache.get n.now key = some data → current → f n.edge.store = .ok data)
    (hmiss : ∀ data, f n.edge.store = .ok data → CoherentEntry P n.edge.store key data) :
    Transparent P current (throughCache key fetch >>= finish) n := by
  have hempty := n.get_emptied key
  have hfinished : ∀ {t u : Node} {data : String},
      (throughCache key fetch).alone noInputs t = (some (.ok data), u) →
        (throughCache key fetch >>= finish).alone noInputs t =
          (some (g data u.edge.store), u) :=
    fun hthrough => (alone_bind hthrough).trans (hfinish _ noInputs _)
  have hanswered : ∀ data, f n.edge.store = .ok data →
      ((throughCache key fetch >>= finish).alone noInputs n.emptied).1 =
        some (g data n.edge.store) :=
    fun data hdata =>
      congrArg Prod.fst (hfinished (alone_throughCache_miss hfetch hempty hdata))
  cases hget : n.cache.get n.now key with
  | some data =>
      have hwhole := hfinished (alone_throughCache_hit hget)
      have hsame : (throughCache key fetch >>= finish).effect noInputs n = n :=
        congrArg Prod.snd hwhole
      refine ⟨congrArg Node.edge hsame, ?_, g data n.edge.store, congrArg Prod.fst hwhole,
        fun hcurrent => hanswered data (hhit data hget hcurrent)⟩
      rw [hsame]
      exact h
  | none =>
      cases hdata : f n.edge.store with
      | error e =>
          have hwhole := Atomic.alone_bind_fail (f := finish)
            (alone_throughCache_fail hfetch hget hdata)
          have hwhole' := Atomic.alone_bind_fail (f := finish)
            (alone_throughCache_fail hfetch hempty hdata)
          have hsame : (throughCache key fetch >>= finish).effect noInputs n = n :=
            congrArg Prod.snd hwhole
          refine ⟨congrArg Node.edge hsame, ?_, .error e, congrArg Prod.fst hwhole,
            fun _ => congrArg Prod.fst hwhole'⟩
          rw [hsame]
          exact h
      | ok data =>
          have hwhole := hfinished (alone_throughCache_miss hfetch hget hdata)
          have hinserted : (throughCache key fetch >>= finish).effect noInputs n =
              { n with cache := n.cache.insert n.now key data } := congrArg Prod.snd hwhole
          refine ⟨?_, ?_, g data n.edge.store, congrArg Prod.fst hwhole,
            fun _ => hanswered data hdata⟩
          · rw [hinserted]
          · rw [hinserted]
            exact TtlCache.Holds.insert h (hmiss data hdata)

/-- A handler that answers nothing does nothing. -/
def PassesOn (p : NodeM P.edge (Option α)) : Prop :=
  ∀ t u, p.alone noInputs t = (some (.ok none), u) → u = t

theorem passesOn_some (p : NodeM P.edge α) : PassesOn (p >>= fun a => pure (some a)) := by
  intro t u h
  rw [Atomic.alone_bind_pure] at h
  have hnone := (Prod.mk.inj h).1
  cases hp : (p.alone noInputs t).1 with
  | none => simp [hp] at hnone
  | some outcome => cases outcome <;> simp [hp, Except.map] at hnone

theorem passesOn_bind {p : NodeM P.edge α} {g : α → NodeM P.edge (Option β)}
    {f : EdgeStore → Except ResolutionError α} (hp : ReadsStore p f)
    (hg : ∀ a, PassesOn (g a)) : PassesOn (p >>= g) := by
  intro t u h
  have hfirst : p.alone noInputs t = (some (f t.edge.store), t) := hp noInputs t
  cases hf : f t.edge.store with
  | error e =>
      rw [hf] at hfirst
      rw [Atomic.alone_bind_fail hfirst] at h
      simp at h
  | ok a =>
      rw [hf] at hfirst
      rw [alone_bind hfirst] at h
      exact hg a t u h

theorem transparent_orNext {first next : NodeM P.edge (Option PublicAnswer)}
    (hfirst : Transparent P current first n) (hpasses : PassesOn first)
    (hnext : Transparent P current next n) : Transparent P current (orNext first next) n := by
  obtain ⟨hedge, hcoherent, answer, hanswer, hsame⟩ := hfirst
  have hends : ∀ {t : Node} {e : ResolutionError}, (first.alone noInputs t).1 = some (.error e) →
      (orNext first next).alone noInputs t = (some (.error e), (first.alone noInputs t).2) :=
    fun h => alone_orNext_fail (Prod.ext h rfl)
  have hanswers : ∀ {t : Node} {a : PublicAnswer},
      (first.alone noInputs t).1 = some (.ok (some a)) →
        (orNext first next).alone noInputs t = (some (.ok (some a)), (first.alone noInputs t).2) :=
    fun h => alone_orNext_some (Prod.ext h rfl)
  have hgoes : ∀ {t : Node}, (first.alone noInputs t).1 = some (.ok none) →
      (orNext first next).alone noInputs t = next.alone noInputs t := by
    intro t h
    have hwhole : first.alone noInputs t = (some (.ok none), (first.alone noInputs t).2) :=
      Prod.ext h rfl
    rw [hpasses t _ hwhole] at hwhole
    exact alone_orNext_none hwhole
  cases answer with
  | error e =>
      have heffect : (orNext first next).effect noInputs n = first.effect noInputs n := by
        rw [Atomic.effect, hends hanswer]
        rfl
      rw [← heffect] at hedge hcoherent
      exact ⟨hedge, hcoherent, .error e, congrArg Prod.fst (hends hanswer),
        fun hcurrent => congrArg Prod.fst (hends (hsame hcurrent))⟩
  | ok found =>
      cases found with
      | some a =>
          have heffect : (orNext first next).effect noInputs n = first.effect noInputs n := by
            rw [Atomic.effect, hanswers hanswer]
            rfl
          rw [← heffect] at hedge hcoherent
          exact ⟨hedge, hcoherent, .ok (some a), congrArg Prod.fst (hanswers hanswer),
            fun hcurrent => congrArg Prod.fst (hanswers (hsame hcurrent))⟩
      | none =>
          obtain ⟨hedge', hcoherent', answer', hanswer', hsame'⟩ := hnext
          have heffect : (orNext first next).effect noInputs n = next.effect noInputs n :=
            congrArg Prod.snd (hgoes hanswer)
          rw [← heffect] at hedge' hcoherent'
          refine ⟨hedge', hcoherent', answer', ?_, fun hcurrent => ?_⟩
          · rw [hgoes hanswer]
            exact hanswer'
          · rw [hgoes (hsame hcurrent)]
            exact hsame' hcurrent

end Transparency

/-! ## Routes -/

section Routes

variable {P : PublicState} {current : Prop} {n : Node}

/-- Every did:webs slot is outside the grammar of did:webvh paths. -/
def WebsApart (s : EdgeStore) : Prop :=
  ∀ m record, s.record m = some record → record.method = .webs → validateMnemonic m ≠ .ok ()

theorem transparent_serveContent (h : n.Coherent P) {m : String}
    (hvalid : validateMnemonic m = .ok ()) (hcurrent : current → WebsApart n.edge.store)
    (trackStats : Bool) (host : Option String) :
    Transparent P current (serveContentNode P m .jsonl trackStats host) n := by
  refine transparent_bind h (readsStore_readStore _) fun row hrow => ?_
  refine transparent_bind h (readsStore_orFail _ row) fun record hrecord => ?_
  have hheld : n.edge.store.record m = some record :=
    (Except.ok.inj hrow).trans (elim_eq_ok hrecord)
  obtain ⟨f, hf⟩ := readsStore_servedCheck (P := P) m host record
  refine transparent_bind h hf fun _ _ => ?_
  refine transparent_throughCache h (readsStore_readContent m) (fun _ => readsStore_pure _) ?_ ?_
  · intro data hget hfits
    obtain ⟨log, hlog, hdata⟩ := TtlCache.Holds.get h hget record hheld
    rcases hdata with ⟨hwebs, -⟩ | ⟨-, hserved⟩
    · exact absurd hvalid (hcurrent hfits m record hheld hwebs)
    · unfold servedLogOf
      rw [hlog, Option.bind_some, hserved]
      rfl
  · intro data hdata record' hrecord'
    obtain ⟨log, hlog, hserved⟩ := Option.bind_eq_some_iff.mp (elim_eq_ok hdata)
    exact ⟨log, hlog, Or.inr ⟨hvalid, hserved⟩⟩

theorem transparent_serveWitness (h : n.Coherent P) (hcurrent : ¬current) (m : String)
    (trackStats : Bool) (host : Option String) :
    Transparent P current (serveContentNode P m .json trackStats host) n := by
  refine transparent_bind h (readsStore_readStore _) fun row hrow => ?_
  refine transparent_bind h (readsStore_orFail _ row) fun record hrecord => ?_
  obtain ⟨f, hf⟩ := readsStore_servedCheck (P := P) m host record
  refine transparent_bind h hf fun _ _ => ?_
  have hread := readsStore_bind (readsStore_readStore (E := P.edge) fun s => s.witness m)
    fun witness => readsStore_orFail (contentNotFound m) witness
  exact transparent_throughCache h hread (fun _ => readsStore_pure _)
    (fun _ _ hfits => absurd hfits hcurrent) fun _ _ => trivial

theorem readsStore_websRecord (m : String) (host : Option String) :
    ∃ f, ReadsStore (websRecord P m host : NodeM P.edge _) f ∧ ∀ s held, f s = .ok held →
      ∀ record, held = some record → s.record m = some record ∧ record.method = .webs := by
  have hrow : ∀ row, ∃ g, ReadsStore (websRow P m host row : NodeM P.edge _) g ∧
      ∀ s held, g s = .ok held → ∀ record, held = some record →
        row = some record ∧ record.method = .webs := by
    intro row
    cases row with
    | none =>
        refine ⟨_, readsStore_pure none, fun s held hheld record hrecord => ?_⟩
        rw [← Except.ok.inj hheld] at hrecord
        contradiction
    | some row =>
        rw [websRow]
        split
        · rename_i hmethod
          obtain ⟨f, hf⟩ := readsStore_servedCheck (P := P) m host row
          refine ⟨_, readsStore_bind hf fun _ => readsStore_pure (some row), ?_⟩
          intro s held hheld record hrecord
          cases hchecked : f s with
          | error e =>
              rw [hchecked] at hheld
              contradiction
          | ok u =>
              rw [hchecked] at hheld
              have hrow : some row = some record := (Except.ok.inj hheld).trans hrecord
              refine ⟨hrow, ?_⟩
              rw [← Option.some.inj hrow]
              exact hmethod
        · refine ⟨_, readsStore_pure none, fun s held hheld record hrecord => ?_⟩
          rw [← Except.ok.inj hheld] at hrecord
          contradiction
  choose g hreads hfound using hrow
  exact ⟨_, readsStore_bind (readsStore_readStore fun s => s.record m) hreads,
    fun s held hheld => hfound (s.record m) s held hheld⟩

/-- `load_keri_cesr` for a did:webs slot, and an answer made of it. -/
theorem transparent_loadKeriCesr (h : n.Coherent P) {m : String} {record : DidRecord}
    (hheld : n.edge.store.record m = some record) (hmethod : record.method = .webs)
    (hcurrent : current → WebsApart n.edge.store) {α : Type} {finish : String → NodeM P.edge α}
    {g : String → EdgeStore → Except ResolutionError α}
    (hfinish : ∀ data, ReadsStore (finish data) (g data)) :
    Transparent P current (loadKeriCesr m >>= finish) n := by
  refine transparent_throughCache h (readsStore_readKeriCesr m) hfinish ?_ ?_
  · intro data hget hfits
    obtain ⟨log, hlog, hdata⟩ := TtlCache.Holds.get h hget record hheld
    rcases hdata with ⟨-, rfl⟩ | ⟨hvalid, -⟩
    · rw [hlog]
      rfl
    · exact absurd hvalid (hcurrent hfits m record hheld hmethod)
  · intro data hdata record' hrecord'
    have hsame : record = record' := Option.some.inj (hheld.symm.trans hrecord')
    rw [← hsame]
    exact ⟨data, elim_eq_ok hdata, Or.inl ⟨hmethod, rfl⟩⟩

theorem transparent_serveKeriCesr (h : n.Coherent P) (hcurrent : current → WebsApart n.edge.store)
    (m : String) (host : Option String) :
    Transparent P current (serveKeriCesr P m host) n := by
  obtain ⟨f, hreads, hfound⟩ := readsStore_websRecord (P := P) m host
  refine transparent_bind h hreads fun held hheld => ?_
  refine transparent_bind h (readsStore_orFail _ held) fun record hrecord => ?_
  obtain ⟨hrow, hmethod⟩ := hfound _ held hheld record (elim_eq_ok hrecord)
  exact transparent_loadKeriCesr h hrow hmethod hcurrent fun _ => readsStore_pure _

theorem transparent_websDidJson (hkeyed : n.edge.store.Keyed) (h : n.Coherent P)
    (hcurrent : current → WebsApart n.edge.store) {m : String} {held : Option DidRecord}
    (hheld : ∀ record, held = some record →
      n.edge.store.record m = some record ∧ record.method = .webs) :
    Transparent P current (websDidJson P held) n := by
  cases held with
  | none => exact transparent_reads h (readsStore_pure none)
  | some record =>
      obtain ⟨hrow, hmethod⟩ := hheld record rfl
      have hm : n.edge.store.record record.mnemonic = some record := by
        rw [hkeyed m record hrow]
        exact hrow
      have hfinish := fun data => readsStore_bind
        (readsStore_check (E := P.edge) (derivedDocument P record data)) fun document =>
          readsStore_pure (PublicAnswer.mk "application/did+json" (some "public, max-age=300")
            document true)
      exact transparent_map (transparent_loadKeriCesr h hm hmethod hcurrent hfinish) some

theorem readsStore_webDispatch (request : PublicRequest P) :
    ∃ f, ReadsStore (webDispatch P request : NodeM P.edge _) f := by
  unfold webDispatch
  split
  · rename_i m hslot
    have hcheck : ∀ row, ∃ f,
        ReadsStore (bridgedCheck P m request.requestHost row : NodeM P.edge _) f := by
      intro row
      cases row with
      | some record => exact readsStore_servedCheck m _ record
      | none => exact ⟨_, readsStore_pure ()⟩
    choose f hf using hcheck
    refine ⟨_, readsStore_bind (readsStore_check _) fun _ => readsStore_bind (readsStore_bind
      (readsStore_readStore _) fun row => readsStore_bind (hf row) fun _ => readsStore_bind
        (readsStore_readStore _) fun log => readsStore_bind (readsStore_orFail _ log) fun text =>
          readsStore_bind (readsStore_check _) fun _ => readsStore_pure _) fun _ =>
            readsStore_pure _⟩
  · exact ⟨_, readsStore_pure none⟩

theorem passesOn_pure : PassesOn (pure none : NodeM P.edge (Option PublicAnswer)) :=
  fun _ _ h => (Prod.mk.inj h).2.symm

theorem transparent_webvhDispatch (h : n.Coherent P) {request : PublicRequest P}
    (hcurrent : current → WebsApart n.edge.store)
    (hlog : current → slotOf "/did-witness.json" request.path = none) :
    Transparent P current (webvhDispatch P request) n ∧
      PassesOn (webvhDispatch P request : NodeM P.edge _) := by
  unfold webvhDispatch
  split
  · rename_i m hslot
    refine ⟨transparent_bind h (readsStore_check _) fun _ hchecked => ?_,
      passesOn_bind (readsStore_check _) fun _ => passesOn_some _⟩
    have hvalid : validateMnemonic m = .ok () := by
      cases hm : validateMnemonic m with
      | ok u => rfl
      | error e =>
          rw [hm] at hchecked
          contradiction
    exact transparent_map (transparent_serveContent h hvalid hcurrent true _) some
  · split
    · rename_i m hslot
      refine ⟨transparent_bind h (readsStore_check _) fun _ _ => ?_,
        passesOn_bind (readsStore_check _) fun _ => passesOn_some _⟩
      have hwitness : ¬current := by
        intro hfits
        rw [hlog hfits] at hslot
        contradiction
      exact transparent_map (transparent_serveWitness h hwitness m false _) some
    · exact ⟨transparent_reads h (readsStore_pure none), passesOn_pure⟩

theorem transparent_websDispatch (request : PublicRequest P) (hkeyed : n.edge.store.Keyed)
    (h : n.Coherent P) (hcurrent : current → WebsApart n.edge.store) :
    Transparent P current (websDispatch P request) n ∧
      PassesOn (websDispatch P request : NodeM P.edge _) := by
  unfold websDispatch
  split
  · rename_i m hslot
    refine ⟨transparent_bind h (readsStore_check _) fun _ _ => ?_,
      passesOn_bind (readsStore_check _) fun _ => passesOn_some _⟩
    exact transparent_map (transparent_serveKeriCesr h hcurrent m _) some
  · split
    · rename_i m hslot
      split
      · obtain ⟨f, hreads, hfound⟩ := readsStore_websRecord (P := P) m request.requestHost
        refine ⟨transparent_bind h hreads fun held hheld => ?_,
          passesOn_bind hreads fun held => ?_⟩
        · exact transparent_websDidJson hkeyed h hcurrent (hfound _ held hheld)
        · cases held with
          | none => exact passesOn_pure
          | some record => exact passesOn_some _
      · exact ⟨transparent_reads h (readsStore_pure none), passesOn_pure⟩
    · exact ⟨transparent_reads h (readsStore_pure none), passesOn_pure⟩

/-- A request keeps the cache coherent.  Its answer, if it is not for a witness file, does
not depend on the cache. -/
theorem transparent_servePublic (hkeyed : n.edge.store.Keyed) (h : n.Coherent P)
    {request : PublicRequest P} (hcurrent : current → WebsApart n.edge.store)
    (hlog : current → slotOf "/did-witness.json" request.path = none) :
    Transparent P current (servePublic P request) n := by
  obtain ⟨hwebvh, hwebvhPasses⟩ := transparent_webvhDispatch h hcurrent hlog
  obtain ⟨hwebs, hwebsPasses⟩ := transparent_websDispatch request hkeyed h hcurrent
  obtain ⟨f, hweb⟩ := readsStore_webDispatch request
  have hlast : Transparent P current (webDispatch P request) n := transparent_reads h hweb
  refine transparent_orNext hwebvh hwebvhPasses ?_
  split
  · exact transparent_orNext hwebs hwebsPasses hlast
  · exact hlast

end Routes

/-! ## Operations that do not overlap -/

section Runs

variable {P : PublicState} {n : Node}

/-- The node after an operation that nothing overlaps. -/
def Node.after (n : Node) (op : NodeOp P) : Node :=
  op.handler.effect noInputs n

theorem Node.after_eq {t : Node} {op : NodeOp P}
    {outcome : Option (Except ResolutionError (Option PublicAnswer))}
    (h : op.handler.alone noInputs n = (outcome, t)) : n.after op = t := by
  unfold Node.after Atomic.effect
  rw [h]

theorem NodeInv.after (h : NodeInv P n) (op : NodeOp P) : NodeInv P (n.after op) :=
  (promises_handler op).effect (fun _ _ => trivial) h noInputs

theorem NodeInv.keyed (h : NodeInv P n) : n.edge.store.Keyed :=
  fun m record hrecord => (h.rows.record m record hrecord).1

theorem coherent_after (hinv : NodeInv P n) (h : n.Coherent P) (op : NodeOp P) :
    (n.after op).Coherent P := by
  have hquiet : ∀ {p : NodeM P.edge Unit}, KeepsCoherent p n →
      ((p >>= fun _ => pure (none : Option PublicAnswer)).effect noInputs n).Coherent P := by
    intro p hp
    rw [Atomic.effect_bind_pure]
    exact hp.effect fun _ => trivial
  cases op with
  | get request =>
      have hserved : Transparent P False (servePublic P request) n :=
        transparent_servePublic hinv.keyed h False.elim False.elim
      exact hserved.coherent
  | directive op => exact hquiet (coherent_directiveNode hinv h op)
  | reconcile replies => exact hquiet (coherent_reconcileNode hinv h replies)
  | evictExpired => exact TtlCache.Holds.evictExpired h n.now
  | pass elapsed => exact h

/-- Along a run without overlaps the cache is coherent. -/
theorem coherent_run (hinv : NodeInv P n) (h : n.Coherent P) (ops : List (NodeOp P)) :
    NodeInv P (Run.exec Node.after n ops) ∧ (Run.exec Node.after n ops).Coherent P := by
  induction ops generalizing n with
  | nil => exact ⟨hinv, h⟩
  | cons op ops ih => exact ih (hinv.after op) (coherent_after hinv h op)

/-- Whatever directives, tasks and requests an edge handles one after the other: the answer to
a request that is not for a witness file is the one it gives with an empty cache, where
did:webs slots are outside the grammar of did:webvh paths. -/
theorem cached_answers_current (P : PublicState) (assignments : Table String AssignmentEntry)
    (pendingPurges : Table String PendingPurge) (domains : Table String DomainEntry)
    (defaultDomain : Option String) (ttl now : ℕ) (ops : List (NodeOp P))
    (request : PublicRequest P) :
    let n := Run.exec Node.after
      (Node.initial assignments pendingPurges domains defaultDomain ttl now) ops
    slotOf "/did-witness.json" request.path = none → WebsApart n.edge.store →
      ∃ answer, ((NodeOp.get request).handler.alone noInputs n).1 = some answer ∧
        ((NodeOp.get request).handler.alone noInputs n.emptied).1 = some answer := by
  intro n hpath hapart
  obtain ⟨hinv, hcoherent⟩ := coherent_run
    (NodeInv.initial P assignments pendingPurges domains defaultDomain ttl now)
    (TtlCache.holds_new ttl) ops
  have hserved : Transparent P True (servePublic P request) n :=
    transparent_servePublic hinv.keyed hcoherent (fun _ => hapart) fun _ => hpath
  obtain ⟨answer, hanswer, hsame⟩ := hserved.answer
  exact ⟨answer, hanswer, hsame trivial⟩

theorem edge_after_get (hinv : NodeInv P n) (h : n.Coherent P) (request : PublicRequest P) :
    (n.after (.get request)).edge = n.edge := by
  have hserved : Transparent P False (servePublic P request) n :=
    transparent_servePublic hinv.keyed h False.elim False.elim
  exact hserved.edge

end Runs

section Sample

open PublicSample Reference

/-- The node that has applied the update and answered the request once. -/
def warm : Node :=
  Run.exec Node.after node [(.directive (.syncUpdate 1 update) : NodeOp server), .get request]

theorem after_update :
    node.after (.directive (.syncUpdate 1 update) : NodeOp server) = synced :=
  Node.after_eq alone_update

theorem edge_warm : warm.edge = synced.edge := by
  have hinv : NodeInv server node := NodeInv.initial server ∅ ∅ ∅ none 60 0
  have hcoherent : node.Coherent server := TtlCache.holds_new 60
  unfold warm
  rw [Run.exec_cons, Run.exec_cons, Run.exec_nil,
    edge_after_get (hinv.after _) (coherent_after hinv hcoherent _), after_update]

/-- An update with a record of another method leaves did:webs slots apart. -/
theorem WebsApart.updated {L : Libs} {update : DidSyncUpdate} {method : Method}
    {previous : Option DidRecord} {record : DidRecord} {identity : String} {s : EdgeStore}
    (h : WebsApart s) (hmethod : record.method ≠ .webs) :
    WebsApart (EdgeStore.commit (.dids (updateBatch L update method previous record identity))
      s) := by
  obtain ⟨-, -, hrecords, -⟩ := updated_store L update method previous record identity s
  intro m record' hrecord' hwebs
  rw [hrecords] at hrecord'
  split at hrecord'
  · rw [← Option.some.inj hrecord'] at hwebs
    exact absurd hwebs hmethod
  · exact h m record' hrecord' hwebs

theorem websApart_synced : WebsApart synced.edge.store := by
  have hnode : WebsApart node.edge.store := fun m record hrecord => by contradiction
  have hmethod : (syncedRecordOf [al1] didAl "al" false 1).method = .webvh := rfl
  refine hnode.updated ?_
  rw [hmethod]
  decide

theorem path_request : slotOf "/did-witness.json" request.path = none := by
  unfold slotOf
  decide +kernel

/-- The second answer to a request is the first one again. -/
theorem cached_answers_current_warm :
    ((NodeOp.get request).handler.alone noInputs warm).1 = some (.ok (some answer)) := by
  have hapart : WebsApart warm.edge.store := by
    rw [edge_warm]
    exact websApart_synced
  have hfresh : ((NodeOp.get request).handler.alone noInputs warm.emptied).1 =
      some (.ok (some answer)) :=
    alone_request (warm.edge_emptied.trans edge_warm) (warm.get_emptied _)
  unfold warm node at hapart hfresh ⊢
  obtain ⟨found, hwarm, hempty⟩ := cached_answers_current server ∅ ∅ ∅ none 60 0
    [.directive (.syncUpdate 1 update), .get request] request path_request hapart
  exact hwarm.trans (hempty.symm.trans hfresh)

end Sample

end DidHosting
