import DidHosting.Edge.PurgeFaults
import DidHosting.Edge.Sweep

/-!
# Sweeps that fail at a slot

For each pending purge that is due, a sweep deletes the slots of its domain, then the
record of a domain whose grace has expired, and at last the pending row.  It does not look
at the report of the purge: a slot that could not be deleted does not keep it from clearing
the rows.

Here every access to the store may fail.  A sweep finishes what it clears exactly when no
slot fails of a domain whose rows it gets to clear.
-/

namespace DidHosting.Faulty

open Text

/-! ## The sweep -/

/-- Which accesses of a sweep fail: the listing, and for an entry the scan of the records,
the deletion of a slot, the deletion of the domain's record, and that of the pending row. -/
structure SweepFaults where
  list : Bool
  scan : PendingPurge → Bool
  slot : PendingPurge → DidRecord → Bool
  domainRecord : PendingPurge → Bool
  row : PendingPurge → Bool

def deleteDomainRecord (L : Libs) (fails : Bool) (name : String) (s : EdgeStore) :
    Option EdgeStore :=
  match normalizeDomainName L name with
  | .error _ => none
  | .ok canonical =>
      if s.defaultDomain = some canonical then none
      else if (s.domains.lookup canonical).isNone then none
      else if fails then none
      else some (EdgeStore.commit (.removeDomain canonical) s)

/-- What a due entry still needs after its slots are gone. -/
def finishPurge (L : Libs) (faults : SweepFaults) (entry : PendingPurge) (s : EdgeStore) :
    Option EdgeStore :=
  if entry.reason = disablePurgeReason then
    deleteDomainRecord L (faults.domainRecord entry) entry.domain s
  else some s

def cancelPurge (fails : Bool) (domain : String) (s : EdgeStore) : EdgeStore :=
  if fails then s else s.cancelled domain

/-- One round of the loop of `run_sweep_once`: whether the entry was processed. -/
def sweepEntry (L : Libs) (faults : SweepFaults) (now : ℕ) (entry : PendingPurge)
    (s : EdgeStore) : Bool × EdgeStore :=
  if !entry.isRipe now then (false, s)
  else if faults.scan entry then (false, s)
  else
    let purged := (purgeDomainDids L entry.domain (faults.slot entry) s).2
    match finishPurge L faults entry purged with
    | none => (false, purged)
    | some finished => (true, cancelPurge (faults.row entry) entry.domain finished)

/-- The loop of `run_sweep_once`. -/
def sweepLoop (L : Libs) (faults : SweepFaults) (now purged : ℕ) (s : EdgeStore) :
    List PendingPurge → ℕ × EdgeStore
  | [] => (purged, s)
  | entry :: rest =>
      let round := sweepEntry L faults now entry s
      sweepLoop L faults now (if round.1 then purged + 1 else purged) round.2 rest

def runSweepOnce (L : Libs) (faults : SweepFaults) (now : ℕ) (s : EdgeStore) : ℕ × EdgeStore :=
  if faults.list then (0, s)
  else sweepLoop L faults now 0 s ((Table.rows s.pendingPurges).map Prod.snd)

/-- No access fails. -/
def faultless : SweepFaults :=
  ⟨false, fun _ => false, fun _ _ => false, fun _ => false, fun _ => false⟩

/-! ## One round -/

section

variable {L : Libs} {faults : SweepFaults} {now : ℕ} {entry : PendingPurge} {s : EdgeStore}

/-- The sweep deletes the slots of the entry's domain. -/
structure Processes (faults : SweepFaults) (now : ℕ) (entry : PendingPurge) : Prop where
  ripe : entry.isRipe now = true
  scanned : faults.scan entry = false

/-- The record of the entry's domain can be deleted. -/
structure Deletable (L : Libs) (faults : SweepFaults) (s : EdgeStore) (entry : PendingPurge) :
    Prop where
  canonical : normalizeDomainName L entry.domain = .ok entry.domain
  not_default : s.defaultDomain ≠ some entry.domain
  held : (s.domains.lookup entry.domain).isSome
  deleted : faults.domainRecord entry = false

/-- Nothing is left of the entry but its row. -/
def Finishes (L : Libs) (faults : SweepFaults) (s : EdgeStore) (entry : PendingPurge) : Prop :=
  entry.reason = disablePurgeReason → Deletable L faults s entry

theorem deleteDomainRecord_eq (L : Libs) (faults : SweepFaults) (entry : PendingPurge)
    (s : EdgeStore) :
    Deletable L faults s entry ∧
        deleteDomainRecord L (faults.domainRecord entry) entry.domain s =
          some (EdgeStore.commit (.removeDomain entry.domain) s) ∨
      ¬Deletable L faults s entry ∧
        deleteDomainRecord L (faults.domainRecord entry) entry.domain s = none := by
  unfold deleteDomainRecord
  cases hnormal : normalizeDomainName L entry.domain with
  | error e =>
      right
      refine ⟨fun h => ?_, rfl⟩
      rw [h.canonical] at hnormal
      cases hnormal
  | ok canonical =>
      obtain rfl := normalizeDomainName_eq hnormal
      dsimp only
      by_cases hdefault : s.defaultDomain = some entry.domain
      · rw [if_pos hdefault]
        exact Or.inr ⟨fun h => h.not_default hdefault, rfl⟩
      rw [if_neg hdefault]
      cases hheld : s.domains.lookup entry.domain with
      | none =>
          right
          refine ⟨fun h => ?_, rfl⟩
          have hsome := h.held
          rw [hheld] at hsome
          cases hsome
      | some held =>
          rw [if_neg (by simp)]
          cases hfails : faults.domainRecord entry with
          | true =>
              right
              refine ⟨fun h => ?_, rfl⟩
              rw [h.deleted] at hfails
              cases hfails
          | false => exact Or.inl ⟨⟨hnormal, hdefault, by rw [hheld]; rfl, hfails⟩, rfl⟩

/-- What one round does to the rows besides those of the slots. -/
structure RoundSpec (L : Libs) (faults : SweepFaults) (entry : PendingPurge)
    (s t : EdgeStore) : Prop where
  slots : t.ks = (purgeDomainDids L entry.domain (faults.slot entry) s).2.ks
  defaultDomain : t.defaultDomain = s.defaultDomain
  domain_cleared : entry.reason = disablePurgeReason → Deletable L faults s entry →
    t.domains.lookup entry.domain = none
  domains : ∀ d, t.domains.lookup d = s.domains.lookup d ∨
    d = entry.domain ∧ entry.reason = disablePurgeReason ∧ Deletable L faults s entry
  row_cleared : Finishes L faults s entry → faults.row entry = false →
    t.pendingPurges.lookup entry.domain = none
  pendingPurges : ∀ d, t.pendingPurges.lookup d = s.pendingPurges.lookup d ∨
    d = entry.domain ∧ Finishes L faults s entry ∧ faults.row entry = false

theorem deletable_congr {t : EdgeStore} (h : DidsOnly s t) :
    Deletable L faults t entry ↔ Deletable L faults s entry := by
  constructor
  · exact fun hd => ⟨hd.canonical, h.defaultDomain ▸ hd.not_default, h.domains ▸ hd.held,
      hd.deleted⟩
  · exact fun hd => ⟨hd.canonical, h.defaultDomain.symm ▸ hd.not_default,
      h.domains.symm ▸ hd.held, hd.deleted⟩

@[simp] theorem cancelPurge_ks (fails : Bool) (domain : String) (s : EdgeStore) :
    (cancelPurge fails domain s).ks = s.ks := by
  cases fails with
  | true => rfl
  | false => exact EdgeStore.cancelled_ks s domain

@[simp] theorem cancelPurge_domains (fails : Bool) (domain : String) (s : EdgeStore) :
    (cancelPurge fails domain s).domains = s.domains := by
  cases fails with
  | true => rfl
  | false => exact EdgeStore.cancelled_domains s domain

@[simp] theorem cancelPurge_defaultDomain (fails : Bool) (domain : String) (s : EdgeStore) :
    (cancelPurge fails domain s).defaultDomain = s.defaultDomain := by
  cases fails with
  | true => rfl
  | false =>
      change (s.cancelled domain).defaultDomain = _
      unfold EdgeStore.cancelled
      split <;> rfl

theorem cancelPurge_pendingPurges (fails : Bool) (domain d : String) (s : EdgeStore) :
    (cancelPurge fails domain s).pendingPurges.lookup d =
      if d = domain ∧ fails = false then none else s.pendingPurges.lookup d := by
  cases fails with
  | true => rw [if_neg fun hboth => nomatch hboth.2]; rfl
  | false =>
      rw [if_congr (and_iff_left rfl) rfl rfl]
      exact EdgeStore.cancelled_pendingPurges s domain d

/-- The domain's record may go. -/
theorem finishPurge_eq (L : Libs) (faults : SweepFaults) (entry : PendingPurge) (s : EdgeStore) :
    ¬Finishes L faults s entry ∧ finishPurge L faults entry s = none ∨
      Finishes L faults s entry ∧ ∃ t, finishPurge L faults entry s = some t ∧ t.ks = s.ks ∧
        t.defaultDomain = s.defaultDomain ∧ t.pendingPurges = s.pendingPurges ∧
        ∀ d, t.domains.lookup d =
          if d = entry.domain ∧ entry.reason = disablePurgeReason then none
          else s.domains.lookup d := by
  unfold finishPurge
  by_cases hreason : entry.reason = disablePurgeReason
  · rw [if_pos hreason]
    obtain ⟨hdeletable, heq⟩ | ⟨hnot, heq⟩ := deleteDomainRecord_eq L faults entry s
    · right
      refine ⟨fun _ => hdeletable, _, heq, rfl, rfl, rfl, fun d => ?_⟩
      rw [if_congr (and_iff_left hreason) rfl rfl]
      exact Table.lookup_erase_ite _ _ _
    · exact Or.inl ⟨fun hfinishes => hnot (hfinishes hreason), heq⟩
  · rw [if_neg hreason]
    right
    refine ⟨fun hdisable => absurd hdisable hreason, s, rfl, rfl, rfl, rfl, fun d => ?_⟩
    rw [if_neg fun hboth => hreason hboth.2]

theorem finishes_congr {t : EdgeStore} (h : DidsOnly s t) :
    Finishes L faults t entry ↔ Finishes L faults s entry :=
  imp_congr_right fun _ => deletable_congr h

/-- A round that gets to the slots of its domain. -/
theorem sweepEntry_spec (L : Libs) (h : Processes faults now entry) (s : EdgeStore) :
    RoundSpec L faults entry s (sweepEntry L faults now entry s).2 := by
  obtain ⟨purged, hpurged⟩ :
      ∃ purged, (purgeDomainDids L entry.domain (faults.slot entry) s).2 = purged := ⟨_, rfl⟩
  have hsame : DidsOnly s purged :=
    hpurged ▸ didsOnly_purgeDomainDids L entry.domain (faults.slot entry) s
  have hks : purged.ks = (purgeDomainDids L entry.domain (faults.slot entry) s).2.ks :=
    congrArg EdgeStore.ks hpurged.symm
  unfold sweepEntry
  rw [h.ripe, h.scanned, Bool.not_true, if_neg Bool.false_ne_true, if_neg Bool.false_ne_true]
  dsimp only
  rw [hpurged]
  obtain ⟨hnot, heq⟩ | ⟨hfinishes, t, heq, htks, htdefault, htrows, htdomains⟩ :=
    finishPurge_eq L faults entry purged
  · -- the record of the domain stays, and so does the row
    rw [heq]
    rw [finishes_congr hsame] at hnot
    refine ⟨hks, hsame.defaultDomain, fun _ hd => absurd (fun _ => hd) hnot, fun d => ?_,
      fun hfinishes => absurd hfinishes hnot, fun d => ?_⟩
    · exact Or.inl (congrArg (·.lookup d) hsame.domains)
    · exact Or.inl (congrArg (·.lookup d) hsame.pendingPurges)
  · rw [heq]
    rw [finishes_congr hsame] at hfinishes
    dsimp only
    refine ⟨?_, ?_, fun hreason _ => ?_, fun d => ?_, fun _ hfails => ?_, fun d => ?_⟩
    · rw [cancelPurge_ks, htks, hks]
    · rw [cancelPurge_defaultDomain, htdefault, hsame.defaultDomain]
    · rw [cancelPurge_domains, htdomains, if_pos ⟨rfl, hreason⟩]
    · rw [cancelPurge_domains, htdomains]
      by_cases hboth : d = entry.domain ∧ entry.reason = disablePurgeReason
      · exact Or.inr ⟨hboth.1, hboth.2, hfinishes hboth.2⟩
      · rw [if_neg hboth, hsame.domains]
        exact Or.inl rfl
    · rw [cancelPurge_pendingPurges, if_pos ⟨rfl, hfails⟩]
    · rw [cancelPurge_pendingPurges]
      by_cases hboth : d = entry.domain ∧ faults.row entry = false
      · exact Or.inr ⟨hboth.1, hfinishes, hboth.2⟩
      · rw [if_neg hboth, htrows, hsame.pendingPurges]
        exact Or.inl rfl

/-- A round that gets no further changes nothing. -/
theorem sweepEntry_of_not_processes (h : ¬Processes faults now entry) :
    (sweepEntry L faults now entry s).2 = s := by
  unfold sweepEntry
  cases hripe : entry.isRipe now with
  | false => rfl
  | true =>
      cases hscan : faults.scan entry with
      | true => rfl
      | false => exact absurd ⟨hripe, hscan⟩ h

theorem record_purgeDomainDids {target : String} {fails : DidRecord → Bool} (hkeyed : s.Keyed)
    {m : String} {record : DidRecord} :
    (purgeDomainDids L target fails s).2.record m = some record ↔
      s.record m = some record ∧ (Tagged target record → fails record = true) := by
  have hrow : ∀ t : EdgeStore, t.record m = some record ↔
      t.ks.row (.did m) = some (.record record) := by
    intro t
    change t.ks.dids.lookup m = some record ↔ (t.ks.dids.lookup m).map RowValue.record = _
    cases t.ks.dids.lookup m with
    | none => exact ⟨nofun, nofun⟩
    | some r => simp
  have hmnemonic : ∀ r, .did m ∈ slotRows L r ↔ m = r.mnemonic := by
    intro r
    simp [slotRows]
  rw [hrow, hrow, row_purgeDomainDids]
  constructor
  · intro h
    split at h
    · cases h
    · rename_i hnone
      refine ⟨h, fun htagged => ?_⟩
      by_contra hfails
      have hrecord := (hrow s).mpr h
      exact hnone ⟨record, mem_allRecords.mpr ⟨m, hrecord⟩, htagged,
        eq_false_of_ne_true hfails, (hmnemonic record).mpr (hkeyed m record hrecord).symm⟩
  · rintro ⟨h, hfails⟩
    rw [if_neg, h]
    rintro ⟨r, hmem, htagged, hdeleted, hr⟩
    obtain ⟨m', hr'⟩ := mem_allRecords.mp hmem
    have hm : m' = m := (hkeyed m' r hr').symm.trans ((hmnemonic r).mp hr).symm
    have hrecord := (hrow s).mpr h
    rw [hm, hrecord] at hr'
    cases hr'
    rw [hfails htagged] at hdeleted
    cases hdeleted

/-! ## The loop -/

/-- What the rounds of a list of entries leave. -/
structure SweepSpec (L : Libs) (faults : SweepFaults) (now : ℕ) (entries : List PendingPurge)
    (s t : EdgeStore) : Prop where
  record : ∀ m record, t.record m = some record ↔ s.record m = some record ∧
    ∀ e ∈ entries, Processes faults now e → Tagged e.domain record → faults.slot e record = true
  defaultDomain : t.defaultDomain = s.defaultDomain
  domain_cleared : ∀ e ∈ entries, Processes faults now e → e.reason = disablePurgeReason →
    Deletable L faults s e → t.domains.lookup e.domain = none
  domains : ∀ d, t.domains.lookup d = s.domains.lookup d ∨ ∃ e ∈ entries, d = e.domain ∧
    Processes faults now e ∧ e.reason = disablePurgeReason ∧ Deletable L faults s e
  row_cleared : ∀ e ∈ entries, Processes faults now e → Finishes L faults s e →
    faults.row e = false → t.pendingPurges.lookup e.domain = none
  pendingPurges : ∀ d, t.pendingPurges.lookup d = s.pendingPurges.lookup d ∨
    ∃ e ∈ entries, d = e.domain ∧ Processes faults now e ∧ Finishes L faults s e ∧
      faults.row e = false

theorem SweepSpec.nil (s : EdgeStore) : SweepSpec L faults now [] s s where
  record _ _ := ⟨fun h => ⟨h, fun _ he => absurd he List.not_mem_nil⟩, And.left⟩
  defaultDomain := rfl
  domain_cleared _ he := absurd he List.not_mem_nil
  domains _ := Or.inl rfl
  row_cleared _ he := absurd he List.not_mem_nil
  pendingPurges _ := Or.inl rfl

theorem sweepEntry_sweepSpec (L : Libs) (faults : SweepFaults) (now : ℕ) (entry : PendingPurge)
    (hkeyed : s.Keyed) :
    SweepSpec L faults now [entry] s (sweepEntry L faults now entry s).2 := by
  by_cases h : Processes faults now entry
  · have hround := sweepEntry_spec L h s
    refine ⟨fun m record => ?_, hround.defaultDomain, ?_, fun d => ?_, ?_, fun d => ?_⟩
    · rw [List.forall_mem_singleton]
      have hslots : (sweepEntry L faults now entry s).2.record m =
          (purgeDomainDids L entry.domain (faults.slot entry) s).2.record m :=
        congrArg (fun ks : DidsKs => ks.dids.lookup m) hround.slots
      rw [hslots, record_purgeDomainDids hkeyed]
      exact and_congr_right fun _ => ⟨fun hleft _ => hleft, fun hleft => hleft h⟩
    · rw [List.forall_mem_singleton]
      exact fun _ => hround.domain_cleared
    · obtain hsame | ⟨hd, hreason, hdeletable⟩ := hround.domains d
      · exact Or.inl hsame
      · exact Or.inr ⟨entry, List.mem_cons_self, hd, h, hreason, hdeletable⟩
    · rw [List.forall_mem_singleton]
      exact fun _ => hround.row_cleared
    · obtain hsame | ⟨hd, hfinishes, hrow⟩ := hround.pendingPurges d
      · exact Or.inl hsame
      · exact Or.inr ⟨entry, List.mem_cons_self, hd, h, hfinishes, hrow⟩
  · rw [sweepEntry_of_not_processes h]
    refine ⟨fun m record => ?_, rfl, ?_, fun d => Or.inl rfl, ?_, fun d => Or.inl rfl⟩
    · rw [List.forall_mem_singleton]
      exact ⟨fun hrecord => ⟨hrecord, fun hprocesses => absurd hprocesses h⟩, And.left⟩
    · rw [List.forall_mem_singleton]
      exact fun hprocesses => absurd hprocesses h
    · rw [List.forall_mem_singleton]
      exact fun hprocesses => absurd hprocesses h

/-- A round does not change what the rounds of other domains find. -/
theorem SweepSpec.deletable_iff {t : EdgeStore} (h : SweepSpec L faults now [entry] s t)
    {e : PendingPurge} (he : e.domain ≠ entry.domain) :
    Deletable L faults t e ↔ Deletable L faults s e := by
  have hheld : t.domains.lookup e.domain = s.domains.lookup e.domain := by
    obtain hsame | ⟨e', he', hd, -⟩ := h.domains e.domain
    · exact hsame
    · rw [List.mem_singleton.mp he'] at hd
      exact absurd hd he
  constructor
  · exact fun hd => ⟨hd.canonical, h.defaultDomain ▸ hd.not_default, hheld ▸ hd.held, hd.deleted⟩
  · exact fun hd => ⟨hd.canonical, h.defaultDomain.symm ▸ hd.not_default, hheld.symm ▸ hd.held,
      hd.deleted⟩

/-- The rounds after a round, for other domains. -/
theorem SweepSpec.cons {t u : EdgeStore} {rest : List PendingPurge}
    (h : SweepSpec L faults now [entry] s t) (hrest : SweepSpec L faults now rest t u)
    (hother : ∀ e ∈ rest, e.domain ≠ entry.domain) :
    SweepSpec L faults now (entry :: rest) s u := by
  have hdeletable : ∀ e ∈ rest, Deletable L faults t e ↔ Deletable L faults s e :=
    fun e he => h.deletable_iff (hother e he)
  have hfinishes : ∀ e ∈ rest, Finishes L faults t e ↔ Finishes L faults s e :=
    fun e he => imp_congr_right fun _ => hdeletable e he
  refine ⟨fun m record => ?_, hrest.defaultDomain.trans h.defaultDomain, ?_, fun d => ?_, ?_,
    fun d => ?_⟩
  · rw [hrest.record, h.record, List.forall_mem_singleton, List.forall_mem_cons, and_assoc]
  · refine List.forall_mem_cons.mpr ⟨fun hprocesses hreason hd => ?_,
      fun e he hprocesses hreason hd => ?_⟩
    · obtain hsame | ⟨e, he, heq, -⟩ := hrest.domains entry.domain
      · rw [hsame]
        exact h.domain_cleared entry List.mem_cons_self hprocesses hreason hd
      · exact absurd heq.symm (hother e he)
    · exact hrest.domain_cleared e he hprocesses hreason ((hdeletable e he).mpr hd)
  · obtain hsame | ⟨e, he, hd, hprocesses, hreason, hdel⟩ := hrest.domains d
    · rw [hsame]
      obtain hfirst | ⟨e, he, hcleared⟩ := h.domains d
      · exact Or.inl hfirst
      · exact Or.inr ⟨e, List.mem_cons.mpr (Or.inl (List.mem_singleton.mp he)), hcleared⟩
    · exact Or.inr ⟨e, List.mem_cons_of_mem _ he, hd, hprocesses, hreason,
        (hdeletable e he).mp hdel⟩
  · refine List.forall_mem_cons.mpr ⟨fun hprocesses hfin hrow => ?_,
      fun e he hprocesses hfin hrow => ?_⟩
    · obtain hsame | ⟨e, he, heq, -⟩ := hrest.pendingPurges entry.domain
      · rw [hsame]
        exact h.row_cleared entry List.mem_cons_self hprocesses hfin hrow
      · exact absurd heq.symm (hother e he)
    · exact hrest.row_cleared e he hprocesses ((hfinishes e he).mpr hfin) hrow
  · obtain hsame | ⟨e, he, hd, hprocesses, hfin, hrow⟩ := hrest.pendingPurges d
    · rw [hsame]
      obtain hfirst | ⟨e, he, hcleared⟩ := h.pendingPurges d
      · exact Or.inl hfirst
      · exact Or.inr ⟨e, List.mem_cons.mpr (Or.inl (List.mem_singleton.mp he)), hcleared⟩
    · exact Or.inr ⟨e, List.mem_cons_of_mem _ he, hd, hprocesses, (hfinishes e he).mp hfin, hrow⟩

/-- The loop over entries of different domains. -/
theorem sweepLoop_spec (L : Libs) (faults : SweepFaults) (now : ℕ) {entries : List PendingPurge}
    (hdistinct : entries.Pairwise fun e e' => e.domain ≠ e'.domain) (purged : ℕ)
    (hkeyed : s.Keyed) :
    SweepSpec L faults now entries s (sweepLoop L faults now purged s entries).2 := by
  induction entries generalizing purged s with
  | nil => exact SweepSpec.nil s
  | cons entry rest ih =>
      obtain ⟨hother, hdistinct⟩ := List.pairwise_cons.mp hdistinct
      have hround := sweepEntry_sweepSpec L faults now entry hkeyed
      have hkeyed' : (sweepEntry L faults now entry s).2.Keyed :=
        fun m record hrecord => hkeyed m record ((hround.record m record).mp hrecord).1
      exact hround.cons (ih hdistinct _ hkeyed') fun e he => (hother e he).symm

/-! ## What a sweep clears -/

/-- The sweep has taken the pending row or the record of the domain. -/
def Cleared (s t : EdgeStore) (d : String) : Prop :=
  (s.pendingPurges.lookup d).isSome ∧ t.pendingPurges.lookup d = none ∨
    (s.domains.lookup d).isSome ∧ t.domains.lookup d = none

/-- The sweep gets to clear a row of the entry: the domain's record, when its grace has
expired, and else the pending row. -/
def Clears (L : Libs) (faults : SweepFaults) (s : EdgeStore) (entry : PendingPurge) : Prop :=
  entry.reason = disablePurgeReason ∧ Deletable L faults s entry ∨
    entry.reason ≠ disablePurgeReason ∧ faults.row entry = false

/-- Every pending purge is filed under its domain. -/
def PurgesFiled (s : EdgeStore) : Prop :=
  ∀ d entry, s.pendingPurges.lookup d = some entry → entry.domain = d ∧ d ≠ ""

theorem pairwise_pendingPurges (h : PurgesFiled s) :
    ((Table.rows s.pendingPurges).map Prod.snd).Pairwise fun e e' => e.domain ≠ e'.domain := by
  have hkeys := Table.keys_rows_nodup s.pendingPurges
  rw [List.Nodup, List.pairwise_map] at hkeys
  rw [List.pairwise_map]
  refine hkeys.imp_of_mem ?_
  rintro ⟨d, e⟩ ⟨d', e'⟩ hmem hmem' hne
  rw [(h d e (Table.mem_rows.mp hmem)).1, (h d' e' (Table.mem_rows.mp hmem')).1]
  exact hne

theorem mem_pendingPurges {e : PendingPurge} :
    e ∈ (Table.rows s.pendingPurges).map Prod.snd ↔ ∃ d, s.pendingPurges.lookup d = some e := by
  rw [List.mem_map]
  constructor
  · rintro ⟨⟨d, e'⟩, hmem, rfl⟩
    exact ⟨d, Table.mem_rows.mp hmem⟩
  · rintro ⟨d, hrow⟩
    exact ⟨(d, e), Table.mem_rows.mpr hrow, rfl⟩

/-- A sweep clears the rows of a domain only with all of its slots, if and only if no
deletion of a slot fails of a domain that it gets to clear. -/
theorem sweep_finishes_iff (L : Libs) (faults : SweepFaults) (now : ℕ) (s : EdgeStore)
    (hkeyed : s.Keyed) (hfiled : PurgesFiled s) :
    (∀ d, Cleared s (runSweepOnce L faults now s).2 d →
        (runSweepOnce L faults now s).2.Vacated d) ↔
      (faults.list = false → ∀ d entry, s.pendingPurges.lookup d = some entry →
        Processes faults now entry → Clears L faults s entry →
        ∀ m record, s.record m = some record → record.domain = d →
          faults.slot entry record = false) := by
  cases hlist : faults.list with
  | true =>
      unfold runSweepOnce
      rw [hlist, if_pos rfl]
      refine ⟨fun _ hfalse => absurd hfalse (by decide), fun _ d hcleared => ?_⟩
      obtain ⟨hsome, hnone⟩ | ⟨hsome, hnone⟩ := hcleared
      · rw [hnone] at hsome
        cases hsome
      · rw [hnone] at hsome
        cases hsome
  | false =>
      obtain ⟨t, ht⟩ : ∃ t, (runSweepOnce L faults now s).2 = t := ⟨_, rfl⟩
      have hspec : SweepSpec L faults now ((Table.rows s.pendingPurges).map Prod.snd) s t := by
        rw [← ht]
        unfold runSweepOnce
        rw [hlist, if_neg Bool.false_ne_true]
        exact sweepLoop_spec L faults now (pairwise_pendingPurges hfiled) 0 hkeyed
      rw [ht]
      constructor
      · intro hfinish _ d entry hrow hprocesses hclears m record hrecord hdomain
        obtain ⟨hname, hne⟩ := hfiled d entry hrow
        have hmem := mem_pendingPurges.mpr ⟨d, hrow⟩
        have hcleared : Cleared s t d := by
          obtain ⟨hreason, hdeletable⟩ | ⟨hreason, hkept⟩ := hclears
          · right
            rw [← hname]
            exact ⟨hdeletable.held,
              hspec.domain_cleared entry hmem hprocesses hreason hdeletable⟩
          · left
            rw [← hname]
            refine ⟨by rw [hname, hrow]; rfl, ?_⟩
            exact hspec.row_cleared entry hmem hprocesses (fun hdisable => absurd hdisable hreason)
              hkept
        by_contra hfails
        -- the slot whose deletion failed is left
        have hleft : t.record m = some record := by
          refine (hspec.record m record).mpr ⟨hrecord, fun e he _ htagged => ?_⟩
          obtain ⟨d', hrow'⟩ := mem_pendingPurges.mp he
          have hd : d' = d := by
            rw [← (hfiled d' e hrow').1, ← htagged.2, hdomain]
          rw [hd, hrow] at hrow'
          cases hrow'
          exact eq_true_of_ne_false hfails
        exact hfinish d hcleared m record hleft hdomain
      · intro hcondition d hcleared m record hleft hdomain
        obtain ⟨hrecord, hfailed⟩ := (hspec.record m record).mp hleft
        obtain ⟨e, he, hd, hprocesses, hclears⟩ : ∃ e ∈ (Table.rows s.pendingPurges).map Prod.snd,
            d = e.domain ∧ Processes faults now e ∧ Clears L faults s e := by
          obtain ⟨hsome, hnone⟩ | ⟨hsome, hnone⟩ := hcleared
          · obtain hsame | ⟨e, he, hd, hprocesses, hfinishes, hrow⟩ := hspec.pendingPurges d
            · rw [← hsame, hnone] at hsome
              cases hsome
            · refine ⟨e, he, hd, hprocesses, ?_⟩
              by_cases hreason : e.reason = disablePurgeReason
              · exact Or.inl ⟨hreason, hfinishes hreason⟩
              · exact Or.inr ⟨hreason, hrow⟩
          · obtain hsame | ⟨e, he, hd, hprocesses, hreason, hdeletable⟩ := hspec.domains d
            · rw [← hsame, hnone] at hsome
              cases hsome
            · exact ⟨e, he, hd, hprocesses, Or.inl ⟨hreason, hdeletable⟩⟩
        obtain ⟨d', hrow⟩ := mem_pendingPurges.mp he
        obtain ⟨hname, hne⟩ := hfiled d' e hrow
        have hdomain' : record.domain = d' := by rw [hdomain, hd, hname]
        have htagged : Tagged e.domain record :=
          ⟨fun hempty => hne (hdomain'.symm.trans hempty), hdomain.trans hd⟩
        have hdeleted := hcondition rfl d' e hrow hprocesses hclears m record hrecord hdomain'
        rw [hfailed e he hprocesses htagged] at hdeleted
        cases hdeleted

end

namespace FaultSample

/-- The pending purge of the domain, due since time 1. -/
def due : PendingPurge :=
  ⟨"h.io", 0, 1, "grace-expired", "did:c"⟩

/-- A store with one slot, whose domain is due. -/
def scheduled : EdgeStore :=
  { holding [synced] with pendingPurges := AList.insert "h.io" due ∅ }

/-- The deletion of every slot fails, and no other access. -/
def stuck : SweepFaults :=
  { faultless with slot := fun _ _ => true }

theorem lookup_scheduled {d : String} {entry : PendingPurge}
    (h : scheduled.pendingPurges.lookup d = some entry) : d = "h.io" ∧ entry = due := by
  have hrow : ((∅ : Table String PendingPurge).insert "h.io" due).lookup d = some entry := h
  exact (Table.lookup_insert_cases hrow).resolve_right fun hold => nomatch hold

theorem purgesFiled_scheduled : PurgesFiled scheduled := by
  intro d entry h
  obtain ⟨rfl, rfl⟩ := lookup_scheduled h
  exact ⟨rfl, by decide⟩

end FaultSample

open FaultSample in
/-- A sweep without faults clears the domain with its slot. -/
theorem sweep_finishes_iff_scheduled :
    (runSweepOnce Reference.libs faultless 2 scheduled).2.Vacated "h.io" := by
  have hvacated := (sweep_finishes_iff Reference.libs faultless 2 scheduled
    (keyed_holding [synced]) purgesFiled_scheduled).mpr fun _ _ _ _ _ _ _ _ _ _ => rfl
  refine hvacated "h.io" (Or.inl ?_)
  decide +kernel

open FaultSample in
/-- The slot could not be deleted, and the pending row is gone. -/
theorem sweep_clears_failed_domain :
    let t := (runSweepOnce Reference.libs stuck 2 scheduled).2
    Cleared scheduled t "h.io" ∧ t.record "alice" = some synced ∧ synced.domain = "h.io" := by
  have ⟨hdue, hcleared, hslot⟩ : (scheduled.pendingPurges.lookup "h.io").isSome ∧
      (runSweepOnce Reference.libs stuck 2 scheduled).2.pendingPurges.lookup "h.io" = none ∧
      (runSweepOnce Reference.libs stuck 2 scheduled).2.record "alice" = some synced := by
    decide +kernel
  exact ⟨Or.inl ⟨hdue, hcleared⟩, hslot, rfl⟩

/-! ## Sweeps without faults -/

theorem run_deleteDomainRecord (L : Libs) (name : String) (s : EdgeStore) :
    (DidHosting.deleteDomainRecord L name).run s =
      match deleteDomainRecord L false name s with
      | some t => (.ok true, t)
      | none => (.ok false, s) := by
  unfold DidHosting.deleteDomainRecord deleteDomainRecord
  cases normalizeDomainName L name with
  | error e => rfl
  | ok canonical =>
      dsimp only
      rw [Prog.run_bind, Prog.run_liftM]
      simp only [Query.read, Query.eval]
      rw [Prog.run_bind, Prog.run_liftM]
      simp only [Query.eval]
      by_cases hdefault : s.defaultDomain = some canonical
      · rw [if_pos hdefault]
        simp [hdefault, Prog.writeOpt]
        rfl
      · rw [if_neg hdefault]
        cases hrow : s.domains.lookup canonical with
        | none =>
            simp [Prog.writeOpt]
            rfl
        | some held =>
            simp [hdefault, Prog.writeOpt]
            rfl

theorem run_finishPurge (L : Libs) (entry : PendingPurge) (s : EdgeStore) :
    (DidHosting.finishPurge L entry).run s =
      match finishPurge L faultless entry s with
      | some t => (.ok true, t)
      | none => (.ok false, s) := by
  unfold DidHosting.finishPurge finishPurge
  by_cases hreason : entry.reason = disablePurgeReason
  · rw [if_pos hreason, if_pos hreason]
    exact run_deleteDomainRecord L entry.domain s
  · rw [if_neg hreason, if_neg hreason]
    rfl

/-- Where no access fails, the loop is the program that makes them. -/
theorem run_sweepLoop (L : Libs) (now : ℕ) (entries : List PendingPurge) (purged : ℕ)
    (s : EdgeStore) :
    (DidHosting.sweepLoop L now purged entries).run s =
      (.ok (sweepLoop L faultless now purged s entries).1,
        (sweepLoop L faultless now purged s entries).2) := by
  induction entries generalizing purged s with
  | nil => rfl
  | cons entry rest ih =>
      rw [DidHosting.sweepLoop, sweepLoop]
      cases hripe : entry.isRipe now with
      | false =>
          have hround : sweepEntry L faultless now entry s = (false, s) := by
            rw [sweepEntry, hripe]
            rfl
          rw [hround]
          exact ih purged s
      | true =>
          have hround : sweepEntry L faultless now entry s =
              match finishPurge L faultless entry
                (purgeDomainDids L entry.domain (fun _ => false) s).2 with
              | none => (false, (purgeDomainDids L entry.domain (fun _ => false) s).2)
              | some finished => (true, finished.cancelled entry.domain) := by
            rw [sweepEntry, hripe]
            rfl
          obtain ⟨report, hpurge⟩ := run_purgeDomainDids L entry.domain s
          have hfinish := run_finishPurge L entry
            (purgeDomainDids L entry.domain (fun _ => false) s).2
          rw [hround, Bool.not_true, if_neg Bool.false_ne_true, Prog.run_bind_ok hpurge]
          cases hleft : finishPurge L faultless entry
              (purgeDomainDids L entry.domain (fun _ => false) s).2 with
          | none =>
              rw [hleft] at hfinish
              rw [Prog.run_bind_ok hfinish, if_neg Bool.false_ne_true]
              exact ih purged _
          | some finished =>
              rw [hleft] at hfinish
              rw [Prog.run_bind_ok hfinish, if_pos rfl, Prog.run_bind_ok (run_cancelPurge _ _)]
              exact ih (purged + 1) _

theorem run_runSweepOnce (L : Libs) (now : ℕ) (s : EdgeStore) :
    (DidHosting.runSweepOnce L now).run s =
      (.ok (runSweepOnce L faultless now s).1, (runSweepOnce L faultless now s).2) :=
  run_sweepLoop L now _ 0 s

end DidHosting.Faulty
